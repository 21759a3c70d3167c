/-
Module: RentMate.Proofs.SendErrors
Purpose: What `encryptAndSendAll` reports and changes when the encryption or a call of `send`
  fails.
Trusted boundary: none
Main exports: AcceptsFrom, sendallOver_ok, encryptAndSendAllOver_smooth, ReportsErrors,
  reportsErrors_iff
-/
import RentMate.PckData.Sending
import RentMate.Proofs.RoundTrip
import RentMate.Proofs.SessionCodec
import Mathlib.Algebra.BigOperators.Group.Finset.Basic

namespace RentMate.SendErrors

open RentMate.Machine
open RentMate.PckData
open RentMate.ContainerCodec
open RentMate.MessageCodec
open RentMate.SessionCodec

/-! ### Schedules of `send` -/

/-- How many bytes a call of `send` takes of a long enough buffer. -/
def asked : SendOutcome → Nat
  | .accepted count => max 1 count
  | .failed => 0

/-- From this call on, `len` bytes are taken before a call fails. -/
def AcceptsFrom (schedule : Nat → SendOutcome) (first len : Nat) : Prop :=
  ∃ calls, (∀ call < calls, schedule (first + call) ≠ .failed) ∧
    len ≤ ∑ call ∈ Finset.range calls, asked (schedule (first + call))

section Schedules

variable {schedule : Nat → SendOutcome} {first len : Nat}

/-- Nothing left to send is always accepted. -/
theorem acceptsFrom_zero (schedule : Nat → SendOutcome) (first : Nat) :
    AcceptsFrom schedule first 0 :=
  ⟨0, fun _ impossible => absurd impossible (Nat.not_lt_zero _), Nat.zero_le _⟩

/-- A call that fails with bytes left ends the sending. -/
theorem not_acceptsFrom_failed (fails : schedule first = .failed) (some : 0 < len) :
    ¬ AcceptsFrom schedule first len := by
  rintro ⟨calls, works, enough⟩
  cases calls with
  | zero =>
      rw [Finset.sum_range_zero] at enough
      omega
  | succ calls => exact works 0 (Nat.succ_pos calls) fails

/-- A call that takes bytes leaves the others to the calls behind it. -/
theorem acceptsFrom_accepted {count : Nat} (takes : schedule first = .accepted count)
    (some : 0 < len) :
    AcceptsFrom schedule first len ↔
      AcceptsFrom schedule (first + 1) (len - takenOf count len) := by
  have shift : ∀ calls, ∑ call ∈ Finset.range (calls + 1), asked (schedule (first + call)) =
      ∑ call ∈ Finset.range calls, asked (schedule (first + 1 + call)) + max 1 count := by
    intro calls
    rw [Finset.sum_range_succ', Nat.add_zero, takes, asked]
    simp only [Nat.add_right_comm first, ← Nat.add_assoc]
  have left : ∀ total, len ≤ total + max 1 count ↔ len - takenOf count len ≤ total := by
    intro total
    unfold takenOf
    omega
  constructor
  · rintro ⟨calls, works, enough⟩
    cases calls with
    | zero =>
        rw [Finset.sum_range_zero] at enough
        omega
    | succ calls =>
        rw [shift, left] at enough
        refine ⟨calls, fun call inside => ?_, enough⟩
        have works' := works (call + 1) (Nat.succ_lt_succ inside)
        rw [← Nat.add_assoc, Nat.add_right_comm] at works'
        exact works'
  · rintro ⟨calls, works, enough⟩
    refine ⟨calls + 1, fun call inside => ?_, by rw [shift, left]; exact enough⟩
    cases call with
    | zero =>
        rw [Nat.add_zero, takes]
        exact SendOutcome.noConfusion
    | succ call =>
        have works' := works call (Nat.lt_of_succ_lt_succ inside)
        rw [Nat.add_right_comm] at works'
        exact works'

end Schedules

/-! ### The loop of `sendall` -/

section Loop

variable {size : Nat} {buf : Block size} {len : Nat}

/-- The loop takes the bytes in order and each once, and all of them exactly where the schedule
accepts them; otherwise it returns `-1`. -/
theorem sendallLoop_ok (schedule : Nat → SendOutcome) (fits : len ≤ size) {fuel : Nat}
    (call : Nat) {total : Nat} {taken : Bytes} (sofar : taken = buf.bytes.take total)
    (within : total ≤ len) (enough : len - total ≤ fuel) :
    ∃ result reached, sendallLoop schedule buf len fuel call total taken =
        .ok (result, buf.bytes.take reached) ∧ reached ≤ len ∧
      (result = 0 ↔ reached = len) ∧ (result = 0 ∨ result = -1) ∧
      (reached = len ↔ AcceptsFrom schedule call (len - total)) := by
  induction fuel generalizing call total taken with
  | zero =>
      have done : total = len := by omega
      refine ⟨0, total, ?_, within, by simp [done], .inl rfl, ?_⟩
      · rw [sendallLoop, if_neg (by omega), sofar]
      · rw [done, Nat.sub_self]
        exact iff_of_true rfl (acceptsFrom_zero schedule call)
  | succ fuel ih =>
      rw [sendallLoop]
      by_cases more : total < len
      · rw [if_pos more]
        cases outcome : schedule call with
        | failed =>
            refine ⟨-1, total, by rw [sofar], within, ?_, .inr rfl, ?_⟩
            · exact iff_of_false (by decide) (by omega)
            · exact iff_of_false (by omega) (not_acceptsFrom_failed outcome (by omega))
        | accepted count =>
            have some : 0 < len - total := by omega
            have taking : takenOf count (len - total) ≤ len - total ∧
                0 < takenOf count (len - total) := by
              unfold takenOf
              omega
            have read := buf.read_ok
              (show total + takenOf count (len - total) ≤ size by omega)
            have grown : taken ++ slice buf.bytes total (takenOf count (len - total)) =
                buf.bytes.take (total + takenOf count (len - total)) := by
              rw [sofar, slice, List.take_add]
            obtain ⟨result, reached, ran, inside, zero, either, all⟩ :=
              ih (call + 1) grown (by omega) (by omega)
            refine ⟨result, reached, ?_, inside, zero, either, ?_⟩
            · simp only [read, ok_bind, ran]
            · rw [all, acceptsFrom_accepted outcome some, Nat.sub_sub]
      · have done : total = len := by omega
        refine ⟨0, total, ?_, within, by simp [done], .inl rfl, ?_⟩
        · rw [if_neg more, sofar]
        · rw [done, Nat.sub_self]
          exact iff_of_true rfl (acceptsFrom_zero schedule call)

/-- `sendall` on a length that an `int` can hold. -/
theorem sendallOver_ok {length : UInt32} (schedule : Nat → SendOutcome) (buf : Block size)
    (counted : length.toNat = len) (fits : len ≤ size) (short : len < 2147483648) :
    ∃ result reached, sendallOver schedule buf length = .ok (result, buf.bytes.take reached) ∧
      reached ≤ len ∧ (result = 0 ↔ reached = len) ∧
      (reached = len ↔ AcceptsFrom schedule 0 len) := by
  obtain ⟨result, reached, ran, inside, zero, -, all⟩ := sendallLoop_ok schedule fits 0
    (show [] = buf.bytes.take 0 from rfl) (Nat.zero_le len) (Nat.sub_le len 0)
  refine ⟨result, reached, ?_, inside, zero, all⟩
  rw [sendallOver, counted, if_pos short, ran]

/-- Where every call takes something, any length is accepted. -/
theorem acceptsFrom_of_works {schedule : Nat → SendOutcome}
    (works : ∀ call, schedule call ≠ .failed) (first len : Nat) :
    AcceptsFrom schedule first len := by
  refine ⟨len, fun call _ => works _, ?_⟩
  have one : ∀ call, 1 ≤ asked (schedule (first + call)) := by
    intro call
    cases outcome : schedule (first + call) with
    | failed => exact absurd outcome (works _)
    | accepted count => exact Nat.le_max_left 1 count
  induction len with
  | zero => exact Nat.zero_le _
  | succ len ih =>
      have last := one len
      rw [Finset.sum_range_succ]
      omega

/-- What `sendall` sends without failures, it sends over every schedule without failures. -/
theorem sendallOver_works {schedule : Nat → SendOutcome} {length : UInt32} {sent : Bytes}
    (works : ∀ call, schedule call ≠ .failed) (ran : sendall buf length = .ok sent) :
    ∃ result, sendallOver schedule buf length = .ok (result, sent) := by
  rw [sendall] at ran
  split at ran
  · rename_i short
    obtain ⟨fits, rfl⟩ := Block.read_eq_ok.mp ran
    have inside : length.toNat ≤ size := by omega
    obtain ⟨result, reached, ranOver, -, -, all⟩ :=
      sendallOver_ok schedule buf rfl inside short
    refine ⟨result, ?_⟩
    rw [ranOver, all.mpr (acceptsFrom_of_works works 0 _), slice, List.drop_zero]
  · rename_i long
    refine ⟨0, ?_⟩
    rw [sendallOver, if_neg long, Except.ok.inj ran]

end Loop

/-! ### Without failures -/

section Smooth

variable {size : Nat} {host : ByteOrder} {gcm : Gcm} {medium : Medium}
  {pckData addDataPck extraDataPck : Option (Block pckDataIncrements)} {ctx : Option Bytes}
  {connInfo : Option ConnInfo} {pckGSettings : UInt32} {outBuf : Block size}
  {result : SendResult size}

/-- Over a medium that works a message is sent as if there were none. -/
theorem sendMessageOver_smooth {nonce : UInt32} {newIv : Block ivLen}
    (encrypts : medium.encryptionFails = false)
    (works : ∀ call, medium.schedule call ≠ .failed)
    (ran : sendMessage host gcm connInfo ctx pckData addDataPck extraDataPck pckGSettings nonce
      newIv outBuf = .ok result) :
    sendMessageOver host gcm medium connInfo ctx pckData addDataPck extraDataPck pckGSettings
      nonce newIv outBuf = .ok result := by
  obtain ⟨⟨msgLen, out⟩, encrypted, ran⟩ := bind_eq_ok.mp ran
  obtain ⟨sent, sentAll, ran⟩ := bind_eq_ok.mp ran
  obtain ⟨returned, sentOver⟩ := sendallOver_works works sentAll
  have same : ¬ (ctx.isSome ∧ medium.encryptionFails = true) := by
    rw [encrypts]
    simp
  rw [sendMessageOver, encryptPckDataOver, if_neg same, encrypted, ok_bind]
  simp only [sentOver, ok_bind]
  exact ran

/-- Over an encryption and a socket that do not fail, the sending is the one of
`encryptAndSendAll`, in however many parts the socket takes the frame. -/
theorem encryptAndSendAllOver_smooth {draw : Draw} (encrypts : medium.encryptionFails = false)
    (works : ∀ call, medium.schedule call ≠ .failed)
    (ran : encryptAndSendAll host gcm connInfo ctx pckData addDataPck extraDataPck pckGSettings
      draw outBuf = .ok result) :
    encryptAndSendAllOver host gcm medium connInfo ctx pckData addDataPck extraDataPck
      pckGSettings draw outBuf = .ok result := by
  cases connInfo with
  | none => exact sendMessageOver_smooth encrypts works ran
  | some connInfo =>
      simp only [encryptAndSendAll] at ran
      simp only [encryptAndSendAllOver]
      by_cases established : connInfo.sessionId ≠ 0
      · rw [if_pos established] at ran ⊢
        exact sendMessageOver_smooth encrypts works ran
      · rw [if_neg established] at ran ⊢
        by_cases waiting : connInfo.localNonce ≠ 0
        · rw [if_pos waiting] at ran ⊢
          exact ran
        · rw [if_neg waiting] at ran ⊢
          exact sendMessageOver_smooth encrypts works ran

end Smooth

/-! ### With failures -/

/-- The frame is composed: there is no key, or the encryption does not fail. -/
def Composes (ctx : Option Bytes) (medium : Medium) : Prop :=
  ctx.isSome → medium.encryptionFails = false

/-- The call is ignored: the local nonce has been sent and there is no session yet. -/
def Ignored (connInfo : Option ConnInfo) : Prop :=
  ∃ info, connInfo = some info ∧ info.sessionId = 0 ∧ info.localNonce ≠ 0

/-- Zero is returned only if a frame was composed and every byte of it was taken, in order and
once, and `-1` only with the connection as it was before. -/
structure ReportsErrors {size : Nat} (before : Option ConnInfo) (ctx : Option Bytes)
    (medium : Medium) (frameLength : Nat) (result : SendResult size) : Prop where
  sentWhole : result.returnValue = 0 →
    Composes ctx medium ∧ result.sent = some (result.outBuf.bytes.take frameLength)
  unchanged : result.returnValue = -1 → result.connInfo = before

section Reporting

variable {host : ByteOrder} {gcm : Gcm} {medium : Medium}
  {pckData addDataPck extraDataPck : Option (Block pckDataIncrements)} {ctx : Option Bytes}
  {enc add extra : Option Container} {connInfo : Option ConnInfo} {pckGSettings : UInt32}
  {outBuf : Block maxMsgLen} {result : SendResult maxMsgLen}

/-- The branches that send return zero, whatever happens; the whole frame is taken exactly where
the schedule accepts it. -/
theorem sendMessageOver_cases (givenEnc : Given host pckData enc)
    (givenAdd : Given host addDataPck add) (givenExtra : Given host extraDataPck extra)
    {nonce : UInt32} {newIv : Block ivLen}
    (ran : sendMessageOver host gcm medium connInfo ctx pckData addDataPck extraDataPck
      pckGSettings nonce newIv outBuf = .ok result) :
    result.returnValue = 0 ∧
      (Composes ctx medium →
        (result.sent = some (result.outBuf.bytes.take (composedLength enc add extra)) ↔
          AcceptsFrom medium.schedule 0 (composedLength enc add extra))) := by
  obtain ⟨⟨msgLen, out⟩, encrypted, ran⟩ := bind_eq_ok.mp ran
  obtain ⟨⟨returned, sent⟩, sentOver, ran⟩ := bind_eq_ok.mp ran
  rw [← Except.ok.inj ran]
  refine ⟨rfl, fun composes => ?_⟩
  have noError : ¬ (ctx.isSome ∧ medium.encryptionFails = true) := by
    rintro ⟨keyed, fails⟩
    rw [composes keyed] at fails
    cases fails
  rw [encryptPckDataOver, if_neg noError] at encrypted
  obtain ⟨composed, ranCompose, encrypted⟩ := bind_eq_ok.mp encrypted
  have fits := composePckData_fits givenEnc givenAdd givenExtra ranCompose
  obtain ⟨composed', tag, ranCompose', -, -, -, -, length, -⟩ :=
    composePckData_ok givenEnc givenAdd givenExtra pckGSettings nonce newIv outBuf (by decide)
      fits
  obtain rfl : composed = composed' := Except.ok.inj (ranCompose.symm.trans ranCompose')
  simp only [bind_eq_ok] at encrypted
  obtain ⟨-, -, -, -, printed, -, encrypted⟩ := encrypted
  obtain ⟨rfl, rfl⟩ := Prod.mk.inj (Except.ok.inj encrypted)
  have room : maxMsgLen = 255 := rfl
  have counted : composed.msgLen.toNat = composedLength enc add extra := by
    rw [length, toNat_ofNat_short (by omega)]
  obtain ⟨result, reached, ranOver, inside, -, all⟩ :=
    sendallOver_ok medium.schedule printed counted fits (by omega)
  obtain ⟨-, rfl⟩ := Prod.mk.inj (Except.ok.inj (sentOver.symm.trans ranOver))
  rw [← all, Option.some.injEq]
  constructor
  · intro same
    have lengths := congrArg List.length same
    simp only [List.length_take, printed.allocated] at lengths
    omega
  · rintro rfl
    rfl

/-- Errors are reported, and leave the connection as it was, exactly where the call is ignored or
nothing fails: the frame is composed and the socket takes all of it before a call of `send`
fails. -/
theorem reportsErrors_iff (givenEnc : Given host pckData enc)
    (givenAdd : Given host addDataPck add) (givenExtra : Given host extraDataPck extra)
    {draw : Draw}
    (ran : encryptAndSendAllOver host gcm medium connInfo ctx pckData addDataPck extraDataPck
      pckGSettings draw outBuf = .ok result) :
    ReportsErrors connInfo ctx medium (composedLength enc add extra) result ↔
      Ignored connInfo ∨ Composes ctx medium ∧
        AcceptsFrom medium.schedule 0 (composedLength enc add extra) := by
  have sends : ¬ Ignored connInfo →
      ∀ {after : Option ConnInfo} {nonce : UInt32} {newIv : Block ivLen},
      sendMessageOver host gcm medium after ctx pckData addDataPck extraDataPck pckGSettings nonce
        newIv outBuf = .ok result →
      (ReportsErrors connInfo ctx medium (composedLength enc add extra) result ↔
        Ignored connInfo ∨ Composes ctx medium ∧
          AcceptsFrom medium.schedule 0 (composedLength enc add extra)) := by
    intro notIgnored after nonce newIv sent
    obtain ⟨zero, whole⟩ := sendMessageOver_cases givenEnc givenAdd givenExtra sent
    rw [or_iff_right notIgnored]
    constructor
    · intro reports
      obtain ⟨composes, all⟩ := reports.sentWhole zero
      exact ⟨composes, (whole composes).mp all⟩
    · rintro ⟨composes, accepts⟩
      refine ⟨fun _ => ⟨composes, (whole composes).mpr accepts⟩, fun impossible => ?_⟩
      rw [zero] at impossible
      exact absurd impossible (by decide)
  cases connInfo with
  | none =>
      refine sends ?_ ran
      rintro ⟨info, impossible, -⟩
      cases impossible
  | some connInfo =>
      simp only [encryptAndSendAllOver] at ran
      by_cases established : connInfo.sessionId ≠ 0
      · rw [if_pos established] at ran
        refine sends ?_ ran
        rintro ⟨info, same, none, -⟩
        rw [← Option.some.inj same] at none
        exact established none
      · rw [if_neg established] at ran
        by_cases waiting : connInfo.localNonce ≠ 0
        · rw [if_pos waiting] at ran
          rw [← Except.ok.inj ran]
          have ignored : Ignored (some connInfo) :=
            ⟨connInfo, rfl, not_not.mp established, waiting⟩
          refine iff_of_true ⟨fun impossible => ?_, fun _ => rfl⟩ (.inl ignored)
          exact absurd (show (-1 : Int) = 0 from impossible) (by decide)
        · rw [if_neg waiting] at ran
          refine sends ?_ ran
          rintro ⟨info, same, -, some⟩
          rw [← Option.some.inj same] at some
          exact waiting some

end Reporting

/-- A session in which four frames have been sent. -/
def sampleSession : ConnInfo :=
  { (default : ConnInfo) with sessionId := 17, sendSessionIncrements := 4 }

/-- The frame of 52 bytes goes out in three parts. -/
theorem partial_sends_reported :
    ∃ result, encryptAndSendAllOver .little RoundTrip.zeroKeyGcm
        ⟨fun _ => .accepted 20, false⟩ (some sampleSession) none none none none 0 default
        (default : Block maxMsgLen) = .ok result ∧
      ReportsErrors (some sampleSession) none ⟨fun _ => .accepted 20, false⟩ 52 result := by
  have ends : (encryptAndSendAllOver .little RoundTrip.zeroKeyGcm ⟨fun _ => .accepted 20, false⟩
      (some sampleSession) none none none none 0 default
      (default : Block maxMsgLen)).isOk = true := by
    decide +kernel
  cases ran : encryptAndSendAllOver .little RoundTrip.zeroKeyGcm ⟨fun _ => .accepted 20, false⟩
      (some sampleSession) none none none none 0 default (default : Block maxMsgLen) with
  | error reason =>
      rw [ran] at ends
      cases ends
  | ok result =>
      refine ⟨result, rfl, ?_⟩
      apply (reportsErrors_iff .absent .absent .absent ran).mpr
      exact .inr ⟨fun _ => rfl, acceptsFrom_of_works (fun _ => SendOutcome.noConfusion) 0 _⟩

/-- A socket that would block takes nothing of the frame. The caller is told that it was sent, and
the session has counted it. -/
theorem blocked_send_unreported :
    ∃ result, encryptAndSendAllOver .little RoundTrip.zeroKeyGcm ⟨fun _ => .failed, false⟩
        (some sampleSession) none none none none 0 default (default : Block maxMsgLen) =
          .ok result ∧
      result.returnValue = 0 ∧ result.sent = some [] ∧
      result.connInfo.map ConnInfo.sendSessionIncrements = some 5 ∧
      ¬ ReportsErrors (some sampleSession) none ⟨fun _ => .failed, false⟩ 52 result := by
  have run : (encryptAndSendAllOver .little RoundTrip.zeroKeyGcm ⟨fun _ => .failed, false⟩
      (some sampleSession) none none none none 0 default (default : Block maxMsgLen)).map
        (fun result => (result.returnValue, result.sent,
          result.connInfo.map ConnInfo.sendSessionIncrements)) =
      .ok (0, some [], some 5) := by
    decide +kernel
  obtain ⟨result, ran, view⟩ := map_eq_ok.mp run
  obtain ⟨zero, view⟩ := Prod.mk.inj view
  obtain ⟨nothing, counted⟩ := Prod.mk.inj view
  refine ⟨result, ran, zero, nothing, counted, ?_⟩
  intro reports
  obtain ⟨-, whole⟩ := reports.sentWhole zero
  rw [nothing, Option.some.injEq] at whole
  have length := congrArg List.length whole
  rw [List.length_take, result.outBuf.allocated] at length
  exact absurd length (by decide)

end RentMate.SendErrors
