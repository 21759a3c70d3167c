/-
Module: RentMate.Proofs.NodeGate
Purpose: Which frames may change a session of the node or reach one of its handlers, over whole
  runs. The node goes on with a frame whatever `decryptPckData` has returned for it, so that runs
  keep the gate as long as every frame is genuine.
Trusted boundary: none
Main exports: Decrypts, Acted, Gated, Trusted, gated_along
-/
import RentMate.Machine.Run
import RentMate.NodeClient.Link
import RentMate.Proofs.SessionCodec

namespace RentMate.NodeGate

open RentMate.Machine
open RentMate.PckData
open RentMate.NodeClient
open RentMate.MessageCodec
open RentMate.SessionCodec

/-! ### The gate -/

/-- `decryptPckData` succeeds on the frame under the node's key. -/
def Decrypts (host : ByteOrder) (gcm : Gcm) (node : NodeState) (message : Block maxMsgLen) :
    Prop :=
  ∃ printed opened, printMessage host message true true = .ok printed ∧
    decryptPckData host gcm node.pointerToKey.bytes printed node.decryptionBuffer = .ok opened ∧
    opened.returnValue = 0

/-- The fields that make up a session. -/
def sessionFields (connInfo : ConnInfo) : UInt32 × UInt32 × UInt32 :=
  (connInfo.remoteNonce, connInfo.localNonce, connInfo.sessionId)

/-- A frame has changed the session or has reached a handler. -/
def Acted (connInfo : ConnInfo) (result : NodeResult) : Prop :=
  result.connInfo.map sessionFields ≠ some (sessionFields connInfo) ∨ result.called ≠ none

/-- A frame on a connection acts only if it has been decrypted. -/
def Gated (host : ByteOrder) (gcm : Gcm) (ecdh : Ecdh) (link : NodeLink) : NodeEvent → Prop
  | .received env message =>
      ∀ result, processMsg host gcm ecdh env (some link.connInfo) link.node message = .ok result →
        Acted link.connInfo result → Decrypts host gcm link.node message
  | _ => True

/-! ### The frames that keep it -/

/-- A session state that taking a nonce from a zeroed buffer does not change: the two nonces add
up to zero, the own one reads the same in both byte orders, and the other one is what the buffer
begins with. -/
structure Unmoved (host : ByteOrder) (connInfo : ConnInfo) (node : NodeState)
    (message : Block maxMsgLen) : Prop where
  noSession : connInfo.sessionId = 0
  symmetric : htonl host connInfo.localNonce = connInfo.localNonce
  opposite : connInfo.localNonce + connInfo.remoteNonce = 0
  zeroed : host.decode (slice (splice node.decryptionBuffer.bytes 0
    (List.replicate (maskedLen message) 0)) 0 4) = connInfo.remoteNonce

/-- The frame is genuine under the node's key as the print at the beginning of `processMsg` leaves
it, or the session cannot be moved by it. -/
def Trusted (host : ByteOrder) (gcm : Gcm) (link : NodeLink) : NodeEvent → Prop
  | .received _ message =>
      (∃ printed, printMessage host message true true = .ok printed ∧
        Genuine gcm link.node.pointerToKey.bytes printed) ∨
      Unmoved host link.connInfo link.node message
  | _ => True

section Steps

variable {host : ByteOrder} {gcm : Gcm} {ecdh : Ecdh} {env : NodeEnv} {connInfo : ConnInfo}
  {node : NodeState} {message : Block maxMsgLen} {result : NodeResult}

/-- The connection after a nonce has been taken. -/
def withNonce (host : ByteOrder) (connInfo : ConnInfo) (remoteNonce : UInt32) : ConnInfo :=
  { connInfo with
    remoteNonce := remoteNonce
    localNonce := htonl host connInfo.localNonce
    sessionId := htonl host connInfo.localNonce + remoteNonce }

/-- The node takes the nonce at the front of the decrypted text. -/
theorem takeNonce_eq_ok {after : NodeState}
    (ran : NodeClient.takeNonce host connInfo after message = .ok result) :
    ∃ remoteNonce, after.decryptionBuffer.load32 host 0 = .ok remoteNonce ∧
      result.connInfo = some (withNonce host connInfo remoteNonce) ∧ result.called = none := by
  obtain ⟨remoteNonce, loaded, ran⟩ := bind_eq_ok.mp ran
  obtain rfl := Except.ok.inj ran
  exact ⟨remoteNonce, loaded, rfl, rfl⟩

/-- What one frame on a connection does: it is printed and handed to `decryptPckData`, and then,
whatever that has returned, a nonce is taken from the decryption buffer or a handler is called. -/
theorem received_cases
    (ran : processMsg host gcm ecdh env (some connInfo) node message = .ok result) :
    ∃ printed opened, printMessage host message true true = .ok printed ∧
      decryptPckData host gcm node.pointerToKey.bytes printed node.decryptionBuffer =
        .ok opened ∧
      ((connInfo.sessionId = 0 ∧ ∃ remoteNonce,
          opened.outputBuf.load32 host 0 = .ok remoteNonce ∧
          result.connInfo = some (withNonce host connInfo remoteNonce) ∧ result.called = none) ∨
        (connInfo.sessionId ≠ 0 ∧ result.called ≠ none)) := by
  unfold processMsg at ran
  obtain ⟨_, -, ran⟩ := bind_eq_ok.mp ran
  obtain ⟨_, -, ran⟩ := bind_eq_ok.mp ran
  obtain ⟨_, -, ran⟩ := bind_eq_ok.mp ran
  obtain ⟨printed, shown, ran⟩ := bind_eq_ok.mp ran
  obtain ⟨opened, decrypted, ran⟩ := bind_eq_ok.mp ran
  refine ⟨printed, opened, shown, decrypted, ?_⟩
  split at ran
  · rename_i noSession
    exact .inl ⟨noSession, takeNonce_eq_ok ran⟩
  · rename_i established
    obtain ⟨call, printed, rfl⟩ := dispatchCommand_cases ran
    exact .inr ⟨established, Option.some_ne_none call⟩

/-- Printing changes none of the length fields. -/
theorem maskedLen_printed {printed : Block maxMsgLen}
    (shown : printMessage host message true true = .ok printed) :
    maskedLen printed = maskedLen message := by
  have kept := printMessage_take shown
  have same : ∀ offset, offset + 4 ≤ headerLen →
      lengthField printed offset = lengthField message offset := by
    intro offset inside
    have cut : ∀ bytes : Bytes, slice bytes offset 4 = slice (bytes.take headerLen) offset 4 := by
      intro bytes
      have room : 4 ≤ headerLen - offset := by omega
      rw [slice, slice, List.drop_take, List.take_take, Nat.min_eq_left room]
    rw [lengthField, lengthField, cut, kept, ← cut]
  rw [maskedLen, maskedLen, same 0 (by decide), same 4 (by decide)]

/-- A nonce from a zeroed buffer changes the session unless the session cannot be moved. -/
theorem unmoved_iff {printed : Block maxMsgLen} {opened : Decrypted maxMsgLen maxMsgLen}
    {remoteNonce : UInt32} (shown : printMessage host message true true = .ok printed)
    (noSession : connInfo.sessionId = 0)
    (zeroed : opened.outputBuf.bytes =
      splice node.decryptionBuffer.bytes 0 (List.replicate (maskedLen printed) 0))
    (loaded : opened.outputBuf.load32 host 0 = .ok remoteNonce) :
    sessionFields (withNonce host connInfo remoteNonce) = sessionFields connInfo ↔
      Unmoved host connInfo node message := by
  obtain ⟨-, rfl⟩ := Block.load32_eq_ok.mp loaded
  rw [zeroed, maskedLen_printed shown]
  simp only [sessionFields, withNonce, Prod.mk.injEq, noSession]
  constructor
  · rintro ⟨remote, own, sum⟩
    refine ⟨noSession, own, ?_, remote⟩
    rw [← own, ← remote, sum]
  · rintro ⟨-, own, sum, remote⟩
    refine ⟨remote, own, ?_⟩
    rw [own, remote, sum]

end Steps

section Runs

variable {host : ByteOrder} {gcm : Gcm} {ecdh : Ecdh} {link : NodeLink} {event : NodeEvent}

/-- A genuine frame is decrypted, and any other leaves a session alone that it cannot move. -/
theorem gated_of_trusted (trusted : Trusted host gcm link event) :
    Gated host gcm ecdh link event := by
  cases event with
  | received env message =>
      intro result ran acted
      obtain ⟨printed, opened, shown, decrypted, took⟩ := received_cases ran
      refine ⟨printed, opened, shown, decrypted, ?_⟩
      rcases decryptPckData_cases decrypted with ⟨succeeded, -⟩ | ⟨-, forged, -, zeroed⟩
      · exact succeeded
      · exfalso
        rcases trusted with ⟨printed', shown', genuine⟩ | unmoved
        · obtain rfl := Except.ok.inj (shown.symm.trans shown')
          exact forged genuine
        · rcases took with ⟨noSession, remoteNonce, loaded, after, uncalled⟩ | ⟨established, -⟩
          · have same := (unmoved_iff shown noSession zeroed loaded).mpr unmoved
            rcases acted with changed | called
            · rw [after, Option.map_some, same] at changed
              exact changed rfl
            · exact called uncalled
          · exact established unmoved.noSession
  | restarted | initialized | startedKeyExchange | answered | startedSession | sent => trivial

/-- A frame that has been processed to its end and has kept the gate is one of those. -/
theorem trusted_of_gated {next : NodeLink} (stepped : follow host gcm ecdh link event = .ok next)
    (gated : Gated host gcm ecdh link event) : Trusted host gcm link event := by
  cases event with
  | received env message =>
      obtain ⟨result, ran, -⟩ := bind_eq_ok.mp stepped
      obtain ⟨printed, opened, shown, decrypted, took⟩ := received_cases ran
      rcases decryptPckData_cases decrypted with ⟨-, genuine⟩ | ⟨failed, -, -, zeroed⟩
      · exact .inl ⟨printed, shown, genuine⟩
      · -- A frame that has not been decrypted has not acted.
        have idle : ¬ Acted link.connInfo result := by
          intro acted
          obtain ⟨printed', opened', shown', decrypted', succeeded⟩ := gated result ran acted
          obtain rfl := Except.ok.inj (shown.symm.trans shown')
          obtain rfl := Except.ok.inj (decrypted.symm.trans decrypted')
          rw [failed] at succeeded
          cases succeeded
        rcases took with ⟨noSession, remoteNonce, loaded, after, -⟩ | ⟨-, called⟩
        · right
          refine (unmoved_iff shown noSession zeroed loaded).mp ?_
          by_contra changed
          refine idle (.inl ?_)
          rw [after, Option.map_some]
          exact fun same => changed (Option.some.inj same)
        · exact absurd (.inr called) idle
  | restarted | initialized | startedKeyExchange | answered | startedSession | sent => trivial

/-- Every run in which each frame on a connection is genuine, or finds a session that it cannot
move, keeps the gate; and a run that completes and keeps the gate is such a run. -/
theorem gated_along (start : NodeLink) (events : List NodeEvent) :
    (Along (follow host gcm ecdh) start (fun _ reached event => Trusted host gcm reached event)
        events →
      Along (follow host gcm ecdh) start (fun _ reached event => Gated host gcm ecdh reached event)
        events) ∧
    ∀ final, runFrom (follow host gcm ecdh) start events = .ok final →
      Along (follow host gcm ecdh) start (fun _ reached event => Gated host gcm ecdh reached event)
        events →
      Along (follow host gcm ecdh) start (fun _ reached event => Trusted host gcm reached event)
        events := by
  constructor
  · intro along
    exact along.imp fun _ _ _ trusted => gated_of_trusted trusted
  · intro final completes along
    exact along.imp_of_ran completes fun _ _ _ _ stepped gated => trusted_of_gated stepped gated

end Runs

/-- AES-GCM under the zero key and the zero vector: its keystream, and its tags over the frames of
a node that draws 1 and of a server that draws 2, and over the forged frame below. -/
def sessionGcm : Gcm :=
  { keystream := fun _ _ index => [3, 136, 218, 206, 96, 182, 163, 146].getD index 0
    authenticate := fun _ _ add _ =>
      if add.length = 32 then
        .holding tagLen [199, 119, 9, 89, 22, 69, 231, 158, 162, 177, 134, 163, 166, 30, 83, 240]
      else if add.length = 4 then
        .holding tagLen [183, 235, 70, 213, 183, 174, 2, 52, 197, 82, 99, 210, 144, 190, 117, 41]
      else .holding tagLen [139, 105, 179, 137, 204, 137, 200, 22, 203, 134, 231, 148, 27, 26, 44, 33] }

/-- A node that has the zero key. -/
def keyedLink : NodeLink :=
  { connInfo := initializeConnInfo 0
    node := { (default : NodeState) with hasEncryptionContextBeenEstablished := true }
    calls := []
    sent := [] }

/-- The node connects and sends its nonce. -/
def opening : List NodeEvent :=
  [.initialized 3,
    .startedSession default { (default : Draw) with localNonce := 1 } default default]

/-- The server's answer. -/
def answerFrame : Bytes :=
  frame sessionGcm (List.replicate keyLen 0) (List.replicate ivLen 0) none none 0 33554432

/-- The state in which the node waits for the answer. -/
theorem opening_ran : ∃ opened,
    runFrom (follow .little sessionGcm degenerateEcdh) keyedLink opening = .ok opened ∧
      opened.node.pointerToKey.bytes = List.replicate keyLen 0 ∧
      opened.connInfo.localNonce = 1 := by
  have ran : (runFrom (follow .little sessionGcm degenerateEcdh) keyedLink opening).map
      (fun opened => (opened.node.pointerToKey.bytes, opened.connInfo.localNonce)) =
        .ok (List.replicate keyLen 0, 1) := by
    decide +kernel
  obtain ⟨opened, reached, view⟩ := map_eq_ok.mp ran
  obtain ⟨key, nonce⟩ := Prod.mk.inj view
  exact ⟨opened, reached, key, nonce⟩

/-- Every frame of the opening is trusted. -/
theorem opening_trusted :
    Along (follow .little sessionGcm degenerateEcdh) keyedLink
      (fun _ reached event => Trusted .little sessionGcm reached event) opening :=
  along_cons.mpr ⟨trivial, fun _ _ => along_cons.mpr ⟨trivial, fun _ _ => along_nil⟩⟩

/-- The server's answer establishes a session. -/
theorem gated_along_session :
    (runFrom (follow .little sessionGcm degenerateEcdh) keyedLink
        (opening ++ [.received default (.holding maxMsgLen answerFrame)])).map
      (fun final => final.connInfo.sessionId) = .ok 50331648 ∧
    Along (follow .little sessionGcm degenerateEcdh) keyedLink
      (fun _ reached event => Gated .little sessionGcm degenerateEcdh reached event)
      (opening ++ [.received default (.holding maxMsgLen answerFrame)]) := by
  refine ⟨by decide +kernel, (gated_along _ _).1 ?_⟩
  refine along_append.mpr ⟨opening_trusted, fun opened reached => ?_⟩
  obtain ⟨opened', reached', key, -⟩ := opening_ran
  obtain rfl := Except.ok.inj (reached'.symm.trans reached)
  have shown : printMessage .little (.holding maxMsgLen answerFrame) true true =
      .ok (.holding maxMsgLen answerFrame) := by
    decide +kernel
  refine along_cons.mpr ⟨.inl ⟨_, shown, ?_⟩, fun _ _ => along_nil⟩
  rw [key]
  decide +kernel

/-! ### A frame that anyone can send -/

/-- A frame with a wrong tag, whose text reads as a command to reboot. -/
def forgedFrame : Bytes :=
  message .big (List.replicate ivLen 0) (List.replicate tagLen 0) [] []
    (List.replicate 8 0 ++
      [0, 0, 0, 20, 0, 0, 0, 0, 4, 0, 0, 0, 2, 0, 0, 0, 0, 0, 0, 0])

/-- To a node that waits for the server's nonce it comes twice: the first one establishes a
session, and the second one reboots the node. -/
theorem forged_reboot :
    (runFrom (follow .little sessionGcm degenerateEcdh) keyedLink
        (opening ++ List.replicate 2 (.received default (.holding maxMsgLen forgedFrame)))).map
      (fun final => (final.connInfo.sessionId, final.calls)) =
        .ok (16777216, [{ opcode := 2, command := .rebootMessage, args := [], argsLen := 0 }]) ∧
    ¬ Along (follow .little sessionGcm degenerateEcdh) keyedLink
      (fun _ reached event => Gated .little sessionGcm degenerateEcdh reached event)
      (opening ++ List.replicate 2 (.received default (.holding maxMsgLen forgedFrame))) := by
  have ran : (runFrom (follow .little sessionGcm degenerateEcdh) keyedLink
      (opening ++ List.replicate 2 (.received default (.holding maxMsgLen forgedFrame)))).map
        (fun final => (final.connInfo.sessionId, final.calls)) =
      .ok (16777216, [{ opcode := 2, command := .rebootMessage, args := [], argsLen := 0 }]) := by
    decide +kernel
  refine ⟨ran, fun gated => ?_⟩
  obtain ⟨final, completes, -⟩ := map_eq_ok.mp ran
  have trusted := gated.imp_of_ran completes fun _ _ _ _ stepped => trusted_of_gated stepped
  obtain ⟨opened, reached, key, nonce⟩ := opening_ran
  have first := (along_cons.mp ((along_append.mp trusted).2 opened reached)).1
  rcases first with ⟨printed, shown, genuine⟩ | unmoved
  · rw [key] at genuine
    have left : (printMessage .little (.holding maxMsgLen forgedFrame) true true).map
        (fun printed => decide (Genuine sessionGcm (List.replicate keyLen 0) printed)) =
          .ok false := by
      decide +kernel
    rw [shown] at left
    exact of_decide_eq_false (Except.ok.inj left) genuine
  · have symmetric := unmoved.symmetric
    rw [nonce] at symmetric
    exact absurd symmetric (by decide)

end RentMate.NodeGate
