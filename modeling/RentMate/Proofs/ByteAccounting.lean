/-
Module: RentMate.Proofs.ByteAccounting
Purpose: The counters of a `recvHolder` apart from its memory: with any length words in the queue,
  the handling of what has been received ends and accounts for every byte, and so does every run of
  `recvAll` on an open connection.
Trusted boundary: none
Main exports: Counters, Counters.handleMsgData, conserves, recvAll_balances, declaredLengths,
  handleMsgData_halts, handleMsgData_declares, run_declares, AccountsForBytes, accounts_for_bytes
-/
import RentMate.Proofs.RecvCalls
import Mathlib.Data.Nat.ModEq
import Mathlib.Data.Stream.Defs

namespace RentMate.ByteAccounting

open RentMate.Machine
open RentMate.PckData
open RentMate.StreamIndependence
open RentMate.RecvCalls

/-! ### The counters -/

/-- The counters of a `recvHolder`, and whether `firstMsgPtr` is `NULL`. -/
structure Counters where
  idle : Bool
  firstMsgSize : UInt32
  firstMsgSizeUsed : UInt32
deriving Repr, DecidableEq

/-- The counters of a holder that is new, or has been reset. -/
def newCounters : Counters :=
  { idle := true
    firstMsgSize := 0
    firstMsgSizeUsed := 0 }

/-- The lengths of the messages that have been delivered, as the messages declare them, and the
counters behind them. -/
structure Accounted where
  delivered : List UInt32
  counters : Counters
deriving Repr, DecidableEq

/-- What `handleMsgLen` does to the counters, when it would find `word` in the queue. -/
def Counters.handleMsgLen (counters : Counters) (rs word : UInt32) : Counters :=
  { counters with
    idle := if counters.firstMsgSize = 0 then false else counters.idle
    firstMsgSize :=
      if 4 ≤ counters.firstMsgSize + rs then word else counters.firstMsgSize + rs }

/-- The counters of the second message, before its length is handled. -/
def Counters.second (counters : Counters) : Counters :=
  { idle := false
    firstMsgSize := 5
    firstMsgSizeUsed := counters.firstMsgSizeUsed - counters.firstMsgSize }

/-- A message is delivered from the used bytes, and takes at least five of them. -/
theorem toNat_used_second {counters : Counters}
    (more : counters.firstMsgSize < counters.firstMsgSizeUsed)
    (isMessage : 4 < counters.firstMsgSize) :
    counters.second.firstMsgSizeUsed.toNat + counters.firstMsgSize.toNat =
        counters.firstMsgSizeUsed.toNat ∧
      5 ≤ counters.firstMsgSize.toNat := by
  have four : (4 : UInt32).toNat = 4 := rfl
  rw [UInt32.lt_iff_toNat_lt] at more isMessage
  rw [four] at isMessage
  refine ⟨?_, isMessage⟩
  rw [Counters.second, UInt32.toNat_sub_of_le _ _ (UInt32.le_iff_toNat_le.mpr (Nat.le_of_lt more))]
  omega

/-- What `handleMsgData` does to the counters, when it would find the words in the queue, one after
the other. -/
def Counters.handleMsgData (words : Nat → UInt32) (counters : Counters) : Accounted :=
  if complete : counters.firstMsgSize ≤ counters.firstMsgSizeUsed ∧ 4 < counters.firstMsgSize then
    if more : counters.firstMsgSize < counters.firstMsgSizeUsed then
      let accounted :=
        handleMsgData (fun read => words (read + 1))
          (counters.second.handleMsgLen counters.second.firstMsgSizeUsed (words 0))
      { accounted with delivered := counters.firstMsgSize :: accounted.delivered }
    else
      { delivered := [counters.firstMsgSize]
        counters := newCounters }
  else
    { delivered := []
      counters := counters }
termination_by counters.firstMsgSizeUsed.toNat
decreasing_by
  have taken := toNat_used_second more complete.2
  show counters.second.firstMsgSizeUsed.toNat < counters.firstMsgSizeUsed.toNat
  omega

/-- What has been delivered and what is left are what there was, and every delivery took five bytes
at least. -/
structure Conserves (counters : Counters) (accounted : Accounted) : Prop where
  total : (accounted.delivered.map UInt32.toNat).sum +
    accounted.counters.firstMsgSizeUsed.toNat = counters.firstMsgSizeUsed.toNat
  few : accounted.delivered.length ≤ counters.firstMsgSizeUsed.toNat / 5

/-- Whatever the counters and the words are. -/
theorem conserves (words : Nat → UInt32) (counters : Counters) :
    Conserves counters (counters.handleMsgData words) := by
  induction words, counters using Counters.handleMsgData.induct with
  | case1 words counters complete more ih =>
      have taken := toNat_used_second more complete.2
      have total := ih.total
      have few := ih.few
      rw [Counters.handleMsgData, dif_pos complete, dif_pos more]
      constructor
      · simp only [List.map_cons, List.sum_cons]
        change _ = counters.second.firstMsgSizeUsed.toNat at total
        omega
      · simp only [List.length_cons]
        change _ ≤ counters.second.firstMsgSizeUsed.toNat / 5 at few
        omega
  | case2 words counters complete last =>
      have five := complete.2
      have four : (4 : UInt32).toNat = 4 := rfl
      rw [UInt32.lt_iff_toNat_lt, four] at five
      have all := complete.1
      rw [UInt32.lt_iff_toNat_lt] at last
      rw [UInt32.le_iff_toNat_le] at all
      have zero : newCounters.firstMsgSizeUsed.toNat = 0 := rfl
      have nothingMore : ¬ counters.firstMsgSize < counters.firstMsgSizeUsed := by
        rw [UInt32.lt_iff_toNat_lt]
        exact last
      rw [Counters.handleMsgData, dif_pos complete, dif_neg nothingMore]
      constructor
      · simp only [List.map_cons, List.map_nil, List.sum_cons, List.sum_nil, zero]
        omega
      · simp only [List.length_cons, List.length_nil]
        omega
  | case3 words counters incomplete =>
      rw [Counters.handleMsgData, dif_neg incomplete]
      exact ⟨by simp, Nat.zero_le _⟩

/-! ### Any number of `recv()` calls -/

/-- What one `recv()` gives: a number of bytes, and the words that are then found in the queue. -/
structure Recv where
  bytes : Nat
  words : Nat → UInt32

/-- What one iteration of the loop in `recvAll` does to the counters. -/
def Counters.recv (counters : Counters) (received : Recv) : Accounted :=
  let rs := UInt32.ofNat received.bytes
  let counters :=
    if counters.idle ∨ counters.firstMsgSize < 4 then
      counters.handleMsgLen rs (received.words 0)
    else counters
  { counters with firstMsgSizeUsed := counters.firstMsgSizeUsed + rs }.handleMsgData
    fun read => received.words (read + 1)

/-- What a number of them do, one after the other. -/
def Counters.recvAll (counters : Counters) : List Recv → Accounted
  | [] =>
      { delivered := []
        counters := counters }
  | received :: later =>
      let now := counters.recv received
      let behind := now.counters.recvAll later
      { behind with delivered := now.delivered ++ behind.delivered }

/-- Bytes that were there and bytes that came in have been delivered or are left, modulo 2^32. -/
def Balances (start : Counters) (bytes : Nat) (accounted : Accounted) : Prop :=
  start.firstMsgSizeUsed.toNat + bytes ≡
    (accounted.delivered.map UInt32.toNat).sum + accounted.counters.firstMsgSizeUsed.toNat
      [MOD 2 ^ 32]

/-- One `recv()` can overflow the counter, but loses nothing otherwise. -/
theorem recv_balances (counters : Counters) (received : Recv) :
    Balances counters received.bytes (counters.recv received) := by
  rw [Balances, Counters.recv]
  simp only [(conserves _ _).total]
  -- The length does not touch what has been used.
  have used : (if counters.idle ∨ counters.firstMsgSize < 4 then
      counters.handleMsgLen (UInt32.ofNat received.bytes) (received.words 0)
    else counters).firstMsgSizeUsed = counters.firstMsgSizeUsed := by
    split
    · rfl
    · rfl
  rw [used, UInt32.toNat_add, UInt32.toNat_ofNat']
  simp only [Nat.ModEq, Nat.reducePow, Nat.mod_mod, Nat.add_mod_mod]

/-- The run lemma. -/
theorem recvAll_balances (counters : Counters) (received : List Recv) :
    Balances counters (received.map Recv.bytes).sum (counters.recvAll received) := by
  induction received generalizing counters with
  | nil =>
      rw [Balances, Counters.recvAll]
      simp only [List.map_nil, List.sum_nil, Nat.add_zero, Nat.zero_add]
      exact Nat.ModEq.refl _
  | cons received later ih =>
      have now := recv_balances counters received
      have behind := ih (counters.recv received).counters
      rw [Balances] at now behind
      rw [Balances, Counters.recvAll]
      simp only [List.map_cons, List.sum_cons, List.map_append, List.sum_append]
      calc counters.firstMsgSizeUsed.toNat + (received.bytes + (later.map Recv.bytes).sum)
        _ = counters.firstMsgSizeUsed.toNat + received.bytes + (later.map Recv.bytes).sum :=
            (Nat.add_assoc _ _ _).symm
        _ ≡ ((counters.recv received).delivered.map UInt32.toNat).sum +
              (counters.recv received).counters.firstMsgSizeUsed.toNat +
                (later.map Recv.bytes).sum [MOD 2 ^ 32] := now.add_right _
        _ = ((counters.recv received).delivered.map UInt32.toNat).sum +
              ((counters.recv received).counters.firstMsgSizeUsed.toNat +
                (later.map Recv.bytes).sum) := Nat.add_assoc _ _ _
        _ ≡ _ [MOD 2 ^ 32] := behind.add_left _
        _ = _ := (Nat.add_assoc _ _ _).symm

/-! ### The holders they are the counters of -/

/-- The counters of a holder. -/
def countersOf (holder : RecvHolder) : Counters :=
  { idle := holder.firstMsgPtr.isNone
    firstMsgSize := holder.firstMsgSize
    firstMsgSizeUsed := holder.firstMsgSizeUsed }

/-- `handleMsgData` on the holder alone, with the lengths that the messages declare which the
callback is handed. -/
def declaredLengths (host : ByteOrder) :
    Nat → RecvHolder → Nat → Checked (List UInt32 × RecvHolder)
  | 0, _, _ => .error .diverges
  | fuel + 1, holder, rs =>
      if holder.firstMsgSize ≤ holder.firstMsgSizeUsed ∧ 4 < holder.firstMsgSize then
        if holder.firstMsgSize < holder.firstMsgSizeUsed then do
          let second :=
            { holder with
              firstMsgPtr := some (holder.sizeUsed + holder.firstMsgSize.toNat)
              firstMsgSizeUsed := holder.firstMsgSizeUsed - holder.firstMsgSize
              firstMsgSize := 5 }
          let second := circulateBuffer second rs
          let second ← handleMsgLen host second second.firstMsgSizeUsed
          let (lengths, last) ← declaredLengths host fuel second rs
          pure (holder.firstMsgSize :: lengths, last)
        else
          pure ([holder.firstMsgSize], circulateBuffer
            { holder with firstMsgPtr := none, firstMsgSize := 0, firstMsgSizeUsed := 0 } rs)
      else pure ([], circulateBuffer holder rs)

/-- The same for the loop of `recvAll`, over any number of `recv()` calls. -/
def declaredInStream (host : ByteOrder) :
    RecvHolder → List Bytes → Checked (List UInt32 × RecvHolder)
  | holder, [] => .ok ([], holder)
  | holder, chunk :: chunks => do
      let obtained ← obtainChunk host holder chunk
      let (lengths, left) ← declaredLengths host (obtained.firstMsgSizeUsed.toNat + 1) obtained
        chunk.length
      let (further, last) ← declaredInStream host left chunks
      pure (lengths ++ further, last)

section Holders

variable {host : ByteOrder}

/-- A word is found in the queue, or none is needed. -/
theorem handleMsgLen_counters {holder counted : RecvHolder} {rs : UInt32}
    (lengthHandled : handleMsgLen host holder rs = .ok counted) :
    ∃ word, countersOf counted = (countersOf holder).handleMsgLen rs word := by
  obtain ⟨word, rfl⟩ := handleMsgLen_changes lengthHandled
  refine ⟨word, ?_⟩
  have idle : (if holder.firstMsgSize = 0 then some holder.sizeUsed
      else holder.firstMsgPtr).isNone =
        if holder.firstMsgSize = 0 then false else holder.firstMsgPtr.isNone :=
    apply_ite Option.isNone _ _ _
  rw [countersOf, idle]
  rfl

/-- A word that is read before the others. -/
theorem exists_words (word : UInt32) (words : Nat → UInt32) :
    ∃ all : Nat → UInt32, all 0 = word ∧ (fun read => all (read + 1)) = words :=
  ⟨Stream'.cons word words, rfl, rfl⟩

/-- The words are those that are found on the way. -/
theorem declaredLengths_counters {fuel rs : Nat} {holder last : RecvHolder} {lengths : List UInt32}
    (declared : declaredLengths host fuel holder rs = .ok (lengths, last)) :
    ∃ words, (countersOf holder).handleMsgData words =
      { delivered := lengths
        counters := countersOf last } := by
  induction fuel generalizing holder lengths last with
  | zero => cases declared
  | succ fuel ih =>
      rw [declaredLengths] at declared
      have whole : (countersOf holder).firstMsgSize ≤ (countersOf holder).firstMsgSizeUsed ∧
          4 < (countersOf holder).firstMsgSize ↔
            holder.firstMsgSize ≤ holder.firstMsgSizeUsed ∧ 4 < holder.firstMsgSize := Iff.rfl
      have behindIt : (countersOf holder).firstMsgSize < (countersOf holder).firstMsgSizeUsed ↔
          holder.firstMsgSize < holder.firstMsgSizeUsed := Iff.rfl
      split at declared
      · rename_i complete
        split at declared
        · rename_i more
          obtain ⟨second, lengthHandled, declared⟩ := bind_eq_ok.mp declared
          obtain ⟨⟨further, behind⟩, deeper, declared⟩ := bind_eq_ok.mp declared
          obtain ⟨rfl, rfl⟩ := Prod.mk.inj (Except.ok.inj declared)
          obtain ⟨word, counted⟩ := handleMsgLen_counters lengthHandled
          obtain ⟨words, accounted⟩ := ih deeper
          obtain ⟨all, first, later⟩ := exists_words word words
          refine ⟨all, ?_⟩
          rw [Counters.handleMsgData, dif_pos (whole.mpr complete), dif_pos (behindIt.mpr more)]
          have secondCounters : (countersOf holder).second.handleMsgLen
              (countersOf holder).second.firstMsgSizeUsed word = countersOf second := counted.symm
          simp only [first, later, secondCounters, accounted]
          rfl
        · rename_i nothingMore
          obtain ⟨rfl, rfl⟩ := Prod.mk.inj (Except.ok.inj declared)
          refine ⟨fun _ => 0, ?_⟩
          rw [Counters.handleMsgData, dif_pos (whole.mpr complete),
            dif_neg (mt behindIt.mp nothingMore)]
          rfl
      · rename_i incomplete
        obtain ⟨rfl, rfl⟩ := Prod.mk.inj (Except.ok.inj declared)
        refine ⟨fun _ => 0, ?_⟩
        rw [Counters.handleMsgData, dif_neg (mt whole.mp incomplete)]
        rfl

/-- `recv()` counts the bytes that it has put into the queue. -/
theorem obtainChunk_counters {holder obtained : RecvHolder} {chunk : Bytes}
    (chunkObtained : obtainChunk host holder chunk = .ok obtained) :
    ∃ word, countersOf obtained =
      { (if (countersOf holder).idle ∨ (countersOf holder).firstMsgSize < 4 then
          (countersOf holder).handleMsgLen (UInt32.ofNat chunk.length) word
        else countersOf holder) with
        firstMsgSizeUsed := holder.firstMsgSizeUsed + UInt32.ofNat chunk.length } := by
  obtain ⟨queue, -, chunkObtained⟩ := bind_eq_ok.mp chunkObtained
  have guard : ((countersOf holder).idle = true ∨ (countersOf holder).firstMsgSize < 4) ↔
      (holder.firstMsgPtr = none ∨ holder.firstMsgSize < 4) := by
    rw [countersOf, Option.isNone_iff_eq_none]
  simp only [] at chunkObtained
  split at chunkObtained
  · rename_i begins
    obtain ⟨counted, lengthHandled, chunkObtained⟩ := bind_eq_ok.mp chunkObtained
    obtain ⟨word, counters⟩ := handleMsgLen_counters lengthHandled
    refine ⟨word, ?_⟩
    rw [← Except.ok.inj chunkObtained, if_pos (guard.mpr begins)]
    have size := congrArg Counters.firstMsgSize counters
    have idle := congrArg Counters.idle counters
    have used := congrArg Counters.firstMsgSizeUsed counters
    simp only [countersOf] at size idle used ⊢
    rw [size, idle, used]
    rfl
  · rename_i goesOn
    refine ⟨0, ?_⟩
    rw [← Except.ok.inj chunkObtained, if_neg (fun begins => goesOn (guard.mp begins))]
    rfl

/-- Every stream of chunks is some run of the counters. -/
theorem declaredInStream_counters {holder last : RecvHolder} {chunks : List Bytes}
    {lengths : List UInt32}
    (declared : declaredInStream host holder chunks = .ok (lengths, last)) :
    ∃ received : List Recv, received.map Recv.bytes = chunks.map List.length ∧
      (countersOf holder).recvAll received =
        { delivered := lengths
          counters := countersOf last } := by
  induction chunks generalizing holder lengths with
  | nil =>
      obtain ⟨rfl, rfl⟩ := Prod.mk.inj (Except.ok.inj declared)
      exact ⟨[], rfl, rfl⟩
  | cons chunk chunks ih =>
      obtain ⟨obtained, chunkObtained, declared⟩ := bind_eq_ok.mp declared
      obtain ⟨⟨first, left⟩, declaredFirst, declared⟩ := bind_eq_ok.mp declared
      obtain ⟨⟨further, behind⟩, declaredFurther, declared⟩ := bind_eq_ok.mp declared
      obtain ⟨rfl, rfl⟩ := Prod.mk.inj (Except.ok.inj declared)
      obtain ⟨word, counters⟩ := obtainChunk_counters chunkObtained
      obtain ⟨words, accounted⟩ := declaredLengths_counters declaredFirst
      obtain ⟨received, same, accountedFurther⟩ := ih declaredFurther
      obtain ⟨all, firstWord, laterWords⟩ := exists_words word words
      let now : Recv :=
        { bytes := chunk.length
          words := all }
      have accountedNow : (countersOf holder).recv now =
          { delivered := first
            counters := countersOf left } := by
        rw [← accounted, counters, Counters.recv]
        simp only [now, firstWord, laterWords]
        split
        · rfl
        · rfl
      refine ⟨now :: received, by rw [List.map_cons, List.map_cons, same], ?_⟩
      simp only [Counters.recvAll, accountedNow, accountedFurther]

end Holders

/-! ### The code -/

/-- The callback with a count of its calls. -/
def counted {σ : Type} (callback : ProcessingCallback σ) : ProcessingCallback (σ × Nat) :=
  fun processMsgBuffer (state, calls) => do
    let (processMsgBuffer, state) ← callback processMsgBuffer state
    pure (processMsgBuffer, state, calls + 1)

section Receiving

variable {σ : Type} {host : ByteOrder} {callback : ProcessingCallback σ} {fuel rs : Nat}
  {holder : RecvHolder} {processBuf : Block maxMsgLen} {state : σ}

/-- Finding the place of the first message ends. -/
theorem firstMsgOffset_halts : Halts (firstMsgOffset holder) := by
  rw [firstMsgOffset]
  split
  · intro diverges
    cases diverges
  · exact halts_ok

/-- Reading the length field ends. -/
theorem handleMsgLen_halts {size : UInt32} : Halts (handleMsgLen host holder size) := by
  have loadHalts : ∀ (object : Bytes) (offset : Nat), Halts (load32 host object offset) :=
    fun object offset => (halts_readBytes object offset 4).bind fun _ _ => halts_ok
  rw [handleMsgLen]
  split
  all_goals
    simp only []
    split
    · exact firstMsgOffset_halts.bind fun _ _ => (loadHalts _ _).bind fun _ _ => halts_ok
    · exact halts_ok

/-- Copying the first message ends. -/
theorem copyFirstMsg_halts : Halts (copyFirstMsg holder processBuf) := by
  have lenHalts : ∀ count : Int, Halts (memcpyLen count) := by
    intro count
    rw [memcpyLen]
    split
    · intro diverges
      cases diverges
    · exact halts_ok
  refine firstMsgOffset_halts.bind fun firstMsg _ => ?_
  simp only []
  split
  · refine (lenHalts _).bind fun untilEnd _ => (halts_readBytes _ _ _).bind fun firstPart _ => ?_
    refine (halts_write _ _ _).bind fun buffer _ => (lenHalts _).bind fun fromStart _ => ?_
    exact (halts_readBytes _ _ _).bind fun secondPart _ => halts_write _ _ _
  · exact (halts_readBytes _ _ _).bind fun message _ => halts_write _ _ _

/-- The recursion takes five bytes off the used ones every time. -/
theorem handleMsgData_halts
    (callbackHalts : ∀ buffer state, Halts (callback buffer state))
    (enough : holder.firstMsgSizeUsed.toNat / 5 < fuel) :
    Halts (handleMsgData host callback fuel holder rs processBuf state) := by
  induction fuel generalizing holder processBuf state with
  | zero => exact absurd enough (Nat.not_lt_zero _)
  | succ fuel ih =>
      rw [handleMsgData]
      split
      · rename_i complete
        refine copyFirstMsg_halts.bind fun copied _ => ?_
        refine (callbackHalts _ _).bind fun handed _ => ?_
        simp only []
        split
        · rename_i more
          refine handleMsgLen_halts.bind fun second lengthHandled => ?_
          refine Halts.bind (ih ?_) fun _ _ => halts_ok
          obtain ⟨word, counters⟩ := handleMsgLen_counters lengthHandled
          have used : second.firstMsgSizeUsed = (countersOf holder).second.firstMsgSizeUsed :=
            congrArg Counters.firstMsgSizeUsed counters
          have taken := @toNat_used_second (countersOf holder) more complete.2
          have size : (countersOf holder).firstMsgSizeUsed = holder.firstMsgSizeUsed := rfl
          rw [size] at taken
          rw [used]
          omega
        · exact halts_ok
      · exact halts_ok

/-- What the callback makes of the messages does not matter for the holder, and it is called once
for each length. -/
theorem handleMsgData_declares {calls : Nat} {handled : Handled (σ × Nat)}
    (ran : handleMsgData host (counted callback) fuel holder rs processBuf (state, calls) =
      .ok handled) :
    ∃ lengths, declaredLengths host fuel holder rs = .ok (lengths, handled.holder) ∧
      lengths.length = handled.recvMessagesCount ∧
      handled.state.2 = calls + lengths.length := by
  induction fuel generalizing holder processBuf state calls handled with
  | zero => cases ran
  | succ fuel ih =>
      rw [handleMsgData] at ran
      rw [declaredLengths]
      split at ran
      · rename_i complete
        rw [if_pos complete]
        obtain ⟨copied, -, ran⟩ := bind_eq_ok.mp ran
        obtain ⟨handed, called, ran⟩ := bind_eq_ok.mp ran
        obtain ⟨⟨buffer, next⟩, -, returned⟩ := bind_eq_ok.mp called
        obtain rfl := Except.ok.inj returned
        simp only [] at ran
        split at ran
        · rename_i more
          rw [if_pos more]
          obtain ⟨second, lengthHandled, ran⟩ := bind_eq_ok.mp ran
          obtain ⟨deeper, ranDeeper, ran⟩ := bind_eq_ok.mp ran
          obtain ⟨lengths, declared, number, counting⟩ := ih ranDeeper
          refine ⟨holder.firstMsgSize :: lengths, ?_, ?_, ?_⟩
          · rw [← Except.ok.inj ran]
            simp only [] at lengthHandled ⊢
            rw [lengthHandled, ok_bind, declared]
            rfl
          · rw [← Except.ok.inj ran, List.length_cons, number]
          · rw [← Except.ok.inj ran, List.length_cons]
            simp only [counting]
            omega
        · rename_i nothingMore
          rw [if_neg nothingMore]
          refine ⟨[holder.firstMsgSize], ?_, ?_, ?_⟩
          · rw [← Except.ok.inj ran]
            rfl
          · rw [← Except.ok.inj ran, List.length_singleton]
          · rw [← Except.ok.inj ran, List.length_singleton]
      · rename_i incomplete
        rw [if_neg incomplete]
        refine ⟨[], ?_, ?_, ?_⟩
        · rw [← Except.ok.inj ran]
          rfl
        · rw [← Except.ok.inj ran, List.length_nil]
        · rw [← Except.ok.inj ran, List.length_nil, Nat.add_zero]

/-! ### Runs -/

/-- A call of `recvAll` on an open connection, when the chunks have arrived since the last one. -/
def call (host : ByteOrder) (callback : ProcessingCallback σ) (malloced : Block recvQueueSize)
    (socket : Int) (outcome : RecvAllOutcome σ) (arriving : List Bytes) :
    Checked (RecvAllOutcome σ) :=
  PckData.recvAll host callback malloced outcome.recvHolders socket
    (outcome.unread ++ arriving.map RecvResult.bytes) outcome.processBuf outcome.state

/-- From `holder` on, `read` is what has been received of the chunks that have arrived. Messages of
these lengths have been handed to the callback, and `last` is the holder that is left. -/
structure HasRead (host : ByteOrder) (holder last : RecvHolder) (arrived read unread : List Bytes)
    (lengths : List UInt32) (calls : Nat) (outcome : RecvAllOutcome (σ × Nat)) : Prop where
  cut : arrived = read ++ unread
  leaves : outcome.unread = unread.map RecvResult.bytes
  declared : declaredInStream host holder read = .ok (lengths, last)
  called : outcome.state.2 = calls + lengths.length

/-- The lengths that are declared in two parts of a stream. -/
theorem declaredInStream_append {middle last : RecvHolder} {read more : List Bytes}
    {lengths further : List UInt32}
    (before : declaredInStream host holder read = .ok (lengths, middle))
    (behind : declaredInStream host middle more = .ok (further, last)) :
    declaredInStream host holder (read ++ more) = .ok (lengths ++ further, last) := by
  induction read generalizing holder lengths with
  | nil =>
      obtain ⟨rfl, rfl⟩ := Prod.mk.inj (Except.ok.inj before)
      exact behind
  | cons chunk read ih =>
      obtain ⟨obtained, chunkObtained, before⟩ := bind_eq_ok.mp before
      obtain ⟨⟨first, left⟩, declaredFirst, before⟩ := bind_eq_ok.mp before
      obtain ⟨⟨later, reached⟩, declaredLater, before⟩ := bind_eq_ok.mp before
      obtain ⟨rfl, rfl⟩ := Prod.mk.inj (Except.ok.inj before)
      simp only [List.cons_append, declaredInStream, chunkObtained, ok_bind, declaredFirst,
        ih declaredLater, pure_eq_ok, List.append_assoc]

/-- The loop lemma. -/
theorem recvLoop_declares {index calls : Nat} {recvHolders : List RecvHolder}
    {chunks : List Bytes} {outcome : RecvAllOutcome (σ × Nat)}
    (found : recvHolders[index]? = some holder)
    (ran : recvLoop host (counted callback) index (chunks.map RecvResult.bytes) recvHolders
      processBuf (state, calls) = .ok outcome) :
    ∃ last read unread lengths, HasRead host holder last chunks read unread lengths calls outcome ∧
      outcome.recvHolders = recvHolders.set index last ∧ last.socket = holder.socket := by
  induction chunks generalizing holder recvHolders processBuf state calls with
  | nil =>
      obtain rfl := Except.ok.inj ran
      obtain ⟨inside, rfl⟩ := List.getElem?_eq_some_iff.mp found
      refine ⟨_, [], [], [], ?_, (List.set_getElem_self inside).symm, rfl⟩
      exact
        { cut := rfl
          leaves := rfl
          declared := rfl
          called := rfl }
  | cons chunk chunks ih =>
      obtain ⟨inside, -⟩ := List.getElem?_eq_some_iff.mp found
      simp only [List.map_cons, recvLoop, found] at ran
      obtain ⟨handled, received, ran⟩ := bind_eq_ok.mp ran
      have kept := recvChunk_socket received
      obtain ⟨obtained, chunkObtained, ranHandled⟩ := bind_eq_ok.mp received
      obtain ⟨lengths, declared, -, called⟩ := handleMsgData_declares ranHandled
      split at ran
      · -- The loop is left behind a message.
        obtain rfl := Except.ok.inj ran
        refine ⟨handled.holder, [chunk], chunks, lengths, ?_, rfl, kept⟩
        exact
          { cut := rfl
            leaves := rfl
            declared := by
              simp only [declaredInStream, chunkObtained, ok_bind, declared, pure_eq_ok,
                List.append_nil]
            called := called }
      · have stored : (recvHolders.set index handled.holder)[index]? = some handled.holder :=
          List.getElem?_set_self inside
        obtain ⟨last, read, unread, further, hasRead, table, same⟩ := ih stored ran
        refine ⟨last, chunk :: read, unread, lengths ++ further, ?_, ?_, same.trans kept⟩
        · exact
            { cut := by rw [hasRead.cut, List.cons_append]
              leaves := hasRead.leaves
              declared := by
                simp only [declaredInStream, chunkObtained, ok_bind, declared, hasRead.declared,
                  pure_eq_ok]
              called := by
                rw [hasRead.called, called, List.length_append]
                omega }
        · rw [table, List.set_set]

/-- One call, and the holder that the next one will find. -/
theorem call_declares {malloced : Block recvQueueSize} {socket : Int} {arriving unread : List Bytes}
    {outcome next : RecvAllOutcome (σ × Nat)}
    (finds : Finds malloced outcome.recvHolders socket holder)
    (leaves : outcome.unread = unread.map RecvResult.bytes)
    (ran : call host (counted callback) malloced socket outcome arriving = .ok next) :
    ∃ last read unread' lengths, HasRead host holder last (unread ++ arriving) read unread' lengths
        outcome.state.2 next ∧
      Finds malloced next.recvHolders socket last := by
  obtain ⟨table, index, use, found⟩ := finds
  simp only [call, PckData.recvAll, use, leaves, ← List.map_append] at ran
  obtain ⟨last, read, unread', lengths, hasRead, stored, same⟩ := recvLoop_declares found ran
  refine ⟨last, read, unread', lengths, hasRead, table.set index last, index, ?_, ?_⟩
  · have again := @ConnectionIsolation.holderToUse_again malloced outcome.recvHolders socket holder
      last
    rw [use] at again
    rw [stored]
    exact again found same
  · obtain ⟨inside, -⟩ := List.getElem?_eq_some_iff.mp found
    exact List.getElem?_set_self inside

/-- The run lemma. -/
theorem run_declares {malloced : Block recvQueueSize} {socket : Int}
    {start final : RecvAllOutcome (σ × Nat)} {arrivals : List (List Bytes)}
    (finds : Finds malloced start.recvHolders socket holder) (nothingLeft : start.unread = [])
    (ran : runFrom (call host (counted callback) malloced socket) start arrivals = .ok final) :
    ∃ last read unread lengths,
      HasRead host holder last arrivals.flatten read unread lengths start.state.2 final ∧
        Finds malloced final.recvHolders socket last := by
  induction arrivals using List.reverseRecOn generalizing final with
  | nil =>
      obtain rfl := Except.ok.inj ran
      refine ⟨holder, [], [], [], ?_, finds⟩
      exact
        { cut := rfl
          leaves := nothingLeft
          declared := rfl
          called := rfl }
  | append_singleton arrivals arriving ih =>
      rw [runFrom_snoc] at ran
      obtain ⟨reached, ranReached, ran⟩ := bind_eq_ok.mp ran
      obtain ⟨middle, read, unread, lengths, before, findsMiddle⟩ := ih ranReached
      obtain ⟨last, more, left, further, behind, findsLast⟩ :=
        call_declares findsMiddle before.leaves ran
      refine ⟨last, read ++ more, left, lengths ++ further, ?_, findsLast⟩
      exact
        { cut := by
            rw [List.flatten_append, List.flatten_singleton, before.cut, List.append_assoc,
              behind.cut, List.append_assoc]
          leaves := behind.leaves
          declared := declaredInStream_append before.declared behind.declared
          called := by
            rw [behind.called, before.called, List.length_append, Nat.add_assoc] }

/-- What is owed to every byte that is received. -/
structure AccountsForBytes (host : ByteOrder) (callback : ProcessingCallback σ) : Prop where
  anyWords : ∀ words counters, Conserves counters (counters.handleMsgData words)
  anyRecvs : ∀ (counters : Counters) (received : List Recv),
    Balances counters (received.map Recv.bytes).sum (counters.recvAll received)
  ends : (∀ buffer state, Halts (callback buffer state)) →
    ∀ fuel holder rs processBuf state, holder.firstMsgSizeUsed.toNat / 5 < fuel →
      Halts (handleMsgData host callback fuel holder rs processBuf state)
  handles : ∀ fuel holder rs processBuf state calls handled,
    handleMsgData host (counted callback) fuel holder rs processBuf (state, calls) = .ok handled →
      ∃ lengths, declaredLengths host fuel holder rs = .ok (lengths, handled.holder) ∧
        lengths.length = handled.recvMessagesCount ∧
        handled.state.2 = calls + lengths.length ∧
        Conserves (countersOf holder)
          { delivered := lengths
            counters := countersOf handled.holder }
  runs : ∀ malloced socket start holder arrivals final,
    Finds malloced start.recvHolders socket holder → countersOf holder = newCounters →
    start.unread = [] →
    runFrom (call host (counted callback) malloced socket) start arrivals = .ok final →
      ∃ last read unread lengths,
        HasRead host holder last arrivals.flatten read unread lengths start.state.2 final ∧
          Finds malloced final.recvHolders socket last ∧
          read.flatten.length ≡
            (lengths.map UInt32.toNat).sum + last.firstMsgSizeUsed.toNat [MOD 2 ^ 32]

/-- Every byte that is received is accounted for. -/
theorem accounts_for_bytes (host : ByteOrder) (callback : ProcessingCallback σ) :
    AccountsForBytes host callback := by
  constructor
  case anyWords => exact conserves
  case anyRecvs => exact recvAll_balances
  case ends =>
    intro callbackHalts fuel holder rs processBuf state enough
    exact handleMsgData_halts callbackHalts enough
  case handles =>
    intro fuel holder rs processBuf state calls handled ran
    obtain ⟨lengths, declared, number, called⟩ := handleMsgData_declares ran
    obtain ⟨words, accounted⟩ := declaredLengths_counters declared
    refine ⟨lengths, declared, number, called, ?_⟩
    rw [← accounted]
    exact conserves words (countersOf holder)
  case runs =>
    intro malloced socket start holder arrivals final finds fresh nothingLeft ran
    obtain ⟨last, read, unread, lengths, hasRead, findsLast⟩ := run_declares finds nothingLeft ran
    refine ⟨last, read, unread, lengths, hasRead, findsLast, ?_⟩
    obtain ⟨received, sizes, accounted⟩ := declaredInStream_counters hasRead.declared
    have balances := recvAll_balances (countersOf holder) received
    have zero : newCounters.firstMsgSizeUsed.toNat = 0 := rfl
    rw [Balances, accounted, sizes, fresh, zero, Nat.zero_add, ← List.length_flatten] at balances
    exact balances

end Receiving

/-! ### A message in one piece and in two -/

/-- A callback that only looks at its message. -/
def onlyLooking : ProcessingCallback Unit := fun processMsgBuffer state =>
  .ok (processMsgBuffer, state)

/-- No socket has a holder yet. -/
def withoutHolders : RecvAllOutcome (Unit × Nat) :=
  { returnValue := 0
    unread := []
    recvHolders := []
    processBuf := default
    state := ((), 0) }

/-- A holder that has just received a message of six bytes. -/
def sixBytes : RecvHolder :=
  { initRecvHolder (.holding recvQueueSize [0, 0, 0, 6, 7, 8]) 5 with
    firstMsgPtr := some 0
    firstMsgSize := 6
    firstMsgSizeUsed := 6 }

/-- A message of six bytes is handled in one piece. When it comes in two, each for a call of
`recvAll` of its own, the second call hands it over. -/
theorem accounts_for_split :
    (∃ handled lengths,
      handleMsgData .little (counted onlyLooking) 2 sixBytes 6 default ((), 0) = .ok handled ∧
        handled.state.2 = lengths.length ∧
        Conserves (countersOf sixBytes)
          { delivered := lengths
            counters := countersOf handled.holder }) ∧
      ∃ final last read unread lengths,
        runFrom (call .little (counted onlyLooking) default 5) withoutHolders
            [[[0, 0, 0, 6]], [[7, 8]]] = .ok final ∧
          final.state.2 = 1 ∧
          HasRead .little (initRecvHolder default 5) last [[0, 0, 0, 6], [7, 8]] read unread lengths
            0 final ∧
          read.flatten.length ≡
            (lengths.map UInt32.toNat).sum + last.firstMsgSizeUsed.toNat [MOD 2 ^ 32] := by
  have accounts := accounts_for_bytes .little onlyLooking
  constructor
  · have ran : (handleMsgData .little (counted onlyLooking) 2 sixBytes 6 default ((), 0)).map
        (fun handled => handled.state.2) = .ok 1 := by
      decide +kernel
    obtain ⟨handled, ended, -⟩ := map_eq_ok.mp ran
    obtain ⟨lengths, -, -, called, conserved⟩ := accounts.handles _ _ _ _ _ _ _ ended
    exact ⟨handled, lengths, ended, by rw [called, Nat.zero_add], conserved⟩
  · have ran : (runFrom (call .little (counted onlyLooking) default 5) withoutHolders
        [[[0, 0, 0, 6]], [[7, 8]]]).map (fun final => final.state.2) = .ok 1 := by
      decide +kernel
    obtain ⟨final, ended, one⟩ := map_eq_ok.mp ran
    have finds : Finds default withoutHolders.recvHolders 5 (initRecvHolder default 5) :=
      ⟨_, _, rfl, rfl⟩
    obtain ⟨last, read, unread, lengths, hasRead, -, balanced⟩ :=
      accounts.runs _ _ _ _ _ _ finds rfl rfl ended
    exact ⟨final, last, read, unread, lengths, ended, one, hasRead, balanced⟩
end RentMate.ByteAccounting
