/-
Module: RentMate.Proofs.ReceiveSafety
Purpose: Runs of `recv()` on arbitrary streams: which of them keep every access of the receive
  side inside the queue and the process buffer.
Trusted boundary: none
Main exports: HolderSafe, WithinMessage, SafeRecv, receive_stays_inside
-/
import RentMate.Proofs.StreamIndependence

namespace RentMate.ReceiveSafety

open RentMate.Machine
open RentMate.PckData
open RentMate.Reassembly
open RentMate.StreamIndependence

/-- The queue has room for another `recv()`, and the pointer points into it. -/
def HolderSafe (holder : RecvHolder) : Prop :=
  holder.sizeUsed < recvQueueSize ∧
    ∀ offset, holder.firstMsgPtr = some offset → offset < recvQueueSize

/-- The bytes belong to one message and none lies behind its end; once it is complete it fits
the process buffer. A message of declared length four is never complete. -/
def WithinMessage (stream : Bytes) : Prop :=
  4 ≤ stream.length →
    declaredLength stream = 4 ∨ stream.length < declaredLength stream ∨
      (stream.length = declaredLength stream ∧ stream.length ≤ maxMsgLen)

/-- The `recv()` adds to one message only, or it brings one whole message and the beginning of
another with its length field, and the queue has room for circulating twice. -/
def SafeRecv (before : List Bytes) (holder : RecvHolder) (chunk : Bytes) : Prop :=
  let rest := (messageFraming.split before.flatten).2
  LengthFieldInside holder rest chunk ∧
    (WithinMessage (rest ++ chunk) ∨
      (rest = [] ∧
        (holder.sizeUsed + 2 * chunk.length ≤ recvQueueSize ∨
          holder.sizeUsed + chunk.length = recvQueueSize) ∧
        ∃ first second, chunk = first ++ second ∧
          messageFraming.IsFrame first ∧ first.length ≤ maxMsgLen ∧
          4 ≤ second.length ∧ WithinMessage second))

/-- What a holder keeps between two `recv()` calls of a safe run. Once the length is known,
nothing depends on what the queue contains or on where it is written next. -/
inductive SafeHolding (holder : RecvHolder) : Bytes → Prop where
  | counting {rest : Bytes} (short : rest.length < 4) (holding : Holding holder rest)
      (room : holder.sizeUsed < recvQueueSize) :
      SafeHolding holder rest
  | known {start : Nat} {rest : Bytes} (pointer : holder.firstMsgPtr = some start)
      (starts : start < recvQueueSize) (long : 4 ≤ rest.length)
      (size : holder.firstMsgSize.toNat = declaredLength rest)
      (used : holder.firstMsgSizeUsed = UInt32.ofNat rest.length)
      (unfinished : declaredLength rest = 4 ∨ rest.length < declaredLength rest)
      (room : holder.sizeUsed < recvQueueSize) :
      SafeHolding holder rest

/-- A holder in step with its stream is safe. -/
theorem SafeHolding.holderSafe {holder : RecvHolder} {rest : Bytes}
    (holding : SafeHolding holder rest) : HolderSafe holder := by
  cases holding with
  | counting short holding room =>
      refine ⟨room, fun offset pointer => ?_⟩
      cases holding with
      | idle none => simp [none] at pointer
      | message begun sized arrived next =>
          rw [arrived.pointer] at pointer
          obtain rfl := Option.some.inj pointer
          exact arrived.starts
  | known pointer starts long size used unfinished room =>
      refine ⟨room, fun offset same => ?_⟩
      rw [pointer] at same
      obtain rfl := Option.some.inj same
      exact starts

/-- A chunk that fits leaves the counter inside the queue. -/
theorem circulateBuffer_room {holder : RecvHolder} {rs : Nat}
    (room : holder.sizeUsed + rs ≤ recvQueueSize) :
    (circulateBuffer holder rs).sizeUsed < recvQueueSize := by
  simp only [circulateBuffer]
  split
  · simp only [recvQueueSize, maxDevMsgLen]
    omega
  · omega

/-- So does a chunk that is counted twice, if it fits twice or ends the queue. -/
theorem circulateBuffer_twice_room {holder : RecvHolder} {rs : Nat}
    (room : holder.sizeUsed + rs ≤ recvQueueSize)
    (twice : holder.sizeUsed + 2 * rs ≤ recvQueueSize ∨ holder.sizeUsed + rs = recvQueueSize) :
    (circulateBuffer (circulateBuffer holder rs) rs).sizeUsed < recvQueueSize := by
  by_cases atEnd : holder.sizeUsed + rs = recvQueueSize
  · have restarted : (circulateBuffer holder rs).sizeUsed = 0 := by
      simp only [circulateBuffer, if_pos atEnd]
    exact circulateBuffer_room (by omega)
  · have moved : (circulateBuffer holder rs).sizeUsed = holder.sizeUsed + rs := by
      simp only [circulateBuffer, if_neg atEnd]
    exact circulateBuffer_room (by omega)

/-- An unfinished message is an incomplete stream. -/
theorem incomplete_of_unfinished {stream : Bytes}
    (unfinished : 4 ≤ stream.length →
      declaredLength stream = 4 ∨ stream.length < declaredLength stream) :
    messageFraming.Incomplete stream := by
  intro size declares
  obtain ⟨long, large, rfl⟩ := declared_eq_some.mp declares
  have := unfinished long
  omega

section Handling

variable {holder : RecvHolder} {start : Nat} {stream : Bytes}

/-- An unfinished message of known length is left alone. -/
theorem handleMsgData_unfinished {σ : Type} {host : ByteOrder} {callback : ProcessingCallback σ}
    {fuel rs : Nat}
    {processBuf : Block maxMsgLen} {state : σ}
    (size : holder.firstMsgSize.toNat = declaredLength stream)
    (used : holder.firstMsgSizeUsed = UInt32.ofNat stream.length)
    (unfinished : declaredLength stream = 4 ∨ stream.length < declaredLength stream) :
    handleMsgData host callback (fuel + 1) holder rs processBuf state =
      .ok
        { recvMessagesCount := 0
          holder := circulateBuffer holder rs
          processMsgBuffer := processBuf
          state := state } := by
  have incomplete : ¬ (holder.firstMsgSize ≤ holder.firstMsgSizeUsed ∧
      4 < holder.firstMsgSize) := by
    have four : (4 : UInt32).toNat = 4 := rfl
    have bound : holder.firstMsgSize.toNat < 4294967296 := holder.firstMsgSize.toNat_lt
    rw [UInt32.le_iff_toNat_le, UInt32.lt_iff_toNat_lt, size, used, UInt32.toNat_ofNat', four]
    omega
  rw [handleMsgData, if_neg incomplete]
  rfl

/-- Bytes within one message of known length: the holder stays safe. -/
theorem handleMsgData_safe (host : ByteOrder) (leaves : Block maxMsgLen → Block maxMsgLen)
    (fuel rs : Nat) (processBuf : Block maxMsgLen) (log : List Bytes)
    (pointer : holder.firstMsgPtr = some start) (starts : start < recvQueueSize)
    (long : 4 ≤ stream.length) (size : holder.firstMsgSize.toNat = declaredLength stream)
    (used : holder.firstMsgSizeUsed = UInt32.ofNat stream.length)
    (within : WithinMessage stream) (room : (circulateBuffer holder rs).sizeUsed < recvQueueSize) :
    ∃ handled,
      handleMsgData host (recordFrame leaves) (fuel + 1) holder rs processBuf log = .ok handled ∧
        SafeHolding handled.holder (messageFraming.split stream).2 := by
  rcases within long with four | short | ⟨whole, fits⟩
  · refine ⟨_, handleMsgData_unfinished size used (Or.inl four), ?_⟩
    rw [Framing.split_of_incomplete (incomplete_of_unfinished fun _ => Or.inl four)]
    exact .known pointer starts long size used (Or.inl four) room
  · refine ⟨_, handleMsgData_unfinished size used (Or.inr short), ?_⟩
    rw [Framing.split_of_incomplete (incomplete_of_unfinished fun _ => Or.inr short)]
    exact .known pointer starts long size used (Or.inr short) room
  · by_cases four : declaredLength stream = 4
    · refine ⟨_, handleMsgData_unfinished size used (Or.inl four), ?_⟩
      rw [Framing.split_of_incomplete (incomplete_of_unfinished fun _ => Or.inl four)]
      exact .known pointer starts long size used (Or.inl four) room
    · have received : holder.firstMsgSizeUsed.toNat = declaredLength stream := by
        rw [used, toNat_ofNat_of_le (by
          simp only [recvQueueSize, maxDevMsgLen, maxMsgLen] at fits ⊢
          omega), whole]
      obtain ⟨copied, -, ran⟩ := handleMsgData_complete host (recordFrame leaves) fuel rs processBuf log
        pointer (Nat.le_of_lt starts) size received (by omega) (by omega)
      have isFrame : messageFraming.IsFrame stream := isFrame_iff.mpr ⟨by omega, whole.symm⟩
      refine ⟨_, ran, ?_⟩
      rw [Framing.split_single isFrame]
      exact .counting (by simp) (holding_betweenMessages _ _) room

end Handling

/-! ### Steps and runs -/

section Steps

variable {host : ByteOrder} {leaves : Block maxMsgLen → Block maxMsgLen} {holder : RecvHolder}
  {rest chunk : Bytes}

/-- While the length is not known, a message lies in the queue without a wrap up to the end of
the `recv()` that completes the length field. -/
theorem length_le_of_lengthField (short : rest.length < 4) (holding : Holding holder rest)
    (gives : RecvGives holder chunk) (lengthField : LengthFieldInside holder rest chunk) :
    (rest ++ chunk).length ≤ recvQueueSize := by
  obtain ⟨begun, room⟩ := gives
  rw [List.length_append]
  by_cases completes : 4 ≤ (rest ++ chunk).length
  · have inside := lengthField short completes
    cases holding with
    | idle => simp; omega
    | message _ sized arrived next =>
        rw [arrived.pointer, Option.getD_some] at inside
        simp only [circularEnd] at next
        split at next <;> omega
  · simp only [recvQueueSize, maxDevMsgLen]
    rw [List.length_append] at completes
    omega

/-- Once the length is known, `obtainChunk` counts the new bytes. -/
theorem obtainChunk_known (host : ByteOrder) {start : Nat}
    (pointer : holder.firstMsgPtr = some start)
    (long : 4 ≤ rest.length) (size : holder.firstMsgSize.toNat = declaredLength rest)
    (used : holder.firstMsgSizeUsed = UInt32.ofNat rest.length)
    (unfinished : declaredLength rest = 4 ∨ rest.length < declaredLength rest)
    (room : holder.sizeUsed + chunk.length ≤ recvQueueSize) :
    ∃ queue,
      obtainChunk host holder chunk =
        .ok
          { holder with
            recvQueue := queue
            firstMsgSizeUsed := UInt32.ofNat (rest ++ chunk).length } := by
  obtain ⟨queue, written, -⟩ := holder.recvQueue.write_ok holder.sizeUsed chunk room
  have four : (4 : UInt32).toNat = 4 := rfl
  have above : ¬ holder.firstMsgSize < 4 := by
    rw [UInt32.lt_iff_toNat_lt, size]
    omega
  refine ⟨queue, ?_⟩
  simp only [obtainChunk, written, ok_bind, pointer, above]
  simp [used]

/-- The step lemma: a safe `recv()` stays inside the queue and the buffer and leaves the
holder safe. -/
theorem recvChunk_safe (host : ByteOrder) (leaves : Block maxMsgLen → Block maxMsgLen)
    (processBuf : Block maxMsgLen) (log : List Bytes)
    (holding : SafeHolding holder rest) (gives : RecvGives holder chunk)
    (lengthField : LengthFieldInside holder rest chunk)
    (safe : WithinMessage (rest ++ chunk) ∨
      (rest = [] ∧
        (holder.sizeUsed + 2 * chunk.length ≤ recvQueueSize ∨
          holder.sizeUsed + chunk.length = recvQueueSize) ∧
        ∃ first second, chunk = first ++ second ∧
          messageFraming.IsFrame first ∧ first.length ≤ maxMsgLen ∧
          4 ≤ second.length ∧ WithinMessage second)) :
    ∃ handled,
      recvChunk host (recordFrame leaves) holder chunk processBuf log = .ok handled ∧
        SafeHolding handled.holder (messageFraming.split (rest ++ chunk)).2 := by
  obtain ⟨begun, room⟩ := gives
  cases holding with
  | known pointer starts long size used unfinished _ =>
      have within : WithinMessage (rest ++ chunk) := by
        rcases safe with within | ⟨rfl, -⟩
        · exact within
        · simp at long
      obtain ⟨queue, obtained⟩ :=
        obtainChunk_known host pointer long size used unfinished room
      have longer : 4 ≤ (rest ++ chunk).length := by
        rw [List.length_append]
        omega
      simp only [recvChunk, obtained, ok_bind]
      exact handleMsgData_safe host leaves _ _ processBuf log pointer starts longer
        (by rw [size, declaredLength_append long]) rfl within (circulateBuffer_room room)
  | counting short holding _ =>
      have few := length_le_of_lengthField short holding ⟨begun, room⟩ lengthField
      obtain ⟨queue, start, obtained, starts, content, next⟩ :=
        obtainChunk_ok host holding begun room lengthField few
      have arrived : Arrived (withArrived holder queue start (rest ++ chunk)) start
          (rest ++ chunk) := arrived_withArrived starts content
      simp only [recvChunk, obtained, ok_bind]
      rcases safe with within | ⟨rfl, twice, first, second, rfl, isFirst, firstFits, field, within⟩
      · by_cases completes : 4 ≤ (rest ++ chunk).length
        · exact handleMsgData_safe host leaves _ _ processBuf log rfl starts completes
            (arrived.firstMsgSize_toNat completes) rfl
            within (circulateBuffer_room room)
        · -- Still less than a length field.
          have total : (rest ++ chunk).length = rest.length + chunk.length := List.length_append
          refine ⟨_, handleMsgData_waiting arrived few (by omega), ?_⟩
          rw [Framing.split_of_incomplete (incomplete_of_unfinished (by omega))]
          have still : (rest ++ chunk).length < 4 := by omega
          have unknown : 4 ≤ (rest ++ chunk).length → 4 < declaredLength (rest ++ chunk) := by
            omega
          refine .counting still (.message (by simp [begun]) unknown
            ⟨rfl, starts, rfl, content, rfl⟩ ?_) (circulateBuffer_room room)
          rw [total]
          exact circulateBuffer_next starts (by omega) next room
      · simp only [List.nil_append] at arrived few ⊢
        have here : holder.sizeUsed = start := by
          simp only [circularEnd, List.length_nil] at next
          split at next <;> omega
        have both : (first ++ second).length = first.length + second.length := List.length_append
        obtain ⟨fuel, received⟩ : ∃ fuel,
            (withArrived holder queue start (first ++ second)).firstMsgSizeUsed.toNat = fuel + 1 :=
          ⟨(first ++ second).length - 1, by
            rw [arrived.firstMsgSizeUsed_toNat few]
            omega⟩
        obtain ⟨copied, -, ran, secondArrived⟩ := handleMsgData_first host (recordFrame leaves) fuel
          (first ++ second).length processBuf log arrived here isFirst firstFits field (by omega)
        have circulatedTwice : (circulateBuffer (secondMessage
            (withArrived holder queue start (first ++ second)) (first ++ second).length first second)
            (first ++ second).length).sizeUsed < recvQueueSize := by
          exact circulateBuffer_twice_room
            (show (withArrived holder queue start (first ++ second)).sizeUsed + _ ≤ _ from room)
            twice
        obtain ⟨handled, ranSecond, holds⟩ := handleMsgData_safe host leaves fuel
          (first ++ second).length (leaves copied) (log ++ [frameIn copied]) secondArrived.pointer
          secondArrived.starts field (secondArrived.firstMsgSize_toNat field) secondArrived.used
          within circulatedTwice
        refine ⟨_, by rw [received, ran, recordFrame, ok_bind, ranSecond]; rfl, ?_⟩
        rw [Framing.split_frame isFirst]
        exact holds

/-- In every run of `recv()` calls that are safe, whatever the stream, no access leaves the
queue or the process buffer, and the holder is ready for the next `recv()`. -/
theorem receive_stays_inside (malloced : Block recvQueueSize) (socket : Int)
    (processBuf : Block maxMsgLen) {chunks : List Bytes}
    (along : Along (receive host (recordFrame leaves)) (fresh malloced socket processBuf [])
      (fun before reached chunk =>
        RecvGives reached.holder chunk ∧ SafeRecv before reached.holder chunk) chunks) :
    ∃ final,
      runFrom (receive host (recordFrame leaves)) (fresh malloced socket processBuf []) chunks =
          .ok final ∧
        HolderSafe final.holder := by
  obtain ⟨final, ran, holding⟩ := run_invariant
    (fun before reached => SafeHolding reached.holder (messageFraming.split before.flatten).2)
    (by
      simp only [List.flatten_nil, Framing.split_nil]
      exact .counting (by simp) (holding_init malloced socket)
        (show 0 < recvQueueSize by decide))
    (by
      rintro before reached chunk holding ⟨gives, lengthField, safe⟩
      obtain ⟨handled, stepped, holds⟩ := recvChunk_safe host leaves reached.processMsgBuffer
        reached.state holding gives lengthField safe
      refine ⟨handled, stepped, ?_⟩
      rw [List.flatten_append, List.flatten_singleton, Framing.split_append]
      exact holds)
    along
  exact ⟨final, ran, holding.holderSafe⟩

end Steps

section Instances

/-- A message of five bytes whose length field comes alone first. -/
theorem receive_stays_inside_split_message :
    ∃ final,
      runFrom (receive .big (recordFrame id))
          (fresh (Block.fill recvQueueSize 0) 7 (Block.fill maxMsgLen 0) [])
          [[0, 0, 0, 5], [1]] = .ok final ∧
        HolderSafe final.holder := by
  refine receive_stays_inside (Block.fill recvQueueSize 0) 7 (Block.fill maxMsgLen 0) ?_
  refine along_cons.mpr ⟨⟨by decide, fun _ _ => by decide, .inl fun _ => .inr (.inl ?_)⟩, ?_⟩
  · decide
  · intro reached ran
    have used : (receive .big (recordFrame id) (fresh (Block.fill recvQueueSize 0) 7
        (Block.fill maxMsgLen 0) []) [0, 0, 0, 5]).map (fun reached => reached.holder.sizeUsed) =
        .ok 4 := by
      decide +kernel
    rw [ran] at used
    have sizeUsed : reached.holder.sizeUsed = 4 := Except.ok.inj used
    have lengthField : (messageFraming.split [[0, 0, 0, 5]].flatten).2 = [0, 0, 0, 5] := by
      decide
    refine along_cons.mpr ⟨⟨⟨by decide, by rw [sizeUsed]; decide⟩, ?_⟩, fun _ _ => along_nil⟩
    simp only [SafeRecv, lengthField]
    refine ⟨fun short _ => absurd short (by decide), .inl fun _ => .inr (.inr ?_)⟩
    decide

/-- A message that declares 256 bytes and brings them is copied past the end of the process
buffer. -/
theorem receive_overruns_processBuf :
    let chunk : Bytes := [0, 0, 1, 0] ++ List.replicate 252 7
    let start := fresh (Block.fill recvQueueSize 0) 7 (Block.fill maxMsgLen 0) ([] : List Bytes)
    RecvGives start.holder chunk ∧
      receive .little (recordFrame id) start chunk = .error .outOfBounds := by
  exact ⟨⟨List.append_ne_nil_of_left_ne_nil (by decide) _, by decide +kernel⟩,
    by decide +kernel⟩

end Instances

end RentMate.ReceiveSafety
