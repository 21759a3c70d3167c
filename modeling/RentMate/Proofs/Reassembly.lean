/-
Module: RentMate.Proofs.Reassembly
Purpose: The circular queue against the byte stream it stands for: which chunks `recvAll`
  reassembles, and what the callback has received after a run of them.
Trusted boundary: none
Main exports: messageFraming, Holding, OnBoundary, recvAllRepeatedly
-/
import RentMate.Machine.Run
import RentMate.Machine.Framing
import RentMate.Machine.Circular
import RentMate.Machine.Outcome
import RentMate.PckData.RecvHolder

namespace RentMate.Reassembly

open RentMate.Machine
open RentMate.PckData

/-! ### The stream -/

/-- The total length in the first four bytes, in network order. -/
def declaredLength (bytes : Bytes) : Nat := (ByteOrder.big.decode (bytes.take 4)).toNat

/-- A message starts with its total length, which counts the length field itself and at least
one byte more. -/
def messageFraming : Framing UInt8 where
  declared bytes :=
    if 4 ≤ bytes.length ∧ 4 < declaredLength bytes then some (declaredLength bytes) else none
  positive := by
    intro bytes size declares
    split at declares
    · obtain rfl := Option.some.inj declares
      omega
    · simp at declares
  stable := by
    intro bytes size more declares
    split at declares
    · rename_i known
      have same : declaredLength (bytes ++ more) = declaredLength bytes := by
        simp only [declaredLength, List.take_append_of_le_length known.1]
      have longer : 4 ≤ (bytes ++ more).length := by
        simp only [List.length_append]
        omega
      rw [if_pos ⟨longer, same ▸ known.2⟩, same]
      exact declares
    · simp at declares

/-- A size is declared once the length field is there and exceeds itself. -/
theorem declared_eq_some {bytes : Bytes} {size : Nat} :
    messageFraming.declared bytes = some size ↔
      4 ≤ bytes.length ∧ 4 < size ∧ declaredLength bytes = size := by
  simp only [messageFraming]
  constructor
  · intro declares
    split at declares
    · rename_i known
      obtain rfl := Option.some.inj declares
      exact ⟨known.1, known.2, rfl⟩
    · simp at declares
  · rintro ⟨long, large, rfl⟩
    rw [if_pos ⟨long, large⟩]

/-- A frame is as long as its length field says, and longer than the field. -/
theorem isFrame_iff {frame : Bytes} :
    messageFraming.IsFrame frame ↔ 4 < frame.length ∧ declaredLength frame = frame.length := by
  rw [Framing.IsFrame, declared_eq_some]
  omega

/-- The declared length is known from the first four bytes. -/
theorem declaredLength_append {bytes : Bytes} (long : 4 ≤ bytes.length) (more : Bytes) :
    declaredLength (bytes ++ more) = declaredLength bytes := by
  simp only [declaredLength, List.take_append_of_le_length long]

/-! ### What a holder holds -/

/-- The bytes `stream` of the current message have arrived in the queue from `start` on. -/
structure Arrived (holder : RecvHolder) (start : Nat) (stream : Bytes) : Prop where
  pointer : holder.firstMsgPtr = some start
  starts : start < recvQueueSize
  used : holder.firstMsgSizeUsed = UInt32.ofNat stream.length
  content : circular holder.recvQueue.bytes start stream.length = stream
  size : holder.firstMsgSize =
    if stream.length < 4 then UInt32.ofNat stream.length
    else ByteOrder.big.decode (stream.take 4)

/-- The holder is between two `recv()` calls and has received `rest` of a message. -/
inductive Holding (holder : RecvHolder) : Bytes → Prop where
  | idle (pointer : holder.firstMsgPtr = none) (size : holder.firstMsgSize = 0)
      (used : holder.firstMsgSizeUsed = 0) :
      Holding holder []
  | message {start : Nat} {rest : Bytes} (begun : rest ≠ [])
      (sized : 4 ≤ rest.length → 4 < declaredLength rest)
      (arrived : Arrived holder start rest)
      (next : holder.sizeUsed = circularEnd recvQueueSize start rest.length) :
      Holding holder rest

/-- A new holder holds nothing. -/
theorem holding_init (malloced : Block recvQueueSize) (socket : Int) :
    Holding (initRecvHolder malloced socket) [] :=
  .idle rfl rfl rfl

/-! ### The bytes of one `recv()` -/

section Obtaining

variable {host : ByteOrder} {holder : RecvHolder} {chunk : Bytes}

/-- A number of bytes in the queue comes back from its word. -/
theorem toNat_ofNat_of_le {count : Nat} (few : count ≤ recvQueueSize) :
    (UInt32.ofNat count).toNat = count := by
  simp only [recvQueueSize, maxDevMsgLen] at few
  rw [UInt32.toNat_ofNat']
  omega

/-- Four bytes read at the start of what has arrived are its length field. -/
theorem load32_start {queue : Block recvQueueSize} {start : Nat} {stream : Bytes}
    (lengthField : start + 4 ≤ recvQueueSize) (long : 4 ≤ stream.length)
    (content : circular queue.bytes start stream.length = stream) :
    load32 host queue.bytes start = .ok (host.decode (stream.take 4)) := by
  have inside : start + 4 ≤ queue.bytes.length := by rw [queue.allocated]; exact lengthField
  have field : slice queue.bytes start 4 = stream.take 4 := by
    rw [← circular_inside inside, ← take_circular long, content]
  rw [load32_ok inside, field]

/-- `handleMsgLen` on a message of which `stream` is in the queue: it counts the bytes of the
length field or, once they are all there, reads it. -/
theorem handleMsgLen_ok {start : Nat} {stream : Bytes} {rs : UInt32}
    (few : stream.length ≤ recvQueueSize)
    (lengthField : 4 ≤ stream.length → start + 4 ≤ recvQueueSize)
    (pointer :
      (if holder.firstMsgSize = 0 then some holder.sizeUsed else holder.firstMsgPtr) = some start)
    (counted : 4 ≤ holder.firstMsgSize + rs ∧ 4 ≤ stream.length ∨
      holder.firstMsgSize + rs = UInt32.ofNat stream.length)
    (content : circular holder.recvQueue.bytes start stream.length = stream) :
    handleMsgLen host holder rs =
      .ok
        { holder with
          firstMsgPtr := some start
          firstMsgSize :=
            if stream.length < 4 then UInt32.ofNat stream.length
            else ByteOrder.big.decode (stream.take 4) } := by
  have assigned : (if holder.firstMsgSize = 0 then
      { holder with firstMsgPtr := some holder.sizeUsed } else holder) =
      { holder with firstMsgPtr := some start } := by
    split at pointer
    · rename_i fresh
      rw [if_pos fresh, Option.some.inj pointer]
    · rename_i started
      rw [if_neg started, ← pointer]
  unfold handleMsgLen
  simp only [assigned]
  by_cases long : 4 ≤ stream.length
  · have read : (4 : UInt32) ≤ holder.firstMsgSize + rs := by
      rcases counted with ⟨known, -⟩ | counted
      · exact known
      · rw [counted, UInt32.le_iff_toNat_le, toNat_ofNat_of_le few]
        simpa using long
    have field : ntohl host (host.decode (stream.take 4)) =
        ByteOrder.big.decode (stream.take 4) :=
      ntohl_decode host (by simp [long])
    rw [if_pos read]
    simp [firstMsgOffset, load32_start (lengthField long) long content, field, Nat.not_lt.mpr long]
  · have counted : holder.firstMsgSize + rs = UInt32.ofNat stream.length := by
      rcases counted with ⟨-, known⟩ | counted
      · exact absurd known long
      · exact counted
    have unread : ¬ (4 : UInt32) ≤ holder.firstMsgSize + rs := by
      rw [counted, UInt32.le_iff_toNat_le, toNat_ofNat_of_le few]
      simpa using long
    rw [if_neg unread]
    simp [counted, Nat.lt_of_not_le long]

/-- The holder with `stream` arrived in its queue from `start` on. -/
def withArrived (holder : RecvHolder) (queue : Block recvQueueSize) (start : Nat)
    (stream : Bytes) : RecvHolder :=
  { holder with
    recvQueue := queue
    firstMsgPtr := some start
    firstMsgSize :=
      if stream.length < 4 then UInt32.ofNat stream.length
      else ByteOrder.big.decode (stream.take 4)
    firstMsgSizeUsed := UInt32.ofNat stream.length }

/-- The counters are set to what has arrived. -/
theorem arrived_withArrived {queue : Block recvQueueSize} {start : Nat} {stream : Bytes}
    (starts : start < recvQueueSize)
    (content : circular queue.bytes start stream.length = stream) :
    Arrived (withArrived holder queue start stream) start stream :=
  ⟨rfl, starts, rfl, content, rfl⟩

/-- The `recv()` that completes a length field finds it in one piece: it does not reach around
the end of the queue. -/
def LengthFieldInside (holder : RecvHolder) (rest chunk : Bytes) : Prop :=
  rest.length < 4 → 4 ≤ (rest ++ chunk).length →
    holder.firstMsgPtr.getD holder.sizeUsed + 4 ≤ recvQueueSize

/-- While the length field is counted, `obtainChunk` handles it. -/
theorem obtainChunk_counting {queue : Block recvQueueSize} {start : Nat} {rest : Bytes}
    (written : holder.recvQueue.write holder.sizeUsed chunk = .ok queue)
    (few : (rest ++ chunk).length ≤ recvQueueSize)
    (lengthField : 4 ≤ (rest ++ chunk).length → start + 4 ≤ recvQueueSize)
    (counting : holder.firstMsgPtr = none ∨ holder.firstMsgSize < 4)
    (pointer :
      (if holder.firstMsgSize = 0 then some holder.sizeUsed else holder.firstMsgPtr) = some start)
    (size : holder.firstMsgSize = UInt32.ofNat rest.length)
    (used : holder.firstMsgSizeUsed = UInt32.ofNat rest.length)
    (content : circular queue.bytes start (rest ++ chunk).length = rest ++ chunk) :
    obtainChunk host holder chunk = .ok (withArrived holder queue start (rest ++ chunk)) := by
  have counted : holder.firstMsgSize + UInt32.ofNat chunk.length =
      UInt32.ofNat (rest ++ chunk).length := by
    simp [size]
  have handled : handleMsgLen host { holder with recvQueue := queue }
      (UInt32.ofNat chunk.length) = _ :=
    handleMsgLen_ok few lengthField pointer (Or.inr counted) content
  simp only [obtainChunk, written, ok_bind, if_pos counting, handled]
  simp [withArrived, used]

variable (host) in
/-- The bytes of one `recv()` continue the message the holder holds, or begin one. -/
theorem obtainChunk_ok {rest : Bytes} (holding : Holding holder rest) (begun : chunk ≠ [])
    (room : holder.sizeUsed + chunk.length ≤ recvQueueSize)
    (lengthField : LengthFieldInside holder rest chunk)
    (few : (rest ++ chunk).length ≤ recvQueueSize) :
    ∃ queue start,
      obtainChunk host holder chunk = .ok (withArrived holder queue start (rest ++ chunk)) ∧
      start < recvQueueSize ∧
      circular queue.bytes start (rest ++ chunk).length = rest ++ chunk ∧
      holder.sizeUsed = circularEnd recvQueueSize start rest.length := by
  obtain ⟨queue, written, filled⟩ := holder.recvQueue.write_ok holder.sizeUsed chunk room
  have queueLength : holder.recvQueue.bytes.length = recvQueueSize := holder.recvQueue.allocated
  -- What the queue holds from `start` on grows by the chunk, wherever it wraps.
  have extended : ∀ start, start < recvQueueSize →
      holder.sizeUsed = circularEnd recvQueueSize start rest.length →
      circular queue.bytes start (rest ++ chunk).length =
        circular holder.recvQueue.bytes start rest.length ++ chunk := by
    intro start field next
    have insideQueue : start < holder.recvQueue.bytes.length := by omega
    have enough : rest.length + chunk.length ≤ holder.recvQueue.bytes.length := by
      simpa [queueLength] using few
    have grown := circular_splice insideQueue enough (by rw [queueLength, ← next]; exact room)
    rwa [queueLength, ← next, ← filled, ← List.length_append] at grown
  cases holding with
  | idle pointer size used =>
      have starts : holder.sizeUsed < recvQueueSize := by
        have positive := List.length_pos_iff.mpr begun
        omega
      have here : holder.sizeUsed = circularEnd recvQueueSize holder.sizeUsed 0 := by
        simp only [circularEnd]
        split <;> omega
      have content := extended holder.sizeUsed starts here
      have field : 4 ≤ ([] ++ chunk).length → holder.sizeUsed + 4 ≤ recvQueueSize := by
        simpa [pointer] using lengthField (by simp)
      refine ⟨queue, holder.sizeUsed, ?_, starts, content, here⟩
      exact obtainChunk_counting written few field (Or.inl pointer) (by simp [size]) size used
        content
  | @message start rest begun sized arrived next =>
      have content := extended start arrived.starts next
      rw [arrived.content] at content
      refine ⟨queue, start, ?_, arrived.starts, content, next⟩
      by_cases counting : rest.length < 4
      · have count : holder.firstMsgSize = UInt32.ofNat rest.length := by
          rw [arrived.size, if_pos counting]
        have countNat : holder.firstMsgSize.toNat = rest.length := by
          rw [count, toNat_ofNat_of_le (by simp only [recvQueueSize, maxDevMsgLen]; omega)]
        have started : holder.firstMsgSize ≠ 0 := by
          intro zero
          rw [zero] at countNat
          exact begun (List.length_eq_zero_iff.mp countNat.symm)
        have below : holder.firstMsgSize < 4 := by
          rw [UInt32.lt_iff_toNat_lt, countNat]
          exact counting
        have field : 4 ≤ (rest ++ chunk).length → start + 4 ≤ recvQueueSize := by
          simpa [arrived.pointer] using lengthField counting
        exact obtainChunk_counting written few field (Or.inr below)
          (by simp [started, arrived.pointer]) count arrived.used content
      · -- The length is known and stays as it is.
        have known : holder.firstMsgSize = ByteOrder.big.decode (rest.take 4) := by
          rw [arrived.size, if_neg counting]
        have above : ¬ holder.firstMsgSize < 4 := by
          have large := sized (by omega)
          have four : (4 : UInt32).toNat = 4 := rfl
          simp only [declaredLength] at large
          rw [UInt32.lt_iff_toNat_lt, known]
          omega
        have still : ¬ (rest ++ chunk).length < 4 := by
          simp only [List.length_append]
          omega
        have field : (rest ++ chunk).take 4 = rest.take 4 :=
          List.take_append_of_le_length (by omega)
        simp only [obtainChunk, written, ok_bind, arrived.pointer, above, withArrived,
          if_neg still, field]
        simp [arrived.used, known]

end Obtaining

/-! ### A message that is complete -/

section Completing

variable {host : ByteOrder} {holder : RecvHolder} {queue : Block recvQueueSize} {start : Nat}
  {stream : Bytes}

/-- For a start inside the queue and a count of at most its size, the cast changes nothing. -/
theorem tillBufferEnd_eq {firstMsg : Nat} (starts : firstMsg ≤ recvQueueSize)
    (few : holder.firstMsgSizeUsed.toNat ≤ recvQueueSize) :
    tillBufferEnd holder firstMsg =
      (recvQueueSize : Int) - firstMsg - holder.firstMsgSizeUsed.toNat := by
  simp only [recvQueueSize, maxDevMsgLen] at starts few
  simp only [tillBufferEnd, recvQueueSize, maxDevMsgLen, Int.bmod]
  split <;> omega

/-- A length that is not negative is copied as it is. -/
theorem memcpyLen_natCast (count : Nat) : memcpyLen (count : Int) = .ok count := by
  simp [memcpyLen]

/-- The copy in one piece. -/
theorem copyFirstMsg_direct {size : Nat} (buffer : Block maxMsgLen)
    (pointer : holder.firstMsgPtr = some start) (firstMsgSize : holder.firstMsgSize.toNat = size)
    (ahead : 0 < tillBufferEnd holder start) (fits : size ≤ maxMsgLen)
    (inside : start + size ≤ recvQueueSize) :
    ∃ copied, copyFirstMsg holder buffer = .ok copied ∧
      copied.bytes.take size = slice holder.recvQueue.bytes start size := by
  have message : (slice holder.recvQueue.bytes start size).length = size :=
    length_slice (by rw [holder.recvQueue.allocated]; exact inside)
  obtain ⟨copied, written, filled⟩ :=
    buffer.write_ok 0 (slice holder.recvQueue.bytes start size) (by omega)
  refine ⟨copied, ?_, ?_⟩
  · simp only [copyFirstMsg, firstMsgOffset, pointer, ok_bind, firstMsgSize,
      if_neg (Int.not_le.mpr ahead), Block.read_ok _ inside, written]
  · simp [filled, splice, message]

/-- The copy in two pieces, the second of `wrapped` bytes from the start of the queue. -/
theorem copyFirstMsg_around {size wrapped : Nat} (buffer : Block maxMsgLen)
    (pointer : holder.firstMsgPtr = some start) (firstMsgSize : holder.firstMsgSize.toNat = size)
    (past : tillBufferEnd holder start = -(wrapped : Int)) (part : wrapped ≤ size)
    (fits : size ≤ maxMsgLen) (inside : start + (size - wrapped) ≤ recvQueueSize) :
    ∃ copied, copyFirstMsg holder buffer = .ok copied ∧
      copied.bytes.take size =
        slice holder.recvQueue.bytes start (size - wrapped) ++
          slice holder.recvQueue.bytes 0 wrapped := by
  have overInside : 0 + wrapped ≤ recvQueueSize := by
    simp only [recvQueueSize, maxDevMsgLen, maxMsgLen] at fits ⊢
    omega
  have firstLength : (slice holder.recvQueue.bytes start (size - wrapped)).length = size - wrapped :=
    length_slice (by rw [holder.recvQueue.allocated]; exact inside)
  have secondLength : (slice holder.recvQueue.bytes 0 wrapped).length = wrapped :=
    length_slice (by rw [holder.recvQueue.allocated]; exact overInside)
  obtain ⟨half, writtenFirst, filledFirst⟩ :=
    buffer.write_ok 0 (slice holder.recvQueue.bytes start (size - wrapped)) (by omega)
  obtain ⟨copied, writtenSecond, filledSecond⟩ :=
    half.write_ok (size - wrapped) (slice holder.recvQueue.bytes 0 wrapped) (by omega)
  have untilEnd : (size : Int) + -(wrapped : Int) = ((size - wrapped : Nat) : Int) := by omega
  have notAhead : -(wrapped : Int) ≤ 0 := by omega
  refine ⟨copied, ?_, ?_⟩
  · simp only [copyFirstMsg, firstMsgOffset, pointer, ok_bind, firstMsgSize, past, if_pos notAhead,
      untilEnd, Int.neg_neg, memcpyLen_natCast, Block.read_ok _ inside,
      Block.read_ok _ overInside, writtenFirst, writtenSecond]
  · have both : (slice holder.recvQueue.bytes start (size - wrapped) ++
        slice holder.recvQueue.bytes 0 wrapped).length = size := by
      rw [List.length_append]
      omega
    have frontKept : half.bytes.take (size - wrapped) =
        slice holder.recvQueue.bytes start (size - wrapped) := by
      rw [filledFirst]
      simp [splice, firstLength]
    rw [filledSecond, splice, frontKept]
    exact List.take_left' both

/-- The copy of a message that has arrived, and behind which nothing else has arrived past the
end of the queue. -/
theorem copyFirstMsg_ok {size : Nat} (buffer : Block maxMsgLen)
    (pointer : holder.firstMsgPtr = some start) (firstMsgSize : holder.firstMsgSize.toNat = size)
    (starts : start ≤ recvQueueSize) (fits : size ≤ maxMsgLen)
    (arrived : holder.firstMsgSizeUsed.toNat = size ∨
      size ≤ holder.firstMsgSizeUsed.toNat ∧
        start + holder.firstMsgSizeUsed.toNat ≤ recvQueueSize) :
    ∃ copied, copyFirstMsg holder buffer = .ok copied ∧
      copied.bytes.take size = circular holder.recvQueue.bytes start size := by
  have queueLength : holder.recvQueue.bytes.length = recvQueueSize := holder.recvQueue.allocated
  have few : holder.firstMsgSizeUsed.toNat ≤ recvQueueSize := by
    simp only [recvQueueSize, maxDevMsgLen, maxMsgLen] at fits arrived ⊢
    omega
  have till := tillBufferEnd_eq starts few
  by_cases ahead : 0 < tillBufferEnd holder start
  · have inside : start + size ≤ recvQueueSize := by omega
    obtain ⟨copied, ran, holds⟩ := copyFirstMsg_direct buffer pointer firstMsgSize ahead fits inside
    exact ⟨copied, ran, by rw [holds, circular_inside (by omega)]⟩
  · obtain ⟨wrapped, past⟩ : ∃ wrapped : Nat, tillBufferEnd holder start = -(wrapped : Int) :=
      ⟨(-tillBufferEnd holder start).toNat, by omega⟩
    have part : wrapped ≤ size := by omega
    obtain ⟨copied, ran, holds⟩ :=
      copyFirstMsg_around buffer pointer firstMsgSize past part fits (by omega)
    refine ⟨copied, ran, ?_⟩
    rw [holds]
    rcases Nat.eq_zero_or_pos wrapped with rfl | wraps
    · rw [circular_inside (by omega)]
      simp
    · have firstPart : recvQueueSize - start = size - wrapped := by omega
      have secondPart : start + size - recvQueueSize = wrapped := by omega
      rw [circular_overlap (by omega) (by omega), queueLength, firstPart, secondPart]

end Completing

/-! ### `handleMsgData` -/

/-- The frame at the front of the process buffer. -/
def frameIn (processBuf : Block maxMsgLen) : Bytes :=
  processBuf.bytes.take (declaredLength processBuf.bytes)

/-- A callback that records the frame it is given and leaves anything in the buffer. -/
def recordFrame (leaves : Block maxMsgLen → Block maxMsgLen) :
    ProcessingCallback (List Bytes) :=
  fun processBuf frames => .ok (leaves processBuf, frames ++ [frameIn processBuf])

/-- A buffer that begins with a frame holds that frame. -/
theorem frameIn_of_take {processBuf : Block maxMsgLen} {frame : Bytes}
    (isFrame : messageFraming.IsFrame frame)
    (holds : processBuf.bytes.take frame.length = frame) : frameIn processBuf = frame := by
  obtain ⟨long, declares⟩ := isFrame_iff.mp isFrame
  have field : (processBuf.bytes.take frame.length).take 4 = processBuf.bytes.take 4 := by
    rw [List.take_take, Nat.min_eq_left (by omega)]
  have same : declaredLength processBuf.bytes = frame.length := by
    rw [← declares, declaredLength, declaredLength, ← field, holds]
  rw [frameIn, same, holds]

/-- The holder between two messages. -/
def betweenMessages (holder : RecvHolder) : RecvHolder :=
  { holder with firstMsgPtr := none, firstMsgSize := 0, firstMsgSizeUsed := 0 }

section Handling

variable {σ : Type} {host : ByteOrder} {callback : ProcessingCallback σ} {holder : RecvHolder}
  {start : Nat} {stream : Bytes} {fuel rs : Nat} {processBuf : Block maxMsgLen} {state : σ}

/-- The size that the holder has read is the declared one. -/
theorem Arrived.firstMsgSize_toNat (arrived : Arrived holder start stream)
    (long : 4 ≤ stream.length) : holder.firstMsgSize.toNat = declaredLength stream := by
  rw [arrived.size, if_neg (by omega)]
  rfl

/-- The counter of the first message is the number of bytes that have arrived. -/
theorem Arrived.firstMsgSizeUsed_toNat (arrived : Arrived holder start stream)
    (few : stream.length ≤ recvQueueSize) :
    holder.firstMsgSizeUsed.toNat = stream.length := by
  rw [arrived.used, toNat_ofNat_of_le few]

/-- Nothing is delivered while the message is incomplete. -/
theorem handleMsgData_waiting (arrived : Arrived holder start stream)
    (few : stream.length ≤ recvQueueSize)
    (short : 4 ≤ stream.length → stream.length < declaredLength stream) :
    handleMsgData host callback (fuel + 1) holder rs processBuf state =
      .ok
        { recvMessagesCount := 0
          holder := circulateBuffer holder rs
          processMsgBuffer := processBuf
          state := state } := by
  have incomplete : ¬ (holder.firstMsgSize ≤ holder.firstMsgSizeUsed ∧
      4 < holder.firstMsgSize) := by
    have four : (4 : UInt32).toNat = 4 := rfl
    rw [UInt32.le_iff_toNat_le, UInt32.lt_iff_toNat_lt, arrived.firstMsgSizeUsed_toNat few, four]
    by_cases long : 4 ≤ stream.length
    · have more := short long
      rw [arrived.firstMsgSize_toNat long]
      omega
    · rw [arrived.size, if_pos (by omega), toNat_ofNat_of_le few]
      omega
  rw [handleMsgData, if_neg incomplete]
  rfl

variable (host) (callback) (fuel rs : Nat) (processBuf : Block maxMsgLen) (state : σ)

/-- A message that is complete, with nothing behind it, is copied and handed over once. -/
theorem handleMsgData_complete {size : Nat} (pointer : holder.firstMsgPtr = some start)
    (starts : start ≤ recvQueueSize) (firstMsgSize : holder.firstMsgSize.toNat = size)
    (used : holder.firstMsgSizeUsed.toNat = size) (long : 4 < size) (fits : size ≤ maxMsgLen) :
    ∃ copied : Block maxMsgLen,
      copied.bytes.take size = circular holder.recvQueue.bytes start size ∧
      handleMsgData host callback (fuel + 1) holder rs processBuf state =
        (callback copied state >>= fun handed =>
          .ok
            { recvMessagesCount := 1
              holder := circulateBuffer (betweenMessages holder) rs
              processMsgBuffer := handed.1
              state := handed.2 }) := by
  have complete : holder.firstMsgSize ≤ holder.firstMsgSizeUsed ∧ 4 < holder.firstMsgSize := by
    rw [UInt32.le_iff_toNat_le, UInt32.lt_iff_toNat_lt, firstMsgSize, used]
    exact ⟨Nat.le_refl _, long⟩
  have nothingMore : ¬ holder.firstMsgSize < holder.firstMsgSizeUsed := by
    rw [UInt32.lt_iff_toNat_lt, firstMsgSize, used]
    exact Nat.lt_irrefl _
  obtain ⟨copied, ran, holds⟩ :=
    copyFirstMsg_ok processBuf pointer firstMsgSize starts fits (Or.inl used)
  refine ⟨copied, holds, ?_⟩
  rw [handleMsgData, if_pos complete, ran, ok_bind]
  refine bind_congr fun handed => ?_
  simp [nothingMore, betweenMessages]

/-- A whole message that has arrived is handed over. -/
theorem handleMsgData_whole (arrived : Arrived holder start stream)
    (isFrame : messageFraming.IsFrame stream)
    (fits : stream.length ≤ maxMsgLen) :
    ∃ copied : Block maxMsgLen, stream <+: copied.bytes ∧
      handleMsgData host callback (fuel + 1) holder rs processBuf state =
        (callback copied state >>= fun handed =>
          .ok
            { recvMessagesCount := 1
              holder := circulateBuffer (betweenMessages holder) rs
              processMsgBuffer := handed.1
              state := handed.2 }) := by
  obtain ⟨long, declares⟩ := isFrame_iff.mp isFrame
  have few : stream.length ≤ recvQueueSize := by
    simp only [recvQueueSize, maxDevMsgLen, maxMsgLen] at fits ⊢
    omega
  have size : holder.firstMsgSize.toNat = stream.length := by
    rw [arrived.firstMsgSize_toNat (by omega), declares]
  obtain ⟨copied, holds, ran⟩ := handleMsgData_complete host callback fuel rs processBuf state
    arrived.pointer (Nat.le_of_lt arrived.starts) size (arrived.firstMsgSizeUsed_toNat few) long
    fits
  rw [arrived.content] at holds
  exact ⟨copied, List.prefix_iff_eq_take.mpr holds.symm, ran⟩

/-- The queue behind the first of two messages that lie in it without a wrap. -/
theorem circular_second {queue first second : Bytes}
    (inside : start + (first ++ second).length ≤ queue.length)
    (content : circular queue start (first ++ second).length = first ++ second) :
    circular queue (start + first.length) second.length = second := by
  rw [List.length_append] at inside
  have dropped : (slice queue start (first ++ second).length).drop first.length = second := by
    rw [← circular_inside (by rw [List.length_append]; exact inside), content, List.drop_left]
  have width : first.length + second.length - first.length = second.length := by omega
  rw [circular_inside (by omega), slice]
  rwa [slice, List.drop_take, List.drop_drop, List.length_append, width] at dropped

/-- The holder when the second of two messages that arrived in one `recv()` is handled. -/
def secondMessage (holder : RecvHolder) (rs : Nat) (first second : Bytes) : RecvHolder :=
  withArrived (circulateBuffer holder rs) holder.recvQueue (holder.sizeUsed + first.length) second

/-- A message with the beginning of another one behind it, both arrived in one `recv()` that
began the first: it is handed over, the queue is circulated, and the rest is handled as a
message of its own. -/
theorem handleMsgData_first {first second : Bytes}
    (arrived : Arrived holder start (first ++ second)) (here : holder.sizeUsed = start)
    (isFirst : messageFraming.IsFrame first) (firstFits : first.length ≤ maxMsgLen)
    (field : 4 ≤ second.length)
    (inside : start + (first ++ second).length ≤ recvQueueSize) :
    ∃ copied : Block maxMsgLen, first <+: copied.bytes ∧
      handleMsgData host callback (fuel + 2) holder rs processBuf state =
          (callback copied state >>= fun handed =>
            handleMsgData host callback (fuel + 1) (secondMessage holder rs first second) rs
              handed.1 handed.2 >>= fun handled =>
            .ok { handled with recvMessagesCount := handled.recvMessagesCount + 1 }) ∧
        Arrived (secondMessage holder rs first second) (start + first.length) second := by
  subst here
  obtain ⟨firstLong, firstDeclares⟩ := isFrame_iff.mp isFirst
  have queueLength : holder.recvQueue.bytes.length = recvQueueSize := holder.recvQueue.allocated
  have total : (first ++ second).length = first.length + second.length := List.length_append
  have size : holder.firstMsgSize.toNat = first.length := by
    rw [arrived.firstMsgSize_toNat (by omega), declaredLength_append (by omega), firstDeclares]
  have used := arrived.firstMsgSizeUsed_toNat (by omega)
  have complete : holder.firstMsgSize ≤ holder.firstMsgSizeUsed ∧ 4 < holder.firstMsgSize := by
    have four : (4 : UInt32).toNat = 4 := rfl
    rw [UInt32.le_iff_toNat_le, UInt32.lt_iff_toNat_lt, size, used]
    omega
  have more : holder.firstMsgSize < holder.firstMsgSizeUsed := by
    rw [UInt32.lt_iff_toNat_lt, size, used]
    omega
  have remaining : holder.firstMsgSizeUsed - holder.firstMsgSize =
      UInt32.ofNat second.length := by
    have sizeOf : holder.firstMsgSize = UInt32.ofNat first.length := by
      rw [← size, UInt32.ofNat_toNat]
    rw [arrived.used, sizeOf, total, UInt32.ofNat_add, UInt32.add_comm, UInt32.add_sub_cancel]
  obtain ⟨copied, ran, holds⟩ := copyFirstMsg_ok processBuf arrived.pointer size (by omega)
    firstFits (Or.inr ⟨by omega, by omega⟩)
  have firstCopied : copied.bytes.take first.length = first := by
    have fewer : first.length ≤ (first ++ second).length := by omega
    rw [holds, ← take_circular fewer, arrived.content, List.take_left]
  have secondContent := circular_second (by omega) arrived.content
  -- The marker 5 makes `handleMsgLen` read the length field at the pointer it finds.
  have counted : (4 : UInt32) ≤ 5 + UInt32.ofNat second.length := by
    rw [UInt32.le_iff_toNat_le, UInt32.toNat_add, toNat_ofNat_of_le (by omega)]
    change 4 ≤ (5 + second.length) % 4294967296
    simp only [recvQueueSize, maxDevMsgLen] at inside
    omega
  let reached : RecvHolder := circulateBuffer
    { holder with
      firstMsgPtr := some (holder.sizeUsed + first.length)
      firstMsgSizeUsed := UInt32.ofNat second.length
      firstMsgSize := 5 } rs
  have headerHandled : handleMsgLen host reached (UInt32.ofNat second.length) =
      .ok (secondMessage holder rs first second) :=
    handleMsgLen_ok (by omega) (by omega) rfl (Or.inl ⟨counted, field⟩) secondContent
  refine ⟨copied, List.prefix_iff_eq_take.mpr firstCopied.symm, ?_,
    arrived_withArrived (by omega) secondContent⟩
  rw [handleMsgData, if_pos complete, ran, ok_bind]
  refine bind_congr fun handed => ?_
  simp only [if_pos more, remaining, size]
  change (handleMsgLen host reached (UInt32.ofNat second.length) >>= fun holder =>
    handleMsgData host callback (fuel + 1) holder rs handed.1 handed.2 >>= fun handled => _) = _
  rw [headerHandled, ok_bind]
  rfl

end Handling

/-! ### One `recv()` -/

/-- The bytes of one `recv()` end inside the message they belong to or at its end, or they are
two whole messages and the holder was between messages. -/
def OnBoundary (rest chunk : Bytes) : Prop :=
  (rest ++ chunk).length < 4 ∨
    (∃ size, messageFraming.declared (rest ++ chunk) = some size ∧ size ≤ maxMsgLen ∧
      (rest ++ chunk).length ≤ size) ∨
    (rest = [] ∧ ∃ first second, chunk = first ++ second ∧
      messageFraming.IsFrame first ∧ first.length ≤ maxMsgLen ∧
      messageFraming.IsFrame second ∧ second.length ≤ maxMsgLen)

instance (holder : RecvHolder) (rest chunk : Bytes) :
    Decidable (LengthFieldInside holder rest chunk) :=
  inferInstanceAs (Decidable (_ → _ → _))

instance (frame : Bytes) : Decidable (messageFraming.IsFrame frame) :=
  inferInstanceAs (Decidable (_ = _))

/-- The cut between two messages is one of the finitely many places in the chunk. -/
theorem onBoundary_iff {rest chunk : Bytes} :
    OnBoundary rest chunk ↔
      (rest ++ chunk).length < 4 ∨
        (messageFraming.declared (rest ++ chunk)).any (fun size =>
          size ≤ maxMsgLen ∧ (rest ++ chunk).length ≤ size) ∨
        (rest = [] ∧ ∃ cut < chunk.length + 1,
          messageFraming.IsFrame (chunk.take cut) ∧ (chunk.take cut).length ≤ maxMsgLen ∧
            messageFraming.IsFrame (chunk.drop cut) ∧ (chunk.drop cut).length ≤ maxMsgLen) := by
  refine or_congr_right (or_congr ?_ (and_congr_right fun _ => ?_))
  · rw [Option.any_eq_true]
    simp
  · constructor
    · rintro ⟨first, second, rfl, isFirst, firstFits, isSecond, secondFits⟩
      refine ⟨first.length, ?_, ?_⟩
      · simp only [List.length_append]
        omega
      · simpa using ⟨isFirst, firstFits, isSecond, secondFits⟩
    · rintro ⟨cut, -, both⟩
      exact ⟨chunk.take cut, chunk.drop cut, (List.take_append_drop cut chunk).symm, both⟩

instance (rest chunk : Bytes) : Decidable (OnBoundary rest chunk) :=
  decidable_of_iff' _ onBoundary_iff

/-- After a message the buffer goes on behind what is left of the chunk. -/
theorem circulateBuffer_next {holder : RecvHolder} {start rs : Nat} {rest : Bytes}
    (starts : start < recvQueueSize) (few : rest.length + rs ≤ recvQueueSize)
    (next : holder.sizeUsed = circularEnd recvQueueSize start rest.length)
    (room : holder.sizeUsed + rs ≤ recvQueueSize) :
    (circulateBuffer holder rs).sizeUsed =
      circularEnd recvQueueSize start (rest.length + rs) := by
  simp only [circulateBuffer, circularEnd] at next ⊢
  split at next <;> split <;> split <;> omega

/-- Between two messages a holder holds nothing. -/
theorem holding_betweenMessages (holder : RecvHolder) (rs : Nat) :
    Holding (circulateBuffer (betweenMessages holder) rs) [] :=
  .idle rfl rfl rfl

section Receiving

variable {σ : Type} {callback : ProcessingCallback σ} {excused : Prop}
  {follows : List Bytes → σ → Prop} {log : List Bytes} {state : σ} {holder : RecvHolder}
  {rest chunk : Bytes}

/-- The callback goes on with a frame. `follows` relates the frames that it has been called with
to its state. -/
def Takes (callback : ProcessingCallback σ) (excused : Prop) (follows : List Bytes → σ → Prop)
    (log : List Bytes) (frame : Bytes) : Prop :=
  ∀ processBuf state, messageFraming.IsFrame frame → frame <+: processBuf.bytes →
    follows log state →
    EndsIn excused (callback processBuf state) fun handed => follows (log ++ [frame]) handed.2

/-- What a `recv()` leaves when the callback has been called with the messages it completes. -/
structure Reassembled (follows : List Bytes → σ → Prop) (log : List Bytes) (stream : Bytes)
    (handled : Handled σ) : Prop where
  holding : Holding handled.holder (messageFraming.split stream).2
  counted : handled.recvMessagesCount = (messageFraming.split stream).1.length
  follows : follows (log ++ (messageFraming.split stream).1) handled.state

/-- The recording callback takes every frame and logs it. -/
theorem takes_recordFrame (leaves : Block maxMsgLen → Block maxMsgLen) (start log : List Bytes)
    (frame : Bytes) :
    Takes (recordFrame leaves) False (fun log state => state = start ++ log) log frame := by
  rintro processBuf state isFrame held rfl
  rw [recordFrame, endsIn_ok, frameIn_of_take isFrame (List.prefix_iff_eq_take.mp held).symm,
    List.append_assoc]

/-- The step lemma: a `recv()` on a boundary hands over the messages it completes, and the
holder holds what is left. -/
theorem recvChunk_ends (host : ByteOrder) (processBuf : Block maxMsgLen)
    (takes : ∀ earlier frame, earlier ++ [frame] <+: (messageFraming.split (rest ++ chunk)).1 →
      Takes callback excused follows (log ++ earlier) frame)
    (followed : follows log state) (holding : Holding holder rest)
    (begun : chunk ≠ []) (room : holder.sizeUsed + chunk.length ≤ recvQueueSize)
    (lengthField : LengthFieldInside holder rest chunk) (boundary : OnBoundary rest chunk) :
    EndsIn excused (recvChunk host callback holder chunk processBuf state)
      (Reassembled follows log (rest ++ chunk)) := by
  have some : rest ++ chunk ≠ [] := by simp [begun]
  have total : (rest ++ chunk).length = rest.length + chunk.length := List.length_append
  have few : (rest ++ chunk).length ≤ recvQueueSize := by
    rcases boundary with short | ⟨size, -, fits, short⟩ | ⟨empty, -⟩
    · simp only [recvQueueSize, maxDevMsgLen]
      omega
    · simp only [recvQueueSize, maxDevMsgLen, maxMsgLen] at fits ⊢
      omega
    · simp only [empty, List.nil_append]
      omega
  obtain ⟨queue, start, obtained, field, content, next⟩ :=
    obtainChunk_ok host holding begun room lengthField few
  have arrived : Arrived (withArrived holder queue start (rest ++ chunk)) start (rest ++ chunk) :=
    arrived_withArrived field content
  have stays : (withArrived holder queue start (rest ++ chunk)).sizeUsed = holder.sizeUsed := rfl
  simp only [recvChunk, obtained, ok_bind]
  -- While the message is incomplete the queue grows and nothing is handed over.
  have waiting (sized : 4 ≤ (rest ++ chunk).length → 4 < declaredLength (rest ++ chunk))
      (short : 4 ≤ (rest ++ chunk).length →
        (rest ++ chunk).length < declaredLength (rest ++ chunk))
      (incomplete : messageFraming.Incomplete (rest ++ chunk)) :
      EndsIn excused
        (handleMsgData host callback
          ((withArrived holder queue start (rest ++ chunk)).firstMsgSizeUsed.toNat + 1)
          (withArrived holder queue start (rest ++ chunk)) chunk.length processBuf state)
        (Reassembled follows log (rest ++ chunk)) := by
    have cut := Framing.split_of_incomplete incomplete
    rw [handleMsgData_waiting arrived few short, endsIn_ok]
    refine ⟨?_, by rw [cut]; rfl, by rw [cut, List.append_nil]; exact followed⟩
    rw [cut]
    refine .message some sized ⟨rfl, field, rfl, content, rfl⟩ ?_
    rw [total]
    exact circulateBuffer_next (by omega) (by omega) next room
  rcases boundary with short | ⟨size, declares, fits, short⟩ |
    ⟨empty, first, second, rfl, isFirst, firstFits, isSecond, secondFits⟩
  · refine waiting (by omega) (by omega) fun size declares => ?_
    have long := (declared_eq_some.mp declares).1
    omega
  · obtain ⟨long, large, known⟩ := declared_eq_some.mp declares
    by_cases complete : (rest ++ chunk).length = size
    · have isFrame : messageFraming.IsFrame (rest ++ chunk) := by
        rw [Framing.IsFrame, declares, complete]
      have cut := Framing.split_single isFrame
      obtain ⟨copied, held, ran⟩ := handleMsgData_whole host callback
        (withArrived holder queue start (rest ++ chunk)).firstMsgSizeUsed.toNat chunk.length
        processBuf state arrived isFrame (by omega)
      have taken := takes [] (rest ++ chunk) (by rw [cut]; exact List.prefix_refl _) copied state
        isFrame held (by rw [List.append_nil]; exact followed)
      rw [ran]
      refine taken.bind fun handed _ after => ?_
      rw [List.append_nil] at after
      exact ⟨by rw [cut]; exact holding_betweenMessages _ _, by rw [cut]; rfl,
        by rw [cut]; exact after⟩
    · refine waiting (by omega) (by omega) fun other declaresOther => ?_
      rw [declares] at declaresOther
      obtain rfl := Option.some.inj declaresOther
      omega
  · subst empty
    simp only [List.nil_append] at arrived few takes ⊢
    have here : holder.sizeUsed = start := by
      simp only [circularEnd, List.length_nil] at next
      split at next <;> omega
    obtain ⟨secondLong, -⟩ := isFrame_iff.mp isSecond
    have both : (first ++ second).length = first.length + second.length := List.length_append
    obtain ⟨fuel, received⟩ : ∃ fuel,
        (withArrived holder queue start (first ++ second)).firstMsgSizeUsed.toNat = fuel + 1 :=
      ⟨(first ++ second).length - 1, by
        rw [arrived.firstMsgSizeUsed_toNat few]
        omega⟩
    have cut : messageFraming.split (first ++ second) = ([first, second], []) := by
      rw [Framing.split_frame isFirst, Framing.split_single isSecond]
    obtain ⟨copied, held, ran, secondArrived⟩ := handleMsgData_first host callback fuel
      (first ++ second).length processBuf state arrived here isFirst firstFits (by omega)
      (by omega)
    have taken := takes [] first (by rw [cut]; exact ⟨[second], rfl⟩) copied state isFirst held
      (by rw [List.append_nil]; exact followed)
    rw [received, ran]
    refine taken.bind fun handed _ after => ?_
    rw [List.append_nil] at after
    obtain ⟨copiedSecond, heldSecond, ranSecond⟩ := handleMsgData_whole host callback fuel
      (first ++ second).length handed.1 handed.2 secondArrived isSecond secondFits
    have takenSecond := takes [first] second (by rw [cut]; exact List.prefix_refl _) copiedSecond
      handed.2 isSecond heldSecond after
    rw [ranSecond, bind_assoc]
    refine takenSecond.bind fun last _ afterBoth => ?_
    rw [List.append_assoc] at afterBoth
    exact ⟨by rw [cut]; exact .idle rfl rfl rfl, by rw [cut]; rfl, by rw [cut]; exact afterBoth⟩

/-- A callback that records its frames has then recorded the messages that are complete. -/
theorem recvChunk_ok (host : ByteOrder) (leaves : Block maxMsgLen → Block maxMsgLen)
    (processBuf : Block maxMsgLen) (log : List Bytes) (holding : Holding holder rest)
    (begun : chunk ≠ []) (room : holder.sizeUsed + chunk.length ≤ recvQueueSize)
    (lengthField : LengthFieldInside holder rest chunk) (boundary : OnBoundary rest chunk) :
    ∃ handled,
      recvChunk host (recordFrame leaves) holder chunk processBuf log = .ok handled ∧
      Holding handled.holder (messageFraming.split (rest ++ chunk)).2 ∧
      handled.state = log ++ (messageFraming.split (rest ++ chunk)).1 := by
  have ends := recvChunk_ends host processBuf
    (fun earlier frame _ => takes_recordFrame leaves log ([] ++ earlier) frame)
    (List.append_nil log).symm holding begun room lengthField boundary
  obtain ⟨handled, ran, delivers⟩ := endsIn_false.mp ends
  exact ⟨handled, ran, delivers.holding, delivers.follows⟩

end Receiving

end RentMate.Reassembly
