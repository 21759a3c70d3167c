/-
Module: RentMate.Proofs.StreamIndependence
Purpose: Runs of `recvAll` on the holder of one socket: what the callback has received after
  any number of `recv()` calls depends on the bytes of the stream only, as long as every
  `recv()` ends on a boundary.
Trusted boundary: none
Main exports: receive, recvAllRepeatedly, recvAllRepeatedly_delivers_frames
-/
import RentMate.Proofs.Reassembly

namespace RentMate.StreamIndependence

open RentMate.Machine
open RentMate.PckData
open RentMate.Reassembly

/-! ### Calls of `recvAll` and the `recv()` calls inside them -/

section Calls

variable {σ : Type} (host : ByteOrder) (callback : ProcessingCallback σ)

/-- One `recv()` on the holder of a socket. -/
def receive (reached : Handled σ) (chunk : Bytes) : Checked (Handled σ) :=
  recvChunk host callback reached.holder chunk reached.processMsgBuffer reached.state

/-- A new holder, before the first `recv()`. -/
def fresh (malloced : Block recvQueueSize) (socket : Int) (processBuf : Block maxMsgLen)
    (state : σ) : Handled σ :=
  { recvMessagesCount := 0
    holder := initRecvHolder malloced socket
    processMsgBuffer := processBuf
    state := state }

/-- A number of calls of `recvAll` on one socket, each going on where the one before stopped
reading. -/
def recvAllRepeatedly (malloced : Block recvQueueSize) (socket : Int) :
    Nat → RecvAllOutcome σ → Checked (RecvAllOutcome σ)
  | 0, outcome => .ok outcome
  | calls + 1, outcome => do
      let next ← recvAll host callback malloced outcome.recvHolders socket outcome.unread
        outcome.processBuf outcome.state
      recvAllRepeatedly malloced socket calls next

variable {host callback} {malloced : Block recvQueueSize} {socket : Int}

/-- What `handleMsgLen` changes, with the word that it reads where the length is complete. -/
theorem handleMsgLen_changes {holder handled : RecvHolder} {rs : UInt32}
    (ran : handleMsgLen host holder rs = .ok handled) :
    ∃ word, handled =
      { holder with
        firstMsgPtr :=
          if holder.firstMsgSize = 0 then some holder.sizeUsed else holder.firstMsgPtr
        firstMsgSize :=
          if 4 ≤ holder.firstMsgSize + rs then word else holder.firstMsgSize + rs } := by
  have assigned :
      (if holder.firstMsgSize = 0 then { holder with firstMsgPtr := some holder.sizeUsed }
        else holder) =
        { holder with
          firstMsgPtr :=
            if holder.firstMsgSize = 0 then some holder.sizeUsed else holder.firstMsgPtr } := by
    split
    · rfl
    · rfl
  simp only [handleMsgLen, assigned] at ran
  split at ran
  · rename_i wholeLength
    obtain ⟨offset, -, ran⟩ := bind_eq_ok.mp ran
    obtain ⟨word, -, ran⟩ := bind_eq_ok.mp ran
    refine ⟨ntohl host word, ?_⟩
    rw [← Except.ok.inj ran, if_pos wholeLength]
  · rename_i partLength
    refine ⟨0, ?_⟩
    rw [← Except.ok.inj ran, if_neg partLength]

/-- Reading the length field does not touch the socket of a holder. -/
theorem handleMsgLen_socket {holder handled : RecvHolder} {rs : UInt32}
    (ran : handleMsgLen host holder rs = .ok handled) : handled.socket = holder.socket := by
  obtain ⟨_, rfl⟩ := handleMsgLen_changes ran
  rfl

/-- A chunk does not touch the socket of a holder. -/
theorem handleMsgData_socket {fuel rs : Nat} {holder : RecvHolder}
    {processBuf : Block maxMsgLen} {state : σ} {handled : Handled σ}
    (ran : handleMsgData host callback fuel holder rs processBuf state = .ok handled) :
    handled.holder.socket = holder.socket := by
  induction fuel generalizing holder processBuf state handled with
  | zero => simp [handleMsgData] at ran
  | succ fuel ih =>
      rw [handleMsgData] at ran
      split at ran
      · simp only [bind_eq_ok] at ran
        obtain ⟨copied, -, ⟨buffer, called⟩, -, ran⟩ := ran
        simp only [] at ran
        split at ran
        · simp only [bind_eq_ok, pure_eq_ok, Except.ok.injEq] at ran
          obtain ⟨second, lengthHandled, deeper, ranDeeper, rfl⟩ := ran
          have same := handleMsgLen_socket lengthHandled
          exact (ih ranDeeper).trans same
        · obtain rfl := Except.ok.inj ran
          rfl
      · obtain rfl := Except.ok.inj ran
        rfl

/-- No `recv()` changes the socket of the holder it is read into. -/
theorem recvChunk_socket {holder : RecvHolder} {chunk : Bytes} {processBuf : Block maxMsgLen}
    {state : σ} {handled : Handled σ}
    (ran : recvChunk host callback holder chunk processBuf state = .ok handled) :
    handled.holder.socket = holder.socket := by
  simp only [recvChunk, bind_eq_ok] at ran
  obtain ⟨obtained, chunkObtained, ran⟩ := ran
  rw [handleMsgData_socket ran]
  simp only [obtainChunk, bind_eq_ok] at chunkObtained
  obtain ⟨queue, -, chunkObtained⟩ := chunkObtained
  split at chunkObtained
  · simp only [bind_eq_ok, pure_eq_ok, Except.ok.injEq] at chunkObtained
    obtain ⟨counted, lengthHandled, rfl⟩ := chunkObtained
    have same := handleMsgLen_socket lengthHandled
    exact same
  · obtain rfl := Except.ok.inj chunkObtained
    rfl

/-- The only holder is used again for its own socket. -/
theorem holderToUse_single {holder : RecvHolder} (own : holder.socket = socket) :
    holderToUse malloced [holder] socket = ([holder], 0) := by
  simp [holderToUse, findRecvHolder, own]

/-- Calls with nothing to read change nothing. -/
theorem recvAllRepeatedly_idle {holder : RecvHolder} (own : holder.socket = socket)
    (calls : Nat) (outcome : RecvAllOutcome σ) (table : outcome.recvHolders = [holder])
    (nothing : outcome.unread = []) :
    ∃ last, recvAllRepeatedly host callback malloced socket calls outcome = .ok last ∧
      last.unread = [] ∧ last.recvHolders = [holder] ∧ last.state = outcome.state := by
  induction calls generalizing outcome with
  | zero => exact ⟨outcome, rfl, nothing, table, rfl⟩
  | succ calls ih =>
      simp only [recvAllRepeatedly, recvAll, table, nothing, holderToUse_single own, recvLoop,
        ok_bind]
      exact ih _ rfl rfl

/-- The calls read the stream chunk by chunk: however the code groups the `recv()` calls into
calls of `recvAll`, the holder and the callback see the run of `receive`. -/
theorem recvLoop_then_calls {chunks : List Bytes} {reached final : Handled σ}
    (own : reached.holder.socket = socket)
    (ran : runFrom (receive host callback) reached chunks = .ok final) {calls : Nat}
    (enough : chunks.length ≤ calls) :
    ∃ last,
      (recvLoop host callback 0 (chunks.map RecvResult.bytes) [reached.holder]
          reached.processMsgBuffer reached.state >>= fun outcome =>
        recvAllRepeatedly host callback malloced socket calls outcome) = .ok last ∧
      last.unread = [] ∧ last.recvHolders = [final.holder] ∧ last.state = final.state := by
  induction chunks generalizing reached calls with
  | nil =>
      obtain rfl := Except.ok.inj ran
      simp only [List.map_nil, recvLoop, ok_bind]
      obtain ⟨last, idle, nothing, table, same⟩ := recvAllRepeatedly_idle own calls
        { returnValue := -1, unread := [], recvHolders := [reached.holder],
          processBuf := reached.processMsgBuffer, state := reached.state } rfl rfl
      exact ⟨last, idle, nothing, table, same⟩
  | cons chunk chunks ih =>
      rw [runFrom_cons] at ran
      obtain ⟨handled, stepped, ran⟩ := bind_eq_ok.mp ran
      have ownHandled : handled.holder.socket = socket := (recvChunk_socket stepped).trans own
      have stepped' : recvChunk host callback reached.holder chunk reached.processMsgBuffer
          reached.state = .ok handled := stepped
      simp only [List.map_cons, recvLoop, List.getElem?_cons_zero, stepped', ok_bind,
        List.set_cons_zero]
      split
      · -- The loop is left after a message, and the next call goes on.
        obtain ⟨fewer, rfl⟩ : ∃ fewer, calls = fewer + 1 :=
          ⟨calls - 1, by simp at enough; omega⟩
        simp only [pure_eq_ok, ok_bind, recvAllRepeatedly, recvAll,
          holderToUse_single ownHandled]
        exact ih ownHandled ran (by simp at enough; omega)
      · exact ih ownHandled ran (by simp at enough; omega)

/-- From an empty table, the calls of `recvAll` are a run from a new holder. -/
theorem recvAllRepeatedly_eq_run {chunks : List Bytes} {processBuf : Block maxMsgLen} {state : σ}
    {final : Handled σ}
    (ran : runFrom (receive host callback) (fresh malloced socket processBuf state) chunks =
      .ok final) (calls : Nat) (enough : chunks.length ≤ calls) :
    ∃ last,
      recvAllRepeatedly host callback malloced socket (calls + 1)
        { returnValue := 0, unread := chunks.map RecvResult.bytes, recvHolders := [],
          processBuf := processBuf, state := state } = .ok last ∧
      last.unread = [] ∧ last.recvHolders = [final.holder] ∧ last.state = final.state := by
  have created : holderToUse malloced [] socket = ([initRecvHolder malloced socket], 0) := by
    simp [holderToUse, findRecvHolder, findFreeRecvHolder]
  simp only [recvAllRepeatedly, recvAll, created]
  exact recvLoop_then_calls rfl ran enough

end Calls

/-! ### Delivery -/

/-- What the operating system promises of `recv()`: some bytes, and no more than it was asked for.
Where `sizeUsed` has passed the end of the queue, the length that it is asked for is a negative
number turned into a `size_t`, and there is nothing to hold it back. -/
def RecvPromises (holder : RecvHolder) (chunk : Bytes) : Prop :=
  chunk ≠ [] ∧ (holder.sizeUsed ≤ recvQueueSize →
    holder.sizeUsed + chunk.length ≤ recvQueueSize)

/-- The `recv()` gives some bytes, and they lie in the queue. -/
def RecvGives (holder : RecvHolder) (chunk : Bytes) : Prop :=
  chunk ≠ [] ∧ holder.sizeUsed + chunk.length ≤ recvQueueSize

/-- The bytes that the operating system gives lie in the queue exactly if `sizeUsed` has not passed
its end. -/
theorem recvGives_iff {holder : RecvHolder} {chunk : Bytes} :
    RecvGives holder chunk ↔ RecvPromises holder chunk ∧ holder.sizeUsed ≤ recvQueueSize := by
  constructor
  · rintro ⟨begun, room⟩
    exact ⟨⟨begun, fun _ => room⟩, by omega⟩
  · rintro ⟨⟨begun, room⟩, inside⟩
    exact ⟨begun, room inside⟩

/-- The `recv()` ends on a boundary of the stream and no length field reaches around the end
of the queue. -/
def EndsOnBoundary (before : List Bytes) (holder : RecvHolder) (chunk : Bytes) : Prop :=
  let rest := (messageFraming.split before.flatten).2
  LengthFieldInside holder rest chunk ∧ OnBoundary rest chunk

instance (holder : RecvHolder) (chunk : Bytes) : Decidable (RecvPromises holder chunk) :=
  inferInstanceAs (Decidable (_ ∧ (_ → _)))

instance (holder : RecvHolder) (chunk : Bytes) : Decidable (RecvGives holder chunk) :=
  inferInstanceAs (Decidable (_ ∧ _))

instance (before : List Bytes) (holder : RecvHolder) (chunk : Bytes) :
    Decidable (EndsOnBoundary before holder chunk) :=
  inferInstanceAs (Decidable (_ ∧ _))

section Delivery

variable {host : ByteOrder} {leaves : Block maxMsgLen → Block maxMsgLen}
  {start : Handled (List Bytes)}

/-- The run lemma: after any run of `recv()` calls that end on a boundary, the callback has
received the whole messages of the stream in order and the holder holds what is left. -/
theorem receive_delivers (idle : Holding start.holder []) {chunks : List Bytes}
    (along : Along (receive host (recordFrame leaves)) start
      (fun before reached chunk =>
        RecvGives reached.holder chunk ∧ EndsOnBoundary before reached.holder chunk) chunks) :
    ∃ final, runFrom (receive host (recordFrame leaves)) start chunks = .ok final ∧
      Holding final.holder (messageFraming.split chunks.flatten).2 ∧
      final.state = start.state ++ (messageFraming.split chunks.flatten).1 := by
  refine run_invariant
    (fun before reached =>
      Holding reached.holder (messageFraming.split before.flatten).2 ∧
        reached.state = start.state ++ (messageFraming.split before.flatten).1) ?_ ?_ along
  · simpa using idle
  · rintro before reached chunk ⟨holding, delivered⟩ ⟨⟨begun, room⟩, lengthField, boundary⟩
    obtain ⟨handled, stepped, holds, more⟩ :=
      recvChunk_ok host leaves reached.processMsgBuffer reached.state holding begun room
        lengthField boundary
    refine ⟨handled, stepped, ?_⟩
    rw [List.flatten_append, List.flatten_singleton, Framing.split_append]
    exact ⟨holds, by rw [more, delivered, List.append_assoc]⟩

/-- Whatever whole messages a stream is made of, and however `recv()` cuts it, the callback
receives these messages once each and in order, provided that every `recv()` ends on a
boundary. -/
theorem recvAllRepeatedly_delivers_frames (malloced : Block recvQueueSize) (socket : Int)
    (processBuf : Block maxMsgLen) {frames chunks : List Bytes}
    (whole : ∀ frame ∈ frames, messageFraming.IsFrame frame ∧ frame.length ≤ maxMsgLen)
    (cut : chunks.flatten <+: frames.flatten)
    (along : Along (receive host (recordFrame leaves)) (fresh malloced socket processBuf [])
      (fun before reached chunk =>
        RecvGives reached.holder chunk ∧ EndsOnBoundary before reached.holder chunk) chunks)
    (calls : Nat) (enough : chunks.length < calls) :
    ∃ last,
      recvAllRepeatedly host (recordFrame leaves) malloced socket calls
        { returnValue := 0, unread := chunks.map RecvResult.bytes, recvHolders := [],
          processBuf := processBuf, state := [] } = .ok last ∧
      last.unread = [] ∧
      last.state = (messageFraming.split chunks.flatten).1 ∧
      last.state <+: frames ∧
      (chunks.flatten = frames.flatten → last.state = frames) := by
  obtain ⟨final, ran, -, delivered⟩ :=
    receive_delivers (holding_init malloced socket) along
  obtain ⟨fewer, rfl⟩ : ∃ fewer, calls = fewer + 1 := ⟨calls - 1, by omega⟩
  obtain ⟨last, called, read, -, same⟩ := recvAllRepeatedly_eq_run ran fewer (by omega)
  have received : last.state = (messageFraming.split chunks.flatten).1 := by
    rw [same, delivered]
    rfl
  have allFrames : ∀ frame ∈ frames, messageFraming.IsFrame frame :=
    fun frame mem => (whole frame mem).1
  have split := Framing.split_flatten allFrames []
  simp only [List.append_nil, Framing.split_nil] at split
  refine ⟨last, called, read, received, ?_, fun complete => ?_⟩
  · obtain ⟨more, stream⟩ := cut
    have interrupted := messageFraming.split_append chunks.flatten more
    rw [stream, split] at interrupted
    rw [received]
    exact ⟨_, (congrArg Prod.fst interrupted).symm⟩
  · rw [received, complete, split]

end Delivery

section Instances

/-- Two messages in one `recv()` are delivered both. -/
theorem recvAllRepeatedly_delivers_two :
    let frames : List Bytes := [[0, 0, 0, 5, 1], [0, 0, 0, 6, 2, 3]]
    ∃ last,
      recvAllRepeatedly .little (recordFrame id) (Block.fill recvQueueSize 0) 7 2
        { returnValue := 0, unread := [.bytes frames.flatten], recvHolders := [],
          processBuf := Block.fill maxMsgLen 0, state := [] } = .ok last ∧
      last.state = frames := by
  intro frames
  have whole : ∀ frame ∈ frames, messageFraming.IsFrame frame ∧ frame.length ≤ maxMsgLen := by
    simp only [isFrame_iff]
    decide
  have along : Along (receive .little (recordFrame id))
      (fresh (Block.fill recvQueueSize 0) 7 (Block.fill maxMsgLen 0) [])
      (fun before reached chunk =>
        RecvGives reached.holder chunk ∧ EndsOnBoundary before reached.holder chunk)
      [frames.flatten] := by
    intro before chunk rest split reached ran
    obtain ⟨rfl, rfl, rfl⟩ : before = [] ∧ chunk = frames.flatten ∧ rest = [] := by
      rcases before with _ | ⟨first, before⟩
      · simpa [eq_comm] using split
      · simp at split
    obtain rfl := Except.ok.inj ran
    refine ⟨⟨by decide, by decide⟩, fun _ _ => by decide, ?_⟩
    right
    right
    have first := whole [0, 0, 0, 5, 1] (by decide)
    have second := whole [0, 0, 0, 6, 2, 3] (by decide)
    exact ⟨by simp, _, _, rfl, first.1, first.2, second.1, second.2⟩
  obtain ⟨last, called, -, -, -, delivered⟩ := recvAllRepeatedly_delivers_frames
    (Block.fill recvQueueSize 0) 7 (Block.fill maxMsgLen 0) whole (by simp) along 2 (by decide)
  exact ⟨last, called, delivered (by simp)⟩

/-- A `recv()` that ends inside the second of two messages: the queue is circulated twice, the
rest of the second message is written behind a gap, and the callback receives the gap. -/
theorem recvAllRepeatedly_loses_split_second :
    let frames : List Bytes := [[0, 0, 0, 5, 1], [0, 0, 0, 6, 2, 3]]
    let chunks : List Bytes := [[0, 0, 0, 5, 1, 0, 0, 0, 6, 2], [3]]
    let start := fresh (Block.fill recvQueueSize 0) 7 (Block.fill maxMsgLen 0) ([] : List Bytes)
    (∀ frame ∈ frames, messageFraming.IsFrame frame ∧ frame.length ≤ maxMsgLen) ∧
      chunks.flatten = frames.flatten ∧
      Along (receive .little (recordFrame id)) start
        (fun _ reached chunk => RecvGives reached.holder chunk) chunks ∧
      ∃ last,
        recvAllRepeatedly .little (recordFrame id) (Block.fill recvQueueSize 0) 7 3
          { returnValue := 0, unread := chunks.map RecvResult.bytes, recvHolders := [],
            processBuf := Block.fill maxMsgLen 0, state := [] } = .ok last ∧
        last.state = [[0, 0, 0, 5, 1], [0, 0, 0, 6, 2, 0]] := by
  intro frames chunks start
  refine ⟨?_, rfl, ?_, ?_⟩
  · simp only [isFrame_iff]
    decide
  · intro before chunk rest split reached ran
    rcases before with _ | ⟨first, _ | ⟨second, before⟩⟩
    · obtain ⟨rfl, -⟩ := List.cons.inj split
      obtain rfl := Except.ok.inj ran
      exact ⟨by decide, by decide⟩
    · obtain ⟨rfl, splitBehind⟩ := List.cons.inj split
      obtain ⟨rfl, -⟩ := List.cons.inj splitBehind
      have used : (runFrom (receive .little (recordFrame id)) start
          [[0, 0, 0, 5, 1, 0, 0, 0, 6, 2]]).map (fun reached => reached.holder.sizeUsed) =
          .ok 20 := by
        decide +kernel
      obtain ⟨value, same, sizeUsed⟩ := map_eq_ok.mp used
      rw [ran] at same
      obtain rfl := Except.ok.inj same
      exact ⟨by decide, by rw [sizeUsed]; decide⟩
    · simp [chunks] at split
  · exact map_eq_ok.mp (by decide +kernel)

end Instances

end RentMate.StreamIndependence
