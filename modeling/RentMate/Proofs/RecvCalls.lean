/-
Module: RentMate.Proofs.RecvCalls
Purpose: What a single call of `recvAll` reads of a stream and what it leaves unread, whatever the
  callback is: it stops behind the first `recv()` that completes a message.
Trusted boundary: none
Main exports: completions, Called, recvAll_ends
-/
import RentMate.Proofs.ConnectionIsolation

namespace RentMate.RecvCalls

open RentMate.Machine
open RentMate.PckData
open RentMate.Reassembly
open RentMate.StreamIndependence

/-! ### The `recv()` calls that complete a message -/

/-- How many of the `recv()` calls complete a message, when `rest` of one has been received. -/
def completions : Bytes → List Bytes → Nat
  | _, [] => 0
  | rest, chunk :: chunks =>
      (if (messageFraming.split (rest ++ chunk)).1 = [] then 0 else 1) +
        completions (messageFraming.split (rest ++ chunk)).2 chunks

/-- No more `recv()` calls complete a message than there are messages. -/
theorem completions_le (rest : Bytes) (chunks : List Bytes) :
    completions rest chunks ≤ (messageFraming.split (rest ++ chunks.flatten)).1.length := by
  induction chunks generalizing rest with
  | nil => exact Nat.zero_le _
  | cons chunk chunks ih =>
      have behind := ih (messageFraming.split (rest ++ chunk)).2
      rw [completions, List.flatten_cons, ← List.append_assoc,
        Framing.split_append messageFraming (rest ++ chunk), List.length_append]
      split
      · omega
      · rename_i completes
        have one := List.length_pos_iff.mpr completes
        omega

/-- If some bytes arrive and none of them is left over, a `recv()` has completed a message. -/
theorem completions_pos {rest : Bytes} {chunks : List Bytes} (arrives : chunks.flatten ≠ [])
    (nothingLeft : (messageFraming.split (rest ++ chunks.flatten)).2 = []) :
    0 < completions rest chunks := by
  induction chunks generalizing rest with
  | nil => exact absurd rfl arrives
  | cons chunk chunks ih =>
      rw [List.flatten_cons, ← List.append_assoc,
        Framing.split_append messageFraming (rest ++ chunk)] at nothingLeft
      rw [completions]
      split
      · rename_i incomplete
        by_cases last : chunks.flatten = []
        · -- Without a message everything is left over.
          exfalso
          have all := messageFraming.split_join (rest ++ chunk)
          rw [last, List.append_nil, Framing.split_of_incomplete
            (Framing.split_rest_incomplete _)] at nothingLeft
          rw [incomplete, nothingLeft] at all
          simp only [List.flatten_nil, List.nil_append] at all
          rw [List.flatten_cons, last, List.append_nil] at arrives
          exact arrives (List.append_eq_nil_iff.mp all.symm).2
        · have further := ih last nothingLeft
          omega
      · omega

/-! ### One call -/

section Calling

variable {σ : Type} {host : ByteOrder} {callback : ProcessingCallback σ} {excused : Prop}
  {follows : List Bytes → σ → Prop} {state : σ} {processBuf : Block maxMsgLen}

/-- What a `recv()` leaves of the holder does not depend on the callback. -/
theorem handleMsgData_holder {ρ : Type} {other : ProcessingCallback ρ} {fuel rs : Nat}
    {holder : RecvHolder} {otherBuf : Block maxMsgLen} {otherState : ρ} {handled : Handled σ}
    {handledOther : Handled ρ}
    (ran : handleMsgData host callback fuel holder rs processBuf state = .ok handled)
    (ranOther : handleMsgData host other fuel holder rs otherBuf otherState = .ok handledOther) :
    handled.holder = handledOther.holder := by
  induction fuel generalizing holder processBuf state otherBuf otherState handled handledOther with
  | zero => simp [handleMsgData] at ran
  | succ fuel ih =>
      rw [handleMsgData] at ran ranOther
      split at ran
      · rename_i complete
        rw [if_pos complete] at ranOther
        obtain ⟨copied, -, ran⟩ := bind_eq_ok.mp ran
        obtain ⟨handed, -, ran⟩ := bind_eq_ok.mp ran
        obtain ⟨copiedOther, -, ranOther⟩ := bind_eq_ok.mp ranOther
        obtain ⟨handedOther, -, ranOther⟩ := bind_eq_ok.mp ranOther
        simp only [] at ran ranOther
        split at ran
        · rename_i more
          simp only [if_pos more] at ranOther
          obtain ⟨second, lengthHandled, ran⟩ := bind_eq_ok.mp ran
          rw [lengthHandled, ok_bind] at ranOther
          obtain ⟨deeper, ranDeeper, ran⟩ := bind_eq_ok.mp ran
          obtain ⟨deeperOther, ranDeeperOther, ranOther⟩ := bind_eq_ok.mp ranOther
          rw [← Except.ok.inj ran, ← Except.ok.inj ranOther]
          have same := ih ranDeeper ranDeeperOther
          exact same
        · rename_i nothingMore
          simp only [if_neg nothingMore] at ranOther
          rw [← Except.ok.inj ran, ← Except.ok.inj ranOther]
      · rename_i incomplete
        rw [if_neg incomplete] at ranOther
        rw [← Except.ok.inj ran, ← Except.ok.inj ranOther]

/-- Two callbacks leave the same holder behind a chunk. -/
theorem recvChunk_holder {ρ : Type} {other : ProcessingCallback ρ} {holder : RecvHolder}
    {chunk : Bytes} {otherBuf : Block maxMsgLen} {otherState : ρ} {handled : Handled σ}
    {handledOther : Handled ρ}
    (ran : recvChunk host callback holder chunk processBuf state = .ok handled)
    (ranOther : recvChunk host other holder chunk otherBuf otherState = .ok handledOther) :
    handled.holder = handledOther.holder := by
  obtain ⟨obtained, chunkObtained, ran⟩ := bind_eq_ok.mp ran
  rw [recvChunk, chunkObtained, ok_bind] at ranOther
  exact handleMsgData_holder ran ranOther

/-- From this holder on, behind the chunks `before`, every `recv()` gives some bytes that lie in the
queue and that end on a boundary. -/
def OnBoundaries (host : ByteOrder) (before : List Bytes) (holder : RecvHolder)
    (chunks : List Bytes) : Prop :=
  ∃ recorded : Handled (List Bytes), recorded.holder = holder ∧
    Along (receive host (recordFrame id)) recorded
      (fun more reached chunk => RecvGives reached.holder chunk ∧
        EndsOnBoundary (before ++ more) reached.holder chunk) chunks

/-- What a call leaves that has read the first of the chunks, when `before` had been read
earlier. -/
structure Called (host : ByteOrder) (follows : List Bytes → σ → Prop)
    (before read unread : List Bytes) (holder : RecvHolder) (outcome : RecvAllOutcome σ) :
    Prop where
  status : outcome.returnValue = 0 ∨ outcome.returnValue = -1
  leaves : outcome.unread = unread.map RecvResult.bytes
  holding : Holding holder (messageFraming.split (before ++ read).flatten).2
  follows : follows (messageFraming.split (before ++ read).flatten).1 outcome.state
  boundaries : OnBoundaries host (before ++ read) holder unread
  progress : unread ≠ [] → (messageFraming.split before.flatten).1.length <
    (messageFraming.split (before ++ read).flatten).1.length
  atMostOne : completions (messageFraming.split before.flatten).2 (read ++ unread) ≤
    1 + completions (messageFraming.split (before ++ read).flatten).2 unread
  exactlyOne : unread ≠ [] →
    completions (messageFraming.split before.flatten).2 (read ++ unread) =
      1 + completions (messageFraming.split (before ++ read).flatten).2 unread

/-- The loop lemma: `recvAll` hands over messages up to the first `recv()` that completes one. -/
theorem recvLoop_ends {index : Nat} {recvHolders : List RecvHolder} {holder : RecvHolder}
    {before chunks : List Bytes} (found : recvHolders[index]? = some holder)
    (takes : ∀ log frame,
      log ++ [frame] <+: (messageFraming.split (before ++ chunks).flatten).1 →
      Takes callback excused follows log frame)
    (holding : Holding holder (messageFraming.split before.flatten).2)
    (followed : follows (messageFraming.split before.flatten).1 state)
    (boundaries : OnBoundaries host before holder chunks) :
    EndsIn excused
      (recvLoop host callback index (chunks.map RecvResult.bytes) recvHolders processBuf state)
      fun outcome => ∃ read unread last, chunks = read ++ unread ∧
        outcome.recvHolders = recvHolders.set index last ∧ last.socket = holder.socket ∧
          Called host follows before read unread last outcome := by
  induction chunks generalizing before recvHolders holder processBuf state with
  | nil =>
      have stored : recvHolders.set index holder = recvHolders := by
        obtain ⟨inside, rfl⟩ := List.getElem?_eq_some_iff.mp found
        exact List.set_getElem_self inside
      refine ⟨[], [], holder, rfl, stored.symm, rfl, ?_⟩
      exact
        { status := .inr rfl
          leaves := rfl
          holding := by rw [List.append_nil]; exact holding
          follows := by rw [List.append_nil]; exact followed
          boundaries := by rw [List.append_nil]; exact boundaries
          progress := fun impossible => absurd rfl impossible
          atMostOne := Nat.zero_le _
          exactlyOne := fun impossible => absurd rfl impossible }
  | cons chunk chunks ih =>
      obtain ⟨recorded, rfl, along⟩ := boundaries
      obtain ⟨⟨⟨begun, room⟩, boundary⟩, behind⟩ := along_cons.mp along
      rw [List.append_nil] at boundary
      obtain ⟨lengthField, onBoundary⟩ := boundary
      have cut : messageFraming.split (before ++ [chunk]).flatten =
          ((messageFraming.split before.flatten).1 ++
            (messageFraming.split ((messageFraming.split before.flatten).2 ++ chunk)).1,
            (messageFraming.split ((messageFraming.split before.flatten).2 ++ chunk)).2) := by
        rw [List.flatten_append, List.flatten_singleton, Framing.split_append]
      have whole : before ++ chunk :: chunks = before ++ [chunk] ++ chunks := by simp
      rw [whole] at takes
      have first : EndsIn excused
          (recvChunk host callback recorded.holder chunk processBuf state)
          (Reassembled follows (messageFraming.split before.flatten).1
            ((messageFraming.split before.flatten).2 ++ chunk)) := by
        refine recvChunk_ends host processBuf (fun earlier frame front => takes _ _ ?_) followed
          holding begun room lengthField onBoundary
        have now := (List.prefix_append_right_inj (messageFraming.split before.flatten).1).mpr front
        rw [← List.append_assoc] at now
        have further := messageFraming.split_prefix (before ++ [chunk]).flatten chunks.flatten
        rw [cut, ← List.flatten_append] at further
        exact now.trans further
      simp only [List.map_cons, recvLoop, found]
      refine first.bind fun handled ran reassembled => ?_
      obtain ⟨recordedNext, ranRecord, -, -⟩ := recvChunk_ok host id recorded.processMsgBuffer
        recorded.state holding begun room lengthField onBoundary
      have same := recvChunk_holder ran ranRecord
      have kept := recvChunk_socket ran
      have boundariesNext : OnBoundaries host (before ++ [chunk]) handled.holder chunks := by
        refine ⟨recordedNext, same.symm, ?_⟩
        simpa using behind recordedNext ranRecord
      have holdingNext : Holding handled.holder
          (messageFraming.split (before ++ [chunk]).flatten).2 := by
        rw [cut]
        exact reassembled.holding
      have followedNext : follows (messageFraming.split (before ++ [chunk]).flatten).1
          handled.state := by
        rw [cut]
        exact reassembled.follows
      obtain ⟨inside, -⟩ := List.getElem?_eq_some_iff.mp found
      split
      · rename_i completes
        have some : (messageFraming.split ((messageFraming.split before.flatten).2 ++ chunk)).1 ≠
            [] := by
          rw [reassembled.counted] at completes
          exact List.length_pos_iff.mp completes
        have counted : completions (messageFraming.split before.flatten).2 ([chunk] ++ chunks) =
            1 + completions (messageFraming.split (before ++ [chunk]).flatten).2 chunks := by
          rw [cut]
          exact congrArg (· + _) (if_neg some)
        refine ⟨[chunk], chunks, handled.holder, rfl, rfl, kept, ?_⟩
        exact
          { status := .inl rfl
            leaves := rfl
            holding := holdingNext
            follows := followedNext
            boundaries := boundariesNext
            progress := fun _ => by
              have more := List.length_pos_iff.mpr some
              rw [cut, List.length_append]
              omega
            atMostOne := Nat.le_of_eq counted
            exactlyOne := fun _ => counted }
      · rename_i incomplete
        have none : (messageFraming.split ((messageFraming.split before.flatten).2 ++ chunk)).1 =
            [] := by
          rw [reassembled.counted] at incomplete
          exact List.length_eq_zero_iff.mp (by omega)
        have counted : ∀ more, completions (messageFraming.split before.flatten).2
            (chunk :: more) =
              completions (messageFraming.split (before ++ [chunk]).flatten).2 more := by
          intro more
          rw [completions, if_pos none, Nat.zero_add, cut]
        have stored : (recvHolders.set index handled.holder)[index]? = .some handled.holder :=
          List.getElem?_set_self inside
        refine (ih stored takes holdingNext followedNext boundariesNext).imp ?_
        rintro outcome ⟨read, unread, last, rfl, table, socket, called⟩
        have assoc : before ++ chunk :: read = before ++ [chunk] ++ read := by simp
        refine ⟨chunk :: read, unread, last, rfl, by rw [table, List.set_set],
          socket.trans kept, ?_⟩
        exact
          { status := called.status
            leaves := called.leaves
            holding := by rw [assoc]; exact called.holding
            follows := by rw [assoc]; exact called.follows
            boundaries := by rw [assoc]; exact called.boundaries
            progress := fun left => by
              have further := called.progress left
              rw [cut, none, List.append_nil] at further
              rw [assoc]
              exact further
            atMostOne := by rw [assoc, List.cons_append, counted]; exact called.atMostOne
            exactlyOne := by rw [assoc, List.cons_append, counted]; exact called.exactlyOne }

/-- `recvAll` finds this holder for a socket. -/
def Finds (malloced : Block recvQueueSize) (recvHolders : List RecvHolder) (socket : Int)
    (holder : RecvHolder) : Prop :=
  ∃ recvHolders' index, holderToUse malloced recvHolders socket = (recvHolders', index) ∧
    recvHolders'[index]? = some holder

/-- A call of `recvAll`, and the holder that the next one will find. -/
theorem recvAll_ends {malloced : Block recvQueueSize} {recvHolders : List RecvHolder}
    {socket : Int} {holder : RecvHolder} {before chunks : List Bytes}
    (finds : Finds malloced recvHolders socket holder)
    (takes : ∀ log frame,
      log ++ [frame] <+: (messageFraming.split (before ++ chunks).flatten).1 →
      Takes callback excused follows log frame)
    (holding : Holding holder (messageFraming.split before.flatten).2)
    (followed : follows (messageFraming.split before.flatten).1 state)
    (boundaries : OnBoundaries host before holder chunks) :
    EndsIn excused
      (recvAll host callback malloced recvHolders socket (chunks.map RecvResult.bytes) processBuf
        state)
      fun outcome => ∃ read unread last, chunks = read ++ unread ∧
        Finds malloced outcome.recvHolders socket last ∧
          Called host follows before read unread last outcome := by
  obtain ⟨table, index, use, found⟩ := finds
  have again : ∀ changed : RecvHolder, changed.socket = holder.socket →
      holderToUse malloced (table.set index changed) socket = (table.set index changed, index) := by
    intro changed same
    have kept := @ConnectionIsolation.holderToUse_again malloced recvHolders socket holder changed
    rw [use] at kept
    exact kept found same
  simp only [recvAll, use]
  refine (recvLoop_ends found takes holding followed boundaries).imp ?_
  rintro outcome ⟨read, unread, last, cut, stored, socketKept, called⟩
  obtain ⟨inside, -⟩ := List.getElem?_eq_some_iff.mp found
  refine ⟨read, unread, last, cut, ⟨table.set index last, index, ?_, ?_⟩, called⟩
  · rw [stored]
    exact again last socketKept
  · exact List.getElem?_set_self inside

end Calling

end RentMate.RecvCalls
