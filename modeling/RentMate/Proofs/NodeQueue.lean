/-
Module: RentMate.Proofs.NodeQueue
Purpose: The node's queue of commands against a first-in first-out queue: over which interleavings
  of the threads every command is taken once, in order and field for field.
Trusted boundary: none
Main exports: serialized, deserializeCmdInfo_serialized, Delivered, LosslessFifo, Stores,
  losslessFifo_iff
-/
import RentMate.NodeClient.CommandQueue
import RentMate.Proofs.ArrayListRefinement

namespace RentMate.NodeQueueFifo

open RentMate.Machine
open RentMate.Misc
open RentMate.PckData
open RentMate.NodeClient (CmdInfo sizeOfSerializedCmdInfo serializeCmdInfo deserializeCmdInfo
  addToCommandQueue popCommandQueue NodeQueue QueueEvent queueStep)
open RentMate.ArrayListRefinement

/-! ### Records -/

section Records

variable {pointerSize : Nat}

/-- The bytes of a record. -/
def serialized (host : ByteOrder) (cmdInfo : CmdInfo pointerSize) : Bytes :=
  cmdInfo.devId.bytes ++ (host.encode cmdInfo.devType ++ (host.encode cmdInfo.opcode ++
    (host.encode cmdInfo.argsLen ++ cmdInfo.args.bytes)))

variable {host : ByteOrder} {cmdInfo : CmdInfo pointerSize}

/-- Writing the fields one behind the other fills the record. -/
theorem serializeCmdInfo_ok (host : ByteOrder) (cmdInfo : CmdInfo pointerSize)
    (output : Block (sizeOfSerializedCmdInfo pointerSize)) :
    ∃ written, serializeCmdInfo host output cmdInfo = .ok written ∧
      written.bytes = serialized host cmdInfo := by
  have sixteen : devIdLen = 16 := rfl
  have wide : [16, 4, 4, 4, pointerSize].sum ≤ output.bytes.length := by
    rw [output.allocated, sizeOfSerializedCmdInfo]
    simp only [List.sum_cons, List.sum_nil]
    omega
  obtain ⟨fields, lengths, content⟩ := Block.exists_fields wide
  obtain ⟨b0, wrote0, content0, lengths0⟩ := Block.write_field 0 0 cmdInfo.devId.bytes content
    lengths rfl (by rw [cmdInfo.devId.allocated]; rfl)
  obtain ⟨b1, wrote1, content1, lengths1⟩ := Block.store32_field host 1 devIdLen cmdInfo.devType
    content0 lengths0 rfl rfl
  obtain ⟨b2, wrote2, content2, lengths2⟩ := Block.store32_field host 2 (devIdLen + 4)
    cmdInfo.opcode content1 lengths1 rfl rfl
  obtain ⟨b3, wrote3, content3, lengths3⟩ := Block.store32_field host 3 (devIdLen + 4 + 4)
    cmdInfo.argsLen content2 lengths2 rfl rfl
  obtain ⟨b4, wrote4, content4, -⟩ := Block.write_field 4 (devIdLen + 4 + 4 + 4)
    cmdInfo.args.bytes content3 lengths3 rfl (by rw [cmdInfo.args.allocated]; rfl)
  refine ⟨b4, ?_, ?_⟩
  · simp only [serializeCmdInfo, wrote0, wrote1, wrote2, wrote3, wrote4, ok_bind]
  · obtain ⟨f0, f1, f2, f3, f4, rfl⟩ : ∃ f0 f1 f2 f3 f4, fields = [f0, f1, f2, f3, f4] := by
      have five : fields.length = 5 := by
        rw [← List.length_map List.length, lengths]
        rfl
      match fields, five with
      | [f0, f1, f2, f3, f4], _ => exact ⟨f0, f1, f2, f3, f4, rfl⟩
    have none : output.bytes.drop [16, 4, 4, 4, pointerSize].sum = [] := by
      apply List.drop_eq_nil_of_le
      rw [output.allocated, sizeOfSerializedCmdInfo]
      simp only [List.sum_cons, List.sum_nil]
      omega
    rw [content4, none]
    simp [serialized]

/-- A record is read back field for field. -/
theorem deserializeCmdInfo_serialized (output : CmdInfo pointerSize) {front rest : Bytes}
    {input : Nat} (atInput : front.length = input) :
    deserializeCmdInfo host output (front ++ (serialized host cmdInfo ++ rest)) input =
      .ok cmdInfo := by
  obtain ⟨devId, devType, opcode, argsLen, args⟩ := cmdInfo
  have sixteen : devId.bytes.length = devIdLen := devId.allocated
  have wide : args.bytes.length = pointerSize := args.allocated
  -- The same bytes, with the front reaching up to each of the fields.
  generalize content : front ++ (serialized host ⟨devId, devType, opcode, argsLen, args⟩ ++ rest) =
    data
  have upToDevType : data = (front ++ devId.bytes) ++ (host.encode devType ++
      (host.encode opcode ++ (host.encode argsLen ++ (args.bytes ++ rest)))) := by
    rw [← content]
    simp only [serialized, List.append_assoc]
  have upToOpcode : data = (front ++ devId.bytes ++ host.encode devType) ++
      (host.encode opcode ++ (host.encode argsLen ++ (args.bytes ++ rest))) := by
    rw [upToDevType]
    simp only [List.append_assoc]
  have upToArgsLen : data = (front ++ devId.bytes ++ host.encode devType ++ host.encode opcode) ++
      (host.encode argsLen ++ (args.bytes ++ rest)) := by
    rw [upToOpcode]
    simp only [List.append_assoc]
  have upToArgs : data = (front ++ devId.bytes ++ host.encode devType ++ host.encode opcode ++
      host.encode argsLen) ++ (args.bytes ++ rest) := by
    rw [upToArgsLen]
    simp only [List.append_assoc]
  have readDevId : readBytes data input devIdLen = .ok devId.bytes := by
    rw [upToDevType, List.append_assoc]
    exact readBytes_append atInput sixteen
  have loadDevType : load32 host data (input + devIdLen) = .ok devType := by
    rw [upToDevType, load32_append (by rw [List.length_append, atInput, sixteen])
      (host.encode_length devType), host.decode_encode]
  have loadOpcode : load32 host data (input + devIdLen + 4) = .ok opcode := by
    rw [upToOpcode, load32_append
      (by simp only [List.length_append, atInput, sixteen, host.encode_length])
      (host.encode_length opcode),
      host.decode_encode]
  have loadArgsLen : load32 host data (input + devIdLen + 4 + 4) = .ok argsLen := by
    rw [upToArgsLen, load32_append
      (by simp only [List.length_append, atInput, sixteen, host.encode_length])
      (host.encode_length argsLen),
      host.decode_encode]
  have readArgs : readBytes data (input + devIdLen + 4 + 4 + 4) pointerSize = .ok args.bytes := by
    rw [upToArgs]
    exact readBytes_append
      (by simp only [List.length_append, atInput, sixteen, host.encode_length]) wide
  simp only [deserializeCmdInfo, readDevId, Block.write_whole, loadDevType, loadOpcode,
    loadArgsLen, readArgs, ok_bind, pure_eq_ok]

end Records

/-! ### The queue -/

section Queue

variable {pointerSize : Nat}

/-- The commands of the adds, in the order of the adds. -/
def added : List (QueueEvent pointerSize) → List (CmdInfo pointerSize)
  | [] => []
  | .addToCommandQueue cmdInfo _ _ :: events => cmdInfo :: added events
  | .getCommandQueueLength :: events => added events
  | .popCommandQueue _ :: events => added events

/-- What has been taken are the first of the commands, and the others wait in the queue, one behind
the other. The loop does not take more than there are. -/
structure Delivered (host : ByteOrder) (queue : NodeQueue pointerSize)
    (commands : List (CmdInfo pointerSize)) : Prop where
  inOrder : ∃ waiting, queue.popped ++ waiting = commands ∧
    Represents queue.commandQueue (waiting.map (serialized host))
  enough : queue.left ≤ queue.commandQueue.length

/-- At every moment, what has been taken are the first commands that were added. -/
def LosslessFifo (host : ByteOrder) (start : NodeQueue pointerSize)
    (events : List (QueueEvent pointerSize)) : Prop :=
  ∀ before rest, events = before ++ rest →
    ∃ reached, runFrom (queueStep host) start before = .ok reached ∧
      Delivered host reached (added before)

/-- An add finds room in the array, or `realloc` gives it more than the array has. -/
def Stores (commandQueue : ArrayList) : QueueEvent pointerSize → Prop
  | .addToCommandQueue _ serializedCmdInfo memory =>
      Enlarges commandQueue (.addToList serializedCmdInfo memory) ∧
        (commandQueue.length = commandQueue.allocated → memory ≠ none)
  | .getCommandQueueLength => True
  | .popCommandQueue _ => True

instance (commandQueue : ArrayList) (event : QueueEvent pointerSize) :
    Decidable (Stores commandQueue event) :=
  match event with
  | .addToCommandQueue _ _ _ => inferInstanceAs (Decidable (_ ∧ (_ → _)))
  | .getCommandQueueLength => .isTrue trivial
  | .popCommandQueue _ => .isTrue trivial

/-- The queue with the commands that wait in it, and the others taken. -/
structure Holds (host : ByteOrder) (queue : NodeQueue pointerSize)
    (commands waiting : List (CmdInfo pointerSize)) : Prop where
  inOrder : queue.popped ++ waiting = commands
  sound : Sound (sizeOfSerializedCmdInfo pointerSize) queue.commandQueue
    (waiting.map (serialized host))
  enough : queue.left ≤ queue.commandQueue.length

/-- A queue that holds its commands delivers them. -/
theorem Holds.delivered {host : ByteOrder} {queue : NodeQueue pointerSize}
    {commands waiting : List (CmdInfo pointerSize)} (holds : Holds host queue commands waiting) :
    Delivered host queue commands :=
  ⟨⟨waiting, holds.inOrder, holds.sound.toRepresents⟩, holds.enough⟩

/-- What was added after one more event. -/
theorem added_snoc (events : List (QueueEvent pointerSize)) (event : QueueEvent pointerSize) :
    added (events ++ [event]) = added events ++ added [event] := by
  induction events with
  | nil => rfl
  | cons first rest ih =>
      cases first with
      | addToCommandQueue cmdInfo serializedCmdInfo memory =>
          exact congrArg (List.cons cmdInfo) ih
      | getCommandQueueLength => exact ih
      | popCommandQueue cmdInfo => exact ih

end Queue

/-! ### One step -/

section Steps

variable {pointerSize : Nat} {host : ByteOrder} {queue : NodeQueue pointerSize}
  {commands waiting : List (CmdInfo pointerSize)} {event : QueueEvent pointerSize}

/-- An add that stores its command puts it behind the others. -/
theorem add_holds (holds : Holds host queue commands waiting) (cmdInfo : CmdInfo pointerSize)
    (serializedCmdInfo : Block (sizeOfSerializedCmdInfo pointerSize)) (memory : Memory)
    (stores : Stores queue.commandQueue (.addToCommandQueue cmdInfo serializedCmdInfo memory)) :
    ∃ next, queueStep host queue (.addToCommandQueue cmdInfo serializedCmdInfo memory) =
        .ok next ∧
      Holds host next (commands ++ [cmdInfo]) (waiting ++ [cmdInfo]) := by
  obtain ⟨enlarges, available⟩ := stores
  obtain ⟨written, ranSerialize, content⟩ := serializeCmdInfo_ok host cmdInfo serializedCmdInfo
  have enlarges : Enlarges queue.commandQueue (.addToList written memory) := enlarges
  obtain ⟨returned, list, ranAdd, ⟨-, sound⟩ | ⟨-, full, refused, -⟩⟩ :=
    addToList_sound holds.sound enlarges
  · refine ⟨{ queue with commandQueue := list }, ?_, ?_⟩
    · simp only [queueStep, addToCommandQueue, ranSerialize, ranAdd, ok_bind, pure_eq_ok]
    · rw [content] at sound
      have grown : list.length = queue.commandQueue.length + 1 := by
        rw [sound.length, holds.sound.length, List.length_append, List.length_singleton]
        rfl
      refine ⟨?_, ?_, ?_⟩
      · rw [← holds.inOrder, List.append_assoc]
      · rw [List.map_append]
        exact sound
      · have enough := holds.enough
        show queue.left ≤ list.length
        omega
  · exact absurd refused (available full)

/-- A round of the loop takes the first command that waits. -/
theorem pop_holds (holds : Holds host queue commands waiting) (cmdInfo : CmdInfo pointerSize) :
    ∃ next waitingNext, queueStep host queue (.popCommandQueue cmdInfo) = .ok next ∧
      Holds host next commands waitingNext := by
  have sound := holds.sound
  have counted := sound.length
  have enough := holds.enough
  rw [List.length_map] at counted
  rw [queueStep]
  split
  · exact ⟨queue, waiting, rfl, holds⟩
  · rename_i left
    obtain ⟨first, rest, rfl⟩ := List.exists_cons_of_length_pos (show 0 < waiting.length by omega)
    have inside : (0 : Int).toNat < ((first :: rest).map (serialized host)).length :=
      Nat.zero_lt_succ _
    have place : getFromList queue.commandQueue 0 =
        some ((0 : Int).toNat * queue.commandQueue.dataSize) :=
      if_pos ((in_range_iff sound.toRepresents).mpr ⟨Int.le_refl 0, inside⟩)
    obtain ⟨behind, content, front, -⟩ := sound.packed.split inside
    have ranRead : deserializeCmdInfo host cmdInfo queue.commandQueue.data
        ((0 : Int).toNat * queue.commandQueue.dataSize) = .ok first := by
      rw [content]
      exact deserializeCmdInfo_serialized cmdInfo front
    obtain ⟨list, ranRemove, soundList⟩ := removeFromList_sound sound (Int.le_refl 0) inside
    refine
      ⟨{ commandQueue := list
         left := queue.left - 1
         popped := queue.popped ++ [first] }, rest, ?_, ?_, soundList, ?_⟩
    · simp only [popCommandQueue, place, ranRead, ranRemove, ok_bind, pure_eq_ok]
    · rw [← holds.inOrder, List.append_assoc, List.singleton_append]
    · have shorter : list.length = (rest.map (serialized host)).length := soundList.length
      rw [List.length_map] at shorter
      rw [List.length_cons] at counted
      show queue.left - 1 ≤ list.length
      omega

/-- Any step that stores the command it may add keeps the commands in order. -/
theorem step_holds (holds : Holds host queue commands waiting)
    (stores : Stores queue.commandQueue event) :
    ∃ next waitingNext, queueStep host queue event = .ok next ∧
      Holds host next (commands ++ added [event]) waitingNext := by
  cases event with
  | addToCommandQueue cmdInfo serializedCmdInfo memory =>
      obtain ⟨next, stepped, holdsNext⟩ :=
        add_holds holds cmdInfo serializedCmdInfo memory stores
      exact ⟨next, _, stepped, holdsNext⟩
  | getCommandQueueLength =>
      refine ⟨_, waiting, rfl, ?_⟩
      rw [added, added, List.append_nil]
      exact ⟨holds.inOrder, holds.sound, Int.le_refl _⟩
  | popCommandQueue cmdInfo =>
      rw [added, added, List.append_nil]
      exact pop_holds holds cmdInfo

/-- A step that keeps the commands in order stores the command that it may add. -/
theorem stores_of_delivered (holds : Holds host queue commands waiting)
    {next : NodeQueue pointerSize} (stepped : queueStep host queue event = .ok next)
    (delivered : Delivered host next (commands ++ added [event])) :
    Stores queue.commandQueue event := by
  cases event with
  | addToCommandQueue cmdInfo serializedCmdInfo memory =>
      obtain ⟨list, ranQueue, stepped⟩ := bind_eq_ok.mp stepped
      obtain rfl := Except.ok.inj stepped
      obtain ⟨written, -, ranQueue⟩ := bind_eq_ok.mp ranQueue
      obtain ⟨⟨returned, left⟩, ranAdd, ranQueue⟩ := bind_eq_ok.mp ranQueue
      obtain rfl : left = list := Except.ok.inj ranQueue
      obtain ⟨⟨waitingNext, inOrder, represents⟩, -⟩ := delivered
      -- One more command waits than before, so the add has not failed.
      have longer : left.length = queue.commandQueue.length + 1 := by
        have more := congrArg List.length inOrder
        have counted := represents.length
        have before := holds.sound.length
        rw [← holds.inOrder] at more
        simp only [List.length_append, added, List.length_singleton] at more
        rw [List.length_map] at counted before
        have counted : left.length = waitingNext.length := counted
        omega
      rcases addToList_returned ranAdd with ⟨rfl, available⟩ | ⟨-, same⟩
      · have enlarges : Enlarges queue.commandQueue (.addToList written memory) :=
          enlarges_of_added holds.sound ranAdd (.inl rfl) represents.memory
        exact ⟨enlarges, available⟩
      · omega
  | getCommandQueueLength => trivial
  | popCommandQueue cmdInfo => trivial

end Steps

/-! ### All interleavings -/

section Runs

variable {pointerSize : Nat} {host : ByteOrder} {start : NodeQueue pointerSize}

/-- A run that stores all commands keeps them in order. -/
theorem run_holds (sound : Sound (sizeOfSerializedCmdInfo pointerSize) start.commandQueue [])
    (idle : start.left ≤ 0) (none : start.popped = []) {events : List (QueueEvent pointerSize)}
    (along : Along (queueStep host) start (fun _ queue event => Stores queue.commandQueue event)
      events) :
    ∃ final, runFrom (queueStep host) start events = .ok final ∧
      ∃ waiting, Holds host final (added events) waiting := by
  have initially : ∃ waiting, Holds host start (added []) waiting :=
    ⟨[], ⟨by rw [none]; rfl, sound, by rw [sound.length]; exact idle⟩⟩
  refine run_invariant (fun before queue => ∃ waiting, Holds host queue (added before) waiting)
    initially ?_ along
  rintro before queue event ⟨waiting, holds⟩ stores
  obtain ⟨next, waitingNext, stepped, holdsNext⟩ := step_holds holds stores
  exact ⟨next, stepped, waitingNext, added_snoc before event ▸ holdsNext⟩

/-- The queue loses, doubles and reorders nothing over a run, and no round of the loop meets an
empty one, exactly if every add of the run stores its command. -/
theorem losslessFifo_iff_stores
    (sound : Sound (sizeOfSerializedCmdInfo pointerSize) start.commandQueue [])
    (idle : start.left ≤ 0) (none : start.popped = []) (events : List (QueueEvent pointerSize)) :
    LosslessFifo host start events ↔
      Along (queueStep host) start (fun _ queue event => Stores queue.commandQueue event)
        events := by
  constructor
  · intro lossless
    induction events using List.reverseRecOn with
    | nil => exact along_nil
    | append_singleton events event ih =>
        have along := ih fun before rest split =>
          lossless before (rest ++ [event]) (by rw [split, List.append_assoc])
        refine along_snoc.mpr ⟨along, fun queue ran => ?_⟩
        obtain ⟨same, ranSame, waiting, holds⟩ := run_holds sound idle none along
        obtain rfl := Except.ok.inj (ran.symm.trans ranSame)
        obtain ⟨next, ranNext, delivered⟩ := lossless (events ++ [event]) [] (by simp)
        rw [runFrom_snoc, ran, ok_bind] at ranNext
        rw [added_snoc] at delivered
        exact stores_of_delivered holds ranNext delivered
  · rintro along before rest rfl
    obtain ⟨reached, ran, waiting, holds⟩ := run_holds sound idle none along.of_append
    exact ⟨reached, ran, holds.delivered⟩

/-- An empty queue, with nothing taken from it. -/
def newQueue (pointerSize : Nat) (commandQueue : ArrayList) : NodeQueue pointerSize :=
  { commandQueue := commandQueue
    left := 0
    popped := [] }

/-- The same of the queue that `initializeCommandQueue` makes, on a target with pointers of up to
eight bytes. -/
theorem losslessFifo_iff {memory : Memory} {commandQueue : ArrayList} (pointers : pointerSize ≤ 8)
    (made : initList (sizeOfSerializedCmdInfo pointerSize) memory = some commandQueue)
    (events : List (QueueEvent pointerSize)) :
    LosslessFifo host (newQueue pointerSize commandQueue) events ↔
      Along (queueStep host) (newQueue pointerSize commandQueue)
        (fun _ queue event => Stores queue.commandQueue event) events := by
  have sixteen : devIdLen = 16 := rfl
  have some : 0 < sizeOfSerializedCmdInfo pointerSize := by
    rw [sizeOfSerializedCmdInfo]
    omega
  have small : sizeOfSerializedCmdInfo pointerSize * 5 < 2 ^ 31 := by
    rw [sizeOfSerializedCmdInfo]
    omega
  exact losslessFifo_iff_stores (initList_sound some small made) (Int.le_refl 0) rfl events

end Runs

/-- A command of a given device type. -/
def sampleCommand (devType : UInt32) : CmdInfo 4 :=
  { devId := default
    devType := devType
    opcode := 0
    argsLen := 0
    args := default }

/-- Two adds, the read of the length, a third add, and three rounds of the loop. -/
def sampleEvents : List (QueueEvent 4) :=
  [.addToCommandQueue (sampleCommand 1) default none,
    .addToCommandQueue (sampleCommand 2) default none, .getCommandQueueLength,
    .addToCommandQueue (sampleCommand 3) default none, .popCommandQueue (sampleCommand 0),
    .popCommandQueue (sampleCommand 0), .popCommandQueue (sampleCommand 0)]

/-- Nothing is lost in these events. -/
theorem sampleEvents_lossless :
    LosslessFifo .little (newQueue 4 (newList (sizeOfSerializedCmdInfo 4))) sampleEvents := by
  have stores : Along (queueStep .little) (newQueue 4 (newList (sizeOfSerializedCmdInfo 4)))
      (fun _ queue event => Stores queue.commandQueue event) sampleEvents := by
    decide +kernel
  exact (losslessFifo_iff (by decide) (initList_zeroed _) sampleEvents).mpr stores

/-- The sixth command is lost when there is no memory for it, and nobody is told. -/
theorem sixth_lost :
    ¬ ∀ (pointerSize : Nat) (host : ByteOrder) (memory : Memory) (commandQueue : ArrayList)
        (events : List (QueueEvent pointerSize)),
      pointerSize ≤ 8 →
      initList (sizeOfSerializedCmdInfo pointerSize) memory = some commandQueue →
        LosslessFifo host (newQueue pointerSize commandQueue) events := by
  intro claim
  have lossless := claim 4 .little zeroed (newList (sizeOfSerializedCmdInfo 4))
    (List.replicate 6 (.addToCommandQueue (sampleCommand 1) default none)) (by decide)
    (initList_zeroed _)
  have sound : Sound (sizeOfSerializedCmdInfo 4) (newList (sizeOfSerializedCmdInfo 4)) [] :=
    initList_sound (by decide) (by decide) (initList_zeroed _)
  have lost : ¬ Along (queueStep .little) (newQueue 4 (newList (sizeOfSerializedCmdInfo 4)))
      (fun _ queue event => Stores queue.commandQueue event)
      (List.replicate 6 (.addToCommandQueue (sampleCommand 1) default none)) := by
    decide +kernel
  exact lost ((losslessFifo_iff_stores sound (Int.le_refl 0) rfl _).mp lossless)

end RentMate.NodeQueueFifo
