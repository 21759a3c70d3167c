/-
Module: RentMate.NodeClient.CommandQueue
Purpose: The node's queue of commands for the server, as records of bytes in a growing array: the
  calls of the threads that add to it, and the loop that takes from it. Each of them holds
  `commandQueueAccessMux` from its first access to its last, so each is one step.
Trusted boundary: human-reviewed spec
Main exports: CmdInfo, serializeCmdInfo, deserializeCmdInfo, addToCommandQueue, popCommandQueue,
  NodeQueue, QueueEvent, queueStep
-/
import RentMate.Misc.ArrayList
import RentMate.PckData.GeneralSettings

namespace RentMate.NodeClient

open RentMate.Machine
open RentMate.Misc
open RentMate.PckData

/-! ### Records -/

/-- `nodeCmdInfo` as it lies in memory: `args` is the pointer itself, of `pointerSize` bytes. -/
structure CmdInfo (pointerSize : Nat) where
  devId : Block devIdLen
  devType : UInt32
  opcode : UInt32
  argsLen : UInt32
  args : Block pointerSize
deriving DecidableEq

/-- `sizeOfSerializedCmdInfo`. -/
def sizeOfSerializedCmdInfo (pointerSize : Nat) : Nat := devIdLen + 4 + 4 + 4 + pointerSize

section Records

variable {pointerSize : Nat}

/-- `serializeCmdInfo`. -/
def serializeCmdInfo (host : ByteOrder) (output : Block (sizeOfSerializedCmdInfo pointerSize))
    (input : CmdInfo pointerSize) : Checked (Block (sizeOfSerializedCmdInfo pointerSize)) := do
  let output ← output.write 0 input.devId.bytes
  let output ← output.store32 host devIdLen input.devType
  let output ← output.store32 host (devIdLen + 4) input.opcode
  let output ← output.store32 host (devIdLen + 4 + 4) input.argsLen
  output.write (devIdLen + 4 + 4 + 4) input.args.bytes

/-- `deserializeCmdInfo`, of the record at `input` in the memory of the list. -/
def deserializeCmdInfo (host : ByteOrder) (output : CmdInfo pointerSize) (data : Bytes)
    (input : Nat) : Checked (CmdInfo pointerSize) := do
  let devIdBytes ← readBytes data input devIdLen
  let devId ← output.devId.write 0 devIdBytes
  let devType ← load32 host data (input + devIdLen)
  let opcode ← load32 host data (input + devIdLen + 4)
  let argsLen ← load32 host data (input + devIdLen + 4 + 4)
  let argsBytes ← readBytes data (input + devIdLen + 4 + 4 + 4) pointerSize
  let args ← output.args.write 0 argsBytes
  pure
    { devId := devId
      devType := devType
      opcode := opcode
      argsLen := argsLen
      args := args }

/-! ### The queue -/

/-- `addToCommandQueue`. The status that `addToList` returns is not looked at.
`serializedCmdInfo` is what that local array held before. -/
def addToCommandQueue (host : ByteOrder) (commandQueue : ArrayList) (cmdInfo : CmdInfo pointerSize)
    (serializedCmdInfo : Block (sizeOfSerializedCmdInfo pointerSize)) (memory : Memory) :
    Checked ArrayList := do
  let serializedCmdInfo ← serializeCmdInfo host serializedCmdInfo cmdInfo
  let (_, commandQueue) ← addToList commandQueue serializedCmdInfo.bytes memory
  pure commandQueue

/-- `getCommandQueueLength`. -/
def getCommandQueueLength (commandQueue : ArrayList) : Int := commandQueue.length

/-- `popCommandQueue`. -/
def popCommandQueue (host : ByteOrder) (commandQueue : ArrayList) (cmdInfo : CmdInfo pointerSize) :
    Checked (CmdInfo pointerSize × ArrayList) :=
  match getFromList commandQueue 0 with
  | none => .error .nullPointer
  | some serializedCmdInfo => do
      let cmdInfo ← deserializeCmdInfo host cmdInfo commandQueue.data serializedCmdInfo
      let (_, commandQueue) ← removeFromList commandQueue 0
      pure (cmdInfo, commandQueue)

/-! ### The threads -/

/-- The queue, how many more commands the loop of the socket thread may take, and those that it
has taken. -/
structure NodeQueue (pointerSize : Nat) where
  commandQueue : ArrayList
  left : Int
  popped : List (CmdInfo pointerSize)

/-- A step of one of the threads: an add of any of them, the read of the length in front of the
loop of the socket thread, a round of that loop. -/
inductive QueueEvent (pointerSize : Nat) where
  | addToCommandQueue (cmdInfo : CmdInfo pointerSize)
      (serializedCmdInfo : Block (sizeOfSerializedCmdInfo pointerSize)) (memory : Memory)
  | getCommandQueueLength
  | popCommandQueue (cmdInfo : CmdInfo pointerSize)

/-- One step. A round after the last one does nothing. -/
def queueStep (host : ByteOrder) (queue : NodeQueue pointerSize) :
    QueueEvent pointerSize → Checked (NodeQueue pointerSize)
  | .addToCommandQueue cmdInfo serializedCmdInfo memory => do
      let commandQueue ←
        NodeClient.addToCommandQueue host queue.commandQueue cmdInfo serializedCmdInfo memory
      pure { queue with commandQueue := commandQueue }
  | .getCommandQueueLength =>
      pure { queue with left := NodeClient.getCommandQueueLength queue.commandQueue }
  | .popCommandQueue cmdInfo =>
      if queue.left ≤ 0 then pure queue
      else do
        let (cmdInfo, commandQueue) ←
          NodeClient.popCommandQueue host queue.commandQueue cmdInfo
        pure
          { commandQueue := commandQueue
            left := queue.left - 1
            popped := queue.popped ++ [cmdInfo] }

end Records

end RentMate.NodeClient
