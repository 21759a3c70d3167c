/-
Module: RentMate.NodeClient.Commands
Purpose: The handlers of a smart lock's node that a command of the server reaches by its opcode.
Trusted boundary: human-reviewed spec
Main exports: NodeCommand, nodeCommands, NodeCall, runNodeCommand
-/
import RentMate.Machine.Buffer

namespace RentMate.NodeClient

open RentMate.Machine

/-- The handlers that `initSharedNodeCommands` and `initNodeCommands` put into `nodeCommands`. -/
inductive NodeCommand where
  | poweroffMessage
  | serverToNodeMessage
  | rebootMessage
  | changePasscode
deriving Repr, Inhabited, DecidableEq

/-- `nodeCommands[opcode]`. Every entry that is not assigned is what `malloc` left, or lies behind
the table. -/
def nodeCommands (opcode : UInt32) : Checked NodeCommand :=
  if opcode = 0 then .ok .poweroffMessage
  else if opcode = 1 then .ok .serverToNodeMessage
  else if opcode = 2 then .ok .rebootMessage
  else if opcode = 129 then .ok .changePasscode
  else .error .invalidCall

/-- The call of a handler. -/
structure NodeCall where
  opcode : UInt32
  command : NodeCommand
  args : Bytes
  argsLen : UInt32
deriving Repr, Inhabited, DecidableEq

/-- The handler that is called. On a computer all of them only print, two of them their
arguments. -/
def runNodeCommand (call : NodeCall) : Checked Unit :=
  match call.command with
  | .poweroffMessage => .ok ()
  | .rebootMessage => .ok ()
  | .serverToNodeMessage => do
      let _ ← readBytes call.args 0 call.argsLen.toNat
      pure ()
  | .changePasscode => do
      let _ ← readBytes call.args 0 call.argsLen.toNat
      pure ()

end RentMate.NodeClient
