/-
Module: RentMate.MainServer.CommandQueue
Purpose: The server's list of commands that wait for a device, with the two operations the
  websocket and the epoll thread apply to it. Both hold `commandsQueueMux` from their first
  access to their last, so each is one step.
Trusted boundary: human-reviewed spec
Main exports: CommandRequestCommand, CommandRequest, addToCommandQueue, sendQueuedMessages
-/
import RentMate.Machine.Buffer

namespace RentMate.MainServer

open RentMate.Machine

/-- `commandRequestCommand_t`. A pointer is the bytes it points to, or `none` for `NULL`. -/
structure CommandRequestCommand where
  opCode : UInt32
  argsPtr : Option Bytes
  argsLen : UInt32
  addPtr : Option Bytes
  addLen : UInt8
  gSettings : UInt32
deriving Repr, Inhabited, DecidableEq

/-- `commandRequest_t`: the commands that wait for one device. -/
structure CommandRequest where
  devId : Bytes
  commandRequestsCommands : List CommandRequestCommand
deriving Repr, Inhabited, DecidableEq

/-- `removeFromList`: the items behind the index move down by one. -/
def removeFromList {α : Type} (arrayLst : List α) (index : Nat) : List α :=
  arrayLst.eraseIdx index

/-- `addToCommandQueue`. The search appends to every entry of the device that it meets, and
the creation of a new entry follows it whether or not it met one. -/
def addToCommandQueue (commandsQueue : List CommandRequest) (devId : Bytes)
    (command : CommandRequestCommand) : List CommandRequest :=
  let extended := commandsQueue.map fun request =>
    if request.devId = devId then
      { request with
        commandRequestsCommands := request.commandRequestsCommands ++ [command] }
    else request
  extended ++ [{ devId := devId, commandRequestsCommands := [command] }]

section Sending

variable {σ : Type} (sendOffCommand : CommandRequestCommand → σ → Checked σ) (devId : Bytes)

/-- The commands of one entry, in list order. -/
def sendOffCommands (commands : List CommandRequestCommand) (state : σ) : Checked σ :=
  commands.foldlM (fun reached command => sendOffCommand command reached) state

/-- The index loop of `sendQueuedMessages`. The fuel bounds the number of iterations; the
loop itself ends when `i` reaches the length of the list, which it reads again every time. -/
def sendQueuedMessagesFrom :
    Nat → Nat → List CommandRequest → σ → Checked (List CommandRequest × σ)
  | 0, _, commandsQueue, state => .ok (commandsQueue, state)
  | fuel + 1, i, commandsQueue, state =>
      match commandsQueue[i]? with
      | none => .ok (commandsQueue, state)
      | some commandsRequest =>
          if commandsRequest.devId = devId then do
            let state ← sendOffCommands sendOffCommand
              commandsRequest.commandRequestsCommands state
            -- The entry behind the removed one is now at `i`, and the loop goes on at `i + 1`.
            sendQueuedMessagesFrom fuel (i + 1) (removeFromList commandsQueue i) state
          else
            sendQueuedMessagesFrom fuel (i + 1) commandsQueue state

/-- `sendQueuedMessages` for the device `devId`, over what `sendOffCommand` acts on. -/
def sendQueuedMessages (commandsQueue : List CommandRequest) (state : σ) :
    Checked (List CommandRequest × σ) :=
  sendQueuedMessagesFrom sendOffCommand devId commandsQueue.length 0 commandsQueue state

end Sending

/-! ### What one call hands over and what it leaves -/

/-- The commands one call of `sendQueuedMessages` hands over: those of every entry of the
device that does not directly follow a removed one. -/
def handedOver (devId : Bytes) : List CommandRequest → List CommandRequestCommand
  | [] => []
  | [request] => if request.devId = devId then request.commandRequestsCommands else []
  | request :: next :: rest =>
      if request.devId = devId then request.commandRequestsCommands ++ handedOver devId rest
      else handedOver devId (next :: rest)

/-- The entries one call of `sendQueuedMessages` leaves in the list. -/
def leftBehind (devId : Bytes) : List CommandRequest → List CommandRequest
  | [] => []
  | [request] => if request.devId = devId then [] else [request]
  | request :: next :: rest =>
      if request.devId = devId then next :: leftBehind devId rest
      else request :: leftBehind devId (next :: rest)

section LoopMeaning

variable {σ : Type} (sendOffCommand : CommandRequestCommand → σ → Checked σ) (devId : Bytes)

@[simp] theorem sendOffCommands_nil (state : σ) :
    sendOffCommands sendOffCommand [] state = .ok state := rfl

/-- Sending off two lists of commands is sending off one after the other. -/
theorem sendOffCommands_append (first second : List CommandRequestCommand) (state : σ) :
    sendOffCommands sendOffCommand (first ++ second) state =
      (sendOffCommands sendOffCommand first state >>=
        sendOffCommands sendOffCommand second) := by
  simp only [sendOffCommands, List.foldlM_append]
  rfl

/-- The loop ends behind the last entry. -/
private theorem sendQueuedMessagesFrom_end (front : List CommandRequest) (fuel : Nat)
    (state : σ) :
    sendQueuedMessagesFrom sendOffCommand devId fuel front.length front state =
      .ok (front, state) := by
  cases fuel <;> simp [sendQueuedMessagesFrom]

/-- An entry of another device is passed over. -/
private theorem sendQueuedMessagesFrom_miss (front rest : List CommandRequest)
    {request : CommandRequest} (miss : request.devId ≠ devId) (fuel : Nat) (state : σ) :
    sendQueuedMessagesFrom sendOffCommand devId (fuel + 1) front.length
        (front ++ request :: rest) state =
      sendQueuedMessagesFrom sendOffCommand devId fuel (front ++ [request]).length
        ((front ++ [request]) ++ rest) state := by
  rw [sendQueuedMessagesFrom, List.getElem?_append_right (Nat.le_refl _)]
  simp [miss]

/-- An entry of the device is handed over and removed, and the next one is passed over. -/
private theorem sendQueuedMessagesFrom_hit (front rest : List CommandRequest)
    {request : CommandRequest} (hit : request.devId = devId) (fuel : Nat) (state : σ) :
    sendQueuedMessagesFrom sendOffCommand devId (fuel + 1) front.length
        (front ++ request :: rest) state =
      (sendOffCommands sendOffCommand request.commandRequestsCommands state >>= fun reached =>
        sendQueuedMessagesFrom sendOffCommand devId fuel (front.length + 1) (front ++ rest)
          reached) := by
  rw [sendQueuedMessagesFrom, List.getElem?_append_right (Nat.le_refl _)]
  simp [hit, removeFromList, List.eraseIdx_append_of_length_le]

/-- The loop from any entry on, with enough iterations left. -/
theorem sendQueuedMessagesFrom_eq (front rest : List CommandRequest) (fuel : Nat)
    (enough : rest.length ≤ fuel) (state : σ) :
    sendQueuedMessagesFrom sendOffCommand devId fuel front.length (front ++ rest) state =
      (do
        let reached ← sendOffCommands sendOffCommand (handedOver devId rest) state
        pure (front ++ leftBehind devId rest, reached)) := by
  induction rest using handedOver.induct devId generalizing front fuel state with
  | case1 =>
      simpa [handedOver, leftBehind] using
        sendQueuedMessagesFrom_end sendOffCommand devId front fuel state
  | case2 request hit =>
      obtain ⟨fuel, rfl⟩ : ∃ less, fuel = less + 1 := ⟨fuel - 1, by simp at enough; omega⟩
      rw [sendQueuedMessagesFrom_hit sendOffCommand devId front [] hit]
      simp only [handedOver, leftBehind, hit, if_true, List.append_nil]
      -- The index is one past the end of the shortened list.
      cases fuel <;> simp [sendQueuedMessagesFrom]
  | case3 request miss =>
      obtain ⟨fuel, rfl⟩ : ∃ less, fuel = less + 1 := ⟨fuel - 1, by simp at enough; omega⟩
      rw [sendQueuedMessagesFrom_miss sendOffCommand devId front [] miss, List.append_nil,
        sendQueuedMessagesFrom_end]
      simp [handedOver, leftBehind, miss]
  | case4 request next rest hit ih =>
      obtain ⟨fuel, rfl⟩ : ∃ less, fuel = less + 1 := ⟨fuel - 1, by simp at enough; omega⟩
      have behindSkipped : front.length + 1 = (front ++ [next]).length := by simp
      have skipped : front ++ next :: rest = (front ++ [next]) ++ rest := by simp
      have fewer : rest.length ≤ fuel := by simp at enough; omega
      rw [sendQueuedMessagesFrom_hit sendOffCommand devId front (next :: rest) hit]
      simp only [handedOver, leftBehind, hit, if_true, sendOffCommands_append, bind_assoc]
      refine bind_congr fun reached => ?_
      rw [behindSkipped, skipped, ih (front ++ [next]) fuel fewer reached]
      simp
  | case5 request next rest miss ih =>
      obtain ⟨fuel, rfl⟩ : ∃ less, fuel = less + 1 := ⟨fuel - 1, by simp at enough; omega⟩
      have fewer : (next :: rest).length ≤ fuel := by simp at enough ⊢; omega
      rw [sendQueuedMessagesFrom_miss sendOffCommand devId front (next :: rest) miss,
        ih (front ++ [request]) fuel fewer state]
      simp [handedOver, leftBehind, miss]

/-- One call hands over `handedOver` and leaves `leftBehind`. -/
theorem sendQueuedMessages_eq (commandsQueue : List CommandRequest) (state : σ) :
    sendQueuedMessages sendOffCommand devId commandsQueue state =
      (do
        let reached ←
          sendOffCommands sendOffCommand (handedOver devId commandsQueue) state
        pure (leftBehind devId commandsQueue, reached)) := by
  simpa [sendQueuedMessages] using
    sendQueuedMessagesFrom_eq sendOffCommand devId [] commandsQueue commandsQueue.length
      (Nat.le_refl _) state

end LoopMeaning

end RentMate.MainServer
