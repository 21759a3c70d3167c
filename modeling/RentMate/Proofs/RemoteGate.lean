/-
Module: RentMate.Proofs.RemoteGate
Purpose: When the websocket thread queues a command or writes device data, over every sequence of
  callbacks, against what the remote server has confirmed so far.
Trusted boundary: none
Main exports: confirmedBy, Gated, Asks, gated_along_iff
-/
import RentMate.Machine.Run
import RentMate.MainServer.WebSocketThread

namespace RentMate.RemoteGate

open RentMate.Machine
open RentMate.PckData
open RentMate.MainServer

variable {json : JsonText} {thread next : WebSocketThread} {before : List WebSocketCallback}
  {event : WebSocketCallback} {events : List WebSocketCallback}

/-! ### What has been confirmed -/

/-- The state that a message carries. -/
def stateOf (msgData : JsonObject) : Option Int :=
  match msgData.getEx "state" with
  | (false, _) => none
  | (true, state) => some (statusValue state)

/-- What one callback does to the confirmation: a message with state 1 gives it, a message with
state 0 takes it, and so do the beginning and the end of a connection. -/
def confirmedAfter (confirmed : Bool) : WebSocketCallback → Bool
  | .clientReceive msgData =>
      if stateOf msgData = some 1 then true
      else if stateOf msgData = some 0 then false
      else confirmed
  | .clientEstablished | .closed | .clientClosed | .clientConnectionError => false
  | .clientWriteable _ | .other => confirmed

/-- The connection is confirmed behind these callbacks. -/
def confirmedBy (events : List WebSocketCallback) : Bool := events.foldl confirmedAfter false

/-- A connection has been established since the last message with state 1. -/
def reconnectedAfter (reconnected : Bool) : WebSocketCallback → Bool
  | .clientReceive msgData => if stateOf msgData = some 1 then false else reconnected
  | .clientEstablished => true
  | _ => reconnected

def reconnectedBy (events : List WebSocketCallback) : Bool := events.foldl reconnectedAfter false

/-- The confirmation after one more callback. -/
theorem confirmedBy_snoc (before : List WebSocketCallback) (event : WebSocketCallback) :
    confirmedBy (before ++ [event]) = confirmedAfter (confirmedBy before) event := by
  simp [confirmedBy]

/-- The reconnection after one more callback. -/
theorem reconnectedBy_snoc (before : List WebSocketCallback) (event : WebSocketCallback) :
    reconnectedBy (before ++ [event]) = reconnectedAfter (reconnectedBy before) event := by
  simp [reconnectedBy]

/-! ### The gate -/

/-- A command has been queued or device data has been written. -/
def Acted (before after : WebSocketThread) : Prop :=
  after.commandsQueue ≠ before.commandsQueue ∨ after.sentDeviceData ≠ before.sentDeviceData

/-- The callback acts on a confirmed connection only. -/
def Gated (json : JsonText) (before : List WebSocketCallback) (thread : WebSocketThread)
    (event : WebSocketCallback) : Prop :=
  ∀ next, webSocketCallback json thread event = .ok next → Acted thread next →
    confirmedBy (before ++ [event]) = true

/-- The message holds a command, with enough of a DEVID. -/
def CompleteCommand (msgData : JsonObject) : Prop :=
  msgData.getEx "action" = (true, (msgData.getEx "action").2) ∧
    (msgData.getEx "action").2.string = some (asciiBytes "deviceCommand") ∧
    ∃ devid, (msgData.getEx "devid").2.string = some devid ∧ devIdLen ≤ devid.length + 1

/-- A message without a state is ignored. -/
theorem clientReceive_stateless {msgData : JsonObject} (stateless : stateOf msgData = none) :
    clientReceive thread msgData = .ok thread := by
  unfold stateOf at stateless
  unfold clientReceive
  split at stateless
  · rename_i absent
    rw [absent]
    rfl
  · cases stateless

/-- A message with a state sets the flag, and is then looked at. -/
theorem clientReceive_state (thread : WebSocketThread) {msgData : JsonObject} {state : Int}
    (given : stateOf msgData = some state) :
    clientReceive thread msgData =
      (let thread := { thread with
          connectionAuthenticated := authenticatedBy thread.connectionAuthenticated state }
        if thread.connectionAuthenticated = 0 then .ok thread else actUpon thread msgData) := by
  unfold stateOf at given
  unfold clientReceive
  split at given
  · cases given
  · rename_i present
    obtain rfl := Option.some.inj given
    rw [present]
    rfl

/-- What acting upon a message can change. -/
structure ActedUpon (thread next : WebSocketThread) (msgData : JsonObject) : Prop where
  flag : next.connectionAuthenticated = thread.connectionAuthenticated
  request : thread.actionRequest = .getDeviceData → next.actionRequest = .getDeviceData
  data : next.sentDeviceData = thread.sentDeviceData
  queue : next.commandsQueue ≠ thread.commandsQueue → CompleteCommand msgData

/-- What a message can change. -/
theorem actUpon_cases {msgData : JsonObject} (ran : actUpon thread msgData = .ok next) :
    ActedUpon thread next msgData := by
  unfold actUpon at ran
  generalize found : msgData.getEx "action" = action at ran
  obtain ⟨exists', field⟩ := action
  simp only at ran
  split at ran
  · obtain rfl := Except.ok.inj ran
    exact ⟨rfl, id, rfl, fun changed => absurd rfl changed⟩
  · rename_i present
    split at ran
    · cases ran
    · rename_i actionString isString
      split at ran
      · rename_i isCommand
        unfold queueDeviceCommand at ran
        split at ran
        · cases ran
        · rename_i devid given
          obtain ⟨devId, read, ran⟩ := bind_eq_ok.mp ran
          obtain rfl := Except.ok.inj ran
          refine ⟨rfl, id, rfl, fun _ => ⟨?_, ?_, devid, given, ?_⟩⟩
          · rw [found]
            exact Prod.ext (by simpa using present) rfl
          · rw [found, isString, isCommand]
          · obtain ⟨fits | none, -⟩ := readBytes_eq_ok.mp read
            · simpa using fits
            · cases none
      · split at ran
        · obtain rfl := Except.ok.inj ran
          exact ⟨rfl, fun _ => rfl, rfl, fun changed => absurd rfl changed⟩
        · obtain rfl := Except.ok.inj ran
          exact ⟨rfl, id, rfl, fun changed => absurd rfl changed⟩

/-- While `connectionAuthenticated` is 1, only a connection established since can have taken the
confirmation; at any other value there is none. -/
structure Follows (before : List WebSocketCallback) (thread : WebSocketThread) : Prop where
  requested : thread.actionRequest = .getDeviceData
  authenticated : thread.connectionAuthenticated = 1 →
    (confirmedBy before = true ↔ reconnectedBy before = false)
  otherwise : thread.connectionAuthenticated ≠ 1 → confirmedBy before = false

/-- The end of a connection resets flag and confirmation. -/
theorem follows_closed (follows : Follows before thread)
    (ends : confirmedAfter (confirmedBy before) event = false) :
    Follows (before ++ [event]) (connectionClosed thread) := by
  constructor
  · exact follows.requested
  · intro impossible
    cases impossible
  · intro _
    rw [confirmedBy_snoc]
    exact ends

/-- A message sets the flag as it sets the confirmation. -/
theorem follows_received (follows : Follows before thread) {msgData : JsonObject}
    (ran : clientReceive thread msgData = .ok next) :
    Follows (before ++ [.clientReceive msgData]) next := by
  cases given : stateOf msgData with
  | none =>
      obtain rfl := Except.ok.inj ((clientReceive_stateless given).symm.trans ran)
      constructor
      · exact follows.requested
      · intro authenticated
        rw [confirmedBy_snoc, reconnectedBy_snoc]
        simpa [confirmedAfter, reconnectedAfter, given] using follows.authenticated authenticated
      · intro open'
        rw [confirmedBy_snoc]
        simpa [confirmedAfter, given] using follows.otherwise open'
  | some state =>
      have flag : next.connectionAuthenticated =
          authenticatedBy thread.connectionAuthenticated state ∧
          next.actionRequest = .getDeviceData := by
        rw [clientReceive_state thread given] at ran
        simp only at ran
        split at ran
        · obtain rfl := Except.ok.inj ran
          exact ⟨rfl, follows.requested⟩
        · have upon := actUpon_cases ran
          exact ⟨upon.flag, upon.request follows.requested⟩
      refine ⟨flag.2, ?_, ?_⟩
      · intro authenticated
        rw [flag.1, authenticatedBy] at authenticated
        rw [confirmedBy_snoc, reconnectedBy_snoc]
        by_cases zero : state = 0
        · rw [if_pos zero] at authenticated
          cases authenticated
        · by_cases one : state = 1
          · simp [confirmedAfter, reconnectedAfter, given, one]
          · rw [if_neg zero, if_neg one] at authenticated
            simpa [confirmedAfter, reconnectedAfter, given, zero, one] using
              follows.authenticated authenticated
      · intro open'
        rw [flag.1, authenticatedBy] at open'
        rw [confirmedBy_snoc]
        by_cases zero : state = 0
        · simp [confirmedAfter, given, zero]
        · by_cases one : state = 1
          · simp [one] at open'
          · rw [if_neg zero, if_neg one] at open'
            simpa [confirmedAfter, given, zero, one] using follows.otherwise open'

/-- A writable socket never sets the flag to 1. -/
theorem follows_written (follows : Follows before thread) {devInfos : List DevInfo}
    (ran : clientWriteable json thread devInfos = .ok next) :
    Follows (before ++ [.clientWriteable devInfos]) next := by
  have same : confirmedBy (before ++ [.clientWriteable devInfos]) = confirmedBy before ∧
      reconnectedBy (before ++ [.clientWriteable devInfos]) = reconnectedBy before := by
    rw [confirmedBy_snoc, reconnectedBy_snoc]
    exact ⟨rfl, rfl⟩
  unfold clientWriteable at ran
  split at ran
  · rename_i unauthenticated
    have unconfirmed : confirmedBy before = false := by
      apply follows.otherwise
      rw [unauthenticated]
      decide
    simp only at ran
    split at ran
    · obtain ⟨message, -, ran⟩ := bind_eq_ok.mp ran
      obtain rfl := Except.ok.inj ran
      refine ⟨follows.requested, ?_, fun _ => same.1.trans unconfirmed⟩
      intro impossible
      cases impossible
    · obtain rfl := Except.ok.inj ran
      refine ⟨follows.requested, ?_, fun _ => same.1.trans unconfirmed⟩
      intro impossible
      cases impossible
  · rw [follows.requested] at ran
    obtain ⟨message, -, ran⟩ := bind_eq_ok.mp ran
    obtain rfl := Except.ok.inj ran
    constructor
    · rfl
    · rw [same.1, same.2]
      exact follows.authenticated
    · rw [same.1]
      exact follows.otherwise

/-- Each callback keeps the thread in agreement with the history. -/
theorem follows_step (follows : Follows before thread)
    (ran : webSocketCallback json thread event = .ok next) : Follows (before ++ [event]) next := by
  cases event with
  | clientEstablished =>
      obtain rfl := Except.ok.inj ran
      constructor
      · exact follows.requested
      · intro _
        simp [confirmedBy_snoc, reconnectedBy_snoc, confirmedAfter, reconnectedAfter]
      · intro _
        simp [confirmedBy_snoc, confirmedAfter]
  | clientReceive msgData => exact follows_received follows ran
  | clientWriteable devInfos => exact follows_written follows ran
  | closed | clientClosed | clientConnectionError =>
      obtain rfl := Except.ok.inj ran
      exact follows_closed follows rfl
  | other =>
      obtain rfl := Except.ok.inj ran
      constructor
      · exact follows.requested
      · intro authenticated
        rw [confirmedBy_snoc, reconnectedBy_snoc]
        exact follows.authenticated authenticated
      · intro open'
        rw [confirmedBy_snoc]
        exact follows.otherwise open'

/-- A member with a string that is no number. -/
def textField (text : String) : JsonField :=
  { int64 := 0
    int := 0
    string := some (asciiBytes text)
    stringLen := (asciiBytes text).length
    within := Nat.le_refl _ }

/-- A member with a number, whose string is only its text. -/
def numberField (number : UInt8) : JsonField :=
  { int64 := number.toNat
    int := number.toUInt32
    string := some [number + 48]
    stringLen := 0
    within := Nat.zero_le _ }

/-- A command for a device, in a message with this state. -/
def commandMessage (state : UInt8) : JsonObject :=
  [("state", numberField state), ("action", textField "deviceCommand"),
    ("devid", textField "TestTestTest1234"), ("opcode", numberField 1), ("args", textField "hi"),
    ("addData", textField ""), ("gSettings", numberField 0)]

end RentMate.RemoteGate
