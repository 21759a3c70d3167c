/-
Module: RentMate.Proofs.CommandQueueFifo
Purpose: The command queue against the mailbox it stands for: over which histories of calls
  every command reaches `sendOffCommand` once, for its own device and in order.
Trusted boundary: none
Main exports: QueueCall, history, ExactlyOnceFifo, exactlyOnceFifo_iff_atMostOneWaiting
-/
import RentMate.Machine.Mailbox
import RentMate.MainServer.CommandQueue

namespace RentMate.CommandQueueFifo

open RentMate.Machine
open RentMate.MainServer

/-! ### Histories of calls -/

/-- One call under `commandsQueueMux`. -/
inductive QueueCall where
  | addToCommandQueue (devId : Bytes) (command : CommandRequestCommand)
  | sendQueuedMessages (devId : Bytes)
deriving Repr, DecidableEq

/-- What the call means to the mailbox. -/
def QueueCall.event : QueueCall → MailboxEvent Bytes CommandRequestCommand
  | .addToCommandQueue devId command => .post devId command
  | .sendQueuedMessages devId => .collect devId

/-- The shared list, and every command handed to `sendOffCommand` with the device it was
handed over for. -/
structure QueueState where
  commandsQueue : List CommandRequest
  handed : List (Bytes × CommandRequestCommand)
deriving Repr, DecidableEq

namespace QueueState

/-- The commands handed over for a device, in order. -/
def handedFor (state : QueueState) (devId : Bytes) : List CommandRequestCommand :=
  state.handed.filterMap fun (target, command) => if target = devId then some command else none

/-- The commands of a device that are still in the list. -/
def pendingFor (state : QueueState) (devId : Bytes) : List CommandRequestCommand :=
  state.commandsQueue.flatMap fun request =>
    if request.devId = devId then request.commandRequestsCommands else []

/-- One call, with a `sendOffCommand` that records what it is given. -/
def call (state : QueueState) : QueueCall → Checked QueueState
  | .addToCommandQueue devId command =>
      .ok { state with commandsQueue := addToCommandQueue state.commandsQueue devId command }
  | .sendQueuedMessages devId => do
      let (commandsQueue, handed) ←
        sendQueuedMessages (fun command handed => .ok (handed ++ [(devId, command)])) devId
          state.commandsQueue state.handed
      pure { commandsQueue := commandsQueue, handed := handed }

end QueueState

/-- The state after a history of calls, from an empty list. -/
def history (calls : List QueueCall) : Checked QueueState :=
  calls.foldlM QueueState.call { commandsQueue := [], handed := [] }

/-- The mailbox after the same history. -/
def mailboxOf (calls : List QueueCall) : Mailbox Bytes CommandRequestCommand :=
  Mailbox.run (calls.map QueueCall.event)

/-- After the calls `before`, one more call serves every device: each has been handed what its
mailbox has delivered, and a `sendQueuedMessages` leaves nothing for its own device and
everything for the others. -/
def ServedAt (before : List QueueCall) (call : QueueCall) : Prop :=
  ∃ reached next, history before = .ok reached ∧ reached.call call = .ok next ∧
    (∀ devId, next.handedFor devId = (mailboxOf (before ++ [call])).delivered devId) ∧
    ∀ devId, call = .sendQueuedMessages devId →
      next.pendingFor devId = [] ∧
        ∀ other, other ≠ devId → next.pendingFor other = reached.pendingFor other

/-- Every call of the history serves every device. -/
def ExactlyOnceFifo (calls : List QueueCall) : Prop :=
  ∀ before call rest, calls = before ++ call :: rest → ServedAt before call

/-- No `sendQueuedMessages` of the history finds two commands waiting for its device. -/
def AtMostOneWaiting (calls : List QueueCall) : Prop :=
  ∀ before devId rest, calls = before ++ .sendQueuedMessages devId :: rest →
    ((mailboxOf before).waiting devId).length ≤ 1

/-- A history is continued by one more call. -/
theorem history_snoc (calls : List QueueCall) (call : QueueCall) :
    history (calls ++ [call]) = (history calls >>= fun reached => reached.call call) := by
  simp [history, List.foldlM_append]

/-- The mailbox of a history is continued by one more call. -/
theorem mailboxOf_snoc (calls : List QueueCall) (call : QueueCall) :
    mailboxOf (calls ++ [call]) = (mailboxOf calls).step call.event := by
  simp [mailboxOf, Mailbox.run_snoc]

/-! ### The entries of one device -/

/-- The command lists of the entries of a device, in list order. -/
def entriesFor (devId : Bytes) (commandsQueue : List CommandRequest) :
    List (List CommandRequestCommand) :=
  (commandsQueue.filter fun request => request.devId = devId).map
    CommandRequest.commandRequestsCommands

section Entries

variable {devId : Bytes} {request : CommandRequest} (rest : List CommandRequest)

@[simp] theorem entriesFor_nil : entriesFor devId [] = [] := rfl

/-- An entry of the device counts for it. -/
theorem entriesFor_cons_of_eq (hit : request.devId = devId) :
    entriesFor devId (request :: rest) =
      request.commandRequestsCommands :: entriesFor devId rest := by
  simp [entriesFor, hit]

/-- An entry of another device does not. -/
theorem entriesFor_cons_of_ne (miss : request.devId ≠ devId) :
    entriesFor devId (request :: rest) = entriesFor devId rest := by
  simp [entriesFor, miss]

end Entries

/-- The non-empty tails of a list, longest first. -/
def nonemptyTails {α : Type} : List α → List (List α)
  | [] => []
  | item :: items => (item :: items) :: nonemptyTails items

/-- An item at the end lengthens every tail and adds one. -/
theorem nonemptyTails_snoc {α : Type} (items : List α) (last : α) :
    nonemptyTails (items ++ [last]) =
      (nonemptyTails items).map (· ++ [last]) ++ [[last]] := by
  induction items with
  | nil => rfl
  | cons item items ih => simp [nonemptyTails, ih]

/-- With two items or more, the tails together hold more items than there are. -/
theorem length_lt_flatten_nonemptyTails {α : Type} (first second : α) (items : List α) :
    (first :: second :: items).length <
      (nonemptyTails (first :: second :: items)).flatten.length := by
  simp [nonemptyTails]

/-- What waits for a device is what its entries hold, in order. -/
theorem pendingFor_eq_flatten (state : QueueState) (devId : Bytes) :
    state.pendingFor devId = (entriesFor devId state.commandsQueue).flatten := by
  simp only [QueueState.pendingFor, entriesFor]
  induction state.commandsQueue with
  | nil => rfl
  | cons request rest ih =>
      by_cases same : request.devId = devId <;> simp [same, ih]

/-- Adding a command extends every entry of its device and makes one more. -/
theorem entriesFor_addToCommandQueue (commandsQueue : List CommandRequest) (devId : Bytes)
    (command : CommandRequestCommand) :
    entriesFor devId (addToCommandQueue commandsQueue devId command) =
      (entriesFor devId commandsQueue).map (· ++ [command]) ++ [[command]] := by
  induction commandsQueue with
  | nil => simp [entriesFor, addToCommandQueue]
  | cons request rest ih =>
      by_cases same : request.devId = devId <;>
        simpa [entriesFor, addToCommandQueue, same] using ih

/-- A command for one device leaves the entries of the others. -/
theorem entriesFor_addToCommandQueue_of_ne (commandsQueue : List CommandRequest)
    {devId other : Bytes} (command : CommandRequestCommand) (different : other ≠ devId) :
    entriesFor other (addToCommandQueue commandsQueue devId command) =
      entriesFor other commandsQueue := by
  induction commandsQueue with
  | nil => simp [entriesFor, addToCommandQueue, Ne.symm different]
  | cons request rest ih =>
      by_cases same : request.devId = devId
      · have notOther : ¬ devId = other := fun equal => different equal.symm
        simpa [entriesFor, addToCommandQueue, same, notOther] using ih
      · by_cases hit : request.devId = other
        · simpa [entriesFor, addToCommandQueue, hit, different] using ih
        · simpa [entriesFor, addToCommandQueue, same, hit] using ih

/-- A call of `sendQueuedMessages` leaves the entries of other devices alone. -/
theorem entriesFor_leftBehind_of_ne {devId other : Bytes} (different : other ≠ devId)
    (commandsQueue : List CommandRequest) :
    entriesFor other (leftBehind devId commandsQueue) = entriesFor other commandsQueue := by
  have notOther : ¬ devId = other := fun equal => different equal.symm
  induction commandsQueue using leftBehind.induct devId with
  | case1 => rfl
  | case2 request hit => simp [leftBehind, entriesFor, hit, notOther]
  | case3 request miss => simp [leftBehind, miss]
  | case4 request next rest hit ih =>
      by_cases skipped : next.devId = other <;>
        simpa [leftBehind, entriesFor, hit, notOther, skipped] using ih
  | case5 request next rest miss ih =>
      by_cases kept : request.devId = other
      · simpa [leftBehind, entriesFor, miss, kept, different] using ih
      · simpa [leftBehind, entriesFor, miss, kept] using ih

/-- No command of the device is lost by one call: each is handed over or stays. -/
theorem length_handedOver_add_leftBehind (devId : Bytes)
    (commandsQueue : List CommandRequest) :
    (handedOver devId commandsQueue).length +
        (entriesFor devId (leftBehind devId commandsQueue)).flatten.length =
      (entriesFor devId commandsQueue).flatten.length := by
  induction commandsQueue using leftBehind.induct devId with
  | case1 => rfl
  | case2 request hit => simp [handedOver, leftBehind, entriesFor, hit]
  | case3 request miss => simp [handedOver, leftBehind, entriesFor, miss]
  | case4 request next rest hit ih =>
      by_cases skipped : next.devId = devId <;>
        simp [handedOver, leftBehind, entriesFor, hit, skipped] at ih ⊢ <;> omega
  | case5 request next rest miss ih =>
      simpa [handedOver, leftBehind, entriesFor, miss] using ih

/-- A device with no entry is handed nothing, and the list stays as it is. -/
theorem handedOver_of_no_entry {devId : Bytes} {commandsQueue : List CommandRequest}
    (none : entriesFor devId commandsQueue = []) :
    handedOver devId commandsQueue = [] ∧ leftBehind devId commandsQueue = commandsQueue := by
  induction commandsQueue using leftBehind.induct devId with
  | case1 => exact ⟨rfl, rfl⟩
  | case2 request hit => simp [entriesFor, hit] at none
  | case3 request miss => simp [handedOver, leftBehind, miss]
  | case4 request next rest hit ih => simp [entriesFor, hit] at none
  | case5 request next rest miss ih =>
      have noneBehind : entriesFor devId (next :: rest) = [] := by
        simpa [entriesFor, miss] using none
      simpa [handedOver, leftBehind, miss] using ih noneBehind

/-- A device with one entry is handed exactly that entry. -/
theorem handedOver_of_one_entry {devId : Bytes} {commandsQueue : List CommandRequest}
    {commands : List CommandRequestCommand}
    (one : entriesFor devId commandsQueue = [commands]) :
    handedOver devId commandsQueue = commands ∧
      entriesFor devId (leftBehind devId commandsQueue) = [] := by
  induction commandsQueue using leftBehind.induct devId with
  | case1 => simp [entriesFor] at one
  | case2 request hit => simpa [handedOver, leftBehind, entriesFor, hit] using one
  | case3 request miss => simp [entriesFor, miss] at one
  | case4 request next rest hit ih =>
      rw [entriesFor_cons_of_eq _ hit, List.cons.injEq] at one
      obtain ⟨onlyCommands, noneBehind⟩ := one
      -- The skipped entry is of another device, since this device has only one.
      have skippedMisses : next.devId ≠ devId := by
        intro skipped
        simp [entriesFor_cons_of_eq _ skipped] at noneBehind
      rw [entriesFor_cons_of_ne _ skippedMisses] at noneBehind
      obtain ⟨nothing, kept⟩ := handedOver_of_no_entry noneBehind
      refine ⟨by simp [handedOver, hit, nothing, onlyCommands], ?_⟩
      simp [leftBehind, hit, kept, entriesFor_cons_of_ne _ skippedMisses, noneBehind]
  | case5 request next rest miss ih =>
      have oneBehind : entriesFor devId (next :: rest) = [commands] := by
        simpa [entriesFor, miss] using one
      simpa [handedOver, leftBehind, entriesFor, miss] using ih oneBehind

/-! ### Later entries of a device -/

/-- Every later entry of a device only repeats commands of the earlier ones. -/
def Nested (commandsQueue : List CommandRequest) : Prop :=
  ∀ devId, (entriesFor devId commandsQueue).Pairwise fun earlier later => later ⊆ earlier

/-- A new command keeps the entries nested. -/
theorem nested_addToCommandQueue {commandsQueue : List CommandRequest}
    (nested : Nested commandsQueue) (devId : Bytes) (command : CommandRequestCommand) :
    Nested (addToCommandQueue commandsQueue devId command) := by
  intro other
  by_cases same : other = devId
  · subst same
    rw [entriesFor_addToCommandQueue, List.pairwise_append]
    refine ⟨?_, List.pairwise_singleton _ _, ?_⟩
    · rw [List.pairwise_map]
      exact (nested other).imp fun contained => List.append_subset.mpr
        ⟨fun _ known => List.mem_append_left _ (contained known), List.subset_append_right _ _⟩
    · intro extended known alone last
      obtain ⟨commands, -, rfl⟩ := List.mem_map.mp known
      obtain rfl := List.mem_singleton.mp last
      exact List.subset_append_right _ _
  · rw [entriesFor_addToCommandQueue_of_ne _ _ same]
    exact nested other

/-- A release only removes entries. -/
theorem leftBehind_sublist (devId : Bytes) (commandsQueue : List CommandRequest) :
    (leftBehind devId commandsQueue).Sublist commandsQueue := by
  induction commandsQueue using leftBehind.induct devId with
  | case1 => exact List.Sublist.refl _
  | case2 request hit => simp [leftBehind, hit]
  | case3 request miss => simp [leftBehind, miss]
  | case4 request next rest hit ih => simpa [leftBehind, hit] using .cons request (.cons_cons next ih)
  | case5 request next rest miss ih => simpa [leftBehind, miss] using ih

/-- A release keeps the entries nested. -/
theorem nested_leftBehind {commandsQueue : List CommandRequest} (nested : Nested commandsQueue)
    (devId : Bytes) : Nested (leftBehind devId commandsQueue) :=
  fun other =>
    (nested other).sublist (((leftBehind_sublist devId commandsQueue).filter _).map _)

/-- The first entry of a device is always handed over. -/
theorem first_subset_handedOver {devId : Bytes} {commandsQueue : List CommandRequest}
    {first : List CommandRequestCommand} {later : List (List CommandRequestCommand)}
    (entries : entriesFor devId commandsQueue = first :: later) :
    first ⊆ handedOver devId commandsQueue := by
  induction commandsQueue using handedOver.induct devId with
  | case1 => cases entries
  | case2 request hit =>
      rw [entriesFor_cons_of_eq _ hit] at entries
      obtain ⟨rfl, -⟩ := List.cons.inj entries
      simp [handedOver, hit]
  | case3 request miss =>
      rw [entriesFor_cons_of_ne _ miss] at entries
      cases entries
  | case4 request next rest hit ih =>
      rw [entriesFor_cons_of_eq _ hit] at entries
      obtain ⟨rfl, -⟩ := List.cons.inj entries
      rw [handedOver, if_pos hit]
      exact List.subset_append_left _ _
  | case5 request next rest miss ih =>
      rw [entriesFor_cons_of_ne _ miss] at entries
      rw [handedOver, if_neg miss]
      exact ih entries

/-- Where later entries only repeat commands, every command of a device is handed over. -/
theorem subset_handedOver {devId : Bytes} {commandsQueue : List CommandRequest}
    (nested : Nested commandsQueue) {commands : List CommandRequestCommand}
    (queued : commands ∈ entriesFor devId commandsQueue) :
    commands ⊆ handedOver devId commandsQueue := by
  have ordered := nested devId
  cases entries : entriesFor devId commandsQueue with
  | nil => simp [entries] at queued
  | cons first later =>
      have handed := first_subset_handedOver entries
      rw [entries] at queued ordered
      rcases List.mem_cons.mp queued with rfl | behind
      · exact handed
      · exact List.Subset.trans ((List.pairwise_cons.mp ordered).1 commands behind) handed

/-! ### One call -/

/-- A release hands over what the entries of the device hold. -/
theorem call_sendQueuedMessages (state : QueueState) (devId : Bytes) :
    state.call (.sendQueuedMessages devId) =
      .ok
        { commandsQueue := leftBehind devId state.commandsQueue
          handed :=
            state.handed ++
              (handedOver devId state.commandsQueue).map fun command => (devId, command) } := by
  have recorded : ∀ (commands : List CommandRequestCommand)
      (handed : List (Bytes × CommandRequestCommand)),
      sendOffCommands (fun command handed => .ok (handed ++ [(devId, command)])) commands handed =
        .ok (handed ++ commands.map fun command => (devId, command)) := by
    intro commands
    induction commands with
    | nil => simp
    | cons command commands ih =>
        intro handed
        simpa [sendOffCommands] using ih (handed ++ [(devId, command)])
  simp [QueueState.call, sendQueuedMessages_eq, recorded]

/-- What has been handed over to a device in two parts. -/
theorem handedFor_append (commandsQueue other : List CommandRequest)
    (handed more : List (Bytes × CommandRequestCommand)) (devId : Bytes) :
    (QueueState.mk commandsQueue (handed ++ more)).handedFor devId =
      (QueueState.mk other handed).handedFor devId ++
        (QueueState.mk other more).handedFor devId := by
  simp [QueueState.handedFor]

/-- Commands that are handed over to one device reach no other. -/
theorem handedFor_map (commandsQueue : List CommandRequest) (target devId : Bytes)
    (commands : List CommandRequestCommand) :
    (QueueState.mk commandsQueue (commands.map fun command => (target, command))).handedFor
        devId = if target = devId then commands else [] := by
  by_cases same : target = devId <;> simp [QueueState.handedFor, same]

/-! ### Runs -/

/-- What a history keeps true while no call finds two commands waiting: the entries of a
device are the tails of what waits for it, and what it was handed is what was delivered. -/
structure TracksMailbox (state : QueueState) (mailbox : Mailbox Bytes CommandRequestCommand) :
    Prop where
  entries : ∀ devId,
    entriesFor devId state.commandsQueue = nonemptyTails (mailbox.waiting devId)
  handed : ∀ devId, state.handedFor devId = mailbox.delivered devId

/-- The queue and the mailbox take a new command alike. -/
theorem tracksMailbox_add {state : QueueState}
    {mailbox : Mailbox Bytes CommandRequestCommand} (tracks : TracksMailbox state mailbox)
    (devId : Bytes) (command : CommandRequestCommand) :
    TracksMailbox
      { state with commandsQueue := addToCommandQueue state.commandsQueue devId command }
      (mailbox.step (.post devId command)) where
  entries := by
    intro other
    by_cases same : other = devId
    · subst same
      rw [entriesFor_addToCommandQueue, tracks.entries, Mailbox.step_post_waiting,
        nonemptyTails_snoc]
    · rw [entriesFor_addToCommandQueue_of_ne _ _ same, tracks.entries,
        Mailbox.step_post_waiting_of_ne _ same]
  handed := by
    intro other
    rw [Mailbox.step_post_delivered]
    exact tracks.handed other

/-- With at most one command waiting, a call hands over exactly what waits. -/
theorem handedOver_of_tracks {state : QueueState}
    {mailbox : Mailbox Bytes CommandRequestCommand} (tracks : TracksMailbox state mailbox)
    {devId : Bytes} (atMostOne : (mailbox.waiting devId).length ≤ 1) :
    handedOver devId state.commandsQueue = mailbox.waiting devId ∧
      entriesFor devId (leftBehind devId state.commandsQueue) = [] := by
  have entries := tracks.entries devId
  rcases waiting : mailbox.waiting devId with _ | ⟨command, _ | ⟨second, rest⟩⟩
  · rw [waiting] at entries
    obtain ⟨nothing, kept⟩ := handedOver_of_no_entry entries
    exact ⟨nothing, by rw [kept, entries, nonemptyTails]⟩
  · rw [waiting] at entries
    exact handedOver_of_one_entry entries
  · simp [waiting] at atMostOne

/-- With one command at most, the queue and the mailbox are released alike. -/
theorem tracksMailbox_send {state : QueueState}
    {mailbox : Mailbox Bytes CommandRequestCommand} (tracks : TracksMailbox state mailbox)
    {devId : Bytes} (atMostOne : (mailbox.waiting devId).length ≤ 1) :
    TracksMailbox
      { commandsQueue := leftBehind devId state.commandsQueue
        handed :=
          state.handed ++
            (handedOver devId state.commandsQueue).map fun command => (devId, command) }
      (mailbox.step (.collect devId)) := by
  obtain ⟨exactly, emptied⟩ := handedOver_of_tracks tracks atMostOne
  constructor
  · intro other
    by_cases same : other = devId
    · subst same
      rw [emptied, Mailbox.step_collect_waiting, nonemptyTails]
    · rw [entriesFor_leftBehind_of_ne same, tracks.entries,
        Mailbox.step_collect_waiting_of_ne _ same]
  · intro other
    rw [handedFor_append _ [], handedFor_map, exactly]
    have before : (QueueState.mk [] state.handed).handedFor other =
        mailbox.delivered other := tracks.handed other
    by_cases same : devId = other
    · subst same
      rw [before, if_pos rfl, Mailbox.step_collect_delivered]
    · rw [before, if_neg same, List.append_nil,
        Mailbox.step_collect_delivered_of_ne _ (Ne.symm same)]

/-- The condition holds of every shorter history. -/
theorem AtMostOneWaiting.of_snoc {calls : List QueueCall} {call : QueueCall}
    (timely : AtMostOneWaiting (calls ++ [call])) : AtMostOneWaiting calls := by
  intro before devId rest split
  exact timely before devId (rest ++ [call]) (by simp [split])

/-- The run lemma: a history in which no call finds two commands waiting tracks its mailbox. -/
theorem history_tracksMailbox {calls : List QueueCall} (timely : AtMostOneWaiting calls) :
    ∃ reached, history calls = .ok reached ∧ TracksMailbox reached (mailboxOf calls) := by
  induction calls using List.reverseRecOn with
  | nil => exact ⟨_, rfl, fun _ => rfl, fun _ => rfl⟩
  | append_singleton calls call ih =>
      obtain ⟨reached, ran, tracks⟩ := ih timely.of_snoc
      rw [history_snoc, ran, ok_bind, mailboxOf_snoc]
      cases call with
      | addToCommandQueue devId command =>
          exact ⟨_, rfl, tracksMailbox_add tracks devId command⟩
      | sendQueuedMessages devId =>
          have atMostOne := timely calls devId [] rfl
          exact ⟨_, call_sendQueuedMessages reached devId, tracksMailbox_send tracks atMostOne⟩

/-- A call that finds two or more commands waiting does not serve its device: it leaves some
of them or hands some over twice. -/
theorem not_servedAt_of_two_waiting {calls : List QueueCall} {devId : Bytes}
    (timely : AtMostOneWaiting calls)
    (several : 1 < ((mailboxOf calls).waiting devId).length) :
    ¬ ServedAt calls (.sendQueuedMessages devId) := by
  rintro ⟨reached, next, ran, called, handed, emptied⟩
  obtain ⟨tracked, ranTracked, tracks⟩ := history_tracksMailbox timely
  obtain rfl : reached = tracked := by rw [ran] at ranTracked; exact Except.ok.inj ranTracked
  rw [call_sendQueuedMessages] at called
  obtain rfl := Except.ok.inj called
  have handedNow := handed devId
  rw [mailboxOf_snoc, QueueCall.event, Mailbox.step_collect_delivered, handedFor_append _ [],
    handedFor_map, if_pos rfl] at handedNow
  have before : (QueueState.mk [] reached.handed).handedFor devId =
      (mailboxOf calls).delivered devId := tracks.handed devId
  rw [before, List.append_cancel_left_eq] at handedNow
  have leftNothing := (emptied devId rfl).1
  rw [pendingFor_eq_flatten] at leftNothing
  have accounts := length_handedOver_add_leftBehind devId reached.commandsQueue
  rw [leftNothing, handedNow, tracks.entries devId] at accounts
  rcases waiting : (mailboxOf calls).waiting devId with _ | ⟨first, _ | ⟨second, rest⟩⟩
  · simp [waiting] at several
  · simp [waiting] at several
  · rw [waiting] at accounts
    have more := length_lt_flatten_nonemptyTails first second rest
    simp only [List.length_nil] at accounts
    omega

/-- A call that finds one command at most is served as the mailbox serves it. -/
theorem servedAt_of_atMostOne {calls : List QueueCall} (timely : AtMostOneWaiting calls)
    {call : QueueCall}
    (atMostOne : ∀ devId, call = .sendQueuedMessages devId →
      ((mailboxOf calls).waiting devId).length ≤ 1) :
    ServedAt calls call := by
  obtain ⟨reached, ran, tracks⟩ := history_tracksMailbox timely
  cases call with
  | addToCommandQueue devId command =>
      refine ⟨reached, _, ran, rfl, fun other => ?_, fun other impossible => by simp at impossible⟩
      rw [mailboxOf_snoc]
      exact (tracksMailbox_add tracks devId command).handed other
  | sendQueuedMessages devId =>
      have tracksNext := tracksMailbox_send tracks (atMostOne devId rfl)
      refine ⟨reached, _, ran, call_sendQueuedMessages reached devId, fun other => ?_, ?_⟩
      · rw [mailboxOf_snoc]
        exact tracksNext.handed other
      · rintro target same
        obtain rfl : devId = target := by simpa using same
        obtain ⟨-, emptied⟩ := handedOver_of_tracks tracks (atMostOne devId rfl)
        refine ⟨by rw [pendingFor_eq_flatten, emptied, List.flatten_nil], fun other different => ?_⟩
        rw [pendingFor_eq_flatten, pendingFor_eq_flatten,
          entriesFor_leftBehind_of_ne different]

/-- In every list that calls have left, later entries only repeat commands. -/
theorem history_nested {calls : List QueueCall} {reached : QueueState}
    (ran : history calls = .ok reached) : Nested reached.commandsQueue := by
  induction calls using List.reverseRecOn generalizing reached with
  | nil =>
      obtain rfl := Except.ok.inj ran
      exact fun devId => List.Pairwise.nil
  | append_singleton calls call ih =>
      rw [history_snoc] at ran
      obtain ⟨before, ranBefore, called⟩ := bind_eq_ok.mp ran
      cases call with
      | addToCommandQueue devId command =>
          obtain rfl := Except.ok.inj called
          exact nested_addToCommandQueue (ih ranBefore) devId command
      | sendQueuedMessages devId =>
          rw [call_sendQueuedMessages] at called
          obtain rfl := Except.ok.inj called
          exact nested_leftBehind (ih ranBefore) devId

/-- Every command reaches its device once and in order exactly when no call of
`sendQueuedMessages` finds two commands waiting for its device. -/
theorem exactlyOnceFifo_iff_atMostOneWaiting (calls : List QueueCall) :
    ExactlyOnceFifo calls ↔ AtMostOneWaiting calls := by
  constructor
  · intro served
    -- The first call that finds two waiting is not served, so there is none.
    induction calls using List.reverseRecOn with
    | nil => intro before devId rest split; simp at split
    | append_singleton calls call ih =>
        have timely : AtMostOneWaiting calls := by
          apply ih
          intro before call' rest split
          exact served before call' (rest ++ [call]) (by simp [split])
        intro before devId rest split
        rcases List.eq_nil_or_concat rest with empty | ⟨rest, last, concat⟩
        · subst empty
          obtain ⟨rfl, same⟩ := List.append_inj' split rfl
          obtain rfl : call = .sendQueuedMessages devId := by simpa using same
          by_contra several
          exact not_servedAt_of_two_waiting timely (by omega) (served calls _ [] rfl)
        · subst concat
          have split' : calls ++ [call] =
              (before ++ .sendQueuedMessages devId :: rest) ++ [last] := by
            simpa using split
          obtain ⟨rfl, -⟩ := List.append_inj' split' rfl
          exact timely before devId rest rfl
  · intro timely before call rest split
    have timelyBefore : AtMostOneWaiting before := by
      intro earlier devId later splitBefore
      exact timely earlier devId (later ++ call :: rest) (by simp [split, splitBefore])
    refine servedAt_of_atMostOne timelyBefore fun devId same => ?_
    exact timely before devId rest (by rw [split, same])

/-- Two commands queued for one device and then one call: the second command was also put into
an entry of its own, and that entry stays behind. -/
theorem not_exactlyOnceFifo_of_two_queued :
    let devId : Bytes := List.replicate 16 84
    let lock : CommandRequestCommand :=
      { opCode := 129, argsPtr := none, argsLen := 0, addPtr := none, addLen := 0,
        gSettings := 0 }
    let unlock : CommandRequestCommand := { lock with opCode := 130 }
    ¬ ExactlyOnceFifo
      [.addToCommandQueue devId lock, .addToCommandQueue devId unlock,
        .sendQueuedMessages devId] := by
  intro devId lock unlock served
  obtain ⟨reached, next, ran, called, -, emptied⟩ :=
    served [.addToCommandQueue devId lock, .addToCommandQueue devId unlock]
      (.sendQueuedMessages devId) [] rfl
  obtain rfl := Except.ok.inj ran
  obtain rfl := Except.ok.inj called
  have leftNothing := (emptied devId rfl).1
  exact absurd leftNothing (by decide)

end RentMate.CommandQueueFifo
