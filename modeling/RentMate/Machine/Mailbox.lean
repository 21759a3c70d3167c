/-
Module: RentMate.Machine.Mailbox
Purpose: What a store of pending items is for, whatever keys and items it holds: an item
  posted under a key waits until that key is collected, and a collection delivers everything
  that waits under its key in the order it was posted.
Trusted boundary: human-reviewed spec
Main exports: MailboxEvent, Mailbox, Mailbox.step, Mailbox.run, posted, run_accounts
-/
import Mathlib.Data.List.Induction
import Mathlib.Logic.Function.Basic

namespace RentMate.Machine

/-- What can happen to a store of items kept under keys. -/
inductive MailboxEvent (κ α : Type) where
  | post (key : κ) (item : α)
  | collect (key : κ)
deriving Repr, DecidableEq

/-- The items that wait under every key, and the items delivered from it so far. -/
structure Mailbox (κ α : Type) where
  waiting : κ → List α
  delivered : κ → List α

namespace Mailbox

variable {κ α : Type} [DecidableEq κ]

/-- Nothing posted yet. -/
def empty : Mailbox κ α := { waiting := fun _ => [], delivered := fun _ => [] }

/-- One event of the ideal store. -/
def step (mailbox : Mailbox κ α) : MailboxEvent κ α → Mailbox κ α
  | .post key item =>
      { mailbox with
        waiting := Function.update mailbox.waiting key (mailbox.waiting key ++ [item]) }
  | .collect key =>
      { waiting := Function.update mailbox.waiting key []
        delivered :=
          Function.update mailbox.delivered key
            (mailbox.delivered key ++ mailbox.waiting key) }

/-- A history of events, from nothing. -/
def run (events : List (MailboxEvent κ α)) : Mailbox κ α :=
  events.foldl step empty

/-- The items posted under a key, in order. -/
def posted (key : κ) (events : List (MailboxEvent κ α)) : List α :=
  events.filterMap fun
    | .post under item => if under = key then some item else none
    | .collect _ => none

section Events

variable (mailbox : Mailbox κ α) {key other : κ} {item : α}

@[simp] theorem step_post_waiting :
    (mailbox.step (.post key item)).waiting key = mailbox.waiting key ++ [item] := by
  simp [step]

@[simp] theorem step_post_delivered :
    (mailbox.step (.post key item)).delivered other = mailbox.delivered other := rfl

@[simp] theorem step_collect_waiting : (mailbox.step (.collect key)).waiting key = [] := by
  simp [step]

/-- A collection delivers what was waiting, behind what was delivered before. -/
@[simp] theorem step_collect_delivered :
    (mailbox.step (.collect key)).delivered key =
      mailbox.delivered key ++ mailbox.waiting key := by
  simp [step]

/-- A post does not touch what waits under another key. -/
theorem step_post_waiting_of_ne (different : other ≠ key) :
    (mailbox.step (.post key item)).waiting other = mailbox.waiting other := by
  simp [step, different]

/-- A collection does not touch what waits under another key. -/
theorem step_collect_waiting_of_ne (different : other ≠ key) :
    (mailbox.step (.collect key)).waiting other = mailbox.waiting other := by
  simp [step, different]

/-- A collection does not touch what was delivered under another key. -/
theorem step_collect_delivered_of_ne (different : other ≠ key) :
    (mailbox.step (.collect key)).delivered other = mailbox.delivered other := by
  simp [step, different]

end Events

/-- A run one event longer is the run and one more step. -/
theorem run_snoc (events : List (MailboxEvent κ α)) (event : MailboxEvent κ α) :
    run (events ++ [event]) = (run events).step event := by
  simp [run]

/-- What was posted after one more event. -/
theorem posted_snoc (key : κ) (events : List (MailboxEvent κ α))
    (event : MailboxEvent κ α) :
    posted key (events ++ [event]) = posted key events ++ posted key [event] := by
  simp [posted]

/-- No item is lost, repeated or reordered: what a key has delivered, followed by what still
waits under it, is what was posted under it. -/
theorem run_accounts (events : List (MailboxEvent κ α)) (key : κ) :
    (run events).delivered key ++ (run events).waiting key = posted key events := by
  induction events using List.reverseRecOn with
  | nil => simp [run, empty, posted]
  | append_singleton events event accounts =>
      rw [run_snoc, posted_snoc, ← accounts]
      cases event with
      | post under item =>
          by_cases same : under = key
          · subst same
            simp [posted, List.append_assoc]
          · rw [step_post_waiting_of_ne _ (Ne.symm same)]
            simp [posted, same]
      | collect under =>
          by_cases same : under = key
          · subst same
            simp [posted]
          · rw [step_collect_waiting_of_ne _ (Ne.symm same),
              step_collect_delivered_of_ne _ (Ne.symm same)]
            simp [posted]

end Mailbox

end RentMate.Machine
