/-
Module: RentMate.Machine.TimerTask
Purpose: The one-shot software timers of a real-time kernel: interrupts start them through a queue
  of commands with a bounded length, and one task carries out the commands and the callbacks,
  statement by statement, so that interrupts can come between any two statements.
Trusted boundary: human-reviewed spec
Main exports: TimerTask, TimerTask.request, TimerTask.takeCommand, TimerTask.expire,
  TimerTask.advance, TimerTask.Due, TimerTask.Pending, TimerTask.uses, TimerTask.work
-/
import Mathlib.Data.List.Count
import Mathlib.Tactic.Common

namespace RentMate.Machine

/-- The commands to start timers that wait for the task, the timers that run, and the statements
that are left of the callback that the task is in.

The kernel's timer service is taken as it is documented, and these facts about it are assumed: the
commands wait in a queue of bounded length, first in, first out; a start from an interrupt fails
only when that queue is full; one task carries out the commands and the callbacks, one callback at a
time and to its end; a timer that is started while it runs begins again and expires once; and
nothing but these timers uses the queue. When a timer expires is left open. -/
structure TimerTask (τ α : Type) where
  commands : List τ
  active : List τ
  running : List α
deriving DecidableEq

namespace TimerTask

variable {τ α : Type}

/-- No timer has been started. -/
def idle : TimerTask τ α := { commands := [], active := [], running := [] }

/-- An interrupt asks for a timer to be started. That fails when `capacity` commands wait. -/
def request (capacity : Nat) (task : TimerTask τ α) (timer : τ) : TimerTask τ α × Bool :=
  if task.commands.length < capacity then
    ({ task with commands := task.commands ++ [timer] }, true)
  else (task, false)

section Task

variable [DecidableEq τ]

/-- Between two callbacks the task carries out the command that has waited longest. A timer that
runs already starts again. -/
def takeCommand (task : TimerTask τ α) : TimerTask τ α :=
  match task.running, task.commands with
  | [], timer :: rest =>
      { task with
        commands := rest
        active := timer :: task.active.filter (· ≠ timer) }
  | _, _ => task

/-- Between two callbacks a timer that runs may expire. -/
def expire (callback : τ → List α) (task : TimerTask τ α) (timer : τ) : TimerTask τ α :=
  match task.running with
  | [] =>
      if timer ∈ task.active then
        { task with
          active := task.active.filter (· ≠ timer)
          running := callback timer }
      else task
  | _ => task

end Task

/-- The next statement of the callback has been executed. -/
def advance (task : TimerTask τ α) : TimerTask τ α := { task with running := task.running.tail }

section Running

variable {capacity : Nat} {task : TimerTask τ α} {timer : τ}

/-- An interrupt does not touch the callback that it comes into. -/
@[simp] theorem running_request :
    (task.request capacity timer).1.running = task.running := by
  rw [request]
  split <;> rfl

variable [DecidableEq τ]

@[simp] theorem running_takeCommand : task.takeCommand.running = task.running := by
  rw [takeCommand]
  split <;> rfl

/-- An expiry starts a callback if none is running. -/
theorem running_expire (callback : τ → List α) (task : TimerTask τ α) (timer : τ) :
    (task.expire callback timer).running = task.running ∨
      task.running = [] ∧ (task.expire callback timer).running = callback timer := by
  rw [expire]
  split
  · rename_i running
    split
    · exact .inr ⟨running, rfl⟩
    · exact .inl rfl
  · exact .inl rfl

end Running

/-! ### What is still to come -/

/-- The statement is still to be executed for the timer. -/
def Due (task : TimerTask τ α) (timer : τ) (statement : α) : Prop :=
  timer ∈ task.commands ∨ timer ∈ task.active ∨ statement ∈ task.running

/-- Nothing is still to come. -/
def Quiet (task : TimerTask τ α) : Prop :=
  task.commands = [] ∧ task.active = [] ∧ task.running = []

section Due

variable {capacity : Nat} {task : TimerTask τ α} {timer other : τ} {statement : α}
  {callback : τ → List α}

/-- The idle task owes nothing. -/
theorem not_due_idle : ¬ (idle : TimerTask τ α).Due timer statement := by
  simp [Due, idle]

/-- A quiet task owes nothing. -/
theorem Quiet.not_due (quiet : task.Quiet) : ¬ task.Due timer statement := by
  obtain ⟨commands, active, running⟩ := quiet
  simp [Due, commands, active, running]

/-- While there is room a start is queued. -/
theorem request_started (room : task.commands.length < capacity) :
    task.request capacity timer = ({ task with commands := task.commands ++ [timer] }, true) :=
  if_pos room

/-- Without room a start is refused. -/
theorem request_failed (full : ¬ task.commands.length < capacity) :
    task.request capacity timer = (task, false) :=
  if_neg full

/-- A start makes the statements of its own timer due, if there is room for the command. -/
theorem due_request_iff :
    (task.request capacity other).1.Due timer statement ↔
      task.Due timer statement ∨ other = timer ∧ task.commands.length < capacity := by
  by_cases room : task.commands.length < capacity
  · rw [request_started room, Due, Due, List.mem_append, List.mem_singleton, eq_comm]
    tauto
  · rw [request_failed room]
    constructor
    · exact .inl
    · rintro (due | ⟨-, started⟩)
      · exact due
      · exact absurd started room

/-- A further start takes nothing away. -/
theorem Due.request (due : task.Due timer statement) (capacity : Nat) (other : τ) :
    (task.request capacity other).1.Due timer statement :=
  due_request_iff.mpr (.inl due)

/-- A command takes a place from the ones behind it. -/
theorem room_behind_request (more : Nat) :
    (task.request capacity timer).1.commands.length + more < capacity ↔
      task.commands.length + (more + 1) < capacity := by
  by_cases room : task.commands.length < capacity
  · rw [request_started room, List.length_append, List.length_singleton, Nat.add_assoc,
      Nat.add_comm 1]
  · simp only [request_failed room]
    omega

/-- A started timer takes one place of the queue. -/
theorem room_request :
    (task.request capacity timer).1.commands.length < capacity ↔
      task.commands.length + 1 < capacity :=
  room_behind_request 0

/-- Another statement may run in between. -/
theorem Due.advance (due : task.Due timer statement)
    (other : task.running.head? ≠ some statement) : task.advance.Due timer statement := by
  apply due.imp_right (Or.imp_right _)
  intro inside
  cases running : task.running with
  | nil =>
      rw [running] at inside
      cases inside
  | cons next rest =>
      rw [running] at inside other
      rw [TimerTask.advance, running]
      rcases List.mem_cons.mp inside with rfl | behind
      · exact absurd rfl other
      · exact behind

/-- Running a statement adds nothing that is due. -/
theorem due_of_advance (due : task.advance.Due timer statement) : task.Due timer statement :=
  due.imp_right (Or.imp_right List.mem_of_mem_tail)

variable [DecidableEq τ]

/-- What is due stays due when a command is taken. -/
theorem Due.takeCommand (due : task.Due timer statement) :
    task.takeCommand.Due timer statement := by
  rw [TimerTask.takeCommand]
  split
  · rename_i next rest running commands
    rcases due with waiting | active | inside
    · rw [commands] at waiting
      rcases List.mem_cons.mp waiting with rfl | behind
      · exact .inr (.inl List.mem_cons_self)
      · exact .inl behind
    · right
      left
      by_cases same : timer = next
      · rw [same]
        exact List.mem_cons_self
      · apply List.mem_cons_of_mem
        simp [active, same]
    · exact .inr (.inr inside)
  · exact due

/-- Taking a command adds nothing that is due. -/
theorem due_of_takeCommand (due : task.takeCommand.Due timer statement) :
    task.Due timer statement := by
  rw [TimerTask.takeCommand] at due
  split at due
  · rename_i next rest running commands
    rcases due with waiting | active | inside
    · left
      rw [commands]
      exact List.mem_cons_of_mem next waiting
    · rcases List.mem_cons.mp active with rfl | old
      · left
        rw [commands]
        exact List.mem_cons_self
      · exact .inr (.inl (List.mem_filter.mp old).1)
    · exact .inr (.inr inside)
  · exact due

/-- What is due for a timer stays due whichever timer expires. -/
theorem Due.expire (due : task.Due timer statement) (inside : statement ∈ callback timer) :
    (task.expire callback other).Due timer statement := by
  rw [TimerTask.expire]
  split
  · rename_i running
    split
    · rcases due with waiting | active | left
      · exact .inl waiting
      · right
        by_cases same : timer = other
        · rw [← same]
          exact .inr inside
        · left
          simp [active, same]
      · rw [running] at left
        cases left
    · exact due
  · exact due

/-- A callback that another timer has begins without the statement. -/
theorem due_of_expire (foreign : other ≠ timer → statement ∉ callback other)
    (due : (task.expire callback other).Due timer statement) : task.Due timer statement := by
  rw [TimerTask.expire] at due
  split at due
  · split at due
    · rename_i activeOther
      rcases due with waiting | active | inside
      · exact .inl waiting
      · exact .inr (.inl (List.mem_filter.mp active).1)
      · by_cases same : other = timer
        · rw [← same]
          exact .inr (.inl activeOther)
        · exact absurd inside (foreign same)
    · exact due
  · exact due

/-- The statement is still to be executed, for whichever timer. -/
def Pending (callback : τ → List α) (task : TimerTask τ α) (statement : α) : Prop :=
  (∃ timer, statement ∈ callback timer ∧ (timer ∈ task.commands ∨ timer ∈ task.active)) ∨
    statement ∈ task.running

omit [DecidableEq τ] in
/-- A statement of one timer alone is pending exactly if it is due. -/
theorem pending_iff_due (own : ∀ other, statement ∈ callback other ↔ other = timer) :
    task.Pending callback statement ↔ task.Due timer statement := by
  simp [Pending, Due, own, or_assoc]

omit [DecidableEq τ] in
/-- A statement of a timer that is due is pending. -/
theorem pending_of_due (inside : statement ∈ callback timer) (due : task.Due timer statement) :
    task.Pending callback statement := by
  rcases due with waiting | active | running
  · exact .inl ⟨timer, inside, .inl waiting⟩
  · exact .inl ⟨timer, inside, .inr active⟩
  · exact .inr running

omit [DecidableEq τ] in
/-- A pending statement is due for one of the timers that run it. -/
theorem Pending.due (pending : task.Pending callback statement)
    (owner : statement ∈ callback timer) :
    ∃ timer, statement ∈ callback timer ∧ task.Due timer statement := by
  rcases pending with ⟨started, inside, waiting | active⟩ | running
  · exact ⟨started, inside, .inl waiting⟩
  · exact ⟨started, inside, .inr (.inl active)⟩
  · exact ⟨timer, owner, .inr (.inr running)⟩

omit [DecidableEq τ] in
/-- Nothing is pending for a quiet task. -/
theorem Quiet.not_pending (quiet : task.Quiet) : ¬ task.Pending callback statement := by
  obtain ⟨commands, active, running⟩ := quiet
  simp [Pending, commands, active, running]

omit [DecidableEq τ] in
/-- A further start takes nothing away. -/
theorem Pending.request (pending : task.Pending callback statement) (capacity : Nat) (other : τ) :
    (task.request capacity other).1.Pending callback statement := by
  by_cases room : task.commands.length < capacity
  · rw [request_started room]
    rcases pending with ⟨timer, inside, waiting | active⟩ | running
    · exact .inl ⟨timer, inside, .inl (List.mem_append_left _ waiting)⟩
    · exact .inl ⟨timer, inside, .inr active⟩
    · exact .inr running
  · rw [request_failed room]
    exact pending

/-- What the timer task does between two statements neither loses a statement nor adds one. -/
theorem pending_takeCommand_iff (owner : statement ∈ callback timer) :
    task.takeCommand.Pending callback statement ↔ task.Pending callback statement := by
  constructor
  · intro pending
    obtain ⟨started, inside, due⟩ := pending.due owner
    exact pending_of_due inside (due_of_takeCommand due)
  · intro pending
    obtain ⟨started, inside, due⟩ := pending.due owner
    exact pending_of_due inside due.takeCommand

/-- An expiry changes nothing about what is pending. -/
theorem pending_expire_iff (owner : statement ∈ callback timer) :
    (task.expire callback other).Pending callback statement ↔
      task.Pending callback statement := by
  constructor
  · intro pending
    rw [TimerTask.expire] at pending
    split at pending
    · split at pending
      · rename_i active
        rcases pending with ⟨started, inside, waiting | left⟩ | begun
        · exact .inl ⟨started, inside, .inl waiting⟩
        · exact .inl ⟨started, inside, .inr (List.mem_filter.mp left).1⟩
        · exact .inl ⟨other, begun, .inr active⟩
      · exact pending
    · exact pending
  · intro pending
    obtain ⟨started, inside, due⟩ := pending.due owner
    exact pending_of_due inside (due.expire inside)

omit [DecidableEq τ] in
/-- Another statement changes nothing about what is pending. -/
theorem pending_advance_iff (owner : statement ∈ callback timer)
    (other : task.running.head? ≠ some statement) :
    task.advance.Pending callback statement ↔ task.Pending callback statement := by
  constructor
  · intro pending
    obtain ⟨started, inside, due⟩ := pending.due owner
    exact pending_of_due inside (due_of_advance due)
  · intro pending
    obtain ⟨started, inside, due⟩ := pending.due owner
    exact pending_of_due inside (due.advance other)

end Due

/-! ### How often -/

section Uses

variable [DecidableEq τ] [DecidableEq α] {capacity : Nat} {task : TimerTask τ α}
  {timer other : τ} {statement : α} {callback : τ → List α}

/-- How often the statement is still to be executed for the timer. -/
def uses (task : TimerTask τ α) (timer : τ) (statement : α) : Nat :=
  task.commands.count timer + task.active.count timer + task.running.count statement

/-- There is a use left exactly if the statement is due. -/
theorem uses_pos : 0 < task.uses timer statement ↔ task.Due timer statement := by
  rw [uses, Due, ← List.count_pos_iff, ← List.count_pos_iff, ← List.count_pos_iff]
  omega

/-- Each start that is not lost gives one more use. -/
theorem uses_started (room : task.commands.length < capacity) :
    (task.request capacity timer).1.uses timer statement = task.uses timer statement + 1 := by
  simp only [request_started room, uses, List.count_append, List.count_singleton_self]
  omega

/-- The start of another timer gives none. -/
theorem uses_request (different : other ≠ timer) :
    (task.request capacity other).1.uses timer statement = task.uses timer statement := by
  by_cases room : task.commands.length < capacity
  · simp [request_started room, uses, List.count_append, different]
  · rw [request_failed room]

/-- A command that is carried out puts its timer from one list into the other. -/
theorem uses_takeCommand (once : task.uses timer statement ≤ 1) :
    task.takeCommand.uses timer statement = task.uses timer statement := by
  rw [takeCommand]
  split
  · rename_i next rest running commands
    simp only [uses, commands, List.count_cons, beq_iff_eq] at once ⊢
    by_cases same : next = timer
    · subst same
      have none : (task.active.filter (· ≠ next)).count next = 0 := by
        rw [List.count_eq_zero]
        simp
      rw [none]
      simp only [if_true] at once ⊢
      omega
    · have kept : (task.active.filter (· ≠ next)).count timer = task.active.count timer :=
        List.count_filter (by simpa using Ne.symm same)
      rw [kept, if_neg same]
      omega
  · rfl

/-- A timer that expires leaves its statement to the callback. -/
theorem uses_expire (once : task.uses timer statement ≤ 1)
    (own : (callback timer).count statement = 1)
    (foreign : other ≠ timer → (callback other).count statement = 0) :
    (task.expire callback other).uses timer statement = task.uses timer statement := by
  rw [expire]
  split
  · rename_i running
    split
    · rename_i active
      simp only [uses, running, List.count_nil] at once ⊢
      by_cases same : other = timer
      · subst same
        have none : (task.active.filter (· ≠ other)).count other = 0 := by
          rw [List.count_eq_zero]
          simp
        have some := List.count_pos_iff.mpr active
        rw [none, own]
        omega
      · have kept : (task.active.filter (· ≠ other)).count timer = task.active.count timer :=
          List.count_filter (by simpa using Ne.symm same)
        rw [kept, foreign same]
    · rfl
  · rfl

/-- Running the statement takes one use. -/
theorem uses_advance_self {rest : List α} (running : task.running = statement :: rest) :
    task.advance.uses timer statement + 1 = task.uses timer statement := by
  simp only [uses, advance, running, List.tail_cons, List.count_cons_self]
  omega

/-- Running another statement takes none. -/
theorem uses_advance (other : task.running.head? ≠ some statement) :
    task.advance.uses timer statement = task.uses timer statement := by
  cases running : task.running with
  | nil => simp [uses, advance, running]
  | cons next rest =>
      rw [running] at other
      have different : next ≠ statement := fun same => other (congrArg some same)
      simp [uses, advance, running, different]

end Uses

/-! ### Coming to rest -/

section Work

variable [DecidableEq τ] {task : TimerTask τ α} {timer : τ} {callback : τ → List α} {longest : Nat}

/-- A bound for what the task has still to do, if no callback is longer than `longest`. -/
def work (longest : Nat) (task : TimerTask τ α) : Nat :=
  task.commands.length * (longest + 2) + task.active.length * (longest + 1) + task.running.length

/-- An expired timer is no longer among the active ones. -/
theorem length_filter_lt (inside : timer ∈ task.active) :
    (task.active.filter (· ≠ timer)).length + 1 ≤ task.active.length := by
  apply List.length_filter_lt_length_iff_exists.mpr
  exact ⟨timer, inside, by simp⟩

/-- Taking a command leaves less to do. -/
theorem work_takeCommand {rest : List τ} (running : task.running = [])
    (commands : task.commands = timer :: rest) :
    task.takeCommand.work longest < task.work longest := by
  have shorter : (task.active.filter (· ≠ timer)).length ≤ task.active.length :=
    List.length_filter_le _ _
  have product := Nat.mul_le_mul_right (longest + 1) shorter
  rw [takeCommand, running, commands]
  simp only [work, running, commands, List.length_cons, List.length_nil, Nat.succ_mul]
  omega

/-- An expiry leaves less to do. -/
theorem work_expire (running : task.running = []) (active : timer ∈ task.active)
    (short : (callback timer).length ≤ longest) :
    (task.expire callback timer).work longest < task.work longest := by
  have shorter := length_filter_lt active
  have product := Nat.mul_le_mul_right (longest + 1) shorter
  rw [expire, running]
  simp only [if_pos active, work, running, List.length_nil, Nat.succ_mul] at product ⊢
  omega

omit [DecidableEq τ] in
/-- So does every statement of a callback. -/
theorem work_advance (begun : task.running ≠ []) :
    task.advance.work longest < task.work longest := by
  have positive := List.length_pos_iff.mpr begun
  simp only [work, advance, List.length_tail]
  omega

end Work

end TimerTask

end RentMate.Machine
