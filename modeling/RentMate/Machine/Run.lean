/-
Module: RentMate.Machine.Run
Purpose: Runs of a system that takes one event after another and may leave defined behaviour:
  what holds of every step of a run, and the induction from one step to a whole run.
Trusted boundary: human-reviewed spec
Main exports: runFrom, Along, Throughout, along_cons, run_invariant, throughout_of_along,
  along_congr, throughout_iff_along
-/
import RentMate.Machine.Buffer
import Mathlib.Data.List.Induction

namespace RentMate.Machine

variable {σ ε : Type}

/-- The state after a list of events. -/
def runFrom (step : σ → ε → Checked σ) (start : σ) (events : List ε) : Checked σ :=
  events.foldlM step start

/-- `condition` holds at every step of the run: of the events before it, the state it starts
in and its own event. -/
def Along (step : σ → ε → Checked σ) (start : σ) (condition : List ε → σ → ε → Prop)
    (events : List ε) : Prop :=
  ∀ before event rest, events = before ++ event :: rest →
    ∀ reached, runFrom step start before = .ok reached → condition before reached event

/-- `property` holds of every state that the run reaches, the first one and the last one
included. -/
def Throughout (step : σ → ε → Checked σ) (start : σ) (property : σ → Prop) (events : List ε) :
    Prop :=
  ∀ before rest, events = before ++ rest →
    ∀ reached, runFrom step start before = .ok reached → property reached

section Stepping

variable {step : σ → ε → Checked σ} {start : σ} {condition : List ε → σ → ε → Prop}

@[simp] theorem runFrom_nil : runFrom step start [] = .ok start := rfl

/-- A run one event longer is the run and one more step. -/
theorem runFrom_snoc (events : List ε) (event : ε) :
    runFrom step start (events ++ [event]) =
      (runFrom step start events >>= fun reached => step reached event) := by
  simp [runFrom, List.foldlM_append]

/-- A run is its first step and the run behind it. -/
theorem runFrom_cons (event : ε) (events : List ε) :
    runFrom step start (event :: events) =
      (step start event >>= fun next => runFrom step next events) := rfl

/-- A run over two histories is two runs. -/
theorem runFrom_append (events more : List ε) :
    runFrom step start (events ++ more) =
      (runFrom step start events >>= fun reached => runFrom step reached more) := by
  simp only [runFrom, List.foldlM_append]

/-- A condition along a history holds along its front. -/
theorem Along.of_append {events more : List ε}
    (along : Along step start condition (events ++ more)) :
    Along step start condition events := by
  intro before event rest split
  exact along before event (rest ++ more) (by simp [split])

/-- Nothing happens along no events. -/
theorem along_nil : Along step start condition [] := by
  intro before event rest split
  simp at split

/-- A run meets a condition when its first step does and the run from there does. -/
theorem along_cons {event : ε} {events : List ε} :
    Along step start condition (event :: events) ↔
      condition [] start event ∧
        ∀ next, step start event = .ok next →
          Along step next (fun before => condition (event :: before)) events := by
  constructor
  · intro along
    refine ⟨along [] event events rfl start rfl, ?_⟩
    rintro next stepped before later rest rfl reached ran
    refine along (event :: before) later rest rfl reached ?_
    rw [runFrom_cons, stepped, ok_bind, ran]
  · rintro ⟨first, behind⟩ before later rest split reached ran
    cases before with
    | nil =>
        obtain ⟨rfl, rfl⟩ := List.cons.inj split
        obtain rfl := Except.ok.inj ran
        exact first
    | cons earlier before =>
        obtain ⟨rfl, rfl⟩ := List.cons.inj split
        rw [runFrom_cons] at ran
        obtain ⟨next, stepped, ran⟩ := bind_eq_ok.mp ran
        exact behind next stepped before later rest rfl reached ran

/-- A run meets a condition when its first part does and the run from there does. -/
theorem along_append {events more : List ε} :
    Along step start condition (events ++ more) ↔
      Along step start condition events ∧
        ∀ reached, runFrom step start events = .ok reached →
          Along step reached (fun before => condition (events ++ before)) more := by
  induction events generalizing start condition with
  | nil =>
      constructor
      · intro along
        refine ⟨along_nil, fun reached ran => ?_⟩
        obtain rfl := Except.ok.inj ran
        exact along
      · rintro ⟨-, behind⟩
        exact behind start rfl
  | cons event events ih =>
      rw [List.cons_append, along_cons, along_cons]
      constructor
      · rintro ⟨now, behind⟩
        refine ⟨⟨now, fun next stepped => (ih.mp (behind next stepped)).1⟩, ?_⟩
        intro reached ran
        rw [runFrom_cons] at ran
        obtain ⟨next, stepped, ran⟩ := bind_eq_ok.mp ran
        exact (ih.mp (behind next stepped)).2 reached ran
      · rintro ⟨⟨now, before⟩, behind⟩
        refine ⟨now, fun next stepped => ih.mpr ⟨before next stepped, fun reached ran => ?_⟩⟩
        refine behind reached ?_
        rw [runFrom_cons, stepped, ok_bind, ran]

/-- A run meets a condition when the run up to its last step does and that step does. -/
theorem along_snoc {events : List ε} {event : ε} :
    Along step start condition (events ++ [event]) ↔
      Along step start condition events ∧
        ∀ reached, runFrom step start events = .ok reached → condition events reached event := by
  rw [along_append]
  refine and_congr_right fun _ => forall₂_congr fun reached _ => ?_
  rw [along_cons, List.append_nil]
  exact ⟨And.left, fun now => ⟨now, fun _ _ => along_nil⟩⟩

/-- A weaker condition holds along the same history. -/
theorem Along.imp {weaker : List ε → σ → ε → Prop} {events : List ε}
    (along : Along step start condition events)
    (implies : ∀ before reached event, condition before reached event →
      weaker before reached event) : Along step start weaker events :=
  fun before event rest split reached ran =>
    implies before reached event (along before event rest split reached ran)

/-- Along a run that completes, only steps that complete count. -/
theorem Along.imp_of_ran {weaker : List ε → σ → ε → Prop} {final : σ} {events : List ε}
    (along : Along step start condition events) (completes : runFrom step start events = .ok final)
    (implies : ∀ before reached event next, step reached event = .ok next →
      condition before reached event → weaker before reached event) :
    Along step start weaker events := by
  rintro before event rest rfl reached ran
  rw [runFrom_append, ran, ok_bind, runFrom_cons] at completes
  obtain ⟨next, stepped, -⟩ := bind_eq_ok.mp completes
  exact implies before reached event next stepped (along before event rest rfl reached ran)

/-- Whether a run meets a condition is decided step by step. -/
def decideAlong (step : σ → ε → Checked σ) (start : σ) (condition : List ε → σ → ε → Prop)
    (decided : ∀ before reached event, Decidable (condition before reached event)) :
    (events : List ε) → Decidable (Along step start condition events)
  | [] => .isTrue along_nil
  | event :: events =>
      match stepped : step start event with
      | .error _ =>
          decidable_of_iff (condition [] start event) (by simp [along_cons, stepped])
      | .ok next =>
          have := decideAlong step next (fun before => condition (event :: before))
            (fun before => decided (event :: before)) events
          decidable_of_iff
            (condition [] start event ∧
              Along step next (fun before => condition (event :: before)) events)
            (by simp [along_cons, stepped])

instance [decided : ∀ before reached event, Decidable (condition before reached event)]
    (events : List ε) : Decidable (Along step start condition events) :=
  decideAlong step start condition decided events

/-- What holds at the start and is preserved by every step that meets the condition holds at
the end of every run whose steps all meet it, and such a run never leaves defined
behaviour. -/
theorem run_invariant (invariant : List ε → σ → Prop) (initially : invariant [] start)
    (preserved : ∀ before reached event, invariant before reached →
      condition before reached event →
      ∃ next, step reached event = .ok next ∧ invariant (before ++ [event]) next)
    {events : List ε} (along : Along step start condition events) :
    ∃ final, runFrom step start events = .ok final ∧ invariant events final := by
  induction events using List.reverseRecOn with
  | nil => exact ⟨start, rfl, initially⟩
  | append_singleton events event ih =>
      obtain ⟨reached, ran, holds⟩ := ih along.of_append
      obtain ⟨next, stepped, holdsNext⟩ :=
        preserved events reached event holds (along events event [] rfl reached ran)
      exact ⟨next, by rw [runFrom_snoc, ran, ok_bind, stepped], holdsNext⟩

/-- An invariant that every step preserves which meets the condition holds throughout every run
whose steps all meet it. -/
theorem throughout_of_along (invariant : σ → Prop) (initially : invariant start)
    (preserved : ∀ before reached event next, invariant reached →
      condition before reached event → step reached event = .ok next → invariant next)
    {events : List ε} (along : Along step start condition events) :
    Throughout step start invariant events := by
  rintro before rest rfl reached ran
  have first := along.of_append
  clear along
  induction before using List.reverseRecOn generalizing reached with
  | nil =>
      obtain rfl := Except.ok.inj ran
      exact initially
  | append_singleton before event ih =>
      rw [runFrom_snoc] at ran
      obtain ⟨earlier, ranEarlier, stepped⟩ := bind_eq_ok.mp ran
      have holds := ih earlier ranEarlier first.of_append
      exact preserved before earlier event reached holds
        (first before event [] rfl earlier ranEarlier) stepped

/-- Two conditions that agree wherever an invariant holds agree on every possible run, if the
second one carries the invariant from step to step. -/
theorem along_congr {first second possible : List ε → σ → ε → Prop}
    (invariant : List ε → σ → Prop) (initially : invariant [] start)
    (same : ∀ before reached event, invariant before reached → possible before reached event →
      (first before reached event ↔ second before reached event))
    (preserved : ∀ before reached event next, invariant before reached →
      possible before reached event → second before reached event →
      step reached event = .ok next → invariant (before ++ [event]) next)
    {events : List ε} (along : Along step start possible events) :
    Along step start first events ↔ Along step start second events := by
  induction events generalizing start first second possible invariant with
  | nil => exact ⟨fun _ => along_nil, fun _ => along_nil⟩
  | cons event events ih =>
      obtain ⟨possibleNow, possibleBehind⟩ := along_cons.mp along
      have sameNow := same [] start event initially possibleNow
      -- The conditions of the rest of the run look back over this event, too.
      have sameBehind : second [] start event → ∀ next, step start event = .ok next →
          (Along step next (fun before => first (event :: before)) events ↔
            Along step next (fun before => second (event :: before)) events) := by
        intro holds next stepped
        refine ih (fun before => invariant (event :: before))
          (preserved [] start event next initially possibleNow holds stepped) ?_ ?_
          (possibleBehind next stepped)
        · exact fun before => same (event :: before)
        · exact fun before => preserved (event :: before)
      rw [along_cons, along_cons]
      constructor
      · rintro ⟨now, behind⟩
        refine ⟨sameNow.mp now, fun next stepped => ?_⟩
        exact (sameBehind (sameNow.mp now) next stepped).mp (behind next stepped)
      · rintro ⟨now, behind⟩
        refine ⟨sameNow.mpr now, fun next stepped => ?_⟩
        exact (sameBehind now next stepped).mpr (behind next stepped)

/-- A property that holds at the start, that every step keeps which meets the condition, and that
every other step breaks, holds throughout a run exactly if all its steps meet the condition. -/
theorem throughout_iff_along {property : σ → Prop} {meets : σ → ε → Prop} (invariant : σ → Prop)
    (initially : invariant start) (begun : property start)
    (kept : ∀ reached event next, invariant reached → step reached event = .ok next →
      invariant next)
    (preserved : ∀ reached event next, invariant reached → property reached →
      meets reached event → step reached event = .ok next → property next)
    (broken : ∀ reached event, invariant reached → property reached → ¬ meets reached event →
      ∃ next, step reached event = .ok next ∧ ¬ property next)
    (events : List ε) :
    Throughout step start property events ↔
      Along step start (fun _ reached event => meets reached event) events := by
  have always : Throughout step start invariant events := by
    have free : Along step start (fun _ _ _ => True) events := fun _ _ _ _ _ _ => trivial
    exact throughout_of_along invariant initially
      (fun _ reached event next holds _ stepped => kept reached event next holds stepped) free
  constructor
  · rintro throughout before event rest rfl reached ran
    by_contra missed
    have holds := throughout before (event :: rest) rfl reached ran
    obtain ⟨next, stepped, wrong⟩ :=
      broken reached event (always before (event :: rest) rfl reached ran) holds missed
    apply wrong
    apply throughout (before ++ [event]) rest (by rw [List.append_assoc, List.singleton_append])
    rw [runFrom_snoc, ran, ok_bind, stepped]
  · intro along
    have both : Throughout step start (fun reached => invariant reached ∧ property reached)
        events := by
      refine throughout_of_along (fun reached => invariant reached ∧ property reached)
        ⟨initially, begun⟩ ?_ along
      rintro before reached event next ⟨holds, true⟩ met stepped
      exact ⟨kept reached event next holds stepped,
        preserved reached event next holds true met stepped⟩
    intro before rest split reached ran
    exact (both before rest split reached ran).2

end Stepping

end RentMate.Machine
