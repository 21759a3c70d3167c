/-
Module: RentMate.Machine.Growth
Purpose: Lists that only grow: their items may be revised where they stand, and new items come
  behind them, whatever the items and the permitted revisions are.
Trusted boundary: human-reviewed spec
Main exports: Grows, Grows.trans, Grows.map_prefix
-/
import Mathlib.Data.List.Forall2
import Mathlib.Data.List.Infix

namespace RentMate.Machine

variable {α β : Type} {kept : α → α → Prop} {before between after : List α}

/-- `after` begins with the items of `before`, each revised as `kept` permits. -/
def Grows (kept : α → α → Prop) (before after : List α) : Prop :=
  ∃ revised added, after = revised ++ added ∧ List.Forall₂ kept before revised

/-- Every item has its partner. -/
theorem forall₂_mem {related : α → β → Prop} {items : List α} {partners : List β}
    (pairs : List.Forall₂ related items partners) {item : α} (inside : item ∈ items) :
    ∃ partner ∈ partners, related item partner := by
  induction pairs with
  | nil => cases inside
  | cons first _ ih =>
      rcases List.mem_cons.mp inside with rfl | behind
      · exact ⟨_, List.mem_cons_self, first⟩
      · rcases ih behind with ⟨partner, found, pair⟩
        exact ⟨partner, List.mem_cons_of_mem _ found, pair⟩

namespace Grows

/-- Revising items is a growth by nothing. -/
theorem of_revised (revisions : List.Forall₂ kept before after) : Grows kept before after :=
  ⟨after, [], by simp, revisions⟩

/-- A list that stays as it is has grown by nothing. -/
theorem refl (reflexive : ∀ item, kept item item) (items : List α) : Grows kept items items :=
  of_revised (List.forall₂_same.mpr fun item _ => reflexive item)

/-- Appending is a growth. -/
theorem append (reflexive : ∀ item, kept item item) (items added : List α) :
    Grows kept items (items ++ added) :=
  ⟨items, added, rfl, List.forall₂_same.mpr fun item _ => reflexive item⟩

/-- A growth that keeps more keeps less. -/
theorem mono {weaker : α → α → Prop} (implies : ∀ old new, kept old new → weaker old new)
    (grows : Grows kept before after) : Grows weaker before after := by
  rcases grows with ⟨revised, added, split, revisions⟩
  exact ⟨revised, added, split, revisions.imp implies⟩

/-- Revisions one after the other. -/
theorem revised_trans (transitive : ∀ {old new newer}, kept old new → kept new newer →
    kept old newer) (first : List.Forall₂ kept before between)
    (second : List.Forall₂ kept between after) : List.Forall₂ kept before after := by
  induction first generalizing after with
  | nil =>
      cases second
      exact .nil
  | cons kept _ ih =>
      cases second with
      | cons keptAgain behind => exact .cons (transitive kept keptAgain) (ih behind)

/-- Two growths after each other are one. -/
theorem trans (transitive : ∀ {old new newer}, kept old new → kept new newer → kept old newer)
    (first : Grows kept before between) (second : Grows kept between after) :
    Grows kept before after := by
  rcases first with ⟨revised, added, rfl, revisions⟩
  rcases second with ⟨again, addedLater, rfl, revisionsAgain⟩
  -- The items that were there first are revised twice, the added ones once.
  refine ⟨again.take revised.length, again.drop revised.length ++ addedLater, ?_, ?_⟩
  · rw [← List.append_assoc, List.take_append_drop]
  · refine revised_trans transitive revisions ?_
    have firstPart := List.forall₂_take revised.length revisionsAgain
    rwa [List.take_left] at firstPart

/-- No item is lost. -/
theorem mem (grows : Grows kept before after) {item : α} (inside : item ∈ before) :
    ∃ later ∈ after, kept item later := by
  rcases grows with ⟨revised, added, rfl, revisions⟩
  rcases forall₂_mem revisions inside with ⟨later, found, related⟩
  exact ⟨later, List.mem_append_left _ found, related⟩

/-- What no revision changes stays at the front. -/
theorem map_prefix {view : α → β} (fixed : ∀ old new, kept old new → view new = view old)
    (grows : Grows kept before after) : before.map view <+: after.map view := by
  rcases grows with ⟨revised, added, rfl, revisions⟩
  have same : revised.map view = before.map view := by
    induction revisions with
    | nil => rfl
    | cons revision _ ih => rw [List.map_cons, List.map_cons, fixed _ _ revision, ih]
  exact ⟨added.map view, by rw [List.map_append, same]⟩

end Grows

end RentMate.Machine
