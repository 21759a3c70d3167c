/-
Module: RentMate.Machine.Upsert
Purpose: Lists of items with keys in which an item replaces the one with its key, or comes last if
  there is none.
Trusted boundary: human-reviewed spec
Main exports: reviseOrAppend, upsert, map_reviseOrAppend_iff
-/
import Mathlib.Data.List.Nodup

namespace RentMate.Machine

variable {α β κ : Type} [DecidableEq κ]

/-- The items with the wanted key are revised. If there is none, an item is added behind the
others. -/
def reviseOrAppend (key : α → κ) (wanted : κ) (revise : α → α) (added : α)
    (items : List α) : List α :=
  if wanted ∈ items.map key then
    items.map fun item => if key item = wanted then revise item else item
  else items ++ [added]

/-- The items with the key of the new one are replaced by it. If there is none, it is added behind
the others. -/
def upsert (key : α → κ) (new : α) (items : List α) : List α :=
  reviseOrAppend key (key new) (fun _ => new) new items

section Laws

variable {key : α → κ} {wanted : κ} {revise : α → α} {added : α} {items : List α}

/-- A new key is appended. -/
theorem reviseOrAppend_absent (absent : wanted ∉ items.map key) :
    reviseOrAppend key wanted revise added items = items ++ [added] :=
  if_neg absent

/-- A known key is revised in its place. -/
theorem reviseOrAppend_present (present : wanted ∈ items.map key) :
    reviseOrAppend key wanted revise added items =
      items.map fun item => if key item = wanted then revise item else item :=
  if_pos present

/-- A revision that keeps the key adds at most the wanted one to the keys. -/
theorem map_key_reviseOrAppend (keeps : ∀ item, key (revise item) = key item)
    (own : key added = wanted) :
    (reviseOrAppend key wanted revise added items).map key =
      if wanted ∈ items.map key then items.map key else items.map key ++ [wanted] := by
  by_cases present : wanted ∈ items.map key
  · rw [reviseOrAppend_present present, if_pos present, List.map_map]
    apply List.map_congr_left
    intro item _
    simp only [Function.comp_apply]
    split
    · exact keeps item
    · rfl
  · rw [reviseOrAppend_absent present, if_neg present, List.map_append, List.map_singleton, own]

/-- Distinct keys stay distinct. -/
theorem nodup_reviseOrAppend (keeps : ∀ item, key (revise item) = key item)
    (own : key added = wanted) (distinct : (items.map key).Nodup) :
    ((reviseOrAppend key wanted revise added items).map key).Nodup := by
  rw [map_key_reviseOrAppend keeps own]
  split
  · exact distinct
  · rename_i absent
    rw [← List.concat_eq_append]
    exact distinct.concat absent

/-- A view that keeps the keys turns one revision into another exactly if it does so at every item
that is revised. -/
theorem map_reviseOrAppend_iff {otherKey : β → κ} {view : α → β} {otherRevise : β → β}
    (sameKey : ∀ item, otherKey (view item) = key item) :
    (reviseOrAppend key wanted revise added items).map view =
        reviseOrAppend otherKey wanted otherRevise (view added) (items.map view) ↔
      ∀ item ∈ items, key item = wanted → view (revise item) = otherRevise (view item) := by
  have keys : (items.map view).map otherKey = items.map key := by
    rw [List.map_map]
    exact List.map_congr_left fun item _ => sameKey item
  by_cases present : wanted ∈ items.map key
  · rw [reviseOrAppend_present present, reviseOrAppend_present (keys ▸ present), List.map_map,
      List.map_map, List.map_inj_left]
    constructor
    · intro agree item inside own
      have same := agree item inside
      simpa only [Function.comp_apply, sameKey, own, if_true] using same
    · intro agree item inside
      simp only [Function.comp_apply, sameKey]
      split
      · rename_i own
        exact agree item inside own
      · rfl
  · rw [reviseOrAppend_absent present, reviseOrAppend_absent (by rw [keys]; exact present),
      List.map_append, List.map_singleton]
    refine iff_of_true rfl fun item inside own => ?_
    exact absurd (List.mem_map.mpr ⟨item, inside, own⟩) present

end Laws

end RentMate.Machine
