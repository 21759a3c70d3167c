/-
Module: RentMate.Machine.PolynomialHash
Purpose: Hashes that evaluate a polynomial at a secret point, one coefficient after the other: what
  the polynomial of a list is, when two lists have the same one, and for how many points two
  different lists can differ by a given value.
Trusted boundary: human-reviewed spec
Main exports: hashFrom, hashPolynomial, hashFrom_eq_eval, hashPolynomial_injective,
  hashPolynomial_last, points_few
-/
import Mathlib.Algebra.Polynomial.Roots
import Mathlib.Tactic.Ring

namespace RentMate.Machine

open Polynomial

section Hash

variable {R : Type} [CommRing R]

/-- Each element is added, and the sum is multiplied by the point. -/
def hashFrom (point : R) : R → List R → R
  | sum, [] => sum
  | sum, element :: rest => hashFrom point ((sum + element) * point) rest

/-- The first element has the highest power, and the last one has the first power. -/
noncomputable def hashPolynomial : List R → R[X]
  | [] => 0
  | element :: rest => C element * X ^ (rest.length + 1) + hashPolynomial rest

variable {point sum : R} {elements others : List R}

/-- Hashing two parts is hashing the second from where the first ended. -/
theorem hashFrom_append (point sum : R) (elements others : List R) :
    hashFrom point sum (elements ++ others) =
      hashFrom point (hashFrom point sum elements) others := by
  induction elements generalizing sum with
  | nil => rfl
  | cons element rest ih => exact ih _

/-- A hash is the value of the polynomial of its elements, and of the sum it began with. -/
theorem hashFrom_eq (point sum : R) (elements : List R) :
    hashFrom point sum elements =
      sum * point ^ elements.length + (hashPolynomial elements).eval point := by
  induction elements generalizing sum with
  | nil => simp [hashFrom, hashPolynomial]
  | cons element rest ih =>
      rw [hashFrom, ih, hashPolynomial, eval_add, eval_mul, eval_C, eval_pow, eval_X,
        List.length_cons]
      ring

/-- The hash is the value of the polynomial at the point. -/
theorem hashFrom_eq_eval (point : R) (elements : List R) :
    hashFrom point 0 elements = (hashPolynomial elements).eval point := by
  rw [hashFrom_eq, zero_mul, zero_add]

/-- The polynomial has no more coefficients than there are elements. -/
theorem natDegree_hashPolynomial_le (elements : List R) :
    (hashPolynomial elements).natDegree ≤ elements.length := by
  induction elements with
  | nil => simp [hashPolynomial]
  | cons element rest ih =>
      refine (natDegree_add_le _ _).trans (max_le ?_ (ih.trans (Nat.le_succ _)))
      exact natDegree_C_mul_X_pow_le _ _

/-- Above the number of elements all coefficients vanish. -/
theorem coeff_hashPolynomial_of_lt {i : Nat} (outside : elements.length < i) :
    (hashPolynomial elements).coeff i = 0 :=
  coeff_eq_zero_of_natDegree_lt (lt_of_le_of_lt (natDegree_hashPolynomial_le elements) outside)

/-- The polynomial has no constant coefficient. -/
theorem coeff_hashPolynomial_zero (elements : List R) :
    (hashPolynomial elements).coeff 0 = 0 := by
  induction elements with
  | nil => simp [hashPolynomial]
  | cons element rest ih => simp [hashPolynomial, ih, coeff_X_pow]

/-- Lists of one length that have the same polynomial are the same. -/
theorem hashPolynomial_injective (length : elements.length = others.length)
    (same : hashPolynomial elements = hashPolynomial others) : elements = others := by
  induction elements generalizing others with
  | nil => exact (List.length_eq_zero_iff.mp length.symm).symm
  | cons element rest ih =>
      cases others with
      | nil => cases length
      | cons first more =>
          have lengths : rest.length = more.length := Nat.succ.inj length
          have head : element = first := by
            have top := congrArg (fun p => coeff p (rest.length + 1)) same
            simpa [hashPolynomial, ← lengths, coeff_hashPolynomial_of_lt, coeff_X_pow] using top
          rw [hashPolynomial, hashPolynomial, head, lengths] at same
          rw [head, ih lengths (add_left_cancel same)]

/-- The last element is the coefficient of the first power. -/
theorem hashPolynomial_last (elements : List R) (last : R) :
    (hashPolynomial (elements ++ [last])).coeff 1 = last := by
  induction elements with
  | nil => simp [hashPolynomial]
  | cons element rest ih =>
      rw [List.cons_append, hashPolynomial, coeff_add, ih, coeff_C_mul, coeff_X_pow, if_neg]
      · simp
      · simp

end Hash

section Points

variable {R : Type} [CommRing R] [IsDomain R] {elements others : List R} {difference : R}

/-- The hashes of two lists with different polynomials differ by a given value for no more points
than the longer one has elements. -/
theorem points_few (different : hashPolynomial elements ≠ hashPolynomial others)
    (points : Finset R)
    (collide : ∀ point ∈ points,
      hashFrom point 0 elements = hashFrom point 0 others + difference) :
    points.card ≤ max elements.length others.length := by
  let p : R[X] := hashPolynomial elements - hashPolynomial others - C difference
  have constant : (hashPolynomial elements - hashPolynomial others).coeff 0 = 0 := by
    rw [coeff_sub, coeff_hashPolynomial_zero, coeff_hashPolynomial_zero, sub_zero]
  have nonzero : p ≠ 0 := by
    intro vanishes
    have same : hashPolynomial elements - hashPolynomial others = C difference :=
      sub_eq_zero.mp vanishes
    have zero : difference = 0 := by
      rw [same, coeff_C_zero] at constant
      exact constant
    rw [zero, C_0] at same
    exact different (sub_eq_zero.mp same)
  have roots : points.val ⊆ p.roots := by
    intro point inside
    have value := collide point inside
    rw [hashFrom_eq_eval, hashFrom_eq_eval] at value
    rw [mem_roots nonzero, IsRoot.def]
    simp only [p, eval_sub, eval_C, value]
    ring
  have degree : p.natDegree ≤ max elements.length others.length := by
    refine (natDegree_sub_le _ _).trans (max_le ?_ ?_)
    · refine (natDegree_sub_le _ _).trans (max_le_max ?_ ?_)
      · exact natDegree_hashPolynomial_le elements
      · exact natDegree_hashPolynomial_le others
    · rw [natDegree_C]
      exact Nat.zero_le _
  exact (card_le_degree_of_subset_roots roots).trans degree

end Points

end RentMate.Machine
