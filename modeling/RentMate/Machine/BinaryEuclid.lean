/-
Module: RentMate.Machine.BinaryEuclid
Purpose: The extended algorithm of Euclid on binary polynomials, one subtraction of a shifted
  remainder after the other: it ends exactly when there is an inverse, and finds it.
Trusted boundary: human-reviewed spec
Main exports: Euclid, Euclid.step, Euclid.run, Euclid.Sound, run_ok, run_none
-/
import RentMate.Machine.BinaryPolynomial

namespace RentMate.Machine

open Polynomial

/-- Two remainders, and the factors by which the number to invert has become them: `z` belongs to
`u` and `g` to `v`. -/
structure Euclid where
  u : Nat
  v : Nat
  g : Nat
  z : Nat

namespace Euclid

/-- The remainder of the higher degree comes first. -/
def ordered (registers : Euclid) : Euclid :=
  if registers.u.size < registers.v.size then
    { u := registers.v, v := registers.u, g := registers.z, z := registers.g }
  else registers

/-- The leading term of the first remainder is cancelled by a multiple of the second one. -/
def cancelled (registers : Euclid) : Euclid :=
  let i := registers.u.size - registers.v.size
  { registers with
    u := registers.u ^^^ registers.v <<< i
    z := registers.z ^^^ registers.g <<< i }

def step (registers : Euclid) : Euclid := registers.ordered.cancelled

/-- Steps until the first remainder is one. -/
def run : Nat → Euclid → Option Nat
  | 0, _ => none
  | left + 1, registers => if registers.u = 1 then some registers.z else run left registers.step

/-- Where an inversion begins. -/
def start (modulus : BinaryModulus) (number : Nat) : Euclid :=
  { u := number, v := modulus.value, g := 0, z := 1 }

/-- The factors are the ones that make the number the remainders. -/
structure Tracks (modulus : BinaryModulus) (number : Nat) (registers : Euclid) : Prop where
  first : modulus.residue registers.z * modulus.residue number = modulus.residue registers.u
  second : modulus.residue registers.g * modulus.residue number = modulus.residue registers.v

/-- The remainders have no common divisor, and a factor grows only as fast as the remainder of the
other one shrinks. -/
structure Sound (modulus : BinaryModulus) (registers : Euclid) : Prop where
  coprime : IsCoprime (polynomialOf registers.u) (polynomialOf registers.v)
  proper : 1 < registers.v
  shortFirst : registers.z = 0 ∨ registers.z.size + registers.v.size ≤ modulus.degree + 2
  shortSecond : registers.g = 0 ∨ registers.g.size + registers.u.size ≤ modulus.degree + 2

section Steps

variable {modulus : BinaryModulus} {number : Nat} {registers : Euclid}

/-- A number that is a constant polynomial without being zero. -/
theorem eq_one_of_isUnit (unit : IsUnit (polynomialOf number)) : number = 1 := by
  have begun : number ≠ 0 := by
    rintro rfl
    rw [polynomialOf_zero] at unit
    exact not_isUnit_zero unit
  have constant := natDegree_eq_zero_of_isUnit unit
  have positive : 0 < number.size := Nat.size_pos.mpr (Nat.pos_of_ne_zero begun)
  have degree := natDegree_polynomialOf (show number.size = number.size - 1 + 1 by omega)
  have short : number < 2 ^ 1 := Nat.size_le.mp (by omega)
  omega

/-- The first remainder does not vanish. -/
theorem Sound.u_ne_zero (sound : registers.Sound modulus) : registers.u ≠ 0 := by
  intro vanishes
  have coprime := sound.coprime
  rw [vanishes, polynomialOf_zero, isCoprime_zero_left] at coprime
  have proper := sound.proper
  rw [eq_one_of_isUnit coprime] at proper
  exact absurd proper (lt_irrefl 1)

/-- Exchanging the two rows keeps both congruences. -/
theorem Tracks.ordered (tracks : registers.Tracks modulus number) :
    registers.ordered.Tracks modulus number := by
  rw [Euclid.ordered]
  split
  · exact ⟨tracks.second, tracks.first⟩
  · exact tracks

/-- Cancelling the leading term keeps both congruences. -/
theorem Tracks.cancelled (tracks : registers.Tracks modulus number) :
    registers.cancelled.Tracks modulus number := by
  refine ⟨?_, tracks.second⟩
  simp only [Euclid.cancelled, BinaryModulus.residue_xor, BinaryModulus.residue_shiftLeft]
  rw [add_mul, tracks.first, mul_right_comm, tracks.second]

/-- The exchange keeps the registers sound. -/
theorem Sound.ordered (sound : registers.Sound modulus) (unfinished : registers.u ≠ 1) :
    registers.ordered.Sound modulus := by
  rw [Euclid.ordered]
  split
  · have begun := sound.u_ne_zero
    exact
      { coprime := sound.coprime.symm
        proper := by change 1 < registers.u; omega
        shortFirst := sound.shortSecond
        shortSecond := sound.shortFirst }
  · exact sound

/-- After the exchange the second remainder is not longer than the first. -/
theorem size_v_le_ordered (registers : Euclid) :
    registers.ordered.v.size ≤ registers.ordered.u.size := by
  rw [Euclid.ordered]
  split
  · exact Nat.le_of_lt ‹_›
  · exact Nat.le_of_not_lt ‹_›

/-- A shift lengthens a number by no more than the count. -/
theorem size_shiftLeft_le (number count : Nat) : (number <<< count).size ≤ number.size + count := by
  by_cases begun : number = 0
  · simp [begun]
  · rw [Nat.size_shiftLeft begun]

/-- A sum is no longer than the longer summand. -/
theorem size_xor_le {one other bound : Nat} (shortOne : one.size ≤ bound)
    (shortOther : other.size ≤ bound) : (one ^^^ other).size ≤ bound :=
  Nat.size_le.mpr (Nat.xor_lt_two_pow (Nat.size_le.mp shortOne) (Nat.size_le.mp shortOther))

/-- A remainder loses its leading term. -/
theorem size_cancelled_lt (begun : registers.v ≠ 0) (ordered : registers.v.size ≤ registers.u.size) :
    registers.cancelled.u.size < registers.u.size := by
  obtain ⟨top, size⟩ : ∃ top, registers.u.size = top + 1 := by
    have positive := Nat.size_pos.mpr (Nat.pos_of_ne_zero begun)
    exact ⟨registers.u.size - 1, by omega⟩
  have shifted : (registers.v <<< (registers.u.size - registers.v.size)).size = top + 1 := by
    rw [Nat.size_shiftLeft begun]
    omega
  have lower := xor_lt_of_testBit (Nat.size_le.mp (le_of_eq size))
    (Nat.size_le.mp (le_of_eq shifted)) (testBit_of_size size) (testBit_of_size shifted)
  rw [size]
  exact Nat.lt_succ_of_le (Nat.size_le.mpr lower)

/-- Cancelling the leading term keeps the registers sound. -/
theorem Sound.cancelled (sound : registers.Sound modulus)
    (ordered : registers.v.size ≤ registers.u.size) : registers.cancelled.Sound modulus := by
  have begun : registers.v ≠ 0 := by
    have proper := sound.proper
    omega
  have shrinks := size_cancelled_lt begun ordered
  refine { coprime := ?_, proper := sound.proper, shortFirst := ?_, shortSecond := ?_ }
  · change IsCoprime (polynomialOf (registers.u ^^^ registers.v <<< _)) (polynomialOf registers.v)
    rw [polynomialOf_xor, polynomialOf_shiftLeft]
    exact sound.coprime.add_mul_left_left _
  · change registers.z ^^^ registers.g <<< _ = 0 ∨
      (registers.z ^^^ registers.g <<< _).size + registers.v.size ≤ modulus.degree + 2
    rcases sound.shortSecond with empty | shortSecond
    · rw [empty, Nat.zero_shiftLeft, Nat.xor_zero]
      exact sound.shortFirst
    · right
      have multiple := size_shiftLeft_le registers.g (registers.u.size - registers.v.size)
      have kept : registers.z.size ≤ modulus.degree + 2 - registers.v.size := by
        rcases sound.shortFirst with empty | shortFirst
        · simp [empty]
        · omega
      have sum := size_xor_le kept (multiple.trans (by omega))
      omega
  · rcases sound.shortSecond with empty | shortSecond
    · exact .inl empty
    · right
      change registers.g.size + registers.cancelled.u.size ≤ modulus.degree + 2
      omega

/-- A round keeps both congruences. -/
theorem Tracks.step (tracks : registers.Tracks modulus number) :
    registers.step.Tracks modulus number := tracks.ordered.cancelled

/-- A round keeps the registers sound. -/
theorem Sound.step (sound : registers.Sound modulus) (unfinished : registers.u ≠ 1) :
    registers.step.Sound modulus :=
  (sound.ordered unfinished).cancelled (size_v_le_ordered registers)

/-- What bounds the number of steps. -/
theorem Sound.step_lt (sound : registers.Sound modulus) (unfinished : registers.u ≠ 1) :
    registers.step.u.size + registers.step.v.size < registers.u.size + registers.v.size := by
  have total : registers.ordered.u.size + registers.ordered.v.size =
      registers.u.size + registers.v.size := by
    rw [Euclid.ordered]
    split
    · exact Nat.add_comm _ _
    · rfl
  have proper := (sound.ordered unfinished).proper
  have shrinks := size_cancelled_lt (show registers.ordered.v ≠ 0 by omega)
    (size_v_le_ordered registers)
  change registers.ordered.cancelled.u.size + registers.ordered.v.size < _
  omega

end Steps

/-! ### Whole runs -/

section Runs

variable {modulus : BinaryModulus} {number : Nat} {registers : Euclid}

/-- What a run that ends gives is an inverse. -/
theorem Tracks.run {fuel result : Nat} (tracks : registers.Tracks modulus number)
    (ended : run fuel registers = some result) :
    modulus.residue result * modulus.residue number = 1 := by
  induction fuel generalizing registers with
  | zero => cases ended
  | succ left ih =>
      rw [Euclid.run] at ended
      split at ended
      · rename_i finished
        rw [← Option.some.inj ended, tracks.first, finished, BinaryModulus.residue_one]
      · exact ih tracks.step ended

/-- With enough steps a run whose remainders have no common divisor ends with a reduced factor. -/
theorem Sound.run {fuel : Nat} (sound : registers.Sound modulus)
    (enough : registers.u.size + registers.v.size < fuel) :
    ∃ result, run fuel registers = some result ∧ modulus.Reduced result := by
  induction fuel generalizing registers with
  | zero => exact absurd enough (Nat.not_lt_zero _)
  | succ left ih =>
      rw [Euclid.run]
      split
      · refine ⟨registers.z, rfl, ?_⟩
        rcases sound.shortFirst with empty | short
        · rw [empty]
          exact Nat.two_pow_pos _
        · have two : 1 < registers.v.size := Nat.lt_size.mpr sound.proper
          exact Nat.size_le.mp (by omega)
      · rename_i unfinished
        have fewer := sound.step_lt unfinished
        exact ih (sound.step unfinished) (by omega)

/-- Whether a run ends depends on the remainders alone. -/
theorem run_eq_none_congr {fuel : Nat} {one other : Euclid} (sameU : one.u = other.u)
    (sameV : one.v = other.v) : run fuel one = none ↔ run fuel other = none := by
  induction fuel generalizing one other with
  | zero => simp [Euclid.run]
  | succ left ih =>
      have order : one.ordered.u = other.ordered.u ∧ one.ordered.v = other.ordered.v := by
        simp only [ordered, sameU, sameV]
        split
        · exact ⟨rfl, rfl⟩
        · exact ⟨sameU, sameV⟩
      obtain ⟨orderU, orderV⟩ := order
      simp only [Euclid.run, sameU]
      split
      · simp
      · apply ih
        · simp only [step, cancelled, orderU, orderV]
        · exact orderV

/-- The congruences hold at the start. -/
theorem tracks_start (modulus : BinaryModulus) (number : Nat) :
    (start modulus number).Tracks modulus number := by
  constructor
  · simp [start]
  · simp [start]

/-- The registers are sound at the start if number and modulus are coprime. -/
theorem sound_start (coprime : IsCoprime (polynomialOf number) modulus.polynomial) :
    (start modulus number).Sound modulus := by
  have top : 2 ^ modulus.degree ≤ modulus.value :=
    Nat.lt_size.mp (by rw [modulus.size]; exact Nat.lt_succ_self _)
  refine
    { coprime := coprime
      proper := lt_of_lt_of_le (Nat.one_lt_two_pow modulus.positive.ne') top
      shortFirst := .inr ?_
      shortSecond := .inl rfl }
  have one : Nat.size 1 = 1 := Nat.size_one
  have size := modulus.size
  simp only [start]
  omega

/-- By an irreducible modulus, all numbers have an inverse that the modulus does not divide. -/
theorem isCoprime_of_residue (irreducible : Irreducible modulus.polynomial)
    (begun : modulus.residue number ≠ 0) :
    IsCoprime (polynomialOf number) modulus.polynomial := by
  rw [isCoprime_comm, irreducible.coprime_iff_not_dvd]
  intro divides
  exact begun (AdjoinRoot.mk_eq_zero.mpr divides)

/-- Over an irreducible modulus the inversion of a nonzero residue ends, and gives its inverse. -/
theorem run_ok {fuel : Nat} (irreducible : Irreducible modulus.polynomial)
    (begun : modulus.residue number ≠ 0) (enough : number.size + modulus.degree + 1 < fuel) :
    ∃ result, run fuel (start modulus number) = some result ∧ modulus.Reduced result ∧
      modulus.residue result * modulus.residue number = 1 := by
  have size := modulus.size
  have room : (start modulus number).u.size + (start modulus number).v.size < fuel := by
    simp only [start]
    omega
  obtain ⟨result, ended, reduced⟩ :=
    (sound_start (isCoprime_of_residue irreducible begun)).run room
  exact ⟨result, ended, reduced, (tracks_start modulus number).run ended⟩

/-- What the modulus divides has no inverse, and the run never ends. -/
theorem run_none (vanishes : modulus.residue number = 0) (fuel : Nat) :
    run fuel (start modulus number) = none := by
  cases ended : run fuel (start modulus number) with
  | none => rfl
  | some result =>
      have inverted := (tracks_start modulus number).run ended
      rw [vanishes, mul_zero] at inverted
      have nontrivial : Nontrivial modulus.Residues :=
        AdjoinRoot.nontrivial modulus.polynomial
          (by
            rw [degree_eq_natDegree BinaryModulus.polynomial_ne_zero,
              BinaryModulus.natDegree_polynomial]
            exact_mod_cast modulus.positive.ne')
      exact absurd inverted zero_ne_one

end Runs

end Euclid

end RentMate.Machine
