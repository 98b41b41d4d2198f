import Mathlib.Algebra.Field.Rat
import GemLink.Number.Binary

/-!
The exact value of a double-precision number, as a rational one (`Double.rational?`). The whole
number that a double is said to equal is its exact value (`Double.toInt?_eq_some_iff`).
-/

namespace GemLink.Double

/-- The exact value of a number: a whole number of units, each `2 ^ -unitExponent`. Infinities and
what is not a number have none. -/
def rational? (x : Double) : Option ℚ :=
  match x.unpack with
  | .finite negative significand shift =>
    let size : ℚ := significand * 2 ^ shift / 2 ^ FloatFormat.double.unitExponent
    some (if negative then -size else size)
  | _ => none

/-- A quotient of natural numbers is a whole number if the division leaves no rest. -/
theorem div_eq_intCast_iff {units unit : Nat} (hunit : 0 < unit) (i : Int) :
    (units : ℚ) / unit = i ↔ units % unit = 0 ∧ ((units / unit : Nat) : Int) = i := by
  have hne : (unit : ℚ) ≠ 0 := Nat.cast_ne_zero.mpr (Nat.ne_of_gt hunit)
  have hmul : (units : ℚ) / unit = i ↔ (units : Int) = i * unit := by
    rw [div_eq_iff hne]
    exact_mod_cast Iff.rfl
  rw [hmul]
  constructor
  · intro h
    have hdvd : unit ∣ units := Int.natCast_dvd_natCast.mp ⟨i, by rw [h, Int.mul_comm]⟩
    refine ⟨Nat.mod_eq_zero_of_dvd hdvd, ?_⟩
    rw [Int.natCast_ediv, h]
    exact Int.mul_ediv_cancel i (Int.natCast_ne_zero.mpr (Nat.ne_of_gt hunit))
  · rintro ⟨hrest, rfl⟩
    exact_mod_cast (Nat.div_mul_cancel (Nat.dvd_of_mod_eq_zero hrest)).symm

/-- The whole number that a number equals is its exact value. -/
theorem toInt?_eq_some_iff {x : Double} {i : Int} :
    x.toInt? = some i ↔ x.rational? = some (i : ℚ) := by
  unfold toInt? rational?
  cases x.unpack with
  | finite negative significand shift =>
    generalize FloatFormat.double.unitExponent = exponent
    have hunit : 0 < 1 <<< exponent := by
      rw [Nat.one_shiftLeft]
      exact Nat.two_pow_pos exponent
    have hsize : (significand * 2 ^ shift / 2 ^ exponent : ℚ) =
        ((significand <<< shift : Nat) : ℚ) / ((1 <<< exponent : Nat) : ℚ) := by
      rw [Nat.shiftLeft_eq, Nat.one_shiftLeft]
      push_cast
      rfl
    dsimp only
    rw [hsize]
    generalize significand <<< shift = units
    generalize 1 <<< exponent = unit at hunit
    cases negative with
    | false =>
      simp only [Bool.false_eq_true, if_false, Option.ite_none_right_eq_some, Option.some.injEq,
        div_eq_intCast_iff hunit]
    | true =>
      have hneg : -((units : ℚ) / unit) = i ↔ (units : ℚ) / unit = ((-i : Int) : ℚ) := by
        rw [neg_eq_iff_eq_neg, Int.cast_neg]
      simp only [if_true, Option.ite_none_right_eq_some, Option.some.injEq, hneg,
        div_eq_intCast_iff hunit, neg_eq_iff_eq_neg]
  | nan | infinite => simp

end GemLink.Double
