import Mathlib.Algebra.Order.Ring.Int
import SpaceLink.Number.Wide

/-!
What 128 bits hold. The quotient that rounds down and its remainder come from those that round toward zero by one step,
and leave the range for one pair of operands only. A number that is moved to the left is lost in part exactly where its
product does not fit.
-/

set_option autoImplicit false

namespace SpaceLink.Wide

theorem checked_of_fits (n : Int) (inside : fits n = true) : checked n = some n := if_pos inside

theorem checked_of_lost (n : Int) (outside : fits n ≠ true) : checked n = none := if_neg outside

theorem fits_of_abs (n : Int) (small : n.natAbs < 2 ^ 64) : fits n = true := by
  rw [fits_iff]
  simp only [least, greatest]
  omega

theorem fits_wrap (n : Int) : fits (wrap n) = true := by
  have low := Int.le_bmod (x := n) (m := 2 ^ 128) (by decide)
  have high := Int.bmod_lt (x := n) (m := 2 ^ 128) (by decide)
  rw [fits_iff, wrap, least, greatest]
  omega

section Shifts

-- What is left of a number that is moved up: the number that its lowest bits are, the highest of them its sign.
def lowest (n : Int) (places : Nat) : Int := n.bmod (2 ^ (128 - places))

variable (n : Int) (places : Nat) (near : places < 128)

include near

theorem shift_left_lowest : shiftLeft n places = lowest n places * 2 ^ places := by
  have cast : ((2 ^ places : Nat) : Int) = 2 ^ places := by simp
  have even : 2 ∣ 2 ^ (128 - places) := Nat.pow_dvd_pow 2 (show 1 ≤ 128 - places by omega)
  have moved := Int.mod_bmod_mul_of_pos n (2 ^ (128 - places)) (Nat.two_pow_pos places) even
  rw [← Nat.pow_add, show places + (128 - places) = 128 by omega, cast] at moved
  rw [shiftLeft, wrap, lowest, Int.mul_comm n, moved, Int.mul_comm]

theorem fits_lowest : fits (lowest n places * 2 ^ places) = true := by
  rw [← shift_left_lowest n places near]
  exact fits_wrap _

theorem lowest_iff : lowest n places = n ↔ fits (n * 2 ^ places) = true := by
  constructor
  · intro same
    have inside := fits_lowest n places near
    rwa [same] at inside
  · intro inside
    have whole := shift_left_lowest n places near
    rw [shiftLeft, wrap_of_fits inside] at whole
    exact (Int.eq_of_mul_eq_mul_right (Int.pow_ne_zero (by decide)) whole).symm

theorem shift_back : shiftRight (shiftLeft n places) places = lowest n places := by
  rw [shift_left_lowest n places near, shiftRight, Int.mul_fdiv_cancel _ (Int.pow_ne_zero (by decide))]

end Shifts

section Far

variable (n : Int) (places : Nat) (far : 127 ≤ places)

include far

-- The power alone is past the greatest number, so the product fits for 0 and, where it is the least number, for -1.
theorem fits_far_iff : fits (n * 2 ^ places) = true ↔ n = 0 ∨ n = -1 ∧ places = 127 := by
  have power : (2 : Int) ^ 127 ≤ 2 ^ places := pow_le_pow_right₀ (by decide) far
  have longer : 128 ≤ places → (2 : Int) ^ 128 ≤ 2 ^ places := pow_le_pow_right₀ (by decide)
  rw [fits_iff, least, greatest]
  constructor
  · rintro ⟨low, high⟩
    have above : -1 ≤ n := by
      by_contra below
      have product : n * 2 ^ places ≤ -2 * 2 ^ places := Int.mul_le_mul_of_nonneg_right (by omega) (by omega)
      omega
    have under : n ≤ 0 := by
      by_contra positive
      have product : 1 * 2 ^ places ≤ n * 2 ^ places := Int.mul_le_mul_of_nonneg_right (by omega) (by omega)
      omega
    by_cases zero : n = 0
    · exact .inl zero
    · have one : n = -1 := by omega
      subst one
      exact .inr ⟨rfl, by omega⟩
  · rintro (rfl | ⟨rfl, rfl⟩)
    · rw [Int.zero_mul]
      decide
    · decide

theorem shift_right_far (held : fits n = true) : shiftRight n places = if n < 0 then -1 else 0 := by
  have power : (2 : Int) ^ 127 ≤ 2 ^ places := pow_le_pow_right₀ (by decide) far
  rw [fits_iff, least, greatest] at held
  rw [shiftRight]
  by_cases neg : n < 0
  · rw [if_pos neg]
    exact ((Int.fdiv_fmod_unique (r := n + 2 ^ places) (by omega)).mpr (by omega)).1
  · rw [if_neg neg]
    exact ((Int.fdiv_fmod_unique (r := n) (by omega)).mpr (by omega)).1

end Far

section Floor

variable (x y : Int)

-- The remainder of a quotient that rounds down is nearer to zero than the divisor, and on the same side.
structure FloorParts (q r : Int) : Prop where
  whole : x = q * y + r
  near : r.natAbs < y.natAbs
  side : r = 0 ∨ r.sign = y.sign

variable (nonzero : y ≠ 0)

include nonzero in
theorem side_iff (r : Int) : r = 0 ∨ r.sign = y.sign ↔ (y < 0 → r ≤ 0) ∧ (0 < y → 0 ≤ r) := by
  rcases Int.lt_or_gt_of_ne nonzero with neg | pos
  · rw [Int.sign_eq_neg_one_of_neg neg, Int.sign_eq_neg_one_iff_neg]
    omega
  · rw [Int.sign_eq_one_of_pos pos, Int.sign_eq_one_iff_pos]
    omega

include nonzero in
theorem floor_parts_iff (q r : Int) : FloorParts x y q r ↔ x.fdiv y = q ∧ x.fmod y = r := by
  have parts : FloorParts x y q r ↔ x = q * y + r ∧ r.natAbs < y.natAbs ∧ (r = 0 ∨ r.sign = y.sign) :=
    ⟨fun p => ⟨p.whole, p.near, p.side⟩, fun p => ⟨p.1, p.2.1, p.2.2⟩⟩
  rw [parts, side_iff y nonzero]
  rcases Int.lt_or_gt_of_ne nonzero with neg | pos
  · rw [Int.fdiv_fmod_unique' neg, Int.mul_comm]
    omega
  · rw [Int.fdiv_fmod_unique pos, Int.mul_comm]
    omega

-- Whether a remainder is on the other side of zero than the divisor, by the sign of a number on the remainder's side.
def astray (r sign : Int) : Bool := r != 0 && decide (sign < 0) != decide (y < 0)

theorem astray_iff (r sign : Int) : astray y r sign = true ↔ r ≠ 0 ∧ ¬ (sign < 0 ↔ y < 0) := by
  by_cases low : sign < 0 <;> by_cases neg : y < 0 <;> simp [astray, low, neg]

theorem truncated_side : (0 ≤ x → 0 ≤ x.tmod y) ∧ (x ≤ 0 → x.tmod y ≤ 0) := by
  refine ⟨Int.tmod_nonneg y, fun low => ?_⟩
  have opposite := Int.tmod_nonneg y (Int.neg_nonneg_of_nonpos low)
  rw [Int.neg_tmod] at opposite
  omega

-- A remainder that is not zero has the sign of the dividend.
theorem astray_own : astray y (x.tmod y) (x.tmod y) = astray y (x.tmod y) x := by
  have side := truncated_side x y
  rw [Bool.eq_iff_iff, astray_iff, astray_iff]
  omega

include nonzero in
theorem truncated_near : (x.tmod y).natAbs < y.natAbs := by
  rw [Int.natAbs_tmod]
  exact Nat.mod_lt x.natAbs (Int.natAbs_pos.mpr nonzero)

include nonzero in
theorem floor_of_truncated : FloorParts x y (if astray y (x.tmod y) x then x.tdiv y - 1 else x.tdiv y)
    (if astray y (x.tmod y) x then x.tmod y + y else x.tmod y) := by
  have whole := Int.tdiv_mul_add_tmod x y
  have near := truncated_near x y nonzero
  have side := truncated_side x y
  by_cases strays : astray y (x.tmod y) x = true
  · rw [if_pos strays, if_pos strays]
    rw [astray_iff] at strays
    refine ⟨by rw [Int.sub_mul]; omega, by omega, ?_⟩
    rw [side_iff y nonzero]
    omega
  · rw [if_neg strays, if_neg strays]
    rw [astray_iff] at strays
    refine ⟨whole.symm, near, ?_⟩
    rw [side_iff y nonzero]
    omega

variable (held : fits x = true)

-- A quotient is no farther from zero than the dividend, so only one of them can leave the range: that of the least number
-- and -1.
include held in
theorem fits_quotient (q r : Int) (whole : x = q * y + r) (near : r.natAbs < y.natAbs) (small : q.natAbs ≤ x.natAbs) :
    fits q = true ↔ ¬ (x = least ∧ y = -1) := by
  rw [fits_iff] at held ⊢
  simp only [least, greatest] at held ⊢
  by_cases past : q = 2 ^ 127
  · subst past
    omega
  · constructor
    · rintro inside ⟨rfl, rfl⟩
      omega
    · intro _
      omega

include nonzero held in
theorem fits_floor : fits (x.fdiv y) = true ↔ ¬ (x = least ∧ y = -1) := by
  have parts := (floor_parts_iff x y nonzero _ _).mpr ⟨rfl, rfl⟩
  exact fits_quotient x y held _ _ parts.whole parts.near (Int.natAbs_fdiv_le_natAbs x y)

include nonzero held in
theorem fits_truncated : fits (x.tdiv y) = true ↔ ¬ (x = least ∧ y = -1) :=
  fits_quotient x y held _ _ (Int.tdiv_mul_add_tmod x y).symm (truncated_near x y nonzero)
    (Int.natAbs_tdiv_le_natAbs x y)

include nonzero in
theorem fits_floor_remainder (divisor : fits y = true) : fits (x.fmod y) = true := by
  have parts := (floor_parts_iff x y nonzero _ _).mpr ⟨rfl, rfl⟩
  have near := parts.near
  have side := (side_iff y nonzero _).mp parts.side
  rw [fits_iff] at divisor ⊢
  simp only [least, greatest] at divisor ⊢
  omega

end Floor

end SpaceLink.Wide
