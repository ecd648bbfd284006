import SpaceLink.Proofs.Expr.Words

/-!
Shifts of integers by a count that is not negative. To the right they are the floor of a quotient, to the left the product
where 128 bits hold it. Only a count of 127 or more is refused whatever is moved, which for 0, and for the -1 that would
become the least number, is too much.
-/

set_option autoImplicit false

namespace SpaceLink.Arithmetic

variable (x y : Int)

-- The products that fit although the count is refused.
def HeldBeyond : Prop := x = 0 ∧ 127 ≤ y ∨ x = -1 ∧ y = 127

instance : Decidable (HeldBeyond x y) := inferInstanceAs (Decidable (_ ∨ _))

section Counts

variable (up : 0 ≤ y)

include up

theorem held_beyond_iff : HeldBeyond x y ↔ 127 ≤ y ∧ Wide.fits (x * 2 ^ y.toNat) = true := by
  unfold HeldBeyond
  constructor
  · intro beyond
    have far : 127 ≤ y := by omega
    exact ⟨far, (Wide.fits_far_iff x y.toNat (by omega)).mpr (by omega)⟩
  · rintro ⟨far, inside⟩
    have fits := (Wide.fits_far_iff x y.toNat (by omega)).mp inside
    omega

theorem shift_left_taken (inside : Wide.fits (x * 2 ^ y.toNat) = true) (unheld : ¬ HeldBeyond x y) :
    shiftLeft? x y.toNat = some (x * 2 ^ y.toNat) := by
  have near : ¬ 127 ≤ y := fun far => unheld ((held_beyond_iff x y up).mpr ⟨far, inside⟩)
  rw [shiftLeft?, if_pos (show y.toNat < 127 by omega), Wide.checked_of_fits _ inside]

theorem shift_left_refused (outside : Wide.fits (x * 2 ^ y.toNat) = false ∨ HeldBeyond x y) :
    shiftLeft? x y.toNat = none := by
  unfold shiftLeft?
  by_cases near : y < 127
  · have lost : Wide.fits (x * 2 ^ y.toNat) = false :=
      outside.resolve_right fun beyond => absurd ((held_beyond_iff x y up).mp beyond).1 (Int.not_le.mpr near)
    rw [if_pos (show y.toNat < 127 by omega), Wide.checked_of_lost _ (by simp [lost])]
  · rw [if_neg (show ¬ y.toNat < 127 by omega)]

end Counts

-- From 127 places on a quotient is that of the sign alone.
theorem shift_right_eq (places : Nat) (held : Wide.fits x = true) : shiftRight x places = x.fdiv (2 ^ places) := by
  unfold shiftRight
  by_cases far : 127 ≤ places
  · rw [if_pos far, ← Wide.shift_right_far x places far held, Wide.shiftRight]
  · rw [if_neg far, Wide.shiftRight]

theorem floor_bounds (places : Nat) :
    x.fdiv (2 ^ places) * 2 ^ places ≤ x ∧ x < (x.fdiv (2 ^ places) + 1) * 2 ^ places := by
  have positive : (0 : Int) < 2 ^ places := Int.pow_pos (by decide)
  rw [Int.fdiv_eq_ediv_of_nonneg x (Int.le_of_lt positive), Int.add_mul, Int.one_mul]
  exact (Int.ediv_eq_iff_of_pos positive).mp rfl

theorem shifts_exact_unless_beyond (a b : Value) (left : a.exactInt? = some x) (right : b.exactInt? = some y)
    (held : Wide.fits x = true) (up : 0 ≤ y) :
    (∃ q, Wide.fits q = true ∧ q * 2 ^ y.toNat ≤ x ∧ x < (q + 1) * 2 ^ y.toNat ∧
      binary .shiftRight a b = .ok (some (.int q))) ∧
    (Wide.fits (x * 2 ^ y.toNat) = true ∧ ¬ HeldBeyond x y →
      binary .shiftLeft a b = .ok (some (.int (x * 2 ^ y.toNat)))) ∧
    (Wide.fits (x * 2 ^ y.toNat) = false ∨ HeldBeyond x y → binary .shiftLeft a b = fail .shiftOverflow) ∧
    (HeldBeyond x y ↔ 127 ≤ y ∧ Wide.fits (x * 2 ^ y.toNat) = true) := by
  have up' : ¬ y < 0 := Int.not_lt.mpr up
  simp only [binary_ints _ x y a b left right, onInts, if_neg up']
  refine ⟨?floor, ?product, ?refused, held_beyond_iff x y up⟩
  case floor =>
    have bounds := floor_bounds x y.toNat
    have positive := Int.pow_pos (n := 2) (m := y.toNat) (by decide)
    have inside := (Wide.fits_floor x (2 ^ y.toNat) (by omega) held).mpr (by omega)
    rw [shift_right_eq x y.toNat held]
    exact ⟨_, inside, bounds.1, bounds.2, rfl⟩
  case product =>
    rintro ⟨inside, unheld⟩
    rw [shift_left_taken x y up inside unheld]
  case refused =>
    intro outside
    rw [shift_left_refused x y up outside]

theorem minus_three_by_one :
    (∃ q, Wide.fits q = true ∧ q * 2 ≤ -3 ∧ -3 < (q + 1) * 2 ∧
      binary .shiftRight (.int (-3)) (.bool true) = .ok (some (.int q))) ∧
    binary .shiftLeft (.int (-3)) (.bool true) = .ok (some (.int (-6))) ∧
    binary .shiftLeft (.int (-3)) (.int 127) = fail .shiftOverflow := by
  obtain ⟨floor, product, -, -⟩ :=
    shifts_exact_unless_beyond (-3) 1 (.int (-3)) (.bool true) rfl rfl (by decide) (by decide)
  obtain ⟨-, -, refused, -⟩ :=
    shifts_exact_unless_beyond (-3) 127 (.int (-3)) (.int 127) rfl rfl (by decide) (by decide)
  exact ⟨floor, product (by decide), refused (by decide)⟩

-- The least number is -1 moved by 127 places, and 0 stays 0 however far it is moved.
theorem least_refused :
    Wide.fits (-1 * 2 ^ 127) = true ∧ binary .shiftLeft (.int (-1)) (.int 127) = fail .shiftOverflow ∧
      Wide.fits (0 * 2 ^ 127) = true ∧ binary .shiftLeft (.int 0) (.int 127) = fail .shiftOverflow :=
  ⟨by decide, rfl, by decide, rfl⟩

end SpaceLink.Arithmetic
