import SpaceLink.Field.Basic

/-!
Masks. The bits of a mask are moved to its lowest place when a number is read and back when it is
written; a number whose bits are all in the moved mask goes through both unchanged.
-/

set_option autoImplicit false

namespace SpaceLink

namespace Wide

theorem low_bits_nested (n : Int) (width wider : Nat) (inside : width ≤ wider) :
    (n % 2 ^ width).toNat = (n % 2 ^ wider).toNat % 2 ^ width := by
  have cast : ∀ k : Nat, ((2 ^ k : Nat) : Int) = 2 ^ k := fun k => by simp
  have positive : (0 : Int) ≤ n % 2 ^ wider := by
    apply Int.emod_nonneg
    rw [← cast]
    exact_mod_cast Nat.ne_of_gt (Nat.two_pow_pos wider)
  have divides : (2 : Int) ^ width ∣ 2 ^ wider := by
    rw [← cast, ← cast]
    exact_mod_cast Nat.pow_dvd_pow 2 inside
  obtain ⟨k, low⟩ := Int.eq_ofNat_of_zero_le positive
  rw [← Int.emod_emod_of_dvd n divides, low, ← cast, ← Int.natCast_emod, Int.toNat_natCast, Int.toNat_natCast]

-- An integer meets a mask in its low bits only, whatever its sign.
theorem and_low (n : Int) (mask width : Nat) (narrow : width < 128) (inside : mask < 2 ^ width) :
    and n mask = ((n % 2 ^ width).toNat &&& mask : Nat) := by
  have below : mask < 2 ^ 127 := Nat.lt_of_lt_of_le inside (Nat.pow_le_pow_right (by decide) (by omega))
  have whole : (bits mask).toNat = mask := by
    rw [bits, BitVec.toNat_ofInt]
    omega
  have pattern : (bits n &&& bits mask).toNat = (n % 2 ^ width).toNat &&& mask := by
    rw [BitVec.toNat_and, whole, bits, BitVec.toNat_ofInt, low_bits_nested n width 128 (by omega)]
    apply Nat.eq_of_testBit_eq
    intro i
    rw [Nat.testBit_and, Nat.testBit_and, Nat.testBit_mod_two_pow]
    by_cases low : i < width
    · simp [low]
    · have clear : mask.testBit i = false :=
        Nat.testBit_lt_two_pow (Nat.lt_of_lt_of_le inside (Nat.pow_le_pow_right (by decide) (by omega)))
      simp [clear]
  have bound : (n % 2 ^ width).toNat &&& mask ≤ mask := Nat.and_le_right
  simp only [and]
  rw [BitVec.toInt_eq_toNat_of_lt (by omega), pattern]

theorem and_nat (n mask : Nat) (inside : mask < 2 ^ 127) : and n mask = (n &&& mask : Nat) := by
  have cut : ((n : Int) % 2 ^ 127).toNat = n % 2 ^ 127 := by omega
  rw [and_low n mask 127 (by decide) inside, cut]
  congr 1
  apply Nat.eq_of_testBit_eq
  intro i
  rw [Nat.testBit_and, Nat.testBit_and, Nat.testBit_mod_two_pow]
  by_cases low : i < 127
  · simp [low]
  · have clear : mask.testBit i = false :=
      Nat.testBit_lt_two_pow (Nat.lt_of_lt_of_le inside (Nat.pow_le_pow_right (by decide) (by omega)))
    simp [clear]

theorem shift_right_nat (n places : Nat) : shiftRight n places = (n >>> places : Nat) := by
  have cast : ((2 ^ places : Nat) : Int) = 2 ^ places := by simp
  simp only [shiftRight]
  rw [Nat.shiftRight_eq_div_pow, ← cast, Int.fdiv_eq_ediv_of_nonneg _ (Int.natCast_nonneg _), Int.natCast_ediv]

end Wide

namespace Field

theorem trailing_zeros_clear (width n i : Nat) (low : i < trailingZeros width n) : n.testBit i = false := by
  induction width generalizing n i with
  | zero => simp [trailingZeros] at low
  | succ width ih =>
      by_cases odd : n % 2 = 1
      · rw [trailingZeros, if_pos odd] at low
        cases low
      · rw [trailingZeros, if_neg odd] at low
        cases i with
        | zero => simpa [Nat.testBit_zero] using odd
        | succ i =>
            rw [Nat.testBit_succ]
            exact ih (n / 2) i (Nat.lt_of_succ_lt_succ low)

end Field

theorem shift_left_and (n mask places : Nat) :
    (n <<< places) &&& mask = (n &&& (mask >>> places)) <<< places := by
  apply Nat.eq_of_testBit_eq
  intro i
  simp only [Nat.testBit_and, Nat.testBit_shiftLeft, Nat.testBit_shiftRight]
  by_cases low : i < places
  · simp [show ¬ places ≤ i by omega]
  · simp [show places + (i - places) = i by omega, Bool.and_assoc]

theorem and_shift_right (n mask places : Nat) :
    (n &&& mask) >>> places = (n >>> places) &&& (mask >>> places) := by
  apply Nat.eq_of_testBit_eq
  intro i
  simp only [Nat.testBit_and, Nat.testBit_shiftRight]

theorem shift_cut_and (n mask places width : Nat) (narrow : mask < 2 ^ width) :
    (((n <<< places) % 2 ^ width) &&& mask) >>> places = n &&& (mask >>> places) := by
  apply Nat.eq_of_testBit_eq
  intro i
  simp only [Nat.testBit_shiftRight, Nat.testBit_and, Nat.testBit_mod_two_pow, Nat.testBit_shiftLeft]
  by_cases inside : places + i < width
  · simp [inside, show places + i - places = i by omega]
  · have clear : mask.testBit (places + i) = false :=
      Nat.testBit_lt_two_pow (Nat.lt_of_lt_of_le narrow (Nat.pow_le_pow_right (by decide) (Nat.le_of_not_lt inside)))
    simp [clear]

theorem and_shift_back (n mask places : Nat) (clear : ∀ i < places, mask.testBit i = false) :
    ((n &&& mask) >>> places) <<< places = n &&& mask := by
  apply Nat.eq_of_testBit_eq
  intro i
  simp only [Nat.testBit_shiftLeft, Nat.testBit_shiftRight, Nat.testBit_and]
  by_cases low : i < places
  · simp [clear i low, show ¬ places ≤ i by omega]
  · simp [show places + (i - places) = i by omega, show places ≤ i by omega]

end SpaceLink
