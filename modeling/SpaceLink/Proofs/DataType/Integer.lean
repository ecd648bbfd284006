import SpaceLink.Proofs.Bits

/-!
Integers in bytes. A type spells exactly the integers of its range, in its own number of bytes; what it
spells is read back, and any bytes of its width are the spelling of the integer they are read as.
-/

set_option autoImplicit false

namespace SpaceLink.IntType

theorem nbytes_bounds (t : IntType) : 1 ≤ t.nbytes ∧ t.nbytes ≤ 8 := by
  simp only [nbytes]
  cases t.layout with
  | byte => exact ⟨Nat.le_refl 1, by decide⟩
  | word order size => cases size <;> simp [WordSize.nbytes]

theorem nbits_bounds (t : IntType) : 8 ≤ t.nbits ∧ t.nbits ≤ 64 := by
  have bounds := t.nbytes_bounds
  simp only [nbits]
  omega

theorem nbits_double (t : IntType) : 2 ^ t.nbits = 2 * 2 ^ (t.nbits - 1) := by
  have bounds := t.nbits_bounds
  rw [← Nat.pow_succ', show (t.nbits - 1).succ = t.nbits by omega]

theorem holds_iff (t : IntType) (n : Int) : t.holds n = true ↔ t.least ≤ n ∧ n ≤ t.greatest := by
  simp [holds]

-- The bounds of a type over the naturals, so that they can be decided linearly.
theorem bounds_signed (t : IntType) (signed : t.signed = true) :
    t.least = -((2 ^ (t.nbits - 1) : Nat) : Int) ∧ t.greatest = ((2 ^ (t.nbits - 1) : Nat) : Int) - 1 := by
  simp [least, greatest, signed]

theorem bounds_unsigned (t : IntType) (unsigned : t.signed = false) :
    t.least = 0 ∧ t.greatest = ((2 ^ t.nbits : Nat) : Int) - 1 := by
  simp [least, greatest, unsigned]

theorem abs_of_holds (t : IntType) (n : Int) (held : t.holds n = true) : n.natAbs < 2 ^ 64 := by
  have double := t.nbits_double
  have wide : 2 ^ t.nbits ≤ 2 ^ 64 := Nat.pow_le_pow_right (by decide) t.nbits_bounds.2
  rw [holds_iff] at held
  cases signed : t.signed with
  | true =>
      obtain ⟨low, high⟩ := t.bounds_signed signed
      omega
  | false =>
      obtain ⟨low, high⟩ := t.bounds_unsigned signed
      omega

theorem encode_of_holds (t : IntType) (n : Int) (held : t.holds n = true) :
    t.encode n = .ok (t.order.spell t.nbytes (n % 2 ^ t.nbits).toNat) := by
  simp [encode, held]

theorem encode_ok (t : IntType) (n : Int) (bytes : Bytes) (done : t.encode n = .ok bytes) :
    t.holds n = true ∧ bytes = t.order.spell t.nbytes (n % 2 ^ t.nbits).toNat := by
  by_cases held : t.holds n = true
  · rw [encode_of_holds t n held] at done
    cases done
    exact ⟨held, rfl⟩
  · rw [encode, if_neg held] at done
    cases done

theorem length_encode (t : IntType) (n : Int) (bytes : Bytes) (done : t.encode n = .ok bytes) :
    bytes.length = t.nbytes := by
  rw [(encode_ok t n bytes done).2, ByteOrder.length_spell]

-- The number that the bytes of an integer spell.
def pattern (t : IntType) (n : Int) : Nat := (n % 2 ^ t.nbits).toNat

theorem pattern_lt (t : IntType) (n : Int) : t.pattern n < 2 ^ t.nbits := by
  have positive : (0 : Int) < 2 ^ t.nbits := by exact_mod_cast Nat.two_pow_pos t.nbits
  have low := Int.emod_nonneg n (Int.ne_of_gt positive)
  have high := Int.emod_lt_of_pos n positive
  have same : ((2 ^ t.nbits : Nat) : Int) = 2 ^ t.nbits := by simp
  simp only [pattern]
  omega

theorem cast_pattern (t : IntType) (n : Int) : (t.pattern n : Int) = n % (2 ^ t.nbits : Nat) := by
  have positive : ((2 ^ t.nbits : Nat) : Int) ≠ 0 := by exact_mod_cast Nat.ne_of_gt (Nat.two_pow_pos t.nbits)
  have same : ((2 ^ t.nbits : Nat) : Int) = 2 ^ t.nbits := by simp
  simp only [pattern]
  rw [← same, Int.toNat_of_nonneg (Int.emod_nonneg n positive)]

-- A shift moves the bits of a number up, and those that leave the type are lost.
theorem pattern_shift (t : IntType) (n : Int) (places : Nat) :
    t.pattern (n * 2 ^ places) = (t.pattern n <<< places) % 2 ^ t.nbits := by
  have cast : ((2 ^ places : Nat) : Int) = 2 ^ places := by simp
  apply Int.ofNat.inj
  change (t.pattern (n * 2 ^ places) : Int) = ((t.pattern n <<< places) % 2 ^ t.nbits : Nat)
  have cut := Int.mul_emod (n % (2 ^ t.nbits : Nat)) (2 ^ places) (2 ^ t.nbits : Nat)
  rw [Int.emod_emod] at cut
  rw [cast_pattern, Nat.shiftLeft_eq, Int.natCast_emod, Int.natCast_mul, cast_pattern, cast, cut]
  exact Int.mul_emod n (2 ^ places) _

theorem pattern_of_nat (t : IntType) (n : Nat) (small : n < 2 ^ t.nbits) : t.pattern n = n := by
  have same : ((2 ^ t.nbits : Nat) : Int) = 2 ^ t.nbits := by simp
  simp only [pattern]
  rw [← same, ← Int.natCast_emod, Int.toNat_natCast, Nat.mod_eq_of_lt small]

theorem read_pattern (t : IntType) (n : Int) : t.order.read (t.order.spell t.nbytes (t.pattern n)) = t.pattern n := by
  rw [ByteOrder.read_spell, show (256 : Nat) = 2 ^ 8 from rfl, ← Nat.pow_mul]
  exact Nat.mod_eq_of_lt (t.pattern_lt n)

theorem decode_eq (t : IntType) (bytes : Bytes) :
    t.decode bytes = if t.signed = true ∧ 2 ^ (t.nbits - 1) ≤ t.order.read bytes
      then (t.order.read bytes : Int) - (2 ^ t.nbits : Nat) else (t.order.read bytes : Int) := by
  simp [decode]

theorem read_lt (t : IntType) (bytes : Bytes) (whole : bytes.length = t.nbytes) :
    t.order.read bytes < 2 ^ t.nbits := by
  simpa [whole, nbits] using t.order.read_lt bytes

theorem pattern_decode (t : IntType) (bytes : Bytes) (whole : bytes.length = t.nbytes) :
    t.pattern (t.decode bytes) = t.order.read bytes := by
  have small := t.read_lt bytes whole
  have same : ((2 ^ t.nbits : Nat) : Int) = 2 ^ t.nbits := by simp
  rw [decode_eq]
  split
  · simp only [pattern]
    rw [← same, Int.sub_emod_right, ← Int.natCast_emod, Int.toNat_natCast, Nat.mod_eq_of_lt small]
  · exact t.pattern_of_nat _ small

theorem holds_decode (t : IntType) (bytes : Bytes) (whole : bytes.length = t.nbytes) :
    t.holds (t.decode bytes) = true := by
  have small := t.read_lt bytes whole
  have double := t.nbits_double
  rw [holds_iff, decode_eq]
  cases signed : t.signed with
  | true =>
      obtain ⟨low, high⟩ := t.bounds_signed signed
      simp only [true_and, low, high]
      split <;> omega
  | false =>
      obtain ⟨low, high⟩ := t.bounds_unsigned signed
      simp only [Bool.false_eq_true, false_and, if_false, low, high]
      omega

theorem encode_decode (t : IntType) (bytes : Bytes) (whole : bytes.length = t.nbytes) :
    t.encode (t.decode bytes) = .ok bytes := by
  rw [encode_of_holds t _ (t.holds_decode bytes whole)]
  change Except.ok (t.order.spell t.nbytes (t.pattern (t.decode bytes))) = _
  rw [t.pattern_decode bytes whole, ← whole, ByteOrder.spell_read]

theorem decode_pattern (t : IntType) (n : Int) (held : t.holds n = true) :
    t.decode (t.order.spell t.nbytes (t.pattern n)) = n := by
  have double := t.nbits_double
  rw [holds_iff] at held
  rw [decode_eq, read_pattern]
  cases signed : t.signed with
  | true =>
      obtain ⟨low, high⟩ := t.bounds_signed signed
      rw [low, high] at held
      simp only [true_and]
      by_cases negative : n < 0
      · have same : ((2 ^ t.nbits : Nat) : Int) = 2 ^ t.nbits := by simp
        have wrapped : t.pattern n = (n + (2 ^ t.nbits : Nat)).toNat := by
          simp only [pattern]
          rw [← same, ← Int.add_emod_right, Int.emod_eq_of_lt (by omega) (by omega)]
        rw [wrapped]
        split <;> omega
      · obtain ⟨k, rfl⟩ := Int.eq_ofNat_of_zero_le (Int.not_lt.mp negative)
        rw [t.pattern_of_nat k (by omega)]
        split <;> omega
  | false =>
      obtain ⟨low, high⟩ := t.bounds_unsigned signed
      rw [low, high] at held
      obtain ⟨k, rfl⟩ := Int.eq_ofNat_of_zero_le held.1
      rw [t.pattern_of_nat k (by omega)]
      simp

theorem decode_encode (t : IntType) (n : Int) (bytes : Bytes) (done : t.encode n = .ok bytes) :
    t.decode bytes = n := by
  obtain ⟨held, spelled⟩ := t.encode_ok n bytes done
  rw [spelled]
  exact t.decode_pattern n held

theorem decode_primitive (t : IntType) (data : Bytes) (long : t.nbytes ≤ data.length) :
    (Primitive.int t).decode data = .ok (.int (t.decode (data.take t.nbytes))) := by
  have whole : ¬ (data.take t.nbytes).length < t.nbytes := by
    rw [List.length_take]
    omega
  exact if_neg whole

end SpaceLink.IntType
