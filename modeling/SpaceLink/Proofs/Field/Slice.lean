import SpaceLink.Proofs.Field.Kept

/-!
Fields that are a run of bits in one number, the number that the whole buffer spells with its most significant
byte first. Setting such a field puts the lowest bits of a number into that run; reading it takes the run out.
-/

set_option autoImplicit false

namespace SpaceLink

theorem Bytes.of_big_bit (bytes : Bytes) (byte place : Nat) (inside : byte < bytes.length) (low : place < 8) :
    (Bytes.ofBig bytes).testBit (8 * (bytes.length - 1 - byte) + place) = bytes.bit byte place :=
  ByteOrder.msb.read_test_bit bytes byte place inside low

theorem Bytes.big_index (width i : Nat) (inside : i < 8 * width) :
    ∃ byte < width, ∃ place < 8, i = 8 * (width - 1 - byte) + place := ByteOrder.msb.bit_index width i inside

theorem Bytes.bit_big (width n byte place : Nat) (inside : byte < width) (low : place < 8) :
    (Bytes.big width n).bit byte place = n.testBit (8 * (width - 1 - byte) + place) :=
  ByteOrder.msb.bit_spell width n byte place inside low

namespace Field

-- The field has the `width` bits from bit `low` on of the number that `total` bytes spell.
structure Slice (f : Field) (t : IntType) (total low width : Nat) : Prop where
  sound : f.Sound
  integer : f.type = .scalar (.primitive (.int t))
  unsigned : t.signed = false
  order : t.order = .msb
  inside : (f.span 0).stop ≤ total
  position : low + 8 * ((f.span 0).start + t.nbytes) = 8 * total + f.shift
  run : f.shift + width ≤ 8 * t.nbytes
  bits : ∀ byte < t.nbytes, ∀ place < 8, f.covers byte place =
    decide (f.shift ≤ 8 * (t.nbytes - 1 - byte) + place ∧ 8 * (t.nbytes - 1 - byte) + place < f.shift + width)

section Slices

variable (f : Field) (t : IntType) (total low width : Nat) (slice : f.Slice t total low width)

include slice

theorem slice_room : (f.span 0).start + t.nbytes ≤ (f.span 0).stop ∧ (f.span 0).stop ≤ total := by
  have room := f.near_start slice.sound
  rw [f.extent_int t slice.integer] at room
  exact ⟨room, slice.inside⟩

theorem slice_held : f.MaskHeld t := f.mask_held_of_unsigned t slice.integer slice.sound (.inr slice.unsigned)

-- Bit `8 * (total - 1 - byte) + place` of the number stands in the byte `byte` at `place`.
theorem owns_slice (byte place : Nat) (within : byte < total) (small : place < 8) :
    f.owns 0 byte place =
      decide (low ≤ 8 * (total - 1 - byte) + place ∧ 8 * (total - 1 - byte) + place < low + width) := by
  have position := slice.position
  have run := slice.run
  obtain ⟨room, inside⟩ := f.slice_room t total low width slice
  by_cases own : (f.span 0).start ≤ byte ∧ byte < (f.span 0).start + t.nbytes
  · simp only [owns, own.1, decide_true, Bool.true_and]
    rw [slice.bits _ (by omega) place small]
    congr 1
    apply propext
    omega
  · have unowned : f.owns 0 byte place = false := by
      cases owned : f.owns 0 byte place with
      | false => rfl
      | true =>
          obtain ⟨start, stop, _⟩ := f.owns_bounds 0 byte place owned
          rw [f.extent_int t slice.integer] at stop
          exact absurd ⟨start, stop⟩ own
    rw [unowned, eq_comm, decide_eq_false_iff_not]
    omega

theorem write_slice_bits (books : Books) (data : Bytes) (whole : data.length = total) (n : Nat)
    (fits : n * 2 ^ f.shift < 2 ^ t.nbits) :
    ∃ out, f.write books data 0 (.int n) = .ok out ∧ out.length = total ∧
      ∀ i < 8 * total, (Bytes.ofBig out).testBit i =
        if low ≤ i ∧ i < low + width then n.testBit (i - low) else (Bytes.ofBig data).testBit i := by
  have position := slice.position
  have run := slice.run
  obtain ⟨least, greatest⟩ := t.bounds_unsigned slice.unsigned
  have cast : ((n * 2 ^ f.shift : Nat) : Int) = (n : Int) * 2 ^ f.shift := by simp
  have small : n ≤ n * 2 ^ f.shift := Nat.le_mul_of_pos_right n (Nat.two_pow_pos f.shift)
  have held : t.holds n = true := by
    rw [t.holds_iff]
    omega
  have moved := f.raised_of_holds t slice.sound slice.integer n held
  have inside : t.holds (f.raised n) = true := by
    rw [t.holds_iff, moved, ← cast]
    omega
  have imaged := f.image_int books t (f.slice_held t total low width slice) slice.integer n inside
  rw [moved, ← cast, t.pattern_of_nat _ fits, slice.order] at imaged
  obtain ⟨out, written, painted⟩ := f.write_of_image books slice.sound (f.built_in_int t slice.integer) data 0 (.int n) _
    (f.near_start slice.sound) (by rw [whole]; exact slice.inside) imaged
  have length : out.length = total := painted.length.trans whole
  refine ⟨out, written, length, ?_⟩
  intro i below
  obtain ⟨byte, within, place, low8, rfl⟩ := Bytes.big_index total i below
  have outBit := out.of_big_bit byte place (by omega) low8
  have dataBit := data.of_big_bit byte place (by omega) low8
  rw [length] at outBit
  rw [whole] at dataBit
  have owns := f.owns_slice t total low width slice byte place within low8
  rw [outBit, dataBit]
  by_cases own : low ≤ 8 * (total - 1 - byte) + place ∧ 8 * (total - 1 - byte) + place < low + width
  · have owned : f.owns 0 byte place = true := by rw [owns, decide_eq_true own]
    obtain ⟨start, stop, _⟩ := f.owns_bounds 0 byte place owned
    rw [f.extent_int t slice.integer] at stop
    have moved : 8 * (t.nbytes - 1 - (byte - (f.span 0).start)) + place =
        8 * (total - 1 - byte) + place - low + f.shift := by omega
    rw [if_pos own, painted.inside byte place owned]
    refine (Bytes.bit_big t.nbytes (n * 2 ^ f.shift) (byte - (f.span 0).start) place (by omega) low8).trans ?_
    rw [moved, Nat.mul_comm n, Nat.testBit_two_pow_mul, decide_eq_true (Nat.le_add_left _ _), Bool.true_and,
      Nat.add_sub_cancel]
  · have unowned : f.owns 0 byte place = false := by rw [owns, decide_eq_false own]
    rw [if_neg own, painted.outside byte place unowned]

theorem slice_fits (n : Nat) (small : n < 2 ^ width) : n * 2 ^ f.shift < 2 ^ t.nbits := by
  calc
    n * 2 ^ f.shift < 2 ^ width * 2 ^ f.shift := Nat.mul_lt_mul_of_pos_right small (Nat.two_pow_pos _)
    _ = 2 ^ (f.shift + width) := by rw [← Nat.pow_add, Nat.add_comm]
    _ ≤ 2 ^ t.nbits := Nat.pow_le_pow_right (by decide) slice.run

theorem fits_slice (v : Int) (fits : f.Fits t v) : ∃ n : Nat, v = n ∧ n < 2 ^ width := by
  have covered := slice.bits
  cases masked : f.mask with
  | none =>
      simp only [Fits, masked] at fits
      obtain ⟨least, greatest⟩ := t.bounds_unsigned slice.unsigned
      obtain ⟨n, rfl⟩ := Int.eq_ofNat_of_zero_le (show 0 ≤ v by omega)
      have bounds := t.nbytes_bounds
      have top := covered 0 (by omega) 7 (by decide)
      rw [f.covers_unmasked masked 0 7 (by rw [f.extent_int t slice.integer]; omega) (by decide), eq_comm,
        decide_eq_true_eq] at top
      have unshifted : f.shift = 0 := by simp only [shift, masked]
      refine ⟨n, rfl, Nat.lt_of_lt_of_le (show n < 2 ^ t.nbits by omega) (Nat.pow_le_pow_right (by decide) ?_)⟩
      simp only [IntType.nbits]
      omega
  | some mask =>
      simp only [Fits, masked] at fits
      obtain ⟨n, rfl⟩ := Int.eq_ofNat_of_zero_le fits.1
      have inMask := fits.2
      rw [Wide.and_nat _ _ (f.moved_mask_lt mask)] at inMask
      have kept : n = n &&& (mask.toNat >>> f.shift) := by exact_mod_cast inMask
      refine ⟨n, rfl, Nat.lt_pow_two_of_testBit n fun i high => ?_⟩
      have narrow := f.mask_narrow t slice.integer slice.sound mask masked
      rw [kept, Nat.testBit_and, Nat.testBit_shiftRight]
      by_cases within : f.shift + i < 8 * t.nbytes
      · obtain ⟨byte, inside, place, small, index⟩ := Bytes.big_index t.nbytes (f.shift + i) within
        have own := f.covers_masked mask t masked slice.integer byte place inside small
        rw [covered byte inside place small, slice.order] at own
        have clear : mask.toNat.testBit (f.shift + i) = false := by
          rw [index]
          refine own.symm.trans (decide_eq_false ?_)
          omega
        rw [clear, Bool.and_false]
      · have clear : mask.toNat.testBit (f.shift + i) = false :=
          Nat.testBit_lt_two_pow (Nat.lt_of_lt_of_le narrow (Nat.pow_le_pow_right (by decide) (Nat.le_of_not_lt within)))
        rw [clear, Bool.and_false]

-- What is read could be written back without a change, so its bits are those of the run.
theorem read_slice (books : Books) (data : Bytes) (whole : data.length = total) :
    f.decode books data true none = .ok (.int (Bytes.ofBig data / 2 ^ low % 2 ^ width : Nat)) := by
  obtain ⟨v, fits, read, back⟩ := f.read_then_write books t slice.sound (f.slice_held t total low width slice)
    slice.integer 0 (f.near_start slice.sound) data (by rw [whole]; exact slice.inside) true none
  obtain ⟨n, rfl, small⟩ := f.fits_slice t total low width slice v fits
  obtain ⟨out, written, _, bits⟩ := f.write_slice_bits t total low width slice books data whole n
    (f.slice_fits t total low width slice n small)
  have same : out = data := by
    rw [if_pos rfl, written] at back
    exact Except.ok.inj back
  have value : n = Bytes.ofBig data / 2 ^ low % 2 ^ width := by
    apply Nat.eq_of_testBit_eq
    intro i
    rw [Nat.testBit_mod_two_pow, Nat.testBit_div_two_pow]
    by_cases within : i < width
    · have position := slice.position
      have run := slice.run
      obtain ⟨room, inside⟩ := f.slice_room t total low width slice
      have bit := bits (i + low) (by omega)
      rw [if_pos (by omega), Nat.add_sub_cancel, same] at bit
      rw [bit, decide_eq_true within, Bool.true_and]
    · rw [decide_eq_false within, Bool.false_and]
      exact Nat.testBit_lt_two_pow (Nat.lt_of_lt_of_le small (Nat.pow_le_pow_right (by decide) (Nat.le_of_not_lt within)))
  rw [← value]
  exact read

-- A number that leaves the type once it is moved up to the field is refused, whatever the buffer holds.
theorem write_slice_refused (books : Books) (data : Bytes) (whole : data.length = total) (n : Nat)
    (held : n < 2 ^ t.nbits) (large : 2 ^ t.nbits ≤ n * 2 ^ f.shift) :
    f.write books data 0 (.int n) = .error (.outOfRange (.value (n * 2 ^ f.shift : Nat) t.least t.greatest)) := by
  obtain ⟨least, greatest⟩ := t.bounds_unsigned slice.unsigned
  have own : t.holds n = true := by
    rw [t.holds_iff]
    omega
  have cast : ((n * 2 ^ f.shift : Nat) : Int) = (n : Int) * 2 ^ f.shift := by simp
  have moved := f.raised_of_holds t slice.sound slice.integer n own
  have outside : t.holds (n * 2 ^ f.shift : Nat) = false := by
    rw [← Bool.not_eq_true, t.holds_iff]
    omega
  apply f.write_of_fault books data 0 _ _ (by rw [whole]; exact slice.inside)
  have encoded : f.encode books (.int n) = .error (.outOfRange (.value (n * 2 ^ f.shift : Nat) t.least t.greatest)) := by
    rw [f.encode_int books t slice.integer, moved, ← cast, IntType.encode, outside]
    rfl
  exact Attempt.bind_of_error _ _ _ encoded

end Slices

end Field

end SpaceLink
