import SpaceLink.DataType.Primitive

/-!
The bits of byte strings. A string is known by its length and its bits; a number spelled in bytes has
its own bits, eight in each byte, in the byte that its order gives them.
-/

set_option autoImplicit false

namespace SpaceLink

namespace Bytes

-- Places count from the lowest bit of a byte. There are no bits past the end of the string.
def bit (bytes : Bytes) (byte place : Nat) : Bool := (bytes.getD byte 0).toNat.testBit place

theorem bit_of_byte (a b : Bytes) (i j place : Nat) (same : a[i]? = b[j]?) :
    a.bit i place = b.bit j place := by
  simp only [bit, List.getD_eq_getElem?_getD, same]

theorem byte_high_bit (b : UInt8) (place : Nat) (high : 8 ≤ place) : b.toNat.testBit place = false := by
  apply Nat.testBit_lt_two_pow
  exact Nat.lt_of_lt_of_le b.toNat_lt (Nat.pow_le_pow_right (by decide) high)

theorem byte_of_bits (a b : UInt8) (same : ∀ place < 8, a.toNat.testBit place = b.toNat.testBit place) :
    a = b := by
  apply UInt8.toNat_inj.mp
  apply Nat.eq_of_testBit_eq
  intro place
  by_cases low : place < 8
  · exact same place low
  · rw [byte_high_bit a place (by omega), byte_high_bit b place (by omega)]

theorem bytes_of_bits (a b : Bytes) (sameLength : a.length = b.length)
    (same : ∀ byte < a.length, ∀ place < 8, a.bit byte place = b.bit byte place) : a = b := by
  apply List.ext_getElem sameLength
  intro byte insideA insideB
  apply byte_of_bits
  intro place low
  simpa [bit, List.getD_eq_getElem?_getD, insideA, insideB] using same byte insideA place low

theorem bit_append_left (a b : Bytes) (byte place : Nat) (inside : byte < a.length) :
    (a ++ b).bit byte place = a.bit byte place :=
  bit_of_byte _ _ _ _ _ (List.getElem?_append_left inside)

theorem bit_append_right (a b : Bytes) (byte place : Nat) (past : a.length ≤ byte) :
    (a ++ b).bit byte place = b.bit (byte - a.length) place :=
  bit_of_byte _ _ _ _ _ (List.getElem?_append_right past)

theorem bit_take (bytes : Bytes) (count byte place : Nat) (inside : byte < count) :
    bit (bytes.take count) byte place = bytes.bit byte place := by
  apply bit_of_byte
  rw [List.getElem?_take, if_pos inside]

theorem bit_drop (bytes : Bytes) (start byte place : Nat) :
    bit (bytes.drop start) byte place = bytes.bit (start + byte) place :=
  bit_of_byte _ _ _ _ _ List.getElem?_drop

theorem bit_zeros (count byte place : Nat) : bit (List.replicate count 0) byte place = false := by
  simp only [bit, List.getD_eq_getElem?_getD, List.getElem?_replicate]
  split <;> simp

-- A piece put in the place of as many bytes.
theorem length_splice (bytes piece : Bytes) (start : Nat) (room : start + piece.length ≤ bytes.length) :
    (bytes.take start ++ piece ++ bytes.drop (start + piece.length)).length = bytes.length := by
  simp only [List.length_append, List.length_take, List.length_drop]
  omega

theorem bit_splice (bytes piece : Bytes) (start byte place : Nat) (room : start + piece.length ≤ bytes.length) :
    bit (bytes.take start ++ piece ++ bytes.drop (start + piece.length)) byte place =
      if start ≤ byte ∧ byte < start + piece.length then piece.bit (byte - start) place else bytes.bit byte place := by
  have front : (bytes.take start).length = start := by
    rw [List.length_take]
    omega
  by_cases before : byte < start
  · rw [if_neg (by omega), List.append_assoc, bit_append_left _ _ _ _ (by omega), bit_take _ _ _ _ before]
  · rw [List.append_assoc, bit_append_right _ _ _ _ (by omega), front]
    by_cases within : byte < start + piece.length
    · rw [if_pos (by omega), bit_append_left _ _ _ _ (by omega)]
    · rw [if_neg (by omega), bit_append_right _ _ _ _ (by omega), bit_drop,
        show start + piece.length + (byte - start - piece.length) = byte by omega]

-- Two slices whose bits agree over the first `width` bytes start with the same bytes.
theorem take_of_bits (a b : Bytes) (width : Nat) (longA : width ≤ a.length) (longB : width ≤ b.length)
    (same : ∀ byte < width, ∀ place < 8, a.bit byte place = b.bit byte place) :
    a.take width = b.take width := by
  apply bytes_of_bits
  · simp only [List.length_take]
    omega
  · intro byte inside place low
    rw [List.length_take] at inside
    rw [bit_take _ _ _ _ (by omega), bit_take _ _ _ _ (by omega)]
    exact same byte (by omega) place low

theorem of_little_test_bit (bytes : Bytes) (byte place : Nat) (low : place < 8) :
    (ofLittle bytes).testBit (8 * byte + place) = bytes.bit byte place := by
  induction bytes generalizing byte with
  | nil => simp [ofLittle, bit]
  | cons b rest ih =>
      have split : ofLittle (b :: rest) = 2 ^ 8 * ofLittle rest + b.toNat := by
        simp only [ofLittle]
        omega
      rw [split, Nat.testBit_two_pow_mul_add _ b.toNat_lt]
      cases byte with
      | zero => simp [low, bit]
      | succ byte =>
          rw [if_neg (by omega), show 8 * (byte + 1) + place - 8 = 8 * byte + place by omega, ih byte]
          rfl

theorem bit_little (width n byte place : Nat) (inside : byte < width) (low : place < 8) :
    (little width n).bit byte place = n.testBit (8 * byte + place) := by
  rw [← of_little_test_bit _ _ _ low, of_little_little, show (256 : Nat) = 2 ^ 8 from rfl,
    ← Nat.pow_mul, Nat.testBit_mod_two_pow]
  simp [show 8 * byte + place < 8 * width by omega]

theorem bit_reverse (bytes : Bytes) (byte place : Nat) (inside : byte < bytes.length) :
    bit bytes.reverse byte place = bytes.bit (bytes.length - 1 - byte) place :=
  bit_of_byte _ _ _ _ _ (List.getElem?_reverse inside)

end Bytes

namespace ByteOrder

-- The byte of a number, counted from its lowest, that stands at a place of its spelling.
def weight (order : ByteOrder) (width byte : Nat) : Nat :=
  match order with
  | .msb => width - 1 - byte
  | .lsb => byte

theorem weight_lt (order : ByteOrder) (width byte : Nat) (inside : byte < width) :
    order.weight width byte < width := by
  cases order with
  | msb => simp only [weight]; omega
  | lsb => exact inside

theorem weight_weight (order : ByteOrder) (width byte : Nat) (inside : byte < width) :
    order.weight width (order.weight width byte) = byte := by
  cases order with
  | msb => simp only [weight]; omega
  | lsb => rfl

theorem length_spell (order : ByteOrder) (width n : Nat) : (order.spell width n).length = width := by
  cases order with
  | msb => exact Bytes.length_big width n
  | lsb => exact Bytes.length_little width n

theorem read_spell (order : ByteOrder) (width n : Nat) : order.read (order.spell width n) = n % 256 ^ width := by
  cases order with
  | msb => exact Bytes.of_big_big width n
  | lsb => exact Bytes.of_little_little width n

theorem spell_read (order : ByteOrder) (bytes : Bytes) : order.spell bytes.length (order.read bytes) = bytes := by
  cases order with
  | msb => exact Bytes.big_of_big bytes
  | lsb => exact Bytes.little_of_little bytes

theorem read_lt (order : ByteOrder) (bytes : Bytes) : order.read bytes < 2 ^ (8 * bytes.length) := by
  rw [Nat.pow_mul]
  cases order with
  | msb => simpa [read, Bytes.ofBig] using Bytes.of_little_lt bytes.reverse
  | lsb => exact Bytes.of_little_lt bytes

theorem bit_spell (order : ByteOrder) (width n byte place : Nat) (inside : byte < width) (low : place < 8) :
    (order.spell width n).bit byte place = n.testBit (8 * order.weight width byte + place) := by
  cases order with
  | lsb => exact Bytes.bit_little width n byte place inside low
  | msb =>
      have long : byte < (Bytes.little width n).length := by rw [Bytes.length_little]; exact inside
      simp only [spell, Bytes.big, weight, Bytes.bit_reverse _ _ _ long, Bytes.length_little]
      exact Bytes.bit_little width n _ place (by omega) low

theorem read_test_bit (order : ByteOrder) (bytes : Bytes) (byte place : Nat) (inside : byte < bytes.length)
    (low : place < 8) :
    (order.read bytes).testBit (8 * order.weight bytes.length byte + place) = bytes.bit byte place := by
  rw [← bit_spell order bytes.length _ byte place inside low, spell_read]

-- Every bit of a number that `width` bytes can hold stands in one of them.
theorem bit_index (order : ByteOrder) (width i : Nat) (inside : i < 8 * width) :
    ∃ byte < width, ∃ place < 8, i = 8 * order.weight width byte + place := by
  have bound : i / 8 < width := by omega
  refine ⟨order.weight width (i / 8), weight_lt _ _ _ bound, i % 8, by omega, ?_⟩
  rw [weight_weight _ _ _ bound]
  omega

end ByteOrder

end SpaceLink
