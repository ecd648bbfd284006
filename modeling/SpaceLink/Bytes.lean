import SpaceLink.Number.Power

/-!
Byte strings and the numbers they spell. The main facts: a number below 256 ^ width is read back
from its bytes, every byte string is the spelling of its number, and both orders have the stated
width.
-/

set_option autoImplicit false

namespace SpaceLink

abbrev Bytes := List UInt8

namespace Bytes

def little : Nat → Nat → Bytes
  | 0, _ => []
  | width + 1, n => UInt8.ofNat n :: little width (n / 256)

def ofLittle : Bytes → Nat
  | [] => 0
  | b :: rest => b.toNat + 256 * ofLittle rest

def big (width n : Nat) : Bytes := (little width n).reverse

def ofBig (bytes : Bytes) : Nat := ofLittle bytes.reverse

-- The bytes from `start` up to `stop`, if the string reaches that far and the range is not reversed.
def slice? (bytes : Bytes) (start stop : Nat) : Option Bytes :=
  if start ≤ stop ∧ stop ≤ bytes.length then some ((bytes.drop start).take (stop - start)) else none

def trimZeros (bytes : Bytes) : Bytes := (bytes.reverse.dropWhile (· == 0)).reverse

def fit (width : Nat) (bytes : Bytes) : Bytes :=
  bytes.take width ++ List.replicate (width - bytes.length) 0

theorem length_little (width n : Nat) : (little width n).length = width := by
  induction width generalizing n with
  | zero => rfl
  | succ width ih => simp [little, ih]

theorem length_big (width n : Nat) : (big width n).length = width := by
  simp [big, length_little]

theorem of_little_lt (bytes : Bytes) : ofLittle bytes < 256 ^ bytes.length := by
  induction bytes with
  | nil => simp [ofLittle]
  | cons b rest ih =>
    have bound := b.toNat_lt
    simp only [ofLittle, List.length_cons, Nat.pow_succ]
    omega

theorem of_big_lt (bytes : Bytes) : ofBig bytes < 256 ^ bytes.length := by
  have bound := of_little_lt bytes.reverse
  rwa [List.length_reverse] at bound

theorem of_little_little (width n : Nat) : ofLittle (little width n) = n % 256 ^ width := by
  induction width generalizing n with
  | zero => simp [little, ofLittle, Nat.mod_one]
  | succ width ih =>
    simp only [little, ofLittle, ih, Nat.pow_succ]
    rw [Nat.mul_comm (256 ^ width) 256, Nat.mod_mul]
    simp

theorem little_of_little (bytes : Bytes) : little bytes.length (ofLittle bytes) = bytes := by
  induction bytes with
  | nil => rfl
  | cons b rest ih =>
    have bound := b.toNat_lt
    simp only [ofLittle, List.length_cons, little]
    have quotient : (b.toNat + 256 * ofLittle rest) / 256 = ofLittle rest := by omega
    rw [quotient, ih]
    congr 1
    apply UInt8.toNat_inj.mp
    simp only [UInt8.toNat_ofNat']
    omega

theorem of_big_big (width n : Nat) : ofBig (big width n) = n % 256 ^ width := by
  simp [ofBig, big, of_little_little]

theorem big_of_big (bytes : Bytes) : big bytes.length (ofBig bytes) = bytes := by
  have spelled := little_of_little bytes.reverse
  rw [List.length_reverse] at spelled
  simp [big, ofBig, spelled]

theorem length_fit (width : Nat) (bytes : Bytes) : (fit width bytes).length = width := by
  simp only [fit, List.length_append, List.length_take, List.length_replicate]
  omega

end Bytes

end SpaceLink
