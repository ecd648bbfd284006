import SpaceLink.Number.Power

/-!
Integers are carried in 128 bits, two's complement. Arithmetic is exact on `Int`; these are the
range, the checks against it, and the operations that look at bits.
-/

set_option autoImplicit false

namespace SpaceLink.Wide

def least : Int := -2 ^ 127
def greatest : Int := 2 ^ 127 - 1

def fits (n : Int) : Bool := decide (least ≤ n) && decide (n ≤ greatest)

def checked (n : Int) : Option Int := if fits n then some n else none

def clamp (n : Int) : Int := if n < least then least else if greatest < n then greatest else n

-- The integer of the range with the same low 128 bits.
def wrap (n : Int) : Int := n.bmod (2 ^ 128)

def bits (n : Int) : BitVec 128 := BitVec.ofInt 128 n

def and (a b : Int) : Int := (bits a &&& bits b).toInt
def or (a b : Int) : Int := (bits a ||| bits b).toInt
def xor (a b : Int) : Int := (bits a ^^^ bits b).toInt
def complement (a : Int) : Int := -a - 1

def shiftLeft (a : Int) (places : Nat) : Int := wrap (a * 2 ^ places)

-- Places to the right, rounding toward the lesser integer.
def shiftRight (a : Int) (places : Nat) : Int := a.fdiv (2 ^ places)

theorem fits_iff (n : Int) : fits n = true ↔ least ≤ n ∧ n ≤ greatest := by
  simp [fits]

theorem wrap_of_fits {n : Int} (h : fits n = true) : wrap n = n := by
  rw [fits_iff] at h
  simp only [least, greatest] at h
  unfold wrap
  rw [Int.bmod_eq_of_le] <;> omega

end SpaceLink.Wide
