import SpaceLink.Number.Wide
import SpaceLink.Number.Rounding

/-!
Double precision numbers as their 64 bits. What a number stands for, its order, its conversions to
integers and to single precision are computed exactly from the bits; sums, products, powers and the
elementary functions are those of the machine.
-/

set_option autoImplicit false

namespace SpaceLink

-- A binary interchange format: bits of the significand with the hidden one, weight of the last bit of the least
-- numbers, and bits of the stored fraction and exponent.
structure BinaryFormat where
  precision : Nat
  leastExponent : Int
  exponentBits : Nat

namespace BinaryFormat

def double : BinaryFormat := ⟨53, -1074, 11⟩
def single : BinaryFormat := ⟨24, -149, 8⟩

def fractionBits (f : BinaryFormat) : Nat := f.precision - 1

def infinity (f : BinaryFormat) : Nat := (2 ^ f.exponentBits - 1) * 2 ^ f.fractionBits

-- `num / den` scaled by the power of two that makes `exponent` the weight of one, rounded.
def significand (num den : Nat) (exponent : Int) : Nat :=
  roundQuotient (num * 2 ^ (-exponent).toNat) (den * 2 ^ exponent.toNat) .toEven

def lastWeight (f : BinaryFormat) (num den : Nat) : Int :=
  let low : Int := (num.log2 : Int) - den.log2 - f.precision
  let tooLow := num * 2 ^ (-low).toNat ≥ den * 2 ^ low.toNat * 2 ^ f.precision
  max f.leastExponent (if tooLow then low + 1 else low)

-- The bits of the number nearest to `num / den`, ties to even; infinity beyond the greatest.
def nearest (f : BinaryFormat) (num den : Nat) : Nat :=
  if num = 0 then 0
  else
    let weight := f.lastWeight num den
    let m := significand num den weight
    if m < 2 ^ f.fractionBits then m
    else
      let steps := (weight - f.leastExponent).toNat + 1
      min f.infinity (steps * 2 ^ f.fractionBits + (m - 2 ^ f.fractionBits))

def parts (f : BinaryFormat) (magnitude : Nat) : Nat × Int :=
  let exponent := magnitude / 2 ^ f.fractionBits
  let fraction := magnitude % 2 ^ f.fractionBits
  if exponent = 0 then (fraction, f.leastExponent)
  else (2 ^ f.fractionBits + fraction, f.leastExponent + exponent - 1)

end BinaryFormat

structure Binary64 where
  bits : UInt64
deriving DecidableEq, Repr

namespace Binary64

def ofMagnitude (negative : Bool) (magnitude : Nat) : Binary64 :=
  ⟨UInt64.ofNat (magnitude + if negative then 2 ^ 63 else 0)⟩

def ofFloat (x : Float) : Binary64 := ⟨x.toBits⟩
def toFloat (x : Binary64) : Float := Float.ofBits x.bits

def nan : Binary64 := ⟨0x7ff8000000000000⟩
def zero : Binary64 := ⟨0⟩

def isNegative (x : Binary64) : Bool := decide (2 ^ 63 ≤ x.bits.toNat)
def magnitude (x : Binary64) : Nat := x.bits.toNat % 2 ^ 63
def isNaN (x : Binary64) : Bool := decide (BinaryFormat.double.infinity < x.magnitude)
def isInfinite (x : Binary64) : Bool := decide (x.magnitude = BinaryFormat.double.infinity)
def isFinite (x : Binary64) : Bool := decide (x.magnitude < BinaryFormat.double.infinity)
def isZero (x : Binary64) : Bool := decide (x.magnitude = 0)
def abs (x : Binary64) : Binary64 := ofMagnitude false x.magnitude
def neg (x : Binary64) : Binary64 := ofMagnitude (!x.isNegative) x.magnitude

-- Significand and weight: a finite number is plus or minus `m * 2 ^ w`.
def parts (x : Binary64) : Nat × Int := BinaryFormat.double.parts x.magnitude

-- Numbers that are not NaN are ordered as these; the two zeros are one.
def rank (x : Binary64) : Int := if x.isNegative then -x.magnitude else x.magnitude

def eq (x y : Binary64) : Bool := !x.isNaN && !y.isNaN && x.rank == y.rank
def lt (x y : Binary64) : Bool := !x.isNaN && !y.isNaN && decide (x.rank < y.rank)

def compare? (x y : Binary64) : Option Ordering :=
  if x.isNaN || y.isNaN then none else some (compare x.rank y.rank)

def ofRatio (negative : Bool) (num den : Nat) : Binary64 :=
  ofMagnitude negative (BinaryFormat.double.nearest num den)

def ofInt (n : Int) : Binary64 := ofRatio (decide (n < 0)) n.natAbs 1

def wholePart (x : Binary64) (scale : Nat) : Nat :=
  let (m, w) := x.parts
  m * scale * 2 ^ w.toNat / 2 ^ (-w).toNat

def truncate (x : Binary64) : Int :=
  if x.isNegative then -(x.wholePart 1 : Int) else x.wholePart 1

-- The integer of the 128-bit range nearest to a number without its fraction; NaN gives zero.
def toWide (x : Binary64) : Int :=
  if x.isNaN then 0
  else if x.isInfinite then (if x.isNegative then Wide.least else Wide.greatest)
  else Wide.clamp x.truncate

-- The 32 bits of the nearest single precision number. NaN stays NaN and keeps the top of its payload.
def toSingleBits (x : Binary64) : Nat :=
  let sign := if x.isNegative then 2 ^ 31 else 0
  if x.isNaN then sign + (BinaryFormat.single.infinity ||| 2 ^ 22 ||| x.magnitude % 2 ^ 52 / 2 ^ 29)
  else if x.isInfinite then sign + BinaryFormat.single.infinity
  else
    let (m, w) := x.parts
    sign + BinaryFormat.single.nearest (m * 2 ^ w.toNat) (2 ^ (-w).toNat)

def ofSingleBits (bits : Nat) : Binary64 :=
  let negative := decide (2 ^ 31 ≤ bits)
  let magnitude := bits % 2 ^ 31
  if BinaryFormat.single.infinity < magnitude then
    ofMagnitude negative (BinaryFormat.double.infinity ||| 2 ^ 51 ||| magnitude % 2 ^ 23 * 2 ^ 29)
  else if magnitude = BinaryFormat.single.infinity then
    ofMagnitude negative BinaryFormat.double.infinity
  else
    let (m, w) := BinaryFormat.single.parts magnitude
    ofRatio negative (m * 2 ^ w.toNat) (2 ^ (-w).toNat)

def add (x y : Binary64) : Binary64 := ofFloat (x.toFloat + y.toFloat)
def sub (x y : Binary64) : Binary64 := ofFloat (x.toFloat - y.toFloat)
def mul (x y : Binary64) : Binary64 := ofFloat (x.toFloat * y.toFloat)
def div (x y : Binary64) : Binary64 := ofFloat (x.toFloat / y.toFloat)
def pow (x y : Binary64) : Binary64 := ofFloat (x.toFloat.pow y.toFloat)
def floor (x : Binary64) : Binary64 := ofFloat x.toFloat.floor
def ceil (x : Binary64) : Binary64 := ofFloat x.toFloat.ceil

def trunc (x : Binary64) : Binary64 :=
  if x.isFinite then ofRatio x.isNegative (x.wholePart 1) 1 else x

def roundToEven (x : Binary64) : Binary64 :=
  if x.isFinite then
    let (m, w) := x.parts
    ofRatio x.isNegative (roundQuotient (m * 2 ^ w.toNat) (2 ^ (-w).toNat) .toEven) 1
  else x

end Binary64

end SpaceLink
