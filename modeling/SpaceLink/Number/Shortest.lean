import SpaceLink.Number.Binary64
import SpaceLink.Number.Numeral

/-!
Shortest decimals. A finite number stands for an interval of reals, those that round to it; of the
decimals in the interval the ones with the fewest digits are the candidates, and the nearest of them
is chosen. Everything is compared exactly, in natural numbers.
-/

set_option autoImplicit false

namespace SpaceLink

structure Decimal where
  digits : Nat
  exponent : Int
deriving DecidableEq, Repr

namespace Decimal

def numeral (d : Decimal) : List Char := Numeral.digits 10 d.digits

def leading (d : Decimal) : Int := d.exponent + (d.numeral.length : Int) - 1

def compareScaled (a : Nat) (i : Int) (m : Nat) (w : Int) : Ordering :=
  compare (a * 10 ^ i.toNat * 2 ^ (-w).toNat) (m * 2 ^ w.toNat * 10 ^ (-i).toNat)

-- The decimal lies between the points halfway to the neighbours of the number; the ends belong to the interval of an
-- even significand.
def inInterval (d : Decimal) (m : Nat) (w : Int) (narrowBelow : Bool) : Bool :=
  let low := compareScaled d.digits d.exponent (if narrowBelow then 4 * m - 1 else 4 * m - 2) (w - 2)
  let high := compareScaled d.digits d.exponent (4 * m + 2) (w - 2)
  let ends := m % 2 == 0
  (low == .gt || (ends && low == .eq)) && (high == .lt || (ends && high == .eq))

-- The least `k` with `m * 2 ^ w < 10 ^ k`, for `m` above zero.
def scale (m : Nat) (w : Int) : Int :=
  let low := ((m.log2 : Int) + w) * 30103 / 100000
  let below (k : Int) := compareScaled 1 k m w == .gt
  if below (low - 1) then low - 1
  else if below low then low
  else if below (low + 1) then low + 1
  else low + 2

-- The greatest multiple of `10 ^ place` that is not above `m * 2 ^ w`, in units of the grid.
def gridFloor (m : Nat) (w place : Int) : Nat :=
  m * 2 ^ w.toNat * 10 ^ (-place).toNat / (10 ^ place.toNat * 2 ^ (-w).toNat)

-- The better neighbour of the number on one grid, if a neighbour lies in its interval.
def onGrid (m : Nat) (w : Int) (narrowBelow : Bool) (tie : Tie) (place : Int) : Option Decimal :=
  let floor := gridFloor m w place
  let down : Decimal := ⟨floor, place⟩
  let up : Decimal := ⟨floor + 1, place⟩
  match down.inInterval m w narrowBelow, up.inInterval m w narrowBelow with
  | false, false => none
  | true, false => some down
  | false, true => some up
  | true, true =>
    match compareScaled (2 * floor + 1) place (2 * m) w, tie with
    | .gt, _ => some down
    | .lt, _ => some up
    | .eq, .up => some up
    | .eq, .toEven => some (if floor % 2 = 0 then down else up)

def strip (fuel : Nat) (d : Decimal) : Decimal :=
  match fuel with
  | 0 => d
  | fuel + 1 =>
    if d.digits ≠ 0 ∧ d.digits % 10 = 0 then strip fuel ⟨d.digits / 10, d.exponent + 1⟩ else d

def exact (m : Nat) (w : Int) : Decimal :=
  if w < 0 then ⟨m * 5 ^ (-w).toNat, w⟩ else ⟨m * 2 ^ w.toNat, 0⟩

def shortest (x : Binary64) (tie : Tie) : Decimal :=
  let (m, w) := x.parts
  if m = 0 then ⟨0, 0⟩
  else
    let narrowBelow := x.magnitude % 2 ^ 52 == 0 && decide (2 ^ 53 ≤ x.magnitude)
    let k := scale m w
    let found := (List.range 17).findSome? fun (n : Nat) => onGrid m w narrowBelow tie (k - (n : Int) - 1)
    strip 400 (found.getD (exact m w))

end Decimal

end SpaceLink
