import SpaceLink.Number.Shortest

/-!
Numbers with a set count of digits: after the point, or after the first digit with an exponent. The
exact binary value is rounded, ties to even.
-/

set_option autoImplicit false

namespace SpaceLink.Places

def pointed (places : Nat) (ds : List Char) : List Char :=
  if places = 0 then ds else ds.take (ds.length - places) ++ '.' :: ds.drop (ds.length - places)

def fixed (x : Binary64) (places : Nat) : List Char :=
  let (m, w) := x.parts
  let units := roundQuotient (m * 2 ^ w.toNat * 10 ^ places) (2 ^ (-w).toNat) .toEven
  pointed places (Numeral.padded 10 (places + 1) units)

-- The magnitude of a finite number rounded to `places + 1` digits, and the power of ten of the first.
def scientific (x : Binary64) (places : Nat) : List Char × Int :=
  let (m, w) := x.parts
  if m = 0 then (pointed places (List.replicate (places + 1) '0'), 0)
  else
    let leading := Decimal.scale m w - 1
    let grid := leading - places
    let units := roundQuotient (m * 2 ^ w.toNat * 10 ^ (-grid).toNat)
      (2 ^ (-w).toNat * 10 ^ grid.toNat) .toEven
    if units = 10 ^ (places + 1) then (pointed places (Numeral.digits 10 (units / 10)), leading + 1)
    else (pointed places (Numeral.digits 10 units), leading)

end SpaceLink.Places
