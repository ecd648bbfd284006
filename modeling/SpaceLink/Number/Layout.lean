import SpaceLink.Number.Shortest

/-!
How the shortest decimal of a number is laid out as text: where positional notation ends, whether a
whole number keeps a point, and whether a positive exponent has a sign. Each kind of text the library
writes has one record.
-/

set_option autoImplicit false

namespace SpaceLink

structure FloatLayout where
  -- The powers of ten of a first digit for which no exponent is written.
  positional : Int → Bool
  pointZero : Bool
  exponentPlus : Bool
  tie : Tie

namespace FloatLayout

def plain : FloatLayout := ⟨fun _ => true, false, false, .up⟩

-- As a literal: a point after a whole number, an exponent from 1e16 up and below 1e-4.
def literal : FloatLayout := ⟨fun e => decide (-4 ≤ e ∧ e < 16), true, false, .up⟩

-- In JSON: a point after a whole number, an exponent from 1e16 up and below 1e-5.
def json : FloatLayout := ⟨fun e => decide (-5 ≤ e ∧ e < 16), true, true, .toEven⟩

def scientific : FloatLayout := ⟨fun _ => false, false, false, .up⟩

def positionalText (layout : FloatLayout) (d : Decimal) : List Char :=
  let ds := d.numeral
  let places := (-d.exponent).toNat
  if 0 ≤ d.exponent then
    ds ++ List.replicate d.exponent.toNat '0' ++ (if layout.pointZero then ['.', '0'] else [])
  else if places < ds.length then
    ds.take (ds.length - places) ++ '.' :: ds.drop (ds.length - places)
  else '0' :: '.' :: List.replicate (places - ds.length) '0' ++ ds

def scientificText (layout : FloatLayout) (d : Decimal) : List Char :=
  let ds := d.numeral
  let e := d.leading
  let fraction := if ds.length ≤ 1 then [] else '.' :: ds.drop 1
  let sign := if e < 0 then ['-'] else if layout.exponentPlus then ['+'] else []
  ds.take 1 ++ fraction ++ 'e' :: sign ++ Numeral.digits 10 e.natAbs

def magnitudeText (layout : FloatLayout) (d : Decimal) : List Char :=
  if layout.positional d.leading then layout.positionalText d else layout.scientificText d

def render (layout : FloatLayout) (x : Binary64) : String :=
  if x.isNaN then "NaN"
  else
    let sign := if x.isNegative then "-" else ""
    if x.isInfinite then sign ++ "inf"
    else sign ++ String.ofList (layout.magnitudeText (Decimal.shortest x layout.tie))

end FloatLayout

end SpaceLink
