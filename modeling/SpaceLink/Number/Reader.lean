import SpaceLink.Number.Binary64
import SpaceLink.Number.Numeral

/-!
Numbers read from decimal text. A decimal is read to the nearest double, ties to even, whatever its
length.
-/

set_option autoImplicit false

namespace SpaceLink.Reader

-- `digits * 10 ^ exponent` to the nearest double. Exponents far outside the doubles are settled without forming the
-- power.
def scaled (negative : Bool) (digits : Nat) (exponent : Int) : Binary64 :=
  let leading := exponent + (Numeral.digits 10 digits).length
  if digits = 0 then Binary64.ofMagnitude negative 0
  else if 400 < leading then Binary64.ofMagnitude negative BinaryFormat.double.infinity
  else if leading < -400 then Binary64.ofMagnitude negative 0
  else Binary64.ofRatio negative (digits * 10 ^ exponent.toNat) (10 ^ (-exponent).toNat)

def isDigit (c : Char) : Bool := '0' ≤ c && c ≤ '9'

def integer? (base : Nat) (text : List Char) : Option Int :=
  (Numeral.integer? base text).bind Wide.checked

def exponent? : List Char → Option Int
  | [] => some 0
  | c :: rest => if c == 'e' || c == 'E' then Numeral.integer? 10 rest else none

-- Digits with at most one point among them and at least one digit, then an optional exponent.
def unsignedDecimal? (negative : Bool) (text : List Char) : Option Binary64 :=
  let whole := text.takeWhile isDigit
  let afterWhole := text.dropWhile isDigit
  let (fraction, rest) := match afterWhole with
    | '.' :: more => (more.takeWhile isDigit, more.dropWhile isDigit)
    | other => ([], other)
  match Numeral.natural? 10 (whole ++ fraction), exponent? rest with
  | some digits, some e => some (scaled negative digits (e - fraction.length))
  | _, _ => none

-- A decimal, an infinity or NaN with an optional sign; the names are read in any case.
def decimal? (text : List Char) : Option Binary64 :=
  let (negative, body) := match text with
    | '-' :: rest => (true, rest)
    | '+' :: rest => (false, rest)
    | rest => (false, rest)
  let name := body.map Char.toLower
  if name = "nan".toList then
    some (if negative then Binary64.nan.neg else Binary64.nan)
  else if name = "inf".toList ∨ name = "infinity".toList then
    some (Binary64.ofMagnitude negative BinaryFormat.double.infinity)
  else unsignedDecimal? negative body

end SpaceLink.Reader
