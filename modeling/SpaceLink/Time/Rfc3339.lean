import SpaceLink.Number.Numeral
import SpaceLink.Time.Calendar

/-!
Instants as text. They are written with six digits of the second, cut and not rounded, and `Z`; in
messages about ranges a form with spaces is used that shows no more digits than needed. Reading takes
any offset and any number of digits.
-/

set_option autoImplicit false

namespace SpaceLink.Rfc3339

def two (n : Nat) : List Char := Numeral.padded 10 2 n

-- Four digits; years that need more, or are negative, have a sign.
def yearText (year : Int) : List Char :=
  if 0 ≤ year ∧ year ≤ 9999 then Numeral.padded 10 4 year.natAbs
  else (if year < 0 then '-' else '+') :: Numeral.padded 10 4 year.natAbs

def dateText (d : Date) : List Char :=
  yearText d.year ++ '-' :: two d.month ++ '-' :: two d.day

def clockText (c : Civil) : List Char :=
  two c.hour ++ ':' :: two c.minute ++ ':' :: two c.second

def render (t : Instant) : String :=
  let c := Civil.ofInstant t
  String.ofList (dateText c.date ++ 'T' :: clockText c ++ '.' ::
    Numeral.padded 10 6 (c.nanos / 1000) ++ ['Z'])

-- No digits, three, six or nine: the first that lose nothing.
def leastFraction (nanos : Nat) : List Char :=
  if nanos = 0 then []
  else if nanos % 1000000 = 0 then '.' :: Numeral.padded 10 3 (nanos / 1000000)
  else if nanos % 1000 = 0 then '.' :: Numeral.padded 10 6 (nanos / 1000)
  else '.' :: Numeral.padded 10 9 nanos

def renderSpaced (t : Instant) : String :=
  let c := Civil.ofInstant t
  String.ofList (dateText c.date ++ ' ' :: clockText c ++ leastFraction c.nanos ++ " UTC".toList)

def digits? (count : Nat) (text : List Char) : Option (Nat × List Char) :=
  if text.length < count then none
  else (Numeral.natural? 10 (text.take count)).map fun n => (n, text.drop count)

def mark? (mark : Char) : List Char → Option (List Char)
  | c :: rest => if c = mark then some rest else none
  | [] => none

-- A point and digits of the second, of which nine count; no point gives zero.
def fraction? : List Char → Option (Nat × List Char)
  | '.' :: rest =>
    let ds := rest.takeWhile Char.isDigit
    let kept := ds.take 9
    (Numeral.natural? 10 kept).map fun n => (n * 10 ^ (9 - kept.length), rest.dropWhile Char.isDigit)
  | text => some (0, text)

def offset? : List Char → Option (Int × List Char)
  | [] => none
  | c :: rest =>
    if c = 'Z' ∨ c = 'z' then some (0, rest)
    else if c = '+' ∨ c = '-' ∨ c = '\u2212' then do
      let (hours, rest) ← digits? 2 rest
      let rest ← mark? ':' rest
      let (minutes, rest) ← digits? 2 rest
      if 60 ≤ minutes ∨ 24 ≤ hours then none
      else
        let seconds : Int := hours * 3600 + minutes * 60
        some (if c = '+' then seconds else -seconds, rest)
    else none

def read? (text : List Char) : Option Instant := do
  let (year, text) ← digits? 4 text
  let text ← mark? '-' text
  let (month, text) ← digits? 2 text
  let text ← mark? '-' text
  let (day, text) ← digits? 2 text
  let text ← match text with
    | c :: rest => if c = 'T' ∨ c = 't' ∨ c = ' ' then some rest else none
    | [] => none
  let (hour, text) ← digits? 2 text
  let text ← mark? ':' text
  let (minute, text) ← digits? 2 text
  let text ← mark? ':' text
  let (second, text) ← digits? 2 text
  let (nanos, text) ← fraction? text
  let (offset, text) ← offset? text
  if text.isEmpty then
    Civil.toInstant? ⟨⟨year, month, day⟩, hour, minute, second, nanos⟩ offset
  else none

end SpaceLink.Rfc3339
