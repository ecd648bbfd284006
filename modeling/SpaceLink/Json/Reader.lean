import SpaceLink.Json.Document
import SpaceLink.Number.Reader

/-!
A strict reader of JSON documents. An integer within 64 bits stays an integer; every other number is a
double, formed from its first digits that fit 64 bits by one multiplication or division with a power
of ten, and has no value if it is not finite. Values may nest 127 deep.
-/

set_option autoImplicit false

namespace SpaceLink.Document

def deepest : Nat := 127

def isSpace (c : Char) : Bool := c == ' ' || c == '\n' || c == '\t' || c == '\r'

def skipSpace (text : List Char) : List Char := text.dropWhile isSpace

-- `significand * 10 ^ exponent` by machine arithmetic, in steps of 308 powers downward.
def scaleDown (steps : Nat) (x : Binary64) (exponent : Int) : Option Binary64 :=
  let power (e : Nat) : Binary64 := Binary64.ofRatio false (10 ^ e) 1
  if exponent.natAbs ≤ 308 then
    if 0 ≤ exponent then
      let scaled := x.mul (power exponent.natAbs)
      if scaled.isInfinite then none else some scaled
    else some (x.div (power exponent.natAbs))
  else if x.isZero then some x
  else if 0 ≤ exponent then none
  else
    match steps with
    | 0 => some x
    | steps + 1 => scaleDown steps (x.div (power 308)) (exponent + 308)

def ofDigits (negative : Bool) (significand : Nat) (exponent : Int) : Option Binary64 :=
  (scaleDown 3 (Binary64.ofInt significand) exponent).map fun x => if negative then x.neg else x

def leadingDigits : List Char → Nat → Nat × Nat
  | [], acc => (acc, 0)
  | c :: rest, acc =>
    let next := acc * 10 + (c.toNat - 48)
    if next < 2 ^ 64 then leadingDigits rest next else (acc, rest.length + 1)

def floatValue (negative : Bool) (whole fraction : List Char) (exponent : Int) : Option Document :=
  let (significand, dropped) := leadingDigits whole 0
  let (significand, unread) := leadingDigits fraction significand
  (ofDigits negative significand (exponent + dropped - fraction.length + unread)).map .float

-- The greatest exponent that is carried; beyond it a number is zero or out of range.
def exponentLimit : Nat := 2147483647

def numberTail (text : List Char) : Option (List Char × Option Int × List Char) := do
  let (fraction, text) ← match text with
    | '.' :: rest =>
      let ds := rest.takeWhile Reader.isDigit
      if ds.isEmpty then none else some (ds, rest.dropWhile Reader.isDigit)
    | _ => some ([], text)
  match text with
  | c :: rest =>
    if c = 'e' ∨ c = 'E' then
      let (negative, rest) := match rest with
        | '-' :: more => (true, more)
        | '+' :: more => (false, more)
        | _ => (false, rest)
      let ds := rest.takeWhile Reader.isDigit
      let n ← Numeral.natural? 10 ds
      some (fraction, some (if negative then -(n : Int) else n), rest.dropWhile Reader.isDigit)
    else some (fraction, none, text)
  | [] => some (fraction, none, text)

def numberValue (negative : Bool) (whole fraction : List Char) (exponent : Option Int) :
    Option Document :=
  match fraction, exponent with
  | [], none => do
    let n ← Numeral.natural? 10 whole
    if negative then
      if 0 < n ∧ n ≤ 2 ^ 63 then some (.int (-(n : Int))) else floatValue true whole [] 0
    else if n < 2 ^ 64 then some (.int n) else floatValue false whole [] 0
  | _, _ =>
    let e := exponent.getD 0
    if exponentLimit < e.natAbs then
      let blank := (whole ++ fraction).all (· == '0')
      if !blank && decide (0 < e) then none
      else some (.float (Binary64.ofMagnitude negative 0))
    else floatValue negative whole fraction e

def number? (text : List Char) : Option (Document × List Char) := do
  let (negative, text) := match text with
    | '-' :: rest => (true, rest)
    | _ => (false, text)
  let whole := text.takeWhile Reader.isDigit
  let text := text.dropWhile Reader.isDigit
  if whole.isEmpty ∨ (whole.head? = some '0' ∧ 1 < whole.length) then none
  else
    let (fraction, exponent, rest) ← numberTail text
    some ((numberValue negative whole fraction exponent).getD .unreadable, rest)

def unit? (a b c d : Char) : Option Nat := Numeral.natural? 16 [a, b, c, d]

def escape? : Char → Option Char
  | '"' => some '"'
  | '\\' => some '\\'
  | '/' => some '/'
  | 'b' => some '\x08'
  | 'f' => some '\x0c'
  | 'n' => some '\n'
  | 'r' => some '\r'
  | 't' => some '\t'
  | _ => none

-- A string as it is written: the codes of its characters and escapes, and whether it is `plain`, without escapes.
structure Written where
  codes : List Nat
  plain : Bool

-- The rest of a string whose opening quote is read. The codes read before stand in `done` in reverse.
def writtenFrom (done : List Nat) (plain : Bool) : List Char → Option (Written × List Char)
  | [] => none
  | '"' :: rest => some (⟨done.reverse, plain⟩, rest)
  | '\\' :: 'u' :: a :: b :: c :: d :: rest =>
    (unit? a b c d).bind fun unit => writtenFrom (unit :: done) false rest
  | '\\' :: e :: rest => (escape? e).bind fun c => writtenFrom (c.toNat :: done) false rest
  | c :: rest => if c.toNat < 32 then none else writtenFrom (c.toNat :: done) plain rest

def written? : List Char → Option (Written × List Char)
  | '"' :: rest => writtenFrom [] true rest
  | _ => none

def isHigh (code : Nat) : Bool := decide (0xd800 ≤ code) && decide (code ≤ 0xdbff)

def isLow (code : Nat) : Bool := decide (0xdc00 ≤ code) && decide (code ≤ 0xdfff)

-- The characters of codes, of which two may form a surrogate pair and none be half of one.
def charactersFrom (done : List Char) : List Nat → Option (List Char)
  | [] => some done.reverse
  | code :: rest =>
    if isHigh code then
      match rest with
      | [] => none
      | low :: rest =>
        if isLow low then
          let c := Char.ofNat (0x10000 + (code - 0xd800) * 1024 + (low - 0xdc00))
          charactersFrom (c :: done) rest
        else none
    else if isLow code then none
    else charactersFrom (Char.ofNat code :: done) rest

def Written.text? (w : Written) : Option String := (charactersFrom [] w.codes).map String.ofList

def Written.document (w : Written) : Document :=
  match w.text? with
  | some s => .str s
  | none => .unreadable

def Written.key? (w : Written) : Option Key := w.text?.map fun s => ⟨s, w.plain⟩

def ofWritten (members : List (Written × Document)) : Document :=
  match members.mapM fun m => m.1.key?.map fun key => (key, m.2) with
  | some members => .object members
  | none => .unreadable

def within (depth : Nat) (d : Document) : Document := if depth = 0 then .unreadable else d

def word? (word : String) (value : Document) (text : List Char) : Option (Document × List Char) :=
  if text.take word.length = word.toList then some (value, text.drop word.length) else none

mutual

-- A part at the start of a text without leading space. `fuel` bounds the length of the text and `depth` the levels that
-- may still be opened.
def part? (fuel depth : Nat) (text : List Char) : Option (Document × List Char) :=
  match fuel with
  | 0 => none
  | fuel + 1 =>
    match text with
    | [] => none
    | '"' :: _ => (written? text).map fun (w, rest) => (w.document, rest)
    | '[' :: rest =>
      match skipSpace rest with
      | ']' :: more => some (within depth (.array []), more)
      | inner =>
        (items? fuel (depth - 1) inner).map fun (items, more) => (within depth (.array items), more)
    | '\x7b' :: rest =>
      match skipSpace rest with
      | '\x7d' :: more => some (within depth (.object []), more)
      | inner =>
        (members? fuel (depth - 1) inner).map fun (members, more) =>
          (within depth (ofWritten members), more)
    | 't' :: _ => word? "true" (.bool true) text
    | 'f' :: _ => word? "false" (.bool false) text
    | 'n' :: _ => word? "null" .null text
    | _ => number? text

def items? (fuel depth : Nat) (text : List Char) : Option (List Document × List Char) :=
  match fuel with
  | 0 => none
  | fuel + 1 => do
    let (item, rest) ← part? fuel depth text
    match skipSpace rest with
    | ']' :: more => some ([item], more)
    | ',' :: more =>
      let (items, more) ← items? fuel depth (skipSpace more)
      some (item :: items, more)
    | _ => none

def members? (fuel depth : Nat) (text : List Char) :
    Option (List (Written × Document) × List Char) :=
  match fuel with
  | 0 => none
  | fuel + 1 => do
    let (key, rest) ← written? text
    match skipSpace rest with
    | ':' :: rest =>
      let (item, rest) ← part? fuel depth (skipSpace rest)
      match skipSpace rest with
      | '\x7d' :: more => some ([(key, item)], more)
      | ',' :: more =>
        let (members, more) ← members? fuel depth (skipSpace more)
        some ((key, item) :: members, more)
      | _ => none
    | _ => none

end

def read? (text : String) : Option Document := do
  let chars := skipSpace text.toList
  let (document, rest) ← part? (2 * chars.length + 2) deepest chars
  if (skipSpace rest).isEmpty then some document else none

end SpaceLink.Document
