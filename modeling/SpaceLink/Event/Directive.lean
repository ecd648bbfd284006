import SpaceLink.Bytes
import SpaceLink.Fault
import SpaceLink.Number.Places
import SpaceLink.Number.Reader
import SpaceLink.Text.Utf8

/-!
Directives in event messages. After a percent sign may come an argument number, which is passed over,
flags, a width, a precision and size letters, which are passed over; then a letter says how the next
bytes are shown. Numbers take four bytes, most significant first.
-/

set_option autoImplicit false

namespace SpaceLink

inductive Directive.Style where
  | text
  | character
  | signed
  | unsigned
  | hex (upper : Bool)
  | octal
  | fixed (upper : Bool)
  | exponent (upper : Bool)
  | general (upper : Bool)
deriving DecidableEq, Repr

structure Directive where
  left : Bool
  plus : Bool
  space : Bool
  zero : Bool
  alternate : Bool
  width : Nat
  precision : Option Nat
  style : Directive.Style
deriving DecidableEq, Repr

namespace Directive

def Style.ofLetter? : Char → Option Style
  | 's' => some .text
  | 'c' => some .character
  | 'd' | 'i' => some .signed
  | 'u' => some .unsigned
  | 'x' => some (.hex false)
  | 'X' => some (.hex true)
  | 'o' => some .octal
  | 'f' => some (.fixed false)
  | 'F' => some (.fixed true)
  | 'e' => some (.exponent false)
  | 'E' => some (.exponent true)
  | 'g' => some (.general false)
  | 'G' => some (.general true)
  | _ => none

def isFlag (c : Char) : Bool := c == '-' || c == '+' || c == ' ' || c == '0' || c == '#'

def isSize (c : Char) : Bool := c == 'h' || c == 'l' || c == 'L'

-- A numeral below 2 ^ 64.
def numeral? (ds : List Char) : Option Nat := (Numeral.natural? 10 ds).filter (· < 2 ^ 64)

def argumentLength (text : List Char) : Nat :=
  let ds := text.takeWhile Reader.isDigit
  if (numeral? ds).isSome && (text.drop ds.length).head? == some '$' then ds.length + 1 else 0

def precisionPart : List Char → Option Nat × Nat
  | '.' :: rest =>
    let ds := rest.takeWhile Reader.isDigit
    (some ((numeral? ds).getD 0), ds.length + 1)
  | _ => (none, 0)

def read? (text : List Char) : Option (Directive × Nat) :=
  let argument := argumentLength text
  let text := text.drop argument
  let flags := text.takeWhile isFlag
  let text := text.drop flags.length
  let width := text.takeWhile Reader.isDigit
  let text := text.drop width.length
  let (precision, point) := precisionPart text
  let text := text.drop point
  let sizes := (text.takeWhile isSize).length
  match text.drop sizes with
  | [] => none
  | letter :: _ =>
    (Style.ofLetter? letter).map fun style =>
      ({ left := flags.contains '-'
         plus := flags.contains '+'
         space := flags.contains ' '
         zero := flags.contains '0'
         alternate := flags.contains '#'
         width := (numeral? width).getD 0
         precision
         style },
        argument + flags.length + width.length + point + sizes + 1)

-- Filled to the width: on the right, with zeros after the sign of a number, or on the left.
def pad (d : Directive) (sign body : List Char) (number : Bool) : List Char :=
  let gap := d.width - (sign.length + body.length)
  if d.left then sign ++ body ++ List.replicate gap ' '
  else if d.zero && number then sign ++ List.replicate gap '0' ++ body
  else List.replicate gap ' ' ++ sign ++ body

def sign (d : Directive) (negative : Bool) : List Char :=
  if negative then ['-'] else if d.plus then ['+'] else if d.space then [' '] else []

def leastDigits (d : Directive) (ds : List Char) : List Char :=
  List.replicate (d.precision.getD 0 - ds.length) '0' ++ ds

def upperCase (upper : Bool) (text : List Char) : List Char :=
  if upper then text.map Char.toUpper else text

def signedText (d : Directive) (word : Nat) : List Char :=
  let negative := decide (2 ^ 31 ≤ word)
  let size := if negative then 2 ^ 32 - word else word
  d.pad (d.sign negative) (d.leastDigits (Numeral.digits 10 size)) true

def unsignedText (d : Directive) (word : Nat) : List Char :=
  d.pad [] (d.leastDigits (Numeral.digits 10 word)) true

-- In another base; the mark of the base stands before a number that is not zero.
def radixText (d : Directive) (base : Nat) (upper : Bool) (mark : List Char) (word : Nat) :
    List Char :=
  let ds := upperCase upper (Numeral.digits base word)
  d.pad (if d.alternate && word != 0 then mark else []) (d.leastDigits ds) true

def exponentText (e : Int) : List Char :=
  'e' :: (if e < 0 then '-' else '+') :: Numeral.padded 10 2 e.natAbs

-- Without the zeros at the end of a fraction, nor its point if nothing is left of it.
def stripped (ds : List Char) : List Char :=
  if ds.contains '.' then
    ((ds.reverse.dropWhile (· == '0')).dropWhile (· == '.')).reverse
  else ds

def fixedText (x : Binary64) (places : Nat) : List Char := Places.fixed x places

def scientificText (strip : Bool) (x : Binary64) (places : Nat) : List Char :=
  let (ds, e) := Places.scientific x places
  (if strip then stripped ds else ds) ++ exponentText e

-- So many digits in all; positional if the first digit has a power from -4 up to them.
def generalText (alternate : Bool) (x : Binary64) (precision : Nat) : List Char :=
  let count := max 1 precision
  if x.isZero then (if alternate then fixedText x (count - 1) else ['0'])
  else
    let e := (Places.scientific x (count - 1)).2
    if -4 ≤ e ∧ e < count then
      let ds := fixedText x ((count : Int) - 1 - e).toNat
      if alternate then ds else stripped ds
    else scientificText (!alternate) x (count - 1)

def magnitudeText (x : Binary64) (finite : Binary64 → List Char) : List Char :=
  if x.isNaN then "nan".toList else if x.isInfinite then "inf".toList else finite x.abs

def floatText (d : Directive) (upper : Bool) (finite : Nat → Binary64 → List Char) (word : Nat) :
    List Char :=
  let x := Binary64.ofSingleBits word
  let body := magnitudeText x (finite (d.precision.getD 6))
  d.pad (d.sign (x.isNegative && !x.isNaN)) (upperCase upper body) true

def wordText (d : Directive) (word : Nat) : List Char :=
  match d.style with
  | .text | .character => []
  | .signed => d.signedText word
  | .unsigned => d.unsignedText word
  | .hex upper => d.radixText 16 upper (if upper then ['0', 'X'] else ['0', 'x']) word
  | .octal => d.radixText 8 false ['0'] word
  | .fixed upper => d.floatText upper (fun p x => fixedText x p) word
  | .exponent upper => d.floatText upper (fun p x => scientificText false x p) word
  | .general upper => d.floatText upper (fun p x => generalText d.alternate x p) word

def take (total count : Nat) (rest : Bytes) : Attempt (Bytes × Bytes) :=
  let own := rest.take count
  if own.length < count then .error (.notEnoughData total (total - rest.length + count))
  else .ok (own, rest.drop count)

def render (d : Directive) (total : Nat) (rest : Bytes) : Attempt (List Char × Bytes) :=
  match d.style with
  | .text =>
    let own := rest.takeWhile (· != 0)
    match rest.drop own.length with
    | [] => .error (.notEnoughData total (total + 1))
    | _ :: left =>
      let text := (Utf8.decode own).toList
      .ok (d.pad [] (text.take (d.precision.getD text.length)) false, left)
  | .character => do
    let (own, left) ← take total 1 rest
    .ok (d.pad [] (own.map fun b => Char.ofNat b.toNat) false, left)
  | _ => do
    let (own, left) ← take total 4 rest
    .ok (d.wordText (Bytes.ofBig own), left)

end Directive

end SpaceLink
