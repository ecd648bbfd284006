import SpaceLink.Bytes
import SpaceLink.Fault
import SpaceLink.Number.Reader
import SpaceLink.Text.Pieces
import SpaceLink.Text.Utf8
import SpaceLink.Value.Printer
import SpaceLink.Verdict

/-!
Primitive types: integers of one, two, four or eight bytes, doubles and single precision numbers, and
texts of a set size.
-/

set_option autoImplicit false

namespace SpaceLink

inductive ByteOrder where
  | msb | lsb
deriving DecidableEq, Repr

namespace ByteOrder

def spell (order : ByteOrder) (width n : Nat) : Bytes :=
  match order with
  | .msb => Bytes.big width n
  | .lsb => Bytes.little width n

def read (order : ByteOrder) (bytes : Bytes) : Nat :=
  match order with
  | .msb => Bytes.ofBig bytes
  | .lsb => Bytes.ofLittle bytes

def mark : ByteOrder → String
  | .msb => "MSB_"
  | .lsb => "LSB_"

end ByteOrder

inductive WordSize where
  | two | four | eight
deriving DecidableEq, Repr

def WordSize.nbytes : WordSize → Nat
  | .two => 2
  | .four => 4
  | .eight => 8

inductive IntLayout where
  | byte
  | word (order : ByteOrder) (size : WordSize)
deriving DecidableEq, Repr

structure IntType where
  signed : Bool
  layout : IntLayout
deriving DecidableEq, Repr

namespace IntType

def nbytes (t : IntType) : Nat :=
  match t.layout with
  | .byte => 1
  | .word _ size => size.nbytes

def nbits (t : IntType) : Nat := 8 * t.nbytes

def order (t : IntType) : ByteOrder :=
  match t.layout with
  | .byte => .msb
  | .word order _ => order

def name (t : IntType) : String :=
  let mark := match t.layout with
    | .byte => ""
    | .word order _ => order.mark
  mark ++ (if t.signed then "I" else "U") ++ Numeral.decimal t.nbits

def least (t : IntType) : Int := if t.signed then -2 ^ (t.nbits - 1) else 0

def greatest (t : IntType) : Int := if t.signed then 2 ^ (t.nbits - 1) - 1 else 2 ^ t.nbits - 1

def holds (t : IntType) (n : Int) : Bool := decide (t.least ≤ n) && decide (n ≤ t.greatest)

def encode (t : IntType) (n : Int) : Attempt Bytes :=
  if t.holds n then .ok (t.order.spell t.nbytes (n % 2 ^ t.nbits).toNat)
  else .error (.outOfRange (.value n t.least t.greatest))

def decode (t : IntType) (bytes : Bytes) : Int :=
  let n := t.order.read bytes
  if t.signed ∧ 2 ^ (t.nbits - 1) ≤ n then (n : Int) - 2 ^ t.nbits else n

end IntType

inductive Precision where
  | single | double
deriving DecidableEq, Repr

structure FloatType where
  order : ByteOrder
  precision : Precision
deriving DecidableEq, Repr

namespace FloatType

def nbytes (t : FloatType) : Nat :=
  match t.precision with
  | .single => 4
  | .double => 8

def name (t : FloatType) : String :=
  t.order.mark ++ match t.precision with
    | .single => "F32"
    | .double => "D64"

def greatest (t : FloatType) : Binary64 :=
  match t.precision with
  | .single => ⟨0x47efffffe0000000⟩
  | .double => ⟨0x7fefffffffffffff⟩

def least (t : FloatType) : Binary64 := t.greatest.neg

def encode (t : FloatType) (x : Binary64) : Bytes :=
  t.order.spell t.nbytes <|
    match t.precision with
    | .single => x.toSingleBits
    | .double => x.bits.toNat

def decode (t : FloatType) (bytes : Bytes) : Binary64 :=
  let n := t.order.read bytes
  match t.precision with
  | .single => Binary64.ofSingleBits n
  | .double => ⟨UInt64.ofNat n⟩

end FloatType

-- Text of `size` bytes, with the numeral as the type's name spells it.
structure TextType where
  numeral : String
  size : Nat
deriving DecidableEq, Repr

namespace TextType

def name (t : TextType) : String := "S" ++ t.numeral

def encode (t : TextType) (s : String) : Bytes := Bytes.fit t.size (Utf8.encode s)

def decode (bytes : Bytes) : String := Utf8.decode (Bytes.trimZeros bytes)

end TextType

inductive Primitive where
  | int (t : IntType)
  | float (t : FloatType)
  | text (t : TextType)
deriving DecidableEq, Repr

namespace Primitive

def name : Primitive → String
  | .int t => t.name
  | .float t => t.name
  | .text t => t.name

def nbytes : Primitive → Nat
  | .int t => t.nbytes
  | .float t => t.nbytes
  | .text t => t.size

-- The order of types with more than one byte that have one.
def order? : Primitive → Option ByteOrder
  | .int ⟨_, .byte⟩ => none
  | .int t => some t.order
  | .float t => some t.order
  | .text _ => none

def fixed : List Primitive :=
  let bytes := [Primitive.int ⟨true, .byte⟩, .int ⟨false, .byte⟩]
  let ints := [WordSize.two, .four, .eight].flatMap fun size => [true, false].flatMap fun signed =>
    [ByteOrder.lsb, .msb].map fun order => Primitive.int ⟨signed, .word order size⟩
  let floats := [Precision.single, .double].flatMap fun precision =>
    [ByteOrder.lsb, .msb].map fun order => Primitive.float ⟨order, precision⟩
  bytes ++ ints ++ floats

-- The size of a text is counted in bits, in a machine word, which starts over at 2 ^ 64.
def text? : List Char → Option Primitive
  | 'S' :: numeral => do
    let size ← Numeral.unsigned? 10 numeral
    if 0 < size ∧ size < 2 ^ 64 then some (.text ⟨String.ofList numeral, size * 8 % 2 ^ 64 / 8⟩) else none
  | _ => none

def ofName? (name : String) : Option Primitive :=
  match fixed.find? fun p => p.name == name with
  | some p => some p
  | none => text? name.toList

def mismatch (p : Primitive) (wanted : Wanted) (v : Value) : Fault :=
  .typeMismatch p.name wanted (.kind v.kind)

def encode (p : Primitive) (v : Value) : Attempt Bytes :=
  match p with
  | .int t =>
    match v.toInt? with
    | some n => t.encode n
    | none => .error (p.mismatch .integer v)
  | .float t =>
    match v.toDouble? with
    | some x => .ok (t.encode x)
    | none => .error (p.mismatch .number v)
  | .text t =>
    match v with
    | .str s => .ok (t.encode s)
    | _ => .error (p.mismatch .string v)

-- Bytes after those of the type are not looked at.
def decode (p : Primitive) (bytes : Bytes) : Attempt Value :=
  let own := bytes.take p.nbytes
  if own.length < p.nbytes then .error (.notEnoughData bytes.length p.nbytes)
  else
    .ok <| match p with
      | .int t => .int (t.decode own)
      | .float t => .float (t.decode own)
      | .text _ => .str (TextType.decode own)

def subject (name : Option String) (word lower : String) : String :=
  match name with
  | some name => s!"{name} {lower}"
  | none => word

def validateText (v : Value) (name : Option String) (log : List String) : Verdict :=
  match v with
  | .str _ => .pass log
  | _ => .fail (subject name "Value" "value" ++ s!" '{v.render}' is not a string.") log

-- A number is held against the range of its type; for integer types that has to be an integer.
def validateNumber (v : Value) (name : Option String) (log : List String) (integer inside : Bool)
    (range : String) : Verdict :=
  match v with
  | .str s =>
    .fail (subject name "String" "string" ++ s!" '{s}' cannot be represented as a number.") log
  | .float x =>
    if integer then
      let number := FloatLayout.plain.render x
      .fail (subject name "Float" "float" ++ s!" '{number}' cannot be represented as an integer.") log
    else if inside then .pass log
    else .fail (subject name "Value" "value" ++ s!" '{v.render}' out of range {range}.") log
  | .int _ | .bool _ =>
    if inside then .pass log
    else .fail (subject name "Value" "value" ++ s!" '{v.render}' out of range {range}.") log
  | _ => .fail (subject name "Value" "value" ++ s!" '{v.render}' is not a primitive type.") log

def validate (p : Primitive) (v : Value) (name : Option String) (log : List String) : Verdict :=
  match p with
  | .text _ => validateText v name log
  | .int t =>
    validateNumber v name log true (v.toInt?.all t.holds)
      s!"[{Numeral.signed t.least}, {Numeral.signed t.greatest}]"
  | .float t =>
    let inside := v.toDouble?.all fun x => !x.lt t.least && !t.greatest.lt x
    validateNumber v name log false inside
      s!"[{FloatLayout.scientific.render t.least}, {FloatLayout.scientific.render t.greatest}]"

end Primitive

end SpaceLink
