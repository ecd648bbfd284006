import SpaceLink.DataType.CodeBook
import SpaceLink.DataType.Primitive
import SpaceLink.DataType.TimeCode

/-!
Data types: how a value stands in bytes. An array has elements of one scalar type, so arrays do not
nest.
-/

set_option autoImplicit false

namespace SpaceLink

structure CustomType where
  name : String
  nbytes : Nat
  encode : Value → Attempt Bytes
  decode : Bytes → Bool → Attempt Value
  validate : Value → Option String → List String → Verdict

inductive Scalar where
  | primitive (p : Primitive)
  | command
  | event
  | time (t : TimeCode)
  | custom (c : CustomType)

namespace Scalar

def name : Scalar → String
  | .primitive p => p.name
  | .command => "CMD16"
  | .event => "EVR16"
  | .time t => t.name
  | .custom c => c.name

def nbytes : Scalar → Nat
  | .primitive p => p.nbytes
  | .command | .event => 2
  | .time t => t.nbytes
  | .custom c => c.nbytes

def encode (books : Books) (s : Scalar) (v : Value) : Attempt Bytes :=
  match s with
  | .primitive p => p.encode v
  | .command => Code.encodeCommand books v
  | .event => Code.encodeEvent books v
  | .time t => t.encode v
  | .custom c => c.encode v

-- Raw decoding gives numbers in place of names and times.
def decode (books : Books) (s : Scalar) (bytes : Bytes) (raw : Bool) : Attempt Value :=
  match s with
  | .primitive p => p.decode bytes
  | .command => Code.decodeCommand books bytes raw
  | .event => Code.decodeEvent books bytes raw
  | .time t => t.decode bytes raw
  | .custom c => c.decode bytes raw

def validate (s : Scalar) (v : Value) (name : Option String) (log : List String) : Verdict :=
  match s with
  | .primitive p => p.validate v name log
  | .command | .event => .pass log
  | .time t => t.validate v name log
  | .custom c => c.validate v name log

def intType? : Scalar → Option IntType
  | .primitive (.int t) => some t
  | _ => none

end Scalar

structure ArrayType where
  element : Scalar
  count : Nat

namespace ArrayType

def name (a : ArrayType) : String := a.element.name ++ "[" ++ Numeral.decimal a.count ++ "]"

def extent (a : ArrayType) : Nat := a.count * a.element.nbytes

-- A product of machine words, which starts over at 2 ^ 64.
def nbytes (a : ArrayType) : Nat := a.extent % 2 ^ 64

def isBytes (a : ArrayType) : Bool := a.element.intType?.any fun t => t.layout == .byte

def encodeItems (books : Books) (element : Scalar) : List Value → List Bytes → Attempt Bytes
  | [], done => .ok done.reverse.flatten
  | v :: rest, done => do encodeItems books element rest ((← element.encode books v) :: done)

def encode (books : Books) (a : ArrayType) (v : Value) : Attempt Bytes :=
  match v with
  | .list items =>
    if items.length = a.count then encodeItems books a.element items []
    else .error (.typeMismatch a.name (.list a.count) (.list items.length))
  | v => .error (.typeMismatch a.name (.list a.count) (.kind v.kind))

-- The element at the start of `rest`, which is what `total` bytes leave from element `index` on.
def decodeNext (books : Books) (a : ArrayType) (raw : Bool) (total index : Nat) (rest : Bytes) :
    Attempt Value :=
  let width := a.element.nbytes
  let own := rest.take width
  if a.count ≤ index then .error (.outOfRange (.index index a.name))
  else if own.length < width then .error (.notEnoughData total (index * width + width))
  else a.element.decode books own raw

-- The place of an element is exact. Only a list whose width starts over has elements whose place a word cannot hold, and
-- all of them are behind bytes that are missing.
def decodeElement (books : Books) (a : ArrayType) (bytes : Bytes) (index : Nat) (raw : Bool) :
    Attempt Value :=
  a.decodeNext books raw bytes.length index (bytes.drop (index * a.element.nbytes))

def decodeItems (books : Books) (a : ArrayType) (raw : Bool) (total : Nat) :
    Nat → Nat → Bytes → List Value → Attempt (List Value)
  | 0, _, _, done => .ok done.reverse
  | count + 1, index, rest, done => do
    let v ← a.decodeNext books raw total index rest
    decodeItems books a raw total count (index + 1) (rest.drop a.element.nbytes) (v :: done)

def decodeRange (books : Books) (a : ArrayType) (bytes : Bytes) (start stop : Nat) (raw : Bool) :
    Attempt Value :=
  (a.decodeItems books raw bytes.length (stop - start) start
    (bytes.drop (start * a.element.nbytes)) []).map .list

def decode (books : Books) (a : ArrayType) (bytes : Bytes) (raw : Bool) : Attempt Value :=
  a.decodeRange books bytes 0 a.count raw

def validateItems (element : Scalar) (name : Option String) (items : List Value) (log : List String) :
    Verdict :=
  items.foldl (fun verdict v => verdict.also (element.validate v name)) (.pass log)

def validate (a : ArrayType) (v : Value) (name : Option String) (log : List String) : Verdict :=
  let refused : Verdict :=
    .fail (name.getD "Value" ++ s!" '{v.render}' is not a {listText a.count}.") log
  match v with
  | .list items => if items.length = a.count then validateItems a.element name items log else refused
  | _ => refused

end ArrayType

inductive DataType where
  | scalar (s : Scalar)
  | array (a : ArrayType)

namespace DataType

def name : DataType → String
  | .scalar s => s.name
  | .array a => a.name

def nbytes : DataType → Nat
  | .scalar s => s.nbytes
  | .array a => a.nbytes

-- The bytes that a value has, of which the width may be a part.
def extent : DataType → Nat
  | .scalar s => s.nbytes
  | .array a => a.extent

def encode (books : Books) (t : DataType) (v : Value) : Attempt Bytes :=
  match t with
  | .scalar s => s.encode books v
  | .array a => a.encode books v

def decode (books : Books) (t : DataType) (bytes : Bytes) (raw : Bool) : Attempt Value :=
  match t with
  | .scalar s => s.decode books bytes raw
  | .array a => a.decode books bytes raw

def validate (t : DataType) (v : Value) (name : Option String) (log : List String) : Verdict :=
  match t with
  | .scalar s => s.validate v name log
  | .array a => a.validate v name log

def array? : DataType → Option ArrayType
  | .array a => some a
  | .scalar _ => none

def primitive? : DataType → Option Primitive
  | .scalar (.primitive p) => some p
  | _ => none

def intType? : DataType → Option IntType
  | .scalar s => s.intType?
  | .array _ => none

def time? : DataType → Option TimeCode
  | .scalar (.time t) => some t
  | _ => none

end DataType

end SpaceLink
