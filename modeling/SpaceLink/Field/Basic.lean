import SpaceLink.DataType.Basic
import SpaceLink.Expr.Conversion
import SpaceLink.Field.Enumeration
import SpaceLink.Field.Position

/-!
Fields: where a value stands in bytes, which of their bits are its own, and which names its numbers
have. Arguments of commands and columns of tables are fields too.
-/

set_option autoImplicit false

namespace SpaceLink

structure Field where
  name : String
  type : DataType
  position : Position
  mask : Option UInt64
  enumeration : Option Enumeration
  range : Option (Binary64 × Binary64)
  conversion : Option Conversion
  expr : Option Expression
  -- Where it is false the field has no value.
  condition : Option Expression
  fixed : Option Value
  units : Option String
  desc : Option String

namespace Field

def lastByte : Nat := 65535

-- How many of the lowest `width` bits are zero below the lowest one.
def trailingZeros : Nat → Nat → Nat
  | 0, _ => 0
  | width + 1, n => if n % 2 = 1 then 0 else trailingZeros width (n / 2) + 1

def shift (f : Field) : Nat :=
  match f.mask with
  | some mask => trailingZeros 64 mask.toNat
  | none => 0

def isDerived (f : Field) : Bool := f.conversion.isSome || f.expr.isSome

def span (f : Field) (offset : Nat) : Span := f.position.span offset f.type.nbytes

def nbytes (f : Field) : Nat := (f.span 0).length

def unmask (f : Field) (v : Value) : Value :=
  match f.mask, v with
  | some mask, .int n => .int (Wide.shiftRight (Wide.and n mask.toNat) f.shift)
  | _, v => v

def withName (f : Field) (v : Value) : Value :=
  match f.enumeration, v with
  | some e, .int code =>
    match e.name? code with
    | some name => .str name
    | none => v
  | _, v => v

def decodeSlice (books : Books) (f : Field) (data : Bytes) (raw : Bool) (index : Option Nat) :
    Attempt Value := do
  let v ← match f.type, index with
    | .array a, some i => a.decodeElement books data i raw
    | type, _ => type.decode books data raw
  let v := f.unmask v
  .ok (if raw then v else f.withName v)

def decodeAt (books : Books) (f : Field) (bytes : Bytes) (offset : Nat) (raw : Bool)
    (index : Option Nat) : Attempt Value :=
  let span := f.span offset
  match bytes.slice? span.start span.stop with
  | some data => f.decodeSlice books data raw index
  | none => .error (.notEnoughData bytes.length span.stop)

def decode (books : Books) (f : Field) (bytes : Bytes) (raw : Bool) (index : Option Nat) :
    Attempt Value :=
  f.decodeAt books bytes 0 raw index

def withCode (f : Field) (v : Value) : Value :=
  match f.enumeration, v with
  | some e, .str name =>
    match e.code? name with
    | some code => .int code
    | none => v
  | _, v => v

-- The bytes of a value, shifted to the place of the mask but not cut to it.
def encode (books : Books) (f : Field) (v : Value) : Attempt Bytes :=
  let v := f.withCode v
  match f.mask with
  | none => f.type.encode books v
  | some _ =>
    match v.toInt? with
    | some n => f.type.encode books (.int (Wide.shiftLeft n f.shift))
    | none => .error (.typeMismatch f.type.name .integer (.kind v.kind))

def maskBytes (books : Books) (f : Field) : Attempt (Option Bytes) :=
  match f.mask with
  | none => .ok none
  | some mask => do .ok (some (← f.type.encode books (.int mask.toNat)))

-- The bits of `new` where the mask has them, of `old` elsewhere.
def mergeByte (old new mask : UInt8) : UInt8 := (old &&& ~~~mask) ||| (new &&& mask)

def overlay (mask : Option Bytes) (old new : Bytes) : Bytes :=
  let written := match mask with
    | none => new.take old.length
    | some mask => List.zipWith (fun pair m => mergeByte pair.1 pair.2 m) (old.zip new) mask
  written ++ old.drop written.length

def write (books : Books) (f : Field) (buffer : Bytes) (offset : Nat) (v : Value) :
    Attempt Bytes := do
  let span := f.span offset
  if buffer.length < span.stop then .error (.notEnoughData buffer.length span.stop)
  else
    let new ← f.encode books v
    let mask ← f.maskBytes books
    let old := (buffer.drop span.start).take span.length
    .ok (buffer.take span.start ++ overlay mask old new ++ buffer.drop (span.start + old.length))

def fail (f : Field) (fault : FieldFault) : Attempt Unit := .error (.schema (.field f.name fault))

def checkPosition (f : Field) : Attempt Unit :=
  if lastByte + 1 < (f.span 0).stop then f.fail (.endsPast f.position.render lastByte)
  else
    match f.position with
    | .range first last =>
      if last < first then f.fail (.reversedBytes first last)
      else if last - first + 1 < f.type.nbytes then
        f.fail (.narrowBytes first last f.type.name)
      else .ok ()
    | _ => .ok ()

def checkMask (f : Field) : Attempt Unit :=
  match f.mask with
  | none => .ok ()
  | some mask =>
    match f.type.intType? with
    | none => f.fail (.maskedType f.type.name)
    | some t =>
      if mask = 0 ∨ 2 ^ t.nbits ≤ mask.toNat then f.fail (.maskTooWide mask.toNat t.name) else .ok ()

def checkRange (f : Field) : Attempt Unit :=
  match f.range with
  | some (low, high) => if high.lt low then f.fail (.reversedRange low high) else .ok ()
  | none => .ok ()

def checkFixed (books : Books) (f : Field) : Attempt Unit :=
  match f.fixed with
  | some v => do
    let _ ← f.encode books v
    .ok ()
  | none => .ok ()

def check (books : Books) (f : Field) : Attempt Unit := do
  f.checkPosition
  f.checkMask
  f.checkRange
  f.checkFixed books

def enumerated? (e : Enumeration) (v : Value) : Option Int :=
  match v with
  | .str name => e.code? name
  | v => v.toInt?.filter fun code => (e.name? code).isSome

def validateType (f : Field) (v number : Value) (named : Bool) (log : List String) : Verdict :=
  if named then f.type.validate number (some f.name) log
  else .fail s!"{f.name} value '{v.render}' not in allowed enumerated values." log

def validateRange (f : Field) (number : Value) (log : List String) : Verdict :=
  match f.range, number.toDouble? with
  | some (low, high), some x =>
    if x.lt low || high.lt x then
      .fail s!"{f.name} value '{number.render}' out of range {rangeText low high}." log
    else .pass log
  | _, _ => .pass log

-- A value has to be of the enumeration, of the type and within the range; the type is not asked about a value that the
-- enumeration lacks.
def validate (f : Field) (v : Value) (log : List String) : Verdict :=
  let code := f.enumeration.map fun e => enumerated? e v
  let number : Value := match code with
    | some (some n) => .int n
    | _ => v
  let named := match code with
    | some none => false
    | _ => true
  (f.validateType v number named log).also (f.validateRange number)

end Field

end SpaceLink
