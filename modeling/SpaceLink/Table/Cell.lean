import SpaceLink.Field.Basic
import SpaceLink.Text.Blank
import SpaceLink.Text.Pieces
import SpaceLink.Value.Reader

/-!
Cells of tables as text. The items of an array stand apart by blanks; an array of bytes may be written
as text, which zeros fill up.
-/

set_option autoImplicit false

namespace SpaceLink.Cell

-- Numbers that are as many as the array has elements, or for other arrays any words at all.
def readArray (column : String) (a : ArrayType) (text : List Char) : Attempt Value :=
  let items := (Text.words text).map Value.ofWord
  let numbers := items.length = a.count ∧ items.all fun v => v.toDouble?.isSome
  if numbers ∨ !a.isBytes then .ok (.list items)
  else
    let bytes := Utf8.encode (String.ofList text)
    if a.count < bytes.length then
      .error (.outOfRange (.cellText (String.ofList text) a.count column))
    else
      .ok (.list (bytes.map (fun b => Value.int b.toNat) ++
        List.replicate (a.count - bytes.length) (.int 0)))

def readScalar (f : Field) (text : List Char) : Value :=
  let named := f.enumeration.any fun e => (e.code? (String.ofList text)).isSome
  if named then .str (String.ofList text) else Value.ofWord text

-- The value of a cell: a time where the column is one, a name of its enumeration, or a word.
def read (f : Field) (text : List Char) : Attempt Value :=
  let text := Text.trimmed text
  match f.type.array? with
  | some a => readArray f.name a text
  | none =>
    match f.type.time?, Rfc3339.read? text with
    | some _, some t => .ok (.time t)
    | _, _ => .ok (readScalar f text)

def byte? (v : Value) : Option UInt8 :=
  v.toInt?.bind fun n => if 0 ≤ n ∧ n < 256 then some (UInt8.ofNat n.toNat) else none

def isPrintable (b : UInt8) : Bool := 0x20 ≤ b && b ≤ 0x7e

def byteText? (items : List Value) : Option (List Char) := do
  let bytes ← items.mapM byte?
  let own := Bytes.trimZeros bytes
  if own.all isPrintable && own.head? != some 0x20 && own.getLast? != some 0x20 then
    some (own.map fun b => Char.ofNat b.toNat)
  else none

def itemsText (items : List Value) : String := String.intercalate " " (items.map Value.render)

-- The text of a cell. An array of more than one byte is text if it can be read as such.
def render (f : Field) (delimiter : String) (v : Value) : String :=
  match f.type.array?, v with
  | some a, .list items =>
    let text? := if a.isBytes && decide (1 < a.count) then
        (byteText? items).filter fun text => !Text.contains delimiter.toList text
      else none
    match text? with
    | some text => String.ofList text
    | none => itemsText items
  | _, v => v.render

end SpaceLink.Cell
