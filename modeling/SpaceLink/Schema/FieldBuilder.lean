import SpaceLink.DataType.Registry
import SpaceLink.Field.Basic
import SpaceLink.Schema.Entry
import SpaceLink.Value.Reader

/-!
Fields from their entries: the type is looked up, the expressions are compiled.
-/

set_option autoImplicit false

namespace SpaceLink

def BytesEntry.position (entry : BytesEntry) : Attempt Position :=
  let within (last : Nat) (p : Position) : Attempt Position :=
    if Field.lastByte < last then .error (.schema (.bytePosition last Field.lastByte)) else .ok p
  match entry with
  | .single first => within first (.single first)
  | .range first last => within last (.range first last)
  | .word "@prev" => .ok .previous
  | .word text => .error (.schema (.byteDirective text))

namespace FieldEntry

def attempt? {α β : Type} (f : α → Attempt β) : Option α → Attempt (Option β)
  | none => .ok none
  | some a => do .ok (some (← f a))

def build (registry : Registry) (entry : FieldEntry) : Attempt Field := do
  let conversion ← attempt? (fun c : ConversionEntry =>
    Conversion.compile c.equation c.units c.condition) entry.conversion
  let type ← registry.get entry.type
  let position ← attempt? BytesEntry.position entry.bytes
  let enumeration ← attempt? Enumeration.ofPairs entry.enumeration
  let expr ← attempt? Expression.compile entry.expr
  let condition ← attempt? Expression.compile entry.condition
  let fixed ← attempt? Value.ofJson entry.fixed
  .ok
    { name := entry.name
      type
      position := position.getD .next
      mask := entry.mask.map UInt64.ofNat
      enumeration
      range := entry.range
      conversion
      expr
      condition
      fixed
      units := entry.units
      desc := entry.desc }

def buildAll (registry : Registry) (entries : List FieldEntry) : Attempt (List Field) :=
  entries.mapM (build registry)

end FieldEntry

end SpaceLink
