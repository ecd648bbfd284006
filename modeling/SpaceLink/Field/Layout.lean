import SpaceLink.Field.Basic

/-!
The layout of a list of fields: each field without bytes of its own gets those behind the field before
it, or the place of the field before it.
-/

set_option autoImplicit false

namespace SpaceLink

namespace Field

-- The field with bytes of its own, given those of the field before it.
def place (f : Field) (before : Span) : Field :=
  let starting (byte : Nat) : Field :=
    let span := f.span byte
    { f with position := .range span.start (span.stop - 1) }
  match f.position with
  | .previous => starting before.start
  | .next => starting before.stop
  | _ => f

end Field

def layOut (before : Span) : List Field → List Field × Nat
  | [] => ([], before.stop)
  | f :: rest =>
    let placed := f.place before
    let (fields, stop) := layOut (placed.span 0) rest
    (placed :: fields, stop)

def layOutFrom (start : Nat) (fields : List Field) : List Field × Nat := layOut ⟨start, start⟩ fields

def farthest (fields : List Field) : Nat :=
  fields.foldl (fun reach f => max reach (f.span 0).stop) 0

end SpaceLink
