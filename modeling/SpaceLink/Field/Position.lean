import SpaceLink.Fault

/-!
Where a field stands: at bytes of its own, behind the field before it, or at the place of the field
before it. Byte numbers are held below 2 ^ 64.
-/

set_option autoImplicit false

namespace SpaceLink

-- `range` names its last byte.
inductive Position where
  | next
  | single (first : Nat)
  | range (first last : Nat)
  | previous
deriving DecidableEq, Repr

structure Span where
  start : Nat
  stop : Nat
deriving DecidableEq, Repr

def Span.length (s : Span) : Nat := s.stop - s.start

namespace Position

def render : Position → String
  | .next => ""
  | .single first => Numeral.decimal first
  | .range first last => bytesText first last
  | .previous => "@prev"

def greatest : Nat := 2 ^ 64 - 1

def addHeld (a b : Nat) : Nat := min greatest (a + b)

def span (p : Position) (offset width : Nat) : Span :=
  match p with
  | .next | .previous => ⟨offset, addHeld offset width⟩
  | .single first =>
    let start := addHeld first offset
    ⟨start, addHeld start width⟩
  | .range first last => ⟨addHeld first offset, addHeld (addHeld last 1) offset⟩

end Position

end SpaceLink
