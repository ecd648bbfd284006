import SpaceLink.Value

/-!
The history of a packet definition: for some of its fields the value last received, zero before any.
-/

set_option autoImplicit false

namespace SpaceLink

abbrev History := List (String × Value)

namespace History

-- A name that is listed twice is kept once.
def start (names : List String) : History :=
  names.foldl (fun kept n => if kept.any (fun entry => entry.1 == n) then kept else kept ++ [(n, .int 0)]) []

def value? (h : History) (name : String) : Option Value := h.lookup name

-- Names that are not kept are passed over; of two values for a name the later counts.
def record (h : History) (received : List (String × Value)) : History :=
  h.map fun entry => (entry.1, (received.reverse.lookup entry.1).getD entry.2)

end History

end SpaceLink
