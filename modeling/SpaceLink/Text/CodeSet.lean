/-!
Sets of characters given by their boundaries: the code points at which membership changes, in
ascending order, the first being the first member.
-/

set_option autoImplicit false

namespace SpaceLink

-- A character is a member if an odd number of boundaries are not above it.
def inCodeSet (boundaries : List Nat) (c : Char) : Bool :=
  (boundaries.takeWhile fun boundary => decide (boundary ≤ c.toNat)).length % 2 == 1

end SpaceLink
