/-!
Rounding a quotient of naturals to an integer. The result is within half a unit; which neighbour an
exact tie takes is a parameter.
-/

set_option autoImplicit false

namespace SpaceLink

inductive Tie where
  | toEven
  | up
deriving DecidableEq, Repr

def roundQuotient (num den : Nat) (tie : Tie) : Nat :=
  let floor := num / den
  match compare (2 * (num % den)) den, tie with
  | .lt, _ => floor
  | .gt, _ => floor + 1
  | .eq, .up => floor + 1
  | .eq, .toEven => if floor % 2 = 0 then floor else floor + 1

end SpaceLink
