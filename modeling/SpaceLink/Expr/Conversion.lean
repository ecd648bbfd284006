import SpaceLink.Expr.Eval

/-!
Conversions of a field's number to engineering units, which may apply only under a condition.
-/

set_option autoImplicit false

namespace SpaceLink

structure Conversion where
  equation : Expression
  units : Option String
  condition : Option Expression

namespace Conversion

-- The equation is compiled first.
def compile (equation : String) (units condition : Option String) : Attempt Conversion := do
  let equation ← Expression.compile equation
  let condition ← match condition with
    | none => .ok none
    | some source => do .ok (some (← Expression.compile source))
  .ok ⟨equation, units, condition⟩

def eval (c : Conversion) (symbols : Symbols) : Attempt (Option Value) := do
  match c.condition with
  | none => c.equation.eval symbols
  | some condition => if ← condition.test symbols then c.equation.eval symbols else .ok none

end Conversion

end SpaceLink
