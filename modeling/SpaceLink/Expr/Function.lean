import SpaceLink.Expr.Eval

/-!
Named functions with parameters, whose body is an expression or a list of guarded expressions.
-/

set_option autoImplicit false

namespace SpaceLink

-- Of branches the first whose condition is true gives the value.
inductive FunctionBody where
  | expression (e : Expression)
  | branches (bs : List (Expression × Expression))

structure UserFunction where
  name : String
  params : List String
  body : FunctionBody

namespace UserFunction

def signature? (text : String) : Option (String × List String) := do
  let (name, rest) ← Text.cutAt '(' (Text.trimmed text.toList)
  let name := Text.trimmed name
  let inside ← if rest.getLast? = some ')' then some rest.dropLast else none
  let params := if (Text.trimmed inside).isEmpty then []
    else (Text.pieces [','] inside).map Text.trimmed
  if Text.isName name && params.all Text.isName then
    some (String.ofList name, params.map String.ofList)
  else none

def signature (text : String) : Attempt (String × List String) :=
  match signature? text with
  | some parts => .ok parts
  | none => .error (.expression (.badSignature text))

def ofExpression (text body : String) : Attempt UserFunction := do
  let (name, params) ← signature text
  .ok ⟨name, params, .expression (← Expression.compile body)⟩

def compileBranches : List (String × String) → Attempt (List (Expression × Expression))
  | [] => .ok []
  | (condition, value) :: rest => do
    let condition ← Expression.compile condition
    let value ← Expression.compile value
    .ok ((condition, value) :: (← compileBranches rest))

def ofBranches (text : String) (branches : List (String × String)) : Attempt UserFunction := do
  let (name, params) ← signature text
  .ok ⟨name, params, .branches (← compileBranches branches)⟩

def argument? (name : String) : List String → List (Option Value) → Option (Option Value)
  | param :: params, arg :: args => if param = name then some arg else argument? name params args
  | _, _ => none

-- The names that a body sees: its parameters, then those outside.
def scope (params : List String) (args : List (Option Value)) (outer : Symbols) : Symbols :=
  { outer with
    value := fun name =>
      match argument? name params args with
      | some v => .ok v
      | none => outer.value name }

def evalBranches (symbols : Symbols) : List (Expression × Expression) → Attempt (Option Value)
  | [] => .ok none
  | (condition, value) :: rest => do
    if ← condition.test symbols then value.eval symbols else evalBranches symbols rest

def invoke (f : UserFunction) (args : List (Option Value)) (outer : Symbols) :
    Attempt (Option Value) :=
  if args.length = f.params.length then
    let symbols := scope f.params args outer
    match f.body with
    | .expression e => e.eval symbols
    | .branches bs => evalBranches symbols bs
  else .error (.expression (.parameterCount f.name f.params.length args.length))

end UserFunction

end SpaceLink
