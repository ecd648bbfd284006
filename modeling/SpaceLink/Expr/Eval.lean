import SpaceLink.Expr.FunctionTable
import SpaceLink.Expr.Parser
import SpaceLink.Text.Pieces

/-!
The value of an expression. An expression may have no value, which is `none`; arithmetic with it and
order against it have no value either.
-/

set_option autoImplicit false

namespace SpaceLink

-- What the names in an expression stand for. A source has functions of its own beside the table.
structure Symbols where
  value : String → Attempt (Option Value)
  raw : String → Attempt (Option Value)
  history : String → Attempt (Option Value)
  call : String → List (Option Value) → Option (Attempt (Option Value))
  functions : FunctionTable

def isTrue (v : Option Value) : Bool := v.any Value.isTrue

namespace Symbols

-- A bare name; if the source does not know it, a constant of the table.
def name (symbols : Symbols) (n : String) : Attempt (Option Value) :=
  match symbols.value n with
  | .error (.unknownField _ _) =>
    match symbols.functions.constant? n with
    | some v => .ok (some v)
    | none => .error (.expression (.undefinedName n))
  | other => other

def member (symbols : Symbols) (base n : String) : Attempt (Option Value) :=
  match base with
  | "raw" => symbols.raw n
  | "history" => symbols.history n
  | "math" =>
    match symbols.functions.constant? n with
    | some v => .ok (some v)
    | none => .error (.expression (.undefinedConstant n))
  | _ => .error (.expression (.undefinedMember base n))

def mathMark : List Char := "math.".toList

def shortName (function : String) : String :=
  let name := function.toList
  if mathMark.isPrefixOf name then String.ofList (name.drop mathMark.length) else function

def present : List (Option Value) → Option (List Value)
  | [] => some []
  | none :: _ => none
  | some v :: rest => (present rest).map (v :: ·)

-- A function of the source, else one of the table, which has no value if an argument has none.
def apply (symbols : Symbols) (function : String) (args : List (Option Value)) :
    Attempt (Option Value) :=
  match symbols.call function args with
  | some result => result
  | none =>
    match symbols.functions.function? (shortName function) with
    | none => .error (.expression (.undefinedFunction function))
    | some f =>
      match present args with
      | none => .ok none
      | some values => f values

end Symbols

namespace Expr

mutual

def eval (symbols : Symbols) : Expr → Attempt (Option Value)
  | .literal v => .ok (some v)
  | .none => .ok Option.none
  | .name n => symbols.name n
  | .member base n => symbols.member base n
  | .unary op e => do
    match op, ← e.eval symbols with
    | .not, v => .ok (some (.bool !isTrue v))
    | _, Option.none => .ok Option.none
    | op, some v => (Arithmetic.unary op v).map some
  | .binary op left right => do
    match ← left.eval symbols, ← right.eval symbols with
    | some a, some b => Arithmetic.binary op a b
    | _, _ => .ok Option.none
  | .chain first links => do evalLinks symbols (← first.eval symbols) links
  | .and left right => do
    let v ← left.eval symbols
    if isTrue v then right.eval symbols else .ok v
  | .or left right => do
    let v ← left.eval symbols
    if isTrue v then .ok v else right.eval symbols
  | .choice condition yes no => do
    if isTrue (← condition.eval symbols) then yes.eval symbols else no.eval symbols
  | .call function args => do symbols.apply function (← evalAll symbols args)

-- A chain ends at the first link that is false or has no outcome.
def evalLinks (symbols : Symbols) (left : Option Value) :
    List (Comparison × Expr) → Attempt (Option Value)
  | [] => .ok (some (.bool true))
  | (op, e) :: rest => do
    let right ← e.eval symbols
    match ← Arithmetic.compare op left right with
    | some true => evalLinks symbols right rest
    | some false => .ok (some (.bool false))
    | Option.none => .ok Option.none

def evalAll (symbols : Symbols) : List Expr → Attempt (List (Option Value))
  | [] => .ok []
  | e :: rest => do
    let v ← e.eval symbols
    let vs ← evalAll symbols rest
    .ok (v :: vs)

end

end Expr

namespace Expression

def eval (e : Expression) (symbols : Symbols) : Attempt (Option Value) := e.tree.eval symbols

def test (e : Expression) (symbols : Symbols) : Attempt Bool := do
  .ok (isTrue (← e.eval symbols))

end Expression

end SpaceLink
