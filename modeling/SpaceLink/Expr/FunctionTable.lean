import SpaceLink.Expr.Arithmetic

/-!
Functions and constants that every expression may use. The core set is `abs`, `min`, `max` and
`round`; the math set has the elementary functions and the constants `pi` and `e`.
-/

set_option autoImplicit false

namespace SpaceLink

abbrev NativeFunction := List Value → Attempt (Option Value)

-- Of two entries of one name the earlier counts.
structure FunctionTable where
  functions : List (String × NativeFunction)
  constants : List (String × Value)

namespace FunctionTable

open Arithmetic (fail)

def function? (table : FunctionTable) (name : String) : Option NativeFunction :=
  table.functions.lookup name

def constant? (table : FunctionTable) (name : String) : Option Value :=
  table.constants.lookup name

def withFunction (table : FunctionTable) (name : String) (f : NativeFunction) : FunctionTable :=
  { table with functions := (name, f) :: table.functions }

def withConstant (table : FunctionTable) (name : String) (value : Value) : FunctionTable :=
  { table with constants := (name, value) :: table.constants }

def number (name : String) (v : Value) : Attempt Binary64 :=
  match v.toDouble? with
  | some x => .ok x
  | none => fail (.notNumber name v.kind)

def ofOne (name : String) (f : Value → Attempt Value) : NativeFunction
  | [v] => (f v).map some
  | args => fail (.argumentCount name 1 1 args.length)

def ofOneOrTwo (name : String) (f : Value → Option Value → Attempt Value) : NativeFunction
  | [v] => (f v none).map some
  | [v, w] => (f v (some w)).map some
  | args => fail (.argumentCount name 1 2 args.length)

def ofTwo (name : String) (f : Value → Value → Attempt Value) : NativeFunction
  | [v, w] => (f v w).map some
  | args => fail (.argumentCount name 2 2 args.length)

def absolute (v : Value) : Attempt Value :=
  match v, v.exactInt? with
  | .float x, _ => .ok (.float x.abs)
  | _, some n =>
    .ok (match Wide.checked n.natAbs with
      | some m => .int m
      | none => .float (Binary64.ofInt n).abs)
  | _, none => fail (.notNumber "abs" v.kind)

def extremeFrom (name : String) (wanted : Ordering) (best : Value) : List Value → Attempt Value
  | [] => .ok best
  | item :: rest =>
    match item.compare? best with
    | some order => extremeFrom name wanted (if order == wanted then item else best) rest
    | none => fail (.incomparable name item.kind best.kind)

-- The extreme of the arguments, or of the items of a list that is the only argument.
def extreme (name : String) (wanted : Ordering) : NativeFunction := fun args =>
  let items := match args with
    | [.list items] => items
    | _ => args
  match items with
  | [] => fail (.emptySequence name)
  | first :: rest => (extremeFrom name wanted first rest).map some

-- To the nearest integer, or to so many decimal places; ties go to the even neighbour.
def round (v : Value) (places : Option Value) : Attempt Value :=
  match v with
  | .int n => .ok (.int n)
  | _ => do
    let x ← number "round" v
    match places with
    | none => .ok (.int x.roundToEven.toWide)
    | some p => do
      let scale := (Binary64.ofInt 10).pow (← number "round" p).trunc
      .ok (.float ((x.mul scale).roundToEven.div scale))

def core : FunctionTable :=
  { functions :=
      [("abs", ofOne "abs" absolute), ("min", extreme "min" .lt), ("max", extreme "max" .gt),
        ("round", ofOneOrTwo "round" round)]
    constants := [] }

-- An elementary function; where it is not a number the argument is outside its domain.
def elementary (name : String) (f : Float → Float) : NativeFunction :=
  ofOne name fun v => do
    let y := Binary64.ofFloat (f (← number name v).toFloat)
    if y.isNaN then fail (.domain name) else .ok (.float y)

def logarithm (v : Value) (base : Option Value) : Attempt Value := do
  let x ← number "log" v
  let y ← match base with
    | none => .ok (Binary64.ofFloat x.toFloat.log)
    | some b => do
      let b ← number "log" b
      .ok (Binary64.ofFloat (x.toFloat.log / b.toFloat.log))
  if y.isNaN || x.lt Binary64.zero || x.isZero then fail (.domain "log") else .ok (.float y)

def power (v w : Value) : Attempt Value := do
  .ok (.float ((← number "pow" v).pow (← number "pow" w)))

def whole (name : String) (f : Binary64 → Binary64) : NativeFunction :=
  ofOne name fun v =>
    match v with
    | .int n => .ok (.int n)
    | _ => do .ok (.int (f (← number name v)).toWide)

def pi : Binary64 := ⟨0x400921fb54442d18⟩
def e : Binary64 := ⟨0x4005bf0a8b145769⟩

def withMath (table : FunctionTable) : FunctionTable :=
  { functions :=
      [("sqrt", elementary "sqrt" Float.sqrt), ("sin", elementary "sin" Float.sin),
        ("cos", elementary "cos" Float.cos), ("tan", elementary "tan" Float.tan),
        ("log10", elementary "log10" Float.log10), ("exp", elementary "exp" Float.exp),
        ("fabs", elementary "fabs" Float.abs), ("log", ofOneOrTwo "log" logarithm),
        ("pow", ofTwo "pow" power), ("floor", whole "floor" Binary64.floor),
        ("ceil", whole "ceil" Binary64.ceil)] ++ table.functions
    constants := [("pi", .float pi), ("e", .float e)] ++ table.constants }

end FunctionTable

end SpaceLink
