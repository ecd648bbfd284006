import SpaceLink.Fault

/-!
Operators on values. Integers and truth values are computed exactly and give a double only where the
exact result leaves 128 bits; a division by zero has no value.
-/

set_option autoImplicit false

namespace SpaceLink.Arithmetic

def fail {α : Type} (fault : ExprFault) : Attempt α := .error (.expression fault)

-- `x ^ y`, if it fits and the exponent is below 2 ^ 32.
def power? (x : Int) (y : Nat) : Option Int :=
  if 2 ^ 32 ≤ y then none
  else if x.natAbs ≤ 1 then some (if y = 0 then 1 else if x = -1 ∧ y % 2 = 0 then 1 else x)
  else if 127 < y then none
  else Wide.checked (x ^ y)

-- `x * 2 ^ y` for a shift of less than 127 places, if it fits.
def shiftLeft? (x : Int) (y : Nat) : Option Int :=
  if y < 127 then Wide.checked (x * 2 ^ y) else none

def shiftRight (x : Int) (y : Nat) : Int :=
  if 127 ≤ y then (if x < 0 then -1 else 0) else Wide.shiftRight x y

def onDoubles (op : BinaryOp) (x y : Binary64) (kinds : Value.Kind × Value.Kind) :
    Attempt (Option Value) :=
  let number (z : Binary64) : Attempt (Option Value) := .ok (some (.float z))
  match op with
  | .add => number (x.add y)
  | .sub => number (x.sub y)
  | .mul => number (x.mul y)
  | .div => if y.isZero then .ok none else number (x.div y)
  | .floorDiv => if y.isZero then .ok none else number (x.div y).floor
  | .mod => if y.isZero then .ok none else number (x.sub (y.mul (x.div y).floor))
  | .pow => if x.isZero && y.lt Binary64.zero then .ok none else number (x.pow y)
  | .shiftLeft | .shiftRight | .bitAnd | .bitOr | .bitXor => fail (.operands op kinds.1 kinds.2)

def onInts (op : BinaryOp) (x y : Int) (kinds : Value.Kind × Value.Kind) :
    Attempt (Option Value) :=
  let double (n : Int) := Binary64.ofInt n
  let exact (n : Int) : Attempt (Option Value) := .ok (some (.int n))
  let orDouble (n : Option Int) : Attempt (Option Value) :=
    match n with
    | some n => exact n
    | none => onDoubles op (double x) (double y) kinds
  match op with
  | .add => orDouble (Wide.checked (x + y))
  | .sub => orDouble (Wide.checked (x - y))
  | .mul => orDouble (Wide.checked (x * y))
  | .div => if y = 0 then .ok none else .ok (some (.float ((double x).div (double y))))
  | .floorDiv => if y = 0 then .ok none else orDouble (Wide.checked (x.fdiv y))
  | .mod =>
    if y = 0 then .ok none
    else orDouble (if x = Wide.least ∧ y = -1 then none else some (x.fmod y))
  | .pow =>
    if y < 0 then
      if x = 0 then .ok none else .ok (some (.float ((double x).pow (double y))))
    else orDouble (power? x y.toNat)
  | .shiftLeft =>
    if y < 0 then fail .negativeShift
    else
      match shiftLeft? x y.toNat with
      | some n => exact n
      | none => fail .shiftOverflow
  | .shiftRight => if y < 0 then fail .negativeShift else exact (shiftRight x y.toNat)
  | .bitAnd => exact (Wide.and x y)
  | .bitOr => exact (Wide.or x y)
  | .bitXor => exact (Wide.xor x y)

-- Two texts are joined by `+`; all else is arithmetic.
def binary (op : BinaryOp) (a b : Value) : Attempt (Option Value) :=
  match op, a, b with
  | .add, .str x, .str y => .ok (some (.str (x ++ y)))
  | _, _, _ =>
    match a.exactInt?, b.exactInt? with
    | some x, some y => onInts op x y (a.kind, b.kind)
    | _, _ =>
      match a.toDouble?, b.toDouble? with
      | some x, some y => onDoubles op x y (a.kind, b.kind)
      | _, _ => fail (.operands op a.kind b.kind)

def unary (op : UnaryOp) (v : Value) : Attempt Value :=
  match op, v with
  | .not, v => .ok (.bool !v.isTrue)
  | .negate, .float x => .ok (.float x.neg)
  | .plus, .float x => .ok (.float x)
  | .negate, v =>
    match v.exactInt? with
    | some n =>
      .ok (match Wide.checked (-n) with
        | some m => .int m
        | none => .float (Binary64.ofInt n).neg)
    | none => fail (.operand "-" v.kind)
  | .plus, v =>
    match v.exactInt? with
    | some n => .ok (.int n)
    | none => fail (.operand "+" v.kind)
  | .complement, v =>
    match v.exactInt? with
    | some n => .ok (.int (Wide.complement n))
    | none => fail (.operand "~" v.kind)

def holds (op : Comparison) (order : Ordering) : Bool :=
  match op with
  | .lt => order == .lt
  | .le => order != .gt
  | .gt => order == .gt
  | .ge => order != .lt
  | .eq => order == .eq
  | .ne => order != .eq

def same : Option Value → Option Value → Bool
  | none, none => true
  | some a, some b => a.equal b
  | _, _ => false

-- A comparison of order has no outcome if an operand has no value.
def compare (op : Comparison) (a b : Option Value) : Attempt (Option Bool) :=
  match op, a, b with
  | .eq, a, b => .ok (some (same a b))
  | .ne, a, b => .ok (some !same a b)
  | op, some a, some b =>
    match a.compare? b with
    | some order => .ok (some (holds op order))
    | none => fail (.unordered a.kind b.kind)
  | _, _, _ => .ok none

end SpaceLink.Arithmetic
