import SpaceLink.Value

/-!
Expression trees.
-/

set_option autoImplicit false

namespace SpaceLink

inductive UnaryOp where
  | negate | plus | not | complement
deriving DecidableEq, Repr

inductive BinaryOp where
  | add | sub | mul | div | floorDiv | mod | pow | shiftLeft | shiftRight | bitAnd | bitOr | bitXor
deriving DecidableEq, Repr

inductive Comparison where
  | eq | ne | lt | le | gt | ge
deriving DecidableEq, Repr

def BinaryOp.text : BinaryOp → String
  | .add => "+"
  | .sub => "-"
  | .mul => "*"
  | .div => "/"
  | .floorDiv => "//"
  | .mod => "%"
  | .pow => "**"
  | .shiftLeft => "<<"
  | .shiftRight => ">>"
  | .bitAnd => "&"
  | .bitOr => "|"
  | .bitXor => "^"

-- `chain` compares neighbours: `first` with the first link, that with the next, and so on.
inductive Expr where
  | literal (v : Value)
  | none
  | name (n : String)
  | member (base n : String)
  | unary (op : UnaryOp) (e : Expr)
  | binary (op : BinaryOp) (left right : Expr)
  | chain (first : Expr) (links : List (Comparison × Expr))
  | and (left right : Expr)
  | or (left right : Expr)
  | choice (condition yes no : Expr)
  | call (function : String) (args : List Expr)

end SpaceLink
