import SpaceLink.Number.Layout
import SpaceLink.Text.Quoted

/-!
The tokens of expressions and their text in messages.
-/

set_option autoImplicit false

namespace SpaceLink

inductive Operator where
  | power | floorDiv | shiftLeft | shiftRight | le | ge | eq | ne
  | plus | minus | star | slash | percent | ampersand | bar | caret | tilde | lt | gt
deriving DecidableEq, Repr

def Operator.text : Operator → String
  | .power => "**"
  | .floorDiv => "//"
  | .shiftLeft => "<<"
  | .shiftRight => ">>"
  | .le => "<="
  | .ge => ">="
  | .eq => "=="
  | .ne => "!="
  | .plus => "+"
  | .minus => "-"
  | .star => "*"
  | .slash => "/"
  | .percent => "%"
  | .ampersand => "&"
  | .bar => "|"
  | .caret => "^"
  | .tilde => "~"
  | .lt => "<"
  | .gt => ">"

-- The last token of every text is `finish`.
inductive Token where
  | int (n : Int)
  | float (x : Binary64)
  | str (s : String)
  | name (s : String)
  | op (o : Operator)
  | openParen
  | closeParen
  | comma
  | dot
  | finish
deriving DecidableEq, Repr

def Token.describe : Token → String
  | .int n => "Int(" ++ Numeral.signed n ++ ")"
  | .float x => "Float(" ++ FloatLayout.literal.render x ++ ")"
  | .str s => "Str(" ++ Text.quoted s ++ ")"
  | .name s => "Ident(" ++ Text.quoted s ++ ")"
  | .op o => "Op(" ++ Text.quoted o.text ++ ")"
  | .openParen => "LParen"
  | .closeParen => "RParen"
  | .comma => "Comma"
  | .dot => "Dot"
  | .finish => "End"

structure Placed where
  token : Token
  position : Nat
deriving DecidableEq, Repr

end SpaceLink
