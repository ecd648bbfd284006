import SpaceLink.Expr.Parser
import SpaceLink.Text.Pieces

/-!
How expressions are written. The pattern of an expression has its own tokens and, between them, its parts,
each with the loosest level at which it may stand there without parentheses. A choice is the loosest; names,
literals, calls and what is in parentheses are tighter than all operators.
-/

set_option autoImplicit false

namespace SpaceLink

def UnaryOp.token : UnaryOp → Token
  | .negate => .op .minus
  | .plus => .op .plus
  | .complement => .op .tilde
  | .not => .name "not"

def UnaryOp.level : UnaryOp → Nat
  | .not => 3
  | _ => 11

def Comparison.sign : Comparison → Operator
  | .eq => .eq
  | .ne => .ne
  | .lt => .lt
  | .le => .le
  | .gt => .gt
  | .ge => .ge

namespace BinaryOp

def sign : BinaryOp → Operator
  | .add => .plus
  | .sub => .minus
  | .mul => .star
  | .div => .slash
  | .floorDiv => .floorDiv
  | .mod => .percent
  | .pow => .power
  | .shiftLeft => .shiftLeft
  | .shiftRight => .shiftRight
  | .bitAnd => .ampersand
  | .bitOr => .bar
  | .bitXor => .caret

def tier : BinaryOp → Nat
  | .bitOr => 5
  | .bitXor => 6
  | .bitAnd => 7
  | .shiftLeft | .shiftRight => 8
  | .add | .sub => 9
  | .mul | .div | .floorDiv | .mod => 10
  | .pow => 12

-- On the left of a power stands no operator, on its right a sign or a power too; all others go to the left.
def leftLevel (op : BinaryOp) : Nat := if op = .pow then 13 else op.tier

def rightLevel (op : BinaryOp) : Nat := if op = .pow then 11 else op.tier + 1

end BinaryOp

inductive Item where
  | token (t : Token)
  | part (least : Nat) (e : Expr)

namespace Expr

def level : Expr → Nat
  | .choice _ _ _ => 0
  | .or _ _ => 1
  | .and _ _ => 2
  | .unary op _ => op.level
  | .chain _ _ => 4
  | .binary op _ _ => op.tier
  | _ => 13

def literalTokens : Value → List Token
  | .int n => [.int n]
  | .str s => [.str s]
  | .bool b => [.name (if b then "True" else "False")]
  | _ => []

-- The name of a function may have a base, which a dot sets apart.
def functionTokens (function : String) : List Token :=
  match Text.cutAt '.' function.toList with
  | some (base, n) => [.name (String.ofList base), .dot, .name (String.ofList n)]
  | Option.none => [.name function]

def linkItems (links : List (Comparison × Expr)) : List Item :=
  links.flatMap fun link => [.token (.op link.1.sign), .part 5 link.2]

def argumentItems : List Expr → List Item
  | [] => []
  | e :: rest => .part 0 e :: rest.flatMap fun e => [.token .comma, .part 0 e]

def pattern : Expr → List Item
  | .literal v => (literalTokens v).map .token
  | .none => [.token (.name "None")]
  | .name n => [.token (.name n)]
  | .member base n => [.token (.name base), .token .dot, .token (.name n)]
  | .unary op e => [.token op.token, .part op.level e]
  | .binary op left right => [.part op.leftLevel left, .token (.op op.sign), .part op.rightLevel right]
  | .chain first links => .part 5 first :: linkItems links
  | .and left right => [.part 2 left, .token (.name "and"), .part 3 right]
  | .or left right => [.part 1 left, .token (.name "or"), .part 2 right]
  | .choice condition yes no =>
      [.part 1 yes, .token (.name "if"), .part 1 condition, .token (.name "else"), .part 0 no]
  | .call function args =>
      (functionTokens function).map .token ++ .token .openParen :: (argumentItems args ++ [.token .closeParen])

end Expr

-- Parentheses stand where a part is looser than its place allows and, unless the writing is spare, anywhere else.
inductive Writes (spare : Bool) : List Item → List Token → Prop
  | nil : Writes spare [] []
  | token (t : Token) (items : List Item) (tokens : List Token) (others : Writes spare items tokens) :
      Writes spare (.token t :: items) (t :: tokens)
  | bare (least : Nat) (e : Expr) (items : List Item) (part tokens : List Token) (tight : least ≤ e.level)
      (inner : Writes spare e.pattern part) (others : Writes spare items tokens) :
      Writes spare (.part least e :: items) (part ++ tokens)
  | enclosed (least : Nat) (e : Expr) (items : List Item) (part tokens : List Token)
      (needed : spare = true → e.level < least) (inner : Writes spare [.part 0 e] part)
      (others : Writes spare items tokens) :
      Writes spare (.part least e :: items) (.openParen :: part ++ .closeParen :: tokens)

theorem Writes.alone (spare : Bool) (e : Expr) (own : List Token) (written : Writes spare e.pattern own) :
    Writes spare [.part 0 e] own := by
  have whole := Writes.bare 0 e [] own [] (Nat.zero_le _) written .nil
  rwa [List.append_nil] at whole

structure Identifier (n : String) : Prop where
  name : Text.isName n.toList = true
  unreserved : n ∉ ["and", "or", "not", "if", "else", "True", "False", "None"]

namespace Expr

-- What the parser asks of an expression itself, whatever its parts are.
def Proper : Expr → Prop
  | .literal (.int n) => 0 ≤ n ∧ n ≤ Wide.greatest
  | .literal (.str _) => True
  | .literal (.bool _) => True
  | .literal _ => False
  | .name n => Identifier n
  | .member base n => Identifier base ∧ Identifier n
  | .chain _ links => links ≠ []
  | .call function _ =>
      Identifier function ∨ ∃ base n, Identifier base ∧ Identifier n ∧ function = base ++ "." ++ n
  | _ => True

inductive Grammatical : Expr → Prop
  | node (e : Expr) (proper : e.Proper) (parts : ∀ least part, Item.part least part ∈ e.pattern → Grammatical part) :
      Grammatical e

theorem Grammatical.alone (e : Expr) (grammatical : e.Grammatical) :
    ∀ least part, Item.part least part ∈ [Item.part 0 e] → part.Grammatical := by
  intro least part member
  cases List.mem_singleton.mp member
  exact grammatical

theorem items_written (items : List Item)
    (each : ∀ least part, Item.part least part ∈ items → ∃ tokens, Writes true part.pattern tokens) :
    ∃ tokens, Writes true items tokens := by
  induction items with
  | nil => exact ⟨[], .nil⟩
  | cons item rest ih =>
      obtain ⟨tokens, others⟩ := ih fun least part later => each least part (List.mem_cons_of_mem _ later)
      cases item with
      | token t => exact ⟨_, .token t rest tokens others⟩
      | part least e =>
          obtain ⟨part, inner⟩ := each least e List.mem_cons_self
          by_cases tight : least ≤ e.level
          · exact ⟨_, .bare least e rest part tokens tight inner others⟩
          · have alone := Writes.alone true e part inner
            exact ⟨_, .enclosed least e rest part tokens (fun _ => Nat.lt_of_not_le tight) alone others⟩

theorem grammatical_written (e : Expr) (grammatical : e.Grammatical) : ∃ tokens, Writes true e.pattern tokens := by
  induction grammatical with
  | node e proper parts ih => exact items_written e.pattern ih

end Expr

end SpaceLink
