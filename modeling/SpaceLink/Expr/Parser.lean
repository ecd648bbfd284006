import SpaceLink.Expr.Lexer

/-!
Expressions read from tokens, one token at a time. What has been read stands in a list of frames, the
innermost first: each is an expression that waits for its last part. A token that binds less tightly
than a frame closes it. The levels, from loosest to tightest: conditional, `or`, `and`, `not`,
comparison, `|`, `^`, `&`, shifts, sums, terms, signs, powers.
-/

set_option autoImplicit false

namespace SpaceLink

inductive Frame where
  | paren
  | argument (function : String) (done : List Expr)
  | condition (yes : Expr)
  | otherwise (yes test : Expr)
  | or (left : Expr)
  | and (left : Expr)
  | not
  | chain (first : Expr) (links : List (Comparison × Expr)) (op : Comparison)
  | binary (op : BinaryOp) (left : Expr)
  | sign (op : UnaryOp)

namespace BinaryOp

def level : BinaryOp → Nat
  | .bitOr => 5
  | .bitXor => 6
  | .bitAnd => 7
  | .shiftLeft | .shiftRight => 8
  | .add | .sub => 9
  | .mul | .div | .floorDiv | .mod => 10
  | .pow => 12

def ofOperator? : Operator → Option BinaryOp
  | .plus => some .add
  | .minus => some .sub
  | .star => some .mul
  | .slash => some .div
  | .floorDiv => some .floorDiv
  | .percent => some .mod
  | .power => some .pow
  | .shiftLeft => some .shiftLeft
  | .shiftRight => some .shiftRight
  | .ampersand => some .bitAnd
  | .bar => some .bitOr
  | .caret => some .bitXor
  | _ => none

end BinaryOp

def Comparison.ofOperator? : Operator → Option Comparison
  | .eq => some .eq
  | .ne => some .ne
  | .lt => some .lt
  | .le => some .le
  | .gt => some .gt
  | .ge => some .ge
  | _ => none

def UnaryOp.ofOperator? : Operator → Option UnaryOp
  | .minus => some .negate
  | .plus => some .plus
  | .tilde => some .complement
  | _ => none

namespace Frame

-- How tightly a frame holds its last part; none if only a closing token ends it.
def level? : Frame → Option Nat
  | .paren | .argument _ _ | .condition _ => none
  | .otherwise _ _ => some 0
  | .or _ => some 1
  | .and _ => some 2
  | .not => some 3
  | .chain _ _ _ => some 4
  | .binary op _ => some op.level
  | .sign _ => some 11

def complete (e : Expr) : Frame → Expr
  | .paren | .argument _ _ | .condition _ => e
  | .otherwise yes test => .choice test yes e
  | .or left => .or left e
  | .and left => .and left e
  | .not => .unary .not e
  | .chain first links op => .chain first (links ++ [(op, e)])
  | .binary op left => .binary op left e
  | .sign op => .unary op e

-- Complete the frames that hold at least as tightly as `least`.
def collapse (least : Nat) : List Frame → Expr → List Frame × Expr
  | [], e => ([], e)
  | frame :: frames, e =>
    match frame.level? with
    | none => (frame :: frames, e)
    | some level =>
      if least ≤ level then collapse least frames (frame.complete e) else (frame :: frames, e)

-- Words of logic may begin an operand here: inside no operator of arithmetic or comparison.
def allowsNot : List Frame → Bool
  | .chain _ _ _ :: _ | .binary _ _ :: _ | .sign _ :: _ => false
  | _ => true

def stop (frames : List Frame) (token : Token) : SyntaxFault :=
  match frames with
  | .paren :: _ => .noClose
  | .argument _ _ :: _ => .noCallEnd
  | .condition _ :: _ => .noElse
  | _ => .trailing token

end Frame

namespace Parser

-- What the next token may be. A name may still become a member or a call; a dot that no name follows is a fault of the
-- token after next.
inductive State where
  | operand (frames : List Frame)
  | named (frames : List Frame) (name : String)
  | dotted (frames : List Frame) (base : String)
  | memberless
  | member (frames : List Frame) (base name : String)
  | called (frames : List Frame) (function : String)
  | complete (frames : List Frame) (e : Expr)
  | done (e : Expr)

def isKeyword (word : String) : Bool :=
  word == "and" || word == "or" || word == "not" || word == "if" || word == "else"

def wordLiteral? : String → Option Expr
  | "True" => some (.literal (.bool true))
  | "False" => some (.literal (.bool false))
  | "None" => some .none
  | _ => none

def operandStep (frames : List Frame) (token : Token) : Except SyntaxFault State :=
  match token with
  | .int n => .ok (.complete frames (.literal (.int n)))
  | .float x => .ok (.complete frames (.literal (.float x)))
  | .str s => .ok (.complete frames (.literal (.str s)))
  | .openParen => .ok (.operand (.paren :: frames))
  | .name word =>
    match wordLiteral? word with
    | some e => .ok (.complete frames e)
    | none =>
      if word == "not" && Frame.allowsNot frames then .ok (.operand (.not :: frames))
      else if isKeyword word then .error (.keyword word)
      else .ok (.named frames word)
  | .op op =>
    match UnaryOp.ofOperator? op with
    | some sign => .ok (.operand (.sign sign :: frames))
    | none => .error (.unexpected token)
  | .closeParen | .comma | .dot | .finish => .error (.unexpected token)

-- A comparison continues the chain it stands in.
def compareStep (frames : List Frame) (e : Expr) (op : Comparison) : State :=
  match Frame.collapse 5 frames e with
  | (.chain first links last :: rest, e) =>
    .operand (.chain first (links ++ [(last, e)]) op :: rest)
  | (rest, e) => .operand (.chain e [] op :: rest)

def completeStep (frames : List Frame) (e : Expr) (token : Token) : Except SyntaxFault State :=
  let stopped : Except SyntaxFault State := .error (Frame.stop (Frame.collapse 0 frames e).1 token)
  match token with
  | .op op =>
    match BinaryOp.ofOperator? op, Comparison.ofOperator? op with
    | some .pow, _ => .ok (.operand (.binary .pow e :: frames))
    | some op, _ =>
      let (frames, e) := Frame.collapse op.level frames e
      .ok (.operand (.binary op e :: frames))
    | none, some op => .ok (compareStep frames e op)
    | none, none => stopped
  | .name "and" =>
    let (frames, e) := Frame.collapse 2 frames e
    .ok (.operand (.and e :: frames))
  | .name "or" =>
    let (frames, e) := Frame.collapse 1 frames e
    .ok (.operand (.or e :: frames))
  | .name "if" =>
    match Frame.collapse 1 frames e with
    | (.condition _ :: _, _) => stopped
    | (frames, e) => .ok (.operand (.condition e :: frames))
  | .name "else" =>
    match Frame.collapse 1 frames e with
    | (.condition yes :: frames, e) => .ok (.operand (.otherwise yes e :: frames))
    | _ => stopped
  | .closeParen =>
    match Frame.collapse 0 frames e with
    | (.paren :: frames, e) => .ok (.complete frames e)
    | (.argument function args :: frames, e) => .ok (.complete frames (.call function (args ++ [e])))
    | _ => stopped
  | .comma =>
    match Frame.collapse 0 frames e with
    | (.argument function args :: frames, e) =>
      .ok (.operand (.argument function (args ++ [e]) :: frames))
    | _ => stopped
  | .finish =>
    match Frame.collapse 0 frames e with
    | ([], e) => .ok (.done e)
    | _ => stopped
  | _ => stopped

def step (state : State) (token : Token) : Except SyntaxFault State :=
  match state with
  | .operand frames => operandStep frames token
  | .named frames name =>
    match token with
    | .dot => .ok (.dotted frames name)
    | .openParen => .ok (.called frames name)
    | _ => completeStep frames (.name name) token
  | .dotted frames base =>
    match token with
    | .name name => .ok (.member frames base name)
    | _ => .ok .memberless
  | .memberless => .error .noMember
  | .member frames base name =>
    match token with
    | .openParen => .ok (.called frames (base ++ "." ++ name))
    | _ => completeStep frames (.member base name) token
  | .called frames function =>
    match token with
    | .closeParen => .ok (.complete frames (.call function []))
    | _ => operandStep (.argument function [] :: frames) token
  | .complete frames e => completeStep frames e token
  | .done _ => .error (.trailing token)

-- The last token leaves nothing open but a dot without its name; that fault is placed at zero.
def run (state : State) : List Placed → Except (SyntaxFault × Nat) Expr
  | [] =>
    match state with
    | .done e => .ok e
    | _ => .error (.noMember, 0)
  | placed :: rest =>
    match step state placed.token with
    | .ok next => run next rest
    | .error fault => .error (fault, placed.position)

def parse (source : String) : Except (SyntaxFault × Nat) Expr := do
  run (.operand []) (← Lexer.tokens source)

end Parser

structure Expression where
  source : String
  tree : Expr

def Expression.compile (source : String) : Attempt Expression :=
  match Parser.parse source with
  | .ok tree => .ok ⟨source, tree⟩
  | .error (fault, position) => .error (.expression (.syntaxAt fault position source))

end SpaceLink
