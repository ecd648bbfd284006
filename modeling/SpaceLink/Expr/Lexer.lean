import SpaceLink.Fault
import SpaceLink.Number.Reader
import SpaceLink.Text.Blank
import SpaceLink.Text.Letter

/-!
Texts cut into tokens. Between tokens blanks may stand; each token is the longest that its first
character allows, and a fault is placed where its token starts.
-/

set_option autoImplicit false

namespace SpaceLink.Lexer

def double? : Char → Char → Option Operator
  | '*', '*' => some .power
  | '/', '/' => some .floorDiv
  | '<', '<' => some .shiftLeft
  | '>', '>' => some .shiftRight
  | '<', '=' => some .le
  | '>', '=' => some .ge
  | '=', '=' => some .eq
  | '!', '=' => some .ne
  | _, _ => none

def single? : Char → Option Operator
  | '+' => some .plus
  | '-' => some .minus
  | '*' => some .star
  | '/' => some .slash
  | '%' => some .percent
  | '&' => some .ampersand
  | '|' => some .bar
  | '^' => some .caret
  | '~' => some .tilde
  | '<' => some .lt
  | '>' => some .gt
  | '≤' => some .le
  | '≥' => some .ge
  | '≠' => some .ne
  | _ => none

def radix? (c : Char) : Option Nat :=
  if c = 'x' ∨ c = 'X' then some 16
  else if c = 'b' ∨ c = 'B' then some 2
  else if c = 'o' ∨ c = 'O' then some 8
  else none

def isNumberPart (c : Char) : Bool := Reader.isDigit c || c == '_'

-- How far a decimal number goes: digits and underscores, one point, and an exponent at the end.
def decimalLength (pointAllowed : Bool) : List Char → Nat
  | [] => 0
  | c :: rest =>
    if isNumberPart c then decimalLength pointAllowed rest + 1
    else if c = '.' ∧ pointAllowed then decimalLength false rest + 1
    else if c = 'e' ∨ c = 'E' then
      match rest with
      | [] => 0
      | n :: more =>
        if Reader.isDigit n || n == '+' || n == '-' then (more.takeWhile Reader.isDigit).length + 2
        else 0
    else 0

def withoutUnderscores (text : List Char) : List Char := text.filter (· ≠ '_')

def radixNumber (base : Nat) (text : List Char) : Except SyntaxFault Token :=
  match Reader.integer? base (withoutUnderscores (text.drop 2)) with
  | some n => .ok (.int n)
  | none => .error (.badNumber (String.ofList text))

-- The number of a whole text in base ten: an integer if it has neither point nor exponent.
def decimalNumber (text : List Char) : Except SyntaxFault Token :=
  let digits := withoutUnderscores text
  let number :=
    if digits.any fun c => c == '.' || c == 'e' || c == 'E' then
      (Reader.decimal? digits).map Token.float
    else (Reader.integer? 10 digits).map Token.int
  match number with
  | some token => .ok token
  | none => .error (.badNumber (String.ofList digits))

def unescape (c : Char) : Char :=
  if c = 'n' then '\n' else if c = 't' then '\t' else if c = '0' then '\x00' else c

def string? (quote : Char) : List Char → Option (List Char × Nat)
  | [] => none
  | c :: rest =>
    if c = quote then some ([], 1)
    else if c = '\\' then
      match rest with
      | [] => none
      | e :: more => (string? quote more).map fun (text, n) => (unescape e :: text, n + 2)
    else (string? quote rest).map fun (text, n) => (c :: text, n + 1)

def number (c : Char) (rest : List Char) : Except SyntaxFault (Token × Nat) :=
  match c, rest.head?.bind radix? with
  | '0', some base =>
    let n := ((rest.drop 1).takeWhile fun d => d.isAlphanum || d == '_').length + 1
    (radixNumber base (c :: rest.take n)).map fun token => (token, n)
  | _, _ =>
    let n := decimalLength true (c :: rest) - 1
    (decimalNumber (c :: rest.take n)).map fun token => (token, n)

def first (c : Char) (rest : List Char) : Except SyntaxFault (Token × Nat) :=
  if c = '(' then .ok (.openParen, 0)
  else if c = ')' then .ok (.closeParen, 0)
  else if c = ',' then .ok (.comma, 0)
  else if Reader.isDigit c || (c == '.' && rest.head?.any Reader.isDigit) then number c rest
  else if c = '.' then .ok (.dot, 0)
  else if Text.startsName c then
    let tail := rest.takeWhile Text.continuesName
    .ok (.name (String.ofList (c :: tail)), tail.length)
  else if c = '\'' ∨ c = '"' then
    match string? c rest with
    | some (text, n) => .ok (.str (String.ofList text), n)
    | none => .error .unterminatedString
  else
    match rest.head?.bind (double? c), single? c with
    | some op, _ => .ok (.op op, 1)
    | none, some op => .ok (.op op, 0)
    | none, none => .error (.badCharacter c)

def width (text : List Char) : Nat := text.foldr (fun c count => c.utf8Size + count) 0

def tokensFrom (position : Nat) (text : List Char) : Except (SyntaxFault × Nat) (List Placed) :=
  match text with
  | [] => .ok [⟨.finish, position⟩]
  | c :: rest =>
    if Text.isBlank c then tokensFrom (position + c.utf8Size) rest
    else
      match first c rest with
      | .error fault => .error (fault, position)
      | .ok (token, n) =>
        (tokensFrom (position + width (c :: rest.take n)) (rest.drop n)).map
          fun tokens => ⟨token, position⟩ :: tokens
termination_by text.length
decreasing_by
  · simp
  · simp only [List.length_drop, List.length_cons]
    omega

def tokens (source : String) : Except (SyntaxFault × Nat) (List Placed) :=
  tokensFrom 0 source.toList

end SpaceLink.Lexer
