import SpaceLink.Event.Directive

/-!
Messages of events: characters and directives, and the text they give with the data of an event.
-/

set_option autoImplicit false

namespace SpaceLink.Message

inductive Piece where
  | literal (c : Char)
  | directive (d : Directive)
deriving DecidableEq, Repr

-- A doubled percent sign stands for one, as does one without a directive.
def pieces (text : List Char) : List Piece :=
  match text with
  | [] => []
  | '%' :: '%' :: rest => .literal '%' :: pieces rest
  | '%' :: rest =>
    match Directive.read? rest with
    | some (d, n) => .directive d :: pieces (rest.drop n)
    | none => .literal '%' :: pieces rest
  | c :: rest => .literal c :: pieces rest
termination_by text.length
decreasing_by all_goals simp only [List.length_cons, List.length_drop]; omega

-- The text of pieces, in reverse behind what is `done`. Each directive takes the bytes after those of the one before.
def renderPieces (total : Nat) : List Piece → Bytes → List Char → Attempt (List Char)
  | [], _, done => .ok done
  | .literal c :: more, rest, done => renderPieces total more rest (c :: done)
  | .directive d :: more, rest, done => do
    let (text, left) ← d.render total rest
    renderPieces total more left (text.reverse ++ done)

def render (message : String) (data : Bytes) : Attempt String :=
  (renderPieces data.length (pieces message.toList) data []).map fun done =>
    String.ofList done.reverse

end SpaceLink.Message
