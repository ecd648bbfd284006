/-!
Cutting texts at a delimiter and looking for one.
-/

set_option autoImplicit false

namespace SpaceLink.Text

-- The pieces between the occurrences of a delimiter that is not empty. So many characters still belong to the delimiter
-- before; of the first piece, what is read already stands in reverse.
def piecesFrom (delimiter : List Char) : Nat → List Char → List Char → List (List Char)
  | _, piece, [] => [piece.reverse]
  | skip + 1, piece, _ :: cs => piecesFrom delimiter skip piece cs
  | 0, piece, c :: cs =>
    if delimiter.isPrefixOf (c :: cs) then
      piece.reverse :: piecesFrom delimiter (delimiter.length - 1) [] cs
    else piecesFrom delimiter 0 (c :: piece) cs

-- The pieces of a text. An empty delimiter stands between all characters and at both ends.
def pieces (delimiter text : List Char) : List (List Char) :=
  if delimiter.isEmpty then [] :: text.map (fun c => [c]) ++ [[]]
  else piecesFrom delimiter 0 [] text

def contains (needle : List Char) : List Char → Bool
  | [] => needle.isEmpty
  | c :: cs => needle.isPrefixOf (c :: cs) || contains needle cs

def cutAt (mark : Char) (text : List Char) : Option (List Char × List Char) :=
  match text.dropWhile (· ≠ mark) with
  | [] => none
  | _ :: rest => some (text.takeWhile (· ≠ mark), rest)

-- Lines end at a line feed, which may follow a carriage return; the last may lack it. Of the first, what is read
-- already stands in `line` in reverse.
def linesFrom (line : List Char) : List Char → List (List Char)
  | [] => if line.isEmpty then [] else [line.reverse]
  | c :: rest =>
    if c = '\n' then
      (match line with
        | '\r' :: before => before.reverse
        | _ => line.reverse) :: linesFrom [] rest
    else linesFrom (c :: line) rest

def lines (text : String) : List String := (linesFrom [] text.toList).map String.ofList

end SpaceLink.Text
