import SpaceLink.Text.CodeSet

/-!
Blanks: the characters with the White_Space property. Texts are trimmed of them and cut into words at
them.
-/

set_option autoImplicit false

namespace SpaceLink.Text

def blanks : List Nat :=
  [0x9, 0xe, 0x20, 0x21, 0x85, 0x86, 0xa0, 0xa1, 0x1680, 0x1681, 0x2000, 0x200b, 0x2028, 0x202a,
  0x202f, 0x2030, 0x205f, 0x2060, 0x3000, 0x3001]

def isBlank (c : Char) : Bool := inCodeSet blanks c

def dropBlanks (text : List Char) : List Char := text.dropWhile isBlank

def trimmed (text : List Char) : List Char := (dropBlanks (dropBlanks text).reverse).reverse

def trim (s : String) : String := String.ofList (trimmed s.toList)

-- The words of a text. Of the first, what is read already stands in `word` in reverse.
def wordsFrom (word : List Char) : List Char → List (List Char)
  | [] => if word.isEmpty then [] else [word.reverse]
  | c :: rest =>
    if isBlank c then
      if word.isEmpty then wordsFrom [] rest else word.reverse :: wordsFrom [] rest
    else wordsFrom (c :: word) rest

def words (text : List Char) : List (List Char) := wordsFrom [] text

end SpaceLink.Text
