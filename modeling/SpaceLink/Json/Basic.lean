import SpaceLink.Number.Binary64

/-!
JSON documents. Numbers are integers or doubles, as they were written; the members of an object keep
their order and may repeat a key.
-/

set_option autoImplicit false

namespace SpaceLink

inductive Json where
  | null
  | bool (b : Bool)
  | int (n : Int)
  | float (x : Binary64)
  | str (s : String)
  | array (items : List Json)
  | object (members : List (String × Json))
deriving Inhabited

namespace Json

-- The member of a key, of which the last written counts.
def member? (key : String) (members : List (String × Json)) : Option Json :=
  members.foldl (fun found m => if m.1 = key then some m.2 else found) none

def get? (j : Json) (key : String) : Option Json :=
  match j with
  | .object members => member? key members
  | _ => none

def insertMember (key : String) (value : Json) : List (String × Json) → List (String × Json)
  | [] => [(key, value)]
  | (k, v) :: rest =>
    if key < k then (key, value) :: (k, v) :: rest
    else if key = k then (key, value) :: rest
    else (k, v) :: insertMember key value rest

mutual

-- Members in ascending order of their keys, each key once, the last written counting.
def sorted : Json → Json
  | .array items => .array (sortedItems items)
  | .object members => .object (sortedMembers members [])
  | j => j

def sortedItems : List Json → List Json
  | [] => []
  | j :: rest => sorted j :: sortedItems rest

def sortedMembers : List (String × Json) → List (String × Json) → List (String × Json)
  | [], done => done
  | (key, j) :: rest, done => sortedMembers rest (insertMember key (sorted j) done)

end

end Json

end SpaceLink
