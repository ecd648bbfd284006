import SpaceLink.Json.Basic

/-!
JSON as it stands in a document. A part that nobody reads may say anything as long as it is well
formed, so a document keeps what has no value: texts with half of a surrogate pair, numbers beyond the
doubles and levels beyond the deepest. Every value has a document, which reads back as the value.
-/

set_option autoImplicit false

namespace SpaceLink

-- The key of a member, `plain` if it is written without escapes.
structure Document.Key where
  text : String
  plain : Bool

inductive Document where
  | null
  | bool (b : Bool)
  | int (n : Int)
  | float (x : Binary64)
  | str (s : String)
  | array (items : List Document)
  | object (members : List (Document.Key × Document))
  | unreadable

namespace Document

mutual

def value? : Document → Option Json
  | .null => some .null
  | .bool b => some (.bool b)
  | .int n => some (.int n)
  | .float x => some (.float x)
  | .str s => some (.str s)
  | .array items => (values? items).map .array
  | .object members => (memberValues? members).map .object
  | .unreadable => none

def values? : List Document → Option (List Json)
  | [] => some []
  | d :: rest => do
    let j ← value? d
    let js ← values? rest
    some (j :: js)

def memberValues? : List (Key × Document) → Option (List (String × Json))
  | [] => some []
  | (key, d) :: rest => do
    let j ← value? d
    let js ← memberValues? rest
    some ((key.text, j) :: js)

end

mutual

def ofJson : Json → Document
  | .null => .null
  | .bool b => .bool b
  | .int n => .int n
  | .float x => .float x
  | .str s => .str s
  | .array items => .array (ofItems items)
  | .object members => .object (ofMembers members)

def ofItems : List Json → List Document
  | [] => []
  | j :: rest => ofJson j :: ofItems rest

def ofMembers : List (String × Json) → List (Key × Document)
  | [] => []
  | (key, j) :: rest => (⟨key, true⟩, ofJson j) :: ofMembers rest

end

mutual

theorem value_of_json (j : Json) : (ofJson j).value? = some j := by
  cases j with
  | array items => simp [ofJson, value?, values_of_items items]
  | object members => simp [ofJson, value?, member_values_of_members members]
  | _ => simp [ofJson, value?]

theorem values_of_items (items : List Json) : values? (ofItems items) = some items := by
  cases items with
  | nil => simp [ofItems, values?]
  | cons j rest => simp [ofItems, values?, value_of_json j, values_of_items rest]

theorem member_values_of_members (members : List (String × Json)) :
    memberValues? (ofMembers members) = some members := by
  cases members with
  | nil => simp [ofMembers, memberValues?]
  | cons m rest =>
    obtain ⟨key, j⟩ := m
    simp [ofMembers, memberValues?, value_of_json j, member_values_of_members rest]

end

end Document

end SpaceLink
