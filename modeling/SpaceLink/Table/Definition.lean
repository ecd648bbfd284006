import SpaceLink.Catalog
import SpaceLink.Field.Layout

/-!
Table definitions and their dictionary. A table is rows of columns, after a header row if it has one;
each row is as wide as its layout.
-/

set_option autoImplicit false

namespace SpaceLink

structure TableDefinition where
  name : String
  delimiter : String
  desc : Option String
  size : Option Nat
  header : List Field
  columns : List Field
  headerBytes : Nat
  rowBytes : Nat

namespace TableDefinition

def checkColumns (books : Books) (table : String) : List String → List Field → Attempt Unit
  | _, [] => .ok ()
  | seen, f :: rest => do
    f.check books
    if seen.contains f.name then .error (.schema (.repeatedColumn table f.name))
    else checkColumns books table (f.name :: seen) rest

def ofColumns (books : Books) (name : String) (header columns : List Field) :
    Attempt TableDefinition := do
  if columns.isEmpty then .error (.schema (.noColumns name))
  else
    let (header, headerBytes) := layOutFrom 0 header
    let (columns, rowBytes) := layOutFrom 0 columns
    checkColumns books name [] header
    checkColumns books name [] columns
    .ok { name, delimiter := ",", desc := none, size := none, header, columns, headerBytes, rowBytes }

end TableDefinition

abbrev TableDictionary := Listing TableDefinition TableDefinition.name

def TableDictionary.add (dictionary : TableDictionary) (d : TableDefinition) :
    Attempt TableDictionary :=
  match dictionary.add? d with
  | some more => .ok more
  | none => .error (.schema (.repeatedTable d.name))

end SpaceLink
