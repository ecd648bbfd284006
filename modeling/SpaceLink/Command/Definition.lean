import SpaceLink.Catalog
import SpaceLink.Ccsds.Definition
import SpaceLink.Field.Layout

/-!
Command definitions and their dictionary. A command is its opcode, the size of its arguments and the
arguments, which are laid out from the first byte behind these.
-/

set_option autoImplicit false

namespace SpaceLink

structure CommandDefinition where
  name : String
  opcode : UInt16
  subsystem : Option String
  title : Option String
  desc : Option String
  ccsds : Option CcsdsDefinition
  fields : List Field

namespace CommandDefinition

def argumentStart : Nat := 3

-- The greatest size of arguments that are sent without staging: 53 words.
def greatestSize : Nat := 106

def argumentSize (d : CommandDefinition) : Nat := farthest d.fields

def nbytes (d : CommandDefinition) : Nat := argumentStart + d.argumentSize

def needsStaging (d : CommandDefinition) : Bool := decide (greatestSize < d.argumentSize)

def arguments (d : CommandDefinition) : List Field := d.fields.filter fun f => f.fixed.isNone

def checkFields (books : Books) (command : String) : List String → List Field → Attempt Unit
  | _, [] => .ok ()
  | seen, f :: rest => do
    f.check books
    if seen.contains f.name then .error (.schema (.repeatedArgument command f.name))
    else checkFields books command (f.name :: seen) rest

def ofFields (books : Books) (name : String) (opcode : UInt16) (fields : List Field) :
    Attempt CommandDefinition := do
  let (fields, _) := layOutFrom 0 fields
  checkFields books name [] fields
  .ok
    { name
      opcode
      subsystem := none
      title := none
      desc := none
      ccsds := none
      fields }

end CommandDefinition

abbrev CommandDictionary := Catalog CommandDefinition CommandDefinition.name CommandDefinition.opcode

namespace CommandDictionary

def add (dictionary : CommandDictionary) (d : CommandDefinition) : Attempt CommandDictionary :=
  match dictionary.add? d with
  | some more => .ok more
  | none => .error (.schema (.repeatedCommand d.name d.opcode.toNat))

def book (dictionary : CommandDictionary) : CodeBook :=
  dictionary.entries.map fun d => ⟨d.name, d.opcode⟩

def find (dictionary : CommandDictionary) (name : String) : Attempt CommandDefinition :=
  match dictionary.ofName? name with
  | some d => .ok d
  | none => .error (.unknownSymbol (.command name))

end CommandDictionary

end SpaceLink
