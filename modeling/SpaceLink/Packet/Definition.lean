import SpaceLink.Catalog
import SpaceLink.Ccsds.Definition
import SpaceLink.Expr.Function
import SpaceLink.Field.Layout

/-!
Packet definitions and their dictionary.
-/

set_option autoImplicit false

namespace SpaceLink

structure PacketDefinition where
  name : String
  ownApid : Option UInt16
  desc : Option String
  fields : List Field
  history : List String
  constants : List (String × Value)
  -- Of two functions of one name the later counts.
  functions : List UserFunction
  table : FunctionTable
  ccsds : Option CcsdsDefinition

namespace PacketDefinition

def reserved : List String := ["raw", "history"]

def nbytes (d : PacketDefinition) : Nat := farthest d.fields

-- The application identifier, which the header may give.
def apid (d : PacketDefinition) : Option UInt16 := d.ownApid <|> d.ccsds.map CcsdsDefinition.apid

def field? (d : PacketDefinition) (name : String) : Option Field := d.fields.find? fun f => f.name == name

def field (d : PacketDefinition) (name : String) : Attempt Field :=
  match d.field? name with
  | some f => .ok f
  | none => .error (.unknownField d.name name)

def constant? (d : PacketDefinition) (name : String) : Option Value := d.constants.lookup name

def function? (d : PacketDefinition) (name : String) : Option UserFunction :=
  d.functions.reverse.find? fun f => f.name == name

def checkFields (books : Books) (packet : String) : List String → List Field → Attempt Unit
  | _, [] => .ok ()
  | seen, f :: rest => do
    if reserved.contains f.name then .error (.schema (.reservedField packet f.name))
    else
      f.check books
      if seen.contains f.name then .error (.schema (.repeatedField packet f.name))
      else checkFields books packet (f.name :: seen) rest

def ofFields (books : Books) (name : String) (fields : List Field) : Attempt PacketDefinition := do
  let (fields, _) := layOutFrom 0 fields
  checkFields books name [] fields
  .ok
    { name
      ownApid := none
      desc := none
      fields
      history := []
      constants := []
      functions := []
      table := .core
      ccsds := none }

def checkNames (d : PacketDefinition) : List String → Attempt Unit
  | [] => .ok ()
  | name :: rest => do
    let _ ← d.field name
    d.checkNames rest

def withHistory (d : PacketDefinition) (names : List String) : Attempt PacketDefinition := do
  d.checkNames names
  .ok { d with history := names }

end PacketDefinition

abbrev PacketDictionary := Listing PacketDefinition PacketDefinition.name

namespace PacketDictionary

def add (dictionary : PacketDictionary) (d : PacketDefinition) : Attempt PacketDictionary :=
  match dictionary.add? d with
  | some more => .ok more
  | none => .error (.schema (.repeatedPacket d.name))

def ofApid? (dictionary : PacketDictionary) (apid : UInt16) : Option PacketDefinition :=
  dictionary.entries.find? fun d => d.apid == some apid

end PacketDictionary

end SpaceLink
