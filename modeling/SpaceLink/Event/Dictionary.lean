import SpaceLink.Catalog
import SpaceLink.DataType.CodeBook
import SpaceLink.Event.Message

/-!
Events and their dictionary.
-/

set_option autoImplicit false

namespace SpaceLink

structure EventDefinition where
  name : String
  code : UInt16
  desc : Option String
  message : String
deriving DecidableEq, Repr

abbrev EventDictionary := Catalog EventDefinition EventDefinition.name EventDefinition.code

namespace EventDictionary

def add (dictionary : EventDictionary) (d : EventDefinition) : Attempt EventDictionary :=
  match dictionary.add? d with
  | some more => .ok more
  | none => .error (.schema (.repeatedEvent d.name d.code.toNat))

def book (dictionary : EventDictionary) : CodeBook :=
  dictionary.entries.map fun d => ⟨d.name, d.code⟩

end EventDictionary

end SpaceLink
