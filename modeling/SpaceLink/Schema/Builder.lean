import SpaceLink.Command.Basic
import SpaceLink.Event.Dictionary
import SpaceLink.Packet.Basic
import SpaceLink.Schema.FieldBuilder
import SpaceLink.Table.Basic

/-!
Dictionaries from schemas: events first, then commands, packets and tables. The first fault ends the
building.
-/

set_option autoImplicit false

namespace SpaceLink

structure Dictionaries where
  packets : PacketDictionary
  commands : CommandDictionary
  events : EventDictionary
  tables : TableDictionary

def FunctionEntry.build (signature : String) (entry : FunctionEntry) : Attempt UserFunction :=
  match entry with
  | .expression source => UserFunction.ofExpression signature source
  | .branches bs => UserFunction.ofBranches signature bs

def PacketEntry.build (registry : Registry) (books : Books) (entry : PacketEntry) :
    Attempt PacketDefinition := do
  let fields ← FieldEntry.buildAll registry entry.fields
  let d ← PacketDefinition.ofFields books entry.name fields
  let d ← d.withHistory entry.history
  let constants ← entry.constants.mapM fun (name, j) => do .ok (name, ← Value.ofJson j)
  let functions ← entry.functions.mapM fun (signature, body) => body.build signature
  .ok
    { d with
      ownApid := entry.apid
      desc := entry.desc
      constants
      functions
      table := if entry.math then FunctionTable.core.withMath else .core
      ccsds := entry.ccsds }

def CommandEntry.build (registry : Registry) (books : Books) (entry : CommandEntry) :
    Attempt CommandDefinition := do
  let fields ← FieldEntry.buildAll registry entry.arguments
  let d ← CommandDefinition.ofFields books entry.name entry.opcode fields
  .ok
    { d with
      subsystem := entry.subsystem
      title := entry.title
      desc := entry.desc
      ccsds := entry.ccsds }

def EventEntry.build (entry : EventEntry) : EventDefinition :=
  ⟨entry.name, entry.code, entry.desc, entry.message⟩

def TableEntry.build (registry : Registry) (books : Books) (entry : TableEntry) :
    Attempt TableDefinition := do
  let header ← FieldEntry.buildAll registry entry.header
  let columns ← FieldEntry.buildAll registry entry.columns
  let d ← TableDefinition.ofColumns books entry.name header columns
  .ok { d with delimiter := entry.delimiter, desc := entry.desc, size := entry.size }

namespace Schema

-- The dictionaries of a schema whose fixed values see the given code books.
def dictionaries (schema : Schema) (registry : Registry) (books : Books) : Attempt Dictionaries := do
  let events ← schema.events.foldlM (fun all e => EventDictionary.add all e.build) Catalog.empty
  let commands ← schema.commands.foldlM
    (fun all e => do CommandDictionary.add all (← e.build registry books)) Catalog.empty
  let packets ← schema.packets.foldlM
    (fun all e => do PacketDictionary.add all (← e.build registry books)) Listing.empty
  let tables ← schema.tables.foldlM
    (fun all e => do TableDictionary.add all (← e.build registry books)) Listing.empty
  .ok { packets, commands, events, tables }

-- The dictionaries of a schema, and the registry after it: books that are still missing become those of the schema.
def build (schema : Schema) (registry : Registry) : Attempt Dictionaries × Registry :=
  let (outcome, registry) := registry.perform (schema.dictionaries registry)
  match outcome with
  | .error fault => (.error fault, registry)
  | .ok built =>
    (.ok built,
      { registry with
        commands := registry.commands.orElse built.commands.book
        events := registry.events.orElse built.events.book })

end Schema

end SpaceLink
