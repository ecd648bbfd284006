import SpaceLink.Ccsds.Definition
import SpaceLink.Fault
import SpaceLink.Schema.Record

/-!
Schemas as they are written: the entries of a document before any name in it is looked up.
-/

set_option autoImplicit false

namespace SpaceLink

open Record

inductive BytesEntry where
  | single (first : Nat)
  | range (first last : Nat)
  | word (text : String)

def BytesEntry.ofDocument? (d : Document) : Option BytesEntry :=
  match natural? 64 d with
  | some first => some (.single first)
  | none =>
    match pair? (natural? 64) d with
    | some (first, last) => some (.range first last)
    | none => (string? d).map .word

structure ConversionEntry where
  equation : String
  units : Option String
  condition : Option String

def ConversionEntry.ofDocument? (d : Document) : Option ConversionEntry := do
  let m ← members? ["equation", "units", "when"] d
  some
    { equation := ← required m "equation" string?
      units := ← optional m "units" string?
      condition := ← optional m "when" string? }

structure FieldEntry where
  name : String
  type : String
  bytes : Option BytesEntry
  mask : Option Nat
  enumeration : Option (List (Int × String))
  range : Option (Binary64 × Binary64)
  conversion : Option ConversionEntry
  expr : Option String
  condition : Option String
  fixed : Option Json
  units : Option String
  desc : Option String

def FieldEntry.keys : List String :=
  ["name", "type", "bytes", "mask", "enum", "range", "dntoeu", "expr", "when", "value", "units", "desc"]

def FieldEntry.ofDocument? (d : Document) : Option FieldEntry := do
  let m ← members? keys d
  some
    { name := ← required m "name" string?
      type := ← required m "type" string?
      bytes := ← optional m "bytes" BytesEntry.ofDocument?
      mask := ← optional m "mask" (natural? 64)
      enumeration := ← optional m "enum" (map? integerKey? string?)
      range := ← optional m "range" (pair? double?)
      conversion := ← optional m "dntoeu" ConversionEntry.ofDocument?
      expr := ← optional m "expr" string?
      condition := ← optional m "when" string?
      fixed := ← optional m "value" Document.value?
      units := ← optional m "units" string?
      desc := ← optional m "desc" string? }

def CcsdsDefinition.ofDocument? (d : Document) : Option CcsdsDefinition := do
  let m ← members? ["version", "type", "secondary", "apid", "seqflags", "length"] d
  let byte (key : String) (default : UInt8) :=
    withDefault m key default fun d => (natural? 8 d).map UInt8.ofNat
  let word (key : String) := withDefault m key (0 : UInt16) fun d => (natural? 16 d).map UInt16.ofNat
  some
    { version := ← byte "version" 0
      type := ← byte "type" 0
      secondary := ← withDefault m "secondary" false bool?
      apid := ← word "apid"
      seqflags := ← byte "seqflags" unsegmented
      length := ← word "length" }

inductive FunctionEntry where
  | expression (source : String)
  | branches (bs : List (String × String))

def FunctionEntry.ofDocument? (d : Document) : Option FunctionEntry :=
  match string? d with
  | some source => some (.expression source)
  | none => (list? (pair? string?) d).map .branches

structure PacketEntry where
  name : String
  apid : Option UInt16
  desc : Option String
  fields : List FieldEntry
  history : List String
  constants : List (String × Json)
  functions : List (String × FunctionEntry)
  math : Bool
  ccsds : Option CcsdsDefinition

def PacketEntry.keys : List String :=
  ["name", "apid", "desc", "fields", "history", "constants", "functions", "math", "ccsds"]

def word16? (d : Document) : Option UInt16 := (natural? 16 d).map UInt16.ofNat

def PacketEntry.ofDocument? (d : Document) : Option PacketEntry := do
  let m ← members? keys d
  some
    { name := ← required m "name" string?
      apid := ← optional m "apid" word16?
      desc := ← optional m "desc" string?
      fields := ← required m "fields" (list? FieldEntry.ofDocument?)
      history := ← withDefault m "history" [] (list? string?)
      constants := ← withDefault m "constants" [] (map? textKey? Document.value?)
      functions := ← withDefault m "functions" [] (map? textKey? FunctionEntry.ofDocument?)
      math := ← withDefault m "math" false bool?
      ccsds := ← optional m "ccsds" CcsdsDefinition.ofDocument? }

structure CommandEntry where
  name : String
  opcode : UInt16
  subsystem : Option String
  title : Option String
  desc : Option String
  arguments : List FieldEntry
  ccsds : Option CcsdsDefinition

def CommandEntry.ofDocument? (d : Document) : Option CommandEntry := do
  let m ← members? ["name", "opcode", "subsystem", "title", "desc", "arguments", "ccsds"] d
  some
    { name := ← required m "name" string?
      opcode := ← required m "opcode" word16?
      subsystem := ← optional m "subsystem" string?
      title := ← optional m "title" string?
      desc := ← optional m "desc" string?
      arguments := ← withDefault m "arguments" [] (list? FieldEntry.ofDocument?)
      ccsds := ← optional m "ccsds" CcsdsDefinition.ofDocument? }

structure EventEntry where
  name : String
  code : UInt16
  desc : Option String
  message : String

def EventEntry.ofDocument? (d : Document) : Option EventEntry := do
  let m ← members? ["name", "code", "desc", "message"] d
  some
    { name := ← required m "name" string?
      code := ← required m "code" word16?
      desc := ← optional m "desc" string?
      message := ← withDefault m "message" "" string? }

structure TableEntry where
  name : String
  delimiter : String
  desc : Option String
  size : Option Nat
  header : List FieldEntry
  columns : List FieldEntry

def TableEntry.ofDocument? (d : Document) : Option TableEntry := do
  let m ← members? ["name", "delimiter", "desc", "size", "header", "columns"] d
  some
    { name := ← required m "name" string?
      delimiter := ← withDefault m "delimiter" "," string?
      desc := ← optional m "desc" string?
      size := ← optional m "size" (natural? 64)
      header := ← withDefault m "header" [] (list? FieldEntry.ofDocument?)
      columns := ← required m "columns" (list? FieldEntry.ofDocument?) }

structure Schema where
  packets : List PacketEntry
  commands : List CommandEntry
  events : List EventEntry
  tables : List TableEntry

def Schema.ofDocument? (d : Document) : Option Schema := do
  let m ← members? ["packets", "commands", "evrs", "tables"] d
  some
    { packets := ← withDefault m "packets" [] (list? PacketEntry.ofDocument?)
      commands := ← withDefault m "commands" [] (list? CommandEntry.ofDocument?)
      events := ← withDefault m "evrs" [] (list? EventEntry.ofDocument?)
      tables := ← withDefault m "tables" [] (list? TableEntry.ofDocument?) }

def Schema.read (text : String) : Attempt Schema :=
  match (Document.read? text).bind Schema.ofDocument? with
  | some schema => .ok schema
  | none => .error .json

end SpaceLink
