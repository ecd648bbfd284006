import SpaceLink.Packet.Definition
import SpaceLink.Packet.History

/-!
Packets and the values of their fields. A field may depend on others through its condition, its
conversion or its expression; the levels of that dependence are limited, and a deeper one, or a circle,
is a fault.
-/

set_option autoImplicit false

namespace SpaceLink

structure Packet where
  definition : PacketDefinition
  data : Bytes

-- What the values in a packet depend on besides its bytes.
structure Context where
  books : Books
  history : History

namespace Packet

def depthLimit : Nat := 64

def new (d : PacketDefinition) : Packet := ⟨d, List.replicate d.nbytes 0⟩

-- The value of a field whose names stand for `symbols`. The raw value is the one in its bytes.
def readWith (c : Context) (p : Packet) (symbols : Symbols) (f : Field) (raw : Bool)
    (index : Option Nat) : Attempt (Option Value) := do
  let present ← match f.condition with
    | some condition => condition.test symbols
    | none => .ok true
  if present then
    match raw, f.conversion, f.expr with
    | false, some conversion, _ => conversion.eval symbols
    | false, none, some e => e.eval symbols
    | _, _, _ => do .ok (some (← f.decode c.books p.data raw index))
  else .ok none

def symbolsWith (c : Context) (p : Packet) (read : Field → Bool → Attempt (Option Value))
    (call : String → List (Option Value) → Option (Attempt (Option Value))) : Symbols :=
  { value := fun name =>
      match p.definition.field? name with
      | some f => read f false
      | none =>
        match p.definition.constant? name with
        | some v => .ok (some v)
        | none => .error (.unknownField p.definition.name name)
    raw := fun name =>
      match p.definition.field? name with
      | some f => read f true
      | none => .error (.unknownField p.definition.name name)
    history := fun name =>
      if p.definition.history.contains name then .ok (c.history.value? name)
      else .error (.expression (.undefinedHistory p.definition.name name))
    call
    functions := p.definition.table }

def tooDeep {α : Type} (p : Packet) : Attempt α :=
  .error (.expression (.fieldDepth p.definition.name depthLimit))

-- What names stand for when so many more levels may be entered.
def symbols (c : Context) (p : Packet) : Nat → Symbols
  | 0 =>
    p.symbolsWith c (fun _ _ => p.tooDeep)
      fun function _ => some (.error (.expression (.callDepth function depthLimit)))
  | levels + 1 =>
    let inner := symbols c p levels
    p.symbolsWith c (fun f raw => p.readWith c inner f raw none)
      fun function args => (p.definition.function? function).map fun f => f.invoke args inner

def readAt (c : Context) (p : Packet) (depth : Nat) (f : Field) (raw : Bool) (index : Option Nat) :
    Attempt (Option Value) :=
  if depthLimit < depth then p.tooDeep
  else p.readWith c (p.symbols c (depthLimit - depth)) f raw index

def get (c : Context) (p : Packet) (name : String) (raw : Bool) (index : Option Nat) :
    Attempt (Option Value) := do
  p.readAt c 0 (← p.definition.field name) raw index

def arrayOf (p : Packet) (name : String) : Attempt ArrayType := do
  let f ← p.definition.field name
  match f.type with
  | .array a => .ok a
  | .scalar s => .error (.typeMismatch s.name .array .scalar)

def elements (c : Context) (p : Packet) (name : String) (raw : Bool) :
    Attempt (List (Attempt (Option Value))) := do
  let a ← p.arrayOf name
  .ok ((List.range a.count).map fun i => p.get c name raw (some i))

def set (books : Books) (p : Packet) (name : String) (v : Value) : Attempt Packet := do
  let f ← p.definition.field name
  .ok { p with data := ← f.write books p.data 0 v }

def received (c : Context) (p : Packet) : List (String × Value) :=
  p.definition.history.filterMap fun name =>
    match p.get c name false none with
    | .ok (some v) => some (name, v)
    | _ => none

-- The packet in the first bytes, and the history with it; the packet sees the history before it.
def receive (c : Context) (d : PacketDefinition) (bytes : Bytes) : Attempt (Packet × History) :=
  let data := bytes.take d.nbytes
  if data.length < d.nbytes then .error (.notEnoughData bytes.length d.nbytes)
  else
    let p : Packet := ⟨d, data⟩
    .ok (p, c.history.record (p.received c))

def receiveAll (c : Context) (d : PacketDefinition) : List Bytes → List (Attempt Packet) × History
  | [] => ([], c.history)
  | bytes :: rest =>
    match receive c d bytes with
    | .ok (p, history) =>
      let (others, last) := receiveAll { c with history } d rest
      (.ok p :: others, last)
    | .error fault =>
      let (others, last) := receiveAll c d rest
      (.error fault :: others, last)

-- Derived fields are checked by their raw value, as that is what their type describes.
def checkedValue (c : Context) (p : Packet) (name : String) : Attempt (Option Value) := do
  let f ← p.definition.field name
  p.readAt c 0 f f.isDerived none

def toJson (c : Context) (p : Packet) : Attempt Json := do
  let members ← p.definition.fields.mapM fun f => do
    match ← p.get c f.name false none with
    | none => .ok (f.name, Json.null)
    | some v => if v.fitsDocument then .ok (f.name, v.toJson) else .error .json
  .ok (Json.object members).sorted

end Packet

namespace PacketDefinition

-- One field, by the value that a source has for it; no value passes.
def validateField (d : PacketDefinition) (source : String → Attempt (Option Value)) (f : Field)
    (log : List String) : Verdict :=
  match source f.name with
  | .ok (some v) => f.validate v log
  | .ok none => .pass log
  | .error fault =>
    .fail (s!"Telemetry field mismatch for packet '{d.name}'.  Unable to retrieve value for " ++
      s!"{f.name} in Packet: {fault.message}") log

def validate (d : PacketDefinition) (source : String → Attempt (Option Value)) (log : List String) :
    Verdict :=
  d.fields.foldl (fun verdict f => verdict.also (d.validateField source f)) (.pass log)

end PacketDefinition

def Packet.validate (c : Context) (p : Packet) (log : List String) : Verdict :=
  p.definition.validate (p.checkedValue c) log

end SpaceLink
