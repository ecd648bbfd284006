import SpaceLink.Table.Cell
import SpaceLink.Table.Definition

/-!
Tables as lines of text and as bytes.
-/

set_option autoImplicit false

namespace SpaceLink.TableDefinition

def readLine (d : TableDefinition) (columns : List Field) (row : Nat) (line : List Char) :
    Attempt (List Value) :=
  let cells := Text.pieces d.delimiter.toList line
  if cells.length = columns.length then
    (columns.zip cells).mapM fun (f, cell) => Cell.read f cell
  else .error (.malformedTable (.cellCount row d.name cells.length columns.length))

def writeValues (books : Books) : List Field → List Value → Bytes → Attempt Bytes
  | f :: fields, v :: values, row => do writeValues books fields values (← f.write books row 0 v)
  | _, _, row => .ok row

def encodeRow (books : Books) (columns : List Field) (nbytes : Nat) (values : List Value) :
    Attempt Bytes :=
  if values.length = columns.length then
    writeValues books columns values (List.replicate nbytes 0)
  else .error (.malformedTable (.valueCount columns.length values.length))

def encodeLines (books : Books) (d : TableDefinition) : Nat → List (List Char) → List Bytes →
    Attempt (List Bytes)
  | _, [], done => .ok done
  | row, line :: rest, done => do
    let values ← d.readLine d.columns row line
    let bytes ← encodeRow books d.columns d.rowBytes values
    encodeLines books d (row + 1) rest (bytes :: done)

-- The header row, and the lines behind it. Values given for it stand in place of a line.
def encodeHeader (books : Books) (d : TableDefinition) (given : Option (List Value))
    (lines : List (List Char)) : Attempt (List Bytes × List (List Char)) :=
  if d.header.isEmpty then .ok ([], lines)
  else
    match given, lines with
    | some values, lines => do .ok ([← encodeRow books d.header d.headerBytes values], lines)
    | none, [] => .error (.malformedTable (.noHeader d.name))
    | none, line :: rest => do
      let values ← d.readLine d.header 0 line
      .ok ([← encodeRow books d.header d.headerBytes values], rest)

def encode (books : Books) (d : TableDefinition) (lines : List String) (header : Option (List Value)) :
    Attempt Bytes := do
  let lines := (lines.map fun line => Text.trimmed line.toList).filter fun line => !line.isEmpty
  let (start, lines) ← encodeHeader books d header lines
  let rows ← encodeLines books d 1 lines start
  let bytes := rows.reverse.flatten
  match d.size with
  | some limit =>
    if limit < bytes.length then .error (.outOfRange (.tableSize d.name bytes.length limit))
    else .ok bytes
  | none => .ok bytes

structure Rows where
  rows : List (List Value)
  fault : Option Fault

def decodeRow (books : Books) (d : TableDefinition) (columns : List Field) (nbytes : Nat)
    (raw : Bool) (bytes : Bytes) : Attempt (List Value) :=
  let row := bytes.take nbytes
  if row.length < nbytes then .error (.malformedTable (.cut d.name bytes.length nbytes))
  else columns.mapM fun f => f.decode books row raw none

structure Decoder where
  rest : Bytes
  headerDone : Bool
  failed : Bool
deriving DecidableEq, Repr

-- A bound of the rows to come.
def Decoder.size (s : Decoder) : Nat := s.rest.length + if s.headerDone then 0 else 1

def decoder (d : TableDefinition) (bytes : Bytes) : Decoder := ⟨bytes, d.header.isEmpty, false⟩

-- The next row, or the fault that ends the iteration. Data rows without bytes are not read.
def next (books : Books) (d : TableDefinition) (raw : Bool) (s : Decoder) :
    Option (Attempt (List Value) × Decoder) :=
  if s.failed ∨ s.rest = [] ∨ (s.headerDone ∧ d.rowBytes = 0) then none
  else
    let columns := if s.headerDone then d.columns else d.header
    let nbytes := if s.headerDone then d.rowBytes else d.headerBytes
    match decodeRow books d columns nbytes raw s.rest with
    | .ok values => some (.ok values, ⟨s.rest.drop nbytes, true, false⟩)
    | .error fault => some (.error fault, ⟨s.rest, true, true⟩)

theorem next_smaller (books : Books) (d : TableDefinition) (raw : Bool) (s later : Decoder)
    (values : List Value) (read : d.next books raw s = some (.ok values, later)) :
    later.size < s.size := by
  obtain ⟨rest, headerDone, failed⟩ := s
  simp only [next] at read
  split at read
  · cases read
  · rename_i more
    split at read <;> cases read
    have filled : 0 < rest.length := List.length_pos_iff.mpr fun empty => more (.inr (.inl empty))
    simp only [Decoder.size, List.length_drop, if_true]
    cases headerDone with
    | false =>
      simp only [Bool.false_eq_true, if_false]
      omega
    | true =>
      have wide : d.rowBytes ≠ 0 := fun zero => more (.inr (.inr ⟨rfl, zero⟩))
      simp only [if_true]
      omega

def collect (books : Books) (d : TableDefinition) (raw : Bool) (s : Decoder)
    (done : List (List Value)) : Rows :=
  match _read : d.next books raw s with
  | none => ⟨done.reverse, none⟩
  | some (.error fault, _) => ⟨done.reverse, some fault⟩
  | some (.ok values, later) => collect books d raw later (values :: done)
termination_by s.size
decreasing_by exact next_smaller books d raw s later values _read

def decodeRows (books : Books) (d : TableDefinition) (raw : Bool) (bytes : Bytes) : Rows :=
  d.collect books raw (d.decoder bytes) []

def decode (books : Books) (d : TableDefinition) (raw : Bool) (bytes : Bytes) :
    Attempt (List (List Value)) :=
  let found := d.decodeRows books raw bytes
  match found.fault with
  | none => .ok found.rows
  | some fault => .error fault

def renderRow (d : TableDefinition) (columns : List Field) (values : List Value) : String :=
  String.intercalate d.delimiter
    ((columns.zip values).map fun (f, v) => Cell.render f d.delimiter v)

def rowColumns (d : TableDefinition) (row : Nat) : List Field :=
  if row = 0 ∧ d.header ≠ [] then d.header else d.columns

def writeLines (books : Books) (d : TableDefinition) (raw : Bool) (s : Decoder) (count : Nat)
    (text : String) : String × Attempt Nat :=
  match _read : d.next books raw s with
  | none => (text, .ok count)
  | some (.error fault, _) => (text, .error fault)
  | some (.ok values, later) =>
    writeLines books d raw later (count + 1) (text ++ d.renderRow (d.rowColumns count) values ++ "\n")
termination_by s.size
decreasing_by exact next_smaller books d raw s later values _read

def encodeText (books : Books) (d : TableDefinition) (text : String) (header : Option (List Value)) :
    Attempt Bytes :=
  d.encode books (Text.lines text) header

-- The lines of the rows in bytes, those before a fault too, and the count of the rows.
def decodeText (books : Books) (d : TableDefinition) (raw : Bool) (bytes : Bytes) :
    String × Attempt Nat :=
  d.writeLines books raw (d.decoder bytes) 0 ""

end SpaceLink.TableDefinition
