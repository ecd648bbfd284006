import SpaceLink.Proofs.Table.Bounds
import SpaceLink.Proofs.Text.Joining

/-!
The rows of a table in bytes. They are read from chunks that follow each other without a gap, the chunk of the header
first. Reading ends behind the last byte or with one fault, that of the chunk behind the rows that were read.
-/

set_option autoImplicit false

namespace SpaceLink.TableDefinition

variable (books : Books) (d : TableDefinition) (raw : Bool)

def width (row : Nat) : Nat := if row = 0 ∧ d.header ≠ [] then d.headerBytes else d.rowBytes

-- Where a row begins.
def start : Nat → Nat
  | 0 => 0
  | row + 1 => start row + d.width row

def chunk (bytes : Bytes) (row : Nat) : Bytes := (bytes.drop (d.start row)).take (d.width row)

-- Neither the header nor a data row is without bytes.
structure Wide : Prop where
  data : 0 < d.rowBytes
  header : d.header ≠ [] → 0 < d.headerBytes

theorem width_pos (wide : d.Wide) (row : Nat) : 0 < d.width row := by
  rw [width]
  by_cases first : row = 0 ∧ d.header ≠ []
  · rw [if_pos first]
    exact wide.header first.2
  · rw [if_neg first]
    exact wide.data

theorem start_after_header (present : d.header ≠ []) (row : Nat) :
    d.start (row + 1) = d.headerBytes + row * d.rowBytes := by
  induction row with
  | zero => simp [start, width, present]
  | succ row ih =>
      rw [start, ih, width, if_neg (by simp), Nat.succ_mul]
      omega

theorem start_without_header (absent : d.header = []) (row : Nat) : d.start row = row * d.rowBytes := by
  induction row with
  | zero => simp [start]
  | succ row ih => rw [start, ih, width, if_neg (by simp [absent]), Nat.succ_mul]

theorem chunks_joined (bytes : Bytes) (count : Nat) :
    (List.range count).flatMap (d.chunk bytes) = bytes.take (d.start count) := by
  induction count with
  | zero => simp [start]
  | succ count ih => rw [List.range_succ, List.flatMap_append, ih, List.flatMap_singleton, chunk, start, List.take_add]

-- The values of a row from the bytes at its place.
def rowAt (bytes : Bytes) (row : Nat) : Attempt (List Value) :=
  if bytes.length < d.start (row + 1) then
    .error (.malformedTable (.cut d.name (bytes.length - d.start row) (d.width row)))
  else (d.rowColumns row).mapM fun f => f.decode books (d.chunk bytes row) raw none

theorem row_at_place (wide : d.Wide) (bytes : Bytes) (row : Nat) :
    d.decodeRow books (d.rowColumns row) (d.width row) raw (bytes.drop (d.start row)) =
      d.rowAt books raw bytes row := by
  have positive := d.width_pos wide row
  have same : ((bytes.drop (d.start row)).take (d.width row)).length < d.width row ↔
      bytes.length < d.start (row + 1) := by
    rw [List.length_take, List.length_drop, start]
    omega
  simp only [decodeRow, rowAt, same, List.length_drop, chunk]

-- The state in which a row is read.
def before (bytes : Bytes) (row : Nat) : Decoder :=
  ⟨bytes.drop (d.start row), decide (¬ (row = 0 ∧ d.header ≠ [])), false⟩

-- The state behind the fault of a row.
def after (bytes : Bytes) (row : Nat) : Decoder := ⟨bytes.drop (d.start row), true, true⟩

theorem decoder_before (bytes : Bytes) : d.decoder bytes = d.before bytes 0 := by
  cases present : d.header <;> simp [decoder, before, start, present]

theorem next_at_end (bytes : Bytes) (row : Nat) (read : bytes.length ≤ d.start row) :
    d.next books raw (d.before bytes row) = none := by
  have empty : bytes.drop (d.start row) = [] := List.drop_of_length_le read
  simp [next, before, empty]

theorem next_after_fault (bytes : Bytes) (row : Nat) : d.next books raw (d.after bytes row) = none := by
  simp [next, after]

theorem next_row (wide : d.Wide) (bytes : Bytes) (row : Nat) (more : d.start row < bytes.length) :
    d.next books raw (d.before bytes row) = match d.rowAt books raw bytes row with
      | .ok values => some (.ok values, d.before bytes (row + 1))
      | .error fault => some (.error fault, d.after bytes row) := by
  have filled : bytes.drop (d.start row) ≠ [] := fun empty => by simp at empty; omega
  have columns : (if (d.before bytes row).headerDone then d.columns else d.header) = d.rowColumns row := by
    simp only [before, rowColumns, decide_eq_true_eq, ite_not]
  have nbytes : (if (d.before bytes row).headerDone then d.rowBytes else d.headerBytes) = d.width row := by
    simp only [before, width, decide_eq_true_eq, ite_not]
  have unended : ¬ ((d.before bytes row).failed ∨ (d.before bytes row).rest = [] ∨
      ((d.before bytes row).headerDone ∧ d.rowBytes = 0)) := by
    have data := wide.data
    rintro (failed | empty | ⟨_, narrow⟩)
    · cases failed
    · exact filled empty
    · omega
  simp only [next, if_neg unended, columns, nbytes]
  rw [show (d.before bytes row).rest = bytes.drop (d.start row) from rfl, d.row_at_place books raw wide bytes row]
  cases d.rowAt books raw bytes row with
  | error fault => rfl
  | ok values => simp [before, start, List.drop_drop]

-- A row that is read lies in the bytes with its whole chunk.
theorem row_at_whole (bytes : Bytes) (row : Nat) (values : List Value)
    (read : d.rowAt books raw bytes row = .ok values) :
    d.start (row + 1) ≤ bytes.length ∧
      (d.rowColumns row).mapM (fun f => f.decode books (d.chunk bytes row) raw none) = .ok values := by
  rw [rowAt] at read
  by_cases cut : bytes.length < d.start (row + 1)
  · rw [if_pos cut] at read
    cases read
  · rw [if_neg cut] at read
    exact ⟨Nat.le_of_not_lt cut, read⟩

-- The rows and faults that come one after the other, and the state behind them.
inductive Reads : Decoder → List (Attempt (List Value)) → Decoder → Prop
  | done (s : Decoder) : Reads s [] s
  | step (s later last : Decoder) (item : Attempt (List Value)) (items : List (Attempt (List Value)))
      (read : d.next books raw s = some (item, later)) (rest : Reads later items last) : Reads s (item :: items) last

-- Reading from a row on: by induction on the bytes behind its start, as every row has some.
theorem reads_before (wide : d.Wide) (bytes : Bytes) (row : Nat) (inside : d.start row ≤ bytes.length) :
    ∃ rows : List (List Value),
      (∀ i (found : i < rows.length), d.rowAt books raw bytes (row + i) = .ok rows[i]) ∧
      d.Reads books raw (d.before bytes row) (rows.map .ok) (d.before bytes (row + rows.length)) ∧
      (d.start (row + rows.length) = bytes.length ∨
        d.start (row + rows.length) < bytes.length ∧
          ∃ fault, d.rowAt books raw bytes (row + rows.length) = .error fault) := by
  by_cases atEnd : d.start row = bytes.length
  · exact ⟨[], by simp, .done _, .inl atEnd⟩
  · have more : d.start row < bytes.length := by omega
    have found := d.next_row books raw wide bytes row more
    cases read : d.rowAt books raw bytes row with
    | error fault => exact ⟨[], by simp, .done _, .inr ⟨more, fault, read⟩⟩
    | ok values =>
        have positive := d.width_pos wide row
        have further : d.start (row + 1) = d.start row + d.width row := rfl
        obtain ⟨rows, each, run, last⟩ :=
          reads_before wide bytes (row + 1) (d.row_at_whole books raw bytes row values read).1
        have count : row + (values :: rows).length = row + 1 + rows.length := by
          rw [List.length_cons]
          omega
        refine ⟨values :: rows, ?_, ?_, ?_⟩
        · intro i inRows
          cases i with
          | zero => exact read
          | succ i =>
              have later := each i (Nat.lt_of_succ_lt_succ inRows)
              rw [show row + (i + 1) = row + 1 + i by omega]
              exact later
        · rw [count]
          rw [read] at found
          exact .step _ _ _ _ _ found run
        · rw [count]
          exact last
termination_by bytes.length - d.start row

theorem collect_of_reads (s last : Decoder) (rows done : List (List Value))
    (run : d.Reads books raw s (rows.map .ok) last) :
    d.collect books raw s done = d.collect books raw last (rows.reverse ++ done) := by
  induction rows generalizing s done with
  | nil =>
      cases run
      rfl
  | cons values rows ih =>
      cases run with
      | step _ later _ _ _ read rest =>
          rw [collect, read]
          simp only
          rw [ih later (values :: done) rest]
          simp

-- The lines of rows of which the first has a number.
def linesFrom (row : Nat) : List (List Value) → List String
  | [] => []
  | values :: rest => d.renderRow (d.rowColumns row) values :: linesFrom (row + 1) rest

theorem write_of_reads (s last : Decoder) (rows : List (List Value)) (count : Nat) (text : String)
    (run : d.Reads books raw s (rows.map .ok) last) :
    d.writeLines books raw s count text =
      d.writeLines books raw last (count + rows.length) (text ++ Text.ofLines (d.linesFrom count rows)) := by
  induction rows generalizing s count text with
  | nil =>
      cases run
      simp [linesFrom, Text.ofLines]
  | cons values rows ih =>
      cases run with
      | step _ later _ _ _ read rest =>
          rw [writeLines, read]
          simp only
          rw [ih later (count + 1) _ rest]
          simp only [linesFrom, Text.of_lines_cons, List.length_cons, String.append_assoc]
          rw [show count + 1 + rows.length = count + (rows.length + 1) by omega]

theorem lines_from_length (row : Nat) (rows : List (List Value)) : (d.linesFrom row rows).length = rows.length := by
  induction rows generalizing row with
  | nil => rfl
  | cons values rows ih => rw [linesFrom, List.length_cons, List.length_cons, ih]

theorem decode_text_of_reads (bytes : Bytes) (rows : List (List Value)) (last : Decoder)
    (run : d.Reads books raw (d.decoder bytes) (rows.map .ok) last) :
    d.decodeText books raw bytes = d.writeLines books raw last rows.length (Text.ofLines (d.linesFrom 0 rows)) := by
  rw [decodeText, d.write_of_reads books raw _ last rows 0 "" run, Nat.zero_add, String.empty_append]

theorem write_lines_end (last : Decoder) (count : Nat) (text : String) (noMore : d.next books raw last = none) :
    d.writeLines books raw last count text = (text, .ok count) := by
  rw [writeLines, noMore]

theorem reads_fault (s middle last : Decoder) (items : List (Attempt (List Value))) (item : Attempt (List Value))
    (run : d.Reads books raw s items middle) (read : d.next books raw middle = some (item, last)) :
    d.Reads books raw s (items ++ [item]) last := by
  induction run with
  | done s => exact .step _ _ _ _ _ read (.done last)
  | step s later _ first items found _ ih => exact .step _ _ _ _ _ found (ih read)

-- A fault at a place where the bytes do not reach is that of a cut row, and one elsewhere is that of the first column
-- which cannot be decoded.
theorem rows_are_chunks (wide : d.Wide) (bytes : Bytes) :
    ∃ (rows : List (List Value)) (fault : Option Fault) (last : Decoder),
      d.Reads books raw (d.decoder bytes) (rows.map .ok ++ fault.toList.map .error) last ∧
      d.next books raw last = none ∧
      (bytes = [] → rows = [] ∧ fault = none) ∧
      (List.range rows.length).flatMap (d.chunk bytes) = bytes.take (d.start rows.length) ∧
      (∀ i (found : i < rows.length), d.start (i + 1) ≤ bytes.length ∧
        (d.rowColumns i).mapM (fun f => f.decode books (d.chunk bytes i) raw none) = .ok rows[i]) ∧
      match fault with
      | none =>
          d.start rows.length = bytes.length ∧ last.rest = [] ∧ d.decode books raw bytes = .ok rows ∧
            d.decodeText books raw bytes = (Text.ofLines (d.linesFrom 0 rows), .ok rows.length)
      | some fault =>
          d.start rows.length < bytes.length ∧
            (if bytes.length < d.start (rows.length + 1) then
              fault = .malformedTable (.cut d.name (bytes.length - d.start rows.length) (d.width rows.length))
            else (d.rowColumns rows.length).mapM (fun f => f.decode books (d.chunk bytes rows.length) raw none) =
              .error fault) ∧
            d.decode books raw bytes = .error fault ∧
            d.decodeText books raw bytes = (Text.ofLines (d.linesFrom 0 rows), .error fault) := by
  obtain ⟨rows, each, run, ended⟩ := d.reads_before books raw wide bytes 0 (Nat.zero_le _)
  simp only [Nat.zero_add] at each run ended
  rw [← d.decoder_before bytes] at run
  have collected := d.collect_of_reads books raw _ _ rows [] run
  have written := d.decode_text_of_reads books raw bytes rows _ run
  have joined := d.chunks_joined bytes rows.length
  have whole := fun i (found : i < rows.length) => d.row_at_whole books raw bytes i rows[i] (each i found)
  have empty : bytes = [] → rows = [] := by
    rintro rfl
    cases rows with
    | nil => rfl
    | cons first rest =>
        have within := (whole 0 (Nat.succ_pos _)).1
        have positive := d.width_pos wide 0
        simp only [start, Nat.zero_add, List.length_nil] at within
        omega
  rcases ended with consumed | ⟨more, fault, failed⟩
  · have noMore := d.next_at_end books raw bytes rows.length (Nat.le_of_eq consumed.symm)
    refine ⟨rows, none, d.before bytes rows.length, by simpa using run, noMore, fun none => ⟨empty none, rfl⟩, joined,
      whole, consumed, ?_, ?_, ?_⟩
    · exact List.drop_of_length_le (Nat.le_of_eq consumed.symm)
    · rw [decode, decodeRows, collected, collect, noMore]
      simp
    · rw [written, d.write_lines_end books raw _ _ _ noMore]
  · have next := d.next_row books raw wide bytes rows.length more
    rw [failed] at next
    refine ⟨rows, some fault, d.after bytes rows.length, d.reads_fault books raw _ _ _ _ _ run next,
      d.next_after_fault books raw bytes _, ?_, joined, whole, more, ?_, ?_, ?_⟩
    · rintro rfl
      cases more
    · rw [rowAt] at failed
      by_cases cut : bytes.length < d.start (rows.length + 1)
      · rw [if_pos cut] at failed ⊢
        cases failed
        rfl
      · rw [if_neg cut] at failed ⊢
        exact failed
    · rw [decode, decodeRows, collected, collect, next]
    · rw [written, writeLines, next]

-- A header of one byte and rows of two.
def pairs : TableDefinition :=
  { name := "PAIRS"
    delimiter := ","
    desc := none
    size := none
    header := [byteColumn "MAGIC" 0]
    columns := [byteColumn "LEFT" 0, byteColumn "RIGHT" 1]
    headerBytes := 1
    rowBytes := 2 }

theorem pairs_wide : pairs.Wide := ⟨by decide, by decide⟩

theorem pairs_cut : pairs.Wide ∧
    pairs.decode .none false [7, 1, 2, 3] = .error (.malformedTable (.cut "PAIRS" 1 2)) ∧
    pairs.decodeText .none false [7, 1, 2, 3] = ("7\n1,2\n", .error (.malformedTable (.cut "PAIRS" 1 2))) := by
  refine ⟨pairs_wide, ?_⟩
  obtain ⟨rows, fault, last, _, _, _, _, each, outcome⟩ := rows_are_chunks .none pairs false pairs_wide [7, 1, 2, 3]
  match rows, fault with
  | [], none => cases outcome.1
  | [], some fault => cases outcome.2.1
  | [header], none => cases outcome.1
  | [header], some fault => cases outcome.2.1
  | [header, row], none => cases outcome.1
  | [header, row], some fault =>
      have first : Except.ok [.int 7] = Except.ok header := (each 0 (by simp)).2
      have second : Except.ok [.int 1, .int 2] = Except.ok row := (each 1 (by simp)).2
      obtain ⟨_, cut, failed, written⟩ := outcome
      cases first
      cases second
      cases cut
      have lines : Text.ofLines (pairs.linesFrom 0 [[.int 7], [.int 1, .int 2]]) = "7\n1,2\n" := by decide +kernel
      rw [lines] at written
      exact ⟨failed, written⟩
  | header :: row :: third :: rest, _ =>
      have within : 5 ≤ 4 := (each 2 (by simp)).1
      omega

end SpaceLink.TableDefinition
