import SpaceLink.Proofs.Field.Run
import SpaceLink.Proofs.Table.Cell
import SpaceLink.Proofs.Table.Decoding

/-!
Tables that survive as text. Where the columns take up the bits of a row without a gap and without an overlap, the
lines that are decoded from whole rows are encoded as the bytes of these rows.
-/

set_option autoImplicit false

namespace SpaceLink.TableDefinition

-- The bits of a row, each of them in exactly one column.
structure Packed (columns : List Field) (nbytes : Nat) : Prop where
  apart : columns.Pairwise Field.Apart
  inside : ∀ f ∈ columns, (f.span 0).stop ≤ nbytes
  covered : ∀ byte < nbytes, ∀ place < 8, ∃ f ∈ columns, f.owns 0 byte place = true

-- Each column begins where the one before it ends.
def Consecutive : Nat → List Field → Nat → Prop
  | place, [], stop => place = stop
  | place, f :: rest, stop => f.span 0 = ⟨place, place + f.type.nbytes⟩ ∧ Consecutive (place + f.type.nbytes) rest stop

theorem consecutive_places (columns : List Field) (place stop : Nat) (unmasked : ∀ f ∈ columns, f.mask = none)
    (consecutive : Consecutive place columns stop) :
    place ≤ stop ∧ columns.Pairwise Field.Apart ∧
      (∀ f ∈ columns, place ≤ (f.span 0).start ∧ (f.span 0).stop ≤ stop) ∧
      ∀ byte < stop, place ≤ byte → ∀ bit < 8, ∃ f ∈ columns, f.owns 0 byte bit = true := by
  induction columns generalizing place with
  | nil =>
      refine ⟨Nat.le_of_eq consecutive, .nil, by simp, ?_⟩
      intro byte inside past
      rw [Consecutive] at consecutive
      omega
  | cons f rest ih =>
      obtain ⟨span, others⟩ := consecutive
      obtain ⟨ordered, apart, within, covered⟩ := ih _ (fun g later => unmasked g (List.mem_cons_of_mem _ later)) others
      have start : (f.span 0).start = place := by rw [span]
      have width : f.extent = f.type.nbytes := by
        apply f.extent_exact
        rw [Field.nbytes, Span.length, span]
        exact Nat.add_sub_cancel_left place _
      refine ⟨by omega, List.pairwise_cons.mpr ⟨?_, apart⟩, ?_, ?_⟩
      · intro g later byte bit owned
        have own := f.owns_bounds 0 byte bit owned
        have behind := (within g later).1
        cases clash : g.owns 0 byte bit with
        | false => rfl
        | true =>
            have other := g.owns_bounds 0 byte bit clash
            omega
      · rw [List.forall_mem_cons, span]
        exact ⟨⟨Nat.le_refl _, ordered⟩, fun g later => ⟨Nat.le_trans (Nat.le_add_right _ _) (within g later).1,
          (within g later).2⟩⟩
      · intro byte inside past bit low
        by_cases own : byte < place + f.type.nbytes
        · refine ⟨f, List.mem_cons_self, ?_⟩
          have covers := f.covers_unmasked (unmasked f List.mem_cons_self) (byte - place) bit (by omega) low
          simp [Field.owns, start, past, covers]
        · obtain ⟨g, later, owned⟩ := covered byte inside (Nat.le_of_not_lt own) bit low
          exact ⟨g, List.mem_cons_of_mem _ later, owned⟩

theorem packed_of_consecutive (columns : List Field) (nbytes : Nat) (unmasked : ∀ f ∈ columns, f.mask = none)
    (consecutive : Consecutive 0 columns nbytes) : Packed columns nbytes := by
  obtain ⟨_, apart, within, covered⟩ := consecutive_places columns 0 nbytes unmasked consecutive
  exact ⟨apart, fun f member => (within f member).2, fun byte inside => covered byte inside (Nat.zero_le _)⟩

theorem values_of_each {α : Type} (columns : List Field) (holds : Field → α → Prop)
    (each : ∀ f ∈ columns, ∃ v, holds f v) :
    ∃ values : List α, values.length = columns.length ∧ ∀ pair ∈ columns.zip values, holds pair.1 pair.2 := by
  induction columns with
  | nil => exact ⟨[], rfl, by simp⟩
  | cons f rest ih =>
      obtain ⟨v, own⟩ := each f List.mem_cons_self
      obtain ⟨values, counted, others⟩ := ih fun g later => each g (List.mem_cons_of_mem _ later)
      refine ⟨v :: values, by simp [counted], ?_⟩
      rw [List.zip_cons_cons, List.forall_mem_cons]
      exact ⟨own, others⟩

theorem write_values_all (books : Books) (columns : List Field) (values : List Value) (row : Bytes) :
    writeValues books columns values row = Field.writeAll books 0 (columns.zip values) row := by
  induction columns generalizing values row with
  | nil => rfl
  | cons f rest ih =>
      cases values with
      | nil => rfl
      | cons v values =>
          simp only [writeValues, List.zip_cons_cons, Field.writeAll]
          congr 1
          funext next
          exact ih values next

-- The line of a row comes back from a file, if it is not empty, and is encoded as `back`.
structure Returns (books : Books) (d : TableDefinition) (columns : List Field) (nbytes : Nat) (line : List Char)
    (back : Bytes) : Prop where
  trimmed : Text.trimmed line = line
  oneLine : '\n' ∉ line
  encoded : ∀ number, (d.readLine columns number line >>= encodeRow books columns nbytes) = .ok back

section Rows

variable (books : Books) (d : TableDefinition) (mark : Char) (unblank : Text.isBlank mark = false)
variable (delimiter : d.delimiter = String.singleton mark) (columns : List Field)

def cells (values : List Value) : List (List Char) :=
  (columns.zip values).map fun pair => (Cell.render pair.1 d.delimiter pair.2).toList

include delimiter in
theorem row_text (values : List Value) :
    (d.renderRow columns values).toList = List.intercalate [mark] (d.cells columns values) := by
  simp [renderRow, cells, delimiter, String.toList_intercalate, Function.comp_def]

theorem length_cells (values : List Value) (counted : values.length = columns.length) :
    (d.cells columns values).length = columns.length := by
  simp [cells, counted]

include delimiter in
-- A line of more than one cell holds the mark.
theorem line_empty_iff (values : List Value) (counted : values.length = columns.length) (some : columns ≠ []) :
    d.renderRow columns values = "" ↔
      ∃ f v, columns = [f] ∧ values = [v] ∧ Cell.render f d.delimiter v = "" := by
  rw [← String.toList_eq_nil_iff, d.row_text mark delimiter]
  match columns, values with
  | [], _ => exact absurd rfl some
  | [f], [v] => simp [cells]
  | f :: g :: rest, v :: w :: values =>
      constructor
      · intro empty
        rw [cells, List.zip_cons_cons, List.zip_cons_cons, List.map_cons, List.map_cons, Text.joined_cons,
          List.append_eq_nil_iff] at empty
        cases empty.2
      · rintro ⟨_, _, one, _, _⟩
        cases one
  | [_], [] => cases counted
  | [_], _ :: _ :: _ => cases counted
  | _ :: _ :: _, [] => cases counted
  | _ :: _ :: _, [_] => cases counted

theorem read_cells (pairs : List (Value × Value)) (counted : pairs.length = columns.length)
    (each : ∀ column ∈ columns.zip pairs,
      Cell.read column.1 (Cell.render column.1 d.delimiter column.2.1).toList = .ok column.2.2) :
    (columns.zip (d.cells columns (pairs.map Prod.fst))).mapM (fun pair => Cell.read pair.1 pair.2) =
      .ok (pairs.map Prod.snd) := by
  induction columns generalizing pairs with
  | nil =>
      rw [List.eq_nil_of_length_eq_zero counted]
      rfl
  | cons f rest ih =>
      cases pairs with
      | nil => cases counted
      | cons pair pairs =>
          have first := each (f, pair) List.mem_cons_self
          have others := ih pairs (Nat.succ.inj counted) fun column later => each column (List.mem_cons_of_mem _ later)
          rw [cells] at others
          simp only [cells, List.map_cons, List.zip_cons_cons, List.mapM_cons]
          rw [Attempt.bind_of_ok _ _ pair.2 first, Attempt.bind_of_ok _ _ (pairs.map Prod.snd) others]
          rfl

include delimiter in
theorem read_line (pairs : List (Value × Value)) (counted : pairs.length = columns.length) (some : columns ≠ [])
    (each : ∀ column ∈ columns.zip pairs, mark ∉ (Cell.render column.1 d.delimiter column.2.1).toList ∧
      Cell.read column.1 (Cell.render column.1 d.delimiter column.2.1).toList = .ok column.2.2) (number : Nat) :
    d.readLine columns number (d.renderRow columns (pairs.map Prod.fst)).toList = .ok (pairs.map Prod.snd) := by
  have length := d.length_cells columns (pairs.map Prod.fst) (by simpa using counted)
  have cut : Text.pieces d.delimiter.toList (d.renderRow columns (pairs.map Prod.fst)).toList =
      d.cells columns (pairs.map Prod.fst) := by
    rw [d.row_text mark delimiter, delimiter, String.toList_singleton]
    apply Text.pieces_joined
    · intro none
      rw [none] at length
      exact some (List.eq_nil_of_length_eq_zero length.symm)
    · intro cell member
      rw [cells, List.zip_map_right, List.map_map] at member
      obtain ⟨column, own, rfl⟩ := List.mem_map.mp member
      exact (each column own).1
  simp only [readLine, cut, length, if_true]
  exact d.read_cells columns pairs counted fun column member => (each column member).2

variable (nbytes : Nat)

-- Values that leave the bytes of a row as they are make up these bytes from zeros, as the columns have all the bits.
theorem encode_row_back (sound : ∀ f ∈ columns, f.Sound) (builtIn : ∀ f ∈ columns, f.type.isBuiltIn = true)
    (packed : Packed columns nbytes) (back : Bytes) (whole : back.length = nbytes) (values : List Value)
    (counted : values.length = columns.length)
    (written : ∀ pair ∈ columns.zip values, pair.1.write books back 0 pair.2 = .ok back) :
    encodeRow books columns nbytes values = .ok back := by
  have fields : (columns.zip values).map Prod.fst = columns := List.map_fst_zip (Nat.le_of_eq counted.symm)
  rw [encodeRow, if_pos counted, write_values_all]
  apply Field.write_all_restores books 0 _ back _ (by rw [List.length_replicate, whole])
  · intro pair member
    have known := (List.of_mem_zip member).1
    exact ⟨sound _ known, builtIn _ known, pair.1.near_start (sound _ known), whole ▸ packed.inside _ known⟩
  · have pairwise := packed.apart
    rw [← fields, List.pairwise_map] at pairwise
    exact pairwise
  · exact written
  · intro byte inside place low
    obtain ⟨f, member, owned⟩ := packed.covered byte (whole ▸ inside) place low
    rw [← fields] at member
    obtain ⟨pair, own, rfl⟩ := List.mem_map.mp member
    exact ⟨pair, own, owned⟩

include unblank delimiter in
theorem row_returns (some : columns ≠ []) (sound : ∀ f ∈ columns, f.Sound)
    (builtIn : ∀ f ∈ columns, f.type.isBuiltIn = true) (packed : Packed columns nbytes) (row back : Bytes)
    (whole : back.length = nbytes) (raw : Bool) (carried : ∀ f ∈ columns, f.Carries books mark raw d.delimiter row back) :
    ∃ values, values.length = columns.length ∧
      (∀ pair ∈ columns.zip values, pair.1.decode books row raw none = .ok pair.2) ∧
      Returns books d columns nbytes (d.renderRow columns values).toList back := by
  obtain ⟨pairs, counted, each⟩ := values_of_each columns
    (fun f (pair : Value × Value) => f.decode books row raw none = .ok pair.1 ∧
      Cell.Held mark (Cell.render f d.delimiter pair.1).toList ∧
      Cell.read f (Cell.render f d.delimiter pair.1).toList = .ok pair.2 ∧ f.write books back 0 pair.2 = .ok back)
    fun f member => by
      obtain ⟨v, w, own⟩ := carried f member
      exact ⟨(v, w), own⟩
  have cell : ∀ cell ∈ d.cells columns (pairs.map Prod.fst), Cell.Held mark cell := by
    intro cell member
    rw [cells, List.zip_map_right, List.map_map] at member
    obtain ⟨column, own, rfl⟩ := List.mem_map.mp member
    exact (each column own).2.1
  refine ⟨pairs.map Prod.fst, by rw [List.length_map, counted], ?_, ?_, ?_, ?_⟩
  · intro pair member
    rw [List.zip_map_right] at member
    obtain ⟨column, own, rfl⟩ := List.mem_map.mp member
    exact (each column own).1
  · rw [d.row_text mark delimiter]
    exact Text.trimmed_joined_unblank mark unblank _ fun part member => (cell part member).trimmed
  · rw [d.row_text mark delimiter]
    have unbroken : mark ≠ '\n' := by
      rintro rfl
      cases unblank
    exact Cell.one_line_joined mark unbroken _ fun part member => (cell part member).oneLine
  · intro number
    have read := d.read_line mark delimiter columns pairs counted some
      (fun column member => ⟨(each column member).2.1.unmarked, (each column member).2.2.1⟩) number
    rw [Attempt.bind_of_ok _ _ _ read]
    apply encode_row_back books columns nbytes sound builtIn packed back whole _ (by rw [List.length_map, counted])
    intro pair member
    rw [List.zip_map_right] at member
    obtain ⟨column, own, rfl⟩ := List.mem_map.mp member
    exact (each column own).2.2.2

end Rows

theorem has_row (d : TableDefinition) (row : Nat) : d.HasRow (d.rowColumns row) (d.width row) := by
  rw [rowColumns, width]
  by_cases first : row = 0 ∧ d.header ≠ []
  · rw [if_pos first, if_pos first]
    exact .inl ⟨rfl, rfl⟩
  · rw [if_neg first, if_neg first]
    exact .inr ⟨rfl, rfl⟩

theorem start_le (d : TableDefinition) (row later : Nat) (before : row ≤ later) : d.start row ≤ d.start later := by
  induction before with
  | refl => exact Nat.le_refl _
  | step _ ih => exact Nat.le_trans ih (Nat.le_add_right _ _)

theorem start_lt (d : TableDefinition) (wide : d.Wide) (row later : Nat) (before : row < later) :
    d.start row < d.start later :=
  Nat.lt_of_lt_of_le (Nat.lt_add_of_pos_right (d.width_pos wide row)) (d.start_le (row + 1) later before)

section Lines

variable (books : Books) (d : TableDefinition)

-- Every row of `rows`, of which the first has a number, returns to its image, and `kept` tells which of their lines are
-- not empty.
def AllReturn (image : Nat → Bytes) (kept : Nat → Bool) (first : Nat) (rows : List (List Value)) : Prop :=
  ∀ i (found : i < rows.length),
    Returns books d (d.rowColumns (first + i)) (d.width (first + i))
      (d.renderRow (d.rowColumns (first + i)) rows[i]).toList (image (first + i)) ∧
    (kept (first + i) = true ↔ d.renderRow (d.rowColumns (first + i)) rows[i] ≠ "")

variable (image : Nat → Bytes) (kept : Nat → Bool)

theorem all_return_cons (first : Nat) (values : List Value) (rows : List (List Value)) :
    d.AllReturn books image kept first (values :: rows) ↔
      (Returns books d (d.rowColumns first) (d.width first) (d.renderRow (d.rowColumns first) values).toList
          (image first) ∧
        (kept first = true ↔ d.renderRow (d.rowColumns first) values ≠ "")) ∧
        d.AllReturn books image kept (first + 1) rows := by
  constructor
  · intro all
    refine ⟨all 0 (by simp), ?_⟩
    intro i found
    have own := all (i + 1) (by simpa using found)
    rwa [show first + (i + 1) = first + 1 + i by omega] at own
  · rintro ⟨own, rest⟩ i found
    cases i with
    | zero => exact own
    | succ i =>
        rw [show first + (i + 1) = first + 1 + i by omega]
        exact rest i (by simpa using found)

theorem lines_return (first : Nat) (rows : List (List Value)) (all : d.AllReturn books image kept first rows) :
    ∀ line ∈ d.linesFrom first rows, '\n' ∉ line.toList ∧ Text.trimmed line.toList = line.toList := by
  induction rows generalizing first with
  | nil => simp [linesFrom]
  | cons values rows ih =>
      obtain ⟨⟨own, _⟩, rest⟩ := (d.all_return_cons books image kept first values rows).mp all
      rw [linesFrom, List.forall_mem_cons]
      exact ⟨⟨own.oneLine, own.trimmed⟩, ih (first + 1) rest⟩

-- The lines that the encoder sees.
def seen (lines : List String) : List (List Char) := (lines.map String.toList).filter fun line => !line.isEmpty

theorem seen_of_trimmed (lines : List String) (each : ∀ line ∈ lines, Text.trimmed line.toList = line.toList) :
    (lines.map fun line => Text.trimmed line.toList).filter (fun line => !line.isEmpty) = seen lines := by
  rw [seen, List.map_congr_left each]

theorem seen_cons (line : String) (lines : List String) :
    seen (line :: lines) = if line = "" then seen lines else line.toList :: seen lines := by
  by_cases empty : line = ""
  · rw [if_pos empty, empty]
    rfl
  · have filled : line.toList.isEmpty = false := by simpa using empty
    rw [if_neg empty, seen, List.map_cons, List.filter_cons_of_pos (by rw [filled]; rfl)]
    rfl

-- Behind the header all rows are data rows. An empty line is none of them.
theorem encode_data_lines (first number : Nat) (rows : List (List Value)) (done : List Bytes)
    (all : d.AllReturn books image kept first rows) (data : d.header = [] ∨ 0 < first) :
    encodeLines books d number (seen (d.linesFrom first rows)) done =
      .ok ((((List.range' first rows.length).filter kept).map image).reverse ++ done) := by
  induction rows generalizing first number done with
  | nil => rfl
  | cons values rows ih =>
      have own : ¬ (first = 0 ∧ d.header ≠ []) := by
        rintro ⟨zero, present⟩
        rcases data with absent | behind
        · exact present absent
        · omega
      obtain ⟨⟨here, shown⟩, rest⟩ := (d.all_return_cons books image kept first values rows).mp all
      have later := fun number done => ih (first + 1) number done rest (.inr (by omega))
      have columns : d.rowColumns first = d.columns := by rw [rowColumns, if_neg own]
      have nbytes : d.width first = d.rowBytes := by rw [width, if_neg own]
      rw [linesFrom, seen_cons, List.length_cons, List.range'_succ]
      by_cases empty : d.renderRow (d.rowColumns first) values = ""
      · have lost : ¬ kept first = true := fun keeps => shown.mp keeps empty
        rw [if_pos empty, List.filter_cons_of_neg lost]
        exact later number done
      · have keeps : kept first = true := shown.mpr empty
        have encoded := here.encoded number
        rw [columns, nbytes] at encoded
        obtain ⟨read, isRead, written⟩ := (Attempt.bind_ok_iff _ _ _).mp encoded
        rw [if_neg empty, List.filter_cons_of_pos keeps, columns]
        simp only [encodeLines]
        rw [Attempt.bind_of_ok _ _ _ isRead, Attempt.bind_of_ok _ _ _ written, later (number + 1)]
        simp

theorem encode_lines_back (unlimited : d.size = none) (rows : List (List Value))
    (all : d.AllReturn books image kept 0 rows) (headed : d.header ≠ [] → rows ≠ [] ∧ kept 0 = true) :
    d.encode books (d.linesFrom 0 rows) none = .ok (((List.range rows.length).filter kept).flatMap image) := by
  have trimmed := fun line member => (d.lines_return books image kept 0 rows all line member).2
  have chunks : ∃ start rest, encodeHeader books d none (seen (d.linesFrom 0 rows)) = .ok (start, rest) ∧
      encodeLines books d 1 rest start = .ok (((List.range' 0 rows.length).filter kept).map image).reverse := by
    by_cases absent : d.header = []
    · refine ⟨[], seen (d.linesFrom 0 rows), by simp [encodeHeader, absent], ?_⟩
      simpa using d.encode_data_lines books image kept 0 1 rows [] all (.inl absent)
    · obtain ⟨some, keeps⟩ := headed absent
      cases rows with
      | nil => exact absurd rfl some
      | cons values rows =>
          obtain ⟨⟨here, shown⟩, rest⟩ := (d.all_return_cons books image kept 0 values rows).mp all
          have columns : d.rowColumns 0 = d.header := by simp [rowColumns, absent]
          have nbytes : d.width 0 = d.headerBytes := by simp [width, absent]
          have encoded := here.encoded 0
          rw [columns, nbytes] at encoded
          obtain ⟨read, isRead, written⟩ := (Attempt.bind_ok_iff _ _ _).mp encoded
          refine ⟨[image 0], seen (d.linesFrom 1 rows), ?_, ?_⟩
          · rw [linesFrom, seen_cons, if_neg (shown.mp keeps), columns]
            simp only [encodeHeader, List.isEmpty_iff, absent, if_false]
            rw [Attempt.bind_of_ok _ _ _ isRead, Attempt.bind_of_ok _ _ _ written]
          · rw [d.encode_data_lines books image kept 1 1 rows _ rest (.inr (by decide)), List.length_cons,
              List.range'_succ, List.filter_cons_of_pos keeps]
            simp
  obtain ⟨start, rest, header, data⟩ := chunks
  simp only [encode, seen_of_trimmed _ trimmed, unlimited]
  rw [Attempt.bind_of_ok _ _ _ header, Attempt.bind_of_ok _ _ _ data, List.reverse_reverse, List.range_eq_range',
    List.flatMap_def]

-- A row of the bytes that is decoded and returns to its image.
def RowReturns (raw : Bool) (bytes : Bytes) (row : Nat) : Prop :=
  ∃ values, d.rowAt books raw bytes row = .ok values ∧
    Returns books d (d.rowColumns row) (d.width row) (d.renderRow (d.rowColumns row) values).toList (image row) ∧
    (kept row = true ↔ d.renderRow (d.rowColumns row) values ≠ "")

-- Where every row can be decoded, all of them are, and nothing is left behind them.
theorem decode_text_of_each (wide : d.Wide) (raw : Bool) (bytes : Bytes) (count : Nat)
    (whole : bytes.length = d.start count) (each : ∀ row < count, ∃ values, d.rowAt books raw bytes row = .ok values) :
    ∃ rows : List (List Value), rows.length = count ∧
      (∀ i (found : i < rows.length), d.rowAt books raw bytes i = .ok rows[i]) ∧
      d.decodeText books raw bytes = (Text.ofLines (d.linesFrom 0 rows), .ok count) := by
  obtain ⟨rows, read, run, ended⟩ := d.reads_before books raw wide bytes 0 (Nat.zero_le _)
  simp only [Nat.zero_add] at read run ended
  have before : ∀ row, d.start row < bytes.length → row < count := by
    intro row less
    apply Nat.lt_of_not_le
    intro past
    have behind := d.start_le count row past
    omega
  have consumed : d.start rows.length = bytes.length := by
    rcases ended with consumed | ⟨more, fault, failed⟩
    · exact consumed
    · obtain ⟨values, found⟩ := each _ (before _ more)
      rw [failed] at found
      cases found
  have counted : rows.length = count := by
    rcases Nat.lt_trichotomy rows.length count with less | same | more
    · have behind := d.start_lt wide _ _ less
      omega
    · exact same
    · have behind := d.start_lt wide _ _ more
      omega
  have noMore := d.next_at_end books raw bytes rows.length (Nat.le_of_eq consumed.symm)
  rw [← d.decoder_before bytes] at run
  refine ⟨rows, counted, read, ?_⟩
  rw [d.decode_text_of_reads books raw bytes rows _ run, d.write_lines_end books raw _ _ _ noMore, counted]

-- The lines are given to the encoder one by one or as the text of a file.
theorem rows_encode_back (wide : d.Wide) (unlimited : d.size = none) (raw : Bool) (bytes : Bytes) (count : Nat)
    (whole : bytes.length = d.start count) (each : ∀ row < count, d.RowReturns books image kept raw bytes row)
    (headed : d.header ≠ [] → 0 < count ∧ kept 0 = true) :
    ∃ lines : List String, lines.length = count ∧ d.decodeText books raw bytes = (Text.ofLines lines, .ok count) ∧
      d.encode books lines none = .ok (((List.range count).filter kept).flatMap image) ∧
      d.encodeText books (Text.ofLines lines) none = .ok (((List.range count).filter kept).flatMap image) := by
  obtain ⟨rows, counted, read, decoded⟩ := d.decode_text_of_each books wide raw bytes count whole fun row before => by
    obtain ⟨values, found, _⟩ := each row before
    exact ⟨values, found⟩
  have all : d.AllReturn books image kept 0 rows := by
    intro i found
    obtain ⟨values, own, returns⟩ := each i (counted ▸ found)
    rw [read i found] at own
    cases own
    rw [Nat.zero_add]
    exact returns
  have encoded := d.encode_lines_back books image kept unlimited rows all fun present => by
    obtain ⟨some, keeps⟩ := headed present
    exact ⟨List.ne_nil_of_length_pos (by omega), keeps⟩
  rw [counted] at encoded
  refine ⟨d.linesFrom 0 rows, by rw [lines_from_length, counted], decoded, encoded, ?_⟩
  -- The text is cut into the same lines, as none of them is broken or trimmed.
  rw [encodeText, Text.lines_of_lines _ (d.lines_return books image kept 0 rows all)]
  exact encoded

end Lines

theorem accepted_filled (d : TableDefinition) (accepted : d.Accepted) : d.columns ≠ [] := by
  obtain ⟨books, header, data, made, done, _, _, same, _⟩ := accepted
  simp only [ofColumns] at done
  cases data with
  | nil => cases done
  | cons f rest =>
      rw [if_neg (by simp)] at done
      obtain ⟨⟨⟩, _, more⟩ := (Attempt.bind_ok_iff _ _ _).mp done
      obtain ⟨⟨⟩, _, built⟩ := (Attempt.bind_ok_iff _ _ _).mp more
      cases built
      rw [same]
      simp [layOutFrom, layOut]

theorem row_filled (columns : List Field) (nbytes : Nat) (some : columns ≠ []) (sound : ∀ f ∈ columns, f.Sound)
    (inside : ∀ f ∈ columns, (f.span 0).stop ≤ nbytes) (wide : ∀ f ∈ columns, 0 < f.type.nbytes) : 0 < nbytes := by
  obtain ⟨f, member⟩ := List.exists_mem_of_ne_nil columns some
  have near := f.type_inside (sound f member)
  have reach := inside f member
  have own := wide f member
  omega

theorem wide_of_columns (d : TableDefinition) (accepted : d.Accepted)
    (inside : ∀ columns nbytes, d.HasRow columns nbytes → ∀ f ∈ columns, (f.span 0).stop ≤ nbytes ∧ 0 < f.type.nbytes) :
    d.Wide := by
  have filled : ∀ columns nbytes, d.HasRow columns nbytes → columns ≠ [] → 0 < nbytes := fun columns nbytes row some =>
    row_filled columns nbytes some (d.accepted_row accepted columns nbytes row).1
      (fun f member => (inside columns nbytes row f member).1) fun f member => (inside columns nbytes row f member).2
  exact ⟨filled _ _ (.inr ⟨rfl, rfl⟩) (d.accepted_filled accepted), filled _ _ (.inl ⟨rfl, rfl⟩)⟩

section Tables

variable (d : TableDefinition) (accepted : d.Accepted) (mark : Char)
variable (rows : ∀ columns nbytes, d.HasRow columns nbytes → Packed columns nbytes ∧ ∀ f ∈ columns, f.Textual mark)

include accepted rows in
theorem accepted_wide : d.Wide :=
  d.wide_of_columns accepted fun columns nbytes row f member =>
    ⟨(rows columns nbytes row).1.inside f member, ((rows columns nbytes row).2 f member).nbytes_pos⟩

include accepted in
theorem headless (absent : d.header = []) : d.headerBytes = 0 := by
  have width := (d.accepted_row accepted d.header d.headerBytes (.inl ⟨rfl, rfl⟩)).2
  rw [width, absent]
  rfl

variable (apart : Cell.Mark mark) (delimiter : d.delimiter = String.singleton mark)

include accepted in
theorem row_columns_filled (row : Nat) : d.rowColumns row ≠ [] := by
  rw [rowColumns]
  by_cases first : row = 0 ∧ d.header ≠ []
  · rw [if_pos first]
    exact first.2
  · rw [if_neg first]
    exact d.accepted_filled accepted

theorem length_chunk (bytes : Bytes) (row : Nat) (inside : d.start (row + 1) ≤ bytes.length) :
    (d.chunk bytes row).length = d.width row := by
  rw [start] at inside
  rw [chunk, List.length_take, List.length_drop]
  omega

include accepted apart delimiter in
-- The columns of a row, each with its bytes in an image of the row. An empty line is that of one empty cell.
theorem row_of_carried (books : Books) (image : Nat → Bytes) (kept : Nat → Bool) (raw : Bool) (bytes : Bytes) (row : Nat)
    (inside : d.start (row + 1) ≤ bytes.length) (builtIn : ∀ f ∈ d.rowColumns row, f.type.isBuiltIn = true)
    (packed : Packed (d.rowColumns row) (d.width row)) (whole : (image row).length = d.width row)
    (carried : ∀ f ∈ d.rowColumns row, f.Carries books mark raw d.delimiter (d.chunk bytes row) (image row))
    (shown : kept row = true ↔ ∀ f v, d.rowColumns row = [f] → f.decode books (d.chunk bytes row) raw none = .ok v →
      Cell.render f d.delimiter v ≠ "") :
    d.RowReturns books image kept raw bytes row := by
  have some := d.row_columns_filled accepted row
  obtain ⟨values, counted, decoded, returns⟩ := row_returns books d mark apart.unblank delimiter _ _ some
    (d.accepted_row accepted _ _ (d.has_row row)).1 builtIn packed _ _ whole raw carried
  refine ⟨values, ?_, returns, ?_⟩
  · rw [rowAt, if_neg (Nat.not_lt.mpr inside)]
    exact Attempt.map_of_each _ _ values counted decoded
  · rw [shown, ne_eq, d.line_empty_iff mark delimiter _ values counted some]
    constructor
    · rintro filled ⟨f, v, one, same, blank⟩
      rw [one, same] at decoded
      exact filled f v one (decoded (f, v) List.mem_cons_self) blank
    · intro filled f v one own blank
      rw [one] at counted decoded
      obtain ⟨w, rfl⟩ := List.length_eq_one_iff.mp counted
      have same := decoded (f, w) List.mem_cons_self
      rw [own] at same
      cases same
      exact filled ⟨f, w, one, rfl, blank⟩

include accepted rows apart delimiter in
theorem row_at_returns (books : Books) (raw : Bool) (bytes : Bytes) (row : Nat)
    (inside : d.start (row + 1) ≤ bytes.length) :
    d.RowReturns books (d.chunk bytes) (fun _ => true) raw bytes row := by
  obtain ⟨packed, textual⟩ := rows _ _ (d.has_row row)
  have sound := (d.accepted_row accepted _ _ (d.has_row row)).1
  have whole := d.length_chunk bytes row inside
  have carries := fun f (member : f ∈ d.rowColumns row) => f.textual_carries books (sound f member) (d.chunk bytes row)
    (whole ▸ packed.inside f member) mark apart (textual f member) raw d.delimiter
  refine d.row_of_carried accepted mark apart delimiter books _ _ raw bytes row inside
    (fun f member => (textual f member).built_in) packed whole (fun f member => (carries f member).1) ?_
  simp only [true_iff]
  intro f v one decoded
  exact (carries f (one ▸ List.mem_cons_self)).2 v decoded

end Tables

theorem text_encodes_back (d : TableDefinition) (accepted : d.Accepted) (unlimited : d.size = none) (mark : Char)
    (apart : Cell.Mark mark) (delimiter : d.delimiter = String.singleton mark)
    (rows : ∀ columns nbytes, d.HasRow columns nbytes → Packed columns nbytes ∧ ∀ f ∈ columns, f.Textual mark)
    (books : Books) (raw : Bool) (bytes : Bytes) (count : Nat)
    (whole : bytes.length = d.headerBytes + count * d.rowBytes) :
    ∃ lines : List String, d.decodeText books raw bytes = (Text.ofLines lines, .ok lines.length) ∧
      d.encode books lines none = .ok bytes ∧ d.encodeText books (Text.ofLines lines) none = .ok bytes := by
  have wide := d.accepted_wide accepted mark rows
  obtain ⟨all, ended, headed⟩ : ∃ all, bytes.length = d.start all ∧ (d.header ≠ [] → 0 < all) := by
    by_cases absent : d.header = []
    · refine ⟨count, ?_, fun present => absurd absent present⟩
      rw [d.start_without_header absent, whole, d.headless accepted absent, Nat.zero_add]
    · exact ⟨count + 1, by rw [d.start_after_header absent, whole], fun _ => Nat.succ_pos _⟩
  obtain ⟨lines, counted, decoded, encoded, written⟩ := d.rows_encode_back books (d.chunk bytes) (fun _ => true) wide
    unlimited raw bytes all ended (fun row before => d.row_at_returns accepted mark rows apart delimiter books raw bytes
      row (ended ▸ d.start_le (row + 1) all before)) fun present => ⟨headed present, rfl⟩
  have joined : ((List.range all).filter fun _ => true).flatMap (d.chunk bytes) = bytes := by
    rw [List.filter_eq_self.mpr fun _ _ => rfl, d.chunks_joined, ← ended, List.take_length]
  rw [joined] at encoded written
  exact ⟨lines, counted ▸ decoded, encoded, written⟩

def nibble (name : String) (position : Position) (mask : UInt64) (enumeration : Option Enumeration) : Field :=
  { byteColumn name 0 with position, mask := some mask, enumeration }

def modes : Enumeration :=
  { entries := [(1, "IDLE"), (2, "Fast Scan")]
    ascending := by simp
    distinct := by simp }

-- A byte of two halves and two words.
def readings : TableDefinition :=
  { name := "READINGS"
    delimiter := ";"
    desc := none
    size := none
    header := [byteColumn "MAGIC" 0]
    columns := [nibble "MODE" (.single 0) 0xf0 (some modes), nibble "UNIT" (.single 0) 0x0f none,
      { byteColumn "LEVELS" 0 with
        type := .array ⟨.primitive (.int ⟨true, .word .lsb .two⟩), 2⟩
        position := .range 1 4 }]
    headerBytes := 1
    rowBytes := 5 }

theorem readings_accepted : readings.Accepted :=
  ⟨.none, readings.header, readings.columns, { readings with delimiter := "," }, rfl, rfl, rfl, rfl, rfl⟩

theorem modes_plain : ∀ entry ∈ modes.entries,
    Cell.Plain ';' entry.2.toList ∧ Value.ofWord entry.2.toList = .str entry.2 := by
  simp only [modes, List.forall_mem_cons, List.not_mem_nil, false_implies, implies_true, and_true]
  exact ⟨⟨⟨⟨by decide, by decide, by decide⟩, by decide⟩, rfl⟩, ⟨⟨by decide, by decide, by decide⟩, by decide⟩, rfl⟩

theorem unnamed_textual (mark : Char) (name : String) (position : Position) (mask : UInt64) :
    (nibble name position mask none).Textual mark :=
  .number ⟨false, .byte⟩ rfl (.inr rfl) fun _ unnamed => nomatch unnamed

theorem byte_textual (mark : Char) (name : String) (byte : Nat) : (byteColumn name byte).Textual mark :=
  .number ⟨false, .byte⟩ rfl (.inl rfl) (fun _ unnamed => nomatch unnamed)

def recorded : Bytes := [7, 0x1a, 1, 0, 0xff, 0xff, 0x35, 0, 0x80, 2, 0]

theorem readings_return :
    ∃ lines, readings.decodeText .none false recorded = (Text.ofLines lines, .ok lines.length) ∧
      readings.encode .none lines none = .ok recorded ∧
      readings.encodeText .none (Text.ofLines lines) none = .ok recorded := by
  refine text_encodes_back readings readings_accepted rfl ';' ⟨by decide, by decide, by decide⟩ rfl ?_ .none false _ 2
    rfl
  rintro columns nbytes (⟨rfl, rfl⟩ | ⟨rfl, rfl⟩)
  · refine ⟨⟨by decide, by decide, by decide⟩, ?_⟩
    simpa [readings] using byte_textual ';' "MAGIC" 0
  · refine ⟨⟨by decide, by decide, by decide⟩, ?_⟩
    simp only [readings, List.forall_mem_cons, List.not_mem_nil, false_implies, implies_true, and_true]
    refine ⟨.number ⟨false, .byte⟩ rfl (.inr rfl) ?_, unnamed_textual ';' "UNIT" _ _,
      .numbers true .lsb .two 2 (by decide) rfl (by decide) rfl⟩
    rintro e ⟨⟩
    exact modes_plain

-- The bits of both halves lie in the one byte of the row. The column that owns the upper half reaches farther.
def halves : TableDefinition :=
  { name := "HALVES"
    delimiter := ","
    desc := none
    size := none
    header := []
    columns := [nibble "HIGH" (.range 0 1) 0xf0 none, nibble "LOW" (.single 0) 0x0f none]
    headerBytes := 0
    rowBytes := 1 }

theorem halves_accepted : halves.Accepted := ⟨.none, [], halves.columns, halves, rfl, rfl, rfl, rfl, rfl⟩

theorem halves_lost :
    halves.Accepted ∧ halves.size = none ∧ halves.delimiter = String.singleton ',' ∧
      (∀ f ∈ halves.columns, f.Textual ',') ∧ halves.columns.Pairwise Field.Apart ∧
      (∀ f ∈ halves.columns, ∀ byte place, f.owns 0 byte place = true → byte < halves.rowBytes) ∧
      (∀ byte < halves.rowBytes, ∀ place < 8, ∃ f ∈ halves.columns, f.owns 0 byte place = true) ∧
      ([0x5a] : Bytes).length = halves.headerBytes + 1 * halves.rowBytes ∧
      halves.decodeText .none false [0x5a] = ("", .error (.notEnoughData 1 2)) ∧
      halves.encodeText .none "" none = .ok [] := by
  have textual : ∀ f ∈ halves.columns, f.Textual ',' := by
    simp only [halves, List.forall_mem_cons, List.not_mem_nil, false_implies, implies_true, and_true]
    exact ⟨unnamed_textual ',' "HIGH" _ _, unnamed_textual ',' "LOW" _ _⟩
  have inside : ∀ f ∈ halves.columns, ∀ byte place, f.owns 0 byte place = true → byte < halves.rowBytes := by
    intro f member byte place owned
    have bounds := f.owns_bounds 0 byte place owned
    have reach : ∀ g ∈ halves.columns, (g.span 0).start + g.extent ≤ halves.rowBytes := by decide
    have own := reach f member
    omega
  have next : next .none halves false (halves.decoder [0x5a]) =
      some (.error (.notEnoughData 1 2), ⟨[0x5a], true, true⟩) := rfl
  refine ⟨halves_accepted, rfl, rfl, textual, by decide, inside, by decide, rfl, ?_, rfl⟩
  rw [decodeText, writeLines, next]

end SpaceLink.TableDefinition
