import SpaceLink.Proofs.DataType.Time
import SpaceLink.Proofs.Field.Shortage
import SpaceLink.Proofs.Field.Splice
import SpaceLink.Proofs.Table.RoundTrip

/-!
Columns of times. A cell shows whole microseconds, so a table that is written as text and read again has its times cut to
them, and all else as it was.
-/

set_option autoImplicit false

namespace SpaceLink

namespace Field

section Times

variable (f : Field) (t : TimeCode) (time : f.type = .scalar (.time t))

include time in
theorem built_in_time : f.type.isBuiltIn = true := by
  rw [time]
  rfl

include time in
theorem unwrapped_time : ¬ f.type.Wraps := time ▸ DataType.scalar_unwrapped _

include time in
theorem extent_time : f.extent = t.nbytes := f.extent_scalar (.time t) time

variable (sound : f.Sound)

include time sound in
theorem time_unmasked : f.mask = none := by
  apply f.unmasked_of_other sound
  intro t integer
  rw [time] at integer
  cases integer

variable (books : Books)

include time sound in
theorem image_time (i : Instant) (new : Bytes) (encoded : t.encode (.time i) = .ok new) :
    f.image books (.time i) = .ok new := by
  have unmasked := f.time_unmasked t time sound
  rw [image_ok_iff]
  refine ⟨?_, none, by simp only [maskBytes, unmasked]⟩
  rw [← encoded]
  cases enumerated : f.enumeration <;> simp only [encode, withCode, enumerated, unmasked, time] <;> rfl

include time in
-- Time is read first, and only what is none is a name or a word.
theorem read_time (i : Instant) (regular : i.nanos < Instant.nanosPerSecond) (low : 0 ≤ i.seconds)
    (high : i.seconds < 86400000000) : Cell.read f (Rfc3339.render i).toList = .ok (.time i.cut) := by
  have read := Rfc3339.read_render i regular low high
  have parts := Rfc3339.text_parts (Civil.ofInstant i)
  rw [← Rfc3339.render_text i (Rfc3339.plain_of_instant i regular low high)] at parts
  have trimmed := Text.trimmed_of_solid _ fun c member => Rfc3339.part_unblank c (parts c member)
  simp only [Cell.read, trimmed, time, DataType.array?, DataType.time?, read]

include time in
theorem render_time (delimiter : String) (i : Instant) : Cell.render f delimiter (.time i) = Rfc3339.render i := by
  simp only [Cell.render, time, DataType.array?, Value.render]

variable (instant : t ≠ .fraction) (row : Bytes) (long : (f.span 0).stop ≤ row.length)

include time sound instant long in
theorem decode_time (v : Value) (decoded : f.decode books row false none = .ok v) :
    ∃ i : Instant, v = .time i ∧ i.nanos < Instant.nanosPerSecond ∧ 0 ≤ i.seconds ∧ i.seconds < 86400000000 ∧
      f.image books (.time i.cut) = .ok (t.cut (f.own row)) := by
  have unmasked := f.time_unmasked t time sound
  have whole := (f.length_own sound row long).trans (f.extent_time t time)
  rw [f.decode_own books sound (f.built_in_time t time) row long (f.unwrapped_time t time),
    decode_slice_eq] at decoded
  obtain ⟨own, typed, finished⟩ := (Attempt.bind_ok_iff _ _ _).mp decoded
  simp only [Field.typed, time] at typed
  obtain ⟨i, rfl, regular, low, high, encoded⟩ := t.decode_cut instant (f.own row) whole own typed
  refine ⟨i, ?_, regular, low, high, f.image_time t time sound books i.cut _ encoded⟩
  cases finished
  cases enumerated : f.enumeration <;> simp [finish, unmask, unmasked, withName, enumerated]

variable (mark : Char) (outside : Rfc3339.isPart mark = false)

include time sound instant long outside in
theorem time_carries (back : Bytes) (same : back.length = row.length) (cut : f.own back = t.cut (f.own row)) (v : Value)
    (decoded : f.decode books row false none = .ok v) (delimiter : String) :
    f.Carries books mark false delimiter row back ∧ Cell.render f delimiter v ≠ "" := by
  obtain ⟨i, rfl, regular, low, high, imaged⟩ := f.decode_time t time sound books instant row long v decoded
  have text := Rfc3339.render_text i (Rfc3339.plain_of_instant i regular low high)
  have parts := Rfc3339.text_parts (Civil.ofInstant i)
  have rendered := f.render_time t time delimiter i
  have within : (f.span 0).stop ≤ back.length := same ▸ long
  have kept := f.length_own sound back within
  rw [cut] at kept
  constructor
  · refine ⟨_, .time i.cut, decoded, ?_, ?_, ?_⟩
    · rw [rendered, text]
      refine ⟨Text.trimmed_of_solid _ fun c member => Rfc3339.part_unblank c (parts c member), ?_, ?_⟩
      · exact fun member => absurd (parts _ member) (by decide)
      · exact fun member => absurd (parts _ member) (by simp [outside])
    · rw [rendered]
      exact f.read_time t time i regular low high
    · rw [f.write_splice books sound (f.built_in_time t time) back within _ kept (f.time_unmasked t time sound) _ imaged,
        ← cut, f.splice_own sound back within]
  · rw [rendered, ne_eq, ← String.toList_eq_nil_iff, text, Rfc3339.text]
    simp

end Times

-- A time of a day, not only of a second.
def IsTime (f : Field) : Prop := ∃ t, t ≠ TimeCode.fraction ∧ f.type = .scalar (.time t)

theorem built_in_of_kind_time (mark : Char) (f : Field) (kind : f.Textual mark ∨ f.IsTime) :
    f.type.isBuiltIn = true := by
  rcases kind with textual | ⟨t, _, time⟩
  · exact textual.built_in
  · exact f.built_in_time t time

theorem nbytes_pos_of_kind_time (mark : Char) (f : Field) (kind : f.Textual mark ∨ f.IsTime) : 0 < f.type.nbytes := by
  rcases kind with textual | ⟨t, _, time⟩
  · exact textual.nbytes_pos
  · rw [time]
    cases t <;> decide

theorem textual_no_time (mark : Char) (f : Field) (textual : f.Textual mark) : f.type.time? = none := by
  cases textual with
  | number t integer _ _ =>
      rw [integer]
      rfl
  | numbers signed order size count _ array _ _ =>
      rw [array]
      rfl

-- The bytes in which the field, if it is a time, is cut to whole microseconds.
def cutTime (f : Field) (row : Bytes) : Bytes :=
  match f.type.time? with
  | some t => f.splice row (t.cut (f.own row))
  | none => row

-- A value that is written back into a row is so into each that has the field's bits.
theorem carries_moved (books : Books) (f : Field) (sound : f.Sound) (builtIn : f.type.isBuiltIn = true) (mark : Char)
    (raw : Bool) (delimiter : String) (row other : Bytes) (same : other.length = row.length)
    (bits : ∀ byte place, f.owns 0 byte place = true → other.bit byte place = row.bit byte place)
    (carries : f.Carries books mark raw delimiter row row) : f.Carries books mark raw delimiter row other := by
  obtain ⟨v, w, decoded, held, read, written⟩ := carries
  refine ⟨v, w, decoded, held, read, ?_⟩
  have room := f.near_start sound
  obtain ⟨long, new, imaged, painted⟩ := f.painted_of_write books sound builtIn row row 0 w room written
  apply f.write_unchanged books sound builtIn other 0 w new room (same ▸ long) imaged
  intro byte place covered
  have owned : f.owns 0 ((f.span 0).start + byte) place = true := by rw [f.owns_at, covered]
  have own := painted.inside _ _ owned
  rw [Nat.add_sub_cancel_left] at own
  rw [bits _ _ owned, own]

section CutTime

variable (f : Field) (sound : f.Sound) (row : Bytes) (long : (f.span 0).stop ≤ row.length)

theorem cut_time_of_type (t : TimeCode) (time : f.type = .scalar (.time t)) :
    f.cutTime row = f.splice row (t.cut (f.own row)) := by
  rw [cutTime, time]
  rfl

theorem type_of_time (t : TimeCode) (known : f.type.time? = some t) : f.type = .scalar (.time t) := by
  cases type : f.type with
  | array a =>
      rw [type] at known
      cases known
  | scalar s =>
      rw [type] at known
      cases s with
      | time code =>
          cases known
          rfl
      | _ => cases known

include sound long in
theorem cut_time_painted (t : TimeCode) (time : f.type = .scalar (.time t)) :
    f.Painted 0 row (t.cut (f.own row)) (f.cutTime row) := by
  rw [f.cut_time_of_type row t time]
  have whole := t.length_cut (f.own row) ((f.length_own sound row long).trans (f.extent_time t time))
  exact f.splice_painted sound row long _ (whole.trans (f.extent_time t time).symm) (f.time_unmasked t time sound)

include sound long in
theorem cut_time_outside :
    (f.cutTime row).length = row.length ∧
      ∀ byte place, f.owns 0 byte place = false → (f.cutTime row).bit byte place = row.bit byte place := by
  cases known : f.type.time? with
  | none => simp [cutTime, known]
  | some t =>
      have painted := f.cut_time_painted sound row long t (f.type_of_time t known)
      exact ⟨painted.length, painted.outside⟩

include sound long in
-- What a field becomes depends on its own bits alone.
theorem cut_time_agrees (other : Bytes) (same : other.length = row.length)
    (bits : ∀ byte place, f.owns 0 byte place = true → other.bit byte place = row.bit byte place) :
    ∀ byte place, f.owns 0 byte place = true → (f.cutTime other).bit byte place = (f.cutTime row).bit byte place := by
  intro byte place owned
  cases known : f.type.time? with
  | none =>
      simp only [cutTime, known]
      exact bits byte place owned
  | some t =>
      have time := f.type_of_time t known
      have own := f.own_of_bits sound row long (f.time_unmasked t time sound) other same bits
      rw [(f.cut_time_painted sound row long t time).inside byte place owned,
        (f.cut_time_painted sound other (same ▸ long) t time).inside byte place owned, own]

end CutTime

end Field

namespace TableDefinition

-- A row with its times cut to whole microseconds.
def cutTimes (columns : List Field) (row : Bytes) : Bytes := columns.foldl (fun row f => f.cutTime row) row

section CutTimes

variable (columns : List Field) (sound : ∀ f ∈ columns, f.Sound) (row : Bytes)
variable (inside : ∀ f ∈ columns, (f.span 0).stop ≤ row.length)

include sound inside in
theorem cut_times_outside :
    (cutTimes columns row).length = row.length ∧
      ∀ byte place, (∀ f ∈ columns, f.owns 0 byte place = false) →
        (cutTimes columns row).bit byte place = row.bit byte place := by
  induction columns generalizing row with
  | nil => exact ⟨rfl, fun _ _ _ => rfl⟩
  | cons f rest ih =>
      obtain ⟨length, outside⟩ := f.cut_time_outside (sound f List.mem_cons_self) row (inside f List.mem_cons_self)
      obtain ⟨lengthRest, outsideRest⟩ := ih (fun g later => sound g (List.mem_cons_of_mem _ later)) (f.cutTime row)
        (fun g later => length ▸ inside g (List.mem_cons_of_mem _ later))
      refine ⟨lengthRest.trans length, ?_⟩
      intro byte place unowned
      obtain ⟨own, others⟩ := List.forall_mem_cons.mp unowned
      exact (outsideRest byte place others).trans (outside byte place own)

include sound inside in
-- Each column becomes what it would become alone, as no other one touches its bits.
theorem cut_times_own (apart : columns.Pairwise Field.Apart) (f : Field) (member : f ∈ columns) :
    ∀ byte place, f.owns 0 byte place = true →
      (cutTimes columns row).bit byte place = (f.cutTime row).bit byte place := by
  induction columns generalizing row with
  | nil => cases member
  | cons g rest ih =>
      obtain ⟨here, restApart⟩ := List.pairwise_cons.mp apart
      obtain ⟨length, outside⟩ := g.cut_time_outside (sound g List.mem_cons_self) row (inside g List.mem_cons_self)
      have soundRest := fun g later => sound g (List.mem_cons_of_mem _ later)
      have insideRest : ∀ g' ∈ rest, (g'.span 0).stop ≤ (g.cutTime row).length := fun g' later =>
        length ▸ inside g' (List.mem_cons_of_mem _ later)
      intro byte place owned
      rcases List.mem_cons.mp member with same | later
      · subst same
        exact (cut_times_outside rest soundRest _ insideRest).2 byte place fun other known => here other known _ _ owned
      · have bits : ∀ byte place, f.owns 0 byte place = true → (g.cutTime row).bit byte place = row.bit byte place := by
          intro byte place owned
          apply outside
          cases clash : g.owns 0 byte place with
          | false => rfl
          | true =>
              have unowned := here f later byte place clash
              rw [owned] at unowned
              cases unowned
        exact (ih soundRest _ insideRest restApart later byte place owned).trans
          (f.cut_time_agrees (sound f member) row (inside f member) _ length bits byte place owned)

include sound inside in
theorem own_cut_times (apart : columns.Pairwise Field.Apart) (f : Field) (member : f ∈ columns) (t : TimeCode)
    (time : f.type = .scalar (.time t)) : f.own (cutTimes columns row) = t.cut (f.own row) := by
  have long := inside f member
  have length := f.cut_time_outside (sound f member) row long
  have whole := t.length_cut (f.own row) ((f.length_own (sound f member) row long).trans (f.extent_time t time))
  rw [f.own_of_bits (sound f member) (f.cutTime row) (length.1 ▸ long) (f.time_unmasked t time (sound f member)) _
    ((cut_times_outside columns sound row inside).1.trans length.1.symm)
    (cut_times_own columns sound row inside apart f member), f.cut_time_of_type row t time]
  exact f.own_splice (sound f member) row long _ (whole.trans (f.extent_time t time).symm)

include sound inside in
theorem cut_times_whole_iff (apart : columns.Pairwise Field.Apart) :
    cutTimes columns row = row ↔
      ∀ f ∈ columns, ∀ t, f.type = .scalar (.time t) → t.isWhole (f.own row) = true := by
  constructor
  · intro same f member t time
    have own := own_cut_times columns sound row inside apart f member t time
    rw [same] at own
    have whole := (f.length_own (sound f member) row (inside f member)).trans (f.extent_time t time)
    exact (t.cut_iff_whole _ whole).mp own.symm
  · intro whole
    clear apart
    induction columns with
    | nil => rfl
    | cons f rest ih =>
        have alone : f.cutTime row = row := by
          cases known : f.type.time? with
          | none => rw [Field.cutTime, known]
          | some t =>
              have time := f.type_of_time t known
              have long := inside f List.mem_cons_self
              have length := (f.length_own (sound f List.mem_cons_self) row long).trans (f.extent_time t time)
              rw [f.cut_time_of_type row t time, (t.cut_iff_whole _ length).mpr (whole f List.mem_cons_self t time),
                f.splice_own (sound f List.mem_cons_self) row long]
        rw [cutTimes, List.foldl_cons, alone]
        exact ih (fun g later => sound g (List.mem_cons_of_mem _ later))
          (fun g later => inside g (List.mem_cons_of_mem _ later))
          (fun g later => whole g (List.mem_cons_of_mem _ later))

end CutTimes

-- The marks that stand in no time either.
theorem mark_outside (mark : Char) (apart : Cell.Mark mark) (colon : mark ≠ ':') (point : mark ≠ '.') :
    Rfc3339.isPart mark = false := by
  cases part : Rfc3339.isPart mark with
  | false => rfl
  | true =>
      have alphanumeric := apart.alphanumeric
      simp only [Rfc3339.isPart, Bool.or_eq_true, List.contains_iff_mem, List.mem_cons, List.not_mem_nil, or_false] at part
      rcases part with digit | rfl | rfl | rfl | rfl | rfl
      · rw [Numeral.digit_alphanumeric 10 mark digit] at alphanumeric
        cases alphanumeric
      · exact absurd rfl apart.sign
      · cases alphanumeric
      · exact absurd rfl colon
      · exact absurd rfl point
      · cases alphanumeric

section Rows

variable (books : Books) (d : TableDefinition) (mark : Char) (apart : Cell.Mark mark)
variable (outside : Rfc3339.isPart mark = false) (columns : List Field) (nbytes : Nat)
variable (sound : ∀ f ∈ columns, f.Sound) (kinds : ∀ f ∈ columns, f.Textual mark ∨ f.IsTime)
variable (packed : Packed columns nbytes) (row : Bytes) (whole : row.length = nbytes)

include sound kinds packed whole apart outside in
theorem column_cut (f : Field) (member : f ∈ columns) (v : Value) (decoded : f.decode books row false none = .ok v)
    (delimiter : String) :
    f.Carries books mark false delimiter row (cutTimes columns row) ∧ Cell.render f delimiter v ≠ "" := by
  have inside : ∀ g ∈ columns, (g.span 0).stop ≤ row.length := fun g own => whole ▸ packed.inside g own
  have length := (cut_times_outside columns sound row inside).1
  rcases kinds f member with textual | ⟨t, instant, time⟩
  · obtain ⟨carries, filled⟩ := f.textual_carries books (sound f member) row (inside f member) mark apart textual false
      delimiter
    refine ⟨?_, filled v decoded⟩
    apply f.carries_moved books (sound f member) textual.built_in mark false delimiter row _ length _ carries
    intro byte place owned
    have alone : f.cutTime row = row := by rw [Field.cutTime, f.textual_no_time mark textual]
    rw [cut_times_own columns sound row inside packed.apart f member byte place owned, alone]
  · exact f.time_carries t time (sound f member) books instant row (inside f member) mark outside _ length
      (own_cut_times columns sound row inside packed.apart f member t time) v decoded delimiter

end Rows

theorem same_of_joined {α : Type} (places : List α) (f g : α → Bytes)
    (lengths : ∀ place ∈ places, (f place).length = (g place).length) (joined : places.flatMap f = places.flatMap g) :
    ∀ place ∈ places, f place = g place := by
  induction places with
  | nil => simp
  | cons place rest ih =>
      rw [List.flatMap_cons, List.flatMap_cons] at joined
      obtain ⟨own, others⟩ := List.append_inj joined (lengths place List.mem_cons_self)
      rw [List.forall_mem_cons]
      exact ⟨own, ih (fun other later => lengths other (List.mem_cons_of_mem _ later)) others⟩

section Tables

variable (d : TableDefinition) (accepted : d.Accepted) (mark : Char) (apart : Cell.Mark mark)
variable (delimiter : d.delimiter = String.singleton mark) (outside : Rfc3339.isPart mark = false)
variable (rows : ∀ columns nbytes, d.HasRow columns nbytes →
  Packed columns nbytes ∧ ∀ f ∈ columns, f.Textual mark ∨ f.IsTime)

-- The rows of the bytes with their times cut to whole microseconds.
def cutRow (bytes : Bytes) (row : Nat) : Bytes := cutTimes (d.rowColumns row) (d.chunk bytes row)

include accepted rows in
theorem times_wide : d.Wide :=
  d.wide_of_columns accepted fun columns nbytes row f member =>
    ⟨(rows columns nbytes row).1.inside f member, f.nbytes_pos_of_kind_time mark ((rows columns nbytes row).2 f member)⟩

include accepted rows apart delimiter outside in
theorem time_row_returns (books : Books) (bytes : Bytes) (row : Nat) (values : List Value)
    (read : d.rowAt books false bytes row = .ok values) :
    d.RowReturns books (d.cutRow bytes) (fun _ => true) false bytes row := by
  obtain ⟨inside, decoded⟩ := d.row_at_whole books false bytes row values read
  obtain ⟨packed, kinds⟩ := rows _ _ (d.has_row row)
  have sound := (d.accepted_row accepted _ _ (d.has_row row)).1
  have whole := d.length_chunk bytes row inside
  have within : ∀ f ∈ d.rowColumns row, (f.span 0).stop ≤ (d.chunk bytes row).length := fun f member =>
    whole ▸ packed.inside f member
  have carries := fun f member v decoded => column_cut books mark apart outside _ _ sound kinds packed _ whole f member v
    decoded d.delimiter
  refine d.row_of_carried accepted mark apart delimiter books _ _ false bytes row inside
    (fun f member => f.built_in_of_kind_time mark (kinds f member)) packed
    ((cut_times_outside _ sound _ within).1.trans whole) ?_ ?_
  · intro f member
    obtain ⟨v, known⟩ := Attempt.ok_of_map _ _ values decoded f member
    exact (carries f member v known).1
  · simp only [true_iff]
    intro f v one known
    exact (carries f (one ▸ List.mem_cons_self) v known).2

include accepted rows in
theorem cut_rows_whole_iff (bytes : Bytes) (count : Nat) (ended : bytes.length = d.start count) :
    (List.range count).flatMap (d.cutRow bytes) = bytes ↔
      ∀ row < count, ∀ f ∈ d.rowColumns row, ∀ t, f.type = .scalar (.time t) →
        t.isWhole (f.own (d.chunk bytes row)) = true := by
  have facts : ∀ row < count,
      (d.cutRow bytes row).length = (d.chunk bytes row).length ∧
        (d.cutRow bytes row = d.chunk bytes row ↔ ∀ f ∈ d.rowColumns row, ∀ t, f.type = .scalar (.time t) →
          t.isWhole (f.own (d.chunk bytes row)) = true) := by
    intro row before
    obtain ⟨packed, kinds⟩ := rows _ _ (d.has_row row)
    have sound := (d.accepted_row accepted _ _ (d.has_row row)).1
    have whole := d.length_chunk bytes row (ended ▸ d.start_le (row + 1) count before)
    have within : ∀ f ∈ d.rowColumns row, (f.span 0).stop ≤ (d.chunk bytes row).length := fun f member =>
      whole ▸ packed.inside f member
    exact ⟨(cut_times_outside _ sound _ within).1, cut_times_whole_iff _ sound _ within packed.apart⟩
  have joined : (List.range count).flatMap (d.chunk bytes) = bytes := by
    rw [d.chunks_joined, ← ended, List.take_length]
  constructor
  · intro same row before
    rw [← (facts row before).2]
    exact same_of_joined (List.range count) _ _ (fun place member => (facts place (List.mem_range.mp member)).1)
      (same.trans joined.symm) row (List.mem_range.mpr before)
  · intro whole
    have each : ∀ row ∈ List.range count, d.cutRow bytes row = d.chunk bytes row := fun row member =>
      (facts row (List.mem_range.mp member)).2.mpr (whole row (List.mem_range.mp member))
    rw [List.flatMap_def, List.map_congr_left each, ← List.flatMap_def, joined]

end Tables

-- Where all rows are decoded, all bytes are those of rows.
theorem rows_of_decode_text (d : TableDefinition) (books : Books) (wide : d.Wide) (raw : Bool) (bytes : Bytes)
    (text : String) (count : Nat) (decoded : d.decodeText books raw bytes = (text, .ok count)) :
    bytes.length = d.start count ∧ ∀ row < count, ∃ values, d.rowAt books raw bytes row = .ok values := by
  obtain ⟨rows, read, run, ended⟩ := d.reads_before books raw wide bytes 0 (Nat.zero_le _)
  simp only [Nat.zero_add] at read run ended
  rw [← d.decoder_before bytes] at run
  rw [d.decode_text_of_reads books raw bytes rows _ run] at decoded
  rcases ended with consumed | ⟨more, fault, failed⟩
  · have noMore := d.next_at_end books raw bytes rows.length (Nat.le_of_eq consumed.symm)
    rw [d.write_lines_end books raw _ _ _ noMore] at decoded
    cases decoded
    exact ⟨consumed.symm, fun row before => ⟨_, read row before⟩⟩
  · have next := d.next_row books raw wide bytes rows.length more
    rw [failed] at next
    rw [writeLines, next] at decoded
    cases decoded

end TableDefinition

theorem Field.time_cell_cut (known books : Books) (f : Field) (t : TimeCode) (instant : t ≠ .fraction)
    (checked : f.check known = .ok ()) (time : f.type = .scalar (.time t)) (row : Bytes) (v : Value)
    (decoded : f.decode books row false none = .ok v) (delimiter : String) :
    Cell.store books f row (Cell.render f delimiter v).toList = .ok (f.splice row (t.cut (f.own row))) ∧
      (f.splice row (t.cut (f.own row)) = row ↔ t.isWhole (f.own row) = true) := by
  have sound := f.sound_of_check known checked
  have long : (f.span 0).stop ≤ row.length := by
    apply Nat.le_of_not_lt
    intro short
    rw [decode, f.decode_at_short books row 0 false none short] at decoded
    cases decoded
  have whole := (f.length_own sound row long).trans (f.extent_time t time)
  have kept := (t.length_cut (f.own row) whole).trans (f.extent_time t time).symm
  obtain ⟨i, rfl, regular, low, high, imaged⟩ := f.decode_time t time sound books instant row long v decoded
  constructor
  · rw [f.render_time t time delimiter i, Cell.store,
      Attempt.bind_of_ok _ _ _ (f.read_time t time i regular low high)]
    exact f.write_splice books sound (f.built_in_time t time) row long _ kept (f.time_unmasked t time sound) _ imaged
  · rw [← t.cut_iff_whole _ whole]
    constructor
    · intro same
      have own := f.own_splice sound row long _ kept
      rw [same] at own
      exact own.symm
    · intro same
      rw [same, f.splice_own sound row long]

theorem TableDefinition.time_rows_cut (books : Books) (d : TableDefinition) (mark : Char) (accepted : d.Accepted)
    (unlimited : d.size = none) (apart : Cell.Mark mark) (colon : mark ≠ ':') (point : mark ≠ '.')
    (delimiter : d.delimiter = String.singleton mark)
    (rows : ∀ columns nbytes, d.HasRow columns nbytes →
      Packed columns nbytes ∧ ∀ f ∈ columns, f.Textual mark ∨ f.IsTime)
    (bytes : Bytes) (text : String) (count : Nat) (headed : d.header ≠ [] → bytes ≠ [])
    (decoded : d.decodeText books false bytes = (text, .ok count)) :
    d.encodeText books text none = .ok ((List.range count).flatMap (d.cutRow bytes)) ∧
      ((List.range count).flatMap (d.cutRow bytes) = bytes ↔
        ∀ row < count, ∀ f ∈ d.rowColumns row, ∀ t, f.type = .scalar (.time t) →
          t.isWhole (f.own (d.chunk bytes row)) = true) := by
  have wide := d.times_wide accepted mark rows
  have outside := mark_outside mark apart colon point
  obtain ⟨ended, read⟩ := d.rows_of_decode_text books wide false bytes text count decoded
  have returns : ∀ row < count, d.RowReturns books (d.cutRow bytes) (fun _ => true) false bytes row := by
    intro row before
    obtain ⟨values, found⟩ := read row before
    exact d.time_row_returns accepted mark apart delimiter outside rows books bytes row values found
  have begun : d.header ≠ [] → 0 < count := by
    intro present
    apply Nat.pos_of_ne_zero
    rintro rfl
    exact headed present (List.eq_nil_of_length_eq_zero ended)
  obtain ⟨lines, _, shown, _, written⟩ := d.rows_encode_back books (d.cutRow bytes) (fun _ => true) wide unlimited false
    bytes count ended returns fun present => ⟨begun present, rfl⟩
  rw [decoded, Prod.mk.injEq] at shown
  rw [List.filter_eq_self.mpr fun _ _ => rfl, ← shown.1] at written
  exact ⟨written, d.cut_rows_whole_iff accepted mark rows bytes count ended⟩

namespace TableDefinition

theorem times_cut_to_microseconds :
    (∀ (known books : Books) (f : Field) (t : TimeCode), t ≠ .fraction → f.check known = .ok () →
      f.type = .scalar (.time t) → ∀ (row : Bytes) (v : Value), f.decode books row false none = .ok v →
      ∀ delimiter : String,
        Cell.store books f row (Cell.render f delimiter v).toList = .ok (f.splice row (t.cut (f.own row))) ∧
          (f.splice row (t.cut (f.own row)) = row ↔ t.isWhole (f.own row) = true)) ∧
    ∀ (books : Books) (d : TableDefinition) (mark : Char), d.Accepted → d.size = none → Cell.Mark mark → mark ≠ ':' →
      mark ≠ '.' → d.delimiter = String.singleton mark →
      (∀ columns nbytes, d.HasRow columns nbytes → Packed columns nbytes ∧ ∀ f ∈ columns, f.Textual mark ∨ f.IsTime) →
      ∀ (bytes : Bytes) (text : String) (count : Nat), (d.header ≠ [] → bytes ≠ []) →
        d.decodeText books false bytes = (text, .ok count) →
        d.encodeText books text none = .ok ((List.range count).flatMap (d.cutRow bytes)) ∧
          ((List.range count).flatMap (d.cutRow bytes) = bytes ↔
            ∀ row < count, ∀ f ∈ d.rowColumns row, ∀ t, f.type = .scalar (.time t) →
              t.isWhole (f.own (d.chunk bytes row)) = true) := by
  constructor
  · intro known books f t instant checked time row v decoded delimiter
    exact f.time_cell_cut known books t instant checked time row v decoded delimiter
  · intro books d mark accepted unlimited apart colon point delimiter rows bytes text count headed decoded
    exact d.time_rows_cut books mark accepted unlimited apart colon point delimiter rows bytes text count headed decoded

def timeColumn (name : String) (t : TimeCode) (byte : Nat) : Field :=
  { byteColumn name byte with type := .scalar (.time t) }

-- A 256th of a second and a nanosecond.
def ticks : TableDefinition :=
  { name := "TICKS"
    delimiter := ","
    desc := none
    size := none
    header := []
    columns := [timeColumn "FINE" .fine 0, timeColumn "EXACT" .nanos 5]
    headerBytes := 0
    rowBytes := 13 }

def ticked : Bytes := [0, 0, 0, 0, 4, 0, 0, 0, 0, 0, 0, 3, 0xe8, 0, 0, 0, 0, 7, 0, 0, 0, 1, 0, 0, 3, 0xe9]

theorem ticks_cut :
    Cell.store .none (timeColumn "FINE" .fine 0) [0, 0, 0, 0, 4]
        (Cell.render (timeColumn "FINE" .fine 0) "," (.time ⟨315964800, 15625000⟩)).toList = .ok [0, 0, 0, 0, 4] ∧
      ∃ text, ticks.decodeText .none false ticked = (text, .ok 2) ∧
        ticks.encodeText .none text none =
          .ok [0, 0, 0, 0, 4, 0, 0, 0, 0, 0, 0, 3, 0xe8, 0, 0, 0, 0, 6, 0, 0, 0, 1, 0, 0, 3, 0xe8] := by
  obtain ⟨cell, table⟩ := times_cut_to_microseconds
  constructor
  · exact (cell .none .none (timeColumn "FINE" .fine 0) .fine (by decide) rfl rfl [0, 0, 0, 0, 4] _ rfl ",").1
  · have accepted : ticks.Accepted := ⟨.none, [], ticks.columns, ticks, rfl, rfl, rfl, rfl, rfl⟩
    have rows : ∀ columns nbytes, ticks.HasRow columns nbytes →
        Packed columns nbytes ∧ ∀ f ∈ columns, f.Textual ',' ∨ f.IsTime := by
      rintro columns nbytes (⟨rfl, rfl⟩ | ⟨rfl, rfl⟩)
      · exact ⟨packed_of_consecutive [] 0 (by simp) rfl, by simp [ticks]⟩
      · refine ⟨packed_of_consecutive _ _ (by decide) ⟨rfl, rfl, rfl⟩, ?_⟩
        simp only [ticks, List.forall_mem_cons, List.not_mem_nil, false_implies, implies_true, and_true]
        exact ⟨.inr ⟨.fine, by decide, rfl⟩, .inr ⟨.nanos, by decide, rfl⟩⟩
    have first : next .none ticks false (ticks.decoder ticked) =
        some (.ok [.time ⟨315964800, 15625000⟩, .time ⟨315964800, 1000⟩], ⟨ticked.drop 13, true, false⟩) := rfl
    have second : next .none ticks false ⟨ticked.drop 13, true, false⟩ =
        some (.ok [.time ⟨315964800, 27343750⟩, .time ⟨315964801, 1001⟩], ⟨[], true, false⟩) := rfl
    have last : next .none ticks false ⟨[], true, false⟩ = none := rfl
    have decoded : ∃ text, ticks.decodeText .none false ticked = (text, .ok 2) := by
      rw [decodeText, writeLines, first]
      simp only
      rw [writeLines, second]
      simp only
      rw [writeLines, last]
      exact ⟨_, rfl⟩
    obtain ⟨text, shown⟩ := decoded
    exact ⟨text, shown, (table .none ticks ',' accepted rfl ⟨by decide, by decide, by decide⟩ (by decide) (by decide) rfl
      rows ticked text 2 (fun present => absurd rfl present) shown).1⟩

theorem tick_lost :
    (timeColumn "FINE" .fine 0).check .none = .ok () ∧
      (timeColumn "FINE" .fine 0).decode .none [0, 0, 0, 0, 1] false none = .ok (.time ⟨315964800, 3906250⟩) ∧
      Cell.render (timeColumn "FINE" .fine 0) "," (.time ⟨315964800, 3906250⟩) = "1980-01-06T00:00:00.003906Z" ∧
      Cell.read (timeColumn "FINE" .fine 0) "1980-01-06T00:00:00.003906Z".toList = .ok (.time ⟨315964800, 3906000⟩) ∧
      (timeColumn "FINE" .fine 0).write .none [0, 0, 0, 0, 1] 0 (.time ⟨315964800, 3906000⟩) = .ok [0, 0, 0, 0, 0] :=
  ⟨rfl, rfl, by decide +kernel, rfl, rfl⟩

end TableDefinition

end SpaceLink
