import SpaceLink.Proofs.DataType.Text
import SpaceLink.Proofs.Field.Splice
import SpaceLink.Proofs.Table.RoundTrip
import SpaceLink.Proofs.Text.Ascii

/-!
Columns of bytes. Their cells are texts where these are read as texts again, and numbers elsewhere; each of them is read
as the bytes it was made from. A row of one such column is an empty line where its bytes are zeros, which is passed over.
-/

set_option autoImplicit false

namespace SpaceLink

namespace Bytes

-- The items of a byte array.
def items (signed : Bool) (bytes : Bytes) : List Int := bytes.map fun b => IntType.decode ⟨signed, .byte⟩ [b]

-- A byte is its own number, except that of a negative one.
theorem item_cases (signed : Bool) (b : UInt8) :
    IntType.decode ⟨signed, .byte⟩ [b] = b.toNat ∨
      128 ≤ b.toNat ∧ IntType.decode ⟨signed, .byte⟩ [b] < 0 := by
  have bound := b.toNat_lt
  have read : ofBig [b] = b.toNat := by simp [ofBig, ofLittle]
  simp only [IntType.decode, IntType.order, ByteOrder.read, read, IntType.nbits, IntType.nbytes]
  split
  · right
    omega
  · left
    rfl

theorem byte_of_nat (b : UInt8) : Cell.byte? (.int b.toNat) = some b := by
  have bound := b.toNat_lt
  have inside : (0 : Int) ≤ b.toNat ∧ (b.toNat : Int) < 256 := by omega
  simp only [Cell.byte?, Value.toInt?, Option.bind_some, if_pos inside, Int.toNat_natCast, UInt8.ofNat_toNat]

theorem byte_of_item (signed : Bool) (b c : UInt8)
    (byte : Cell.byte? (.int (IntType.decode ⟨signed, .byte⟩ [b])) = some c) :
    c = b ∧ IntType.decode ⟨signed, .byte⟩ [b] = b.toNat := by
  rcases item_cases signed b with same | ⟨_, negative⟩
  · rw [same, byte_of_nat] at byte
    exact ⟨(Option.some.inj byte).symm, same⟩
  · have outside : ¬ (0 ≤ IntType.decode ⟨signed, .byte⟩ [b] ∧ IntType.decode ⟨signed, .byte⟩ [b] < 256) := by omega
    simp only [Cell.byte?, Value.toInt?, Option.bind_some, if_neg outside] at byte
    cases byte

theorem bytes_of_items (signed : Bool) (own bytes : Bytes)
    (found : ((items signed own).map Value.int).mapM Cell.byte? = some bytes) :
    bytes = own ∧ items signed own = own.map fun b => (b.toNat : Int) := by
  induction own generalizing bytes with
  | nil =>
      cases found
      exact ⟨rfl, rfl⟩
  | cons b rest ih =>
      simp only [items, List.map_cons, List.mapM_cons] at found
      obtain ⟨c, byte, more⟩ := Option.bind_eq_some_iff.mp found
      obtain ⟨others, foundRest, same⟩ := Option.bind_eq_some_iff.mp more
      obtain ⟨rfl, value⟩ := byte_of_item signed b c byte
      obtain ⟨rfl, values⟩ := ih others foundRest
      cases same
      exact ⟨rfl, by simp only [items, List.map_cons, value] at values ⊢; rw [values]⟩

theorem items_of_zeros (signed : Bool) (own : Bytes) (zeros : ∀ b ∈ own, b = 0) :
    ((items signed own).map Value.int).mapM Cell.byte? = some own := by
  induction own with
  | nil => rfl
  | cons b rest ih =>
      obtain ⟨rfl, others⟩ := List.forall_mem_cons.mp zeros
      have known := ih others
      have zero : Cell.byte? (.int (IntType.decode ⟨signed, .byte⟩ [0])) = some 0 := by
        rcases item_cases signed 0 with same | ⟨high, _⟩
        · rw [same, byte_of_nat]
        · exact absurd high (by decide)
      simp only [items, List.map_cons, List.mapM_cons, zero] at known ⊢
      rw [known]
      rfl

end Bytes

namespace Cell

-- Printable bytes as the text they are the codes of.
theorem shown_of_codes (own : Bytes) (printable : ∀ b ∈ own, 0x20 ≤ b.toNat ∧ b.toNat ≤ 0x7e)
    (first : own.head? ≠ some 0x20) (last : own.getLast? ≠ some 0x20) :
    Text.Shown (own.map fun b => Char.ofNat b.toNat) ∧ Text.codes (own.map fun b => Char.ofNat b.toNat) = own := by
  have code : ∀ b ∈ own, (Char.ofNat b.toNat).toNat = b.toNat := by
    intro b member
    exact Text.code_of_printable b.toNat (printable b member).2
  have space : ∀ b ∈ own, Char.ofNat b.toNat = ' ' → b = 0x20 := by
    intro b member same
    have known := code b member
    rw [same] at known
    exact UInt8.toNat_inj.mp known.symm
  refine ⟨⟨?_, ?_, ?_⟩, ?_⟩
  · intro c member
    obtain ⟨b, inside, rfl⟩ := List.mem_map.mp member
    rw [code b inside]
    exact printable b inside
  · rw [List.head?_map]
    intro blank
    obtain ⟨b, found, same⟩ := Option.map_eq_some_iff.mp blank
    exact first (found.trans (congrArg some (space b (List.mem_of_mem_head? found) same)))
  · rw [List.getLast?_map]
    intro blank
    obtain ⟨b, found, same⟩ := Option.map_eq_some_iff.mp blank
    exact last (found.trans (congrArg some (space b (List.mem_of_getLast? found) same)))
  · rw [Text.codes, List.map_map]
    conv => rhs; rw [← List.map_id own]
    apply List.map_congr_left
    intro b member
    rw [Function.comp_apply, code b member, UInt8.ofNat_toNat]
    rfl

-- A text that is shown for bytes is that of the bytes up to the zeros at the end.
theorem shown_of_byte_text (signed : Bool) (own : Bytes) (text : List Char)
    (found : byteText? ((Bytes.items signed own).map .int) = some text) :
    Text.Shown text ∧ Text.codes text = Bytes.trimZeros own ∧
      Bytes.items signed own = own.map fun b => (b.toNat : Int) := by
  obtain ⟨bytes, numbers, rest⟩ := Option.bind_eq_some_iff.mp found
  obtain ⟨rfl, values⟩ := Bytes.bytes_of_items signed own bytes numbers
  by_cases visible : ((Bytes.trimZeros bytes).all isPrintable && (Bytes.trimZeros bytes).head? != some 0x20 &&
      (Bytes.trimZeros bytes).getLast? != some 0x20) = true
  · rw [if_pos visible] at rest
    cases rest
    simp only [Bool.and_eq_true, List.all_eq_true, bne_iff_ne, ne_eq, isPrintable, decide_eq_true_eq,
      UInt8.le_iff_toNat_le] at visible
    obtain ⟨shown, codes⟩ := shown_of_codes (Bytes.trimZeros bytes) visible.1.1 visible.1.2 visible.2
    exact ⟨shown, codes, values⟩
  · rw [if_neg visible] at rest
    cases rest

-- The text that is shown in place of numbers.
def literal? (a : ArrayType) (delimiter : String) (items : List Value) : Option (List Char) :=
  if a.isBytes && decide (1 < a.count) then
    (byteText? items).filter fun text => !Text.contains delimiter.toList text
  else none

theorem render_list (f : Field) (a : ArrayType) (array : f.type = .array a) (delimiter : String) (items : List Value) :
    render f delimiter (.list items) = match literal? a delimiter items with
      | some text => String.ofList text
      | none => itemsText items := by
  simp only [render, array, DataType.array?]
  rfl

theorem literal_zeros (signed : Bool) (count : Nat) (many : 1 < count) (mark : Char) (own : Bytes)
    (zeros : ∀ b ∈ own, b = 0) :
    literal? ⟨.primitive (.int ⟨signed, .byte⟩), count⟩ (String.singleton mark) ((Bytes.items signed own).map .int) =
      some [] := by
  have empty := (Bytes.trim_empty_iff own).mpr zeros
  have text : byteText? ((Bytes.items signed own).map .int) = some [] := by
    simp only [byteText?, Bytes.items_of_zeros signed own zeros, Option.bind_eq_bind, Option.bind_some, empty]
    rfl
  have bytes : ArrayType.isBytes ⟨.primitive (.int ⟨signed, .byte⟩), count⟩ = true := rfl
  simp [literal?, bytes, many, text, Text.contains_mark]

end Cell

namespace Field

section Bytes

variable (books : Books) (f : Field) (sound : f.Sound) (signed : Bool) (count : Nat)
variable (array : f.type = .array ⟨.primitive (.int ⟨signed, .byte⟩), count⟩)

include sound array in
theorem bytes_unmasked : f.mask = none := by
  apply f.unmasked_of_other sound
  intro t integer
  rw [array] at integer
  cases integer

include array in
-- A text of no more bytes than the array has is too short for as many words.
theorem read_literal (text : List Char) (shown : Text.Shown text) (short : text.length ≤ count) (many : 1 < count) :
    Cell.read f text = .ok (.list (((Text.codes text).map fun b => Value.int b.toNat) ++
      List.replicate (count - text.length) (.int 0))) := by
  have few := Text.length_words text
  have other : (Text.words text).length ≠ count := by omega
  have bytes : ArrayType.isBytes ⟨.primitive (.int ⟨signed, .byte⟩), count⟩ = true := rfl
  have trimmed := Text.Shown.trimmed text shown
  simp only [Cell.read, trimmed, array, DataType.array?, Cell.readArray, List.length_map, other, false_and, bytes,
    Bool.not_true, Bool.false_eq_true, or_self, if_false, Text.encode_shown text shown, Text.length_codes,
    Nat.not_lt.mpr short]

section Cells

variable (mark : Char) (own : Bytes) (whole : own.length = count)

include array whole in
theorem literal_back (text : List Char)
    (shows : Cell.literal? ⟨.primitive (.int ⟨signed, .byte⟩), count⟩ (String.singleton mark)
      ((Bytes.items signed own).map .int) = some text) :
    1 < count ∧ Cell.Held mark text ∧ Cell.read f text = .ok (.list ((Bytes.items signed own).map .int)) ∧
      (text = [] ↔ ∀ b ∈ own, b = 0) := by
  unfold Cell.literal? at shows
  by_cases several : (ArrayType.isBytes ⟨.primitive (.int ⟨signed, .byte⟩), count⟩ && decide (1 < count)) = true
  · rw [if_pos several, Option.filter_eq_some_iff] at shows
    obtain ⟨found, free⟩ := shows
    rw [String.toList_singleton, Text.contains_mark, Bool.not_eq_true', decide_eq_false_iff_not] at free
    obtain ⟨shown, codes, values⟩ := Cell.shown_of_byte_text signed own text found
    obtain ⟨shorter, filling⟩ := Bytes.trim_fill own
    have length := Text.length_codes text
    rw [← codes, length] at shorter filling
    have many : 1 < count := by simpa using (Bool.and_eq_true_iff.mp several).2
    refine ⟨many, ⟨Text.Shown.trimmed text shown, Text.Shown.one_line text shown, free⟩, ?_, ?_⟩
    · rw [f.read_literal signed count array text shown (by omega) many, values, List.map_map]
      congr 2
      conv => rhs; rw [← filling]
      rw [List.map_append, List.map_replicate, whole]
      rfl
    · rw [← Bytes.trim_empty_iff, ← codes, Text.codes, List.map_eq_nil_iff]
  · rw [if_neg several] at shows
    cases shows

include array whole in
theorem numerals_back (apart : Cell.Mark mark) (filled : 0 < count) :
    Cell.Plain mark (Cell.numerals (Bytes.items signed own)) ∧
      Cell.read f (Cell.numerals (Bytes.items signed own)) = .ok (.list ((Bytes.items signed own).map .int)) := by
  have counted : (Bytes.items signed own).length = count := by rw [Bytes.items, List.length_map, whole]
  have plain := Cell.plain_numerals mark apart (Bytes.items signed own) (List.ne_nil_of_length_pos (by omega))
  refine ⟨plain, f.read_numbers _ array _ (.inl counted) ?_ plain.trimmed⟩
  intro n member
  obtain ⟨b, _, rfl⟩ := List.mem_map.mp member
  exact Wide.fits_of_abs _ (IntType.abs_of_holds _ _ (IntType.holds_decode ⟨signed, .byte⟩ [b] rfl))

end Cells

variable (unwrapped : ¬ f.type.Wraps)

include array unwrapped in
theorem nbytes_bytes : f.type.nbytes = count := by
  rw [f.type.nbytes_unwrapped unwrapped, array]
  exact Nat.mul_one count

variable (row : Bytes) (long : (f.span 0).stop ≤ row.length)

include sound array unwrapped long in
theorem length_own_bytes : (f.own row).length = count := by
  rw [f.length_own sound row long, f.extent_unwrapped unwrapped, f.nbytes_bytes signed count array unwrapped]

include sound array unwrapped long in
theorem bytes_kept (raw : Bool) :
    f.decode books row raw none = .ok (.list ((Bytes.items signed (f.own row)).map .int)) ∧
      f.write books row 0 (.list ((Bytes.items signed (f.own row)).map .int)) = .ok row := by
  have unmasked := f.bytes_unmasked sound signed count array
  have builtIn : f.type.isBuiltIn = true := by
    rw [array]
    rfl
  have whole := f.length_own sound row long
  obtain ⟨decoded, encoded⟩ := ArrayType.bytes_back books ⟨.primitive (.int ⟨signed, .byte⟩), count⟩ ⟨signed, .byte⟩ rfl
    rfl raw (f.own row) (f.length_own_bytes sound signed count array unwrapped row long)
  rw [Bytes.items, List.map_map]
  constructor
  · have typed : f.typed books (f.own row) raw none =
        .ok (.list ((f.own row).map fun b => .int (IntType.decode ⟨signed, .byte⟩ [b]))) := by
      rw [← decoded]
      simp only [Field.typed, array]
      rfl
    rw [f.decode_own books sound builtIn row long unwrapped, decode_slice_eq, Attempt.bind_of_ok _ _ _ typed]
    cases raw <;> cases enumerated : f.enumeration <;>
      simp [finish, unmask, unmasked, withName, enumerated, Function.comp_def]
  · have imaged : f.image books (.list ((f.own row).map fun b => .int (IntType.decode ⟨signed, .byte⟩ [b]))) =
        .ok (f.own row) := by
      rw [image_ok_iff]
      refine ⟨?_, none, by simp only [maskBytes, unmasked]⟩
      rw [← encoded]
      cases enumerated : f.enumeration <;>
        simp only [Field.encode, withCode, enumerated, unmasked, array, DataType.encode]
    exact (f.write_splice books sound builtIn row long _ whole unmasked _ imaged).trans
      (congrArg Except.ok (f.splice_own sound row long))

variable (mark : Char) (apart : Cell.Mark mark) (filled : 0 < count)

include sound array unwrapped long apart filled in
-- The cell of zeros alone is empty, as no number stands for them.
theorem bytes_carried (raw : Bool) :
    f.Carries books mark raw (String.singleton mark) row row ∧
      ∀ v, f.decode books row raw none = .ok v →
        (Cell.render f (String.singleton mark) v = "" ↔ 1 < count ∧ ∀ b ∈ f.own row, b = 0) := by
  obtain ⟨decoded, back⟩ := f.bytes_kept books sound signed count array unwrapped row long raw
  have whole := f.length_own_bytes sound signed count array unwrapped row long
  have carried := f.carries_of_shown books mark raw (String.singleton mark) row _ decoded back
  rw [Cell.render_list f _ array] at carried
  cases shows : Cell.literal? ⟨.primitive (.int ⟨signed, .byte⟩), count⟩ (String.singleton mark)
      ((Bytes.items signed (f.own row)).map .int) with
  | some text =>
      obtain ⟨many, held, read, empty⟩ := f.literal_back signed count array mark (f.own row) whole text shows
      obtain ⟨carries, blank⟩ := carried text (by simp only [shows, String.toList_ofList]) held read
      refine ⟨carries, fun v same => (blank v same).trans ?_⟩
      rw [empty]
      exact ⟨fun zeros => ⟨many, zeros⟩, fun zeros => zeros.2⟩
  | none =>
      obtain ⟨plain, read⟩ := f.numerals_back signed count array mark (f.own row) whole apart filled
      obtain ⟨carries, blank⟩ := carried _ (by simp only [shows, Cell.items_text_numbers]) plain.held read
      refine ⟨carries, fun v same => (blank v same).trans ?_⟩
      constructor
      · intro empty
        exact absurd empty plain.filled
      · rintro ⟨many, zeros⟩
        rw [Cell.literal_zeros signed count many mark _ zeros] at shows
        cases shows

end Bytes

-- An array of bytes of any count that its width can say.
def Literal (f : Field) : Prop :=
  ∃ signed count, 0 < count ∧ f.type = .array ⟨.primitive (.int ⟨signed, .byte⟩), count⟩ ∧ ¬ f.type.Wraps

-- More than one byte, which may be shown as text.
def showsText (f : Field) : Bool := f.type.array?.any fun a => a.isBytes && decide (1 < a.count)

theorem textual_shows_numbers (mark : Char) (f : Field) (textual : f.Textual mark) : f.showsText = false := by
  cases textual with
  | number t integer _ _ =>
      rw [showsText, integer]
      rfl
  | numbers signed order size count _ array _ _ =>
      rw [showsText, array]
      rfl

section Columns

variable (books : Books) (f : Field) (sound : f.Sound) (mark : Char) (kind : f.Textual mark ∨ f.Literal)

include kind

theorem built_in_of_column : f.type.isBuiltIn = true := by
  rcases kind with textual | ⟨signed, count, _, array, _⟩
  · exact textual.built_in
  · rw [array]
    rfl

theorem nbytes_pos_of_column : 0 < f.type.nbytes := by
  rcases kind with textual | ⟨signed, count, filled, array, unwrapped⟩
  · exact textual.nbytes_pos
  · rwa [f.nbytes_bytes signed count array unwrapped]

include sound in
theorem column_carries (row : Bytes) (long : (f.span 0).stop ≤ row.length) (apart : Cell.Mark mark) (raw : Bool) :
    f.Carries books mark raw (String.singleton mark) row row ∧
      ∀ v, f.decode books row raw none = .ok v →
        (Cell.render f (String.singleton mark) v = "" ↔ f.showsText = true ∧ ∀ b ∈ f.own row, b = 0) := by
  rcases kind with textual | ⟨signed, count, filled, array, unwrapped⟩
  · obtain ⟨carried, filled⟩ := f.textual_carries books sound row long mark apart textual raw (String.singleton mark)
    refine ⟨carried, ?_⟩
    intro v decoded
    have numbers := f.textual_shows_numbers mark textual
    simp [numbers, filled v decoded]
  · have shows : f.showsText = true ↔ 1 < count := by
      have bytes : ArrayType.isBytes ⟨.primitive (.int ⟨signed, .byte⟩), count⟩ = true := rfl
      simp [showsText, array, DataType.array?, bytes]
    rw [shows]
    exact f.bytes_carried books sound signed count array unwrapped row long mark apart filled raw

end Columns

end Field

namespace TableDefinition

-- A row of one column that may be shown as text, and all of whose bytes are zeros.
def loses (d : TableDefinition) (row : Bytes) : Bool :=
  match d.columns with
  | [f] => f.showsText && row.all (· == 0)
  | _ => false

-- The rows that are not lost.
def keeping (d : TableDefinition) (bytes : Bytes) (count : Nat) : Bytes :=
  ((List.range count).filter fun row => !d.loses (d.chunk bytes row)).flatMap (d.chunk bytes)

theorem loses_iff (d : TableDefinition) (row : Bytes) :
    d.loses row = true ↔ ∃ f, d.columns = [f] ∧ f.showsText = true ∧ ∀ b ∈ row, b = 0 := by
  unfold loses
  match d.columns with
  | [] => simp
  | [f] => simp [List.all_eq_true]
  | _ :: _ :: _ => simp

-- A column that stands alone has all the bytes of its row.
theorem own_of_packed (f : Field) (nbytes : Nat) (sound : f.Sound) (packed : Packed [f] nbytes) (row : Bytes)
    (whole : row.length = nbytes) : f.own row = row := by
  have room := f.near_start sound
  have inside := packed.inside f List.mem_cons_self
  have reach : ∀ byte < nbytes, (f.span 0).start ≤ byte ∧ byte < (f.span 0).start + f.extent := by
    intro byte within
    obtain ⟨g, member, owned⟩ := packed.covered byte within 0 (by decide)
    rw [List.mem_singleton.mp member] at owned
    have bounds := f.owns_bounds 0 byte 0 owned
    exact ⟨bounds.1, bounds.2.1⟩
  by_cases empty : nbytes = 0
  · rw [List.eq_nil_of_length_eq_zero (whole.trans empty)]
    simp [Field.own]
  · have first := reach 0 (by omega)
    have last := reach (nbytes - 1) (by omega)
    have start : (f.span 0).start = 0 := by omega
    rw [Field.own, start, List.drop_zero, List.take_of_length_le (by omega)]

section Bytes

variable (d : TableDefinition) (accepted : d.Accepted) (headerless : d.header = []) (mark : Char)
variable (apart : Cell.Mark mark) (delimiter : d.delimiter = String.singleton mark)
variable (packed : Packed d.columns d.rowBytes) (kinds : ∀ f ∈ d.columns, f.Textual mark ∨ f.Literal)

include headerless in
theorem data_row (row : Nat) : d.rowColumns row = d.columns ∧ d.width row = d.rowBytes := by
  simp [rowColumns, width, headerless]

include accepted packed kinds in
theorem rows_filled : 0 < d.rowBytes :=
  row_filled d.columns d.rowBytes (d.accepted_filled accepted)
    (d.accepted_row accepted d.columns d.rowBytes (.inr ⟨rfl, rfl⟩)).1 packed.inside
    fun f member => f.nbytes_pos_of_column mark (kinds f member)

include accepted headerless apart delimiter packed kinds in
theorem byte_row_returns (books : Books) (raw : Bool) (bytes : Bytes) (row : Nat)
    (inside : d.start (row + 1) ≤ bytes.length) :
    d.RowReturns books (d.chunk bytes) (fun row => !d.loses (d.chunk bytes row)) raw bytes row := by
  obtain ⟨columns, nbytes⟩ := d.data_row headerless row
  have sound := (d.accepted_row accepted d.columns d.rowBytes (.inr ⟨rfl, rfl⟩)).1
  have whole := d.length_chunk bytes row inside
  have carries := fun f (member : f ∈ d.columns) => f.column_carries books (sound f member) mark (kinds f member)
    (d.chunk bytes row) (whole ▸ nbytes.symm ▸ packed.inside f member) apart raw
  rw [← delimiter] at carries
  have own : ∀ f, d.columns = [f] → f.own (d.chunk bytes row) = d.chunk bytes row := by
    intro f one
    exact own_of_packed f d.rowBytes (sound f (one ▸ List.mem_cons_self)) (one ▸ packed) _ (whole.trans nbytes)
  refine d.row_of_carried accepted mark apart delimiter books _ _ raw bytes row inside ?_ ?_ whole ?_ ?_
  · rw [columns]
    exact fun f member => f.built_in_of_column mark (kinds f member)
  · rwa [columns, nbytes]
  · rw [columns]
    exact fun f member => (carries f member).1
  · rw [columns, Bool.not_eq_true', ← Bool.not_eq_true, loses_iff]
    constructor
    · intro held f v one decoded blank
      obtain ⟨shows, zeros⟩ := ((carries f (one ▸ List.mem_cons_self)).2 v decoded).mp blank
      exact held ⟨f, one, shows, own f one ▸ zeros⟩
    · rintro filled ⟨f, one, shows, zeros⟩
      obtain ⟨carried, blank⟩ := carries f (one ▸ List.mem_cons_self)
      obtain ⟨v, _, decoded, _⟩ := carried
      exact filled f v one decoded ((blank v decoded).mpr ⟨shows, (own f one).symm ▸ zeros⟩)

end Bytes

theorem length_flat_map {α : Type} (places : List α) (image : α → Bytes) (width : Nat)
    (each : ∀ place ∈ places, (image place).length = width) : (places.flatMap image).length = places.length * width := by
  induction places with
  | nil => simp
  | cons place rest ih =>
      obtain ⟨own, others⟩ := List.forall_mem_cons.mp each
      rw [List.flatMap_cons, List.length_append, own, ih others, List.length_cons, Nat.succ_mul, Nat.add_comm]

theorem keeping_all_iff (d : TableDefinition) (headerless : d.header = []) (wide : 0 < d.rowBytes) (bytes : Bytes)
    (count : Nat) (whole : bytes.length = count * d.rowBytes) :
    d.keeping bytes count = bytes ↔ ∀ row < count, d.loses (d.chunk bytes row) = false := by
  have start := d.start_without_header headerless
  constructor
  · intro same row before
    apply Bool.eq_false_iff.mpr
    intro lost
    have fewer : ((List.range count).filter fun row => !d.loses (d.chunk bytes row)).length < (List.range count).length :=
      List.length_filter_lt_length_iff_exists.mpr ⟨row, List.mem_range.mpr before, by simp [lost]⟩
    rw [List.length_range] at fewer
    have length := congrArg List.length same
    rw [keeping, length_flat_map _ _ d.rowBytes, whole] at length
    · have less := Nat.mul_lt_mul_of_pos_right fewer wide
      omega
    · intro place member
      have inside := List.mem_range.mp (List.mem_filter.mp member).1
      have reach := d.start_le (place + 1) count inside
      rw [start count, ← whole] at reach
      rw [d.length_chunk bytes place reach, (d.data_row headerless place).2]
  · intro none
    have all : (List.range count).filter (fun row => !d.loses (d.chunk bytes row)) = List.range count := by
      rw [List.filter_eq_self]
      intro row member
      rw [none row (List.mem_range.mp member)]
      rfl
    rw [keeping, all, d.chunks_joined, start, ← whole, List.take_length]

theorem byte_rows_encode_back (d : TableDefinition) (accepted : d.Accepted) (unlimited : d.size = none)
    (headerless : d.header = []) (mark : Char) (apart : Cell.Mark mark) (delimiter : d.delimiter = String.singleton mark)
    (packed : Packed d.columns d.rowBytes) (kinds : ∀ f ∈ d.columns, f.Textual mark ∨ f.Literal) (books : Books)
    (raw : Bool) (bytes : Bytes) (count : Nat) (whole : bytes.length = count * d.rowBytes) :
    ∃ lines : List String, lines.length = count ∧ d.decodeText books raw bytes = (Text.ofLines lines, .ok count) ∧
      d.encode books lines none = .ok (d.keeping bytes count) ∧
      d.encodeText books (Text.ofLines lines) none = .ok (d.keeping bytes count) ∧
      (d.keeping bytes count = bytes ↔ ∀ row < count, d.loses (d.chunk bytes row) = false) := by
  have filled := d.rows_filled accepted mark packed kinds
  have ended : bytes.length = d.start count := by rw [whole, d.start_without_header headerless]
  obtain ⟨lines, counted, decoded, encoded, written⟩ := d.rows_encode_back books (d.chunk bytes)
    (fun row => !d.loses (d.chunk bytes row)) ⟨filled, fun present => absurd headerless present⟩ unlimited raw bytes count
    ended (fun row before => d.byte_row_returns accepted headerless mark apart delimiter packed kinds books raw bytes row
      (ended ▸ d.start_le (row + 1) count before)) fun present => absurd headerless present
  exact ⟨lines, counted, decoded, encoded, written, d.keeping_all_iff headerless filled bytes count whole⟩

def labelColumn (count byte : Nat) : Field :=
  { byteColumn "LABEL" byte with type := .array ⟨.primitive (.int ⟨false, .byte⟩), count⟩ }

-- Four bytes and a number.
def labels : TableDefinition :=
  { name := "LABELS"
    delimiter := "|"
    desc := none
    size := none
    header := []
    columns := [labelColumn 4 0, byteColumn "LEVEL" 4]
    headerBytes := 0
    rowBytes := 5 }

def labelled : Bytes := [0x41, 0x42, 0, 0, 7, 0, 0, 0, 0, 8, 0x41, 0, 0x7c, 0x20, 9]

theorem labels_return :
    ∃ lines, labels.decodeText .none false labelled = (Text.ofLines lines, .ok 3) ∧
      labels.encode .none lines none = .ok labelled ∧
      labels.encodeText .none (Text.ofLines lines) none = .ok labelled := by
  have accepted : labels.Accepted := ⟨.none, [], labels.columns, { labels with delimiter := "," }, rfl, rfl, rfl, rfl, rfl⟩
  have packed : Packed labels.columns labels.rowBytes := packed_of_consecutive _ _ (by decide) ⟨rfl, rfl, rfl⟩
  obtain ⟨lines, _, decoded, encoded, written, all⟩ := byte_rows_encode_back labels accepted rfl rfl '|'
    ⟨by decide, by decide, by decide⟩ rfl packed
    (by
      simp only [labels, List.forall_mem_cons, List.not_mem_nil, false_implies, implies_true, and_true]
      exact ⟨.inr ⟨false, 4, by decide, rfl, by decide⟩, .inl (byte_textual '|' "LEVEL" 4)⟩)
    .none false labelled 3 rfl
  rw [all.mpr (by decide)] at encoded written
  exact ⟨lines, decoded, encoded, written⟩

-- Three bytes and nothing else.
def blobs : TableDefinition :=
  { name := "BLOBS"
    delimiter := ","
    desc := none
    size := none
    header := []
    columns := [labelColumn 3 0]
    headerBytes := 0
    rowBytes := 3 }

theorem blobs_accepted : blobs.Accepted := ⟨.none, [], blobs.columns, blobs, rfl, rfl, rfl, rfl, rfl⟩

theorem zeros_lost :
    blobs.Accepted ∧ blobs.size = none ∧ blobs.header = [] ∧ blobs.delimiter = "," ∧
      (∀ f ∈ blobs.columns, f.Literal) ∧ Consecutive 0 blobs.columns blobs.rowBytes ∧
      ([0, 0, 0] : Bytes).length = 1 * blobs.rowBytes ∧
      blobs.decodeText .none false [0, 0, 0] = ("\n", .ok 1) ∧ blobs.encode .none [""] none = .ok [] ∧
      blobs.encodeText .none "\n" none = .ok [] := by
  have literal : ∀ f ∈ blobs.columns, f.Literal := by
    simp only [blobs, List.forall_mem_cons, List.not_mem_nil, false_implies, implies_true, and_true]
    exact ⟨false, 3, by decide, rfl, by decide⟩
  have first : next .none blobs false (blobs.decoder [0, 0, 0]) =
      some (.ok [.list [.int 0, .int 0, .int 0]], ⟨[], true, false⟩) := rfl
  have last : next .none blobs false ⟨[], true, false⟩ = none := rfl
  have line : blobs.renderRow (blobs.rowColumns 0) [.list [.int 0, .int 0, .int 0]] = "" := by decide +kernel
  refine ⟨blobs_accepted, rfl, rfl, rfl, literal, ⟨rfl, rfl⟩, rfl, ?_, rfl, ?_⟩
  · rw [decodeText, writeLines, first]
    simp only [line]
    rw [writeLines, last]
    rfl
  · have cut : Text.lines "\n" = [""] := by decide +kernel
    rw [encodeText, cut]
    rfl

end TableDefinition

end SpaceLink
