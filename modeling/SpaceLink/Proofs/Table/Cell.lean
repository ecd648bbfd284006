import SpaceLink.Proofs.DataType.Items
import SpaceLink.Proofs.Field.Lens
import SpaceLink.Proofs.Number.Digits
import SpaceLink.Proofs.Number.Wide
import SpaceLink.Proofs.Text.Joining
import SpaceLink.Table.Cell

/-!
Columns whose bytes survive as text. A number, the name of one, and a list of numbers are read from their cell as the
value it was made from, and writing that value changes no byte.
-/

set_option autoImplicit false

namespace SpaceLink

namespace Cell

-- A cell is read, and its value is written over the bytes of its column.
def store (books : Books) (f : Field) (buffer : Bytes) (cell : List Char) : Attempt Bytes := do
  f.write books buffer 0 (← read f cell)

-- A delimiter that is no part of any number.
structure Mark (mark : Char) : Prop where
  unblank : Text.isBlank mark = false
  alphanumeric : mark.isAlphanum = false
  sign : mark ≠ '-'

-- A text that comes back from a file of lines.
structure Line (text : List Char) : Prop where
  filled : text ≠ []
  trimmed : Text.trimmed text = text
  oneLine : '\n' ∉ text

-- A text that comes back from a line of cells.
structure Plain (mark : Char) (text : List Char) : Prop extends Line text where
  unmarked : mark ∉ text

-- A text that comes back from a line of cells in which something stands.
structure Held (mark : Char) (text : List Char) : Prop where
  trimmed : Text.trimmed text = text
  oneLine : '\n' ∉ text
  unmarked : mark ∉ text

theorem Plain.held (mark : Char) (text : List Char) (plain : Plain mark text) : Held mark text :=
  ⟨plain.trimmed, plain.oneLine, plain.unmarked⟩

theorem one_line_joined (mark : Char) (other : mark ≠ '\n') (parts : List (List Char))
    (each : ∀ part ∈ parts, '\n' ∉ part) : '\n' ∉ List.intercalate [mark] parts := by
  intro member
  rcases Text.mem_joined mark '\n' parts member with same | ⟨part, own, inPart⟩
  · exact other same.symm
  · exact each part own inPart

theorem line_joined (mark : Char) (other : mark ≠ '\n') (parts : List (List Char)) (some : parts ≠ [])
    (each : ∀ part ∈ parts, Line part) : Line (List.intercalate [mark] parts) := by
  refine ⟨?_, ?_, ?_⟩
  · cases parts with
    | nil => exact absurd rfl some
    | cons part rest => exact Text.joined_filled mark part rest (each part List.mem_cons_self).filled
  · exact Text.trimmed_joined mark parts fun part member => ⟨(each part member).filled, (each part member).trimmed⟩
  · exact one_line_joined mark other parts fun part member => (each part member).oneLine

variable (mark : Char) (apart : Mark mark)

include apart in
theorem mark_no_figure : Numeral.isFigure mark = false := by
  cases figure : Numeral.isFigure mark with
  | false => rfl
  | true =>
      simp only [Numeral.isFigure, Bool.or_eq_true, beq_iff_eq] at figure
      rcases figure with sign | digit
      · exact absurd sign apart.sign
      · have letter := Numeral.digit_alphanumeric 10 mark digit
        rw [apart.alphanumeric] at letter
        cases letter

include apart in
theorem plain_of_figures (text : List Char) (filled : text ≠ []) (figures : ∀ c ∈ text, Numeral.isFigure c = true) :
    Plain mark text := by
  refine ⟨⟨filled, Text.trimmed_of_solid text fun c member => Numeral.figure_unblank c (figures c member), ?_⟩, ?_⟩
  · intro member
    exact absurd (figures '\n' member) (by decide)
  · intro member
    have figure := figures mark member
    rw [mark_no_figure mark apart] at figure
    cases figure

include apart in
theorem plain_words (parts : List (List Char)) (some : parts ≠ []) (each : ∀ part ∈ parts, Plain mark part) :
    Plain mark (List.intercalate [' '] parts) := by
  refine ⟨line_joined ' ' (by decide) parts some fun part member => (each part member).toLine, ?_⟩
  intro member
  rcases Text.mem_joined ' ' mark parts member with same | ⟨part, own, inPart⟩
  · have blank : Text.isBlank ' ' = true := by decide
    rw [← same, apart.unblank] at blank
    cases blank
  · exact (each part own).unmarked inPart

-- Numbers with blanks between them.
def numerals (numbers : List Int) : List Char :=
  List.intercalate [' '] (numbers.map fun n => (Numeral.signed n).toList)

theorem items_text_numbers (numbers : List Int) : (itemsText (numbers.map .int)).toList = numerals numbers := by
  have texts : (numbers.map Value.int).map Value.render = numbers.map Numeral.signed := by
    simp [Value.render]
  simp only [itemsText, texts, String.toList_intercalate, List.map_map]
  rfl

include apart in
theorem plain_numerals (numbers : List Int) (some : numbers ≠ []) : Plain mark (numerals numbers) := by
  apply plain_words mark apart
  · rwa [ne_eq, List.map_eq_nil_iff]
  · intro part member
    obtain ⟨n, _, rfl⟩ := List.mem_map.mp member
    obtain ⟨filled, figures⟩ := Numeral.signed_figures n
    exact plain_of_figures mark apart _ filled figures

end Cell

namespace Field

-- Columns that a line of text holds without loss: numbers, some of them by names that are no numbers themselves, and
-- arrays, which are never empty, of numbers of more than one byte. An array is as wide as it says.
inductive Textual (mark : Char) (f : Field) : Prop
  | number (t : IntType) (integer : f.type = .scalar (.primitive (.int t)))
      (unsigned : f.mask = none ∨ t.signed = false)
      (names : ∀ e, f.enumeration = some e → ∀ entry ∈ e.entries,
        Cell.Plain mark entry.2.toList ∧ Value.ofWord entry.2.toList = .str entry.2)
  | numbers (signed : Bool) (order : ByteOrder) (size : WordSize) (count : Nat) (filled : 0 < count)
      (array : f.type = .array ⟨.primitive (.int ⟨signed, .word order size⟩), count⟩) (unwrapped : ¬ f.type.Wraps)
      (unmasked : f.mask = none)

theorem Textual.built_in (mark : Char) (f : Field) (textual : f.Textual mark) : f.type.isBuiltIn = true := by
  cases textual with
  | number t integer _ _ => exact f.built_in_int t integer
  | numbers signed order size count _ array _ _ =>
      rw [array]
      rfl

theorem Textual.nbytes_pos (mark : Char) (f : Field) (textual : f.Textual mark) : 0 < f.type.nbytes := by
  cases textual with
  | number t integer _ _ =>
      rw [f.nbytes_int t integer]
      exact t.nbytes_bounds.1
  | numbers signed order size count filled array unwrapped _ =>
      rw [f.type.nbytes_unwrapped unwrapped, array]
      exact Nat.mul_pos filled (IntType.nbytes_bounds ⟨signed, .word order size⟩).1

theorem fits_wide (f : Field) (t : IntType) (v : Int) (fits : f.Fits t v) : Wide.fits v = true := by
  apply Wide.fits_of_abs
  cases masked : f.mask with
  | none =>
      simp only [Fits, masked] at fits
      exact t.abs_of_holds v ((t.holds_iff v).mpr fits)
  | some mask =>
      obtain ⟨k, same, _, kept⟩ := f.raised_fits t mask masked v fits
      have bound : (k <<< f.shift) &&& mask.toNat ≤ mask.toNat := Nat.and_le_right
      have wide := mask.toNat_lt
      have grown := Nat.le_mul_of_pos_right k (Nat.two_pow_pos f.shift)
      rw [← Nat.shiftLeft_eq] at grown
      omega

-- A decoded number is shown as it is or by its name.
theorem shown_cases (f : Field) (raw : Bool) (n : Int) :
    (if raw then Value.int n else f.withName (.int n)) = .int n ∨
      ∃ e name, f.enumeration = some e ∧ e.name? n = some name ∧
        (if raw then Value.int n else f.withName (.int n)) = .str name := by
  cases raw with
  | true => exact .inl rfl
  | false =>
      simp only [Bool.false_eq_true, if_false, with_name_int, nameOf?]
      cases enumerated : f.enumeration with
      | none => exact .inl rfl
      | some e =>
          cases named : e.name? n with
          | none => exact .inl (by simp [named])
          | some name => exact .inr ⟨e, name, rfl, named, by simp [named]⟩

section Numbers

variable (f : Field) (t : IntType) (integer : f.type = .scalar (.primitive (.int t)))

include integer in
theorem render_scalar (delimiter : String) (v : Value) : Cell.render f delimiter v = v.render := by
  simp only [Cell.render, integer, DataType.array?]

include integer in
theorem read_scalar (text : List Char) (trimmed : Text.trimmed text = text) :
    Cell.read f text = .ok (Cell.readScalar f text) := by
  simp only [Cell.read, trimmed, integer, DataType.array?, DataType.time?]

variable (words : ∀ e, f.enumeration = some e → ∀ entry ∈ e.entries, Value.ofWord entry.2.toList = .str entry.2)

include integer words in
-- A number is not the name of another one, as such a name would be read as a number.
theorem read_number (n : Int) (fits : Wide.fits n = true) : Cell.read f (Numeral.signed n).toList = .ok (.int n) := by
  obtain ⟨_, figures⟩ := Numeral.signed_figures n
  have own := Value.of_word_signed n fits
  rw [f.read_scalar t integer _ (Text.trimmed_of_solid _ fun c member => Numeral.figure_unblank c (figures c member))]
  have unnamed : (f.enumeration.any fun e => (e.code? (String.ofList (Numeral.signed n).toList)).isSome) = false := by
    cases enumerated : f.enumeration with
    | none => rfl
    | some e =>
        rw [Option.any_some, String.ofList_toList]
        cases found : e.code? (Numeral.signed n) with
        | none => rfl
        | some code =>
            have word := words e enumerated _ (e.entry_of_code code _ found)
            rw [own] at word
            cases word
  simp only [Cell.readScalar, unnamed, own, Bool.false_eq_true, if_false]

include integer in
theorem read_name (e : Enumeration) (enumerated : f.enumeration = some e) (code : Int) (name : String)
    (found : e.name? code = some name) (trimmed : Text.trimmed name.toList = name.toList) :
    Cell.read f name.toList = .ok (.str name) := by
  have coded := (e.name_iff_code code name).mp found
  rw [f.read_scalar t integer _ trimmed]
  simp [Cell.readScalar, enumerated, coded]

end Numbers

theorem render_numbers (f : Field) (a : ArrayType) (array : f.type = .array a) (words : a.isBytes = false)
    (delimiter : String) (numbers : List Int) :
    (Cell.render f delimiter (.list (numbers.map .int))).toList = Cell.numerals numbers := by
  rw [← Cell.items_text_numbers]
  simp only [Cell.render, array, DataType.array?, words, Bool.false_and, Bool.false_eq_true, if_false]

-- Bytes are numbers only if they are as many as the array has.
theorem read_numbers (f : Field) (a : ArrayType) (array : f.type = .array a) (numbers : List Int)
    (counted : numbers.length = a.count ∨ a.isBytes = false) (fits : ∀ n ∈ numbers, Wide.fits n = true)
    (trimmed : Text.trimmed (Cell.numerals numbers) = Cell.numerals numbers) :
    Cell.read f (Cell.numerals numbers) = .ok (.list (numbers.map .int)) := by
  have cut : Text.words (Cell.numerals numbers) = numbers.map fun n => (Numeral.signed n).toList := by
    apply Text.words_joined
    intro part member
    obtain ⟨n, _, rfl⟩ := List.mem_map.mp member
    obtain ⟨filled, figures⟩ := Numeral.signed_figures n
    exact ⟨filled, fun c inText => Numeral.figure_unblank c (figures c inText)⟩
  have items : (numbers.map fun n => (Numeral.signed n).toList).map Value.ofWord = numbers.map Value.int := by
    rw [List.map_map]
    exact List.map_congr_left fun n member => Value.of_word_signed n (fits n member)
  have numeric : (numbers.map Value.int).all (fun v => v.toDouble?.isSome) = true := by
    simp [Value.toDouble?]
  simp only [Cell.read, trimmed, array, DataType.array?, Cell.readArray, cut, items, numeric, List.length_map, and_true]
  rw [if_pos]
  simpa using counted

section Columns

variable (books : Books) (f : Field) (sound : f.Sound) (bytes : Bytes) (long : (f.span 0).stop ≤ bytes.length)

include sound long in
theorem numbers_back (a : ArrayType) (t : IntType) (element : a.element = .primitive (.int t))
    (array : f.type = .array a) (unwrapped : ¬ f.type.Wraps) (unmasked : f.mask = none) (raw : Bool) :
    ∃ numbers : List Int, numbers.length = a.count ∧ (∀ n ∈ numbers, t.holds n = true) ∧
      f.decode books bytes raw none = .ok (.list (numbers.map .int)) ∧
      f.write books bytes 0 (.list (numbers.map .int)) = .ok bytes := by
  have room := f.near_start sound
  have builtIn : f.type.isBuiltIn = true := by
    rw [array]
    simp only [DataType.isBuiltIn, element, Scalar.isBuiltIn]
  have width : f.extent = a.extent := by
    rw [f.extent_type unwrapped, array]
    rfl
  generalize ownEq : (bytes.drop (f.span 0).start).take ((f.span 0).stop - (f.span 0).start) = own
  have whole : a.extent ≤ own.length := by
    rw [← ownEq, List.length_take, List.length_drop]
    omega
  obtain ⟨numbers, length, held, decoded, encoded⟩ := a.decode_back books t element own raw whole
  refine ⟨numbers, length, held, ?_, ?_⟩
  · rw [decode, f.decode_at_of_long books bytes 0 raw none (by omega) long, ownEq, decode_slice_eq]
    have typed : f.typed books own raw none = .ok (.list (numbers.map .int)) := by
      rw [← decoded]
      simp only [Field.typed, array]
      rfl
    rw [Attempt.bind_of_ok _ _ _ typed]
    cases raw <;> cases enumerated : f.enumeration <;> simp [finish, unmask, unmasked, withName, enumerated]
  · have imaged : f.image books (.list (numbers.map .int)) = .ok (own.take a.extent) := by
      rw [image_ok_iff]
      refine ⟨?_, none, by simp only [maskBytes, unmasked]⟩
      rw [← encoded]
      cases enumerated : f.enumeration <;>
        simp only [Field.encode, withCode, enumerated, unmasked, array, DataType.encode]
    apply f.write_unchanged books sound builtIn bytes 0 _ _ room long imaged
    intro byte place covered
    have bounds := f.covers_bounds byte place covered
    rw [← ownEq, Bytes.bit_take _ _ _ _ (by omega), Bytes.bit_take _ _ _ _ (by omega), Bytes.bit_drop]

include sound long in
theorem text_back (mark : Char) (apart : Cell.Mark mark) (textual : f.Textual mark) (raw : Bool) (delimiter : String) :
    ∃ v, f.decode books bytes raw none = .ok v ∧ f.write books bytes 0 v = .ok bytes ∧
      Cell.Plain mark (Cell.render f delimiter v).toList ∧ Cell.read f (Cell.render f delimiter v).toList = .ok v := by
  cases textual with
  | number t integer unsigned names =>
      obtain ⟨u, fits, decoded, back⟩ := f.read_then_write books t sound
        (f.mask_held_of_unsigned t integer sound unsigned) integer 0 (f.near_start sound) bytes long raw none
      refine ⟨_, decoded, back, ?_⟩
      rw [f.render_scalar t integer]
      rcases f.shown_cases raw u with number | ⟨e, name, enumerated, named, text⟩
      · rw [number]
        obtain ⟨filled, figures⟩ := Numeral.signed_figures u
        exact ⟨Cell.plain_of_figures mark apart _ filled figures,
          f.read_number t integer (fun e enumerated entry member => (names e enumerated entry member).2) u
            (f.fits_wide t u fits)⟩
      · rw [text]
        obtain ⟨plain, _⟩ := names e enumerated _ (e.entry_of_name u name named)
        exact ⟨plain, f.read_name t integer e enumerated u name named plain.trimmed⟩
  | numbers signed order size count filled array unwrapped unmasked =>
      obtain ⟨numbers, length, held, decoded, back⟩ :=
        f.numbers_back books sound bytes long _ _ rfl array unwrapped unmasked raw
      have plain := Cell.plain_numerals mark apart numbers (List.ne_nil_of_length_pos (length ▸ filled))
      have fits := fun n member => Wide.fits_of_abs n (IntType.abs_of_holds _ n (held n member))
      refine ⟨_, decoded, back, ?_⟩
      rw [f.render_numbers _ array rfl]
      exact ⟨plain, f.read_numbers _ array numbers (.inr rfl) fits plain.trimmed⟩

-- The value of the cell belongs to the bytes `back` of the column, which are its own bytes where no part of the value
-- is left out of the text.
def Carries (mark : Char) (raw : Bool) (delimiter : String) (row back : Bytes) : Prop :=
  ∃ v w, f.decode books row raw none = .ok v ∧ Cell.Held mark (Cell.render f delimiter v).toList ∧
    Cell.read f (Cell.render f delimiter v).toList = .ok w ∧ f.write books back 0 w = .ok back

-- A text that is shown and read as the same value, and when it is empty.
theorem carries_of_shown (mark : Char) (raw : Bool) (delimiter : String) (row : Bytes) (v : Value)
    (decoded : f.decode books row raw none = .ok v) (back : f.write books row 0 v = .ok row) (text : List Char)
    (shown : (Cell.render f delimiter v).toList = text) (held : Cell.Held mark text) (read : Cell.read f text = .ok v) :
    f.Carries books mark raw delimiter row row ∧
      ∀ v, f.decode books row raw none = .ok v → (Cell.render f delimiter v = "" ↔ text = []) := by
  subst shown
  refine ⟨⟨v, v, decoded, held, read, back⟩, ?_⟩
  intro other same
  rw [decoded] at same
  cases same
  exact String.toList_eq_nil_iff.symm

include sound long in
theorem textual_carries (mark : Char) (apart : Cell.Mark mark) (textual : f.Textual mark) (raw : Bool)
    (delimiter : String) :
    f.Carries books mark raw delimiter bytes bytes ∧
      ∀ v, f.decode books bytes raw none = .ok v → Cell.render f delimiter v ≠ "" := by
  obtain ⟨v, decoded, back, plain, read⟩ := f.text_back books sound bytes long mark apart textual raw delimiter
  obtain ⟨carries, empty⟩ := f.carries_of_shown books mark raw delimiter bytes v decoded back _ rfl plain.held read
  exact ⟨carries, fun other same blank => plain.filled ((empty other same).mp blank)⟩

end Columns

end Field

end SpaceLink
