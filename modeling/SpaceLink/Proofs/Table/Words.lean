import SpaceLink.Proofs.Field.Kept
import SpaceLink.Proofs.Field.Splice
import SpaceLink.Proofs.Table.Bounds
import SpaceLink.Proofs.Table.Cell
import SpaceLink.Proofs.Text.Ascii

/-!
Columns of texts. A cell is a word before it is a text, so a text that spells a number has no place in its own column.
Every other one is stored as it is and comes back.
-/

set_option autoImplicit false

namespace SpaceLink

theorem Value.of_word_cases (word : List Char) :
    (∃ n, Value.ofWord word = .int n) ∨ (∃ x, Value.ofWord word = .float x) ∨
      Value.ofWord word = .str (String.ofList word) := by
  generalize spelled : Value.ofWord word = v
  unfold Value.ofWord at spelled
  extract_lets integer at spelled
  clear_value integer
  cases integer with
  | some n => exact .inl ⟨n, spelled.symm⟩
  | none =>
      cases decimal : Reader.decimal? word with
      | some x =>
          simp only [decimal] at spelled
          exact .inr (.inl ⟨x, spelled.symm⟩)
      | none =>
          simp only [decimal] at spelled
          exact .inr (.inr spelled.symm)

namespace TextType

theorem encode_shown (t : TextType) (cell : List Char) (shown : Text.Shown cell) (short : cell.length ≤ t.size) :
    t.encode (String.ofList cell) = Text.codes cell ++ List.replicate (t.size - cell.length) 0 := by
  have length := Text.length_codes cell
  rw [TextType.encode, Bytes.fit, Text.encode_shown cell shown, length, List.take_of_length_le (by omega)]

theorem decode_shown (t : TextType) (cell : List Char) (shown : Text.Shown cell) (short : cell.length ≤ t.size) :
    TextType.decode (t.encode (String.ofList cell)) = String.ofList cell := by
  apply t.decode_encode
  · rwa [Text.length_shown cell shown]
  · rw [String.toList_ofList]
    intro last
    have bounds := shown.printable _ (List.mem_of_getLast? last)
    exact absurd bounds.1 (by decide)

end TextType

namespace Field

section Texts

variable (books : Books) (f : Field) (t : TextType) (text : f.type = .scalar (.primitive (.text t)))
variable (plain : f.enumeration = none)

include text plain in
theorem read_word (cell : List Char) (shown : Text.Shown cell) : Cell.read f cell = .ok (Value.ofWord cell) := by
  have trimmed := Text.Shown.trimmed cell shown
  simp only [Cell.read, Cell.readScalar, trimmed, text, plain, DataType.array?, DataType.time?, Option.any_none,
    Bool.false_eq_true, if_false]

include text in
-- A number is refused by its kind, whatever the digits are.
theorem image_number_text (v : Value) (unmasked : f.mask = none)
    (number : (∃ n, v = .int n) ∨ ∃ x, v = .float x) :
    f.image books v = .error (.typeMismatch t.name .string (.kind v.kind)) := by
  apply Attempt.bind_of_error
  rcases number with ⟨n, rfl⟩ | ⟨x, rfl⟩
  · simp only [encode, with_code_int, unmasked, text]
    rfl
  · cases enumerated : f.enumeration <;> simp only [encode, withCode, enumerated, unmasked, text] <;> rfl

section Stored

variable (sound : f.Sound) (buffer : Bytes) (long : (f.span 0).stop ≤ buffer.length) (cell : List Char)

include text in
theorem built_in_text : f.type.isBuiltIn = true := by
  rw [text]
  rfl

include text in
theorem extent_text (cell : List Char) : (t.encode (String.ofList cell)).length = f.extent :=
  (t.length_encode _).trans (f.extent_scalar _ text).symm

include sound text plain long in
theorem store_word (shown : Text.Shown cell) (word : Value.ofWord cell = .str (String.ofList cell)) :
    Cell.store books f buffer cell = .ok (f.splice buffer (t.encode (String.ofList cell))) := by
  have written := f.write_splice books sound (f.built_in_text t text) buffer long _ (f.extent_text t text cell)
    (f.text_unmasked t sound text) (.str (String.ofList cell)) (f.image_text books t sound text plain _)
  rw [← word] at written
  exact (Attempt.bind_of_ok _ _ _ (f.read_word t text plain cell shown)).trans written

include sound text long in
theorem stored_word_returns (shown : Text.Shown cell) (short : cell.length ≤ t.size) (raw : Bool) (delimiter : String) :
    ∃ v, f.decode books (f.splice buffer (t.encode (String.ofList cell))) raw none = .ok v ∧
      Cell.render f delimiter v = String.ofList cell := by
  have whole := f.extent_text t text cell
  have within : (f.span 0).stop ≤ (f.splice buffer (t.encode (String.ofList cell))).length := by
    rwa [f.length_splice sound buffer long _ whole]
  refine ⟨.str (String.ofList cell), ?_, ?_⟩
  · rw [f.decode_own books sound (f.built_in_text t text) _ within (text ▸ DataType.scalar_unwrapped _),
      f.own_splice sound buffer long _ whole, f.read_text_image books t sound text _ raw, t.decode_shown cell shown short]
  · simp only [Cell.render, text, DataType.array?]
    rfl

include sound text plain long in
theorem store_number (shown : Text.Shown cell) (other : Value.ofWord cell ≠ .str (String.ofList cell)) :
    Cell.store books f buffer cell = .error (.typeMismatch t.name .string (.kind (Value.ofWord cell).kind)) := by
  have number : (∃ n, Value.ofWord cell = .int n) ∨ ∃ x, Value.ofWord cell = .float x := by
    rcases Value.of_word_cases cell with integer | float | same
    · exact .inl integer
    · exact .inr float
    · exact absurd same other
  have refused := f.image_number_text books t text _ (f.text_unmasked t sound text) number
  exact (Attempt.bind_of_ok _ _ _ (f.read_word t text plain cell shown)).trans
    (f.write_of_fault books buffer 0 _ _ long refused)

end Stored

end Texts

theorem shown_text_stored_iff (known books : Books) (f : Field) (checked : f.check known = .ok ()) (t : TextType)
    (text : f.type = .scalar (.primitive (.text t))) (plain : f.enumeration = none) (buffer : Bytes)
    (long : (f.span 0).stop ≤ buffer.length) (cell : List Char) (shown : Text.Shown cell)
    (short : cell.length ≤ t.size) :
    (Value.ofWord cell = .str (String.ofList cell) →
      Cell.store books f buffer cell =
          .ok (f.splice buffer (Text.codes cell ++ List.replicate (t.size - cell.length) 0)) ∧
        ∀ out, Cell.store books f buffer cell = .ok out → ∀ raw delimiter,
          ∃ v, f.decode books out raw none = .ok v ∧ Cell.render f delimiter v = String.ofList cell) ∧
      (Value.ofWord cell ≠ .str (String.ofList cell) →
        Cell.store books f buffer cell = .error (.typeMismatch t.name .string (.kind (Value.ofWord cell).kind))) := by
  have sound := f.sound_of_check known checked
  constructor
  · intro word
    have stored := f.store_word books t text plain sound buffer long cell shown word
    constructor
    · rw [stored, t.encode_shown cell shown short]
    · intro out same raw delimiter
      rw [stored] at same
      cases same
      exact f.stored_word_returns books t text sound buffer long cell shown short raw delimiter
  · intro other
    exact f.store_number books t text plain sound buffer long cell shown other

def nameColumn : Field :=
  { TableDefinition.byteColumn "NAME" 0 with type := .scalar (.primitive (.text ⟨"8", 8⟩)) }

theorem name_stored :
    Cell.store .none nameColumn (List.replicate 8 0xff) "AB 07".toList = .ok [0x41, 0x42, 0x20, 0x30, 0x37, 0, 0, 0] ∧
      ∃ v, nameColumn.decode .none [0x41, 0x42, 0x20, 0x30, 0x37, 0, 0, 0] false none = .ok v ∧
        Cell.render nameColumn "," v = "AB 07" := by
  obtain ⟨kept, _⟩ := shown_text_stored_iff .none .none nameColumn rfl ⟨"8", 8⟩ rfl rfl (List.replicate 8 0xff)
    (by decide) "AB 07".toList (by decide) (by decide)
  obtain ⟨stored, back⟩ := kept rfl
  exact ⟨stored, back _ stored false ","⟩

theorem digits_refused :
    nameColumn.check .none = .ok () ∧ nameColumn.type = .scalar (.primitive (.text ⟨"8", 8⟩)) ∧
      nameColumn.enumeration = none ∧ "007".toList ≠ [] ∧ Text.Shown "007".toList ∧ "007".toList.length ≤ 8 ∧
      ',' ∉ "007".toList ∧ Cell.read nameColumn "007".toList = .ok (.int 7) ∧
      Cell.store .none nameColumn (List.replicate 8 0) "007".toList = .error (.typeMismatch "S8" .string (.kind .int)) :=
  ⟨rfl, rfl, rfl, by decide, by decide, by decide, by decide, rfl, rfl⟩

end Field

end SpaceLink
