import SpaceLink.Proofs.Text.Joining
import SpaceLink.Proofs.Text.Utf8

/-!
Texts of printable characters, those from the space to the tilde. A character is one byte, and of the blanks only the
space is one of them.
-/

set_option autoImplicit false

namespace SpaceLink.Text

-- Printable, with no space at either end.
structure Shown (text : List Char) : Prop where
  printable : ∀ c ∈ text, 0x20 ≤ c.toNat ∧ c.toNat ≤ 0x7e
  first : text.head? ≠ some ' '
  last : text.getLast? ≠ some ' '

instance (text : List Char) : Decidable (Shown text) :=
  haveI : Decidable (∀ c ∈ text, 0x20 ≤ c.toNat ∧ c.toNat ≤ 0x7e) := List.decidableBAll _ text
  decidable_of_iff ((∀ c ∈ text, 0x20 ≤ c.toNat ∧ c.toNat ≤ 0x7e) ∧ text.head? ≠ some ' ' ∧ text.getLast? ≠ some ' ')
    ⟨fun ⟨printable, first, last⟩ => ⟨printable, first, last⟩, fun ⟨printable, first, last⟩ => ⟨printable, first, last⟩⟩

-- The bytes of printable characters.
def codes (text : List Char) : Bytes := text.map fun c => UInt8.ofNat c.toNat

theorem code_of_printable (code : Nat) (printable : code ≤ 0x7e) : (Char.ofNat code).toNat = code := by
  have valid : code.isValidChar := .inl (by omega)
  rw [Char.ofNat, dif_pos valid]
  rfl

theorem space_of_blank (c : Char) (printable : c.toNat ≤ 0x7e) (low : 0x20 ≤ c.toNat) (blank : isBlank c = true) :
    c = ' ' := by
  have code := code_of_blank c blank
  simp only [blankCodes, List.mem_cons, List.not_mem_nil, or_false] at code
  have same : c.toNat = 0x20 := by omega
  rw [← Char.ofNat_toNat c, same]

theorem Shown.trimmed (text : List Char) (shown : Shown text) : trimmed text = text := by
  have solid : ∀ c ∈ text, c ≠ ' ' → isBlank c = false := by
    intro c member other
    obtain ⟨low, high⟩ := shown.printable c member
    cases blank : isBlank c with
    | false => rfl
    | true => exact absurd (space_of_blank c high low blank) other
  apply (trimmed_iff text).mpr
  constructor
  · rintro c first
    apply solid c (List.mem_of_mem_head? first)
    rintro rfl
    exact shown.first first
  · rintro c last
    apply solid c (List.mem_of_mem_getLast? last)
    rintro rfl
    exact shown.last last

theorem Shown.one_line (text : List Char) (shown : Shown text) : '\n' ∉ text := by
  intro member
  have bounds := shown.printable '\n' member
  exact absurd bounds.1 (by decide)

theorem length_codes (text : List Char) : (codes text).length = text.length := List.length_map _

theorem encode_shown (text : List Char) (shown : Shown text) : Utf8.encode (String.ofList text) = codes text := by
  have each : ∀ c ∈ text, String.utf8EncodeChar c = [UInt8.ofNat c.toNat] := by
    intro c member
    have code := (shown.printable c member).2
    have one : c.val.toNat ≤ 0x7f := Nat.le_trans code (by decide)
    simp only [String.utf8EncodeChar, if_pos one]
    rfl
  rw [Utf8.encode, String.toList_ofList, codes, List.flatMap_def, List.map_congr_left each, ← List.flatMap_def,
    List.map_eq_flatMap]

theorem length_shown (text : List Char) (shown : Shown text) : Utf8.length (String.ofList text) = text.length := by
  rw [← Utf8.length_encode, encode_shown text shown, length_codes]

end SpaceLink.Text
