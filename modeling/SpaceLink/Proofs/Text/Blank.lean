import SpaceLink.Text.Blank
import SpaceLink.Text.Letter

/-!
Properties of characters settled code by code. The blanks, one by one, and that none of them can stand in a name. Runs of one
kind, which end at what stands behind them.
-/

set_option autoImplicit false

namespace SpaceLink

theorem in_code_set_cons (boundary : Nat) (boundaries : List Nat) (c : Char) :
    inCodeSet (boundary :: boundaries) c = (decide (boundary ≤ c.toNat) && !inCodeSet boundaries c) := by
  by_cases reached : boundary ≤ c.toNat
  · simp only [inCodeSet, List.takeWhile_cons, reached, decide_true, if_true, List.length_cons, Bool.true_and]
    rw [Bool.eq_iff_iff]
    simp only [beq_iff_eq, Bool.not_eq_true', beq_eq_false_iff_ne]
    omega
  · simp [inCodeSet, reached]

theorem in_code_set_nil (c : Char) : inCodeSet [] c = false := rfl

namespace Text

-- A property of finitely many codes, which is decided code by code.
theorem of_code (codes : List Nat) (holds : Char → Bool) (each : ∀ code ∈ codes, holds (Char.ofNat code) = true) (c : Char)
    (member : c.toNat ∈ codes) : holds c = true := by
  have known := each c.toNat member
  rwa [Char.ofNat_toNat] at known

theorem ne_of_holds (holds : Char → Bool) (c other : Char) (own : holds c = true) (outside : holds other = false) :
    c ≠ other := by
  rintro rfl
  simp [own] at outside

def blankCodes : List Nat :=
  [9, 10, 11, 12, 13, 32, 133, 160, 5760, 8192, 8193, 8194, 8195, 8196, 8197, 8198, 8199, 8200, 8201, 8202, 8232, 8233,
    8239, 8287, 12288]

theorem code_of_blank (c : Char) (blank : isBlank c = true) : c.toNat ∈ blankCodes := by
  simp only [isBlank, blanks, in_code_set_cons, in_code_set_nil, Bool.and_eq_true, decide_eq_true_eq, Bool.not_eq_true',
    Bool.and_eq_false_iff, decide_eq_false_iff_not, Bool.not_eq_false', Bool.not_false, Bool.true_eq_false, or_false] at blank
  simp only [blankCodes, List.mem_cons, List.not_mem_nil]
  generalize c.toNat = code at blank ⊢
  omega

theorem of_blank (holds : Char → Bool) (each : ∀ code ∈ blankCodes, holds (Char.ofNat code) = true) (c : Char)
    (blank : isBlank c = true) : holds c = true := of_code blankCodes holds each c (code_of_blank c blank)

theorem blank_not_in_name (c : Char) (blank : isBlank c = true) : continuesName c = false := by
  have outside := of_blank (fun c => !continuesName c) (by decide +kernel) c blank
  simpa using outside

section Runs

variable {α : Type} (part : α → Bool) (own rest : List α) (ends : ∀ a ∈ rest.head?, part a = false)

include ends

theorem run_over (each : ∀ a ∈ own, part a = true) :
    (own ++ rest).takeWhile part = own ∧ (own ++ rest).dropWhile part = rest := by
  have stop : rest.takeWhile part = [] ∧ rest.dropWhile part = rest := by
    cases rest with
    | nil => exact ⟨rfl, rfl⟩
    | cons a rest => simp [ends a rfl]
  rw [List.takeWhile_append_of_pos each, List.dropWhile_append_of_pos each, stop.1, stop.2, List.append_nil]
  exact ⟨rfl, rfl⟩

theorem head_over (first : ∀ a ∈ own.head?, part a = false) : ∀ a ∈ (own ++ rest).head?, part a = false := by
  cases own with
  | nil => exact ends
  | cons a more => exact first

end Runs

end Text

end SpaceLink
