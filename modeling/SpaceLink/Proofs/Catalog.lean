import SpaceLink.Catalog

/-!
Searching by a key that no two entries share finds the entry that has it. An entry is added behind the
others exactly if its keys are free.
-/

set_option autoImplicit false

namespace SpaceLink

theorem find_of_distinct {α β : Type} [BEq β] [LawfulBEq β] (key : α → β) (entries : List α) (a : α)
    (distinct : (entries.map key).Nodup) (member : a ∈ entries) :
    entries.find? (fun b => key b == key a) = some a := by
  induction entries with
  | nil => cases member
  | cons first rest ih =>
      rw [List.map_cons, List.nodup_cons] at distinct
      rcases List.mem_cons.mp member with same | later
      · subst same
        simp
      · have different : (key first == key a) = false := by
          apply beq_false_of_ne
          intro same
          exact distinct.1 (same ▸ List.mem_map_of_mem later)
        rw [List.find?_cons, different]
        exact ih distinct.2 later

theorem find_key_iff {α β : Type} [BEq β] [LawfulBEq β] (key : α → β) (entries : List α)
    (distinct : (entries.map key).Nodup) (k : β) (a : α) :
    entries.find? (fun b => key b == k) = some a ↔ a ∈ entries ∧ key a = k := by
  constructor
  · intro found
    exact ⟨List.mem_of_find?_eq_some found, by simpa using List.find?_some found⟩
  · rintro ⟨member, rfl⟩
    exact find_of_distinct key entries a distinct member

-- A new key is found at the end, and the search for any other is as before.
theorem find_key_append {α β : Type} [BEq β] [LawfulBEq β] (key : α → β) (entries : List α) (a : α)
    (free : ∀ b ∈ entries, key b ≠ key a) (k : β) :
    (entries ++ [a]).find? (fun b => key b == k) = if key a == k then some a else entries.find? (fun b => key b == k) := by
  rw [List.find?_append, List.find?_singleton]
  by_cases same : (key a == k) = true
  · have absent : entries.find? (fun b => key b == k) = none := by
      rw [List.find?_eq_none]
      intro b member found
      exact free b member ((eq_of_beq found).trans (eq_of_beq same).symm)
    rw [if_pos same, if_pos same, absent, Option.none_or]
  · rw [if_neg same, if_neg same, Option.or_none]

namespace Listing

variable {α : Type} {name : α → String} (l : Listing α name)

theorem of_name_iff (n : String) (a : α) : l.ofName? n = some a ↔ a ∈ l.entries ∧ name a = n :=
  find_key_iff name l.entries l.names n a

theorem add_none_iff (a : α) : l.add? a = none ↔ ∃ b, l.ofName? (name a) = some b := by
  simp only [l.of_name_iff, add?]
  by_cases free : ∀ b ∈ l.entries, name b ≠ name a
  · rw [dif_pos free]
    simpa using free
  · rw [dif_neg free]
    simpa using free

theorem free_of_add (more : Listing α name) (a : α) (added : l.add? a = some more) :
    (∀ b ∈ l.entries, name b ≠ name a) ∧ more.entries = l.entries ++ [a] := by
  simp only [add?] at added
  by_cases free : ∀ b ∈ l.entries, name b ≠ name a
  · rw [dif_pos free] at added
    cases added
    exact ⟨free, rfl⟩
  · rw [dif_neg free] at added
    cases added

theorem entries_of_add (more : Listing α name) (a : α) (added : l.add? a = some more) :
    more.entries = l.entries ++ [a] := (l.free_of_add more a added).2

end Listing

namespace Catalog

variable {α : Type} {name : α → String} {number : α → UInt16} (c : Catalog α name number)

theorem of_name_iff (n : String) (a : α) : c.ofName? n = some a ↔ a ∈ c.entries ∧ name a = n :=
  find_key_iff name c.entries c.names n a

theorem of_number_iff (n : UInt16) (a : α) : c.ofNumber? n = some a ↔ a ∈ c.entries ∧ number a = n :=
  find_key_iff number c.entries c.numbers n a

theorem add_none_iff (a : α) :
    c.add? a = none ↔ (∃ b, c.ofName? (name a) = some b) ∨ ∃ b, c.ofNumber? (number a) = some b := by
  simp only [c.of_name_iff, c.of_number_iff, add?, ← exists_or, ← and_or_left]
  by_cases free : ∀ b ∈ c.entries, name b ≠ name a ∧ number b ≠ number a
  · rw [dif_pos free]
    simpa using free
  · rw [dif_neg free]
    simpa [Decidable.or_iff_not_imp_left] using free

theorem free_of_add (more : Catalog α name number) (a : α) (added : c.add? a = some more) :
    (∀ b ∈ c.entries, name b ≠ name a ∧ number b ≠ number a) ∧ more.entries = c.entries ++ [a] := by
  simp only [add?] at added
  by_cases free : ∀ b ∈ c.entries, name b ≠ name a ∧ number b ≠ number a
  · rw [dif_pos free] at added
    cases added
    exact ⟨free, rfl⟩
  · rw [dif_neg free] at added
    cases added

theorem entries_of_add (more : Catalog α name number) (a : α) (added : c.add? a = some more) :
    more.entries = c.entries ++ [a] := (c.free_of_add more a added).2

end Catalog

end SpaceLink
