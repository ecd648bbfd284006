import SpaceLink.Ccsds.Header
import SpaceLink.Proofs.Catalog
import SpaceLink.Proofs.Field.Check

/-!
What is known of the fields of a packet definition: each passed its check and has a name of its own, so
its name finds it.
-/

set_option autoImplicit false

namespace SpaceLink

namespace PacketDefinition

-- A definition made of fields. What it is given later, such as constants or a history, leaves them alone.
def Accepted (d : PacketDefinition) : Prop :=
  ∃ books fields made, ofFields books d.name fields = .ok made ∧ d.fields = made.fields

theorem fields_listed (books : Books) (packet : String) (seen : List String) (fields : List Field)
    (passed : checkFields books packet seen fields = .ok ()) : Field.Listed books seen fields := by
  induction fields generalizing seen with
  | nil => exact .nil seen
  | cons f rest ih =>
      simp only [checkFields] at passed
      by_cases taken : reserved.contains f.name = true
      · rw [if_pos taken] at passed
        cases passed
      · rw [if_neg taken] at passed
        obtain ⟨⟨⟩, checked, others⟩ := (Attempt.bind_ok_iff _ _ _).mp passed
        by_cases repeated : seen.contains f.name = true
        · rw [if_pos repeated] at others
          cases others
        · rw [if_neg repeated] at others
          exact .cons seen f rest checked (by simpa using repeated) (ih (f.name :: seen) others)

theorem accepted_fields (d : PacketDefinition) (accepted : d.Accepted) :
    (∃ books, ∀ f ∈ d.fields, f.check books = .ok ()) ∧ (d.fields.map Field.name).Nodup := by
  obtain ⟨books, fields, made, done, same⟩ := accepted
  obtain ⟨⟨⟩, passed, built⟩ := (Attempt.bind_ok_iff _ _ _).mp done
  cases built
  obtain ⟨checked, distinct, _⟩ := Field.listed_members books _ _ (fields_listed books _ _ _ passed)
  exact ⟨⟨books, same ▸ checked⟩, same ▸ distinct⟩

theorem accepted_sound (d : PacketDefinition) (accepted : d.Accepted) (f : Field) (member : f ∈ d.fields) : f.Sound := by
  obtain ⟨⟨books, checked⟩, _⟩ := d.accepted_fields accepted
  exact f.sound_of_check books (checked f member)

theorem accepted_field (d : PacketDefinition) (accepted : d.Accepted) (f : Field) (member : f ∈ d.fields) :
    d.field f.name = .ok f := by
  have found := find_of_distinct Field.name d.fields f (d.accepted_fields accepted).2 member
  simp only [field, field?, found]

theorem field_member (d : PacketDefinition) (name : String) (f : Field) (found : d.field name = .ok f) : f ∈ d.fields := by
  simp only [field] at found
  cases search : d.field? name with
  | none => simp [search] at found
  | some g =>
      simp only [search] at found
      cases found
      exact List.mem_of_find?_eq_some search

end PacketDefinition

theorem Ccsds.header_accepted : Ccsds.header.Accepted := ⟨.none, Ccsds.fields, Ccsds.header, rfl, rfl⟩

end SpaceLink
