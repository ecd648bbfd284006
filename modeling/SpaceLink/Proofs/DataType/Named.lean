import SpaceLink.Proofs.DataType.Grammar

/-!
The types that names stand for. Before the user adds any, a name stands for a type exactly if it is in the grammar. The
type goes by the name without its blanks, stands for itself under that name, and has the bytes that the name asks for
unless these are too many to be counted in bits.
-/

set_option autoImplicit false

namespace SpaceLink.Registry

theorem built_in_sized : ∀ s ∈ Primitive.fixed.map .primitive ++ codes, 0 < s.nbytes := by
  decide +kernel

theorem scalar_asks (name : String) (s : Scalar) (found : empty.scalar? name = some s) :
    ∃ width, TypeName.Asks name.toList width ∧ 0 < width ∧ (8 * width < 2 ^ 64 → s.nbytes = width) := by
  have listed : ∀ s ∈ Primitive.fixed.map .primitive ++ codes, s.name = name →
      ∃ width, TypeName.Asks name.toList width ∧ 0 < width ∧ (8 * width < 2 ^ 64 → s.nbytes = width) := by
    rintro s member rfl
    exact ⟨s.nbytes, .standard s member, built_in_sized s member, fun _ => rfl⟩
  have same := (scalar_named name s found).1
  rw [scalar_built_in, Option.or_eq_some_iff, Option.or_eq_some_iff] at found
  rcases found with fixed | ⟨-, text | ⟨-, code⟩⟩
  · obtain ⟨p, first, rfl⟩ := Option.map_eq_some_iff.mp fixed
    exact listed _ (List.mem_append_left _ (List.mem_map_of_mem (List.mem_of_find?_eq_some first))) same
  · obtain ⟨p, spelled, rfl⟩ := Option.map_eq_some_iff.mp text
    obtain ⟨numeral, size, split, counts, rfl⟩ := (Primitive.text_iff _ p).mp spelled
    refine ⟨size, split ▸ .text numeral size counts, counts.1.1, fun small => ?_⟩
    change size * 8 % 2 ^ 64 / 8 = size
    omega
  · exact listed _ (List.mem_append_right _ (List.mem_of_find?_eq_some code)) same

theorem scalar_stands (name : String) (s : Scalar) (found : empty.scalar? name = some s) :
    ∃ width, TypeName.Stands name.toList s.name.toList width ∧
      (8 * width < 2 ^ 64 → 0 < s.nbytes ∧ s.nbytes = width) := by
  obtain ⟨width, asked, positive, kept⟩ := scalar_asks name s found
  rw [(scalar_named name s found).1]
  exact ⟨width, .simple _ width asked, fun small => ⟨kept small ▸ positive, kept small⟩⟩

theorem array_stands (name element : List Char) (count : Nat) (s : Scalar)
    (array : TypeName.ArrayOf element count name) (found : empty.scalar? (String.ofList element) = some s) :
    ∃ width, TypeName.Stands name (DataType.array ⟨s, count⟩).name.toList width ∧
      (8 * width < 2 ^ 64 → 0 < (DataType.array ⟨s, count⟩).nbytes ∧ (DataType.array ⟨s, count⟩).nbytes = width) := by
  obtain ⟨width, asked, positive, kept⟩ := scalar_asks _ s found
  have same := (scalar_named _ s found).1
  obtain ⟨_, _, _, _, _, _, bounds, _⟩ := id array
  rw [array_name_chars, same, String.toList_ofList]
  rw [String.toList_ofList] at asked
  refine ⟨count * width, .list name element count width asked array, fun small => ?_⟩
  have least : width ≤ count * width := Nat.le_mul_of_pos_left width bounds.1
  have whole : (DataType.array ⟨s, count⟩).nbytes = count * width := by
    change count * s.nbytes % 2 ^ 64 = count * width
    rw [kept (by omega), Nat.mod_eq_of_lt (by omega)]
  exact ⟨whole ▸ Nat.mul_pos bounds.1 positive, whole⟩

theorem standard_name_iff (text : String) :
    ((∃ t, empty.get text = .ok t) ↔ TypeName.Valid (Text.trim text).toList) ∧
    (¬ TypeName.Valid (Text.trim text).toList →
      ('[' ∈ (Text.trim text).toList → ∃ fault, empty.get text = .error (.arraySpec fault)) ∧
      ('[' ∉ (Text.trim text).toList → empty.get text = .error (.unknownType (Text.trim text)))) ∧
    ∀ t, empty.get text = .ok t →
      (∃ width, TypeName.Stands (Text.trim text).toList t.name.toList width ∧
        (8 * width < 2 ^ 64 → 0 < t.nbytes ∧ t.nbytes = width)) ∧
      empty.get t.name = .ok t ∧ ∀ a, t = .array a → empty.get a.element.name = .ok (.scalar a.element) := by
  rcases get_standard text with ⟨s, found, got⟩ | ⟨element, count, s, array, found, got⟩ | ⟨invalid, refused⟩
  · have simple := (scalar_named _ s found).2
    refine ⟨iff_of_true ⟨_, got⟩ (.inl simple), fun invalid => absurd (.inl simple) invalid, ?_⟩
    intro t same
    rw [got] at same
    cases same
    exact ⟨scalar_stands _ s found, get_simple s _ found, nofun⟩
  · have simple := (scalar_named _ s found).2
    rw [String.toList_ofList] at simple
    have valid : TypeName.Valid (Text.trim text).toList := .inr ⟨element, count, simple, array⟩
    refine ⟨iff_of_true ⟨_, got⟩ valid, fun invalid => absurd valid invalid, ?_⟩
    intro t same
    rw [got] at same
    cases same
    have stands := array_stands _ element count s array found
    obtain ⟨_, _, _, _, _, _, bounds, _⟩ := array
    refine ⟨stands, get_own_array s _ found count bounds, ?_⟩
    intro a same
    cases same
    exact get_simple s _ found
  · have nothing : ∀ t, empty.get text ≠ .ok t := by
      intro t got
      by_cases bracketed : '[' ∈ (Text.trim text).toList
      · obtain ⟨fault, failed⟩ := refused.1 bracketed
        rw [got] at failed
        cases failed
      · have failed := refused.2 bracketed
        rw [got] at failed
        cases failed
    exact ⟨iff_of_false (fun ⟨t, got⟩ => nothing t got) invalid, fun _ => refused, fun t got => absurd got (nothing t)⟩

end SpaceLink.Registry
