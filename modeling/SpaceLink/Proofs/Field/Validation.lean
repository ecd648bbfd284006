import SpaceLink.Proofs.Field.Names

/-!
What is known of a value that passes the check of its field: a number, or the code of a name, is in the
range of its type, and a text is a text.
-/

set_option autoImplicit false

namespace SpaceLink

namespace Verdict

theorem valid_also (v : Verdict) (check : List String → Verdict) :
    (v.also check).valid = true ↔ v.valid = true ∧ (check v.messages).valid = true := by
  simp [also]

theorem valid_of_test (passed : Bool) (message : String) (log : List String) :
    (if passed then Verdict.pass log else .fail message log).valid = passed := by
  cases passed with
  | true => rfl
  | false => rfl

end Verdict

namespace Primitive

theorem valid_number (t : IntType) (v : Value) (name : Option String) (log : List String)
    (valid : ((Primitive.int t).validate v name log).valid = true) : ∃ n, v.toInt? = some n ∧ t.holds n = true := by
  simp only [validate, validateNumber] at valid
  cases v with
  | int n =>
      rw [Value.toInt?, Option.all_some, Verdict.valid_of_test] at valid
      exact ⟨n, rfl, valid⟩
  | bool b =>
      rw [Value.toInt?, Option.all_some, Verdict.valid_of_test] at valid
      exact ⟨_, rfl, valid⟩
  | _ => cases valid

theorem valid_text (t : TextType) (v : Value) (name : Option String) (log : List String)
    (valid : ((Primitive.text t).validate v name log).valid = true) : ∃ s, v = .str s := by
  cases v with
  | str s => exact ⟨s, rfl⟩
  | _ => cases valid

end Primitive

namespace Field

variable (f : Field) (v : Value) (log : List String)

-- The type is asked about the code of an enumerated field, and about the value itself elsewhere.
theorem valid_type (valid : (f.validate v log).valid = true) :
    (f.enumeration = none ∧ (f.type.validate v (some f.name) log).valid = true) ∨
      ∃ e n, f.enumeration = some e ∧ enumerated? e v = some n ∧
        (f.type.validate (.int n) (some f.name) log).valid = true := by
  simp only [validate] at valid
  have typed := ((Verdict.valid_also _ _).mp valid).1
  simp only [validateType] at typed
  cases enumerated : f.enumeration with
  | none =>
      simp only [enumerated] at typed
      exact .inl ⟨rfl, typed⟩
  | some e =>
      refine .inr ⟨e, ?_⟩
      simp only [enumerated, Option.map_some] at typed
      cases found : enumerated? e v with
      | none =>
          simp only [found] at typed
          cases typed
      | some n =>
          simp only [found] at typed
          exact ⟨n, rfl, rfl, typed⟩

theorem number_of_enumerated (e : Enumeration) (n : Int) (enumerated : f.enumeration = some e)
    (found : enumerated? e v = some n) : f.number? v = some n := by
  simp only [number?]
  cases v with
  | str name =>
      rw [f.with_code_name e name n enumerated found]
      rfl
  | _ =>
      simp only [enumerated?] at found
      simp only [withCode, enumerated]
      exact (Option.filter_eq_some_iff.mp found).1

theorem valid_number (t : IntType) (integer : f.type = .scalar (.primitive (.int t)))
    (valid : (f.validate v log).valid = true) : ∃ n, f.number? v = some n ∧ t.holds n = true := by
  rcases f.valid_type v log valid with ⟨plain, typed⟩ | ⟨e, n, enumerated, found, typed⟩
  · rw [integer] at typed
    obtain ⟨n, number, held⟩ := Primitive.valid_number t v _ log typed
    refine ⟨n, ?_, held⟩
    simp only [number?, withCode, plain]
    exact number
  · rw [integer] at typed
    obtain ⟨m, number, held⟩ := Primitive.valid_number t _ _ log typed
    cases number
    exact ⟨n, f.number_of_enumerated v e n enumerated found, held⟩

-- A code is not a text, so a text with names for codes is never valid.
theorem valid_text (t : TextType) (text : f.type = .scalar (.primitive (.text t)))
    (valid : (f.validate v log).valid = true) : f.enumeration = none ∧ ∃ s, v = .str s := by
  rcases f.valid_type v log valid with ⟨plain, typed⟩ | ⟨e, n, enumerated, found, typed⟩
  · rw [text] at typed
    exact ⟨plain, Primitive.valid_text t v _ log typed⟩
  · rw [text] at typed
    obtain ⟨s, same⟩ := Primitive.valid_text t _ _ log typed
    cases same

end Field

end SpaceLink
