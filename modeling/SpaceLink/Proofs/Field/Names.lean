import SpaceLink.Field.Basic
import SpaceLink.Proofs.Catalog

/-!
Names for numbers. Codes and names of an enumeration find each other, so a number that was given its
name for showing gets its code back for writing.
-/

set_option autoImplicit false

namespace SpaceLink

namespace Enumeration

variable (e : Enumeration) (code : Int) (name : String)

theorem codes_distinct : (e.entries.map Prod.fst).Nodup := by
  rw [List.Nodup, List.pairwise_map]
  exact e.ascending.imp fun {a b} below => Int.ne_of_lt below

theorem entry_of_name (found : e.name? code = some name) : (code, name) ∈ e.entries := by
  obtain ⟨entry, first, named⟩ := Option.map_eq_some_iff.mp found
  have same : entry.1 = code := by simpa using List.find?_some first
  rw [← same, ← named]
  exact List.mem_of_find?_eq_some first

theorem entry_of_code (found : e.code? name = some code) : (code, name) ∈ e.entries := by
  obtain ⟨entry, first, coded⟩ := Option.map_eq_some_iff.mp found
  have same : entry.2 = name := by simpa using List.find?_some first
  rw [← same, ← coded]
  exact List.mem_of_find?_eq_some first

theorem name_of_entry (member : (code, name) ∈ e.entries) : e.name? code = some name := by
  have found := find_of_distinct Prod.fst e.entries (code, name) e.codes_distinct member
  simp only [name?, found, Option.map_some]

theorem code_of_entry (member : (code, name) ∈ e.entries) : e.code? name = some code := by
  have found := find_of_distinct Prod.snd e.entries (code, name) e.distinct member
  simp only [code?, found, Option.map_some]

theorem name_iff_code : e.name? code = some name ↔ e.code? name = some code :=
  ⟨fun found => e.code_of_entry code name (e.entry_of_name code name found),
    fun found => e.name_of_entry code name (e.entry_of_code code name found)⟩

end Enumeration

namespace Field

variable (f : Field)

-- The name of a number among those of the field.
def nameOf? (n : Int) : Option String := f.enumeration.bind fun e => e.name? n

theorem with_name_int (n : Int) :
    f.withName (.int n) = match f.nameOf? n with
      | some name => .str name
      | none => .int n := by
  simp only [withName, nameOf?]
  cases f.enumeration with
  | none => rfl
  | some e => rfl

theorem with_code_int (n : Int) : f.withCode (.int n) = .int n := by
  simp only [withCode]
  cases f.enumeration with
  | none => rfl
  | some e => rfl

theorem with_code_name (e : Enumeration) (name : String) (code : Int) (enumerated : f.enumeration = some e)
    (found : e.code? name = some code) : f.withCode (.str name) = .int code := by
  simp only [withCode, enumerated, found]

theorem with_code_with_name (n : Int) : f.withCode (f.withName (.int n)) = .int n := by
  rw [with_name_int]
  simp only [nameOf?]
  cases enumerated : f.enumeration with
  | none => exact f.with_code_int n
  | some e =>
      cases named : e.name? n with
      | none =>
          simp only [Option.bind_some, named]
          exact f.with_code_int n
      | some name =>
          simp only [Option.bind_some, named]
          exact f.with_code_name e name n enumerated ((e.name_iff_code n name).mp named)

-- The number that an integer field is given for a value: the code of a name, the whole part of a double.
def number? (v : Value) : Option Int := (f.withCode v).toInt?

theorem number_with_name (n : Int) : f.number? (f.withName (.int n)) = some n := by
  rw [number?, with_code_with_name]
  rfl

-- Writing sees a value by its code only.
theorem encode_of_code (books : Books) (v w : Value) (same : f.withCode v = f.withCode w) :
    f.encode books v = f.encode books w := by
  simp only [encode, same]

theorem write_of_code (books : Books) (buffer : Bytes) (offset : Nat) (v w : Value)
    (same : f.withCode v = f.withCode w) : f.write books buffer offset v = f.write books buffer offset w := by
  simp only [write, f.encode_of_code books v w same]

theorem write_name (books : Books) (buffer : Bytes) (offset : Nat) (e : Enumeration) (name : String) (code : Int)
    (enumerated : f.enumeration = some e) (found : e.code? name = some code) :
    f.write books buffer offset (.str name) = f.write books buffer offset (.int code) := by
  apply f.write_of_code
  rw [f.with_code_name e name code enumerated found, f.with_code_int]

end Field

end SpaceLink
