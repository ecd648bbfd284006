import SpaceLink.DataType.Registry
import SpaceLink.Proofs.Attempt
import SpaceLink.Proofs.Number.Digits
import SpaceLink.Proofs.Text.Joining

/-!
The names of types. A name is one of a fixed list, or it is a letter with a count of bytes, or it is one of these with
a count in brackets. What is built in is found by its own name, which is also the one that a type gives.
-/

set_option autoImplicit false

namespace SpaceLink

namespace TypeName

def standard : List String :=
  ["I8", "U8", "LSB_I16", "MSB_I16", "LSB_U16", "MSB_U16", "LSB_I32", "MSB_I32", "LSB_U32", "MSB_U32", "LSB_I64",
    "MSB_I64", "LSB_U64", "MSB_U64", "LSB_F32", "MSB_F32", "LSB_D64", "MSB_D64", "CMD16", "EVR16", "TIME8", "TIME32",
    "TIME40", "TIME64"]

-- A positive number below a bound, which may carry a plus sign.
def Counts (bound : Nat) (text : List Char) (n : Nat) : Prop :=
  (0 < n ∧ n < bound) ∧ ∃ numeral, Numeral.Denotes 10 numeral n ∧ (text = numeral ∨ text = '+' :: numeral)

inductive Simple : List Char → Prop
  | standard (name : String) (member : name ∈ standard) : Simple name.toList
  | text (numeral : List Char) (size : Nat) (counts : Counts (2 ^ 64) numeral size) : Simple ('S' :: numeral)

-- `count` elements of the type with a name.
def ArrayOf (element : List Char) (count : Nat) (name : List Char) : Prop :=
  ∃ before inside, name = before ++ '[' :: (inside ++ [']']) ∧ before ≠ [] ∧ '[' ∉ before ∧
    Text.trimmed before = element ∧ Counts (2 ^ 63) (Text.trimmed inside) count

def Valid (name : List Char) : Prop := Simple name ∨ ∃ element count, Simple element ∧ ArrayOf element count name

-- The bytes that a name asks for.
inductive Asks : List Char → Nat → Prop
  | standard (s : Scalar) (member : s ∈ Primitive.fixed.map .primitive ++ Registry.codes) : Asks s.name.toList s.nbytes
  | text (numeral : List Char) (size : Nat) (counts : Counts (2 ^ 64) numeral size) : Asks ('S' :: numeral) size

-- What a name stands for: a type that goes by a name, without blanks and with the plain count, and the bytes it asks for.
inductive Stands : List Char → List Char → Nat → Prop
  | simple (name : List Char) (width : Nat) (asked : Asks name width) : Stands name name width
  | list (name element : List Char) (count width : Nat) (asked : Asks element width) (array : ArrayOf element count name) :
      Stands name (element ++ '[' :: ((Numeral.decimal count).toList ++ [']'])) (count * width)

theorem counts_iff (bound : Nat) (text : List Char) (n : Nat) :
    Counts bound text n ↔ (0 < n ∧ n < bound) ∧ Numeral.unsigned? 10 text = some n :=
  and_congr_right fun _ => (Numeral.unsigned_iff text n).symm

theorem standard_eq : standard = Primitive.fixed.map Primitive.name ++ Registry.codes.map Scalar.name := by
  decide +kernel

-- A character that stands in a count.
def isCount (c : Char) : Bool := c == '+' || (Numeral.digitValue? 10 c).isSome

theorem count_unblank (c : Char) (count : isCount c = true) : Text.isBlank c = false := by
  simp only [isCount, Bool.or_eq_true, beq_iff_eq] at count
  rcases count with rfl | digit
  · decide
  · exact Numeral.figure_unblank c (by simp [Numeral.isFigure, digit])

theorem counts_plain (bound : Nat) (text : List Char) (n : Nat) (counts : Counts bound text n) :
    ∀ c ∈ text, isCount c = true := by
  obtain ⟨-, numeral, denotes, spelled⟩ := counts
  have digits := (Numeral.natural_parts 10 n numeral (Numeral.natural_of_denotes 10 numeral n denotes)).2
  have plain : ∀ c ∈ numeral, isCount c = true := fun c member => by simp [isCount, digits c member]
  rcases spelled with rfl | rfl
  · exact plain
  · exact List.forall_mem_cons.mpr ⟨rfl, plain⟩

theorem counts_close (inside : List Char) (n : Nat) (counts : Counts (2 ^ 63) (Text.trimmed inside) n) : ']' ∉ inside := by
  intro member
  have count := counts_plain _ _ _ counts ']' (Text.mem_trimmed inside ']' member (by decide))
  cases count

theorem simple_filled (name : List Char) (simple : Simple name) : name ≠ [] := by
  cases simple with
  | standard name member =>
      have each : ∀ name ∈ standard, name.toList ≠ [] := by decide +kernel
      exact each name member
  | text numeral size counts => exact List.cons_ne_nil _ _

theorem simple_plain (name : List Char) (simple : Simple name) : ∀ c ∈ name, Text.isBlank c = false ∧ c ≠ '[' := by
  cases simple with
  | standard name member =>
      have each : ∀ name ∈ standard, name.toList.all (fun c => !Text.isBlank c && c != '[') = true := by decide +kernel
      intro c inside
      simpa using List.all_eq_true.mp (each name member) c inside
  | text numeral size counts =>
      refine List.forall_mem_cons.mpr ⟨by decide, fun c member => ?_⟩
      have count := counts_plain _ _ _ counts c member
      exact ⟨count_unblank c count, Text.ne_of_holds isCount c '[' count (by decide)⟩

end TypeName

namespace Primitive

theorem text_iff (name : List Char) (p : Primitive) :
    text? name = some p ↔
      ∃ numeral size, name = 'S' :: numeral ∧ TypeName.Counts (2 ^ 64) numeral size ∧
        p = .text ⟨String.ofList numeral, size * 8 % 2 ^ 64 / 8⟩ := by
  constructor
  · intro found
    unfold text? at found
    split at found
    · obtain ⟨size, counted, sized⟩ := Option.bind_eq_some_iff.mp found
      by_cases inside : 0 < size ∧ size < 2 ^ 64
      · rw [if_pos inside] at sized
        cases sized
        exact ⟨_, size, rfl, (TypeName.counts_iff _ _ _).mpr ⟨inside, counted⟩, rfl⟩
      · rw [if_neg inside] at sized
        cases sized
    · cases found
  · rintro ⟨numeral, size, rfl, counts, rfl⟩
    obtain ⟨inside, counted⟩ := (TypeName.counts_iff _ _ _).mp counts
    simp only [text?, counted, Option.bind_eq_bind, Option.bind_some]
    exact if_pos inside

end Primitive

namespace Registry

variable (r : Registry)

-- What is built in is found before what the user has added.
theorem scalar_split (name : String) :
    r.scalar? name = (empty.scalar? name).or ((r.custom.find? fun c => c.name == name).map .custom) := by
  simp only [scalar?]
  cases Primitive.ofName? name with
  | some p => rfl
  | none =>
      dsimp only
      cases codes.find? fun s => s.name == name <;> rfl

theorem scalar_built_in (name : String) :
    empty.scalar? name = ((Primitive.fixed.find? fun p => p.name == name).map .primitive).or
      (((Primitive.text? name.toList).map .primitive).or (codes.find? fun s => s.name == name)) := by
  simp only [scalar?, Primitive.ofName?]
  cases Primitive.fixed.find? fun p => p.name == name with
  | some p => rfl
  | none =>
      dsimp only
      cases Primitive.text? name.toList with
      | some p => rfl
      | none =>
          dsimp only
          cases codes.find? fun s => s.name == name <;> rfl

theorem scalar_named (name : String) (s : Scalar) (found : empty.scalar? name = some s) :
    s.name = name ∧ TypeName.Simple name.toList := by
  have listed : ∀ n ∈ Primitive.fixed.map Primitive.name ++ codes.map Scalar.name, TypeName.Simple n.toList :=
    fun n member => .standard n (TypeName.standard_eq ▸ member)
  rw [scalar_built_in, Option.or_eq_some_iff, Option.or_eq_some_iff] at found
  rcases found with fixed | ⟨-, text | ⟨-, code⟩⟩
  · obtain ⟨p, first, rfl⟩ := Option.map_eq_some_iff.mp fixed
    have same : p.name = name := by simpa using List.find?_some first
    refine ⟨same, listed name (List.mem_append_left _ ?_)⟩
    exact List.mem_map.mpr ⟨p, List.mem_of_find?_eq_some first, same⟩
  · obtain ⟨p, spelled, rfl⟩ := Option.map_eq_some_iff.mp text
    obtain ⟨numeral, size, split, counts, rfl⟩ := (Primitive.text_iff _ p).mp spelled
    refine ⟨?_, split ▸ .text numeral size counts⟩
    rw [← String.toList_inj, split]
    simp [Scalar.name, Primitive.name, TextType.name]
  · have same : s.name = name := by simpa using List.find?_some code
    refine ⟨same, listed name (List.mem_append_right _ ?_)⟩
    exact List.mem_map.mpr ⟨s, List.mem_of_find?_eq_some code, same⟩

theorem scalar_of_simple (name : String) (simple : TypeName.Simple name.toList) : ∃ s, empty.scalar? name = some s := by
  rw [← Option.ne_none_iff_exists', ne_eq, scalar_built_in, Option.or_eq_none_iff, Option.or_eq_none_iff]
  simp only [Option.map_eq_none_iff, List.find?_eq_none, beq_iff_eq]
  rintro ⟨unfixed, untexted, uncoded⟩
  generalize spelled : name.toList = chars at simple
  cases simple with
  | standard other member =>
      rw [String.toList_inj] at spelled
      subst spelled
      rw [TypeName.standard_eq, List.mem_append, List.mem_map, List.mem_map] at member
      rcases member with ⟨p, inFixed, same⟩ | ⟨s, inCodes, same⟩
      · exact unfixed p inFixed same
      · exact uncoded s inCodes same
  | text numeral size counts =>
      rw [(Primitive.text_iff _ _).mpr ⟨numeral, size, spelled, counts, rfl⟩] at untexted
      cases untexted

-- A name that is not one of the list is that of a text.
theorem scalar_of_text (name : String) (unlisted : name ∉ TypeName.standard) (simple : TypeName.Simple name.toList) :
    ∃ t : TextType, t.name = name ∧ empty.scalar? name = some (.primitive (.text t)) := by
  generalize spelled : name.toList = chars at simple
  cases simple with
  | standard other member => exact absurd (String.toList_inj.mp spelled ▸ member) unlisted
  | text numeral size counts =>
      have unfixed : Primitive.fixed.find? (fun p => p.name == name) = none := by
        rw [List.find?_eq_none]
        intro p member same
        rw [TypeName.standard_eq] at unlisted
        exact unlisted (List.mem_append_left _ (List.mem_map.mpr ⟨p, member, eq_of_beq same⟩))
      have text := (Primitive.text_iff name.toList _).mpr ⟨numeral, size, spelled, counts, rfl⟩
      refine ⟨⟨String.ofList numeral, size * 8 % 2 ^ 64 / 8⟩, ?_, ?_⟩
      · rw [← String.toList_inj, spelled]
        simp [TextType.name]
      · rw [scalar_built_in, unfixed, text]
        rfl

theorem array_spec_iff (name base : String) (count : Nat) :
    arraySpec name = .ok (some (base, count)) ↔
      ∃ inside, name.toList = base.toList ++ '[' :: (inside ++ [']']) ∧ base.toList ≠ [] ∧ '[' ∉ base.toList ∧
        TypeName.Counts (2 ^ 63) (Text.trimmed inside) count := by
  constructor
  · intro spec
    simp only [arraySpec] at spec
    split at spec
    · cases spec
    · rename_i before behind opened
      split at spec
      · cases spec
      · rename_i inside rest closed
        obtain ⟨front, free⟩ := (Text.cut_at_iff _ _ _ _).mp opened
        obtain ⟨back, -⟩ := (Text.cut_at_iff _ _ _ _).mp closed
        split at spec
        · cases spec
        · rename_i placed
          simp only [Bool.or_eq_true, Bool.not_eq_true', not_or, Bool.not_eq_false, List.isEmpty_iff] at placed
          split at spec
          · rename_i n counted
            by_cases bounds : 0 < n ∧ n < 2 ^ 63
            · rw [if_pos bounds] at spec
              cases spec
              obtain ⟨k, rfl⟩ := Int.eq_ofNat_of_zero_le (Int.le_of_lt bounds.1)
              have unsigned := (Numeral.integer_positive_iff _ k (by omega)).mp counted
              rw [String.toList_ofList]
              refine ⟨inside, by rw [front, back, placed.1], placed.2, free, ?_⟩
              exact (TypeName.counts_iff _ _ _).mpr ⟨by omega, unsigned⟩
            · rw [if_neg bounds] at spec
              cases spec
          · cases spec
  · rintro ⟨inside, split, filled, free, counts⟩
    obtain ⟨bounds, unsigned⟩ := (TypeName.counts_iff _ _ _).mp counts
    have opened := (Text.cut_at_iff '[' _ _ _).mpr ⟨split, free⟩
    have closed := (Text.cut_at_iff ']' (inside ++ [']']) inside []).mpr ⟨rfl, TypeName.counts_close inside count counts⟩
    have counted := (Numeral.integer_positive_iff _ count bounds.1).mpr unsigned
    have placed : ¬ (!([] : List Char).isEmpty || base.toList.isEmpty) = true := by simpa using filled
    simp only [arraySpec, opened, closed, counted]
    rw [if_neg placed, if_pos (by omega), String.ofList_toList]
    rfl

theorem array_spec_none (name : String) (plain : '[' ∉ name.toList) : arraySpec name = .ok none := by
  simp only [arraySpec, (Text.cut_at_none '[' name.toList).mpr plain]

theorem array_spec_refused (name : String) (bracketed : '[' ∈ name.toList) :
    (∃ base count, arraySpec name = .ok (some (base, count))) ∨ ∃ fault, arraySpec name = .error (.arraySpec fault) := by
  cases opened : Text.cutAt '[' name.toList with
  | none => exact absurd bracketed ((Text.cut_at_none '[' name.toList).mp opened)
  | some parts =>
      simp only [arraySpec, opened]
      split
      · exact .inr ⟨_, rfl⟩
      · split
        · exact .inr ⟨_, rfl⟩
        · split
          · split
            · exact .inl ⟨_, _, rfl⟩
            · exact .inr ⟨_, rfl⟩
          · exact .inr ⟨_, rfl⟩

theorem array_of_iff (name : String) (element : List Char) (count : Nat) :
    TypeName.ArrayOf element count name.toList ↔
      ∃ base : String, arraySpec name = .ok (some (base, count)) ∧ Text.trimmed base.toList = element := by
  constructor
  · rintro ⟨before, inside, split, filled, free, own, counts⟩
    rw [← String.toList_ofList (l := before)] at split filled free own
    exact ⟨String.ofList before, (array_spec_iff _ _ _).mpr ⟨inside, split, filled, free, counts⟩, own⟩
  · rintro ⟨base, spec, own⟩
    obtain ⟨inside, split, filled, free, counts⟩ := (array_spec_iff _ _ _).mp spec
    exact ⟨base.toList, inside, split, filled, free, own, counts⟩

section Getting

variable (text : String)

theorem get_scalar (s : Scalar) (found : r.scalar? (Text.trim text) = some s) : r.get text = .ok (.scalar s) := by
  simp only [get, found]

variable (unfound : r.scalar? (Text.trim text) = none)

include unfound in
theorem get_spec :
    r.get text = (do
      match ← arraySpec (Text.trim text) with
      | none => .error (.unknownType (Text.trim text))
      | some (base, count) =>
        match r.scalar? (Text.trim base) with
        | some element => .ok (.array ⟨element, count⟩)
        | none => .error (.arraySpec (.element (Text.trim text)))) := by
  unfold get
  dsimp only
  generalize r.scalar? (Text.trim text) = found at unfound ⊢
  subst unfound
  rfl

include unfound in
theorem get_array (element : List Char) (count : Nat) (s : Scalar)
    (array : TypeName.ArrayOf element count (Text.trim text).toList) (found : r.scalar? (String.ofList element) = some s) :
    r.get text = .ok (.array ⟨s, count⟩) := by
  obtain ⟨base, spec, rfl⟩ := (array_of_iff _ element count).mp array
  have own : r.scalar? (Text.trim base) = some s := found
  rw [r.get_spec text unfound, Attempt.bind_of_ok _ _ _ spec]
  simp only [own]

include unfound in
theorem get_unknown (plain : '[' ∉ (Text.trim text).toList) : r.get text = .error (.unknownType (Text.trim text)) := by
  rw [r.get_spec text unfound, Attempt.bind_of_ok _ _ _ (array_spec_none _ plain)]

-- In brackets something is wrong with the count or with the element.
include unfound in
theorem get_bracketed (bracketed : '[' ∈ (Text.trim text).toList) :
    (∃ element count s, TypeName.ArrayOf element count (Text.trim text).toList ∧
        r.scalar? (String.ofList element) = some s) ∨ ∃ fault, r.get text = .error (.arraySpec fault) := by
  rw [r.get_spec text unfound]
  rcases array_spec_refused _ bracketed with ⟨base, count, spec⟩ | ⟨fault, refused⟩
  · cases found : r.scalar? (Text.trim base) with
    | some s => exact .inl ⟨_, count, s, (array_of_iff _ _ count).mpr ⟨base, spec, rfl⟩, found⟩
    | none =>
        rw [Attempt.bind_of_ok _ _ _ spec]
        simp only [found]
        exact .inr ⟨_, rfl⟩
  · exact .inr ⟨fault, Attempt.bind_of_error _ _ _ refused⟩

end Getting

theorem get_standard (text : String) :
    (∃ s, empty.scalar? (Text.trim text) = some s ∧ empty.get text = .ok (.scalar s)) ∨
    (∃ element count s, TypeName.ArrayOf element count (Text.trim text).toList ∧
      empty.scalar? (String.ofList element) = some s ∧ empty.get text = .ok (.array ⟨s, count⟩)) ∨
    ¬ TypeName.Valid (Text.trim text).toList ∧
      ('[' ∈ (Text.trim text).toList → ∃ fault, empty.get text = .error (.arraySpec fault)) ∧
      ('[' ∉ (Text.trim text).toList → empty.get text = .error (.unknownType (Text.trim text))) := by
  cases unfound : empty.scalar? (Text.trim text) with
  | some s => exact .inl ⟨s, rfl, empty.get_scalar text s unfound⟩
  | none =>
      refine .inr ?_
      by_cases valid : TypeName.Valid (Text.trim text).toList
      · rcases valid with simple | ⟨element, count, simple, array⟩
        · obtain ⟨s, found⟩ := scalar_of_simple _ simple
          rw [unfound] at found
          cases found
        · obtain ⟨s, found⟩ := scalar_of_simple (String.ofList element) (by rwa [String.toList_ofList])
          exact .inl ⟨element, count, s, array, found, empty.get_array text unfound element count s array found⟩
      · refine .inr ⟨valid, fun bracketed => ?_, empty.get_unknown text unfound⟩
        refine (empty.get_bracketed text unfound bracketed).resolve_left ?_
        rintro ⟨element, count, s, array, found⟩
        have simple := (scalar_named _ s found).2
        rw [String.toList_ofList] at simple
        exact valid (.inr ⟨element, count, simple, array⟩)

theorem get_simple (s : Scalar) (name : String) (found : empty.scalar? name = some s) :
    empty.get s.name = .ok (.scalar s) := by
  obtain ⟨rfl, simple⟩ := scalar_named name s found
  apply empty.get_scalar
  rwa [Text.trim, Text.trimmed_of_solid _ fun c member => (TypeName.simple_plain _ simple c member).1, String.ofList_toList]

theorem array_name_chars (s : Scalar) (count : Nat) :
    (DataType.array ⟨s, count⟩).name.toList = s.name.toList ++ '[' :: ((Numeral.decimal count).toList ++ [']']) := by
  simp [DataType.name, ArrayType.name]

theorem get_own_array (s : Scalar) (name : String) (found : empty.scalar? name = some s) (count : Nat)
    (bounds : 0 < count ∧ count < 2 ^ 63) :
    empty.get (DataType.array ⟨s, count⟩).name = .ok (.array ⟨s, count⟩) := by
  obtain ⟨rfl, simple⟩ := scalar_named name s found
  have plain := TypeName.simple_plain _ simple
  have counts : TypeName.Counts (2 ^ 63) (Numeral.decimal count).toList count :=
    ⟨bounds, _, (Numeral.natural_iff _ _).mp (Numeral.natural_decimal count), .inl rfl⟩
  have digits := fun c member => TypeName.count_unblank c (TypeName.counts_plain _ _ _ counts c member)
  have spelled := array_name_chars s count
  have solid : ∀ c ∈ (DataType.array ⟨s, count⟩).name.toList, Text.isBlank c = false := by
    rw [spelled, List.forall_mem_append, List.forall_mem_cons, List.forall_mem_append]
    exact ⟨fun c member => (plain c member).1, by decide, digits, List.forall_mem_singleton.mpr (by decide)⟩
  have trimmed : Text.trim (DataType.array ⟨s, count⟩).name = (DataType.array ⟨s, count⟩).name := by
    rw [Text.trim, Text.trimmed_of_solid _ solid, String.ofList_toList]
  have array : TypeName.ArrayOf s.name.toList count (DataType.array ⟨s, count⟩).name.toList := by
    refine ⟨s.name.toList, _, spelled, TypeName.simple_filled _ simple, fun member => (plain '[' member).2 rfl, ?_, ?_⟩
    · exact Text.trimmed_of_solid _ fun c member => (plain c member).1
    · rwa [Text.trimmed_of_solid _ digits]
  refine empty.get_array _ ?_ _ count s (by rwa [trimmed]) (by rwa [String.ofList_toList])
  cases other : empty.scalar? (Text.trim (DataType.array ⟨s, count⟩).name) with
  | none => rfl
  | some _ =>
      have simple := (scalar_named _ _ other).2
      rw [trimmed, spelled] at simple
      exact absurd rfl (TypeName.simple_plain _ simple '[' (List.mem_append_right _ List.mem_cons_self)).2

end Registry

end SpaceLink
