import SpaceLink.Proofs.Attempt
import SpaceLink.Proofs.Field.Names

/-!
Enumerations from pairs. After any pairs taken in, the entries are just these pairs in another order, so a further pair is
refused exactly if its code, or else its name, stands before it, and all are taken in exactly if none repeats.
-/

set_option autoImplicit false

namespace SpaceLink

theorem insert_code_perm (code : Int) (name : String) (entries : List (Int × String)) :
    (insertCode code name entries).Perm ((code, name) :: entries) := by
  induction entries with
  | nil => rfl
  | cons first rest ih =>
      unfold insertCode
      split
      · rfl
      · exact (ih.cons first).trans (.swap (code, name) first rest)

namespace Enumeration

-- What a pair is refused for behind others: its name only if its code is new.
def refusal? (before : List (Int × String)) (pair : Int × String) : Option SchemaFault :=
  if pair.1 ∈ before.map Prod.fst then some (.repeatedCode pair.1)
  else if pair.2 ∈ before.map Prod.snd then some (.repeatedCodeName pair.2)
  else none

theorem refusal_some_iff (before : List (Int × String)) (code : Int) (name : String) (fault : SchemaFault) :
    refusal? before (code, name) = some fault ↔
      code ∈ before.map Prod.fst ∧ fault = .repeatedCode code ∨
        code ∉ before.map Prod.fst ∧ name ∈ before.map Prod.snd ∧ fault = .repeatedCodeName name := by
  unfold refusal?
  split
  · simp_all [eq_comm]
  · split <;> simp_all [eq_comm]

section Taking

variable (e : Enumeration) (before : List (Int × String)) (taken : e.entries.Perm before)

include taken

theorem distinct_of_taken : (before.map Prod.fst).Nodup ∧ (before.map Prod.snd).Nodup :=
  ⟨(taken.map Prod.fst).nodup_iff.mp e.codes_distinct, (taken.map Prod.snd).nodup_iff.mp e.distinct⟩

-- One step: a pair is refused and reported, or is one of the entries from now on.
theorem add_taken (code : Int) (name : String) :
    match refusal? before (code, name) with
    | some fault => e.add code name = .error (.schema fault)
    | none => ∃ next, e.add code name = .ok next ∧ next.entries.Perm (before ++ [(code, name)]) := by
  have codes : (∃ entry ∈ e.entries, entry.1 = code) ↔ code ∈ before.map Prod.fst := by
    rw [← (taken.map Prod.fst).mem_iff, List.mem_map]
  have names : (∃ entry ∈ e.entries, entry.2 = name) ↔ name ∈ before.map Prod.snd := by
    rw [← (taken.map Prod.snd).mem_iff, List.mem_map]
  simp only [refusal?, ← codes, ← names, add]
  by_cases repeatedCode : ∃ entry ∈ e.entries, entry.1 = code
  · rw [if_pos repeatedCode, dif_pos repeatedCode]
  · rw [if_neg repeatedCode, dif_neg repeatedCode]
    by_cases repeatedName : ∃ entry ∈ e.entries, entry.2 = name
    · rw [if_pos repeatedName, dif_pos repeatedName]
    · rw [if_neg repeatedName, dif_neg repeatedName]
      refine ⟨_, rfl, (insert_code_perm code name e.entries).trans ?_⟩
      exact (taken.cons (code, name)).trans (List.perm_append_singleton (code, name) before).symm

end Taking

-- A run over pairs, behind those taken in before. Where it ends, what was taken in makes an enumeration.
theorem add_all_taken (pairs before : List (Int × String)) (e : Enumeration) (taken : e.entries.Perm before) :
    match e.addAll pairs with
    | .ok last => last.entries.Perm (before ++ pairs)
    | .error fault => ∃ early code name later own, pairs = early ++ (code, name) :: later ∧
        (∃ midway : Enumeration, midway.entries.Perm (before ++ early)) ∧
        refusal? (before ++ early) (code, name) = some own ∧ fault = .schema own := by
  induction pairs generalizing before e with
  | nil => simpa [addAll] using taken
  | cons pair rest ih =>
      obtain ⟨code, name⟩ := pair
      have step := e.add_taken before taken code name
      rw [addAll]
      cases refused : refusal? before (code, name) with
      | some own =>
          rw [refused] at step
          rw [Attempt.bind_of_error _ _ _ step]
          exact ⟨[], code, name, rest, own, rfl, ⟨e, by simpa using taken⟩, by simpa using refused, rfl⟩
      | none =>
          rw [refused] at step
          obtain ⟨next, added, more⟩ := step
          rw [Attempt.bind_of_ok _ _ next added]
          have further := ih (before ++ [(code, name)]) next more
          cases outcome : next.addAll rest with
          | ok last =>
              rw [outcome] at further
              simpa using further
          | error fault =>
              rw [outcome] at further
              obtain ⟨early, code', name', later, own, split, midway, last, same⟩ := further
              rw [List.append_assoc] at midway last
              exact ⟨(code, name) :: early, code', name', later, own, by rw [split]; rfl, midway, last, same⟩

-- Where a pair is refused, something stands twice.
theorem repeated_of_refusal (early later : List (Int × String)) (code : Int) (name : String) (fault : SchemaFault)
    (refused : refusal? early (code, name) = some fault) :
    ¬ (((early ++ (code, name) :: later).map Prod.fst).Nodup ∧ ((early ++ (code, name) :: later).map Prod.snd).Nodup) := by
  rw [List.map_append, List.map_append, List.map_cons, List.map_cons]
  rintro ⟨codes, names⟩
  rcases (refusal_some_iff early code name fault).mp refused with ⟨repeated, _⟩ | ⟨_, repeated, _⟩
  · exact (List.nodup_append.mp codes).2.2 code repeated code List.mem_cons_self rfl
  · exact (List.nodup_append.mp names).2.2 name repeated name List.mem_cons_self rfl

section Pairs

variable (pairs : List (Int × String))

theorem of_pairs_taken (e : Enumeration) (made : ofPairs pairs = .ok e) : e.entries.Perm pairs := by
  have run := add_all_taken pairs [] empty (.refl [])
  rw [show empty.addAll pairs = .ok e from made] at run
  exact run

theorem of_pairs_refused (fault : Fault) (failed : ofPairs pairs = .error fault) :
    ∃ early code name later own, pairs = early ++ (code, name) :: later ∧
      (early.map Prod.fst).Nodup ∧ (early.map Prod.snd).Nodup ∧ refusal? early (code, name) = some own ∧
      fault = .schema own := by
  have run := add_all_taken pairs [] empty (.refl [])
  rw [show empty.addAll pairs = .error fault from failed] at run
  obtain ⟨early, code, name, later, own, split, ⟨midway, taken⟩, refused, same⟩ := run
  obtain ⟨codes, names⟩ := midway.distinct_of_taken early taken
  exact ⟨early, code, name, later, own, split, codes, names, refused, same⟩

theorem of_pairs_ok_iff :
    (∃ e, ofPairs pairs = .ok e) ↔ (pairs.map Prod.fst).Nodup ∧ (pairs.map Prod.snd).Nodup := by
  constructor
  · rintro ⟨e, made⟩
    exact e.distinct_of_taken pairs (of_pairs_taken pairs e made)
  · intro distinct
    cases outcome : ofPairs pairs with
    | ok e => exact ⟨e, rfl⟩
    | error fault =>
        obtain ⟨early, code, name, later, own, split, _, _, refused, _⟩ := of_pairs_refused pairs fault outcome
        rw [split] at distinct
        exact absurd distinct (repeated_of_refusal early later code name own refused)

end Pairs

theorem distinct_pairs_enumerated (pairs : List (Int × String)) :
    ((∃ e, ofPairs pairs = .ok e) ↔ (pairs.map Prod.fst).Nodup ∧ (pairs.map Prod.snd).Nodup) ∧
    match ofPairs pairs with
    | .ok e =>
        (∀ code name, e.name? code = some name ↔ (code, name) ∈ pairs) ∧
        (∀ code name, e.name? code = some name ↔ e.code? name = some code) ∧
        e.entries.Perm pairs ∧ (e.entries.Pairwise fun a b => a.1 < b.1) ∧ e.size = pairs.length
    | .error fault => ∃ early code name later, pairs = early ++ (code, name) :: later ∧
        (early.map Prod.fst).Nodup ∧ (early.map Prod.snd).Nodup ∧
        (code ∈ early.map Prod.fst ∧ fault = .schema (.repeatedCode code) ∧
            fault.message = "Invalid schema: duplicate enumeration code " ++ Numeral.signed code ∨
          code ∉ early.map Prod.fst ∧ name ∈ early.map Prod.snd ∧ fault = .schema (.repeatedCodeName name) ∧
            fault.message = "Invalid schema: duplicate enumeration name " ++ name) := by
  refine ⟨of_pairs_ok_iff pairs, ?_⟩
  cases outcome : ofPairs pairs with
  | ok e =>
      have taken := of_pairs_taken pairs e outcome
      refine ⟨fun code name => ?_, e.name_iff_code, taken, e.ascending, taken.length_eq⟩
      rw [← taken.mem_iff]
      exact ⟨e.entry_of_name code name, e.name_of_entry code name⟩
  | error fault =>
      obtain ⟨early, code, name, later, own, split, codes, names, refused, rfl⟩ := of_pairs_refused pairs fault outcome
      refine ⟨early, code, name, later, split, codes, names, ?_⟩
      rcases (refusal_some_iff early code name own).mp refused with ⟨repeated, rfl⟩ | ⟨fresh, repeated, rfl⟩
      · exact .inl ⟨repeated, rfl, rfl⟩
      · exact .inr ⟨fresh, repeated, rfl, rfl⟩

-- The name of the second pair is met before the code of the third.
example : ofPairs [(2, "ON"), (1, "ON"), (2, "OFF")] = .error (.schema (.repeatedCodeName "ON")) := rfl

end Enumeration

end SpaceLink
