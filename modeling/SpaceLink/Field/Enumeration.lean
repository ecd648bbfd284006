import SpaceLink.Fault

/-!
Enumerations: codes with names. No code and no name stands twice, and the codes ascend.
-/

set_option autoImplicit false

namespace SpaceLink

def insertCode (code : Int) (name : String) : List (Int × String) → List (Int × String)
  | [] => [(code, name)]
  | entry :: rest =>
    if code < entry.1 then (code, name) :: entry :: rest else entry :: insertCode code name rest

theorem mem_insert_code (code : Int) (name : String) (entries : List (Int × String))
    (entry : Int × String) :
    entry ∈ insertCode code name entries ↔ entry = (code, name) ∨ entry ∈ entries := by
  induction entries with
  | nil => simp [insertCode]
  | cons first rest ih =>
    unfold insertCode
    split
    · simp
    · simp only [List.mem_cons, ih]
      constructor
      · rintro (same | same | inside)
        · exact .inr (.inl same)
        · exact .inl same
        · exact .inr (.inr inside)
      · rintro (same | same | inside)
        · exact .inr (.inl same)
        · exact .inl same
        · exact .inr (.inr inside)

theorem insert_code_ascending (code : Int) (name : String) (entries : List (Int × String))
    (ascending : entries.Pairwise fun a b => a.1 < b.1)
    (absent : ∀ entry ∈ entries, entry.1 ≠ code) :
    (insertCode code name entries).Pairwise fun a b => a.1 < b.1 := by
  induction entries with
  | nil => simp [insertCode]
  | cons first rest ih =>
    rw [List.pairwise_cons] at ascending
    unfold insertCode
    split
    · rename_i below
      rw [List.pairwise_cons, List.pairwise_cons]
      refine ⟨?_, ascending⟩
      intro entry inside
      rcases List.mem_cons.mp inside with same | later
      · exact same ▸ below
      · exact Int.lt_trans below (ascending.1 entry later)
    · rename_i notBelow
      rw [List.pairwise_cons]
      refine ⟨?_, ih ascending.2 fun entry inside => absent entry (List.mem_cons_of_mem _ inside)⟩
      intro entry inside
      rcases (mem_insert_code code name rest entry).mp inside with same | later
      · have different := absent first List.mem_cons_self
        rw [same]
        show first.1 < code
        omega
      · exact ascending.1 entry later

theorem insert_code_names (code : Int) (name : String) (entries : List (Int × String))
    (distinct : (entries.map Prod.snd).Nodup) (absent : ∀ entry ∈ entries, entry.2 ≠ name) :
    ((insertCode code name entries).map Prod.snd).Nodup := by
  induction entries with
  | nil => simp [insertCode]
  | cons first rest ih =>
    rw [List.map_cons, List.nodup_cons] at distinct
    have restAbsent : ∀ entry ∈ rest, entry.2 ≠ name := fun entry inside =>
      absent entry (List.mem_cons_of_mem _ inside)
    unfold insertCode
    split
    · rw [List.map_cons, List.nodup_cons, List.map_cons, List.nodup_cons]
      refine ⟨?_, distinct⟩
      intro inside
      rcases List.mem_cons.mp inside with same | later
      · exact absent first List.mem_cons_self same.symm
      · obtain ⟨entry, member, equal⟩ := List.mem_map.mp later
        exact restAbsent entry member equal
    · rw [List.map_cons, List.nodup_cons]
      refine ⟨?_, ih distinct.2 restAbsent⟩
      intro inside
      obtain ⟨entry, member, equal⟩ := List.mem_map.mp inside
      rcases (mem_insert_code code name rest entry).mp member with same | later
      · exact absent first List.mem_cons_self (by rw [← equal, same])
      · exact distinct.1 (List.mem_map.mpr ⟨entry, later, equal⟩)

structure Enumeration where
  entries : List (Int × String)
  ascending : entries.Pairwise fun a b => a.1 < b.1
  distinct : (entries.map Prod.snd).Nodup

namespace Enumeration

theorem none_ascending : ([] : List (Int × String)).Pairwise fun a b => a.1 < b.1 := .nil

theorem none_distinct : (([] : List (Int × String)).map Prod.snd).Nodup := .nil

def empty : Enumeration := ⟨[], none_ascending, none_distinct⟩

def name? (e : Enumeration) (code : Int) : Option String :=
  (e.entries.find? fun entry => entry.1 == code).map Prod.snd

def code? (e : Enumeration) (name : String) : Option Int :=
  (e.entries.find? fun entry => entry.2 == name).map Prod.fst

def size (e : Enumeration) : Nat := e.entries.length

def add (e : Enumeration) (code : Int) (name : String) : Attempt Enumeration :=
  if codes : ∃ entry ∈ e.entries, entry.1 = code then .error (.schema (.repeatedCode code))
  else if names : ∃ entry ∈ e.entries, entry.2 = name then .error (.schema (.repeatedCodeName name))
  else
    .ok
      { entries := insertCode code name e.entries
        ascending := insert_code_ascending code name e.entries e.ascending fun entry inside same =>
          codes ⟨entry, inside, same⟩
        distinct := insert_code_names code name e.entries e.distinct fun entry inside same =>
          names ⟨entry, inside, same⟩ }

def addAll (e : Enumeration) : List (Int × String) → Attempt Enumeration
  | [] => .ok e
  | (code, name) :: rest => do (← e.add code name).addAll rest

def ofPairs (pairs : List (Int × String)) : Attempt Enumeration := empty.addAll pairs

end Enumeration

end SpaceLink
