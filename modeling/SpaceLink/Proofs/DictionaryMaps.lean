import Mathlib.Data.List.Nodup
import SpaceLink.Proofs.Attempt
import SpaceLink.Proofs.Dictionaries

/-!
Dictionaries as they are kept. Commands and events lie in two maps, by name and by number. Packets lie in a list, with
their places by name and by identifier. A call of `add` asks the maps first and then fills one after the other, and
whatever the calls were, the maps answer as the entries of the same calls do, and so they agree with each other.
-/

set_option autoImplicit false

namespace SpaceLink

section Calls

variable {σ α : Type} (add : α → ExceptT Fault (StateM σ) α)

-- What calls on one dictionary answer, and the dictionary after them. A call that fails leaves it as it was by then.
def callAll : List α → σ → List (Attempt α) × σ
  | [], kept => ([], kept)
  | a :: rest, kept =>
    let call := (add a).run.run kept
    let others := callAll rest call.2
    (call.1 :: others.1, others.2)

-- The definitions that were taken in.
def taken (answers : List (Attempt α)) : List α := answers.filterMap Except.toOption

variable {D : Type} (extend : D → α → Attempt D) (refines : σ → D → Prop)

-- In place, a call does what it does on the entries, or nothing at all.
structure Mirrors : Prop where
  accepts : ∀ kept entries more a, refines kept entries → extend entries a = .ok more →
    ∃ next, (add a).run.run kept = (.ok a, next) ∧ refines next more
  refuses : ∀ kept entries fault a, refines kept entries → extend entries a = .error fault →
    (add a).run.run kept = (.error fault, kept)

variable (mirrors : Mirrors add extend refines)

include mirrors in
theorem calls_refine (calls : List α) (kept : σ) (run : D × List α) (seen : refines kept run.1) :
    refines (callAll add calls kept).2 (calls.foldl (addOne extend) run).1 ∧
      (calls.foldl (addOne extend) run).2 = run.2 ++ taken (callAll add calls kept).1 := by
  induction calls generalizing kept run with
  | nil => exact ⟨seen, (List.append_nil _).symm⟩
  | cons a rest ih =>
      simp only [callAll, List.foldl_cons]
      cases outcome : extend run.1 a with
      | error fault =>
          rw [mirrors.refuses kept run.1 fault a seen outcome]
          rw [show addOne extend run a = run by simp only [addOne, outcome]]
          exact ih kept run seen
      | ok more =>
          obtain ⟨next, added, refined⟩ := mirrors.accepts kept run.1 more a seen outcome
          rw [added, show addOne extend run a = (more, run.2 ++ [a]) by simp only [addOne, outcome]]
          obtain ⟨last, all⟩ := ih next (more, run.2 ++ [a]) refined
          exact ⟨last, all.trans (List.append_assoc _ _ _)⟩

include mirrors in
theorem all_calls_refine (calls : List α) (bare : σ) (empty : D) (seen : refines bare empty) :
    refines (callAll add calls bare).2 (addAll extend empty calls).1 ∧
      taken (callAll add calls bare).1 = (addAll extend empty calls).2 := by
  obtain ⟨last, all⟩ := calls_refine add extend refines mirrors calls bare (empty, []) seen
  exact ⟨last, all.symm⟩

end Calls

-- Definitions by name and by number.
structure KeyedMaps (α : Type) where
  names : Std.HashMap String α
  numbers : Std.HashMap UInt16 α

namespace KeyedMaps

variable {α : Type} {name : α → String} {number : α → UInt16}

def empty : KeyedMaps α := ⟨∅, ∅⟩

def size (maps : KeyedMaps α) : Nat := maps.names.size

def ofName? (maps : KeyedMaps α) (n : String) : Option α := maps.names[n]?

def ofNumber? (maps : KeyedMaps α) (n : UInt16) : Option α := maps.numbers[n]?

def has (name : α → String) (number : α → UInt16) (maps : KeyedMaps α) (a : α) : Bool :=
  maps.names.contains (name a) || maps.numbers.contains (number a)

-- Both maps are asked before either of them is filled.
def addInPlace (name : α → String) (number : α → UInt16) (fault : α → SchemaFault) (a : α) :
    ExceptT Fault (StateM (KeyedMaps α)) α := do
  let maps ← MonadState.get
  if has name number maps a then throw (.schema (fault a))
  modify fun maps => { maps with names := maps.names.insert (name a) a }
  modify fun maps => { maps with numbers := maps.numbers.insert (number a) a }
  return a

-- The maps answer as the entries do.
structure Refines (maps : KeyedMaps α) (c : Catalog α name number) : Prop where
  size : maps.size = c.size
  named : ∀ n, maps.ofName? n = c.ofName? n
  numbered : ∀ n, maps.ofNumber? n = c.ofNumber? n

theorem empty_refines : Refines empty (Catalog.empty : Catalog α name number) :=
  ⟨rfl, fun _ => Std.HashMap.getElem?_empty, fun _ => Std.HashMap.getElem?_empty⟩

theorem add_in_place_run (fault : α → SchemaFault) (maps : KeyedMaps α) (a : α) :
    (addInPlace name number fault a).run.run maps =
      if has name number maps a then (.error (.schema (fault a)), maps)
      else (.ok a, ⟨maps.names.insert (name a) a, maps.numbers.insert (number a) a⟩) := by
  simp only [addInPlace]
  rw [Attempt.run_state]
  by_cases present : has name number maps a = true
  · rw [if_pos present, if_pos present]
    rfl
  · rw [if_neg present, if_neg present]
    rfl

section Refined

variable (maps : KeyedMaps α) (c : Catalog α name number) (refined : Refines maps c)

include refined in
theorem has_refined (a : α) : has name number maps a = c.has a := by
  rw [has, Catalog.has, ← refined.named, ← refined.numbered]
  simp only [Std.HashMap.contains_eq_isSome_getElem?, ofName?, ofNumber?]

include refined in
-- Both keys are free, so that a definition takes the place of no other in either map.
theorem insert_refined (a : α) (more : Catalog α name number) (added : c.add? a = some more) :
    Refines ⟨maps.names.insert (name a) a, maps.numbers.insert (number a) a⟩ more := by
  obtain ⟨free, longer⟩ := c.free_of_add more a added
  have absent : ¬ name a ∈ maps.names := by
    intro present
    have taken : has name number maps a = true := by rw [has, Std.HashMap.contains_iff_mem.mpr present, Bool.true_or]
    rw [has_refined maps c refined, c.has_iff, added] at taken
    cases taken
  refine ⟨?_, fun n => ?_, fun n => ?_⟩
  · rw [size, Std.HashMap.size_insert, if_neg absent, Catalog.size, longer, List.length_append]
    exact congrArg (· + 1) refined.size
  · rw [Catalog.ofName?, longer, find_key_append name c.entries a (fun b member => (free b member).1)]
    rw [ofName?, Std.HashMap.getElem?_insert]
    exact congrArg (ite _ _) (refined.named n)
  · rw [Catalog.ofNumber?, longer, find_key_append number c.entries a (fun b member => (free b member).2)]
    rw [ofNumber?, Std.HashMap.getElem?_insert]
    exact congrArg (ite _ _) (refined.numbered n)

end Refined

-- Both searches find just the definitions that were taken in and lead to each other. A further one is refused exactly if
-- its name or its number is there, and then both maps are as they were.
structure Consistent (name : α → String) (number : α → UInt16) (fault : α → SchemaFault) (maps : KeyedMaps α)
    (all : List α) : Prop where
  size : maps.size = all.length
  named : ∀ n a, maps.ofName? n = some a ↔ a ∈ all ∧ name a = n
  numbered : ∀ n a, maps.ofNumber? n = some a ↔ a ∈ all ∧ number a = n
  named_numbered : ∀ n a, maps.ofName? n = some a → maps.ofNumber? (number a) = some a
  numbered_named : ∀ n a, maps.ofNumber? n = some a → maps.ofName? (name a) = some a
  refuses : ∀ a, has name number maps a = true →
    (addInPlace name number fault a).run.run maps = (.error (.schema (fault a)), maps)
  accepts : ∀ a, has name number maps a = false → ∃ next, (addInPlace name number fault a).run.run maps = (.ok a, next)

section Mirrored

variable (add : Catalog α name number → α → Attempt (Catalog α name number)) (fault : α → SchemaFault)
  (adds : ∀ c a, add c a = (c.add? a).elim (.error (.schema (fault a))) .ok)

include adds in
theorem mirrors : Mirrors (addInPlace name number fault) add Refines := by
  constructor
  · intro maps c more a refined outcome
    have added := (add_ok_iff add Catalog.add? fault adds c more a).mp outcome
    have absent : ¬ has name number maps a = true := by
      rw [has_refined maps c refined, c.has_iff, added]
      exact nofun
    rw [add_in_place_run, if_neg absent]
    exact ⟨_, rfl, insert_refined maps c refined a more added⟩
  · intro maps c failure a refined outcome
    obtain ⟨none, rfl⟩ := add_error add Catalog.add? fault adds c a failure outcome
    rw [add_in_place_run, if_pos ((has_refined maps c refined a).trans ((c.has_iff a).mpr none))]

theorem consistent_of_refined (maps : KeyedMaps α) (run : Catalog α name number × List α) (refined : Refines maps run.1)
    (consistent : Catalog.Consistent add fault run) : Consistent name number fault maps run.2 := by
  refine ⟨refined.size.trans consistent.size, fun n a => ?_, fun n a => ?_, fun n a => ?_, fun n a => ?_, fun a => ?_,
    fun a => ?_⟩
  · rw [refined.named]
    exact consistent.named n a
  · rw [refined.numbered]
    exact consistent.numbered n a
  · rw [refined.named, refined.numbered]
    exact consistent.named_numbered n a
  · rw [refined.named, refined.numbered]
    exact consistent.numbered_named n a
  · intro present
    rw [add_in_place_run, if_pos present]
  · intro absent
    rw [add_in_place_run, if_neg (Bool.eq_false_iff.mp absent)]
    exact ⟨_, rfl⟩

end Mirrored

end KeyedMaps

-- Packets in the order in which they were taken in, and their places in it.
structure PacketMaps where
  definitions : List PacketDefinition
  names : Std.HashMap String Nat
  apids : Std.HashMap UInt16 Nat

namespace PacketMaps

def empty : PacketMaps := ⟨[], ∅, ∅⟩

def ofName? (maps : PacketMaps) (n : String) : Option PacketDefinition :=
  maps.names[n]?.bind fun place => maps.definitions[place]?

def ofApid? (maps : PacketMaps) (apid : UInt16) : Option PacketDefinition :=
  maps.apids[apid]?.bind fun place => maps.definitions[place]?

-- An identifier keeps the place that it was first given.
def addInPlace (d : PacketDefinition) : ExceptT Fault (StateM PacketMaps) PacketDefinition := do
  let maps ← MonadState.get
  if maps.names.contains d.name then throw (.schema (.repeatedPacket d.name))
  let place := maps.definitions.length
  modify fun maps => { maps with names := maps.names.insert d.name place }
  if let some apid := d.apid then
    modify fun maps => { maps with apids := maps.apids.insertIfNew apid place }
  modify fun maps => { maps with definitions := maps.definitions ++ [d] }
  return d

-- Names and identifiers have the place of the first definition with them.
structure Refines (maps : PacketMaps) (l : PacketDictionary) : Prop where
  order : maps.definitions = l.entries
  named : ∀ n, maps.names[n]? = l.entries.findIdx? fun d => d.name == n
  identified : ∀ apid, maps.apids[apid]? = l.entries.findIdx? fun d => d.apid == some apid

theorem empty_refines : Refines empty Listing.empty :=
  ⟨rfl, fun _ => Std.HashMap.getElem?_empty, fun _ => Std.HashMap.getElem?_empty⟩

def withApid (apids : Std.HashMap UInt16 Nat) (d : PacketDefinition) (place : Nat) : Std.HashMap UInt16 Nat :=
  match d.apid with
  | some apid => apids.insertIfNew apid place
  | none => apids

theorem add_in_place_run (maps : PacketMaps) (d : PacketDefinition) :
    (addInPlace d).run.run maps =
      if maps.names.contains d.name then (.error (.schema (.repeatedPacket d.name)), maps)
      else (.ok d, ⟨maps.definitions ++ [d], maps.names.insert d.name maps.definitions.length,
        withApid maps.apids d maps.definitions.length⟩) := by
  simp only [addInPlace, withApid]
  rw [Attempt.run_state]
  by_cases present : maps.names.contains d.name = true
  · rw [if_pos present, if_pos present]
    rfl
  · rw [if_neg present, if_neg present]
    cases d.apid <;> rfl

theorem place_append (entries : List PacketDefinition) (d : PacketDefinition) (p : PacketDefinition → Bool) :
    (entries ++ [d]).findIdx? p = (entries.findIdx? p).or (if p d then some entries.length else none) := by
  rw [List.findIdx?_append, List.findIdx?_singleton]
  cases p d <;> simp

theorem first_kept (apids : Std.HashMap UInt16 Nat) (d : PacketDefinition) (place : Nat) (apid : UInt16) :
    (withApid apids d place)[apid]? = apids[apid]?.or (if d.apid == some apid then some place else none) := by
  rw [withApid]
  cases d.apid with
  | none => simp
  | some own =>
      dsimp only
      simp only [Std.HashMap.getElem?_insertIfNew, Std.HashMap.mem_iff_isSome_getElem?]
      by_cases same : own = apid
      · subst same
        cases apids[own]? <;> simp
      · simp [same]

section Refined

variable (maps : PacketMaps) (l : PacketDictionary) (refined : Refines maps l)

include refined in
theorem of_name_refined (n : String) : maps.ofName? n = l.ofName? n := by
  rw [ofName?, refined.named, refined.order, ← List.find?_eq_bind_findIdx?_getElem?]
  rfl

include refined in
theorem of_apid_refined (apid : UInt16) : maps.ofApid? apid = l.ofApid? apid := by
  rw [ofApid?, refined.identified, refined.order, ← List.find?_eq_bind_findIdx?_getElem?]
  rfl

include refined in
theorem has_refined (d : PacketDefinition) : maps.names.contains d.name = l.has d := by
  rw [Std.HashMap.contains_eq_isSome_getElem?, refined.named, List.findIdx?_isSome, Listing.has, Listing.ofName?,
    List.isSome_find?]

include refined in
theorem insert_refined (d : PacketDefinition) (more : PacketDictionary) (added : l.add? d = some more) :
    Refines ⟨maps.definitions ++ [d], maps.names.insert d.name maps.definitions.length,
      withApid maps.apids d maps.definitions.length⟩ more := by
  obtain ⟨free, longer⟩ := l.free_of_add more d added
  refine ⟨by rw [longer, refined.order], fun n => ?_, fun apid => ?_⟩
  · rw [longer, place_append, Std.HashMap.getElem?_insert, refined.named, refined.order]
    by_cases same : (d.name == n) = true
    · have absent : l.entries.findIdx? (fun b => b.name == n) = none := by
        rw [List.findIdx?_eq_none_iff]
        intro b member
        exact beq_eq_false_iff_ne.mpr fun found => free b member (found.trans (eq_of_beq same).symm)
      rw [if_pos same, if_pos same, absent, Option.none_or]
    · rw [if_neg same, if_neg same, Option.or_none]
  · rw [longer, place_append, first_kept, refined.identified, refined.order]

end Refined

-- The definitions that were taken in are in their order, no name twice, and each place that a map has is one of them. An
-- identifier leads to the first definition with it, and a name that is there is refused, which changes nothing.
structure Consistent (maps : PacketMaps) (all : List PacketDefinition) : Prop where
  order : maps.definitions = all
  distinct : (all.map PacketDefinition.name).Nodup
  named : ∀ n d, maps.ofName? n = some d ↔ d ∈ all ∧ d.name = n
  first : ∀ apid d, maps.ofApid? apid = some d ↔ ∃ before later, all = before ++ d :: later ∧
    d.effectiveApid = some apid ∧ ∀ b ∈ before, b.effectiveApid ≠ some apid
  placed : (∀ (n : String) (place : Nat), maps.names[n]? = some place → place < maps.definitions.length) ∧
    ∀ (apid : UInt16) (place : Nat), maps.apids[apid]? = some place → place < maps.definitions.length
  refuses : ∀ d, maps.names.contains d.name = true →
    (addInPlace d).run.run maps = (.error (.schema (.repeatedPacket d.name)), maps)
  accepts : ∀ d, maps.names.contains d.name = false → ∃ next, (addInPlace d).run.run maps = (.ok d, next)

theorem mirrors : Mirrors addInPlace PacketDictionary.add Refines := by
  constructor
  · intro maps l more d refined outcome
    have added := (add_ok_iff PacketDictionary.add Listing.add? _ PacketDictionary.add_eq l more d).mp outcome
    have absent : ¬ maps.names.contains d.name = true := by
      rw [has_refined maps l refined, l.has_iff, added]
      exact nofun
    rw [add_in_place_run, if_neg absent]
    exact ⟨_, rfl, insert_refined maps l refined d more added⟩
  · intro maps l failure d refined outcome
    obtain ⟨none, rfl⟩ := add_error PacketDictionary.add Listing.add? _ PacketDictionary.add_eq l d failure outcome
    rw [add_in_place_run, if_pos ((has_refined maps l refined d).trans ((l.has_iff d).mpr none))]

theorem consistent_of_refined (maps : PacketMaps) (run : PacketDictionary × List PacketDefinition)
    (refined : Refines maps run.1)
    (consistent : Listing.Consistent PacketDictionary.add (fun d => .repeatedPacket d.name) run) :
    Consistent maps run.2 := by
  have order := refined.order.trans consistent.order
  refine ⟨order, consistent.distinct, fun n d => ?_, fun apid d => ?_, ⟨fun n place found => ?_, fun apid place found => ?_⟩,
    fun d present => ?_, fun d absent => ?_⟩
  · rw [of_name_refined maps run.1 refined]
    exact consistent.named n d
  · rw [of_apid_refined maps run.1 refined, PacketDictionary.of_apid_iff, consistent.order]
  · rw [refined.named] at found
    rw [refined.order]
    exact (List.findIdx?_eq_some_iff_getElem.mp found).1
  · rw [refined.identified] at found
    rw [refined.order]
    exact (List.findIdx?_eq_some_iff_getElem.mp found).1
  · rw [add_in_place_run, if_pos present]
  · rw [add_in_place_run, if_neg (Bool.eq_false_iff.mp absent)]
    exact ⟨_, rfl⟩

end PacketMaps

def CommandDictionary.addInPlace : CommandDefinition → ExceptT Fault (StateM (KeyedMaps CommandDefinition)) CommandDefinition :=
  KeyedMaps.addInPlace CommandDefinition.name CommandDefinition.opcode fun d => .repeatedCommand d.name d.opcode.toNat

def EventDictionary.addInPlace : EventDefinition → ExceptT Fault (StateM (KeyedMaps EventDefinition)) EventDefinition :=
  KeyedMaps.addInPlace EventDefinition.name EventDefinition.code fun d => .repeatedEvent d.name d.code.toNat

theorem dictionaries_consistent :
    (∀ calls, let after := callAll CommandDictionary.addInPlace calls .empty
      KeyedMaps.Consistent CommandDefinition.name CommandDefinition.opcode
          (fun d => .repeatedCommand d.name d.opcode.toNat) after.2 (taken after.1) ∧
        KeyedMaps.Refines after.2 (CommandDictionary.ofCalls calls).1) ∧
    (∀ calls, let after := callAll EventDictionary.addInPlace calls .empty
      KeyedMaps.Consistent EventDefinition.name EventDefinition.code (fun d => .repeatedEvent d.name d.code.toNat)
          after.2 (taken after.1) ∧
        KeyedMaps.Refines after.2 (EventDictionary.ofCalls calls).1) ∧
    ∀ calls, let after := callAll PacketMaps.addInPlace calls .empty
      PacketMaps.Consistent after.2 (taken after.1) ∧ PacketMaps.Refines after.2 (PacketDictionary.ofCalls calls).1 := by
  refine ⟨fun calls => ?commands, fun calls => ?events, fun calls => ?packets⟩
  case commands =>
    obtain ⟨refined, all⟩ := all_calls_refine _ _ _ (KeyedMaps.mirrors _ _ CommandDictionary.add_eq) calls .empty
      Catalog.empty KeyedMaps.empty_refines
    refine ⟨?_, refined⟩
    exact all ▸ KeyedMaps.consistent_of_refined _ _ _ _ refined (CommandDictionary.consistent calls)
  case events =>
    obtain ⟨refined, all⟩ := all_calls_refine _ _ _ (KeyedMaps.mirrors _ _ EventDictionary.add_eq) calls .empty
      Catalog.empty KeyedMaps.empty_refines
    refine ⟨?_, refined⟩
    exact all ▸ KeyedMaps.consistent_of_refined _ _ _ _ refined (EventDictionary.consistent calls)
  case packets =>
    obtain ⟨refined, all⟩ := all_calls_refine _ _ _ PacketMaps.mirrors calls .empty Listing.empty PacketMaps.empty_refines
    refine ⟨?_, refined⟩
    exact all ▸ PacketMaps.consistent_of_refined _ _ refined (PacketDictionary.consistent calls)

end SpaceLink
