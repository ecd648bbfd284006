import SpaceLink.Command.Definition
import SpaceLink.Event.Dictionary
import SpaceLink.Packet.Definition
import SpaceLink.Proofs.Catalog

/-!
Dictionaries under any calls of `add`, those that fail among them. One call either appends its definition
or changes nothing, so after all of them the entries are the definitions taken in, in the order of the
calls. What the searches find then follows from the keys being distinct.
-/

set_option autoImplicit false

namespace SpaceLink

section Calls

variable {D α : Type} (add : D → α → Attempt D)

-- One call on a dictionary, beside it the definitions it took in so far.
def addOne (run : D × List α) (a : α) : D × List α :=
  match add run.1 a with
  | .ok more => (more, run.2 ++ [a])
  | .error _ => run

def addAll (start : D) (calls : List α) : D × List α := calls.foldl (addOne add) (start, [])

variable (entries : D → List α)
  (appends : ∀ dictionary more a, add dictionary a = .ok more → entries more = entries dictionary ++ [a])

include appends in
theorem add_one_entries (run : D × List α) (a : α) (taken : entries run.1 = run.2) :
    entries (addOne add run a).1 = (addOne add run a).2 := by
  unfold addOne
  cases outcome : add run.1 a with
  | error fault => exact taken
  | ok more =>
      show entries more = run.2 ++ [a]
      rw [appends run.1 more a outcome, taken]

include appends in
theorem add_all_entries (start : D) (bare : entries start = []) (calls : List α) :
    entries (addAll add start calls).1 = (addAll add start calls).2 := by
  have each : ∀ run : D × List α, entries run.1 = run.2 →
      entries (calls.foldl (addOne add) run).1 = (calls.foldl (addOne add) run).2 := by
    induction calls with
    | nil => exact fun _ taken => taken
    | cons a rest ih => exact fun run taken => ih (addOne add run a) (add_one_entries add entries appends run a taken)
  exact each (start, []) bare

variable (add? : D → α → Option D) (fault : α → SchemaFault)
  (adds : ∀ dictionary a, add dictionary a = (add? dictionary a).elim (.error (.schema (fault a))) .ok)

include adds in
theorem add_ok_iff (dictionary more : D) (a : α) : add dictionary a = .ok more ↔ add? dictionary a = some more := by
  rw [adds]
  cases add? dictionary a with
  | none => simp
  | some other => simp

include adds in
theorem add_error (dictionary : D) (a : α) (failure : Fault) (failed : add dictionary a = .error failure) :
    add? dictionary a = none ∧ failure = .schema (fault a) := by
  rw [adds] at failed
  cases free : add? dictionary a with
  | none =>
      rw [free] at failed
      cases failed
      exact ⟨rfl, rfl⟩
  | some other =>
      rw [free] at failed
      cases failed

include adds in
theorem add_refuses (run : D × List α) (a : α) (taken : add? run.1 a = none) :
    add run.1 a = .error (.schema (fault a)) ∧ addOne add run a = run := by
  have failed : add run.1 a = .error (.schema (fault a)) := by rw [adds, taken, Option.elim_none]
  exact ⟨failed, by rw [addOne, failed]⟩

include adds in
theorem add_accepts (dictionary : D) (a : α) (free : add? dictionary a ≠ none) :
    ∃ more, add dictionary a = .ok more := by
  obtain ⟨more, added⟩ := Option.ne_none_iff_exists'.mp free
  exact ⟨more, (add_ok_iff add add? fault adds dictionary more a).mpr added⟩

end Calls

namespace Listing

variable {α : Type} {name : α → String}

def has (l : Listing α name) (a : α) : Bool := (l.ofName? (name a)).isSome

-- A listing and the definitions it took in: it has just these, in order, no name twice, and a further
-- one is refused exactly if its name is there, which changes nothing.
structure Consistent (add : Listing α name → α → Attempt (Listing α name)) (fault : α → SchemaFault)
    (run : Listing α name × List α) : Prop where
  order : run.1.entries = run.2
  distinct : (run.2.map name).Nodup
  named : ∀ n a, run.1.ofName? n = some a ↔ a ∈ run.2 ∧ name a = n
  refuses : ∀ a, run.1.has a = true → add run.1 a = .error (.schema (fault a)) ∧ addOne add run a = run
  accepts : ∀ a, run.1.has a = false → ∃ more, add run.1 a = .ok more

variable (add : Listing α name → α → Attempt (Listing α name)) (fault : α → SchemaFault)
  (adds : ∀ l a, add l a = (l.add? a).elim (.error (.schema (fault a))) .ok)

theorem has_iff (l : Listing α name) (a : α) : l.has a = true ↔ l.add? a = none := by
  rw [l.add_none_iff, has, Option.isSome_iff_exists]

include adds in
theorem consistent_of_calls (calls : List α) : Consistent add fault (addAll add empty calls) := by
  have order : (addAll add empty calls).1.entries = (addAll add empty calls).2 :=
    add_all_entries add entries
      (fun l more a added => l.entries_of_add more a ((add_ok_iff add add? fault adds l more a).mp added)) empty rfl calls
  generalize addAll add empty calls = run at order
  refine ⟨order, order ▸ run.1.names, fun n a => order ▸ run.1.of_name_iff n a, fun a taken => ?_, fun a free => ?_⟩
  · exact add_refuses add add? fault adds run a ((run.1.has_iff a).mp taken)
  · exact add_accepts add add? fault adds run.1 a fun none => Bool.eq_false_iff.mp free ((run.1.has_iff a).mpr none)

end Listing

namespace Catalog

variable {α : Type} {name : α → String} {number : α → UInt16}

def has (c : Catalog α name number) (a : α) : Bool :=
  (c.ofName? (name a)).isSome || (c.ofNumber? (number a)).isSome

-- A catalog and the definitions it took in: both searches find just these and lead to each other, and a
-- further one is refused exactly if its name or its number is there, which changes nothing.
structure Consistent (add : Catalog α name number → α → Attempt (Catalog α name number))
    (fault : α → SchemaFault) (run : Catalog α name number × List α) : Prop where
  size : run.1.size = run.2.length
  named : ∀ n a, run.1.ofName? n = some a ↔ a ∈ run.2 ∧ name a = n
  numbered : ∀ n a, run.1.ofNumber? n = some a ↔ a ∈ run.2 ∧ number a = n
  named_numbered : ∀ n a, run.1.ofName? n = some a → run.1.ofNumber? (number a) = some a
  numbered_named : ∀ n a, run.1.ofNumber? n = some a → run.1.ofName? (name a) = some a
  refuses : ∀ a, run.1.has a = true → add run.1 a = .error (.schema (fault a)) ∧ addOne add run a = run
  accepts : ∀ a, run.1.has a = false → ∃ more, add run.1 a = .ok more

variable (add : Catalog α name number → α → Attempt (Catalog α name number)) (fault : α → SchemaFault)
  (adds : ∀ c a, add c a = (c.add? a).elim (.error (.schema (fault a))) .ok)

theorem has_iff (c : Catalog α name number) (a : α) : c.has a = true ↔ c.add? a = none := by
  rw [c.add_none_iff, has, Bool.or_eq_true, Option.isSome_iff_exists, Option.isSome_iff_exists]

include adds in
theorem consistent_of_calls (calls : List α) : Consistent add fault (addAll add empty calls) := by
  have order : (addAll add empty calls).1.entries = (addAll add empty calls).2 :=
    add_all_entries add entries
      (fun c more a added => c.entries_of_add more a ((add_ok_iff add add? fault adds c more a).mp added)) empty rfl calls
  generalize addAll add empty calls = run at order
  have named : ∀ n a, run.1.ofName? n = some a ↔ a ∈ run.2 ∧ name a = n :=
    fun n a => order ▸ run.1.of_name_iff n a
  have numbered : ∀ n a, run.1.ofNumber? n = some a ↔ a ∈ run.2 ∧ number a = n :=
    fun n a => order ▸ run.1.of_number_iff n a
  refine ⟨congrArg List.length order, named, numbered, fun n a found => ?_, fun n a found => ?_, fun a taken => ?_,
    fun a free => ?_⟩
  · exact (numbered (number a) a).mpr ⟨((named n a).mp found).1, rfl⟩
  · exact (named (name a) a).mpr ⟨((numbered n a).mp found).1, rfl⟩
  · exact add_refuses add add? fault adds run a ((run.1.has_iff a).mp taken)
  · exact add_accepts add add? fault adds run.1 a fun none => Bool.eq_false_iff.mp free ((run.1.has_iff a).mpr none)

end Catalog

theorem CommandDictionary.add_eq (dictionary : CommandDictionary) (d : CommandDefinition) :
    dictionary.add d = (dictionary.add? d).elim (.error (.schema (.repeatedCommand d.name d.opcode.toNat))) .ok := by
  unfold add
  cases dictionary.add? d <;> rfl

theorem EventDictionary.add_eq (dictionary : EventDictionary) (d : EventDefinition) :
    dictionary.add d = (dictionary.add? d).elim (.error (.schema (.repeatedEvent d.name d.code.toNat))) .ok := by
  unfold add
  cases dictionary.add? d <;> rfl

theorem PacketDictionary.add_eq (dictionary : PacketDictionary) (d : PacketDefinition) :
    dictionary.add d = (dictionary.add? d).elim (.error (.schema (.repeatedPacket d.name))) .ok := by
  unfold add
  cases dictionary.add? d <;> rfl

-- A dictionary after calls of `add`, and the definitions that it took in.
def CommandDictionary.ofCalls (calls : List CommandDefinition) : CommandDictionary × List CommandDefinition :=
  addAll add Catalog.empty calls

def EventDictionary.ofCalls (calls : List EventDefinition) : EventDictionary × List EventDefinition :=
  addAll add Catalog.empty calls

def PacketDictionary.ofCalls (calls : List PacketDefinition) : PacketDictionary × List PacketDefinition :=
  addAll add Listing.empty calls

theorem CommandDictionary.consistent (calls : List CommandDefinition) :
    Catalog.Consistent add (fun d => .repeatedCommand d.name d.opcode.toNat) (ofCalls calls) :=
  Catalog.consistent_of_calls add _ add_eq calls

theorem EventDictionary.consistent (calls : List EventDefinition) :
    Catalog.Consistent add (fun d => .repeatedEvent d.name d.code.toNat) (ofCalls calls) :=
  Catalog.consistent_of_calls add _ add_eq calls

-- A second event of one name or one code is refused, and its other key stays free.
example : (EventDictionary.ofCalls
    [⟨"ARMED", 1, none, ""⟩, ⟨"READY", 1, none, ""⟩, ⟨"ARMED", 2, none, ""⟩, ⟨"READY", 2, none, ""⟩]).2 =
      [⟨"ARMED", 1, none, ""⟩, ⟨"READY", 2, none, ""⟩] := by
  decide

theorem PacketDictionary.consistent (calls : List PacketDefinition) :
    Listing.Consistent add (fun d => .repeatedPacket d.name) (ofCalls calls) :=
  Listing.consistent_of_calls add _ add_eq calls

-- The identifier a packet goes by: its own, else that of its header.
def PacketDefinition.effectiveApid (d : PacketDefinition) : Option UInt16 :=
  match d.ownApid, d.ccsds with
  | some apid, _ => some apid
  | none, some header => some header.apid
  | none, none => none

theorem PacketDefinition.apid_effective (d : PacketDefinition) : d.apid = d.effectiveApid := by
  unfold apid effectiveApid
  cases d.ownApid with
  | some own => rfl
  | none => cases d.ccsds <;> rfl

theorem PacketDictionary.of_apid_iff (dictionary : PacketDictionary) (apid : UInt16) (d : PacketDefinition) :
    dictionary.ofApid? apid = some d ↔
      ∃ before later, dictionary.entries = before ++ d :: later ∧
        d.effectiveApid = some apid ∧ ∀ b ∈ before, b.effectiveApid ≠ some apid := by
  simp only [ofApid?, List.find?_eq_some_iff_append, PacketDefinition.apid_effective]
  constructor
  · rintro ⟨has, before, later, whole, others⟩
    exact ⟨before, later, whole, by simpa using has, by simpa using others⟩
  · rintro ⟨before, later, whole, has, others⟩
    exact ⟨by simpa using has, before, later, whole, by simpa using others⟩

end SpaceLink
