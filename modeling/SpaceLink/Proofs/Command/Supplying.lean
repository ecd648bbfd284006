import Mathlib.Data.List.Nodup
import SpaceLink.Ccsds.Header
import SpaceLink.Proofs.Command.Encoding

/-!
How the arguments of a command are supplied: the values in order, values by name, or one value after the other set by
name. What counts is which value each name was given last, so all ways come to the same command.
-/

set_option autoImplicit false

namespace SpaceLink

-- A name that stands once has the one value that stands with it.
theorem lookup_of_distinct {α : Type} (pairs : List (String × α)) (distinct : (pairs.map Prod.fst).Nodup) (name : String)
    (a : α) (member : (name, a) ∈ pairs) : pairs.lookup name = some a := by
  obtain ⟨before, after, rfl⟩ := List.append_of_mem member
  refine List.lookup_eq_some_iff.mpr ⟨before, after, rfl, ?_⟩
  intro pair earlier
  rw [List.map_append, List.nodup_append] at distinct
  exact bne_iff_ne.mpr (Ne.symm (distinct.2.2 pair.1 (List.mem_map_of_mem earlier) name (by simp)))

namespace CommandDefinition

def names (d : CommandDefinition) : List String := d.arguments.map Field.name

variable (d : CommandDefinition) (accepted : d.Accepted)

include accepted in
theorem names_distinct : d.names.Nodup :=
  (d.accepted_fields accepted).2.sublist (List.Sublist.map Field.name List.filter_sublist)

theorem named_iff (name : String) : name ∈ d.names ↔ ∃ f ∈ d.fields, f.name = name ∧ f.fixed = none := by
  simp only [names, arguments, List.mem_map, List.mem_filter, Option.isNone_iff_eq_none]
  constructor
  · rintro ⟨f, ⟨member, free⟩, same⟩
    exact ⟨f, member, same, free⟩
  · rintro ⟨f, member, same, free⟩
    exact ⟨f, ⟨member, free⟩, same⟩

end CommandDefinition

namespace Command

-- No value where the place was left out, or lies behind all that were supplied.
def valueAt (c : Command) (i : Nat) : Option Value := (c.args[i]?).join

-- Setting as it runs on a command.
def setInPlace (name : String) (v : Value) : ExceptT Fault (StateM Command) Unit := do
  let c ← MonadState.get
  let i ← ExceptT.mk (pure (c.place name))
  if c.args.length ≤ i then
    modify fun c => { c with args := c.args ++ List.replicate (i + 1 - c.args.length) none }
  modify fun c => { c with args := c.args.set i (some v) }

def setEach (pairs : List (String × Value)) : ExceptT Fault (StateM Command) Unit :=
  pairs.forM fun pair => setInPlace pair.1 pair.2

section Places

variable (c : Command) (name : String)

theorem place_eq : c.place name =
    match c.definition.names.idxOf? name with
    | some i => .ok i
    | none => .error (.unknownField c.definition.name name) := rfl

theorem place_iff (distinct : c.definition.names.Nodup) (i : Nat) :
    c.place name = .ok i ↔ c.definition.names[i]? = some name := by
  have found : c.place name = .ok i ↔ c.definition.names.idxOf? name = some i := by
    rw [place_eq]
    cases c.definition.names.idxOf? name <;> simp
  rw [found, List.idxOf?_eq_some_iff, List.getElem?_eq_some_iff]
  constructor
  · rintro ⟨inside, same, _⟩
    exact ⟨inside, same⟩
  · rintro ⟨inside, same⟩
    refine ⟨inside, same, fun j earlier again => ?_⟩
    have equal := (List.Nodup.getElem_inj_iff distinct).mp (again.trans same.symm)
    omega

theorem place_unknown (unknown : name ∉ c.definition.names) :
    c.place name = .error (.unknownField c.definition.name name) := by
  rw [place_eq, List.idxOf?_eq_none_iff.mpr unknown]

variable (v : Value)

theorem set_unknown (unknown : name ∉ c.definition.names) :
    c.set name v = .error (.unknownField c.definition.name name) :=
  Attempt.bind_of_error _ _ _ (c.place_unknown name unknown)

theorem set_in_place_run :
    (setInPlace name v).run.run c =
      match c.set name v with
      | .ok next => (.ok (), next)
      | .error fault => (.error fault, c) := by
  simp only [setInPlace, set]
  rw [Attempt.run_state, Attempt.run_attempt]
  cases c.place name with
  | error fault => rfl
  | ok i =>
      dsimp only
      by_cases few : c.args.length ≤ i
      · rw [if_pos few]
        rfl
      · have room : i + 1 - c.args.length = 0 := by omega
        rw [if_neg few, Attempt.bind_of_ok _ _ i rfl, room, List.replicate_zero, List.append_nil]
        rfl

-- Setting looks at no other place, and makes as many as it needs.
theorem set_at (distinct : c.definition.names.Nodup) (i : Nat) (known : c.definition.names[i]? = some name) :
    ∃ next, c.set name v = .ok next ∧ next.definition = c.definition ∧ next.unrecognized = c.unrecognized ∧
      next.args.length = max c.args.length (i + 1) ∧
      ∀ j, next.valueAt j = if j = i then some v else c.valueAt j := by
  refine ⟨_, Attempt.bind_of_ok _ _ i ((c.place_iff name distinct i).mpr known), rfl, rfl, ?_, fun j => ?_⟩
  · simp only [List.length_set, List.length_append, List.length_replicate]
    omega
  · simp only [valueAt, List.getElem?_set, List.length_append, List.length_replicate, List.getElem?_append,
      List.getElem?_replicate]
    by_cases here : j = i
    · subst here
      rw [if_pos rfl, if_pos (by omega), if_pos rfl]
      rfl
    · rw [if_neg (Ne.symm here), if_neg here]
      by_cases inside : j < c.args.length
      · rw [if_pos inside]
      · rw [if_neg inside, List.getElem?_eq_none (Nat.le_of_not_lt inside)]
        split <;> rfl

end Places

-- Each argument has the value that its name was given, if any; of two values for a name the earlier in the list counts.
structure Filled (d : CommandDefinition) (known : List (String × Value)) (c : Command) : Prop where
  own : c.definition = d
  recognized : c.unrecognized = []
  short : c.args.length ≤ d.names.length
  filled : ∀ (i : Nat) (name : String), d.names[i]? = some name → c.valueAt i = known.lookup name

section Filling

variable (d : CommandDefinition) (distinct : d.names.Nodup)

theorem filled_empty : Filled d [] (ofValues d []) := ⟨rfl, rfl, Nat.zero_le _, fun _ _ _ => rfl⟩

theorem filled_named (named : List (String × Value)) (known : ∀ pair ∈ named, pair.1 ∈ d.names) :
    Filled d named.reverse (ofNamed d named) := by
  refine ⟨rfl, ?_, ?_, ?_⟩
  · have none : named.filter (fun entry => !d.names.contains entry.1) = [] := by
      rw [List.filter_eq_nil_iff]
      intro pair member
      simpa using known pair member
    change List.foldl _ [] (named.filter fun entry => !d.names.contains entry.1) = []
    rw [none, List.foldl_nil]
  · change (d.names.map _).length ≤ d.names.length
    exact Nat.le_of_eq (List.length_map _)
  · intro i name place
    change ((d.names.map fun name => named.reverse.lookup name)[i]?).join = _
    simp only [List.getElem?_map, place, Option.map_some, Option.join_some]

include distinct in
theorem filled_set (known : List (String × Value)) (c : Command) (filled : Filled d known c) (name : String) (v : Value)
    (member : name ∈ d.names) : ∃ next, c.set name v = .ok next ∧ Filled d ((name, v) :: known) next := by
  obtain ⟨rfl, recognized, short, values⟩ := filled
  obtain ⟨i, place⟩ := List.mem_iff_getElem?.mp member
  obtain ⟨next, done, own, names, length, at'⟩ := c.set_at name v distinct i place
  have inside : i < c.definition.names.length := (List.getElem?_eq_some_iff.mp place).1
  refine ⟨next, done, own, names.trans recognized, by omega, ?_⟩
  intro j other otherPlace
  rw [at' j, List.lookup_cons]
  by_cases here : j = i
  · subst here
    rw [place] at otherPlace
    cases otherPlace
    rw [if_pos rfl, beq_self_eq_true]
  · have different : other ≠ name := by
      rintro rfl
      obtain ⟨inside', same'⟩ := List.getElem?_eq_some_iff.mp otherPlace
      obtain ⟨inside, same⟩ := List.getElem?_eq_some_iff.mp place
      exact here ((List.Nodup.getElem_inj_iff distinct).mp (same'.trans same.symm))
    rw [if_neg here, beq_false_of_ne different]
    exact values j other otherPlace

include distinct in
theorem filled_each (pairs known : List (String × Value)) (c : Command) (filled : Filled d known c)
    (members : ∀ pair ∈ pairs, pair.1 ∈ d.names) :
    ∃ last, (setEach pairs).run.run c = (.ok (), last) ∧ Filled d (pairs.reverse ++ known) last := by
  induction pairs generalizing known c with
  | nil => exact ⟨c, rfl, filled⟩
  | cons pair rest ih =>
      obtain ⟨name, v⟩ := pair
      obtain ⟨next, done, filledNext⟩ := filled_set d distinct known c filled name v (members _ List.mem_cons_self)
      obtain ⟨last, ran, filledLast⟩ := ih _ next filledNext fun pair later => members pair (List.mem_cons_of_mem _ later)
      refine ⟨last, ?_, ?_⟩
      · have first : (setInPlace name v).run.run c = (.ok (), next) := by rw [set_in_place_run, done]
        exact (Attempt.run_after c _ _ next () first).trans ran
      · rw [List.reverse_cons, List.append_assoc]
        exact filledLast

variable (values : List Value) (enough : values.length = d.names.length)

include distinct enough in
theorem given_alone (given : List (String × Value)) (same : given.Perm (d.names.zip values)) :
    (∀ pair ∈ given, pair.1 ∈ d.names) ∧
      ∀ (i : Nat) (name : String), d.names[i]? = some name → given.lookup name = values[i]? := by
  have keys : (d.names.zip values).map Prod.fst = d.names := List.map_fst_zip (Nat.le_of_eq enough.symm)
  refine ⟨fun pair member => (List.of_mem_zip (same.mem_iff.mp member)).1, fun i name place => ?_⟩
  obtain ⟨inside, _⟩ := List.getElem?_eq_some_iff.mp place
  have value : values[i]? = some values[i] := List.getElem?_eq_getElem (by omega)
  have member : (name, values[i]) ∈ d.names.zip values :=
    List.mem_iff_getElem?.mpr ⟨i, List.getElem?_zip_eq_some.mpr ⟨place, value⟩⟩
  have alone : (given.map Prod.fst).Nodup := by
    rw [(same.map Prod.fst).nodup_iff, keys]
    exact distinct
  rw [value, lookup_of_distinct given alone name values[i] (same.mem_iff.mpr member)]

include enough in
theorem filled_complete (known : List (String × Value)) (c : Command) (filled : Filled d known c)
    (given : ∀ (i : Nat) (name : String), d.names[i]? = some name → known.lookup name = values[i]?) :
    c = ofValues d values := by
  obtain ⟨own, args, unrecognized⟩ := c
  obtain ⟨rfl, rfl, short, held⟩ := filled
  simp only at enough short held given ⊢
  have same : args = values.map some := by
    refine List.ext_getElem? fun i => ?_
    rw [List.getElem?_map]
    by_cases inside : i < own.names.length
    · have place := List.getElem?_eq_getElem inside
      have value := (held i _ place).trans (given i _ place)
      rw [List.getElem?_eq_getElem (show i < values.length by omega)] at value ⊢
      exact (Option.join_eq_some_iff.mp value)
    · rw [List.getElem?_eq_none (Nat.le_trans short (Nat.le_of_not_lt inside)), List.getElem?_eq_none (by omega)]
      rfl
  rw [same]
  rfl

end Filling

section Reading

variable (d : CommandDefinition) (accepted : d.Accepted) (f : Field) (member : f ∈ d.fields)

include accepted member in
theorem get_fixed (c : Command) (own : c.definition = d) (v : Value) (fixed : f.fixed = some v) :
    c.get f.name = .ok (some v) := by
  have found := find_of_distinct Field.name d.fields f (d.accepted_fields accepted).2 member
  simp only [get, own, found, Option.bind_some, fixed]

include accepted member in
theorem get_free (values : List Value) (free : f.fixed = none) (v : Value)
    (given : (f, v) ∈ d.arguments.zip values) : (ofValues d values).get f.name = .ok (some v) := by
  have found := find_of_distinct Field.name d.fields f (d.accepted_fields accepted).2 member
  obtain ⟨i, place⟩ := List.mem_iff_getElem?.mp given
  obtain ⟨argument, value⟩ := List.getElem?_zip_eq_some.mp place
  have name : d.names[i]? = some f.name := by
    rw [CommandDefinition.names, List.getElem?_map, argument]
    rfl
  have placed := ((ofValues d values).place_iff f.name (d.names_distinct accepted) i).mpr name
  have held : (values.map some)[i]? = some (some v) := by
    rw [List.getElem?_map, value]
    rfl
  have own : (ofValues d values).definition = d := rfl
  simp only [get, own, found, Option.bind_some, free]
  rw [Attempt.bind_of_ok _ _ i placed]
  change Except.ok ((values.map some)[i]?).join = _
  rw [held]
  rfl

end Reading

theorem validate_arguments_given (fields : List Field) (values : List Value) (enough : values.length = fields.length)
    (verdict : Verdict) : validateArguments fields (values.map some) verdict =
      (fields.zip values).foldl (fun verdict pair => verdict.also (pair.1.validate pair.2)) verdict := by
  induction fields generalizing values verdict with
  | nil => rfl
  | cons f rest ih =>
      cases values with
      | nil => cases enough
      | cons v values => exact ih values (Nat.succ.inj enough) _

theorem validate_given (d : CommandDefinition) (values : List Value) (enough : values.length = d.arguments.length)
    (log : List String) : (ofValues d values).validate log =
      (d.arguments.zip values).foldl (fun verdict pair => verdict.also (pair.1.validate pair.2)) (.pass log) := by
  have all : (values.map some).filter Option.isSome = values.map some := by
    rw [List.filter_eq_self]
    intro arg member
    obtain ⟨v, _, rfl⟩ := List.mem_map.mp member
    rfl
  rw [← validate_arguments_given d.arguments values enough]
  simp only [validate, ofValues, all, List.length_map, if_pos enough]
  rfl

theorem supplied_alike (d : CommandDefinition) (accepted : d.Accepted) (values : List Value)
    (enough : values.length = d.arguments.length) (named later : List (String × Value))
    (byName : named.Perm ((d.arguments.map Field.name).zip values))
    (inTurn : later.Perm ((d.arguments.map Field.name).zip values)) :
    ofNamed d named = ofValues d values ∧
    (setEach later).run.run (ofValues d []) = (.ok (), ofValues d values) ∧
    (ofValues d values).args = values.map some ∧
    (assigned d.fields values).map Prod.fst = d.fields ∧
    (∀ f v, (f, v) ∈ assigned d.fields values → (ofValues d values).get f.name = .ok (some v)) ∧
    (∀ books pad, d.argumentSize ≤ 255 → (ofValues d values).encode books pad =
      Field.writeAll books 3 (assigned d.fields values) (blank d pad)) ∧
    (∀ log, (ofValues d values).validate log =
      (d.arguments.zip values).foldl (fun verdict pair => verdict.also (pair.1.validate pair.2)) (.pass log)) ∧
    ∀ (c : Command) (name : String) (v : Value), c.definition = d → (∀ f ∈ d.fields, f.name = name → f.fixed ≠ none) →
      c.set name v = .error (.unknownField d.name name) ∧
      (setInPlace name v).run.run c = (.error (.unknownField d.name name), c) := by
  have distinct := d.names_distinct accepted
  have counted : values.length = d.names.length := enough.trans (List.length_map _).symm
  refine ⟨?named, ?inTurn, rfl, assigned_fields d.fields values enough, ?get, ?encode, ?validate, ?unknown⟩
  case named =>
    have reversed := (List.reverse_perm named).trans byName
    have known := (given_alone d distinct values counted named byName).1
    exact filled_complete d values counted named.reverse _ (filled_named d named known)
      (given_alone d distinct values counted named.reverse reversed).2
  case inTurn =>
    have reversed := (List.reverse_perm later).trans inTurn
    have known := (given_alone d distinct values counted later inTurn).1
    obtain ⟨last, ran, filled⟩ := filled_each d distinct later [] (ofValues d []) (filled_empty d) known
    rw [List.append_nil] at filled
    rw [ran, filled_complete d values counted later.reverse last filled
      (given_alone d distinct values counted later.reverse reversed).2]
  case get =>
    intro f v assigned
    rcases (assigned_iff d.fields values enough f v).mp assigned with ⟨member, fixed⟩ | given
    · exact get_fixed d accepted f member _ rfl v fixed
    · have argument := List.mem_filter.mp (List.of_mem_zip given).1
      exact get_free d accepted f argument.1 values (Option.isNone_iff_eq_none.mp argument.2) v given
  case encode =>
    intro books pad small
    have written := encode_assigned books d small values enough [] [] pad
    rw [List.append_nil] at written
    exact written
  case validate => exact validate_given d values enough
  case unknown =>
    rintro c name v rfl fixed
    have unknown : name ∉ c.definition.names := by
      rw [CommandDefinition.named_iff]
      rintro ⟨f, member, same, free⟩
      exact fixed f member same free
    have refused := c.set_unknown name v unknown
    exact ⟨refused, by rw [set_in_place_run, refused]⟩

section Sweeping

-- The key stands between the two arguments that are supplied.
def sweep : CommandDefinition :=
  { name := "SWEEP"
    opcode := 7
    subsystem := none
    title := none
    desc := none
    ccsds := none
    fields :=
      [Ccsds.bits "mode" Ccsds.byteType (.single 0) none none,
        { Ccsds.bits "key" Ccsds.byteType (.single 1) none none with fixed := some (.int 0xaa) },
        Ccsds.bits "steps" Ccsds.wordType (.range 2 3) none none] }

theorem sweep_accepted : sweep.Accepted := ⟨.none, sweep.fields, sweep, rfl, rfl⟩

theorem sweep_set_backwards :
    let command := ofValues sweep [.int 5, .int 300]
    ofNamed sweep [("steps", .int 300), ("mode", .int 5)] = command ∧
      (setEach [("steps", .int 300), ("mode", .int 5)]).run.run (ofValues sweep []) = (.ok (), command) ∧
      command.get "key" = .ok (some (.int 0xaa)) ∧ command.get "steps" = .ok (some (.int 300)) ∧
      (setInPlace "key" (.int 1)).run.run command = (.error (.unknownField "SWEEP" "key"), command) := by
  intro command
  obtain ⟨named, later, -, -, get, -, -, refused⟩ := supplied_alike sweep sweep_accepted [.int 5, .int 300] rfl
    [("steps", .int 300), ("mode", .int 5)] [("steps", .int 300), ("mode", .int 5)] (.swap _ _ _) (.swap _ _ _)
  have key := get _ _ (.tail _ (.head _))
  have steps := get _ _ (.tail _ (.tail _ (.head _)))
  refine ⟨named, later, key, steps, (refused command "key" (.int 1) rfl ?_).2⟩
  intro f member same
  rcases member with _ | ⟨_, _ | ⟨_, _ | ⟨_, ⟨⟩⟩⟩⟩
  · exact absurd same (by decide)
  · exact Option.some_ne_none _
  · exact absurd same (by decide)

end Sweeping

end Command

end SpaceLink
