import SpaceLink.Proofs.DataType.Grammar

/-!
Types of the user. Adding one changes what its own name stands for and arrays of it, and nothing else. It is refused
where a built-in type has a set name, but not where its name is that of a text, and under such a name it is not found.
-/

set_option autoImplicit false

namespace SpaceLink.Registry

-- Adding a type as it runs on a registry.
def registerInPlace (c : CustomType) : ExceptT Fault (StateM Registry) Unit := do
  if isBuiltIn c.name then throw (.schema (.builtInType c.name))
  modify fun r => { r with custom := c :: r.custom }

-- One type after the other, those that are refused left out.
def registerAll : List CustomType → Registry → Registry
  | [], r => r
  | c :: rest, r => registerAll rest ((registerInPlace c).run.run r).2

theorem built_in_iff (name : String) : isBuiltIn name = true ↔ name ∈ TypeName.standard := by
  simp [isBuiltIn, TypeName.standard_eq]

section Adding

variable (r : Registry) (c : CustomType)

theorem register_in_place_run :
    (registerInPlace c).run.run r =
      match r.register c with
      | .ok next => (.ok (), next)
      | .error fault => (.error fault, r) := by
  simp only [registerInPlace, register]
  by_cases taken : isBuiltIn c.name = true
  · rw [if_pos taken, if_pos taken]
    rfl
  · rw [if_neg taken, if_neg taken]
    rfl

theorem register_refused (taken : c.name ∈ TypeName.standard) :
    (registerInPlace c).run.run r = (.error (.schema (.builtInType c.name)), r) := by
  rw [register_in_place_run, register, if_pos ((built_in_iff c.name).mpr taken)]

theorem register_accepted (free : c.name ∉ TypeName.standard) :
    (registerInPlace c).run.run r = (.ok (), { r with custom := c :: r.custom }) := by
  rw [register_in_place_run, register, if_neg fun taken => free ((built_in_iff c.name).mp taken)]

theorem scalar_added (name : String) :
    ({ r with custom := c :: r.custom } : Registry).scalar? name =
      if c.name = name then (empty.scalar? name).or (some (.custom c)) else r.scalar? name := by
  rw [scalar_split, r.scalar_split, List.find?_cons]
  by_cases same : c.name = name
  · rw [if_pos same, beq_iff_eq.mpr same]
    rfl
  · rw [if_neg same, beq_eq_false_iff_ne.mpr same]

theorem scalar_registered (name : String) (other : c.name ≠ name) :
    ((registerInPlace c).run.run r).2.scalar? name = r.scalar? name := by
  by_cases taken : c.name ∈ TypeName.standard
  · rw [r.register_refused c taken]
  · rw [r.register_accepted c taken, scalar_added, if_neg other]

end Adding

theorem scalar_after (name : String) (later : List CustomType) (others : ∀ d ∈ later, d.name ≠ name) (r : Registry) :
    (registerAll later r).scalar? name = r.scalar? name := by
  induction later generalizing r with
  | nil => rfl
  | cons d rest ih =>
      rw [registerAll, ih (fun other member => others other (List.mem_cons_of_mem _ member))]
      exact r.scalar_registered d name (others d List.mem_cons_self)

-- What is built in stays.
theorem scalar_kept (r : Registry) (name : String) (s : Scalar) (found : empty.scalar? name = some s) :
    r.scalar? name = some s := by
  rw [scalar_split, found, Option.some_or]

-- A name is looked up as a whole and, if it is an array's, by what stands before the bracket.
theorem get_same (a b : Registry) (text : String) (whole : a.scalar? (Text.trim text) = b.scalar? (Text.trim text))
    (elements : ∀ element count, TypeName.ArrayOf element count (Text.trim text).toList →
      a.scalar? (String.ofList element) = b.scalar? (String.ofList element)) : a.get text = b.get text := by
  cases found : b.scalar? (Text.trim text) with
  | some s => rw [b.get_scalar text s found, a.get_scalar text s (whole.trans found)]
  | none =>
      rw [b.get_spec text found, a.get_spec text (whole.trans found)]
      cases specified : arraySpec (Text.trim text) with
      | error fault => rw [Attempt.bind_of_error _ _ fault rfl, Attempt.bind_of_error _ _ fault rfl]
      | ok spec =>
          cases spec with
          | none => rw [Attempt.bind_of_ok _ _ none rfl, Attempt.bind_of_ok _ _ none rfl]
          | some parts =>
              obtain ⟨base, count⟩ := parts
              have array := (array_of_iff (Text.trim text) (Text.trimmed base.toList) count).mpr ⟨base, specified, rfl⟩
              have same : a.scalar? (Text.trim base) = b.scalar? (Text.trim base) := elements _ count array
              simp only [Attempt.bind_of_ok _ _ _ rfl, same]

theorem registered_name_found (r : Registry) (c : CustomType) (trimmed : Text.trim c.name = c.name) :
    (c.name ∈ TypeName.standard → (registerInPlace c).run.run r = (.error (.schema (.builtInType c.name)), r)) ∧
    (c.name ∉ TypeName.standard → ∃ next, (registerInPlace c).run.run r = (.ok (), next) ∧
      (∀ text, Text.trim text ≠ c.name →
        (∀ count, ¬ TypeName.ArrayOf c.name.toList count (Text.trim text).toList) → next.get text = r.get text) ∧
      (¬ TypeName.Simple c.name.toList → ∀ later, (∀ d ∈ later, d.name ≠ c.name) →
        (registerAll later next).get c.name = .ok (.scalar (.custom c))) ∧
      (TypeName.Simple c.name.toList → (∀ text, next.get text = r.get text) ∧
        ∃ t : TextType, t.name = c.name ∧
          ∀ later, (registerAll later next).get c.name = .ok (.scalar (.primitive (.text t))))) := by
  refine ⟨r.register_refused c, fun free => ⟨_, r.register_accepted c free, ?others, ?found, ?hidden⟩⟩
  case others =>
    intro text other noArray
    apply get_same
    · rw [scalar_added, if_neg (Ne.symm other)]
    · intro element count array
      rw [scalar_added, if_neg]
      intro same
      rw [same, String.toList_ofList] at noArray
      exact noArray count array
  case found =>
    intro plain later others
    have unknown : empty.scalar? c.name = none := by
      cases known : empty.scalar? c.name with
      | none => rfl
      | some s => exact absurd (scalar_named _ s known).2 plain
    apply get_scalar
    rw [trimmed, scalar_after c.name later others, scalar_added, if_pos rfl, unknown, Option.none_or]
  case hidden =>
    intro simple
    obtain ⟨t, named, known⟩ := scalar_of_text c.name free simple
    have same : ∀ name, ({ r with custom := c :: r.custom } : Registry).scalar? name = r.scalar? name := by
      intro name
      by_cases own : c.name = name
      · rw [scalar_kept _ name _ (own ▸ known), scalar_kept r name _ (own ▸ known)]
      · rw [scalar_added, if_neg own]
    refine ⟨fun text => get_same _ _ text (same _) fun element _ _ => same _, t, named, fun later => ?_⟩
    apply get_scalar
    rw [trimmed]
    exact scalar_kept _ _ _ known

section Flags

def flag (name : String) : CustomType :=
  { name
    nbytes := 1
    encode := fun v => .ok [if v.isTrue then 1 else 0]
    decode := fun bytes _ => .ok (.bool (bytes.any (· != 0)))
    validate := fun _ _ log => .pass log }

theorem flag_found :
    ∃ next, (registerInPlace (flag "FLAG")).run.run empty = (.ok (), next) ∧
      (registerAll [flag "MARK", flag "U8"] next).get "FLAG" = .ok (.scalar (.custom (flag "FLAG"))) ∧
      next.get "MSB_U16" = empty.get "MSB_U16" := by
  obtain ⟨next, added, others, found, -⟩ := (registered_name_found empty (flag "FLAG") (by decide)).2 (by decide)
  refine ⟨next, added, found ?_ _ (by decide), others _ (by decide) ?_⟩
  · intro simple
    obtain ⟨s, known⟩ := scalar_of_simple _ simple
    have unknown : (empty.scalar? "FLAG").isNone = true := by decide +kernel
    rw [Option.isNone_iff_eq_none] at unknown
    cases unknown.symm.trans known
  · rintro count ⟨before, inside, split, -⟩
    have bracket : '[' ∈ (Text.trim "MSB_U16").toList := split ▸ List.mem_append_right _ List.mem_cons_self
    revert bracket
    decide

-- Under the name of a text of five bytes, a type is taken in and never found.
theorem five_not_found :
    Text.trim (flag "S5").name = (flag "S5").name ∧
      ∃ next, (registerInPlace (flag "S5")).run.run empty = (.ok (), next) ∧
        next.get "S5" ≠ .ok (.scalar (.custom (flag "S5"))) := by
  have five : TypeName.Simple "S5".toList :=
    .text ['5'] 5 ⟨by decide, ['5'], .digit '5' 5 (by decide) (.inl rfl), .inl rfl⟩
  obtain ⟨t, -, known⟩ := scalar_of_text "S5" (by decide) five
  refine ⟨by decide, _, register_accepted empty (flag "S5") (by decide), ?_⟩
  rw [get_scalar _ "S5" _ (scalar_kept _ _ _ known)]
  exact nofun

end Flags

end SpaceLink.Registry
