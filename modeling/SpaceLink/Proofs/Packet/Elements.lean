import SpaceLink.Proofs.DataType.Elements
import SpaceLink.Proofs.Packet.Definition
import SpaceLink.Proofs.Packet.Depth

/-!
Array fields, whole and by their elements. The list of a field has the numbers of its elements; an element that is asked
for alone has the name that the enumeration of the field has for its number.
-/

set_option autoImplicit false

namespace SpaceLink

namespace Field

-- A value of the field's bytes in a view of them.
def shown (f : Field) (raw : Bool) (v : Value) : Value := if raw then v else f.withName v

section Arrays

variable (books : Books) (f : Field) (a : ArrayType) (array : f.type = .array a) (unmasked : f.mask = none)

include array unmasked in
theorem decode_slice_whole (data : Bytes) (raw : Bool) :
    f.decodeSlice books data raw none = a.decode books data raw := by
  simp only [decodeSlice, array, DataType.decode]
  cases decoded : a.decode books data raw with
  | error fault => rfl
  | ok v =>
      obtain ⟨items, rfl⟩ := a.decode_list books data raw v decoded
      rw [Attempt.bind_of_ok _ _ _ rfl]
      -- Neither the mask nor the enumeration has a say in a list.
      cases enumerated : f.enumeration <;> simp [unmask, unmasked, withName, enumerated]

include array unmasked in
theorem decode_slice_element (data : Bytes) (raw : Bool) (i : Nat) :
    f.decodeSlice books data raw (some i) = (a.decodeElement books data i raw).map (f.shown raw) := by
  simp only [decodeSlice, array]
  cases a.decodeElement books data i raw with
  | error fault => rfl
  | ok v => simp [bind, Except.bind, Except.map, unmask, unmasked, shown]

include array unmasked in
theorem decode_elements (bytes : Bytes) (raw : Bool) (items : List Value)
    (whole : f.decode books bytes raw none = .ok (.list items)) :
    items.length = a.count ∧
      (∀ i v, items[i]? = some v → f.decode books bytes raw (some i) = .ok (f.shown raw v)) ∧
      ∀ i, a.count ≤ i → f.decode books bytes raw (some i) = .error (.outOfRange (.index i a.name)) := by
  simp only [decode, decodeAt] at whole ⊢
  cases covered : bytes.slice? (f.span 0).start (f.span 0).stop with
  | none =>
      rw [covered] at whole
      cases whole
  | some data =>
      simp only [covered, f.decode_slice_whole books a array unmasked] at whole
      obtain ⟨counted, each⟩ := (a.decode_ok_iff books data raw items).mp whole
      simp only [f.decode_slice_element books a array unmasked]
      refine ⟨counted, ?_, ?_⟩
      · intro i v item
        rw [each i v item]
        rfl
      · intro i outside
        rw [a.decode_element_outside books data i raw outside]
        rfl

end Arrays

end Field

namespace Packet

theorem guarded_value (condition : Option Expression) (symbols : Symbols) (inner : Attempt (Option Value)) (v : Value)
    (value : guarded condition symbols inner = .ok (some v)) :
    inner = .ok (some v) ∧ ∀ other, guarded condition symbols other = other := by
  cases condition with
  | none => exact ⟨value, fun _ => rfl⟩
  | some e =>
      obtain ⟨holds, tested, chosen⟩ := (Attempt.bind_ok_iff _ _ _).mp value
      cases holds with
      | true => exact ⟨chosen, fun _ => Attempt.bind_of_ok _ _ true tested⟩
      | false => cases chosen

variable (c : Context) (p : Packet) (name : String) (f : Field) (found : p.definition.field name = .ok f)

include found in
theorem get_stored (stored : f.isDerived = false) (raw : Bool) (index : Option Nat) :
    p.get c name raw index =
      guarded f.condition (p.symbols c depthLimit) ((f.decode c.books p.data raw index).map some) := by
  obtain ⟨converted, derived⟩ : f.conversion = none ∧ f.expr = none := by
    simpa [Field.isDerived] using stored
  have own : p.own c (p.symbols c depthLimit) f raw index = (f.decode c.books p.data raw index).map some := by
    cases raw <;> simp only [Packet.own, converted, derived] <;> cases f.decode c.books p.data _ index <;> rfl
  rw [get, Attempt.bind_of_ok _ _ f found, readAt, if_neg (Nat.not_lt_zero _), read_with_eq, Nat.sub_zero, own]

include found in
theorem elements_of_array (a : ArrayType) (array : f.type = .array a) (raw : Bool) :
    p.elements c name raw = .ok ((List.range a.count).map fun i => p.get c name raw (some i)) := by
  have own : p.arrayOf name = .ok a := by
    rw [arrayOf, Attempt.bind_of_ok _ _ f found, array]
  exact Attempt.bind_of_ok _ _ a own

include found in
theorem value_of_get (stored : f.isDerived = false) (raw : Bool) (index : Option Nat) (v : Value)
    (value : p.get c name raw index = .ok (some v)) :
    f.decode c.books p.data raw index = .ok v ∧
      ∀ other, p.get c name raw other = (f.decode c.books p.data raw other).map some := by
  have reads := p.get_stored c name f found stored raw
  rw [reads] at value
  obtain ⟨inner, present⟩ := guarded_value _ _ _ _ value
  refine ⟨?_, fun other => (reads other).trans (present _)⟩
  cases decoded : f.decode c.books p.data raw index with
  | error fault =>
      rw [decoded] at inner
      cases inner
  | ok w =>
      rw [decoded] at inner
      cases inner
      rfl

-- The list of an array field is one of numbers: an element that is asked for alone is its item, under the name that the
-- enumeration of the field has for it.
theorem elements_of_list (c : Context) (p : Packet) (accepted : p.definition.Accepted) (name : String) (f : Field)
    (found : p.definition.field name = .ok f) (a : ArrayType) (array : f.type = .array a) (stored : f.isDerived = false)
    (raw : Bool) :
    (∀ items, p.get c name raw none = .ok (some (.list items)) →
      items.length = a.count ∧
      (∀ i v, items[i]? = some v → p.get c name raw (some i) = .ok (some (f.shown raw v))) ∧
      p.elements c name raw = .ok (items.map fun v => .ok (some (f.shown raw v))) ∧
      (∀ i, a.count ≤ i → p.get c name raw (some i) = .error (.outOfRange (.index i a.name))) ∧
      ((∀ i v, items[i]? = some v → p.get c name raw (some i) = .ok (some v)) ↔ ∀ v ∈ items, f.shown raw v = v)) ∧
    ∀ condition, f.condition = some condition → condition.test (p.symbols c depthLimit) = .ok false →
      (∀ index, p.get c name raw index = .ok none) ∧
      p.elements c name raw = .ok (List.replicate a.count (.ok none)) := by
  have unmasked : f.mask = none := by
    apply f.unmasked_of_other (p.definition.accepted_sound accepted f (p.definition.field_member name f found))
    intro t integer
    rw [array] at integer
    cases integer
  rw [p.elements_of_array c name f found a array raw]
  constructor
  · intro items list
    obtain ⟨whole, present⟩ := p.value_of_get c name f found stored raw none _ list
    obtain ⟨counted, each, outside⟩ := f.decode_elements c.books a array unmasked p.data raw items whole
    have alone : ∀ i v, items[i]? = some v → p.get c name raw (some i) = .ok (some (f.shown raw v)) := by
      intro i v item
      rw [present, each i v item]
      rfl
    refine ⟨counted, alone, ?_, ?_, ?_, ?_⟩
    · apply congrArg Except.ok
      apply List.ext_getElem?
      intro i
      rw [List.getElem?_map, List.getElem?_map, ← counted]
      cases item : items[i]? with
      | none => rw [List.getElem?_eq_none (by simpa using item)]; rfl
      | some v =>
          have inside := (List.getElem?_eq_some_iff.mp item).1
          rw [List.getElem?_range inside, Option.map_some, Option.map_some, alone i v item]
    · intro i past
      rw [present, outside i past]
      rfl
    · intro same v member
      obtain ⟨i, item⟩ := List.mem_iff_getElem?.mp member
      have own := (alone i v item).symm.trans (same i v item)
      simpa using own
    · intro unnamed i v item
      rw [alone i v item, unnamed v (List.mem_of_getElem? item)]
  · intro condition guard off
    have absent : ∀ index, p.get c name raw index = .ok none := by
      intro index
      rw [p.get_stored c name f found stored, guard]
      exact Attempt.bind_of_ok _ _ false off
    refine ⟨absent, ?_⟩
    simp only [absent]
    rw [List.map_const', List.length_range]

section Switches

def switches : Field :=
  { Ccsds.bits "switches" Ccsds.byteType (.single 0) none
      (some ⟨[(1, "ON")], List.pairwise_singleton _ _, List.pairwise_singleton _ _⟩) with
    type := .array ⟨.primitive (.int Ccsds.byteType), 2⟩ }

-- Two switches, of which the first is on.
def panel : Packet := ⟨{ Ccsds.header with fields := [switches] }, [1, 0]⟩

theorem panel_accepted : panel.definition.Accepted := ⟨.none, [switches], panel.definition, rfl, rfl⟩

theorem panel_elements :
    panel.get Ccsds.context "switches" false none = .ok (some (.list [.int 1, .int 0])) ∧
      panel.elements Ccsds.context "switches" false = .ok [.ok (some (.str "ON")), .ok (some (.int 0))] ∧
      panel.elements Ccsds.context "switches" true = .ok [.ok (some (.int 1)), .ok (some (.int 0))] := by
  have listed : ∀ raw, panel.get Ccsds.context "switches" raw none = .ok (some (.list [.int 1, .int 0])) := by
    intro raw
    cases raw <;> rfl
  have elements := fun raw =>
    ((elements_of_list Ccsds.context panel panel_accepted "switches" switches rfl _ rfl rfl raw).1 _ (listed raw)).2.2.1
  exact ⟨listed false, elements false, elements true⟩

-- The first item of the list is not the first element.
theorem list_lacks_names :
    panel.definition.Accepted ∧ switches.isDerived = false ∧
      ∃ items v, panel.get Ccsds.context "switches" false none = .ok (some (.list items)) ∧ items[0]? = some v ∧
        panel.get Ccsds.context "switches" false (some 0) ≠ .ok (some v) := by
  refine ⟨panel_accepted, rfl, [.int 1, .int 0], .int 1, rfl, rfl, ?_⟩
  have named : panel.get Ccsds.context "switches" false (some 0) = .ok (some (.str "ON")) := by rfl
  rw [named]
  simp

end Switches

end Packet

end SpaceLink
