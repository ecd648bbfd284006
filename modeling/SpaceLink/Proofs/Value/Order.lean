import SpaceLink.Value

/-!
Equality and order of values without doubles. Two values are equal if what counts of them is the same: of a truth value,
a command or an event that is its number. Values that have an order stand on one of three scales, and their order is
that of integers, texts or instants.
-/

set_option autoImplicit false

namespace SpaceLink

instance : Std.TransCmp Instant.compare :=
  inferInstanceAs (Std.TransCmp (compareLex (compareOn Instant.seconds) (compareOn Instant.nanos)))

instance : Std.LawfulEqCmp Instant.compare where
  eq_of_compare := by
    rintro ⟨seconds, nanos⟩ ⟨seconds', nanos'⟩ equal
    obtain ⟨first, second⟩ := Ordering.then_eq_eq.mp equal
    have sameSeconds : seconds = seconds' := Std.LawfulEqCmp.eq_of_compare first
    have sameNanos : nanos = nanos' := Std.LawfulEqCmp.eq_of_compare second
    rw [sameSeconds, sameNanos]

-- The first and the third of three things, unless the two steps between them lead in opposite directions.
theorem compare_through {α : Type} (cmp : α → α → Ordering) [Std.TransCmp cmp] (a b c : α)
    (onward : cmp a b = .eq ∨ cmp b c = .eq ∨ cmp a b = cmp b c) : cmp a c = (cmp a b).then (cmp b c) := by
  cases first : cmp a b with
  | eq => exact Std.TransCmp.congr_left first
  | lt =>
      cases second : cmp b c with
      | lt => exact Std.TransCmp.lt_trans first second
      | eq => exact Std.TransCmp.lt_of_lt_of_eq first second
      | gt => simp [first, second] at onward
  | gt =>
      cases second : cmp b c with
      | lt => simp [first, second] at onward
      | eq => exact Std.TransCmp.gt_of_gt_of_eq first second
      | gt => exact Std.TransCmp.gt_trans first second

-- Where a value stands among those that it has an order with.
inductive Scale where
  | number (n : Int)
  | text (s : String)
  | time (t : Instant)

namespace Scale

def compare? : Scale → Scale → Option Ordering
  | .number m, .number n => some (compare m n)
  | .text s, .text t => some (compare s t)
  | .time i, .time j => some (i.compare j)
  | _, _ => none

theorem compare_swap (s t : Scale) : t.compare? s = (s.compare? t).map Ordering.swap := by
  cases s with
  | number m => cases t <;> simp [compare?, ← Std.OrientedCmp.eq_swap]
  | text s => cases t <;> simp [compare?, ← Std.OrientedCmp.eq_swap]
  | time i =>
      cases t with
      | time j => exact congrArg some Std.OrientedCmp.eq_swap
      | _ => rfl

theorem compare_eq_iff (s t : Scale) : s.compare? t = some .eq ↔ s = t := by
  cases s with
  | number m => cases t <;> simp [compare?]
  | text s => cases t <;> simp [compare?]
  | time i => cases t <;> simp [compare?, Std.LawfulEqCmp.compare_eq_iff_eq]

theorem compare_trans (s t u : Scale) (o p : Ordering) (first : s.compare? t = some o) (second : t.compare? u = some p)
    (onward : o = .eq ∨ p = .eq ∨ o = p) : s.compare? u = some (o.then p) := by
  match s, t, u, first, second with
  | .number l, .number m, .number n, rfl, rfl => exact congrArg some (compare_through compare l m n onward)
  | .text s, .text t, .text u, rfl, rfl => exact congrArg some (compare_through compare s t u onward)
  | .time i, .time j, .time k, rfl, rfl => exact congrArg some (compare_through Instant.compare i j k onward)

end Scale

namespace Value

-- No double at any depth.
inductive Doubleless : Value → Prop where
  | int (n : Int) : Doubleless (.int n)
  | str (s : String) : Doubleless (.str s)
  | bool (b : Bool) : Doubleless (.bool b)
  | time (t : Instant) : Doubleless (.time t)
  | list (items : List Value) (each : ∀ v ∈ items, Doubleless v) : Doubleless (.list items)
  | command (r : Reference) : Doubleless (.command r)
  | event (r : Reference) : Doubleless (.event r)

mutual

-- What equality sees of a value.
def counted : Value → Value
  | .bool b => .int (if b then 1 else 0)
  | .list items => .list (countedItems items)
  | .command r => .command ⟨"", r.number⟩
  | .event r => .event ⟨"", r.number⟩
  | v => v

def countedItems : List Value → List Value
  | [] => []
  | v :: rest => counted v :: countedItems rest

end

theorem equal_items_iff (items others : List Value)
    (each : ∀ v ∈ items, ∀ w ∈ others, v.equal w = true ↔ v.counted = w.counted) :
    equalItems items others = true ↔ countedItems items = countedItems others := by
  induction items generalizing others with
  | nil => cases others <;> simp [equalItems, countedItems]
  | cons v rest ih =>
      cases others with
      | nil => simp [equalItems, countedItems]
      | cons w more =>
          have first := each v List.mem_cons_self w List.mem_cons_self
          have later := ih more fun x member y member' =>
            each x (List.mem_cons_of_mem _ member) y (List.mem_cons_of_mem _ member')
          simp only [equalItems, countedItems, Bool.and_eq_true, List.cons.injEq, first, later]

theorem equal_iff (a b : Value) (plain : a.Doubleless) (plain' : b.Doubleless) :
    a.equal b = true ↔ a.counted = b.counted := by
  induction plain generalizing b with
  | list items each ih =>
      cases plain' with
      | list others each' =>
          simp only [equal, counted, list.injEq]
          exact equal_items_iff items others fun v inside w inside' => ih v inside w (each' w inside')
      | _ => simp [equal, counted, exactInt?]
  | _ => cases plain' <;> simp [equal, counted, exactInt?]

def scale? : Value → Option Scale
  | .int n => some (.number n)
  | .bool b => some (.number (if b then 1 else 0))
  | .str s => some (.text s)
  | .time t => some (.time t)
  | _ => none

theorem equal_iff_scale (a b : Value) (s t : Scale) (place : a.scale? = some s) (place' : b.scale? = some t) :
    a.equal b = true ↔ s = t := by
  cases a <;> cases b <;> simp only [scale?, Option.some.injEq, reduceCtorEq] at place place' <;> subst place place' <;>
    simp [equal, exactInt?]

-- Both are numbers, both texts or both times.
def Comparable (a b : Value) : Prop :=
  a.isNumeric = true ∧ b.isNumeric = true ∨ a.kind = .string ∧ b.kind = .string ∨ a.kind = .time ∧ b.kind = .time

section Order

variable (a b c : Value) (plain : a.Doubleless) (plain' : b.Doubleless)

include plain in
theorem equal_refl : a.equal a = true := (equal_iff a a plain plain).mpr rfl

include plain plain'

theorem equal_symm : a.equal b = b.equal a := by
  rw [Bool.eq_iff_iff, equal_iff a b plain plain', equal_iff b a plain' plain, eq_comm]

theorem compare_scale : a.compare? b = a.scale?.bind fun s => b.scale?.bind fun t => s.compare? t := by
  cases plain <;> cases plain' <;> simp [compare?, scale?, isNumeric, exactInt?, Scale.compare?]

theorem compare_some_iff (order : Ordering) :
    a.compare? b = some order ↔ ∃ s t, a.scale? = some s ∧ b.scale? = some t ∧ s.compare? t = some order := by
  simp only [compare_scale a b plain plain', Option.bind_eq_some_iff]
  constructor
  · rintro ⟨s, place, t, place', ordered⟩
    exact ⟨s, t, place, place', ordered⟩
  · rintro ⟨s, t, place, place', ordered⟩
    exact ⟨s, place, t, place', ordered⟩

theorem comparable_iff : a.Comparable b ↔ ∃ order, a.compare? b = some order := by
  cases plain <;> cases plain' <;> simp [Comparable, compare?, isNumeric, kind, exactInt?]

theorem compare_eq_iff (order : Ordering) (ordered : a.compare? b = some order) : order = .eq ↔ a.equal b = true := by
  obtain ⟨s, t, place, place', compared⟩ := (compare_some_iff a b plain plain' order).mp ordered
  rw [equal_iff_scale a b s t place place', ← Scale.compare_eq_iff, compared, Option.some.injEq]

theorem compare_swap : b.compare? a = (a.compare? b).map Ordering.swap := by
  rw [compare_scale a b plain plain', compare_scale b a plain' plain]
  cases a.scale? with
  | none => cases b.scale? <;> rfl
  | some s =>
      cases b.scale? with
      | none => rfl
      | some t => exact s.compare_swap t

variable (plain'' : c.Doubleless)

include plain''

theorem equal_trans (first : a.equal b = true) (second : b.equal c = true) : a.equal c = true := by
  rw [equal_iff a b plain plain'] at first
  rw [equal_iff b c plain' plain''] at second
  exact (equal_iff a c plain plain'').mpr (first.trans second)

theorem compare_trans (o p : Ordering) (first : a.compare? b = some o) (second : b.compare? c = some p)
    (onward : o = .eq ∨ p = .eq ∨ o = p) : a.compare? c = some (o.then p) := by
  obtain ⟨s, t, place, place', compared⟩ := (compare_some_iff a b plain plain' o).mp first
  obtain ⟨t', u, same, place'', compared'⟩ := (compare_some_iff b c plain' plain'' p).mp second
  cases place'.symm.trans same
  exact (compare_some_iff a c plain plain'' _).mpr ⟨s, u, place, place'', s.compare_trans t u o p compared compared' onward⟩

end Order

end Value

end SpaceLink
