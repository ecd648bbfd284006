import SpaceLink.Ccsds.Header
import SpaceLink.Proofs.Expr.Mention
import SpaceLink.Proofs.Packet.Depth

/-!
What the value of a field may depend on. Two packets of one definition that have the same bytes in the
fields reached from a field by the names in expressions give it the same outcome, whatever their other
bytes are.
-/

set_option autoImplicit false

namespace SpaceLink

namespace Field

def expressions (f : Field) : List Expression :=
  f.condition.toList ++ (f.expr.toList ++ f.conversion.toList.flatMap Conversion.expressions)

def SameBytes (f : Field) (a b : Bytes) : Prop :=
  ∀ i, (f.span 0).start ≤ i → i < (f.span 0).stop → a[i]? = b[i]?

theorem slice_of_same (a b : Bytes) (start stop : Nat) (length : a.length = b.length)
    (same : ∀ i, start ≤ i → i < stop → a[i]? = b[i]?) : a.slice? start stop = b.slice? start stop := by
  have pieces : (a.drop start).take (stop - start) = (b.drop start).take (stop - start) := by
    apply List.ext_getElem?
    intro i
    rw [List.getElem?_take, List.getElem?_take]
    by_cases inside : i < stop - start
    · rw [if_pos inside, if_pos inside, List.getElem?_drop, List.getElem?_drop]
      exact same (start + i) (by omega) (by omega)
    · rw [if_neg inside, if_neg inside]
  simp only [Bytes.slice?, length, pieces]

-- A type is shown the bytes of the field only, so this holds for the user's own types too.
theorem decode_of_same (books : Books) (f : Field) (a b : Bytes) (length : a.length = b.length) (same : f.SameBytes a b)
    (raw : Bool) (index : Option Nat) : f.decode books a raw index = f.decode books b raw index := by
  simp only [decode, decodeAt]
  rw [slice_of_same a b _ _ length same, length]

end Field

namespace PacketDefinition

-- Any function may be called from any expression, so the fields that functions name are reached from each.
inductive Reach (d : PacketDefinition) (f : Field) : Field → Prop
  | self : Reach d f f
  | named (g h : Field) (e : Expression) (n : String) (reached : Reach d f g) (own : e ∈ g.expressions)
      (mentioned : n ∈ e.tree.mentioned) (found : d.field? n = some h) : Reach d f h
  | called (function : String) (user : UserFunction) (h : Field) (e : Expression) (n : String)
      (defined : d.function? function = some user) (own : e ∈ user.body.expressions)
      (mentioned : n ∈ e.tree.mentioned) (found : d.field? n = some h) : Reach d f h

-- A name that leads to a reached field, or to none.
def Reachable (d : PacketDefinition) (f : Field) (n : String) : Prop := ∀ h, d.field? n = some h → d.Reach f h

variable (d : PacketDefinition) (f : Field)

theorem field_names_reachable (g : Field) (reached : d.Reach f g) :
    ∀ e ∈ g.expressions, ∀ n ∈ e.tree.mentioned, d.Reachable f n :=
  fun e own n mentioned h found => .named g h e n reached own mentioned found

theorem function_names_reachable (function : String) (user : UserFunction) (defined : d.function? function = some user) :
    ∀ e ∈ user.body.expressions, ∀ n ∈ e.tree.mentioned, d.Reachable f n :=
  fun e own n mentioned h found => .called function user h e n defined own mentioned found

end PacketDefinition

namespace Packet

section Agreement

variable (c : Context) (d : PacketDefinition) (f : Field) (a b : Bytes) (length : a.length = b.length)
variable (same : ∀ g, d.Reach f g → g.SameBytes a b)
variable (one other : Symbols) (agree : one.Agree (d.Reachable f) other)

include length same agree in
theorem own_agrees (g : Field) (reached : d.Reach f g) (raw : Bool) (index : Option Nat) :
    own c ⟨d, a⟩ one g raw index = own c ⟨d, b⟩ other g raw index := by
  have stored := g.decode_of_same c.books a b length (same g reached) raw index
  have names := d.field_names_reachable f g reached
  simp only [Field.expressions, List.forall_mem_append] at names
  obtain ⟨_, inExpr, inConversion⟩ := names
  cases raw with
  | true => simp only [own, stored]
  | false =>
      cases converted : g.conversion with
      | some k =>
          rw [converted] at inConversion
          simp only [own, converted]
          exact k.eval_agrees _ one other agree fun e member => inConversion e (by simpa using member)
      | none =>
          cases derived : g.expr with
          | some e =>
              rw [derived] at inExpr
              simp only [own, converted, derived, Expression.eval]
              exact e.tree.eval_agrees _ one other agree (inExpr e List.mem_cons_self)
          | none => simp only [own, converted, derived, stored]

include length same agree in
theorem read_agrees (g : Field) (reached : d.Reach f g) (raw : Bool) (index : Option Nat) :
    readWith c ⟨d, a⟩ one g raw index = readWith c ⟨d, b⟩ other g raw index := by
  have names := d.field_names_reachable f g reached
  simp only [Field.expressions, List.forall_mem_append] at names
  rw [read_with_eq, read_with_eq]
  exact guarded_agrees _ one other agree g.condition names.1 _ _
    (own_agrees c d f a b length same one other agree g reached raw index)

theorem symbols_with_agree (read sameRead : Field → Bool → Attempt (Option Value))
    (call sameCall : String → List (Option Value) → Option (Attempt (Option Value)))
    (reads : ∀ g, d.Reach f g → ∀ raw, read g raw = sameRead g raw) (calls : call = sameCall) :
    (symbolsWith c ⟨d, a⟩ read call).Agree (d.Reachable f) (symbolsWith c ⟨d, b⟩ sameRead sameCall) := by
  refine ⟨?_, ?_, rfl, calls, rfl⟩
  · intro n reachable
    simp only [symbolsWith]
    cases found : d.field? n with
    | none => rfl
    | some g => exact reads g (reachable g found) false
  · intro n reachable
    simp only [symbolsWith]
    cases found : d.field? n with
    | none => rfl
    | some g => exact reads g (reachable g found) true

include length same in
-- One level more reads the reached fields, and calls the functions, in the names of the level below.
theorem symbols_agree (levels : Nat) :
    (symbols c ⟨d, a⟩ levels).Agree (d.Reachable f) (symbols c ⟨d, b⟩ levels) := by
  induction levels with
  | zero => exact symbols_with_agree c d f a b _ _ _ _ (fun _ _ _ => rfl) rfl
  | succ levels ih =>
      rw [symbols_succ, symbols_succ]
      apply symbols_with_agree
      · intro g reached raw
        exact read_agrees c d f a b length same _ _ ih g reached raw none
      · funext function args
        cases defined : d.function? function with
        | none => rfl
        | some user =>
            have names := d.function_names_reachable f function user defined
            simp only [Option.map_some, user.invoke_agrees _ _ _ ih names args]

include length same in
theorem read_at_agrees (depth : Nat) (raw : Bool) (index : Option Nat) :
    readAt c ⟨d, a⟩ depth f raw index = readAt c ⟨d, b⟩ depth f raw index := by
  simp only [readAt]
  by_cases past : depthLimit < depth
  · rw [if_pos past, if_pos past]
    rfl
  · rw [if_neg past, if_neg past]
    have below := symbols_agree c d f a b length same (depthLimit - depth)
    exact read_agrees c d f a b length same _ _ below f .self raw index

end Agreement

-- The packets of a definition are all of one length.
theorem reading_follows_reach (c : Context) (p q : Packet) (definition : q.definition = p.definition)
    (length : q.data.length = p.data.length) (name : String) (f : Field) (found : p.definition.field name = .ok f)
    (same : ∀ g, p.definition.Reach f g → g.SameBytes p.data q.data) (raw : Bool) (index : Option Nat) :
    p.get c name raw index = q.get c name raw index := by
  obtain ⟨d, a⟩ := p
  obtain ⟨_, b⟩ := q
  cases definition
  simp only [get]
  rw [Attempt.bind_of_ok _ _ f found, Attempt.bind_of_ok _ _ f found]
  exact read_at_agrees c d f a b length.symm same 0 raw index

section Modes

def switch : Field := Ccsds.bits "switch" Ccsds.byteType (.single 0) none none

def mode : Field :=
  { Ccsds.bits "mode" Ccsds.byteType (.single 1) none none with condition := some ⟨"switch", .name "switch"⟩ }

def noise : Field := Ccsds.bits "noise" Ccsds.byteType (.single 2) none none

def total : Field :=
  { Ccsds.bits "total" Ccsds.byteType (.single 0) none none with
    expr := some ⟨"twice(mode)", .call "twice" [.name "mode"]⟩ }

def twice : UserFunction :=
  ⟨"twice", ["x"], .expression ⟨"x + raw.mode", .binary .add (.name "x") (.member "raw" "mode")⟩⟩

-- The total is twice the mode, which is there while it is switched on.
def modes : PacketDefinition := { Ccsds.header with fields := [switch, mode, noise, total], functions := [twice] }

theorem total_reaches (g : Field) (reached : modes.Reach total g) : g = total ∨ g = switch ∨ g = mode := by
  induction reached with
  | self => exact .inl rfl
  | named g h e n reached own mentioned found ih =>
      have named : n = "mode" ∨ n = "switch" := by
        rcases ih with rfl | rfl | rfl
        · cases List.mem_singleton.mp own
          exact .inl (List.mem_singleton.mp mentioned)
        · cases own
        · cases List.mem_singleton.mp own
          exact .inr (List.mem_singleton.mp mentioned)
      rcases named with rfl | rfl
      · exact .inr (.inr (Option.some.inj found).symm)
      · exact .inr (.inl (Option.some.inj found).symm)
  | called function user h e n defined own mentioned found =>
      have only : user = twice := List.mem_singleton.mp (List.mem_reverse.mp (List.mem_of_find?_eq_some defined))
      subst only
      cases List.mem_singleton.mp own
      rcases List.mem_cons.mp mentioned with rfl | later
      · cases found
      · cases List.mem_singleton.mp later
        exact .inr (.inr (Option.some.inj found).symm)

def report (noise : UInt8) : Packet := ⟨modes, [1, 5, noise]⟩

-- Two packets that differ in their noise only have the same total.
theorem total_ignores_noise :
    (report 0).get Ccsds.context "total" false none = .ok (some (.int 10)) ∧
      (report 0).get Ccsds.context "total" false none = (report 255).get Ccsds.context "total" false none := by
  refine ⟨by rfl, reading_follows_reach Ccsds.context (report 0) (report 255) rfl rfl "total" total rfl ?_ false none⟩
  intro g reached i start stop
  have bytes : i = 0 ∨ i = 1 := by
    rcases total_reaches g reached with rfl | rfl | rfl
    · exact .inl (Nat.lt_one_iff.mp stop)
    · exact .inl (Nat.lt_one_iff.mp stop)
    · exact .inr (Nat.le_antisymm (Nat.lt_succ_iff.mp stop) start)
  rcases bytes with rfl | rfl
  · rfl
  · rfl

end Modes

end Packet

end SpaceLink
