import SpaceLink.Proofs.Expr.Unknown
import SpaceLink.Proofs.Field.Shortage
import SpaceLink.Proofs.Packet.Definition
import SpaceLink.Proofs.Packet.Levels
import SpaceLink.Proofs.Packet.Reach

/-!
What a bare name stands for. A field is read, unless what goes wrong in it is that some field does not exist: then the
name counts as one that the packet does not know, and a constant of the table or another fault takes the field's place.
-/

set_option autoImplicit false

namespace SpaceLink

open Attempt

theorem Field.decode_known (culprit : String → Prop) (books : Books) (f : Field) (builtIn : f.type.isBuiltIn = true)
    (bytes : Bytes) (raw : Bool) (index : Option Nat) : Only (Fault.Blames culprit) (f.decode books bytes raw index) := by
  simp only [decode, decodeAt]
  split
  case _ data _ =>
      intro fault failed
      have reading := f.decode_slice_only books builtIn data raw index fault failed
      cases fault with
      | unknownField definition n => cases reading
      | _ => trivial
  · simp

namespace PacketDefinition

-- The expressions in which a name behind `raw` may be asked for while a field is read. A raw value is that of the bytes,
-- but its field may be there under a condition only; bare names are no way on, and any function may be called.
inductive Asked (d : PacketDefinition) (f : Field) : Expression → Prop
  | own (e : Expression) (own : e ∈ f.expressions) : Asked d f e
  | behind (e guard : Expression) (n : String) (g : Field) (asked : Asked d f e) (named : n ∈ e.tree.behindRaw)
      (found : d.field? n = some g) (condition : g.condition = some guard) : Asked d f guard
  | called (function : String) (user : UserFunction) (e : Expression) (defined : d.function? function = some user)
      (own : e ∈ user.body.expressions) : Asked d f e

def AskedName (d : PacketDefinition) (f : Field) (n : String) : Prop := ∃ e, d.Asked f e ∧ n ∈ e.tree.behindRaw

-- A name that is asked for although no field has it.
def Missing (d : PacketDefinition) (f : Field) (n : String) : Prop := d.field? n = none ∧ d.AskedName f n

end PacketDefinition

namespace FunctionTable

-- What a bare name stands for that the packet does not know.
def answer (table : FunctionTable) (n : String) : Attempt (Option Value) :=
  match table.constant? n with
  | some v => .ok (some v)
  | none => .error (.expression (.undefinedName n))

theorem or_constant_same_iff (table : FunctionTable) (n : String) (own : Attempt (Option Value)) :
    Symbols.orConstant table n own = own ↔ ∀ definition m, own ≠ .error (.unknownField definition m) := by
  constructor
  · intro same definition m unknown
    subst unknown
    change table.answer n = _ at same
    simp only [answer] at same
    split at same <;> cases same
  · intro known
    unfold Symbols.orConstant
    split
    · exact absurd rfl (known _ _)
    · rfl

end FunctionTable

namespace Packet

variable (c : Context) (p : Packet) (f : Field)

section Blame

variable (builtIn : ∀ g ∈ p.definition.fields, g.type.isBuiltIn = true) (quiet : p.definition.table.Quiet)

include quiet in
theorem symbols_with_blame (asked culprit : String → Prop) (read : Field → Bool → Attempt (Option Value))
    (call : String → List (Option Value) → Option (Attempt (Option Value)))
    (missing : ∀ n, asked n → p.definition.field? n = none → culprit n)
    (reads : ∀ n g, asked n → p.definition.field? n = some g → Only (Fault.Blames culprit) (read g true))
    (calls : ∀ function args result, call function args = some result → Only (Fault.Blames culprit) result) :
    (p.symbolsWith c read call).Blame asked culprit := by
  refine ⟨?_, ?_, calls, quiet⟩
  · intro n own
    simp only [symbolsWith]
    cases found : p.definition.field? n with
    | some g => exact reads n g own found
    | none =>
        rw [only_error_iff]
        exact missing n own found
  · intro n
    simp only [symbolsWith]
    split <;> simp

include builtIn quiet in
-- On each level a name behind `raw` asks no more than the condition of its field.
theorem symbols_blame (levels : Nat) :
    (p.symbols c levels).Blame (p.definition.AskedName f) (p.definition.Missing f) := by
  have missing : ∀ n, p.definition.AskedName f n → p.definition.field? n = none → p.definition.Missing f n :=
    fun n asked absent => ⟨absent, asked⟩
  induction levels with
  | zero =>
      refine p.symbols_with_blame c quiet _ _ _ _ missing ?_ ?_
      · intro n g _ _
        simp [tooDeep]
      · intro function args result called
        cases called
        simp
  | succ levels ih =>
      rw [symbols_succ]
      refine p.symbols_with_blame c quiet _ _ _ _ missing ?_ ?_
      · rintro n g ⟨e, asked, named⟩ found
        rw [read_with_eq]
        refine guarded_blames _ _ _ ih g.condition ?_ _ ?_
        · intro guard condition m inside
          exact ⟨guard, .behind e guard n g asked named found condition, inside⟩
        · have known := g.decode_known (p.definition.Missing f) c.books (builtIn g (List.mem_of_find?_eq_some found))
            p.data true none
          exact only_bind _ _ _ known fun _ _ => only_ok _ _
      · intro function args result called
        obtain ⟨user, defined, rfl⟩ := Option.map_eq_some_iff.mp called
        refine user.invoke_blames _ _ _ ih ?_ args
        exact fun e own n inside => ⟨e, .called function user e defined own, inside⟩

include builtIn quiet in
theorem read_blames (levels : Nat) (member : f ∈ p.definition.fields) (raw : Bool) (index : Option Nat) :
    Only (Fault.Blames (p.definition.Missing f)) (p.readWith c (p.symbols c levels) f raw index) := by
  have blame := p.symbols_blame c f builtIn quiet levels
  have asked : ∀ e ∈ f.expressions, ∀ n ∈ e.tree.behindRaw, p.definition.AskedName f n :=
    fun e own n inside => ⟨e, .own e own, inside⟩
  simp only [Field.expressions, List.forall_mem_append] at asked
  obtain ⟨inCondition, inExpr, inConversion⟩ := asked
  have stored : Only (Fault.Blames (p.definition.Missing f)) (do .ok (some (← f.decode c.books p.data raw index))) :=
    only_bind _ _ _ (f.decode_known _ c.books (builtIn f member) p.data raw index) fun _ _ => only_ok _ _
  rw [read_with_eq]
  refine guarded_blames _ _ _ blame f.condition (fun e own => inCondition e (Option.mem_toList.mpr own)) _ ?_
  cases raw with
  | true => exact stored
  | false =>
      cases converted : f.conversion with
      | some k =>
          rw [converted] at inConversion
          simp only [own, converted]
          exact k.eval_blames _ _ _ blame fun e member => inConversion e (by simpa using member)
      | none =>
          cases derived : f.expr with
          | some e =>
              rw [derived] at inExpr
              simp only [own, converted, derived]
              exact e.tree.eval_blames _ _ _ blame (inExpr e List.mem_cons_self)
          | none => simpa only [own, converted, derived] using stored

include builtIn quiet in
theorem read_at_blames (depth : Nat) (member : f ∈ p.definition.fields) (raw : Bool) (index : Option Nat) :
    Only (Fault.Blames (p.definition.Missing f)) (p.readAt c depth f raw index) := by
  simp only [readAt]
  split
  · simp [tooDeep]
  · exact p.read_blames c f builtIn quiet _ member raw index

end Blame

-- In the names of a depth a field is read one deeper.
theorem symbols_value (depth : Nat) (within : depth ≤ depthLimit) (n : String)
    (found : p.definition.field? n = some f) :
    (p.symbols c (depthLimit - depth)).value n = p.readAt c (depth + 1) f false none := by
  simp only [readAt]
  cases remaining : depthLimit - depth with
  | zero =>
      rw [if_pos (by omega)]
      simp only [symbols, symbolsWith, found]
  | succ levels =>
      rw [if_neg (by omega), show depthLimit - (depth + 1) = levels by omega, symbols_succ]
      simp only [symbolsWith, found]

theorem symbols_constant (levels : Nat) (n : String) (absent : p.definition.field? n = none) (v : Value)
    (constant : p.definition.constant? n = some v) : (p.symbols c levels).value n = .ok (some v) := by
  cases levels <;> simp only [symbols, symbolsWith, absent, constant]

theorem symbols_unknown (levels : Nat) (n : String) (absent : p.definition.field? n = none)
    (constant : p.definition.constant? n = none) :
    (p.symbols c levels).value n = .error (.unknownField p.definition.name n) := by
  cases levels <;> simp only [symbols, symbolsWith, absent, constant]

theorem symbols_table (levels : Nat) : (p.symbols c levels).functions = p.definition.table := by
  cases levels <;> rfl

-- A bare name that no parameter hides. It stands for the field of the name unless some field is missing for that, which
-- takes a name behind `raw` that no field has; then the name is taken for one that the packet does not know.
theorem bare_name_reads_field (c : Context) (p : Packet) (depth : Nat) (within : depth ≤ depthLimit) (scope : Scope)
    (n : String) (free : UserFunction.argument? n scope.params scope.args = none) :
    let value := (Expr.name n).eval (scope.names (p.symbols c (depthLimit - depth)))
    (∀ f, p.definition.field? n = some f →
      let read := p.readAt c (depth + 1) f false none
      (value = read ↔ ∀ definition m, read ≠ .error (.unknownField definition m)) ∧
      ∀ definition m, read = .error (.unknownField definition m) →
        value = p.definition.table.answer n ∧
        ((∀ g ∈ p.definition.fields, g.type.isBuiltIn = true) → p.definition.table.Quiet → p.definition.Missing f m)) ∧
    (p.definition.field? n = none →
      (∀ v, p.definition.constant? n = some v → value = .ok (some v)) ∧
      (p.definition.constant? n = none → value = p.definition.table.answer n)) := by
  intro value
  have named : value = Symbols.orConstant p.definition.table n ((p.symbols c (depthLimit - depth)).value n) := by
    change (scope.names (p.symbols c (depthLimit - depth))).name n = _
    rw [Symbols.name_eq, scope.names_value_free _ n free]
    exact congrArg (Symbols.orConstant · n _) (p.symbols_table c _)
  constructor
  · intro f found read
    rw [p.symbols_value c f depth within n found] at named
    refine ⟨named ▸ p.definition.table.or_constant_same_iff n read, ?_⟩
    intro definition m unknown
    refine ⟨?_, fun builtIn quiet => ?_⟩
    · exact named.trans (congrArg (Symbols.orConstant p.definition.table n) unknown)
    · have member := List.mem_of_find?_eq_some found
      exact p.read_at_blames c f builtIn quiet (depth + 1) member false none _ unknown
  · intro absent
    constructor
    · intro v constant
      rw [named, p.symbols_constant c _ n absent v constant]
      rfl
    · intro constant
      rw [named, p.symbols_unknown c _ n absent constant]
      rfl

-- In a function with a parameter of another name.
theorem twice_read_by_name :
    let names := Scope.names ⟨["x"], [none]⟩ (mirrors.symbols Ccsds.context depthLimit)
    UserFunction.argument? "twice" ["x"] [none] = none ∧
      (Expr.name "twice").eval names = .ok (some (.int 6)) ∧
      (Expr.name "thrice").eval names = .error (.expression (.undefinedName "thrice")) := by
  intro names
  have read : mirrors.readAt Ccsds.context 1 (derivedByte "twice" (.binary .add (.name "count") (.name "count"))) false
      none = .ok (some (.int 6)) := by rfl
  obtain ⟨field, _⟩ := bare_name_reads_field Ccsds.context mirrors 0 (Nat.zero_le _) ⟨["x"], [none]⟩ "twice" rfl
  obtain ⟨_, other⟩ := bare_name_reads_field Ccsds.context mirrors 0 (Nat.zero_le _) ⟨["x"], [none]⟩ "thrice" rfl
  refine ⟨rfl, ((field _ rfl).1.mpr ?_).trans read, (other rfl).2 rfl⟩
  intro definition m unknown
  rw [read] at unknown
  cases unknown

-- A field of the name of a constant, which asks for a field that there is not, and another that asks for the first.
def stray : Packet :=
  { definition :=
      { Ccsds.header with
        fields := [derivedByte "pi" (.member "raw" "sensor"), derivedByte "copy" (.name "pi")]
        table := FunctionTable.core.withMath }
    data := [3] }

theorem stray_field_replaced :
    stray.definition.Accepted ∧ stray.definition.table.Quiet ∧
      ∃ f, stray.definition.field? "pi" = some f ∧
        stray.readAt Ccsds.context 1 f false none = .error (.unknownField stray.definition.name "sensor") ∧
        (Expr.name "pi").eval (stray.symbols Ccsds.context depthLimit) ≠ stray.readAt Ccsds.context 1 f false none ∧
        stray.get Ccsds.context "copy" false none = .ok (some (.float FunctionTable.pi)) := by
  have unknown : stray.readAt Ccsds.context 1 (derivedByte "pi" (.member "raw" "sensor")) false none =
      .error (.unknownField stray.definition.name "sensor") := by rfl
  have constant : (Expr.name "pi").eval (stray.symbols Ccsds.context depthLimit) =
      .ok (some (.float FunctionTable.pi)) := by rfl
  refine ⟨⟨.none, stray.definition.fields, _, rfl, rfl⟩, FunctionTable.quiet_with_math _ FunctionTable.core_quiet,
    _, rfl, unknown, ?_, by rfl⟩
  rw [constant, unknown]
  simp

end Packet

end SpaceLink
