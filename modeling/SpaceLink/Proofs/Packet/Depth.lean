import SpaceLink.Packet.Basic
import SpaceLink.Proofs.Expr.Settled

/-!
The limit on the depth of fields. A field that is read without meeting it reads the same from any lesser
depth.
-/

set_option autoImplicit false

namespace SpaceLink.Packet

open Attempt

variable (c : Context) (p : Packet)

-- The value of a field that its condition lets through.
def own (symbols : Symbols) (f : Field) (raw : Bool) (index : Option Nat) : Attempt (Option Value) :=
  match raw, f.conversion, f.expr with
  | false, some conversion, _ => conversion.eval symbols
  | false, none, some e => e.eval symbols
  | _, _, _ => do .ok (some (← f.decode c.books p.data raw index))

theorem read_with_eq (symbols : Symbols) (f : Field) (raw : Bool) (index : Option Nat) :
    p.readWith c symbols f raw index = guarded f.condition symbols (p.own c symbols f raw index) := by
  simp only [readWith, guarded, own]
  cases f.condition <;> rfl

theorem own_stays (small large : Symbols) (wider : small.Extends large) (f : Field) (raw : Bool) (index : Option Nat)
    (settled : Settled (p.own c small f raw index)) : p.own c large f raw index = p.own c small f raw index := by
  cases raw with
  | true => rfl
  | false =>
      cases converted : f.conversion with
      | some k =>
          simp only [own, converted] at settled ⊢
          exact k.eval_stays small large wider settled
      | none =>
          cases derived : f.expr with
          | some e =>
              simp only [own, converted, derived] at settled ⊢
              exact e.tree.eval_stays small large wider settled
          | none => simp only [own, converted, derived]

theorem read_stays (small large : Symbols) (wider : small.Extends large) (f : Field) (raw : Bool) (index : Option Nat)
    (settled : Settled (p.readWith c small f raw index)) :
    p.readWith c large f raw index = p.readWith c small f raw index := by
  rw [read_with_eq] at settled
  rw [read_with_eq, read_with_eq]
  exact guarded_stays small large wider f.condition _ _ (p.own_stays c small large wider f raw index) settled

theorem symbols_with_extends (read wide : Field → Bool → Attempt (Option Value))
    (call wideCall : String → List (Option Value) → Option (Attempt (Option Value)))
    (reads : ∀ f raw, Settled (read f raw) → wide f raw = read f raw)
    (calls : ∀ function args, (∀ result, call function args = some result → Settled result) →
      wideCall function args = call function args) :
    (p.symbolsWith c read call).Extends (p.symbolsWith c wide wideCall) := by
  refine ⟨?_, ?_, rfl, calls, rfl⟩
  · intro n settled
    simp only [symbolsWith] at settled ⊢
    cases found : p.definition.field? n with
    | none => rfl
    | some f =>
        simp only [found] at settled ⊢
        exact reads f false settled
  · intro n settled
    simp only [symbolsWith] at settled ⊢
    cases found : p.definition.field? n with
    | none => rfl
    | some f =>
        simp only [found] at settled ⊢
        exact reads f true settled

theorem not_settled_too_deep {α : Type} : ¬ Settled (p.tooDeep : Attempt α) := by
  intro settled
  cases settled _ rfl

theorem symbols_succ (levels : Nat) :
    p.symbols c (levels + 1) =
      p.symbolsWith c (fun f raw => p.readWith c (p.symbols c levels) f raw none)
        fun function args => (p.definition.function? function).map fun f => f.invoke args (p.symbols c levels) := rfl

theorem symbols_extend (less more : Nat) (deeper : less ≤ more) :
    (p.symbols c less).Extends (p.symbols c more) := by
  induction less generalizing more with
  | zero =>
      have none : ∀ (read : Field → Bool → Attempt (Option Value)) call,
          (p.symbols c 0).Extends (p.symbolsWith c read call) := by
        intro read call
        apply symbols_with_extends
        · exact fun _ _ settled => absurd settled p.not_settled_too_deep
        · intro function args settled
          cases settled _ rfl _ rfl
      cases more with
      | zero => exact none _ _
      | succ more =>
          rw [symbols_succ]
          exact none _ _
  | succ less ih =>
      cases more with
      | zero => cases deeper
      | succ more =>
          have inner := ih more (Nat.le_of_succ_le_succ deeper)
          rw [symbols_succ, symbols_succ]
          apply symbols_with_extends
          · exact fun f raw settled => p.read_stays c _ _ inner f raw none settled
          · intro function args settled
            cases found : p.definition.function? function with
            | none => rfl
            | some f =>
                simp only [found, Option.map_some] at settled ⊢
                rw [f.invoke_stays _ _ inner args (settled _ rfl)]

theorem read_at_stays (depth less : Nat) (shallower : less ≤ depth) (f : Field) (raw : Bool) (index : Option Nat)
    (settled : Settled (p.readAt c depth f raw index)) : p.readAt c less f raw index = p.readAt c depth f raw index := by
  simp only [readAt] at settled ⊢
  by_cases past : depthLimit < depth
  · rw [if_pos past] at settled
    exact absurd settled p.not_settled_too_deep
  · rw [if_neg past] at settled
    rw [if_neg past, if_neg (by omega)]
    exact p.read_stays c _ _ (p.symbols_extend c _ _ (by omega)) f raw index settled

end SpaceLink.Packet
