import SpaceLink.Proofs.Expr.Chain
import SpaceLink.Proofs.Value.Order

/-!
Comparisons of values without doubles. Equality is an equivalence and agrees with the order, so of two values that have
an order just one of the three outcomes holds, and each operator says which of them it takes in.
-/

set_option autoImplicit false

namespace SpaceLink

-- What the six comparisons of two operands come to: one of three outcomes holds, and they are joined or denied.
structure Expr.Decided (symbols : Symbols) (left right : Expr) (less same more : Bool) : Prop where
  one : [less, same, more].count true = 1
  lt : (chain left [(.lt, right)]).eval symbols = .ok (some (.bool less))
  eq : (chain left [(.eq, right)]).eval symbols = .ok (some (.bool same))
  gt : (chain left [(.gt, right)]).eval symbols = .ok (some (.bool more))
  le : (chain left [(.le, right)]).eval symbols = .ok (some (.bool (less || same)))
  ge : (chain left [(.ge, right)]).eval symbols = .ok (some (.bool (more || same)))
  ne : (chain left [(.ne, right)]).eval symbols = .ok (some (.bool !same))

theorem Arithmetic.compare_ordered (a b : Value) (order : Ordering) (ordered : a.compare? b = some order)
    (equal : a.equal b = (order == .eq)) (op : Comparison) :
    compare op (some a) (some b) = .ok (some (holds op order)) := by
  cases op with
  | eq => rw [compare, same, equal, holds]
  | ne => rw [compare, same, equal, holds, bne]
  | _ => simp only [compare, ordered]

namespace Expr

variable (symbols : Symbols) (left right : Expr) (a b : Value)
variable (first : left.eval symbols = .ok (some a)) (second : right.eval symbols = .ok (some b))

include first second

theorem eval_compared (op : Comparison) (outcome : Bool)
    (compared : Arithmetic.compare op (some a) (some b) = .ok (some outcome)) :
    (chain left [(op, right)]).eval symbols = .ok (some (.bool outcome)) := by
  rw [eval_comparison symbols left right op (some a) first, evalLinks, Attempt.bind_of_ok _ _ _ second,
    Attempt.bind_of_ok _ _ _ compared]
  cases outcome <;> rfl

theorem decided_of_order (order : Ordering) (ordered : a.compare? b = some order)
    (equal : a.equal b = (order == .eq)) :
    Decided symbols left right (order == .lt) (a.equal b) (order == .gt) := by
  have outcome : ∀ op, (chain left [(op, right)]).eval symbols = .ok (some (.bool (Arithmetic.holds op order))) :=
    fun op => eval_compared symbols left right a b first second op _
      (Arithmetic.compare_ordered a b order ordered equal op)
  rw [equal]
  exact
    { one := by cases order <;> rfl
      lt := outcome .lt
      eq := outcome .eq
      gt := outcome .gt
      le := by
        rw [outcome .le]
        cases order <;> rfl
      ge := by
        rw [outcome .ge]
        cases order <;> rfl
      ne := outcome .ne }

end Expr

theorem doubleless_values_ordered (a b c : Value) (plain : a.Doubleless) (plain' : b.Doubleless)
    (plain'' : c.Doubleless) :
    (a.equal a = true ∧ a.equal b = b.equal a ∧ (a.equal b = true → b.equal c = true → a.equal c = true)) ∧
    ((∃ order, a.compare? b = some order) ↔ a.Comparable b) ∧
    (∀ order, a.compare? b = some order → (order = .eq ↔ a.equal b = true)) ∧
    b.compare? a = (a.compare? b).map Ordering.swap ∧
    (∀ o p, a.compare? b = some o → b.compare? c = some p → o = .eq ∨ p = .eq ∨ o = p →
      a.compare? c = some (o.then p)) ∧
    (a.Comparable b → ∀ symbols left right, left.eval symbols = .ok (some a) → right.eval symbols = .ok (some b) →
      ∃ less more, Expr.Decided symbols left right less (a.equal b) more) := by
  refine ⟨⟨?refl, ?symm, ?trans⟩, ?defined, ?agrees, ?swap, ?through, ?decided⟩
  case refl => exact a.equal_refl plain
  case symm => exact a.equal_symm b plain plain'
  case trans => exact a.equal_trans b c plain plain' plain''
  case defined => exact (a.comparable_iff b plain plain').symm
  case agrees => exact a.compare_eq_iff b plain plain'
  case swap => exact a.compare_swap b plain plain'
  case through => exact a.compare_trans b c plain plain' plain''
  case decided =>
    intro comparable symbols left right first second
    obtain ⟨order, ordered⟩ := (a.comparable_iff b plain plain').mp comparable
    have equal : a.equal b = (order == .eq) := by
      rw [Bool.eq_iff_iff, ← a.compare_eq_iff b plain plain' order ordered, beq_iff_eq]
    exact ⟨_, _, Expr.decided_of_order symbols left right a b first second order ordered equal⟩

theorem true_below_two :
    (Value.bool true).Doubleless ∧ (Value.int 1).Doubleless ∧ (Value.int 2).Doubleless ∧
      (Value.bool true).Comparable (.int 1) ∧ (Value.bool true).equal (.int 1) = true ∧
      (Value.bool true).compare? (.int 1) = some .eq ∧ (Value.int 1).compare? (.int 2) = some .lt ∧
      (Value.bool true).compare? (.int 2) = some .lt ∧
      ∀ symbols, (Expr.chain (.literal (.bool true)) [(.ge, .literal (.int 1))]).eval symbols =
        .ok (some (.bool true)) := by
  have comparable : (Value.bool true).Comparable (.int 1) := .inl ⟨rfl, rfl⟩
  have same : (Value.bool true).compare? (.int 1) = some .eq := by decide
  have below : (Value.int 1).compare? (.int 2) = some .lt := by decide
  obtain ⟨-, -, agrees, -, through, decided⟩ :=
    doubleless_values_ordered (.bool true) (.int 1) (.int 2) (.bool true) (.int 1) (.int 2)
  have equal := (agrees .eq same).mp rfl
  refine ⟨.bool true, .int 1, .int 2, comparable, equal, same, below, through _ _ same below (.inl rfl), ?_⟩
  intro symbols
  obtain ⟨less, more, outcomes⟩ := decided comparable symbols (.literal (.bool true)) (.literal (.int 1)) rfl rfl
  rw [outcomes.ge, equal, Bool.or_true]

end SpaceLink
