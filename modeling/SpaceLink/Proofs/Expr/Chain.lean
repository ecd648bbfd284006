import SpaceLink.Expr.Eval
import SpaceLink.Proofs.Attempt

/-!
A chain of comparisons is the conjunction of the comparisons of neighbours. The operand between two comparisons is
written out twice there, and an operand behind a comparison that is false, or has no outcome, is not looked at.
-/

set_option autoImplicit false

namespace SpaceLink.Expr

-- The comparisons of a chain behind the one that ends with `left`, each on its own.
def neighbours (left : Expr) : List (Comparison × Expr) → List Expr
  | [] => []
  | (op, e) :: rest => .chain left [(op, e)] :: neighbours e rest

def conjunction (first : Expr) (others : List Expr) : Expr := others.foldl .and first

variable (symbols : Symbols)

theorem eval_conjunction_of_error (others : List Expr) (first : Expr) (fault : Fault)
    (failed : first.eval symbols = .error fault) : (conjunction first others).eval symbols = .error fault := by
  induction others generalizing first with
  | nil => exact failed
  | cons e rest ih =>
      apply ih (.and first e)
      rw [eval]
      exact Attempt.bind_of_error _ _ fault failed

-- The part that is not true is the value of the whole.
theorem eval_conjunction_of_false (others : List Expr) (first : Expr) (v : Option Value)
    (value : first.eval symbols = .ok v) (refused : isTrue v = false) :
    (conjunction first others).eval symbols = .ok v := by
  induction others generalizing first with
  | nil => exact value
  | cons e rest ih =>
      apply ih (.and first e)
      rw [eval, Attempt.bind_of_ok _ _ v value, refused]
      rfl

theorem eval_and_of_true (first e : Expr) (v : Option Value) (value : first.eval symbols = .ok v)
    (holds : isTrue v = true) : (Expr.and first e).eval symbols = e.eval symbols := by
  rw [eval, Attempt.bind_of_ok _ _ v value, if_pos holds]

theorem eval_comparison (left e : Expr) (op : Comparison) (v : Option Value) (value : left.eval symbols = .ok v) :
    (Expr.chain left [(op, e)]).eval symbols = evalLinks symbols v [(op, e)] := by
  rw [eval, Attempt.bind_of_ok _ _ v value]

-- What has the outcome of the first comparison decides with the others as the chain does. Where the comparison is true,
-- the operand it ends with is known, and the next comparison takes the place of the first.
theorem conjunction_decides (links : List (Comparison × Expr)) (before e : Expr) (op : Comparison) (v : Option Value)
    (first : before.eval symbols = evalLinks symbols v [(op, e)]) :
    (conjunction before (neighbours e links)).eval symbols = evalLinks symbols v ((op, e) :: links) := by
  induction links generalizing before e op v with
  | nil => exact first
  | cons link rest ih =>
      obtain ⟨next, right⟩ := link
      simp only [evalLinks] at first ⊢
      cases value : e.eval symbols with
      | error fault =>
          rw [value] at first
          exact eval_conjunction_of_error symbols _ before fault first
      | ok w =>
          rw [value, Attempt.bind_of_ok _ _ w rfl] at first
          rw [Attempt.bind_of_ok _ _ w rfl]
          cases compared : Arithmetic.compare op v w with
          | error fault =>
              rw [compared] at first
              exact eval_conjunction_of_error symbols _ before fault first
          | ok outcome =>
              rw [compared, Attempt.bind_of_ok _ _ outcome rfl] at first
              rw [Attempt.bind_of_ok _ _ outcome rfl]
              match outcome with
              | some true =>
                  apply ih (.and before (.chain e [(next, right)])) right next w
                  rw [eval_and_of_true symbols before _ _ first rfl]
                  exact eval_comparison symbols e right next w value
              | some false => exact eval_conjunction_of_false symbols _ before _ first rfl
              | Option.none => exact eval_conjunction_of_false symbols _ before _ first rfl

theorem chain_is_conjunction (first e : Expr) (op : Comparison) (links : List (Comparison × Expr)) :
    (Expr.chain first ((op, e) :: links)).eval symbols =
      (conjunction (.chain first [(op, e)]) (neighbours e links)).eval symbols := by
  cases value : first.eval symbols with
  | error fault =>
      have failed : ∀ links, (Expr.chain first links).eval symbols = .error fault := by
        intro links
        rw [eval]
        exact Attempt.bind_of_error _ _ fault value
      rw [failed, eval_conjunction_of_error symbols _ _ fault (failed _)]
  | ok v =>
      rw [conjunction_decides symbols links _ e op v (eval_comparison symbols first e op v value), eval]
      exact Attempt.bind_of_ok _ _ v value

example (a b c d : Expr) : conjunction (.chain a [(.lt, b)]) (neighbours b [(.le, c), (.ne, d)]) =
    .and (.and (.chain a [(.lt, b)]) (.chain b [(.le, c)])) (.chain c [(.ne, d)]) := rfl

end SpaceLink.Expr
