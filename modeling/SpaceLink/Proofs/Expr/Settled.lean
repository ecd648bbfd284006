import SpaceLink.Expr.Conversion
import SpaceLink.Expr.Function
import SpaceLink.Proofs.Attempt

/-!
Outcomes that no limit on the levels caused. They stay what they are when names come to stand for more:
a fault of the limit is never turned into anything else on its way out of an expression.
-/

set_option autoImplicit false

namespace SpaceLink

def ExprFault.isNest : ExprFault → Bool
  | .fieldDepth _ _ => true
  | .callDepth _ _ => true
  | _ => false

def Fault.isNest : Fault → Bool
  | .expression fault => fault.isNest
  | _ => false

namespace Attempt

variable {α β : Type}

def Settled (x : Attempt α) : Prop := ∀ fault, x = .error fault → fault.isNest = false

theorem settled_of_bind (x : Attempt α) (f : α → Attempt β) (settled : Settled (x >>= f)) : Settled x := by
  intro fault failed
  exact settled fault (bind_of_error x f fault failed)

theorem settled_next (x : Attempt α) (f : α → Attempt β) (settled : Settled (x >>= f)) (a : α) (done : x = .ok a) :
    Settled (f a) := by
  rwa [bind_of_ok x f a done] at settled

-- Where the parts of a sequence stay the same as long as they are settled, so does the whole.
theorem bind_stays (x y : Attempt α) (f g : α → Attempt β) (first : Settled x → y = x)
    (next : ∀ a, x = .ok a → Settled (f a) → g a = f a) (settled : Settled (x >>= f)) : (y >>= g) = (x >>= f) := by
  rw [first (settled_of_bind x f settled)]
  cases x with
  | error fault => rfl
  | ok a => exact next a rfl (settled_next _ f settled a rfl)

end Attempt

open Attempt

namespace Symbols

-- The answer to a bare name, from the source's own.
def orConstant (table : FunctionTable) (n : String) (answer : Attempt (Option Value)) : Attempt (Option Value) :=
  match answer with
  | .error (.unknownField _ _) =>
    match table.constant? n with
    | some v => .ok (some v)
    | none => .error (.expression (.undefinedName n))
  | other => other

theorem name_eq (symbols : Symbols) (n : String) :
    symbols.name n = orConstant symbols.functions n (symbols.value n) := rfl

-- Only an unknown field is passed over.
theorem settled_of_constant (table : FunctionTable) (n : String) (answer : Attempt (Option Value))
    (settled : Settled (orConstant table n answer)) : Settled answer := by
  intro fault failed
  cases fault with
  | unknownField definition field => rfl
  | _ => exact settled _ (by rw [failed]; rfl)

def applyTable (table : FunctionTable) (function : String) (args : List (Option Value)) : Attempt (Option Value) :=
  match table.function? (shortName function) with
  | none => .error (.expression (.undefinedFunction function))
  | some f =>
    match present args with
    | none => .ok none
    | some values => f values

theorem apply_eq (symbols : Symbols) (function : String) (args : List (Option Value)) :
    symbols.apply function args = (symbols.call function args).getD (applyTable symbols.functions function args) := by
  simp only [apply]
  cases symbols.call function args <;> rfl

-- All that `small` answers and that is settled, `large` answers too.
structure Extends (small large : Symbols) : Prop where
  value : ∀ n, Settled (small.value n) → large.value n = small.value n
  raw : ∀ n, Settled (small.raw n) → large.raw n = small.raw n
  history : large.history = small.history
  call : ∀ function args, (∀ result, small.call function args = some result → Settled result) →
    large.call function args = small.call function args
  functions : large.functions = small.functions

variable (small large : Symbols) (wider : small.Extends large)

include wider in
theorem name_stays (n : String) (settled : Settled (small.name n)) : large.name n = small.name n := by
  rw [name_eq, name_eq, wider.functions, wider.value n (settled_of_constant _ _ _ settled)]

include wider in
theorem member_stays (base n : String) (settled : Settled (small.member base n)) :
    large.member base n = small.member base n := by
  unfold member at settled ⊢
  split at settled
  · exact wider.raw n settled
  · rw [wider.history]
  · rw [wider.functions]
  · rfl

include wider in
theorem apply_stays (function : String) (args : List (Option Value)) (settled : Settled (small.apply function args)) :
    large.apply function args = small.apply function args := by
  rw [apply_eq] at settled
  rw [apply_eq, apply_eq, wider.functions, wider.call function args]
  intro result called
  rwa [called] at settled

end Symbols

namespace Expr

mutual

theorem eval_stays (small large : Symbols) (wider : small.Extends large) (e : Expr) (settled : Settled (e.eval small)) :
    e.eval large = e.eval small := by
  cases e with
  | literal v => rfl
  | none => rfl
  | name n => exact small.name_stays large wider n settled
  | member base n => exact small.member_stays large wider base n settled
  | unary op e => exact bind_stays _ _ _ _ (eval_stays small large wider e) (fun _ _ _ => rfl) settled
  | binary op left right =>
      refine bind_stays _ _ _ _ (eval_stays small large wider left) (fun v _ settledRight => ?_) settled
      exact bind_stays _ _ _ _ (eval_stays small large wider right) (fun _ _ _ => rfl) settledRight
  | chain first links =>
      exact bind_stays _ _ _ _ (eval_stays small large wider first)
        (fun v _ settledLinks => links_stay small large wider links v settledLinks) settled
  | and left right =>
      refine bind_stays _ _ _ _ (eval_stays small large wider left) (fun v _ settledRight => ?_) settled
      by_cases holds : isTrue v = true
      · rw [if_pos holds] at settledRight
        rw [if_pos holds, if_pos holds, eval_stays small large wider right settledRight]
      · rw [if_neg holds, if_neg holds]
  | or left right =>
      refine bind_stays _ _ _ _ (eval_stays small large wider left) (fun v _ settledRight => ?_) settled
      by_cases holds : isTrue v = true
      · rw [if_pos holds, if_pos holds]
      · rw [if_neg holds] at settledRight
        rw [if_neg holds, if_neg holds, eval_stays small large wider right settledRight]
  | choice condition yes no =>
      refine bind_stays _ _ _ _ (eval_stays small large wider condition) (fun v _ settledBranch => ?_) settled
      by_cases holds : isTrue v = true
      · rw [if_pos holds] at settledBranch
        rw [if_pos holds, if_pos holds, eval_stays small large wider yes settledBranch]
      · rw [if_neg holds] at settledBranch
        rw [if_neg holds, if_neg holds, eval_stays small large wider no settledBranch]
  | call function args =>
      exact bind_stays _ _ _ _ (args_stay small large wider args)
        (fun vs _ settledCall => small.apply_stays large wider function vs settledCall) settled

theorem links_stay (small large : Symbols) (wider : small.Extends large) (links : List (Comparison × Expr))
    (left : Option Value) (settled : Settled (evalLinks small left links)) :
    evalLinks large left links = evalLinks small left links := by
  cases links with
  | nil => rfl
  | cons link rest =>
      obtain ⟨op, e⟩ := link
      refine bind_stays _ _ _ _ (eval_stays small large wider e) (fun right _ settledLink => ?_) settled
      refine bind_stays _ _ _ _ (fun _ => rfl) (fun outcome _ settledRest => ?_) settledLink
      cases outcome with
      | none => rfl
      | some holds =>
          cases holds with
          | true => exact links_stay small large wider rest right settledRest
          | false => rfl

theorem args_stay (small large : Symbols) (wider : small.Extends large) (args : List Expr)
    (settled : Settled (evalAll small args)) : evalAll large args = evalAll small args := by
  cases args with
  | nil => rfl
  | cons e rest =>
      refine bind_stays _ _ _ _ (eval_stays small large wider e) (fun v _ settledRest => ?_) settled
      exact bind_stays _ _ _ _ (args_stay small large wider rest) (fun _ _ _ => rfl) settledRest

end

end Expr

variable (small large : Symbols) (wider : small.Extends large)

include wider in
theorem Expression.test_stays (e : Expression) (settled : Settled (e.test small)) : e.test large = e.test small :=
  bind_stays _ _ _ _ (e.tree.eval_stays small large wider) (fun _ _ _ => rfl) settled

-- What stands under a condition, if there is one; it has no value where that is false.
def guarded (condition : Option Expression) (symbols : Symbols) (inner : Attempt (Option Value)) :
    Attempt (Option Value) :=
  match condition with
  | none => inner
  | some e => do if ← e.test symbols then inner else .ok none

theorem Expression.test_of_value (e : Expression) (symbols : Symbols) (v : Option Value)
    (value : e.tree.eval symbols = .ok v) : e.test symbols = .ok (isTrue v) := bind_of_ok _ _ v value

theorem Expression.test_of_fault (e : Expression) (symbols : Symbols) (fault : Fault)
    (failed : e.tree.eval symbols = .error fault) : e.test symbols = .error fault := bind_of_error _ _ fault failed

include wider in
theorem guarded_stays (condition : Option Expression) (inner wide : Attempt (Option Value))
    (stays : Settled inner → wide = inner) (settled : Settled (guarded condition small inner)) :
    guarded condition large wide = guarded condition small inner := by
  cases condition with
  | none => exact stays settled
  | some e =>
      refine bind_stays _ _ _ _ (e.test_stays small large wider) (fun holds _ settledInner => ?_) settled
      cases holds with
      | true => exact stays settledInner
      | false => rfl

theorem Conversion.eval_eq (k : Conversion) (symbols : Symbols) :
    k.eval symbols = guarded k.condition symbols (k.equation.eval symbols) := by
  unfold Conversion.eval guarded
  cases k.condition <;> rfl

include wider in
theorem Conversion.eval_stays (k : Conversion) (settled : Settled (k.eval small)) : k.eval large = k.eval small := by
  rw [Conversion.eval_eq] at settled
  rw [Conversion.eval_eq, Conversion.eval_eq]
  exact guarded_stays small large wider k.condition _ _ (k.equation.tree.eval_stays small large wider) settled

namespace UserFunction

include wider in
theorem scope_extends (params : List String) (args : List (Option Value)) :
    (scope params args small).Extends (scope params args large) := by
  refine ⟨?_, wider.raw, wider.history, wider.call, wider.functions⟩
  intro n settled
  simp only [scope] at settled ⊢
  cases bound : argument? n params args with
  | none =>
      simp only [bound] at settled
      exact wider.value n settled
  | some v => rfl

include wider in
theorem branches_stay (bs : List (Expression × Expression)) (settled : Settled (evalBranches small bs)) :
    evalBranches large bs = evalBranches small bs := by
  induction bs with
  | nil => rfl
  | cons branch rest ih =>
      obtain ⟨condition, value⟩ := branch
      refine bind_stays _ _ _ _ (condition.test_stays small large wider) (fun holds _ settledBranch => ?_) settled
      cases holds with
      | true => exact value.tree.eval_stays small large wider settledBranch
      | false => exact ih settledBranch

include wider in
theorem invoke_stays (f : UserFunction) (args : List (Option Value)) (settled : Settled (f.invoke args small)) :
    f.invoke args large = f.invoke args small := by
  have inner := scope_extends small large wider f.params args
  simp only [invoke] at settled ⊢
  by_cases counted : args.length = f.params.length
  · rw [if_pos counted] at settled
    rw [if_pos counted, if_pos counted]
    cases body : f.body with
    | expression e =>
        simp only [body] at settled
        exact e.tree.eval_stays _ _ inner settled
    | branches bs =>
        simp only [body] at settled
        exact branches_stay _ _ inner bs settled
  · rw [if_neg counted, if_neg counted]

end UserFunction

end SpaceLink
