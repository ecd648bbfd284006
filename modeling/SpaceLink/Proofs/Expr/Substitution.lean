import SpaceLink.Expr.Function
import SpaceLink.Proofs.Attempt

/-!
A function of the user is its body with the arguments in the place of the parameters. Nothing else of the body changes,
and what is left of it stands for what it stands for at the call.
-/

set_option autoImplicit false

namespace SpaceLink

namespace Expr

def ofOutcome : Option Value → Expr
  | Option.none => .none
  | some v => .literal v

mutual

-- Bare names give way to what is bound to them, by the first binding of a name. The names of members and of functions
-- are no bare names.
def substitute (bound : List (String × Option Value)) : Expr → Expr
  | .literal v => .literal v
  | .none => .none
  | .name n =>
    match bound.lookup n with
    | some v => ofOutcome v
    | Option.none => .name n
  | .member base n => .member base n
  | .unary op e => .unary op (e.substitute bound)
  | .binary op left right => .binary op (left.substitute bound) (right.substitute bound)
  | .chain first links => .chain (first.substitute bound) (substituteInLinks bound links)
  | .and left right => .and (left.substitute bound) (right.substitute bound)
  | .or left right => .or (left.substitute bound) (right.substitute bound)
  | .choice condition yes no =>
    .choice (condition.substitute bound) (yes.substitute bound) (no.substitute bound)
  | .call function args => .call function (substituteInArgs bound args)

def substituteInLinks (bound : List (String × Option Value)) :
    List (Comparison × Expr) → List (Comparison × Expr)
  | [] => []
  | (op, e) :: rest => (op, e.substitute bound) :: substituteInLinks bound rest

def substituteInArgs (bound : List (String × Option Value)) : List Expr → List Expr
  | [] => []
  | e :: rest => e.substitute bound :: substituteInArgs bound rest

end

theorem eval_of_outcome (symbols : Symbols) (v : Option Value) : (ofOutcome v).eval symbols = .ok v := by
  cases v <;> rfl

end Expr

namespace UserFunction

theorem argument_eq_lookup (n : String) (params : List String) (args : List (Option Value)) :
    argument? n params args = (params.zip args).lookup n := by
  induction params generalizing args with
  | nil => rfl
  | cons param params ih =>
      cases args with
      | nil => rfl
      | cons arg args =>
          rw [argument?, List.zip_cons_cons, List.lookup_cons, ih args]
          by_cases same : param = n
          · rw [if_pos same, beq_iff_eq.mpr same.symm]
          · rw [if_neg same, beq_eq_false_iff_ne.mpr (Ne.symm same)]

variable (params : List String) (args : List (Option Value)) (outer : Symbols)

theorem name_of_bound (n : String) (v : Option Value) (bound : (params.zip args).lookup n = some v) :
    (scope params args outer).name n = .ok v := by
  rw [← argument_eq_lookup] at bound
  simp only [Symbols.name, scope, bound]

theorem name_of_free (n : String) (free : (params.zip args).lookup n = none) :
    (scope params args outer).name n = outer.name n := by
  rw [← argument_eq_lookup] at free
  simp only [Symbols.name, scope, free]

end UserFunction

namespace Expr

open UserFunction (scope)

mutual

theorem eval_substitute (params : List String) (args : List (Option Value)) (outer : Symbols) (e : Expr) :
    (e.substitute (params.zip args)).eval outer = e.eval (scope params args outer) := by
  cases e with
  | literal v => rfl
  | none => rfl
  | name n =>
      simp only [substitute]
      cases bound : (params.zip args).lookup n with
      | none => exact (UserFunction.name_of_free params args outer n bound).symm
      | some v =>
          exact (eval_of_outcome outer v).trans (UserFunction.name_of_bound params args outer n v bound).symm
  | member base n => rfl
  | unary op e => simp only [substitute, eval, eval_substitute params args outer e]
  | binary op left right =>
      simp only [substitute, eval, eval_substitute params args outer left, eval_substitute params args outer right]
  | chain first links =>
      simp only [substitute, eval, eval_substitute params args outer first, links_substitute params args outer links]
  | and left right =>
      simp only [substitute, eval, eval_substitute params args outer left, eval_substitute params args outer right]
  | or left right =>
      simp only [substitute, eval, eval_substitute params args outer left, eval_substitute params args outer right]
  | choice condition yes no =>
      simp only [substitute, eval, eval_substitute params args outer condition, eval_substitute params args outer yes,
        eval_substitute params args outer no]
  -- The function is one of those outside, whatever the parameters are called.
  | call function passed =>
      simp only [substitute, eval, args_substitute params args outer passed]
      rfl

theorem links_substitute (params : List String) (args : List (Option Value)) (outer : Symbols)
    (links : List (Comparison × Expr)) (left : Option Value) :
    evalLinks outer left (substituteInLinks (params.zip args) links) =
      evalLinks (scope params args outer) left links := by
  cases links with
  | nil => rfl
  | cons link rest =>
      obtain ⟨op, e⟩ := link
      simp only [substituteInLinks, evalLinks, eval_substitute params args outer e,
        links_substitute params args outer rest]

theorem args_substitute (params : List String) (args : List (Option Value)) (outer : Symbols) (passed : List Expr) :
    evalAll outer (substituteInArgs (params.zip args) passed) = evalAll (scope params args outer) passed := by
  cases passed with
  | nil => rfl
  | cons e rest =>
      simp only [substituteInArgs, evalAll, eval_substitute params args outer e, args_substitute params args outer rest]

end

end Expr

-- The text stays the one that the body was read from.
def Expression.substitute (bound : List (String × Option Value)) (e : Expression) : Expression :=
  { e with tree := e.tree.substitute bound }

namespace UserFunction

variable (params : List String) (args : List (Option Value)) (outer : Symbols)

theorem test_substitute (e : Expression) :
    (e.substitute (params.zip args)).test outer = e.test (scope params args outer) := by
  simp only [Expression.test, Expression.eval, Expression.substitute, Expr.eval_substitute]

theorem branches_skip (symbols : Symbols) (passed rest : List (Expression × Expression))
    (refused : ∀ b ∈ passed, b.1.test symbols = .ok false) :
    evalBranches symbols (passed ++ rest) = evalBranches symbols rest := by
  induction passed with
  | nil => rfl
  | cons b passed ih =>
      obtain ⟨condition, value⟩ := b
      obtain ⟨here, later⟩ := List.forall_mem_cons.mp refused
      exact (Attempt.bind_of_ok _ _ false here).trans (ih later)

-- A function is its body with the arguments in place. Of branches the first counts whose condition then is true; a
-- condition that fails before one is true fails the call.
theorem invoke_substitutes (f : UserFunction) (args : List (Option Value)) (outer : Symbols)
    (counted : args.length = f.params.length) :
    let bound := f.params.zip args
    (∀ e, f.body = .expression e → f.invoke args outer = (e.substitute bound).eval outer) ∧
    ∀ bs, f.body = .branches bs →
      (∀ passed condition value rest, bs = passed ++ (condition, value) :: rest →
        (∀ b ∈ passed, (b.1.substitute bound).test outer = .ok false) →
        ((condition.substitute bound).test outer = .ok true →
          f.invoke args outer = (value.substitute bound).eval outer) ∧
        ∀ fault, (condition.substitute bound).test outer = .error fault → f.invoke args outer = .error fault) ∧
      ((∀ b ∈ bs, (b.1.substitute bound).test outer = .ok false) → f.invoke args outer = .ok none) := by
  intro bound
  constructor
  · intro e body
    simp only [invoke, if_pos counted, body]
    exact (e.tree.eval_substitute f.params args outer).symm
  · intro bs body
    have chosen : f.invoke args outer = evalBranches (scope f.params args outer) bs := by
      simp only [invoke, if_pos counted, body]
    simp only [bound, test_substitute]
    rw [chosen]
    constructor
    · intro passed condition value rest split refused
      rw [split, branches_skip _ passed _ refused]
      refine ⟨fun holds => ?_, fun fault failed => Attempt.bind_of_error _ _ fault failed⟩
      exact (Attempt.bind_of_ok _ _ true holds).trans (value.tree.eval_substitute f.params args outer).symm
    · intro refused
      have none_left := branches_skip (scope f.params args outer) bs [] refused
      rwa [List.append_nil] at none_left

def upToTen : Expression := ⟨"v <= 10", .chain (.name "v") [(.le, .literal (.int 10))]⟩

def rawSeven : Expression := ⟨"raw.v == 7", .chain (.member "raw" "v") [(.eq, .literal (.int 7))]⟩

def level : UserFunction :=
  { name := "level"
    params := ["v", "v"]
    body := .branches [(upToTen, ⟨"'LOW'", .literal (.str "LOW")⟩), (rawSeven, ⟨"v", .name "v"⟩)] }

def reading : Symbols :=
  { value := fun _ => .ok (some (.int 1))
    raw := fun _ => .ok (some (.int 7))
    history := fun _ => .ok none
    call := fun _ _ => none
    functions := .core }

-- Neither the second argument nor the `v` outside is looked at, but the raw `v` is.
theorem first_argument_taken :
    [some (Value.int 500), none].length = level.params.length ∧
      level.invoke [some (.int 500), none] reading = .ok (some (.int 500)) := by
  obtain ⟨branch, _⟩ := (invoke_substitutes level [some (.int 500), none] reading rfl).2 _ rfl
  obtain ⟨taken, _⟩ := branch [(upToTen, ⟨"'LOW'", .literal (.str "LOW")⟩)] rawSeven ⟨"v", .name "v"⟩ [] rfl
    (List.forall_mem_singleton.mpr rfl)
  exact ⟨rfl, taken rfl⟩

end UserFunction

end SpaceLink
