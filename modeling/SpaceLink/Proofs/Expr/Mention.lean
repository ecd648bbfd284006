import SpaceLink.Proofs.Expr.Settled

/-!
The names that expressions read as fields. Two sources of names that agree on these, and on everything
that is no field, give an expression the same outcome, be it a value, none or a fault.
-/

set_option autoImplicit false

namespace SpaceLink

namespace Expr

mutual

-- Bare names and those behind `raw`; `history` and `math` lead to no field.
def mentioned : Expr → List String
  | .literal _ => []
  | .none => []
  | .name n => [n]
  | .member base n => if base = "raw" then [n] else []
  | .unary _ e => e.mentioned
  | .binary _ left right => left.mentioned ++ right.mentioned
  | .chain first links => first.mentioned ++ mentionedInLinks links
  | .and left right => left.mentioned ++ right.mentioned
  | .or left right => left.mentioned ++ right.mentioned
  | .choice condition yes no => condition.mentioned ++ (yes.mentioned ++ no.mentioned)
  | .call _ args => mentionedInArgs args

def mentionedInLinks : List (Comparison × Expr) → List String
  | [] => []
  | (_, e) :: rest => e.mentioned ++ mentionedInLinks rest

def mentionedInArgs : List Expr → List String
  | [] => []
  | e :: rest => e.mentioned ++ mentionedInArgs rest

end

end Expr

namespace Symbols

structure Agree (known : String → Prop) (one other : Symbols) : Prop where
  value : ∀ n, known n → one.value n = other.value n
  raw : ∀ n, known n → one.raw n = other.raw n
  history : one.history = other.history
  call : one.call = other.call
  functions : one.functions = other.functions

variable (known : String → Prop) (one other : Symbols) (agree : Agree known one other)

include agree in
theorem name_agrees (n : String) (mentioned : known n) : one.name n = other.name n := by
  simp only [name]
  rw [agree.value n mentioned, agree.functions]

include agree in
theorem member_agrees (base n : String) (mentioned : base = "raw" → known n) :
    one.member base n = other.member base n := by
  unfold member
  split
  · exact agree.raw n (mentioned rfl)
  · rw [agree.history]
  · rw [agree.functions]
  · rfl

include agree in
theorem apply_agrees (function : String) (args : List (Option Value)) :
    one.apply function args = other.apply function args := by
  simp only [apply]
  rw [agree.call, agree.functions]

end Symbols

namespace Expr

mutual

theorem eval_agrees (known : String → Prop) (one other : Symbols) (agree : one.Agree known other) (e : Expr)
    (mentioned : ∀ n ∈ e.mentioned, known n) : e.eval one = e.eval other := by
  cases e with
  | literal v => rfl
  | none => rfl
  | name n => exact Symbols.name_agrees known one other agree n (mentioned n List.mem_cons_self)
  | member base n =>
      apply Symbols.member_agrees known one other agree
      intro raw
      exact mentioned n (by simp [Expr.mentioned, raw])
  | unary op e => simp only [eval, eval_agrees known one other agree e mentioned]
  | binary op left right =>
      obtain ⟨inLeft, inRight⟩ := List.forall_mem_append.mp mentioned
      simp only [eval, eval_agrees known one other agree left inLeft, eval_agrees known one other agree right inRight]
  | chain first links =>
      obtain ⟨inFirst, inLinks⟩ := List.forall_mem_append.mp mentioned
      simp only [eval, eval_agrees known one other agree first inFirst,
        links_agree known one other agree links inLinks]
  | and left right =>
      obtain ⟨inLeft, inRight⟩ := List.forall_mem_append.mp mentioned
      simp only [eval, eval_agrees known one other agree left inLeft, eval_agrees known one other agree right inRight]
  | or left right =>
      obtain ⟨inLeft, inRight⟩ := List.forall_mem_append.mp mentioned
      simp only [eval, eval_agrees known one other agree left inLeft, eval_agrees known one other agree right inRight]
  | choice condition yes no =>
      obtain ⟨inCondition, inBranches⟩ := List.forall_mem_append.mp mentioned
      obtain ⟨inYes, inNo⟩ := List.forall_mem_append.mp inBranches
      simp only [eval, eval_agrees known one other agree condition inCondition,
        eval_agrees known one other agree yes inYes, eval_agrees known one other agree no inNo]
  | call function args =>
      simp only [eval, args_agree known one other agree args mentioned, Symbols.apply_agrees known one other agree]

theorem links_agree (known : String → Prop) (one other : Symbols) (agree : one.Agree known other)
    (links : List (Comparison × Expr)) (mentioned : ∀ n ∈ mentionedInLinks links, known n) (left : Option Value) :
    evalLinks one left links = evalLinks other left links := by
  cases links with
  | nil => rfl
  | cons link rest =>
      obtain ⟨op, e⟩ := link
      obtain ⟨inFirst, inRest⟩ := List.forall_mem_append.mp mentioned
      simp only [evalLinks, eval_agrees known one other agree e inFirst,
        links_agree known one other agree rest inRest]

theorem args_agree (known : String → Prop) (one other : Symbols) (agree : one.Agree known other) (args : List Expr)
    (mentioned : ∀ n ∈ mentionedInArgs args, known n) : evalAll one args = evalAll other args := by
  cases args with
  | nil => rfl
  | cons e rest =>
      obtain ⟨inFirst, inRest⟩ := List.forall_mem_append.mp mentioned
      simp only [evalAll, eval_agrees known one other agree e inFirst, args_agree known one other agree rest inRest]

end

end Expr

def FunctionBody.expressions : FunctionBody → List Expression
  | .expression e => [e]
  | .branches bs => bs.flatMap fun branch => [branch.1, branch.2]

def Conversion.expressions (k : Conversion) : List Expression := k.equation :: k.condition.toList

section Users

variable (known : String → Prop) (one other : Symbols) (agree : one.Agree known other)

include agree in
theorem Expression.test_agrees (e : Expression) (mentioned : ∀ n ∈ e.tree.mentioned, known n) :
    e.test one = e.test other := by
  simp only [Expression.test, Expression.eval, e.tree.eval_agrees known one other agree mentioned]

include agree in
theorem guarded_agrees (condition : Option Expression)
    (mentioned : ∀ e ∈ condition.toList, ∀ n ∈ e.tree.mentioned, known n) (inner same : Attempt (Option Value))
    (equal : inner = same) : guarded condition one inner = guarded condition other same := by
  subst equal
  cases condition with
  | none => rfl
  | some e =>
      have own : ∀ n ∈ e.tree.mentioned, known n := mentioned e List.mem_cons_self
      simp only [guarded, e.test_agrees known one other agree own]

include agree in
theorem Conversion.eval_agrees (k : Conversion) (mentioned : ∀ e ∈ k.expressions, ∀ n ∈ e.tree.mentioned, known n) :
    k.eval one = k.eval other := by
  obtain ⟨inEquation, inCondition⟩ := List.forall_mem_cons.mp mentioned
  rw [Conversion.eval_eq, Conversion.eval_eq]
  exact guarded_agrees known one other agree k.condition inCondition _ _
    (k.equation.tree.eval_agrees known one other agree inEquation)

namespace UserFunction

-- A parameter stands for the same argument in both, whatever it hides.
include agree in
theorem scope_agrees (params : List String) (args : List (Option Value)) :
    (scope params args one).Agree known (scope params args other) := by
  refine ⟨?_, agree.raw, agree.history, agree.call, agree.functions⟩
  intro n mentioned
  simp only [scope, agree.value n mentioned]

include agree in
theorem branches_agree (bs : List (Expression × Expression))
    (mentioned : ∀ e ∈ (FunctionBody.branches bs).expressions, ∀ n ∈ e.tree.mentioned, known n) :
    evalBranches one bs = evalBranches other bs := by
  induction bs with
  | nil => rfl
  | cons branch rest ih =>
      obtain ⟨condition, value⟩ := branch
      obtain ⟨inBranch, inRest⟩ := List.forall_mem_append.mp mentioned
      have inCondition : ∀ n ∈ condition.tree.mentioned, known n := inBranch condition (by simp)
      have inValue : ∀ n ∈ value.tree.mentioned, known n := inBranch value (by simp)
      simp only [evalBranches, condition.test_agrees known one other agree inCondition, Expression.eval,
        value.tree.eval_agrees known one other agree inValue, ih inRest]

include agree in
theorem invoke_agrees (f : UserFunction) (mentioned : ∀ e ∈ f.body.expressions, ∀ n ∈ e.tree.mentioned, known n)
    (args : List (Option Value)) : f.invoke args one = f.invoke args other := by
  have inner := scope_agrees known one other agree f.params args
  cases body : f.body with
  | expression e =>
      rw [body] at mentioned
      have inBody : ∀ n ∈ e.tree.mentioned, known n := mentioned e List.mem_cons_self
      simp only [invoke, body, Expression.eval, e.tree.eval_agrees known _ _ inner inBody]
  | branches bs =>
      rw [body] at mentioned
      simp only [invoke, body, branches_agree known _ _ inner bs mentioned]

end UserFunction

end Users

end SpaceLink
