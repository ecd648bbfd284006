import SpaceLink.Proofs.Expr.Mention

/-!
Faults for a field that there is not. Operators and the functions of the tables have none, and a bare name passes none
on: where one leaves an expression, it comes from a name behind `raw` or out of a function of the source.
-/

set_option autoImplicit false

namespace SpaceLink

-- If it is an unknown field that goes wrong, then one of the culprits.
@[simp]
def Fault.Blames (culprit : String → Prop) : Fault → Prop
  | .unknownField _ n => culprit n
  | _ => True

open Attempt

variable (culprit : String → Prop)

@[simp]
theorem Attempt.fail_blames {α : Type} (fault : ExprFault) :
    Only (Fault.Blames culprit) (Arithmetic.fail fault : Attempt α) := by
  simp [Arithmetic.fail]

theorem Attempt.blames_of_none {α : Type} (x : Attempt α) (none : Only (Fault.Blames fun _ => False) x) :
    Only (Fault.Blames culprit) x := by
  intro fault failed
  have own := none fault failed
  cases fault with
  | unknownField definition n => exact own.elim
  | _ => trivial

namespace Arithmetic

theorem on_doubles_known (op : BinaryOp) (x y : Binary64) (kinds : Value.Kind × Value.Kind) :
    Only (Fault.Blames culprit) (onDoubles op x y kinds) := by
  cases op <;> simp only [onDoubles]
  case add | sub | mul => exact only_ok _ _
  case div | floorDiv | mod | pow => split <;> exact only_ok _ _
  case shiftLeft | shiftRight | bitAnd | bitOr | bitXor => exact fail_blames _ _

theorem on_ints_known (op : BinaryOp) (x y : Int) (kinds : Value.Kind × Value.Kind) :
    Only (Fault.Blames culprit) (onInts op x y kinds) := by
  cases op <;> simp only [onInts]
  case bitAnd | bitOr | bitXor => exact only_ok _ _
  case div => split <;> exact only_ok _ _
  case shiftRight => split <;> first | exact fail_blames _ _ | exact only_ok _ _
  case shiftLeft =>
      split
      · exact fail_blames _ _
      · cases shiftLeft? x y.toNat <;> simp
  -- What does not fit is left to the doubles.
  case add | sub | mul | floorDiv | mod | pow =>
      repeat' split
      all_goals first | exact only_ok _ _ | exact on_doubles_known culprit _ _ _ _

theorem binary_known (op : BinaryOp) (a b : Value) : Only (Fault.Blames culprit) (binary op a b) := by
  unfold binary
  split
  · exact only_ok _ _
  · split
    · exact on_ints_known culprit op _ _ _
    · split
      · exact on_doubles_known culprit op _ _ _
      · exact fail_blames _ _

theorem unary_known (op : UnaryOp) (v : Value) : Only (Fault.Blames culprit) (unary op v) := by
  unfold unary
  split <;> first | exact only_ok _ _ | (cases v.exactInt? <;> simp)

theorem compare_known (op : Comparison) (a b : Option Value) : Only (Fault.Blames culprit) (compare op a b) := by
  unfold compare
  split <;> first | exact only_ok _ _ | (split <;> simp)

end Arithmetic

namespace FunctionTable

-- No function of the table finds that there is no such field.
def Quiet (table : FunctionTable) : Prop :=
  ∀ name f, table.function? name = some f → ∀ args, Only (Fault.Blames fun _ => False) (f args)

theorem entry_of_lookup {α : Type} (entries : List (String × α)) (name : String) (a : α)
    (found : entries.lookup name = some a) : (name, a) ∈ entries := by
  obtain ⟨before, after, split, _⟩ := List.lookup_eq_some_iff.mp found
  rw [split]
  exact List.mem_append_right before List.mem_cons_self

theorem number_known (name : String) (v : Value) : Only (Fault.Blames culprit) (number name v) := by
  simp only [number]
  cases v.toDouble? <;> simp

theorem of_one_known (name : String) (f : Value → Attempt Value) (each : ∀ v, Only (Fault.Blames culprit) (f v))
    (args : List Value) : Only (Fault.Blames culprit) (ofOne name f args) := by
  unfold ofOne
  split
  · exact only_map _ _ _ (each _)
  · exact fail_blames _ _

theorem of_one_or_two_known (name : String) (f : Value → Option Value → Attempt Value)
    (each : ∀ v w, Only (Fault.Blames culprit) (f v w)) (args : List Value) : Only (Fault.Blames culprit) (ofOneOrTwo name f args) := by
  unfold ofOneOrTwo
  split
  · exact only_map _ _ _ (each _ _)
  · exact only_map _ _ _ (each _ _)
  · exact fail_blames _ _

theorem of_two_known (name : String) (f : Value → Value → Attempt Value) (each : ∀ v w, Only (Fault.Blames culprit) (f v w))
    (args : List Value) : Only (Fault.Blames culprit) (ofTwo name f args) := by
  unfold ofTwo
  split
  · exact only_map _ _ _ (each _ _)
  · exact fail_blames _ _

theorem absolute_known (v : Value) : Only (Fault.Blames culprit) (absolute v) := by
  unfold absolute
  split <;> simp

theorem extreme_from_known (name : String) (wanted : Ordering) (best : Value) (items : List Value) :
    Only (Fault.Blames culprit) (extremeFrom name wanted best items) := by
  induction items generalizing best with
  | nil => exact only_ok _ _
  | cons item rest ih =>
      simp only [extremeFrom]
      cases item.compare? best with
      | none => exact fail_blames _ _
      | some order => exact ih _

theorem extreme_known (name : String) (wanted : Ordering) (args : List Value) :
    Only (Fault.Blames culprit) (extreme name wanted args) := by
  simp only [extreme]
  split
  · exact fail_blames _ _
  · exact only_map _ _ _ (extreme_from_known culprit name wanted _ _)

theorem round_known (v : Value) (places : Option Value) : Only (Fault.Blames culprit) (round v places) := by
  unfold round
  split
  · exact only_ok _ _
  · refine only_bind _ _ _ (number_known culprit _ _) fun x _ => ?_
    cases places with
    | none => exact only_ok _ _
    | some p => exact only_bind _ _ _ (number_known culprit _ _) fun _ _ => only_ok _ _

theorem elementary_known (name : String) (f : Float → Float) (args : List Value) :
    Only (Fault.Blames culprit) (elementary name f args) := by
  refine of_one_known culprit name _ (fun v => ?_) args
  refine only_bind _ _ _ (number_known culprit name v) fun x _ => ?_
  dsimp only
  split <;> simp

theorem logarithm_known (v : Value) (base : Option Value) : Only (Fault.Blames culprit) (logarithm v base) := by
  refine only_bind _ _ _ (number_known culprit _ _) fun x _ => ?_
  have ends : ∀ y : Binary64, Only (Fault.Blames culprit) (if (y.isNaN || x.lt Binary64.zero || x.isZero) = true then
      Arithmetic.fail (.domain "log") else .ok (.float y) : Attempt Value) := by
    intro y
    split <;> simp
  cases base with
  | none => exact ends _
  | some b => exact only_bind _ _ _ (number_known culprit _ _) fun _ _ => ends _

theorem power_known (v w : Value) : Only (Fault.Blames culprit) (power v w) :=
  only_bind _ _ _ (number_known culprit _ _) fun _ _ =>
    only_bind _ _ _ (number_known culprit _ _) fun _ _ => only_ok _ _

theorem whole_known (name : String) (f : Binary64 → Binary64) (args : List Value) :
    Only (Fault.Blames culprit) (whole name f args) := by
  refine of_one_known culprit name _ (fun v => ?_) args
  split
  · exact only_ok _ _
  · exact only_bind _ _ _ (number_known culprit _ _) fun _ _ => only_ok _ _

theorem core_quiet : core.Quiet := by
  intro name f found args
  have member := entry_of_lookup _ name f found
  simp only [core, List.mem_cons, Prod.mk.injEq, List.not_mem_nil, or_false] at member
  rcases member with ⟨_, rfl⟩ | ⟨_, rfl⟩ | ⟨_, rfl⟩ | ⟨_, rfl⟩
  · exact of_one_known _ _ _ (absolute_known _) args
  · exact extreme_known _ _ _ args
  · exact extreme_known _ _ _ args
  · exact of_one_or_two_known _ _ _ (round_known _) args

theorem quiet_with_math (table : FunctionTable) (quiet : table.Quiet) : table.withMath.Quiet := by
  intro name f found args
  simp only [function?, withMath, List.lookup_append, Option.or_eq_some_iff] at found
  rcases found with math | ⟨_, own⟩
  · have member := entry_of_lookup _ name f math
    simp only [List.mem_cons, Prod.mk.injEq, List.not_mem_nil, or_false] at member
    rcases member with ⟨_, rfl⟩ | ⟨_, rfl⟩ | ⟨_, rfl⟩ | ⟨_, rfl⟩ | ⟨_, rfl⟩ | ⟨_, rfl⟩ | ⟨_, rfl⟩ | ⟨_, rfl⟩ | ⟨_, rfl⟩ |
      ⟨_, rfl⟩ | ⟨_, rfl⟩ <;> first
      | exact elementary_known _ _ _ args
      | exact whole_known _ _ _ args
      | exact of_one_or_two_known _ _ _ (logarithm_known _) args
      | exact of_two_known _ _ _ (power_known _) args
  · exact quiet name f own args

end FunctionTable

namespace Expr

mutual

-- The names behind `raw`.
def behindRaw : Expr → List String
  | .literal _ => []
  | .none => []
  | .name _ => []
  | .member base n => if base = "raw" then [n] else []
  | .unary _ e => e.behindRaw
  | .binary _ left right => left.behindRaw ++ right.behindRaw
  | .chain first links => first.behindRaw ++ behindRawInLinks links
  | .and left right => left.behindRaw ++ right.behindRaw
  | .or left right => left.behindRaw ++ right.behindRaw
  | .choice condition yes no => condition.behindRaw ++ (yes.behindRaw ++ no.behindRaw)
  | .call _ args => behindRawInArgs args

def behindRawInLinks : List (Comparison × Expr) → List String
  | [] => []
  | (_, e) :: rest => e.behindRaw ++ behindRawInLinks rest

def behindRawInArgs : List Expr → List String
  | [] => []
  | e :: rest => e.behindRaw ++ behindRawInArgs rest

end

end Expr

-- What a source may answer to the names behind `raw` that are asked of it, and to anything else.
structure Symbols.Blame (symbols : Symbols) (asked culprit : String → Prop) : Prop where
  raw : ∀ n, asked n → Only (Fault.Blames culprit) (symbols.raw n)
  history : ∀ n, Only (Fault.Blames culprit) (symbols.history n)
  call : ∀ function args result, symbols.call function args = some result → Only (Fault.Blames culprit) result
  quiet : symbols.functions.Quiet

section Evaluation

variable (symbols : Symbols) (asked : String → Prop)

namespace Symbols

variable (blame : symbols.Blame asked culprit)

-- Whatever the source answers: an unknown field is looked up in the table.
theorem name_known (n : String) : Only (Fault.Blames culprit) (symbols.name n) := by
  unfold name
  split
  · cases symbols.functions.constant? n <;> simp
  case _ known =>
      intro fault failed
      cases fault with
      | unknownField definition field => exact absurd failed (known definition field)
      | _ => trivial

include blame in
theorem member_blames (base n : String) (own : base = "raw" → asked n) : Only (Fault.Blames culprit) (symbols.member base n) := by
  unfold member
  split
  · exact blame.raw n (own rfl)
  · exact blame.history n
  · cases symbols.functions.constant? n <;> simp
  · simp

include blame in
theorem apply_blames (function : String) (args : List (Option Value)) :
    Only (Fault.Blames culprit) (symbols.apply function args) := by
  unfold apply
  split
  case _ result called => exact blame.call function args result called
  · split
    · simp
    case _ f found =>
        split
        · exact only_ok _ _
        · exact blames_of_none culprit _ (blame.quiet _ f found _)

end Symbols

namespace Expr

mutual

theorem eval_blames (blame : symbols.Blame asked culprit) (e : Expr) (own : ∀ n ∈ e.behindRaw, asked n) :
    Only (Fault.Blames culprit) (e.eval symbols) := by
  cases e with
  | literal v => exact only_ok _ _
  | none => exact only_ok _ _
  | name n => exact symbols.name_known culprit n
  | member base n =>
      apply symbols.member_blames culprit asked blame
      intro raw
      exact own n (by simp [behindRaw, raw])
  | unary op e =>
      refine only_bind _ _ _ (eval_blames blame e own) fun v _ => ?_
      split
      · exact only_ok _ _
      · exact only_ok _ _
      · exact only_map _ _ _ (Arithmetic.unary_known _ _ _)
  | binary op left right =>
      obtain ⟨inLeft, inRight⟩ := List.forall_mem_append.mp own
      refine only_bind _ _ _ (eval_blames blame left inLeft) fun v _ => ?_
      refine only_bind _ _ _ (eval_blames blame right inRight) fun w _ => ?_
      split
      · exact Arithmetic.binary_known _ _ _ _
      · exact only_ok _ _
  | chain first links =>
      obtain ⟨inFirst, inLinks⟩ := List.forall_mem_append.mp own
      exact only_bind _ _ _ (eval_blames blame first inFirst) fun v _ => links_blame blame links inLinks v
  | and left right =>
      obtain ⟨inLeft, inRight⟩ := List.forall_mem_append.mp own
      refine only_bind _ _ _ (eval_blames blame left inLeft) fun v _ => ?_
      split
      · exact eval_blames blame right inRight
      · exact only_ok _ _
  | or left right =>
      obtain ⟨inLeft, inRight⟩ := List.forall_mem_append.mp own
      refine only_bind _ _ _ (eval_blames blame left inLeft) fun v _ => ?_
      split
      · exact only_ok _ _
      · exact eval_blames blame right inRight
  | choice condition yes no =>
      obtain ⟨inCondition, inBranches⟩ := List.forall_mem_append.mp own
      obtain ⟨inYes, inNo⟩ := List.forall_mem_append.mp inBranches
      refine only_bind _ _ _ (eval_blames blame condition inCondition) fun v _ => ?_
      split
      · exact eval_blames blame yes inYes
      · exact eval_blames blame no inNo
  | call function args =>
      refine only_bind _ _ _ (args_blame blame args own) fun vs _ => ?_
      exact symbols.apply_blames culprit asked blame function vs

theorem links_blame (blame : symbols.Blame asked culprit) (links : List (Comparison × Expr))
    (own : ∀ n ∈ behindRawInLinks links, asked n) (left : Option Value) :
    Only (Fault.Blames culprit) (evalLinks symbols left links) := by
  cases links with
  | nil => exact only_ok _ _
  | cons link rest =>
      obtain ⟨op, e⟩ := link
      obtain ⟨inFirst, inRest⟩ := List.forall_mem_append.mp own
      refine only_bind _ _ _ (eval_blames blame e inFirst) fun right _ => ?_
      refine only_bind _ _ _ (Arithmetic.compare_known _ _ _ _) fun outcome _ => ?_
      split
      · exact links_blame blame rest inRest right
      · exact only_ok _ _
      · exact only_ok _ _

theorem args_blame (blame : symbols.Blame asked culprit) (args : List Expr)
    (own : ∀ n ∈ behindRawInArgs args, asked n) : Only (Fault.Blames culprit) (evalAll symbols args) := by
  cases args with
  | nil => exact only_ok _ _
  | cons e rest =>
      obtain ⟨inFirst, inRest⟩ := List.forall_mem_append.mp own
      refine only_bind _ _ _ (eval_blames blame e inFirst) fun v _ => ?_
      exact only_bind _ _ _ (args_blame blame rest inRest) fun _ _ => only_ok _ _

end

end Expr

variable (blame : symbols.Blame asked culprit)

include blame in
theorem Expression.test_blames (e : Expression) (own : ∀ n ∈ e.tree.behindRaw, asked n) :
    Only (Fault.Blames culprit) (e.test symbols) :=
  only_bind _ _ _ (e.tree.eval_blames culprit symbols asked blame own) fun _ _ => only_ok _ _

include blame in
theorem guarded_blames (condition : Option Expression) (own : ∀ e ∈ condition, ∀ n ∈ e.tree.behindRaw, asked n)
    (inner : Attempt (Option Value)) (known : Only (Fault.Blames culprit) inner) :
    Only (Fault.Blames culprit) (guarded condition symbols inner) := by
  cases condition with
  | none => exact known
  | some e =>
      refine only_bind _ _ _ (e.test_blames culprit symbols asked blame (own e rfl)) fun holds _ => ?_
      cases holds with
      | true => exact known
      | false => exact only_ok _ _

include blame in
theorem Conversion.eval_blames (k : Conversion) (own : ∀ e ∈ k.expressions, ∀ n ∈ e.tree.behindRaw, asked n) :
    Only (Fault.Blames culprit) (k.eval symbols) := by
  obtain ⟨inEquation, inCondition⟩ := List.forall_mem_cons.mp own
  rw [Conversion.eval_eq]
  refine guarded_blames culprit symbols asked blame k.condition ?_ _
    (k.equation.tree.eval_blames culprit symbols asked blame inEquation)
  exact fun e member => inCondition e (Option.mem_toList.mpr member)

namespace UserFunction

-- Parameters stand for bare names.
include blame in
theorem scope_blames (params : List String) (args : List (Option Value)) :
    (scope params args symbols).Blame asked culprit :=
  ⟨blame.raw, blame.history, blame.call, blame.quiet⟩

include blame in
theorem branches_blame (bs : List (Expression × Expression))
    (own : ∀ e ∈ (FunctionBody.branches bs).expressions, ∀ n ∈ e.tree.behindRaw, asked n) :
    Only (Fault.Blames culprit) (evalBranches symbols bs) := by
  induction bs with
  | nil => exact only_ok _ _
  | cons branch rest ih =>
      obtain ⟨condition, value⟩ := branch
      obtain ⟨inBranch, inRest⟩ := List.forall_mem_append.mp own
      refine only_bind _ _ _ (condition.test_blames culprit symbols asked blame (inBranch condition (by simp))) ?_
      intro holds _
      cases holds with
      | true => exact value.tree.eval_blames culprit symbols asked blame (inBranch value (by simp))
      | false => exact ih inRest

include blame in
theorem invoke_blames (f : UserFunction) (own : ∀ e ∈ f.body.expressions, ∀ n ∈ e.tree.behindRaw, asked n)
    (args : List (Option Value)) : Only (Fault.Blames culprit) (f.invoke args symbols) := by
  have inner := scope_blames culprit symbols asked blame f.params args
  simp only [invoke]
  by_cases counted : args.length = f.params.length
  · rw [if_pos counted]
    cases body : f.body with
    | expression e =>
        rw [body] at own
        exact e.tree.eval_blames culprit _ asked inner (own e List.mem_cons_self)
    | branches bs =>
        rw [body] at own
        exact branches_blame culprit _ asked inner bs own
  · rw [if_neg counted]
    simp

end UserFunction

end Evaluation

end SpaceLink
