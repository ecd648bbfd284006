import SpaceLink.Proofs.Packet.Depth

/-!
The rules of evaluation without a limit: what a derivation that ends gives as the value of a field. What
settles on any level is derived, and what is derived settles once there are levels enough.
-/

set_option autoImplicit false

namespace SpaceLink

open Attempt

namespace Expr

-- The part that is evaluated first; arguments have rules of their own.
def first? : Expr → Option Expr
  | .unary _ e => some e
  | .binary _ left _ => some left
  | .chain first _ => some first
  | .and left _ => some left
  | .or left _ => some left
  | .choice condition _ _ => some condition
  | _ => Option.none

def ofUnary (op : UnaryOp) (v : Option Value) : Attempt (Option Value) :=
  match op, v with
  | .not, v => .ok (some (.bool !isTrue v))
  | _, Option.none => .ok Option.none
  | op, some v => (Arithmetic.unary op v).map some

def ofBinary (op : BinaryOp) (v w : Option Value) : Attempt (Option Value) :=
  match v, w with
  | some a, some b => Arithmetic.binary op a b
  | _, _ => .ok Option.none

theorem links_end (symbols : Symbols) (left right : Option Value) (op : Comparison) (e : Expr)
    (rest : List (Comparison × Expr)) (value : e.eval symbols = .ok right)
    (ends : Arithmetic.compare op left right ≠ .ok (some true)) :
    evalLinks symbols left ((op, e) :: rest) = (Arithmetic.compare op left right).map (Option.map .bool) := by
  rw [evalLinks, bind_of_ok _ _ right value]
  cases outcome : Arithmetic.compare op left right with
  | error fault => rfl
  | ok holds =>
      cases holds with
      | none => rfl
      | some further =>
          cases further with
          | false => rfl
          | true => exact absurd outcome ends

theorem links_go_on (symbols : Symbols) (left right : Option Value) (op : Comparison) (e : Expr)
    (rest : List (Comparison × Expr)) (value : e.eval symbols = .ok right)
    (holds : Arithmetic.compare op left right = .ok (some true)) :
    evalLinks symbols left ((op, e) :: rest) = evalLinks symbols right rest := by
  rw [evalLinks, bind_of_ok _ _ right value, bind_of_ok _ _ _ holds]

end Expr

namespace Packet

-- The parameters and arguments of the function whose body is evaluated; there are none outside of functions.
structure Scope where
  params : List String
  args : List (Option Value)

namespace Scope

def top : Scope := ⟨[], []⟩

def names (scope : Scope) (outer : Symbols) : Symbols := UserFunction.scope scope.params scope.args outer

theorem top_names (outer : Symbols) : top.names outer = outer := rfl

theorem names_value_bound (scope : Scope) (outer : Symbols) (n : String) (v : Option Value)
    (bound : UserFunction.argument? n scope.params scope.args = some v) : (scope.names outer).value n = .ok v := by
  simp only [names, UserFunction.scope, bound]

theorem names_value_free (scope : Scope) (outer : Symbols) (n : String)
    (free : UserFunction.argument? n scope.params scope.args = none) : (scope.names outer).value n = outer.value n := by
  simp only [names, UserFunction.scope, free]

end Scope

-- What is evaluated.
inductive Job where
  | guarded (condition : Option Expression) (inner : Job)
  | own (f : Field) (raw : Bool) (index : Option Nat)
  | tree (scope : Scope) (e : Expr)
  | links (scope : Scope) (left : Option Value) (links : List (Comparison × Expr))
  | call (scope : Scope) (function : String) (done : List (Option Value)) (rest : List Expr)
  | invoke (f : UserFunction) (args : List (Option Value))
  | branches (scope : Scope) (bs : List (Expression × Expression))

def Job.read (f : Field) (raw : Bool) (index : Option Nat) : Job := .guarded f.condition (.own f raw index)

-- What stands for the names that are neither those of fields nor those of functions of the packet.
def plain (c : Context) (p : Packet) : Symbols := p.symbolsWith c (fun _ _ => .ok none) fun _ _ => none

inductive Derives (c : Context) (p : Packet) : Job → Attempt (Option Value) → Prop
  | unguarded (inner : Job) (r : Attempt (Option Value)) (derived : Derives c p inner r) :
      Derives c p (.guarded none inner) r
  | passed (e : Expression) (inner : Job) (v : Option Value) (r : Attempt (Option Value))
      (condition : Derives c p (.tree .top e.tree) (.ok v)) (holds : isTrue v = true) (derived : Derives c p inner r) :
      Derives c p (.guarded (some e) inner) r
  | missing (e : Expression) (inner : Job) (v : Option Value)
      (condition : Derives c p (.tree .top e.tree) (.ok v)) (fails : isTrue v = false) :
      Derives c p (.guarded (some e) inner) (.ok none)
  | refused (e : Expression) (inner : Job) (fault : Fault) (condition : Derives c p (.tree .top e.tree) (.error fault)) :
      Derives c p (.guarded (some e) inner) (.error fault)
  | converted (f : Field) (index : Option Nat) (k : Conversion) (r : Attempt (Option Value))
      (conversion : f.conversion = some k)
      (derived : Derives c p (.guarded k.condition (.tree .top k.equation.tree)) r) : Derives c p (.own f false index) r
  | computed (f : Field) (index : Option Nat) (e : Expression) (r : Attempt (Option Value))
      (unconverted : f.conversion = none) (expr : f.expr = some e) (derived : Derives c p (.tree .top e.tree) r) :
      Derives c p (.own f false index) r
  | stored (f : Field) (raw : Bool) (index : Option Nat) (bytes : raw = true ∨ f.isDerived = false) :
      Derives c p (.own f raw index) ((f.decode c.books p.data raw index).map some)
  | literal (scope : Scope) (v : Value) : Derives c p (.tree scope (.literal v)) (.ok (some v))
  | nothing (scope : Scope) : Derives c p (.tree scope .none) (.ok none)
  | parameter (scope : Scope) (n : String) (v : Option Value)
      (bound : UserFunction.argument? n scope.params scope.args = some v) : Derives c p (.tree scope (.name n)) (.ok v)
  | field (scope : Scope) (n : String) (f : Field) (r : Attempt (Option Value))
      (free : UserFunction.argument? n scope.params scope.args = none) (found : p.definition.field? n = some f)
      (derived : Derives c p (.read f false none) r) :
      Derives c p (.tree scope (.name n)) (Symbols.orConstant p.definition.table n r)
  | outside (scope : Scope) (n : String) (free : UserFunction.argument? n scope.params scope.args = none)
      (unknown : p.definition.field? n = none) : Derives c p (.tree scope (.name n)) ((p.plain c).name n)
  | rawField (scope : Scope) (n : String) (f : Field) (r : Attempt (Option Value))
      (found : p.definition.field? n = some f) (derived : Derives c p (.read f true none) r) :
      Derives c p (.tree scope (.member "raw" n)) r
  | member (scope : Scope) (base n : String) (unknown : base = "raw" → p.definition.field? n = none) :
      Derives c p (.tree scope (.member base n)) ((p.plain c).member base n)
  | firstFault (scope : Scope) (e first : Expr) (fault : Fault) (head : e.first? = some first)
      (failed : Derives c p (.tree scope first) (.error fault)) : Derives c p (.tree scope e) (.error fault)
  | unary (scope : Scope) (op : UnaryOp) (e : Expr) (v : Option Value) (derived : Derives c p (.tree scope e) (.ok v)) :
      Derives c p (.tree scope (.unary op e)) (Expr.ofUnary op v)
  | binary (scope : Scope) (op : BinaryOp) (left right : Expr) (v : Option Value) (r : Attempt (Option Value))
      (first : Derives c p (.tree scope left) (.ok v)) (second : Derives c p (.tree scope right) r) :
      Derives c p (.tree scope (.binary op left right)) (r >>= Expr.ofBinary op v)
  | chain (scope : Scope) (e : Expr) (links : List (Comparison × Expr)) (v : Option Value) (r : Attempt (Option Value))
      (first : Derives c p (.tree scope e) (.ok v)) (others : Derives c p (.links scope v links) r) :
      Derives c p (.tree scope (.chain e links)) r
  | andTrue (scope : Scope) (left right : Expr) (v : Option Value) (r : Attempt (Option Value))
      (first : Derives c p (.tree scope left) (.ok v)) (holds : isTrue v = true)
      (second : Derives c p (.tree scope right) r) : Derives c p (.tree scope (.and left right)) r
  | andFalse (scope : Scope) (left right : Expr) (v : Option Value) (first : Derives c p (.tree scope left) (.ok v))
      (fails : isTrue v = false) : Derives c p (.tree scope (.and left right)) (.ok v)
  | orTrue (scope : Scope) (left right : Expr) (v : Option Value) (first : Derives c p (.tree scope left) (.ok v))
      (holds : isTrue v = true) : Derives c p (.tree scope (.or left right)) (.ok v)
  | orFalse (scope : Scope) (left right : Expr) (v : Option Value) (r : Attempt (Option Value))
      (first : Derives c p (.tree scope left) (.ok v)) (fails : isTrue v = false)
      (second : Derives c p (.tree scope right) r) : Derives c p (.tree scope (.or left right)) r
  | choice (scope : Scope) (condition yes no : Expr) (v : Option Value) (r : Attempt (Option Value))
      (first : Derives c p (.tree scope condition) (.ok v))
      (branch : Derives c p (.tree scope (if isTrue v then yes else no)) r) :
      Derives c p (.tree scope (.choice condition yes no)) r
  | call (scope : Scope) (function : String) (args : List Expr) (r : Attempt (Option Value))
      (derived : Derives c p (.call scope function [] args) r) : Derives c p (.tree scope (.call function args)) r
  | noLink (scope : Scope) (left : Option Value) : Derives c p (.links scope left []) (.ok (some (.bool true)))
  | linkFault (scope : Scope) (left : Option Value) (op : Comparison) (e : Expr) (rest : List (Comparison × Expr))
      (fault : Fault) (failed : Derives c p (.tree scope e) (.error fault)) :
      Derives c p (.links scope left ((op, e) :: rest)) (.error fault)
  | linkHolds (scope : Scope) (left : Option Value) (op : Comparison) (e : Expr) (rest : List (Comparison × Expr))
      (right : Option Value) (r : Attempt (Option Value)) (derived : Derives c p (.tree scope e) (.ok right))
      (holds : Arithmetic.compare op left right = .ok (some true)) (others : Derives c p (.links scope right rest) r) :
      Derives c p (.links scope left ((op, e) :: rest)) r
  | linkEnds (scope : Scope) (left : Option Value) (op : Comparison) (e : Expr) (rest : List (Comparison × Expr))
      (right : Option Value) (derived : Derives c p (.tree scope e) (.ok right))
      (ends : Arithmetic.compare op left right ≠ .ok (some true)) :
      Derives c p (.links scope left ((op, e) :: rest)) ((Arithmetic.compare op left right).map (Option.map .bool))
  | argument (scope : Scope) (function : String) (done : List (Option Value)) (e : Expr) (rest : List Expr)
      (v : Option Value) (r : Attempt (Option Value)) (derived : Derives c p (.tree scope e) (.ok v))
      (others : Derives c p (.call scope function (done ++ [v]) rest) r) :
      Derives c p (.call scope function done (e :: rest)) r
  | argumentFault (scope : Scope) (function : String) (done : List (Option Value)) (e : Expr) (rest : List Expr)
      (fault : Fault) (failed : Derives c p (.tree scope e) (.error fault)) :
      Derives c p (.call scope function done (e :: rest)) (.error fault)
  | user (scope : Scope) (function : String) (done : List (Option Value)) (f : UserFunction)
      (r : Attempt (Option Value)) (found : p.definition.function? function = some f)
      (derived : Derives c p (.invoke f done) r) : Derives c p (.call scope function done []) r
  | native (scope : Scope) (function : String) (done : List (Option Value))
      (unknown : p.definition.function? function = none) :
      Derives c p (.call scope function done []) ((p.plain c).apply function done)
  | miscounted (f : UserFunction) (args : List (Option Value)) (wrong : args.length ≠ f.params.length) :
      Derives c p (.invoke f args) (.error (.expression (.parameterCount f.name f.params.length args.length)))
  | body (f : UserFunction) (args : List (Option Value)) (e : Expression) (r : Attempt (Option Value))
      (counted : args.length = f.params.length) (body : f.body = .expression e)
      (derived : Derives c p (.tree ⟨f.params, args⟩ e.tree) r) : Derives c p (.invoke f args) r
  | bodyOfBranches (f : UserFunction) (args : List (Option Value)) (bs : List (Expression × Expression))
      (r : Attempt (Option Value)) (counted : args.length = f.params.length) (body : f.body = .branches bs)
      (derived : Derives c p (.branches ⟨f.params, args⟩ bs) r) : Derives c p (.invoke f args) r
  | noBranch (scope : Scope) : Derives c p (.branches scope []) (.ok none)
  | branchTaken (scope : Scope) (condition value : Expression) (rest : List (Expression × Expression))
      (v : Option Value) (r : Attempt (Option Value)) (first : Derives c p (.tree scope condition.tree) (.ok v))
      (holds : isTrue v = true) (derived : Derives c p (.tree scope value.tree) r) :
      Derives c p (.branches scope ((condition, value) :: rest)) r
  | branchPassed (scope : Scope) (condition value : Expression) (rest : List (Expression × Expression))
      (v : Option Value) (r : Attempt (Option Value)) (first : Derives c p (.tree scope condition.tree) (.ok v))
      (fails : isTrue v = false) (others : Derives c p (.branches scope rest) r) :
      Derives c p (.branches scope ((condition, value) :: rest)) r
  | branchFault (scope : Scope) (condition value : Expression) (rest : List (Expression × Expression))
      (fault : Fault) (failed : Derives c p (.tree scope condition.tree) (.error fault)) :
      Derives c p (.branches scope ((condition, value) :: rest)) (.error fault)

-- The outcome of a job where names of the packet stand for `symbols`.
def Job.answer (c : Context) (p : Packet) (symbols : Symbols) : Job → Attempt (Option Value)
  | .guarded condition inner => SpaceLink.guarded condition symbols (inner.answer c p symbols)
  | .own f raw index => p.own c symbols f raw index
  | .tree scope e => e.eval (scope.names symbols)
  | .links scope left rest => Expr.evalLinks (scope.names symbols) left rest
  | .call scope function done rest => do
      (scope.names symbols).apply function (done ++ (← Expr.evalAll (scope.names symbols) rest))
  | .invoke f args => f.invoke args symbols
  | .branches scope bs => UserFunction.evalBranches (scope.names symbols) bs

theorem read_answer (c : Context) (p : Packet) (symbols : Symbols) (f : Field) (raw : Bool) (index : Option Nat) :
    (Job.read f raw index).answer c p symbols = p.readWith c symbols f raw index := by
  rw [read_with_eq]
  rfl

theorem call_answer_done (c : Context) (p : Packet) (symbols : Symbols) (scope : Scope) (function : String)
    (done : List (Option Value)) :
    (Job.call scope function done []).answer c p symbols = (scope.names symbols).apply function done := by
  simp only [Job.answer, Expr.evalAll, bind_of_ok _ _ _ rfl, List.append_nil]

theorem call_answer_next (c : Context) (p : Packet) (symbols : Symbols) (scope : Scope) (function : String)
    (done : List (Option Value)) (e : Expr) (rest : List Expr) :
    (Job.call scope function done (e :: rest)).answer c p symbols =
      (e.eval (scope.names symbols) >>= fun v => (Job.call scope function (done ++ [v]) rest).answer c p symbols) := by
  simp only [Job.answer, Expr.evalAll]
  cases e.eval (scope.names symbols) with
  | error fault => rfl
  | ok v =>
      cases Expr.evalAll (scope.names symbols) rest with
      | error fault => rfl
      | ok vs => simp [bind, Except.bind]

-- What is settled among the answers of these symbols is derived.
structure Grounded (c : Context) (p : Packet) (symbols : Symbols) : Prop where
  field : ∀ n f, p.definition.field? n = some f → Settled (symbols.value n) →
    Derives c p (.read f false none) (symbols.value n)
  raw : ∀ n f, p.definition.field? n = some f → Settled (symbols.raw n) →
    Derives c p (.read f true none) (symbols.raw n)
  value : ∀ n, p.definition.field? n = none → symbols.value n = (p.plain c).value n
  rawUnknown : ∀ n, p.definition.field? n = none → symbols.raw n = (p.plain c).raw n
  history : symbols.history = (p.plain c).history
  user : ∀ function args f, p.definition.function? function = some f →
    (∀ r, symbols.call function args = some r → Settled r) →
    ∃ r, symbols.call function args = some r ∧ Derives c p (.invoke f args) r
  native : ∀ function args, p.definition.function? function = none →
    (∀ r, symbols.call function args = some r → Settled r) → symbols.call function args = none
  functions : symbols.functions = p.definition.table

section Grounded

variable (c : Context) (p : Packet)

theorem name_derived (symbols : Symbols) (grounded : Grounded c p symbols) (scope : Scope) (n : String)
    (settled : Settled ((scope.names symbols).name n)) :
    Derives c p (.tree scope (.name n)) ((scope.names symbols).name n) := by
  rw [Symbols.name_eq] at settled ⊢
  have inner := Symbols.settled_of_constant _ _ _ settled
  cases bound : UserFunction.argument? n scope.params scope.args with
  | some v =>
      rw [scope.names_value_bound symbols n v bound]
      exact .parameter scope n v bound
  | none =>
      have functions : (scope.names symbols).functions = p.definition.table := grounded.functions
      rw [scope.names_value_free symbols n bound] at inner
      rw [scope.names_value_free symbols n bound, functions]
      cases found : p.definition.field? n with
      | some f => exact .field scope n f _ bound found (grounded.field n f found inner)
      | none =>
          rw [grounded.value n found]
          exact .outside scope n bound found

theorem member_plain (symbols : Symbols) (grounded : Grounded c p symbols) (scope : Scope) (base n : String)
    (unknown : base = "raw" → p.definition.field? n = none) :
    (scope.names symbols).member base n = (p.plain c).member base n := by
  have functions : (scope.names symbols).functions = (p.plain c).functions := grounded.functions
  unfold Symbols.member
  split
  · exact grounded.rawUnknown n (unknown rfl)
  · exact congrFun grounded.history n
  · rw [functions]
  · rfl

theorem member_derived (symbols : Symbols) (grounded : Grounded c p symbols) (scope : Scope) (base n : String)
    (settled : Settled ((scope.names symbols).member base n)) :
    Derives c p (.tree scope (.member base n)) ((scope.names symbols).member base n) := by
  by_cases raw : base = "raw" ∧ (p.definition.field? n).isSome = true
  · obtain ⟨rfl, known⟩ := raw
    obtain ⟨f, found⟩ := Option.isSome_iff_exists.mp known
    exact .rawField scope n f _ found (grounded.raw n f found settled)
  · have unknown : base = "raw" → p.definition.field? n = none := by
      intro same
      simpa [same] using raw
    rw [member_plain c p symbols grounded scope base n unknown]
    exact .member scope base n unknown

theorem applied_derived (symbols : Symbols) (grounded : Grounded c p symbols) (scope : Scope) (function : String)
    (args : List (Option Value)) (settled : Settled ((scope.names symbols).apply function args)) :
    Derives c p (.call scope function args []) ((scope.names symbols).apply function args) := by
  rw [Symbols.apply_eq] at settled ⊢
  have inner : ∀ r, symbols.call function args = some r → Settled r := by
    intro r called
    have same : (scope.names symbols).call function args = some r := called
    rwa [same] at settled
  cases found : p.definition.function? function with
  | some f =>
      obtain ⟨r, called, derived⟩ := grounded.user function args f found inner
      have same : (scope.names symbols).call function args = some r := called
      rw [same]
      exact .user scope function args f r found derived
  | none =>
      have uncalled : (scope.names symbols).call function args = none := grounded.native function args found inner
      have functions : (scope.names symbols).functions = p.definition.table := grounded.functions
      rw [uncalled, functions]
      exact .native scope function args found

-- The part that is evaluated first gives its fault to the whole, or its value to what follows.
theorem first_derived (scope : Scope) (e first : Expr) (head : e.first? = some first) (x : Attempt (Option Value))
    (next : Option Value → Attempt (Option Value)) (derived : Derives c p (.tree scope first) x)
    (follows : ∀ v, x = .ok v → Derives c p (.tree scope first) (.ok v) → Derives c p (.tree scope e) (next v)) :
    Derives c p (.tree scope e) (x >>= next) := by
  cases x with
  | error fault => exact .firstFault scope e first fault head derived
  | ok v => exact follows v rfl derived

end Grounded

mutual

theorem tree_derived (c : Context) (p : Packet) (symbols : Symbols) (grounded : Grounded c p symbols) (scope : Scope)
    (e : Expr) (settled : Settled (e.eval (scope.names symbols))) :
    Derives c p (.tree scope e) (e.eval (scope.names symbols)) := by
  cases e with
  | literal v => exact .literal scope v
  | none => exact .nothing scope
  | name n => exact name_derived c p symbols grounded scope n settled
  | member base n => exact member_derived c p symbols grounded scope base n settled
  | unary op e =>
      have derived := tree_derived c p symbols grounded scope e (settled_of_bind _ _ settled)
      exact first_derived c p scope _ e rfl _ _ derived fun v _ first => .unary scope op e v first
  | binary op left right =>
      have derived := tree_derived c p symbols grounded scope left (settled_of_bind _ _ settled)
      refine first_derived c p scope _ left rfl _ _ derived fun v value first => ?_
      have settledRight := settled_of_bind _ _ (settled_next _ _ settled v value)
      exact .binary scope op left right v _ first (tree_derived c p symbols grounded scope right settledRight)
  | chain first links =>
      have derived := tree_derived c p symbols grounded scope first (settled_of_bind _ _ settled)
      refine first_derived c p scope _ first rfl _ _ derived fun v value head => ?_
      have settledLinks := settled_next _ _ settled v value
      exact .chain scope first links v _ head (links_derived c p symbols grounded scope links v settledLinks)
  | and left right =>
      have derived := tree_derived c p symbols grounded scope left (settled_of_bind _ _ settled)
      refine first_derived c p scope _ left rfl _ _ derived fun v value first => ?_
      have settledRight := settled_next _ _ settled v value
      cases holds : isTrue v with
      | true =>
          simp only [holds, if_true] at settledRight ⊢
          exact .andTrue scope left right v _ first holds (tree_derived c p symbols grounded scope right settledRight)
      | false => exact .andFalse scope left right v first holds
  | or left right =>
      have derived := tree_derived c p symbols grounded scope left (settled_of_bind _ _ settled)
      refine first_derived c p scope _ left rfl _ _ derived fun v value first => ?_
      have settledRight := settled_next _ _ settled v value
      cases holds : isTrue v with
      | true => exact .orTrue scope left right v first holds
      | false =>
          simp only [holds, Bool.false_eq_true, if_false] at settledRight ⊢
          exact .orFalse scope left right v _ first holds (tree_derived c p symbols grounded scope right settledRight)
  | choice condition yes no =>
      have derived := tree_derived c p symbols grounded scope condition (settled_of_bind _ _ settled)
      refine first_derived c p scope _ condition rfl _ _ derived fun v value first => ?_
      have settledBranch := settled_next _ _ settled v value
      refine .choice scope condition yes no v _ first ?_
      cases holds : isTrue v with
      | true =>
          simp only [holds, if_true] at settledBranch ⊢
          exact tree_derived c p symbols grounded scope yes settledBranch
      | false =>
          simp only [holds, Bool.false_eq_true, if_false] at settledBranch ⊢
          exact tree_derived c p symbols grounded scope no settledBranch
  | call function args =>
      exact .call scope function args _ (call_derived c p symbols grounded scope function [] args settled)

theorem links_derived (c : Context) (p : Packet) (symbols : Symbols) (grounded : Grounded c p symbols) (scope : Scope)
    (links : List (Comparison × Expr)) (left : Option Value)
    (settled : Settled (Expr.evalLinks (scope.names symbols) left links)) :
    Derives c p (.links scope left links) (Expr.evalLinks (scope.names symbols) left links) := by
  cases links with
  | nil => exact .noLink scope left
  | cons link rest =>
      obtain ⟨op, e⟩ := link
      have derived := tree_derived c p symbols grounded scope e (settled_of_bind _ _ settled)
      cases value : e.eval (scope.names symbols) with
      | error fault =>
          rw [value] at derived
          rw [Expr.evalLinks, bind_of_error _ _ fault value]
          exact .linkFault scope left op e rest fault derived
      | ok right =>
          rw [value] at derived
          by_cases holds : Arithmetic.compare op left right = .ok (some true)
          · rw [Expr.links_go_on _ left right op e rest value holds] at settled ⊢
            have others := links_derived c p symbols grounded scope rest right settled
            exact .linkHolds scope left op e rest right _ derived holds others
          · rw [Expr.links_end _ left right op e rest value holds]
            exact .linkEnds scope left op e rest right derived holds

theorem call_derived (c : Context) (p : Packet) (symbols : Symbols) (grounded : Grounded c p symbols) (scope : Scope)
    (function : String) (done : List (Option Value)) (rest : List Expr)
    (settled : Settled ((Job.call scope function done rest).answer c p symbols)) :
    Derives c p (.call scope function done rest) ((Job.call scope function done rest).answer c p symbols) := by
  cases rest with
  | nil =>
      rw [call_answer_done] at settled ⊢
      exact applied_derived c p symbols grounded scope function done settled
  | cons e rest =>
      rw [call_answer_next] at settled ⊢
      have derived := tree_derived c p symbols grounded scope e (settled_of_bind _ _ settled)
      cases value : e.eval (scope.names symbols) with
      | error fault =>
          rw [value] at derived
          exact .argumentFault scope function done e rest fault derived
      | ok v =>
          rw [value] at derived
          have others := call_derived c p symbols grounded scope function (done ++ [v]) rest
            (settled_next _ _ settled v value)
          exact .argument scope function done e rest v _ derived others

end

section Jobs

variable (c : Context) (p : Packet) (symbols : Symbols) (grounded : Grounded c p symbols)

include grounded in
theorem branches_derived (scope : Scope) (bs : List (Expression × Expression))
    (settled : Settled (UserFunction.evalBranches (scope.names symbols) bs)) :
    Derives c p (.branches scope bs) (UserFunction.evalBranches (scope.names symbols) bs) := by
  induction bs with
  | nil => exact .noBranch scope
  | cons branch rest ih =>
      obtain ⟨condition, value⟩ := branch
      have derived := tree_derived c p symbols grounded scope condition.tree
        (settled_of_bind _ _ (settled_of_bind _ _ settled))
      cases tested : condition.tree.eval (scope.names symbols) with
      | error fault =>
          have test := condition.test_of_fault _ fault tested
          rw [tested] at derived
          rw [UserFunction.evalBranches, bind_of_error _ _ fault test]
          exact .branchFault scope condition value rest fault derived
      | ok v =>
          have test := condition.test_of_value _ v tested
          have settledBranch := settled_next _ _ settled _ test
          rw [tested] at derived
          rw [UserFunction.evalBranches, bind_of_ok _ _ _ test]
          cases holds : isTrue v with
          | true =>
              simp only [holds, if_true] at settledBranch ⊢
              exact .branchTaken scope condition value rest v _ derived holds
                (tree_derived c p symbols grounded scope value.tree settledBranch)
          | false =>
              simp only [holds, Bool.false_eq_true, if_false] at settledBranch ⊢
              exact .branchPassed scope condition value rest v _ derived holds (ih settledBranch)

include grounded in
theorem invoke_derived (f : UserFunction) (args : List (Option Value)) (settled : Settled (f.invoke args symbols)) :
    Derives c p (.invoke f args) (f.invoke args symbols) := by
  simp only [UserFunction.invoke] at settled ⊢
  by_cases counted : args.length = f.params.length
  · rw [if_pos counted] at settled ⊢
    cases body : f.body with
    | expression e =>
        simp only [body] at settled ⊢
        exact .body f args e _ counted body (tree_derived c p symbols grounded ⟨f.params, args⟩ e.tree settled)
    | branches bs =>
        simp only [body] at settled ⊢
        exact .bodyOfBranches f args bs _ counted body
          (branches_derived c p symbols grounded ⟨f.params, args⟩ bs settled)
  · rw [if_neg counted]
    exact .miscounted f args counted

include grounded in
theorem guarded_derived (condition : Option Expression) (inner : Job) (x : Attempt (Option Value))
    (derived : Settled x → Derives c p inner x) (settled : Settled (guarded condition symbols x)) :
    Derives c p (.guarded condition inner) (guarded condition symbols x) := by
  cases condition with
  | none => exact .unguarded inner x (derived settled)
  | some e =>
      have first := tree_derived c p symbols grounded .top e.tree (settled_of_bind _ _ (settled_of_bind _ _ settled))
      cases tested : e.tree.eval symbols with
      | error fault =>
          have test := e.test_of_fault symbols fault tested
          rw [Scope.top_names, tested] at first
          simp only [guarded]
          rw [bind_of_error _ _ fault test]
          exact .refused e inner fault first
      | ok v =>
          have test := e.test_of_value symbols v tested
          have settledInner := settled_next _ _ settled _ test
          rw [Scope.top_names, tested] at first
          simp only [guarded]
          rw [bind_of_ok _ _ _ test]
          cases holds : isTrue v with
          | true =>
              simp only [holds, if_true] at settledInner ⊢
              exact .passed e inner v x first holds (derived settledInner)
          | false => exact .missing e inner v first holds

include grounded in
theorem own_derived (f : Field) (raw : Bool) (index : Option Nat) (settled : Settled (p.own c symbols f raw index)) :
    Derives c p (.own f raw index) (p.own c symbols f raw index) := by
  cases raw with
  | true => exact .stored f true index (.inl rfl)
  | false =>
      cases conversion : f.conversion with
      | some k =>
          simp only [own, conversion, Conversion.eval_eq] at settled ⊢
          exact .converted f index k _ conversion (guarded_derived c p symbols grounded k.condition _ _
            (tree_derived c p symbols grounded .top k.equation.tree) settled)
      | none =>
          cases expr : f.expr with
          | some e =>
              simp only [own, conversion, expr] at settled ⊢
              exact .computed f index e _ conversion expr (tree_derived c p symbols grounded .top e.tree settled)
          | none =>
              simp only [own, conversion, expr]
              exact .stored f false index (.inr (by simp [Field.isDerived, conversion, expr]))

include grounded in
theorem read_derived (f : Field) (raw : Bool) (index : Option Nat)
    (settled : Settled (p.readWith c symbols f raw index)) :
    Derives c p (.read f raw index) (p.readWith c symbols f raw index) := by
  rw [read_with_eq] at settled ⊢
  exact guarded_derived c p symbols grounded f.condition _ _ (own_derived c p symbols grounded f raw index) settled

end Jobs

theorem symbols_with_grounded (c : Context) (p : Packet) (read : Field → Bool → Attempt (Option Value))
    (call : String → List (Option Value) → Option (Attempt (Option Value)))
    (reads : ∀ f raw, Settled (read f raw) → Derives c p (.read f raw none) (read f raw))
    (user : ∀ function args f, p.definition.function? function = some f →
      (∀ r, call function args = some r → Settled r) → ∃ r, call function args = some r ∧ Derives c p (.invoke f args) r)
    (native : ∀ function args, p.definition.function? function = none →
      (∀ r, call function args = some r → Settled r) → call function args = none) :
    Grounded c p (p.symbolsWith c read call) := by
  refine ⟨?_, ?_, ?_, ?_, rfl, user, native, rfl⟩
  · intro n f found settled
    simp only [symbolsWith, found] at settled ⊢
    exact reads f false settled
  · intro n f found settled
    simp only [symbolsWith, found] at settled ⊢
    exact reads f true settled
  · intro n unknown
    simp only [plain, symbolsWith, unknown]
  · intro n unknown
    simp only [plain, symbolsWith, unknown]

theorem levels_grounded (c : Context) (p : Packet) (levels : Nat) : Grounded c p (p.symbols c levels) := by
  induction levels with
  | zero =>
      apply symbols_with_grounded
      · exact fun _ _ settled => absurd settled p.not_settled_too_deep
      · intro function args f _ settled
        cases settled _ rfl _ rfl
      · intro function args _ settled
        cases settled _ rfl _ rfl
  | succ levels ih =>
      rw [symbols_succ]
      apply symbols_with_grounded
      · exact fun f raw settled => read_derived c p _ ih f raw none settled
      · intro function args f found settled
        simp only [found, Option.map_some] at settled ⊢
        exact ⟨_, rfl, invoke_derived c p _ ih f args (settled _ rfl)⟩
      · intro function args unknown _
        simp only [unknown, Option.map_none]

end Packet

end SpaceLink
