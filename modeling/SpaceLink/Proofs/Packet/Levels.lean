import Mathlib.Order.Filter.AtTopBot.Basic
import SpaceLink.Ccsds.Header
import SpaceLink.Proofs.Packet.Derivation

/-!
Levels enough. What is derived is the outcome from some number of levels on, so no job has two results; and
a reading that meets the limit never gives anything but its fault.
-/

set_option autoImplicit false

namespace SpaceLink.Packet

open Attempt

open Filter (Eventually atTop)

theorem eventually_next (before after : Nat → Prop) (holds : ∀ᶠ levels in atTop, before levels)
    (step : ∀ levels, before levels → after (levels + 1)) : ∀ᶠ levels in atTop, after levels := by
  obtain ⟨enough, holds⟩ := Filter.eventually_atTop.mp holds
  refine Filter.eventually_atTop.mpr ⟨enough + 1, ?_⟩
  intro levels more
  cases levels with
  | zero => omega
  | succ levels => exact step levels (holds levels (by omega))

theorem eval_first_fault (symbols : Symbols) (e first : Expr) (fault : Fault) (head : e.first? = some first)
    (failed : first.eval symbols = .error fault) : e.eval symbols = .error fault := by
  cases e with
  | unary op e => cases head; exact bind_of_error _ _ fault failed
  | binary op left right => cases head; exact bind_of_error _ _ fault failed
  | chain e links => cases head; exact bind_of_error _ _ fault failed
  | and left right => cases head; exact bind_of_error _ _ fault failed
  | or left right => cases head; exact bind_of_error _ _ fault failed
  | choice condition yes no => cases head; exact bind_of_error _ _ fault failed
  | _ => cases head

variable (c : Context) (p : Packet)

theorem derived_eventually (job : Job) (r : Attempt (Option Value)) (derived : Derives c p job r) :
    ∀ᶠ levels in atTop, job.answer c p (p.symbols c levels) = r := by
  induction derived with
  | unguarded inner r derived ih => exact ih
  | passed e inner v r condition holds derived tested ih =>
      filter_upwards [tested, ih] with levels tested value
      exact (bind_of_ok _ _ _ (e.test_of_value _ v tested)).trans ((if_pos holds).trans value)
  | missing e inner v condition fails tested =>
      filter_upwards [tested] with levels tested
      exact (bind_of_ok _ _ _ (e.test_of_value _ v tested)).trans (if_neg (by simp [fails]))
  | refused e inner fault condition tested =>
      filter_upwards [tested] with levels tested
      exact bind_of_error _ _ fault (e.test_of_fault _ fault tested)
  | converted f index k r conversion derived ih =>
      filter_upwards [ih] with levels value
      simp only [Job.answer, own, conversion, Conversion.eval_eq]
      exact value
  | computed f index e r unconverted expr derived ih =>
      filter_upwards [ih] with levels value
      simp only [Job.answer, own, unconverted, expr]
      exact value
  | stored f raw index bytes =>
      apply Filter.Eventually.of_forall
      intro levels
      cases raw with
      | true => rfl
      | false =>
          have underived : f.conversion = none ∧ f.expr = none := by simpa [Field.isDerived] using bytes
          simp only [Job.answer, own, underived.1, underived.2]
          rfl
  | literal scope v => exact .of_forall fun _ => rfl
  | nothing scope => exact .of_forall fun _ => rfl
  | parameter scope n v bound =>
      apply Filter.Eventually.of_forall
      intro levels
      simp only [Job.answer, Expr.eval, Symbols.name_eq, scope.names_value_bound _ n v bound]
      rfl
  | field scope n f r free found derived ih =>
      apply eventually_next _ _ ih
      intro levels value
      have own : (p.symbols c (levels + 1)).value n = r := by
        rw [← value, read_answer, symbols_succ]
        simp only [symbolsWith, found]
      simp only [Job.answer, Expr.eval, Symbols.name_eq, scope.names_value_free _ n free, own]
      rfl
  | outside scope n free unknown =>
      apply Filter.Eventually.of_forall
      intro levels
      have grounded := levels_grounded c p levels
      have functions : (scope.names (p.symbols c levels)).functions = p.definition.table := grounded.functions
      simp only [Job.answer, Expr.eval, Symbols.name_eq, scope.names_value_free _ n free, grounded.value n unknown,
        functions]
      rfl
  | rawField scope n f r found derived ih =>
      apply eventually_next _ _ ih
      intro levels value
      have own : (p.symbols c (levels + 1)).raw n = r := by
        rw [← value, read_answer, symbols_succ]
        simp only [symbolsWith, found]
      exact own
  | member scope base n unknown =>
      exact .of_forall fun levels => member_plain c p _ (levels_grounded c p levels) scope base n unknown
  | firstFault scope e first fault head failed ih =>
      filter_upwards [ih] with levels failed
      exact eval_first_fault _ e first fault head failed
  | unary scope op e v derived ih =>
      filter_upwards [ih] with levels value
      exact bind_of_ok _ _ v value
  | binary scope op left right v r first second ihFirst ihSecond =>
      filter_upwards [ihFirst, ihSecond] with levels first second
      rw [← second]
      exact bind_of_ok _ _ v first
  | chain scope e links v r first others ihFirst ihOthers =>
      filter_upwards [ihFirst, ihOthers] with levels first others
      exact (bind_of_ok _ _ v first).trans others
  | andTrue scope left right v r first holds second ihFirst ihSecond =>
      filter_upwards [ihFirst, ihSecond] with levels first second
      exact (bind_of_ok _ _ v first).trans ((if_pos holds).trans second)
  | andFalse scope left right v first fails ihFirst =>
      filter_upwards [ihFirst] with levels first
      exact (bind_of_ok _ _ v first).trans (if_neg (by simp [fails]))
  | orTrue scope left right v first holds ihFirst =>
      filter_upwards [ihFirst] with levels first
      exact (bind_of_ok _ _ v first).trans (if_pos holds)
  | orFalse scope left right v r first fails second ihFirst ihSecond =>
      filter_upwards [ihFirst, ihSecond] with levels first second
      exact (bind_of_ok _ _ v first).trans ((if_neg (by simp [fails])).trans second)
  | choice scope condition yes no v r first branch ihFirst ihBranch =>
      filter_upwards [ihFirst, ihBranch] with levels first branch
      refine (bind_of_ok _ _ v first).trans ?_
      cases holds : isTrue v with
      | true =>
          simp only [holds, if_true] at branch ⊢
          exact branch
      | false =>
          simp only [holds, Bool.false_eq_true, if_false] at branch ⊢
          exact branch
  | call scope function args r derived ih => exact ih
  | noLink scope left => exact .of_forall fun _ => rfl
  | linkFault scope left op e rest fault failed ih =>
      filter_upwards [ih] with levels failed
      exact bind_of_error _ _ fault failed
  | linkHolds scope left op e rest right r derived holds others ihDerived ihOthers =>
      filter_upwards [ihDerived, ihOthers] with levels value others
      exact (Expr.links_go_on _ left right op e rest value holds).trans others
  | linkEnds scope left op e rest right derived ends ih =>
      filter_upwards [ih] with levels value
      exact Expr.links_end _ left right op e rest value ends
  | argument scope function done e rest v r derived others ihDerived ihOthers =>
      filter_upwards [ihDerived, ihOthers] with levels value others
      rw [call_answer_next]
      exact (bind_of_ok _ _ v value).trans others
  | argumentFault scope function done e rest fault failed ih =>
      filter_upwards [ih] with levels failed
      rw [call_answer_next]
      exact bind_of_error _ _ fault failed
  | user scope function done f r found derived ih =>
      apply eventually_next _ _ ih
      intro levels value
      have called : (scope.names (p.symbols c (levels + 1))).call function done = some r := by
        rw [symbols_succ]
        simp only [Scope.names, UserFunction.scope, symbolsWith, found, Option.map_some]
        exact congrArg some value
      rw [call_answer_done, Symbols.apply_eq, called]
      rfl
  | native scope function done unknown =>
      apply eventually_next (fun _ => True) _ (.of_forall fun _ => trivial)
      intro levels _
      have uncalled : (scope.names (p.symbols c (levels + 1))).call function done = none := by
        rw [symbols_succ]
        simp only [Scope.names, UserFunction.scope, symbolsWith, unknown, Option.map_none]
      rw [call_answer_done, Symbols.apply_eq, uncalled]
      rfl
  | miscounted f args wrong => exact .of_forall fun _ => if_neg wrong
  | body f args e r counted body derived ih =>
      filter_upwards [ih] with levels value
      simp only [Job.answer, UserFunction.invoke, if_pos counted, body]
      exact value
  | bodyOfBranches f args bs r counted body derived ih =>
      filter_upwards [ih] with levels value
      simp only [Job.answer, UserFunction.invoke, if_pos counted, body]
      exact value
  | noBranch scope => exact .of_forall fun _ => rfl
  | branchTaken scope condition value rest v r first holds derived ihFirst ihDerived =>
      filter_upwards [ihFirst, ihDerived] with levels first taken
      exact (bind_of_ok _ _ _ (condition.test_of_value _ v first)).trans ((if_pos holds).trans taken)
  | branchPassed scope condition value rest v r first fails others ihFirst ihOthers =>
      filter_upwards [ihFirst, ihOthers] with levels first others
      exact (bind_of_ok _ _ _ (condition.test_of_value _ v first)).trans ((if_neg (by simp [fails])).trans others)
  | branchFault scope condition value rest fault failed ih =>
      filter_upwards [ih] with levels failed
      exact bind_of_error _ _ fault (condition.test_of_fault _ fault failed)

-- The levels are numbers, so two results of one job meet on some level.
theorem derived_unique (job : Job) (r other : Attempt (Option Value)) (derived : Derives c p job r)
    (too : Derives c p job other) : r = other := by
  obtain ⟨levels, first, second⟩ :=
    ((derived_eventually c p job r derived).and (derived_eventually c p job other too)).exists
  exact first.symm.trans second

theorem derived_of_read_at (depth : Nat) (f : Field) (raw : Bool) (index : Option Nat)
    (settled : Settled (p.readAt c depth f raw index)) :
    Derives c p (.read f raw index) (p.readAt c depth f raw index) := by
  simp only [readAt] at settled ⊢
  by_cases past : depthLimit < depth
  · rw [if_pos past] at settled
    exact absurd settled p.not_settled_too_deep
  · rw [if_neg past] at settled ⊢
    exact read_derived c p _ (levels_grounded c p _) f raw index settled

theorem expression_of_unsettled (x : Attempt (Option Value)) (unsettled : ¬ Settled x) :
    ∃ fault, x = .error (.expression fault) := by
  cases x with
  | ok v => exact absurd (fun fault failed => by cases failed) unsettled
  | error fault =>
      cases fault with
      | expression fault => exact ⟨fault, rfl⟩
      | _ => exact absurd (fun other failed => by cases failed; rfl) unsettled

-- The jobs that come round to each other where a field is its own expression.
inductive Circles (f : Field) : Job → Prop
  | read (index : Option Nat) : Circles f (.guarded none (.own f false index))
  | own (index : Option Nat) : Circles f (.own f false index)
  | name : Circles f (.tree .top (.name f.name))

theorem self_reference_underived (f : Field) (e : Expression) (found : p.definition.field? f.name = some f)
    (unguarded : f.condition = none) (unconverted : f.conversion = none) (expr : f.expr = some e)
    (self : e.tree = .name f.name) (index : Option Nat) (r : Attempt (Option Value)) :
    ¬ Derives c p (.read f false index) r := by
  have never : ∀ job r, Derives c p job r → ¬ Circles f job := by
    intro job r derived circle
    induction derived with
    | unguarded inner r derived ih =>
        cases circle with
        | read index => exact ih (.own index)
    | converted g index k r conversion derived ih =>
        cases circle
        simp [unconverted] at conversion
    | computed g index e' r _ expr' derived ih =>
        cases circle
        rw [expr] at expr'
        cases expr'
        exact ih (self ▸ .name)
    | stored g raw index bytes =>
        cases circle
        simp [Field.isDerived, expr] at bytes
    | parameter scope n v bound =>
        cases circle
        cases bound
    | field scope n g r free found' derived ih =>
        cases circle
        rw [found] at found'
        cases found'
        rw [Job.read, unguarded] at ih
        exact ih (.read none)
    | outside scope n free unknown =>
        cases circle
        simp [found] at unknown
    | firstFault scope e first fault head failed ih =>
        cases circle
        cases head
    | _ => cases circle
  intro derived
  rw [Job.read, unguarded] at derived
  exact never _ r derived (.read index)

theorem depth_only_limits (c : Context) (p : Packet) (depth : Nat) (f : Field) (raw : Bool) (index : Option Nat) :
    (Settled (p.readAt c depth f raw index) →
      ∀ less, less ≤ depth → p.readAt c less f raw index = p.readAt c depth f raw index) ∧
    (∀ v, p.readAt c depth f raw index = .ok v → Derives c p (.read f raw index) (.ok v)) ∧
    ((∀ r, ¬ Derives c p (.read f raw index) r) → ∃ fault, p.readAt c depth f raw index = .error (.expression fault)) := by
  refine ⟨?_, ?_, ?_⟩
  · exact fun settled less shallower => p.read_at_stays c depth less shallower f raw index settled
  · intro v value
    have settled : Settled (p.readAt c depth f raw index) := by
      intro fault failed
      rw [value] at failed
      cases failed
    rw [← value]
    exact derived_of_read_at c p depth f raw index settled
  · intro underived
    apply expression_of_unsettled
    exact fun settled => underived _ (derived_of_read_at c p depth f raw index settled)

def derivedByte (name : String) (tree : Expr) : Field :=
  { Ccsds.bits name Ccsds.byteType (.single 0) none none with expr := some ⟨name, tree⟩ }

-- The byte itself, twice its value, and a field that is its own expression.
def mirrors : Packet :=
  { definition :=
      { Ccsds.header with
        fields :=
          [Ccsds.bits "count" Ccsds.byteType (.single 0) none none,
            derivedByte "twice" (.binary .add (.name "count") (.name "count")), derivedByte "loop" (.name "loop")] }
    data := [3] }

theorem mirrors_depths :
    let twice := derivedByte "twice" (.binary .add (.name "count") (.name "count"))
    let loop := derivedByte "loop" (.name "loop")
    mirrors.readAt Ccsds.context 0 twice false none = mirrors.readAt Ccsds.context 63 twice false none ∧
      Derives Ccsds.context mirrors (.read twice false none) (.ok (some (.int 6))) ∧
      ∃ fault, mirrors.readAt Ccsds.context 0 loop false none = .error (.expression fault) := by
  intro twice loop
  have value : mirrors.readAt Ccsds.context 63 twice false none = .ok (some (.int 6)) := by rfl
  obtain ⟨stays, derives, _⟩ := depth_only_limits Ccsds.context mirrors 63 twice false none
  obtain ⟨_, _, limited⟩ := depth_only_limits Ccsds.context mirrors 0 loop false none
  refine ⟨stays ?_ 0 (by decide), derives _ value, limited ?_⟩
  · intro fault failed
    rw [value] at failed
    cases failed
  · exact self_reference_underived Ccsds.context mirrors loop _ rfl rfl rfl rfl rfl none

end SpaceLink.Packet
