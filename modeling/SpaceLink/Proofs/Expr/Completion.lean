import SpaceLink.Proofs.Expr.Source

/-!
How an expression that was begun can be brought to its end. Conditionals stand only where a part of any level is
taken, so that what is still open can be closed from the inside; the parser is past help only behind a dot that no name
follows.
-/

set_option autoImplicit false

namespace SpaceLink

namespace Frame

-- The middle and the last part of a conditional stand inside what admits a conditional.
def Nested : List Frame → Prop
  | [] => True
  | .condition _ :: frames | .otherwise _ _ :: frames => Admits 0 frames ∧ Nested frames
  | _ :: frames => Nested frames

theorem nested_rest (frame : Frame) (frames : List Frame) (nested : Nested (frame :: frames)) : Nested frames := by
  cases frame with
  | condition yes => exact nested.2
  | otherwise yes test => exact nested.2
  | _ => exact nested

theorem collapse_nested (least : Nat) (frames : List Frame) (e : Expr) (nested : Nested frames) :
    Nested (collapse least frames e).1 := by
  induction frames generalizing e with
  | nil => trivial
  | cons frame frames ih =>
      unfold collapse
      split
      · exact nested
      · split
        · exact ih _ (nested_rest frame frames nested)
        · exact nested

-- Behind what holds as tightly as `or` stands a conditional in its middle, or what admits one.
theorem collapse_admits (frames : List Frame) (e : Expr) :
    Admits 0 (collapse 1 frames e).1 ∨ ∃ yes rest, (collapse 1 frames e).1 = .condition yes :: rest := by
  induction frames generalizing e with
  | nil => exact .inl trivial
  | cons frame frames ih =>
      cases frame with
      | paren => exact .inl (Nat.le_refl 0)
      | argument function done => exact .inl (Nat.le_refl 0)
      | condition yes => exact .inr ⟨yes, frames, rfl⟩
      | otherwise yes test => exact .inl (Nat.le_refl 0)
      | binary op left =>
          have loose : 1 ≤ op.level := by cases op <;> decide
          rw [collapse_completes 1 op.level _ frames e rfl loose]
          exact ih _
      | _ =>
          rw [collapse_completes 1 _ _ frames e rfl (by decide)]
          exact ih _

-- What closes all that is open, a conditional in its middle with some last part.
def closing : List Frame → List Token
  | [] => [.finish]
  | .paren :: frames | .argument _ _ :: frames => .closeParen :: closing frames
  | .condition _ :: frames => .name "else" :: .int 0 :: closing frames
  | _ :: frames => closing frames

theorem closing_first (frames : List Frame) (nested : Nested frames) :
    ∃ t more, closing frames = t :: more ∧ t.reach ≤ 1 ∧ (Admits 0 frames → t.reach = 0) := by
  induction frames with
  | nil => exact ⟨.finish, [], rfl, Nat.zero_le _, fun _ => rfl⟩
  | cons frame frames ih =>
      obtain ⟨t, more, first, loose, loosest⟩ := ih (nested_rest frame frames nested)
      cases frame with
      | paren => exact ⟨.closeParen, closing frames, rfl, Nat.zero_le _, fun _ => rfl⟩
      | argument function done => exact ⟨.closeParen, closing frames, rfl, Nat.zero_le _, fun _ => rfl⟩
      | condition yes =>
          refine ⟨.name "else", .int 0 :: closing frames, rfl, Nat.le_refl 1, ?_⟩
          exact fun admits => absurd admits (Nat.not_succ_le_zero 0)
      | otherwise yes test => exact ⟨t, more, first, loose, fun _ => loosest nested.1⟩
      | binary op left =>
          have tight : ¬ op.rightLevel ≤ 0 := by cases op <;> decide
          exact ⟨t, more, first, loose, fun admits => absurd admits tight⟩
      | _ => exact ⟨t, more, first, loose, fun admits => absurd admits (Nat.not_succ_le_zero _)⟩

end Frame

namespace Parser

open SpaceLink.Frame

theorem steps_alike (one other : State) (t : Token) (rest : List Token) (same : step one t = step other t) :
    steps one (t :: rest) = steps other (t :: rest) := by
  simp only [steps, List.foldlM_cons, same]

theorem steps_through (frame : Frame) (frames : List Frame) (e : Expr) (level : Nat) (held : frame.level? = some level)
    (low : level ≤ 12) (t : Token) (rest : List Token) (closes : t.reach ≤ level) :
    steps (.complete (frame :: frames) e) (t :: rest) = steps (.complete frames (frame.complete e)) (t :: rest) :=
  steps_alike _ _ t rest (complete_step_completes frame frames e t level held low closes)

theorem steps_closing (frames : List Frame) (nested : Nested frames) (e : Expr) :
    ∃ tree, steps (.complete frames e) (closing frames) = .ok (.done tree) := by
  induction frames generalizing e with
  | nil => exact ⟨e, rfl⟩
  | cons frame frames ih =>
      have inner := nested_rest frame frames nested
      obtain ⟨t, more, first, loose, loosest⟩ := closing_first frames inner
      -- A frame that the first closing token lets go is closed with those around it.
      have through : ∀ (frame : Frame) (level : Nat) (e : Expr), frame.level? = some level → level ≤ 12 →
          t.reach ≤ level → ∃ tree, steps (.complete (frame :: frames) e) (closing frames) = .ok (.done tree) := by
        intro frame level e held low closes
        obtain ⟨tree, closed⟩ := ih inner (frame.complete e)
        exact ⟨tree, by rw [first, steps_through frame frames e level held low t more closes, ← first, closed]⟩
      cases frame with
      | paren => exact ih inner e
      | argument function done => exact ih inner (.call function (done ++ [e]))
      | condition yes =>
          have admits : Admits 0 frames := nested.1
          exact through (.otherwise yes e) 0 (.literal (.int 0)) rfl (by decide) (Nat.le_of_eq (loosest admits))
      | otherwise yes test => exact through _ 0 e rfl (by decide) (Nat.le_of_eq (loosest nested.1))
      | binary op left =>
          have bounds : 1 ≤ op.level ∧ op.level ≤ 12 := by cases op <;> decide
          exact through _ op.level e rfl bounds.2 (Nat.le_trans loose bounds.1)
      | _ => exact through _ _ e rfl (by decide) (Nat.le_trans loose (by decide))

def State.frames : State → List Frame
  | .operand frames | .named frames _ | .dotted frames _ | .member frames _ _ | .called frames _ | .complete frames _ =>
    frames
  | .memberless | .done _ => []

theorem operand_nested (frames : List Frame) (t : Token) (next : State) (nested : Nested frames)
    (taken : operandStep frames t = .ok next) : Nested next.frames := by
  cases t with
  | name word =>
      simp only [operandStep] at taken
      split at taken
      · cases taken
        exact nested
      · split at taken
        · cases taken
          exact nested
        · split at taken
          · cases taken
          · cases taken
            exact nested
  | op o =>
      simp only [operandStep] at taken
      split at taken <;> cases taken
      exact nested
  | int n | float x | str s | openParen =>
      cases taken
      exact nested
  | _ => cases taken

theorem compare_nested (frames : List Frame) (e : Expr) (op : Comparison) (nested : Nested frames) :
    Nested (compareStep frames e op).frames := by
  have kept := collapse_nested 5 frames e nested
  unfold compareStep
  split
  · rename_i collapsed
    rw [collapsed] at kept
    exact kept
  · rename_i collapsed
    rw [collapsed] at kept
    exact kept

theorem complete_nested (frames : List Frame) (e : Expr) (t : Token) (next : State) (nested : Nested frames)
    (taken : completeStep frames e t = .ok next) : Nested next.frames := by
  have kept : ∀ least rest last, collapse least frames e = (rest, last) → Nested rest := by
    intro least rest last collapsed
    have inner := collapse_nested least frames e nested
    rw [collapsed] at inner
    exact inner
  simp only [completeStep] at taken
  split at taken
  case h_1 op =>
      split at taken <;> cases taken
      · exact nested
      · exact collapse_nested _ frames e nested
      · exact compare_nested frames e _ nested
  case h_2 | h_3 =>
      cases taken
      exact collapse_nested _ frames e nested
  case h_4 =>
      split at taken <;> cases taken
      rename_i unconditioned collapsed
      have admits := collapse_admits frames e
      rw [collapsed] at admits
      rcases admits with admits | ⟨yes, rest, conditioned⟩
      · exact ⟨admits, kept _ _ _ collapsed⟩
      · exact (unconditioned yes rest conditioned).elim
  case h_5 | h_7 =>
      split at taken <;> cases taken
      rename_i collapsed
      have inner := kept _ _ _ collapsed
      exact inner
  case h_6 =>
      split at taken <;> cases taken
      all_goals
        rename_i collapsed
        have inner := kept _ _ _ collapsed
        exact inner
  case h_8 =>
      split at taken <;> cases taken
      trivial
  case h_9 => cases taken

theorem step_nested (state next : State) (t : Token) (nested : Nested state.frames)
    (taken : step state t = .ok next) : Nested next.frames := by
  cases state with
  | operand frames => exact operand_nested frames t next nested taken
  | named frames name =>
      simp only [step] at taken
      split at taken
      · cases taken
        exact nested
      · cases taken
        exact nested
      · exact complete_nested frames _ t next nested taken
  | dotted frames base =>
      simp only [step] at taken
      split at taken <;> cases taken
      · exact nested
      · trivial
  | memberless => cases taken
  | member frames base name =>
      simp only [step] at taken
      split at taken
      · cases taken
        exact nested
      · exact complete_nested frames _ t next nested taken
  | called frames function =>
      simp only [step] at taken
      split at taken
      · cases taken
        exact nested
      · exact operand_nested (.argument function [] :: frames) t next nested taken
  | complete frames e => exact complete_nested frames e t next nested taken
  | done e => cases taken

theorem steps_nested (state next : State) (tokens : List Token) (nested : Nested state.frames)
    (taken : steps state tokens = .ok next) : Nested next.frames := by
  induction tokens generalizing state with
  | nil =>
      cases taken
      exact nested
  | cons t rest ih =>
      cases first : step state t with
      | error fault => simp [steps, first, bind, Except.bind] at taken
      | ok between =>
          rw [steps_cons _ _ _ _ first] at taken
          exact ih between (step_nested state between t nested first) taken

-- A state that takes what closes it as a complete operand would.
theorem steps_closing_as (state : State) (frames : List Frame) (nested : Nested frames) (e : Expr)
    (same : ∀ t : Token, t.reach ≤ 13 → step state t = completeStep frames e t) :
    ∃ tree, steps state (closing frames) = .ok (.done tree) := by
  obtain ⟨tree, closed⟩ := steps_closing frames nested e
  obtain ⟨t, more, first, loose, _⟩ := closing_first frames nested
  refine ⟨tree, ?_⟩
  rw [← closed, first]
  exact steps_alike _ _ t more (same t (Nat.le_trans loose (by decide)))

theorem steps_completed (state : State) (nested : Nested state.frames) (alive : state ≠ .memberless) :
    ∃ rest tree, steps state rest = .ok (.done tree) := by
  cases state with
  | operand frames =>
      obtain ⟨tree, closed⟩ := steps_closing frames nested (.literal (.int 0))
      exact ⟨.int 0 :: closing frames, tree, closed⟩
  | named frames name => exact ⟨closing frames, steps_closing_as _ frames nested _ (named_step frames name)⟩
  | dotted frames base =>
      obtain ⟨tree, closed⟩ := steps_closing_as (.member frames base "x") frames nested _ (member_step frames base "x")
      exact ⟨.name "x" :: closing frames, tree, closed⟩
  | memberless => exact absurd rfl alive
  | member frames base name => exact ⟨closing frames, steps_closing_as _ frames nested _ (member_step frames base name)⟩
  | called frames function =>
      obtain ⟨tree, closed⟩ := steps_closing frames nested (.call function [])
      exact ⟨.closeParen :: closing frames, tree, closed⟩
  | complete frames e => exact ⟨closing frames, steps_closing frames nested e⟩
  | done e => exact ⟨[], e, rfl⟩

theorem steps_of_run (state : State) (placed : List Placed) (e : Expr) (read : run state placed = .ok e) :
    steps state (placed.map Placed.token) = .ok (.done e) := by
  induction placed generalizing state with
  | nil =>
      cases state <;> cases read
      rfl
  | cons first rest ih =>
      cases taken : step state first.token with
      | error fault => simp [run, taken] at read
      | ok next =>
          simp only [run, taken] at read
          rw [List.map_cons, steps_cons _ _ _ _ taken]
          exact ih next read

def Parses (tokens : List Placed) : Prop := ∃ e, run (.operand []) tokens = .ok e

def Completable (before : List Placed) : Prop := ∃ after, Parses (before ++ after)

theorem completable_of_steps (before : List Placed) (state : State) (alive : state ≠ .memberless)
    (taken : steps (.operand []) (before.map Placed.token) = .ok state) : Completable before := by
  have nested := steps_nested (.operand []) state _ trivial taken
  obtain ⟨rest, tree, closed⟩ := steps_completed state nested alive
  refine ⟨rest.map fun t => ⟨t, 0⟩, tree, run_steps _ _ tree ?_⟩
  rw [List.map_append, List.map_map, steps_append _ _ _ _ taken]
  simpa [Function.comp_def] using closed

theorem completable_front (before more : List Placed) (whole : Completable (before ++ more)) : Completable before := by
  obtain ⟨after, parses⟩ := whole
  exact ⟨more ++ after, by rwa [← List.append_assoc]⟩

end Parser

end SpaceLink
