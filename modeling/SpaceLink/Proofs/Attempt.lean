import SpaceLink.Fault

/-!
Attempts in sequence: the whole succeeds exactly when every part does, and fails with the first fault.
-/

set_option autoImplicit false

namespace SpaceLink.Attempt

variable {α β : Type}

theorem bind_ok_iff (x : Attempt α) (f : α → Attempt β) (b : β) :
    (x >>= f) = .ok b ↔ ∃ a, x = .ok a ∧ f a = .ok b := by
  cases x with
  | error fault => simp [bind, Except.bind]
  | ok a => simp [bind, Except.bind]

theorem bind_of_ok (x : Attempt α) (f : α → Attempt β) (a : α) (done : x = .ok a) : (x >>= f) = f a := by
  rw [done]
  rfl

theorem bind_of_error (x : Attempt α) (f : α → Attempt β) (fault : Fault) (failed : x = .error fault) :
    (x >>= f) = .error fault := by
  rw [failed]
  rfl

theorem map_of_each (f : α → Attempt β) (xs : List α) (ys : List β) (enough : ys.length = xs.length)
    (each : ∀ pair ∈ xs.zip ys, f pair.1 = .ok pair.2) : xs.mapM f = .ok ys := by
  induction xs generalizing ys with
  | nil =>
      have empty := List.eq_nil_of_length_eq_zero enough
      subst empty
      rfl
  | cons x xs ih =>
      cases ys with
      | nil => cases enough
      | cons y ys =>
          have first := each (x, y) List.mem_cons_self
          have others := ih ys (Nat.succ.inj enough) fun pair member => each pair (List.mem_cons_of_mem _ member)
          rw [List.mapM_cons, bind_of_ok _ _ y first, bind_of_ok _ _ ys others]
          rfl

theorem map_ok_iff (f : α → Attempt β) (xs : List α) (ys : List β) : xs.mapM f = .ok ys ↔ xs.map f = ys.map .ok := by
  induction xs generalizing ys with
  | nil => cases ys <;> simp [pure, Except.pure]
  | cons x xs ih =>
      rw [List.mapM_cons, bind_ok_iff, List.map_cons]
      constructor
      · rintro ⟨y, first, rest⟩
        obtain ⟨others, done, same⟩ := (bind_ok_iff _ _ _).mp rest
        cases same
        rw [List.map_cons, first, (ih others).mp done]
      · intro same
        cases ys with
        | nil => cases same
        | cons y ys =>
            rw [List.map_cons, List.cons.injEq] at same
            exact ⟨y, same.1, bind_of_ok _ _ ys ((ih ys).mpr same.2)⟩

theorem ok_of_map (f : α → Attempt β) (xs : List α) (ys : List β) (done : xs.mapM f = .ok ys) (x : α) (member : x ∈ xs) :
    ∃ y, f x = .ok y := by
  have outcome : f x ∈ xs.map f := List.mem_map_of_mem member
  rw [(map_ok_iff f xs ys).mp done] at outcome
  obtain ⟨y, _, same⟩ := List.mem_map.mp outcome
  exact ⟨y, same.symm⟩

theorem each_of_map (f : α → Attempt β) (xs : List α) (ys : List β) (done : xs.mapM f = .ok ys) (y : β)
    (member : y ∈ ys) : ∃ x ∈ xs, f x = .ok y := by
  have outcome : (.ok y : Attempt β) ∈ xs.map f := by
    rw [(map_ok_iff f xs ys).mp done]
    exact List.mem_map_of_mem member
  exact List.mem_map.mp outcome

theorem ok_of_each (f : α → Attempt β) (xs : List α) (each : ∀ x ∈ xs, ∃ y, f x = .ok y) : ∃ ys, xs.mapM f = .ok ys := by
  induction xs with
  | nil => exact ⟨[], rfl⟩
  | cons x xs ih =>
      obtain ⟨y, first⟩ := each x List.mem_cons_self
      obtain ⟨ys, others⟩ := ih fun z member => each z (List.mem_cons_of_mem _ member)
      exact ⟨y :: ys, by rw [List.mapM_cons, bind_of_ok _ _ y first, bind_of_ok _ _ ys others]; rfl⟩

theorem each_congr (f g : α → Attempt β) (xs : List α) (same : ∀ x ∈ xs, f x = g x) : xs.mapM f = xs.mapM g := by
  induction xs with
  | nil => rfl
  | cons x xs ih =>
      rw [List.mapM_cons, List.mapM_cons, same x List.mem_cons_self, ih fun y member => same y (List.mem_cons_of_mem _ member)]

theorem each_error_iff (f : α → Attempt β) (xs : List α) (fault : Fault) :
    xs.mapM f = .error fault ↔
      ∃ before x after, xs = before ++ x :: after ∧ (∀ y ∈ before, ∃ b, f y = .ok b) ∧ f x = .error fault := by
  induction xs with
  | nil => simp [pure, Except.pure]
  | cons x xs ih =>
      rw [List.mapM_cons]
      cases first : f x with
      | error other =>
          rw [bind_of_error _ _ other rfl]
          constructor
          · rintro ⟨⟩
            exact ⟨[], x, xs, rfl, by simp, first⟩
          · rintro ⟨before, y, after, split, done, failed⟩
            cases before with
            | nil =>
                cases split
                rw [first] at failed
                cases failed
                rfl
            | cons z before =>
                cases split
                obtain ⟨b, own⟩ := done x List.mem_cons_self
                rw [first] at own
                cases own
      | ok b =>
          rw [bind_of_ok _ _ b rfl]
          have rest : (xs.mapM f >>= fun bs => .ok (b :: bs)) = .error fault ↔ xs.mapM f = .error fault := by
            cases xs.mapM f <;> simp [bind, Except.bind]
          refine rest.trans (ih.trans ?_)
          constructor
          · rintro ⟨before, y, after, rfl, done, failed⟩
            refine ⟨x :: before, y, after, rfl, ?_, failed⟩
            intro z member
            rcases List.mem_cons.mp member with rfl | later
            · exact ⟨b, first⟩
            · exact done z later
          · rintro ⟨before, y, after, split, done, failed⟩
            cases before with
            | nil =>
                cases split
                rw [first] at failed
                cases failed
            | cons z before =>
                cases split
                exact ⟨before, y, after, rfl, fun z member => done z (List.mem_cons_of_mem _ member), failed⟩

-- Attempts within a program that has a state: a fault ends it and leaves the state as it is then.
section Running

variable {σ : Type} (state : σ)

theorem run_state (next : σ → ExceptT Fault (StateM σ) β) : (get >>= next).run.run state = (next state).run.run state :=
  rfl

theorem run_attempt (x : Attempt α) (next : α → ExceptT Fault (StateM σ) β) :
    (ExceptT.mk (pure x) >>= next).run.run state =
      match x with
      | .ok a => (next a).run.run state
      | .error fault => (.error fault, state) := by
  cases x <;> rfl

theorem run_after (x : ExceptT Fault (StateM σ) α) (next : α → ExceptT Fault (StateM σ) β) (after : σ) (a : α)
    (done : x.run.run state = (.ok a, after)) : (x >>= next).run.run state = (next a).run.run after := by
  rw [ExceptT.run_bind, StateT.run_bind, done]
  rfl

end Running

-- Whatever goes wrong is one of the faults that are allowed.
def Only (allowed : Fault → Prop) (x : Attempt α) : Prop := ∀ fault, x = .error fault → allowed fault

variable (allowed : Fault → Prop)

@[simp]
theorem only_ok (a : α) : Only allowed (.ok a) := by
  intro fault same
  cases same

@[simp]
theorem only_error_iff (fault : Fault) : Only allowed (.error fault : Attempt α) ↔ allowed fault := by
  simp [Only]

theorem only_bind (x : Attempt α) (f : α → Attempt β) (first : Only allowed x)
    (next : ∀ a, x = .ok a → Only allowed (f a)) : Only allowed (x >>= f) := by
  cases x with
  | error fault => exact (only_error_iff allowed fault).mpr (first fault rfl)
  | ok a => exact next a rfl

theorem only_map (x : Attempt α) (f : α → β) (first : Only allowed x) : Only allowed (x.map f) := by
  cases x with
  | error fault => exact (only_error_iff allowed fault).mpr (first fault rfl)
  | ok a => exact only_ok allowed (f a)

theorem only_each (f : α → Attempt β) (xs : List α) (each : ∀ x ∈ xs, Only allowed (f x)) : Only allowed (xs.mapM f) := by
  intro fault failed
  obtain ⟨before, x, after, split, _, own⟩ := (each_error_iff f xs fault).mp failed
  exact each x (split ▸ List.mem_append_cons_self) fault own

end SpaceLink.Attempt
