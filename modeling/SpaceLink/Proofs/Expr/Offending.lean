import SpaceLink.Proofs.Expr.Completion
import SpaceLink.Proofs.Expr.Placement

/-!
Where a syntax fault is placed. The parser turns away the first token behind which nothing can be read any more, and
names the byte at which that token stands; but behind a dot it names the byte of the token after it.
-/

set_option autoImplicit false

namespace SpaceLink

namespace Parser

-- What has been read up to here can be the beginning of an expression, and together with `t` it cannot.
def Offends (before : List Placed) (t : Placed) : Prop := Completable before ∧ ¬ Completable (before ++ [t])

theorem offends_last (before more : List Placed) (t : Placed) (offends : Offends before t) :
    ¬ Completable (before ++ t :: more) := by
  intro whole
  rw [List.append_cons] at whole
  exact offends.2 (completable_front _ more whole)

theorem offends_unique (before before' after after' : List Placed) (t t' : Placed) (offends : Offends before t)
    (offends' : Offends before' t') (same : before ++ t :: after = before' ++ t' :: after') :
    before = before' ∧ t = t' ∧ after = after' := by
  rcases List.append_eq_append_iff.mp same with ⟨between, split, rest⟩ | ⟨between, split, rest⟩
  · cases between with
    | nil =>
        cases rest
        exact ⟨by simpa using split.symm, rfl, rfl⟩
    | cons first more =>
        cases rest
        exact absurd (split ▸ offends'.1) (offends_last before more t offends)
  · cases between with
    | nil =>
        cases rest
        exact ⟨by simpa using split, rfl, rfl⟩
    | cons first more =>
        cases rest
        exact absurd (split ▸ offends.1) (offends_last before' more t' offends')

-- A token can be turned away at once, or be taken and leave nothing to go on with.
def State.Refuses (state : State) (t : Token) : Prop :=
  (∃ fault, step state t = .error fault) ∨ step state t = .ok .memberless

theorem steps_refused (state : State) (t : Token) (refuses : state.Refuses t) (rest : List Token) (e : Expr) :
    steps state (t :: rest) ≠ .ok (.done e) := by
  intro read
  rcases refuses with ⟨fault, failed⟩ | taken
  · simp [steps, failed, bind, Except.bind] at read
  · rw [steps_cons _ _ _ _ taken] at read
    cases rest with
    | nil => cases read
    | cons next more => cases read

theorem offends_of_refuses (before : List Placed) (t : Placed) (state : State) (alive : state ≠ .memberless)
    (taken : steps (.operand []) (before.map Placed.token) = .ok state) (refuses : state.Refuses t.token) :
    Offends before t := by
  refine ⟨completable_of_steps before state alive taken, ?_⟩
  rintro ⟨after, e, read⟩
  have read := steps_of_run _ _ e read
  rw [List.append_assoc, List.map_append, steps_append _ _ _ _ taken] at read
  exact steps_refused state t.token refuses _ e read

-- Neither behind a dot nor past one that no name followed.
def State.Plain : State → Prop
  | .dotted _ _ | .memberless => False
  | _ => True

theorem operand_plain (frames : List Frame) (t : Token) (next : State) (taken : operandStep frames t = .ok next) :
    next.Plain := by
  unfold operandStep at taken
  repeat' split at taken
  all_goals cases taken
  all_goals trivial

theorem complete_plain (frames : List Frame) (e : Expr) (t : Token) (next : State)
    (taken : completeStep frames e t = .ok next) : next.Plain := by
  simp only [completeStep, compareStep] at taken
  repeat' split at taken
  all_goals cases taken
  all_goals trivial

-- A name and a dot wait for a name; nothing else does.
theorem step_plain (state next : State) (t : Token) (taken : step state t = .ok next) :
    next.Plain ∨ (∃ frames base, state = .named frames base ∧ t = .dot ∧ next = .dotted frames base) ∨
      ∃ frames base, state = .dotted frames base ∧ next = .memberless := by
  cases state with
  | operand frames => exact .inl (operand_plain frames t next taken)
  | named frames name =>
      simp only [step] at taken
      split at taken
      · cases taken
        exact .inr (.inl ⟨frames, name, rfl, rfl, rfl⟩)
      · cases taken
        exact .inl trivial
      · exact .inl (complete_plain frames _ t next taken)
  | dotted frames base =>
      simp only [step] at taken
      split at taken <;> cases taken
      · exact .inl trivial
      · exact .inr (.inr ⟨frames, base, rfl, rfl⟩)
  | memberless => cases taken
  | member frames base name =>
      simp only [step] at taken
      split at taken
      · cases taken
        exact .inl trivial
      · exact .inl (complete_plain frames _ t next taken)
  | called frames function =>
      simp only [step] at taken
      split at taken
      · cases taken
        exact .inl trivial
      · exact .inl (operand_plain _ t next taken)
  | complete frames e => exact .inl (complete_plain frames e t next taken)
  | done e => cases taken

theorem step_dot (state next : State) (alive : next ≠ .memberless) (taken : step state .dot = .ok next) :
    ∃ frames base, next = .dotted frames base := by
  cases state with
  | named frames name =>
      cases taken
      exact ⟨frames, name, rfl⟩
  | dotted frames base =>
      cases taken
      exact absurd rfl alive
  | _ => cases taken

-- Whether the token in front of the next one is a dot.
def BehindDot (before : List Placed) : Prop := before.getLast?.map Placed.token = some .dot

instance (before : List Placed) : Decidable (BehindDot before) := inferInstanceAs (Decidable (_ = _))

theorem steps_last (state next : State) (before : List Token) (t : Token)
    (taken : steps state (before ++ [t]) = .ok next) :
    ∃ between, steps state before = .ok between ∧ step between t = .ok next := by
  cases first : steps state before with
  | error fault =>
      simp only [steps] at first
      simp [steps, List.foldlM_append, first, bind, Except.bind] at taken
  | ok between =>
      rw [steps_append _ _ _ _ first] at taken
      refine ⟨between, rfl, ?_⟩
      cases last : step between t with
      | error fault => simp [steps, last, bind, Except.bind] at taken
      | ok after =>
          rw [steps_cons _ _ _ _ last] at taken
          exact taken

theorem dotted_iff_behind (before : List Placed) (state : State) (alive : state ≠ .memberless)
    (taken : steps (.operand []) (before.map Placed.token) = .ok state) :
    (∃ frames base, state = .dotted frames base) ↔ BehindDot before := by
  rcases List.eq_nil_or_concat before with rfl | ⟨front, t, rfl⟩
  · cases taken
    simp [BehindDot]
  · rw [List.concat_eq_append, List.map_append] at taken
    obtain ⟨between, _, last⟩ := steps_last _ _ _ _ taken
    have behind : BehindDot (front.concat t) ↔ t.token = .dot := by simp [BehindDot]
    rw [behind]
    constructor
    · rintro ⟨frames, base, rfl⟩
      rcases step_plain _ _ _ last with plain | ⟨_, _, _, dot, _⟩ | ⟨_, _, _, dead⟩
      · exact plain.elim
      · exact dot
      · exact absurd dead alive
    · intro dot
      rw [dot] at last
      exact step_dot between state alive last

-- Where the fault of a token is placed that is turned away after `before`.
def reported (before : List Placed) (t : Placed) (after : List Placed) : Nat :=
  if BehindDot before then (after.head?.map Placed.position).getD 0 else t.position

theorem finish_ends (state next : State) (taken : step state .finish = .ok next) :
    (∃ e, next = .done e) ∨ next = .memberless := by
  have complete : ∀ frames e, completeStep frames e .finish = .ok next → ∃ e, next = .done e := by
    intro frames e taken
    simp only [completeStep] at taken
    split at taken <;> cases taken
    exact ⟨_, rfl⟩
  cases state with
  | named frames name => exact .inl (complete frames _ taken)
  | member frames base name => exact .inl (complete frames _ taken)
  | complete frames e => exact .inl (complete frames e taken)
  | dotted frames base =>
      cases taken
      exact .inr rfl
  | _ => cases taken

theorem run_memberless (rest : List Placed) :
    run .memberless rest = .error (.noMember, (rest.head?.map Placed.position).getD 0) := by
  cases rest with
  | nil => rfl
  | cons first rest => rfl

-- How a refused token is answered, and where: a token that is taken in vain is answered with the one after it.
def Answered (state : State) (t : Placed) (after : List Placed) (fault : SyntaxFault) (position : Nat) : Prop :=
  step state t.token = .error fault ∧ position = t.position ∨
    step state t.token = .ok .memberless ∧ position = (after.head?.map Placed.position).getD 0

theorem answered_or_goes_on (state : State) (t : Placed) (rest : List Placed) (fault : SyntaxFault) (position : Nat)
    (failed : run state (t :: rest) = .error (fault, position)) :
    Answered state t rest fault position ∨
      ∃ next, next ≠ .memberless ∧ step state t.token = .ok next ∧ run next rest = .error (fault, position) := by
  cases taken : step state t.token with
  | error stop =>
      simp only [run, taken] at failed
      cases failed
      exact .inl (.inl ⟨taken, rfl⟩)
  | ok next =>
      simp only [run, taken] at failed
      by_cases dead : next = .memberless
      · rw [dead, run_memberless] at failed
        cases failed
        exact .inl (.inr ⟨dead ▸ taken, rfl⟩)
      · exact .inr ⟨next, dead, rfl, failed⟩

-- A run that fails goes on until a token is refused.
theorem run_refused (state : State) (alive : state ≠ .memberless) (front : List Placed) (last : Placed)
    (ends : last.token = .finish) (fault : SyntaxFault) (position : Nat)
    (failed : run state (front ++ [last]) = .error (fault, position)) :
    ∃ before t after next, front ++ [last] = before ++ t :: after ∧ next ≠ .memberless ∧
      steps state (before.map Placed.token) = .ok next ∧ Answered next t after fault position := by
  induction front generalizing state with
  | nil =>
      rcases answered_or_goes_on state last [] fault position failed with answered | ⟨next, dead, taken, failed⟩
      · exact ⟨[], last, [], state, rfl, alive, rfl, answered⟩
      · rw [ends] at taken
        rcases finish_ends state next taken with ⟨e, rfl⟩ | memberless
        · cases failed
        · exact absurd memberless dead
  | cons first rest ih =>
      rcases answered_or_goes_on state first (rest ++ [last]) fault position failed with
        answered | ⟨next, alive', taken, failed⟩
      · exact ⟨[], first, rest ++ [last], state, rfl, alive, rfl, answered⟩
      · obtain ⟨before, t, after, stopped, split, kept, read, answered⟩ := ih next alive' failed
        refine ⟨first :: before, t, after, stopped, by rw [List.cons_append, split, List.cons_append], kept, ?_, answered⟩
        rw [List.map_cons, steps_cons _ _ _ _ taken, read]

theorem answered_reported (before after : List Placed) (t : Placed) (state : State) (fault : SyntaxFault)
    (position : Nat) (alive : state ≠ .memberless)
    (taken : steps (.operand []) (before.map Placed.token) = .ok state)
    (answered : Answered state t after fault position) :
    Offends before t ∧ position = reported before t after := by
  have behind := dotted_iff_behind before state alive taken
  rcases answered with ⟨failed, rfl⟩ | ⟨dead, rfl⟩
  · refine ⟨offends_of_refuses before t state alive taken (.inl ⟨fault, failed⟩), ?_⟩
    have free : ¬ BehindDot before := by
      rw [← behind]
      rintro ⟨frames, base, rfl⟩
      simp only [step] at failed
      split at failed <;> cases failed
    rw [reported, if_neg free]
  · refine ⟨offends_of_refuses before t state alive taken (.inr dead), ?_⟩
    have dot : BehindDot before := by
      rw [← behind]
      rcases step_plain _ _ _ dead with plain | ⟨_, _, _, _, other⟩ | ⟨frames, base, same, _⟩
      · exact plain.elim
      · cases other
      · exact ⟨frames, base, same⟩
    rw [reported, if_pos dot]

end Parser

-- Every token in front of the offending one can be gone on from, so it is the first. At the end of the source the
-- offending token is the one that stands there.
theorem Expression.first_offending_reported (source : String) (tokens : List Placed)
    (lexed : Lexer.tokens source = .ok tokens) (broken : ∀ x, Expression.compile source ≠ .ok x) :
    ∃ before t after fault, tokens = before ++ t :: after ∧ Parser.Offends before t ∧
      Lexer.Stands source.toList 0 t ∧ (t.token = .finish → t.position = source.utf8ByteSize) ∧
        Expression.compile source =
          .error (.expression (.syntaxAt fault (Parser.reported before t after) source)) := by
  obtain ⟨stand, front, last, whole, ends⟩ := Lexer.tokens_placed 0 source.toList tokens lexed
  have parsed : Parser.parse source = Parser.run (.operand []) tokens := by
    simp [Parser.parse, lexed, bind, Except.bind]
  cases read : Parser.run (.operand []) tokens with
  | ok e =>
      have compiled : Expression.compile source = .ok ⟨source, e⟩ := by simp [Expression.compile, parsed, read]
      exact absurd compiled (broken _)
  | error refusal =>
      obtain ⟨fault, position⟩ := refusal
      rw [whole] at read
      obtain ⟨before, t, after, state, split, alive, taken, answered⟩ :=
        Parser.run_refused (.operand []) (by simp) front last ends fault position read
      obtain ⟨offends, rfl⟩ := Parser.answered_reported before after t state fault position alive taken answered
      have stands := stand t (by simp [whole, split])
      refine ⟨before, t, after, fault, whole.trans split, offends, stands, ?_, ?_⟩
      · intro finish
        obtain ⟨passed, rest, text, placed, last, _⟩ := stands
        rw [last.mp finish, List.append_nil] at text
        rw [placed, ← text, String.ofList_toList, Nat.zero_add]
      · simp [Expression.compile, parsed, whole, read]

theorem Expression.second_sign_offends :
    Lexer.tokens "1 + * 2" =
        .ok [⟨.int 1, 0⟩, ⟨.op .plus, 2⟩, ⟨.op .star, 4⟩, ⟨.int 2, 6⟩, ⟨.finish, 7⟩] ∧
      (∀ x, Expression.compile "1 + * 2" ≠ .ok x) ∧
        ∃ before t after fault,
          [⟨.int 1, 0⟩, ⟨.op .plus, 2⟩, ⟨.op .star, 4⟩, ⟨.int 2, 6⟩, ⟨.finish, 7⟩] = before ++ t :: after ∧
            Parser.Offends before t ∧ Lexer.Stands "1 + * 2".toList 0 t ∧
              (t.token = .finish → t.position = "1 + * 2".utf8ByteSize) ∧
                Expression.compile "1 + * 2" =
                  .error (.expression (.syntaxAt fault (Parser.reported before t after) "1 + * 2")) := by
  have lexed : Lexer.tokens "1 + * 2" =
      .ok [⟨.int 1, 0⟩, ⟨.op .plus, 2⟩, ⟨.op .star, 4⟩, ⟨.int 2, 6⟩, ⟨.finish, 7⟩] := by decide +kernel
  have broken : ∀ x, Expression.compile "1 + * 2" ≠ .ok x := by
    intro x compiled
    have parsed : Parser.parse "1 + * 2" = .error (.unexpected (.op .star), 4) := by
      simp only [Parser.parse, lexed]
      rfl
    simp [Expression.compile, parsed] at compiled
  exact ⟨lexed, broken, Expression.first_offending_reported _ _ lexed broken⟩

theorem Expression.sign_behind_dot_misplaced :
    (∃ tokens, Lexer.tokens "raw.+volts" = .ok tokens) ∧ (∀ x, Expression.compile "raw.+volts" ≠ .ok x) ∧
      ¬ ∃ tokens before t after fault, Lexer.tokens "raw.+volts" = .ok tokens ∧ tokens = before ++ t :: after ∧
        Parser.Offends before t ∧
          Expression.compile "raw.+volts" = .error (.expression (.syntaxAt fault t.position "raw.+volts")) := by
  have lexed : Lexer.tokens "raw.+volts" =
      .ok ([⟨.name "raw", 0⟩, ⟨.dot, 3⟩] ++ ⟨.op .plus, 4⟩ :: [⟨.name "volts", 5⟩, ⟨.finish, 10⟩]) := by decide +kernel
  have compiled : Expression.compile "raw.+volts" = .error (.expression (.syntaxAt .noMember 5 "raw.+volts")) := by
    have parsed : Parser.parse "raw.+volts" = .error (.noMember, 5) := by
      simp only [Parser.parse, lexed]
      rfl
    simp [Expression.compile, parsed]
  have offends : Parser.Offends [⟨.name "raw", 0⟩, ⟨.dot, 3⟩] ⟨.op .plus, 4⟩ :=
    Parser.offends_of_refuses _ _ (.dotted [] "raw") (by simp) rfl (.inr rfl)
  refine ⟨⟨_, lexed⟩, ?_, ?_⟩
  · intro x read
    rw [compiled] at read
    cases read
  · rintro ⟨tokens, before, t, after, fault, lexed', split, offends', placed⟩
    rw [lexed] at lexed'
    cases lexed'
    obtain ⟨_, rfl, _⟩ := Parser.offends_unique _ _ _ _ _ _ offends offends' split
    rw [compiled] at placed
    cases placed

end SpaceLink
