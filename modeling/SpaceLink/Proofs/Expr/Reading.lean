import Mathlib.Data.List.TakeWhile
import SpaceLink.Proofs.Expr.Written

/-!
What the parser makes of a written expression. A part that is read among frames which take it is, for every
token that closes it, as if its tree had been given at once.
-/

set_option autoImplicit false

namespace SpaceLink

theorem BinaryOp.level_tier (op : BinaryOp) : op.level = op.tier := by
  cases op <;> rfl

-- The level of the parts that a token can stand behind; above all levels if no expression goes on with it.
def Token.reach : Token → Nat
  | .op o =>
    match BinaryOp.ofOperator? o, Comparison.ofOperator? o with
    | some .pow, _ => 13
    | some binary, _ => binary.level
    | none, some _ => 5
    | none, none => 14
  | .name "and" => 2
  | .name "or" => 1
  | .name "if" => 1
  | .name "else" => 1
  | .closeParen | .comma | .finish => 0
  | _ => 14

namespace Frame

-- The loosest level of the part that a frame waits for.
def asks : Frame → Nat
  | .paren | .argument _ _ | .otherwise _ _ => 0
  | .condition _ => 1
  | .or _ => 2
  | .and _ => 3
  | .not => 3
  | .chain _ _ _ => 5
  | .binary op _ => op.rightLevel
  | .sign _ => 11

def Admits (least : Nat) : List Frame → Prop
  | [] => True
  | frame :: _ => frame.asks ≤ least

theorem admits_mono (least more : Nat) (looser : least ≤ more) (frames : List Frame) (admits : Admits least frames) :
    Admits more frames := by
  cases frames with
  | nil => trivial
  | cons frame rest => exact Nat.le_trans admits looser

-- The frames that take a part of the level of an operator with a left part hold less tightly than that.
theorem level_lt_of_asks (frame : Frame) (level least : Nat) (held : frame.level? = some level)
    (asks : frame.asks ≤ least) (low : least ≤ 10) (prefixed : least ≠ 0 ∧ least ≠ 3) : level < least := by
  cases frame with
  | binary op left =>
      cases held
      cases op <;> simp [Frame.asks, BinaryOp.rightLevel, BinaryOp.tier, BinaryOp.level] at asks ⊢ <;> omega
  | paren => cases held
  | argument function done => cases held
  | condition yes => cases held
  | _ =>
      cases held
      simp only [Frame.asks] at asks
      omega

theorem collapse_stays (least : Nat) (frames : List Frame) (e : Expr) (admits : Admits least frames) (low : least ≤ 10)
    (prefixed : least ≠ 0 ∧ least ≠ 3) : collapse least frames e = (frames, e) := by
  cases frames with
  | nil => rfl
  | cons frame rest =>
      cases held : frame.level? with
      | none => simp [collapse, held]
      | some level =>
          have below := frame.level_lt_of_asks level least held admits low prefixed
          simp [collapse, held, Nat.not_le.mpr below]

theorem collapse_completes (least level : Nat) (frame : Frame) (frames : List Frame) (e : Expr)
    (held : frame.level? = some level) (loose : least ≤ level) :
    collapse least (frame :: frames) e = collapse least frames (frame.complete e) := by
  simp [collapse, held, loose]

end Frame

namespace Parser

open SpaceLink.Frame

def steps (state : State) (tokens : List Token) : Except SyntaxFault State := tokens.foldlM step state

theorem steps_cons (state next : State) (t : Token) (rest : List Token) (taken : step state t = .ok next) :
    steps state (t :: rest) = steps next rest := by
  simp only [steps, List.foldlM_cons, taken]
  rfl

theorem steps_append (state next : State) (a b : List Token) (taken : steps state a = .ok next) :
    steps state (a ++ b) = steps next b := by
  simp only [steps] at taken
  simp only [steps, List.foldlM_append, taken]
  rfl

theorem name_reach (word : String) :
    word = "and" ∨ word = "or" ∨ word = "if" ∨ word = "else" ∨ (Token.name word).reach = 14 := by
  unfold Token.reach
  split <;> simp_all

-- A token that a frame's level lets through completes it first.
theorem complete_step_completes (frame : Frame) (frames : List Frame) (e : Expr) (t : Token) (level : Nat)
    (held : frame.level? = some level) (low : level ≤ 12) (closes : t.reach ≤ level) :
    completeStep (frame :: frames) e t = completeStep frames (frame.complete e) t := by
  have completes : ∀ least, least ≤ level →
      collapse least (frame :: frames) e = collapse least frames (frame.complete e) := fun least loose =>
    collapse_completes least level frame frames e held loose
  have all := completes 0 (Nat.zero_le _)
  cases t with
  | op o =>
      simp only [Token.reach] at closes
      simp only [completeStep]
      cases binary : BinaryOp.ofOperator? o with
      | some b =>
          cases b with
          | pow => simp only [binary] at closes; omega
          | _ => simp only [binary] at closes ⊢; rw [completes _ closes]
      | none =>
          cases comparison : Comparison.ofOperator? o with
          | some c =>
              simp only [binary, comparison] at closes ⊢
              simp only [compareStep, completes 5 closes]
          | none => simp only [binary, comparison] at closes; omega
  | name word =>
      rcases name_reach word with rfl | rfl | rfl | rfl | far
      · simp only [completeStep, completes 2 closes]
      · simp only [completeStep, completes 1 closes]
      · simp only [completeStep, completes 1 closes, all]
      · simp only [completeStep, completes 1 closes, all]
      · omega
  | closeParen => simp only [completeStep, all]
  | comma => simp only [completeStep, all]
  | finish => simp only [completeStep, all]
  | _ => simp only [Token.reach] at closes; omega

def Reads (least : Nat) (e : Expr) (tokens : List Token) : Prop :=
  ∀ frames, Admits least frames → ∃ state, steps (.operand frames) tokens = .ok state ∧
    ∀ t, t.reach ≤ least → step state t = completeStep frames e t

-- The tokens of a pattern, each part of which is read as it should.
inductive ReadAs : List Item → List Token → Prop
  | nil : ReadAs [] []
  | token (t : Token) (items : List Item) (tokens : List Token) (others : ReadAs items tokens) :
      ReadAs (.token t :: items) (t :: tokens)
  | part (least : Nat) (e : Expr) (items : List Item) (part tokens : List Token) (reads : Reads least e part)
      (others : ReadAs items tokens) : ReadAs (.part least e :: items) (part ++ tokens)

theorem reach_gap (t : Token) : t.reach ≤ 10 ∨ 13 ≤ t.reach := by
  cases t with
  | op o => cases o <;> decide
  | name word =>
      rcases name_reach word with rfl | rfl | rfl | rfl | far
      · decide
      · decide
      · decide
      · decide
      · omega
  | _ => simp [Token.reach]

-- The last part of an expression, behind the frame that waits for it.
theorem read_last (frame : Frame) (frames : List Frame) (last e : Expr) (tokens : List Token)
    (least lastLeast level : Nat) (reads : Reads lastLeast last tokens) (asks : frame.asks ≤ lastLeast)
    (held : frame.level? = some level) (low : level ≤ 12) (made : frame.complete last = e)
    (inside : ∀ t : Token, t.reach ≤ least → t.reach ≤ lastLeast ∧ t.reach ≤ level) :
    ∃ state, steps (.operand (frame :: frames)) tokens = .ok state ∧
      ∀ t, t.reach ≤ least → step state t = completeStep frames e t := by
  obtain ⟨state, taken, next⟩ := reads (frame :: frames) asks
  refine ⟨state, taken, ?_⟩
  intro t closes
  obtain ⟨closesLast, closesFrame⟩ := inside t closes
  rw [next t closesLast, complete_step_completes frame frames last t level held low closesFrame, made]

theorem reads_single (least : Nat) (e : Expr) (t : Token)
    (taken : ∀ frames, operandStep frames t = .ok (.complete frames e)) : Reads least e [t] := by
  intro frames _
  exact ⟨.complete frames e, steps_cons _ _ t [] (taken frames), fun _ _ => rfl⟩

theorem operand_identifier (frames : List Frame) (n : String) (identifier : Identifier n) :
    operandStep frames (.name n) = .ok (.named frames n) := by
  have unreserved := identifier.unreserved
  simp only [List.mem_cons, List.not_mem_nil, or_false, not_or] at unreserved
  obtain ⟨notAnd, notOr, notNot, notIf, notElse, notTrue, notFalse, notNone⟩ := unreserved
  have meaningless : wordLiteral? n = none := by
    unfold wordLiteral?
    split
    · exact absurd rfl notTrue
    · exact absurd rfl notFalse
    · exact absurd rfl notNone
    · rfl
  simp [operandStep, meaningless, isKeyword, notAnd, notOr, notNot, notIf, notElse]

theorem named_step (frames : List Frame) (n : String) (t : Token) (closes : t.reach ≤ 13) :
    step (.named frames n) t = completeStep frames (.name n) t := by
  cases t with
  | dot => simp [Token.reach] at closes
  | openParen => simp [Token.reach] at closes
  | _ => rfl

theorem member_step (frames : List Frame) (base n : String) (t : Token) (closes : t.reach ≤ 13) :
    step (.member frames base n) t = completeStep frames (.member base n) t := by
  cases t with
  | openParen => simp [Token.reach] at closes
  | _ => rfl

theorem reads_name (least : Nat) (tight : least ≤ 13) (n : String) (identifier : Identifier n) :
    Reads least (.name n) [.name n] := by
  intro frames _
  refine ⟨.named frames n, steps_cons _ _ _ [] (operand_identifier frames n identifier), ?_⟩
  exact fun t closes => named_step frames n t (Nat.le_trans closes tight)

theorem steps_member (frames : List Frame) (base n : String) (identifier : Identifier base) (rest : List Token) :
    steps (.operand frames) (.name base :: .dot :: .name n :: rest) = steps (.member frames base n) rest := by
  have first : step (.operand frames) (.name base) = .ok (.named frames base) := operand_identifier frames base identifier
  rw [steps_cons _ _ _ _ first, steps_cons _ (.dotted frames base) _ _ rfl, steps_cons _ (.member frames base n) _ _ rfl]

theorem reads_member (least : Nat) (tight : least ≤ 13) (base n : String) (identifier : Identifier base) :
    Reads least (.member base n) [.name base, .dot, .name n] := by
  intro frames _
  refine ⟨.member frames base n, steps_member frames base n identifier [], ?_⟩
  exact fun t closes => member_step frames base n t (Nat.le_trans closes tight)

theorem reads_enclosed (least : Nat) (e : Expr) (tokens : List Token) (reads : Reads 0 e tokens) :
    Reads least e (.openParen :: tokens ++ [.closeParen]) := by
  intro frames _
  obtain ⟨state, taken, next⟩ := reads (.paren :: frames) (Nat.le_refl 0)
  have closed : step state .closeParen = .ok (.complete frames e) := next .closeParen (Nat.le_refl 0)
  refine ⟨.complete frames e, ?_, fun _ _ => rfl⟩
  rw [List.cons_append, steps_cons _ (.operand (.paren :: frames)) _ _ rfl, steps_append _ _ _ _ taken,
    steps_cons _ _ _ _ closed]
  rfl

theorem reads_unary (least : Nat) (op : UnaryOp) (e : Expr) (tokens : List Token) (tight : least ≤ op.level)
    (reads : Reads op.level e tokens) : Reads least (.unary op e) (op.token :: tokens) := by
  intro frames admits
  have closing : ∀ t : Token, t.reach ≤ least → t.reach ≤ op.level ∧ t.reach ≤ op.level := by
    intro t closes
    omega
  cases op with
  | not =>
      have allowed : allowsNot frames = true := by
        cases frames with
        | nil => rfl
        | cons frame rest =>
            have asks : frame.asks ≤ 3 := Nat.le_trans admits tight
            cases frame with
            | chain first links op => simp [Frame.asks] at asks
            | binary op left => cases op <;> simp [Frame.asks, BinaryOp.rightLevel, BinaryOp.tier] at asks
            | sign op => simp [Frame.asks] at asks
            | _ => rfl
      have taken : step (.operand frames) (UnaryOp.token .not) = .ok (.operand (.not :: frames)) := by
        simp [step, UnaryOp.token, operandStep, wordLiteral?, allowed]
      rw [steps_cons _ _ _ _ taken]
      exact read_last .not frames e _ tokens least 3 3 reads (Nat.le_refl 3) rfl (by decide) rfl closing
  | _ =>
      rw [steps_cons _ (.operand (.sign _ :: frames)) _ _ rfl]
      exact read_last (.sign _) frames e _ tokens least 11 11 reads (Nat.le_refl 11) rfl (by decide) rfl closing

-- Two parts with a token between them, behind which a frame waits for the second.
theorem reads_joined (least leftLeast rightLeast level : Nat) (t : Token) (frame : Frame) (left right e : Expr)
    (a b : List Token) (readsLeft : Reads leftLeast left a) (readsRight : Reads rightLeast right b)
    (tight : least ≤ leftLeast) (closes : t.reach ≤ leftLeast)
    (enters : ∀ frames, Admits least frames → completeStep frames left t = .ok (.operand (frame :: frames)))
    (asks : frame.asks ≤ rightLeast) (held : frame.level? = some level) (low : level ≤ 12)
    (made : frame.complete right = e)
    (inside : ∀ t : Token, t.reach ≤ least → t.reach ≤ rightLeast ∧ t.reach ≤ level) :
    Reads least e (a ++ t :: b) := by
  intro frames admits
  obtain ⟨state, taken, next⟩ := readsLeft frames (admits_mono least leftLeast tight frames admits)
  have entered : step state t = .ok (.operand (frame :: frames)) := (next t closes).trans (enters frames admits)
  rw [steps_append _ _ _ _ taken, steps_cons _ _ _ _ entered]
  exact read_last frame frames right e b least rightLeast level readsRight asks held low made inside

theorem binary_sign (op : BinaryOp) : BinaryOp.ofOperator? op.sign = some op := by
  cases op <;> rfl

theorem comparison_sign (op : Comparison) :
    BinaryOp.ofOperator? op.sign = none ∧ Comparison.ofOperator? op.sign = some op := by
  cases op <;> decide

theorem reads_binary (least : Nat) (op : BinaryOp) (left right : Expr) (a b : List Token) (tight : least ≤ op.tier)
    (readsLeft : Reads op.leftLevel left a) (readsRight : Reads op.rightLevel right b) :
    Reads least (.binary op left right) (a ++ .op op.sign :: b) := by
  by_cases power : op = .pow
  · subst power
    refine reads_joined least 13 11 12 (.op .power) (.binary .pow left) left right _ a b readsLeft readsRight
      (Nat.le_trans tight (by decide)) (by decide) ?_ (Nat.le_refl 11) rfl (by decide) rfl ?_
    · exact fun frames _ => rfl
    · intro t closes
      have gap := reach_gap t
      have twelve : least ≤ 12 := tight
      omega
  · have same := op.level_tier
    have bounds : 5 ≤ op.level ∧ op.level ≤ 10 := by cases op <;> simp [BinaryOp.level] at power ⊢
    have leftSame : op.leftLevel = op.tier := if_neg power
    have rightSame : op.rightLevel = op.tier + 1 := if_neg power
    have reach : (Token.op op.sign).reach = op.level := by cases op <;> first | rfl | exact absurd rfl power
    refine reads_joined least op.leftLevel op.rightLevel op.level (.op op.sign) (.binary op left) left right _ a b
      readsLeft readsRight (by omega) (by omega) ?_ (by simp [Frame.asks]) rfl (by omega) rfl ?_
    · intro frames admits
      have stays := collapse_stays op.level frames left (admits_mono least _ tight frames admits) bounds.2 (by omega)
      simp only [completeStep, binary_sign]
      cases op with
      | pow => exact absurd rfl power
      | _ => simp only [stays]
    · intro t closes
      omega

theorem reads_and (least : Nat) (left right : Expr) (a b : List Token) (tight : least ≤ 2)
    (readsLeft : Reads 2 left a) (readsRight : Reads 3 right b) :
    Reads least (.and left right) (a ++ .name "and" :: b) := by
  refine reads_joined least 2 3 2 (.name "and") (.and left) left right _ a b readsLeft readsRight tight (by decide) ?_
    (Nat.le_refl _) rfl (by decide) rfl ?_
  · intro frames admits
    have stays := collapse_stays 2 frames left (admits_mono least 2 tight frames admits) (by decide) (by decide)
    simp only [completeStep, stays]
  · intro t closes
    omega

theorem reads_or (least : Nat) (left right : Expr) (a b : List Token) (tight : least ≤ 1)
    (readsLeft : Reads 1 left a) (readsRight : Reads 2 right b) :
    Reads least (.or left right) (a ++ .name "or" :: b) := by
  refine reads_joined least 1 2 1 (.name "or") (.or left) left right _ a b readsLeft readsRight tight (by decide) ?_
    (Nat.le_refl _) rfl (by decide) rfl ?_
  · intro frames admits
    have stays := collapse_stays 1 frames left (admits_mono least 1 tight frames admits) (by decide) (by decide)
    simp only [completeStep, stays]
  · intro t closes
    omega

theorem reads_choice (least : Nat) (condition yes no : Expr) (a b d : List Token) (tight : least ≤ 0)
    (readsYes : Reads 1 yes a) (readsCondition : Reads 1 condition b) (readsNo : Reads 0 no d) :
    Reads least (.choice condition yes no) (a ++ .name "if" :: (b ++ .name "else" :: d)) := by
  intro frames admits
  have loose := admits_mono least 1 (by omega) frames admits
  obtain ⟨afterYes, takenYes, nextYes⟩ := readsYes frames loose
  have entered : step afterYes (.name "if") = .ok (.operand (.condition yes :: frames)) := by
    rw [nextYes _ (by decide)]
    simp only [completeStep, collapse_stays 1 frames yes loose (by decide) (by decide)]
    cases frames with
    | nil => rfl
    | cons frame rest =>
        have asks : frame.asks ≤ 0 := Nat.le_trans admits tight
        cases frame with
        | condition other => simp [Frame.asks] at asks
        | _ => rfl
  obtain ⟨afterCondition, takenCondition, nextCondition⟩ := readsCondition (.condition yes :: frames) (Nat.le_refl 1)
  have turned : step afterCondition (.name "else") = .ok (.operand (.otherwise yes condition :: frames)) := by
    rw [nextCondition _ (by decide)]
    rfl
  rw [steps_append _ _ _ _ takenYes, steps_cons _ _ _ _ entered, steps_append _ _ _ _ takenCondition,
    steps_cons _ _ _ _ turned]
  refine read_last (.otherwise yes condition) frames no _ d least 0 0 readsNo (Nat.le_refl 0) rfl (by decide) rfl ?_
  intro t closes
  omega

theorem compare_enters (frames : List Frame) (first : Expr) (op : Comparison) (admits : Admits 4 frames) :
    completeStep frames first (.op op.sign) = .ok (.operand (.chain first [] op :: frames)) := by
  obtain ⟨notBinary, sign⟩ := comparison_sign op
  have stays := collapse_stays 5 frames first (admits_mono 4 5 (by decide) frames admits) (by decide) (by decide)
  simp only [completeStep, notBinary, sign, compareStep, stays]
  cases frames with
  | nil => rfl
  | cons frame rest =>
      cases frame with
      | chain other links last => simp [Admits, Frame.asks] at admits
      | _ => rfl

theorem compare_goes_on (frames : List Frame) (first e : Expr) (links : List (Comparison × Expr)) (last op : Comparison) :
    completeStep (.chain first links last :: frames) e (.op op.sign) =
      .ok (.operand (.chain first (links ++ [(last, e)]) op :: frames)) := by
  obtain ⟨notBinary, sign⟩ := comparison_sign op
  simp only [completeStep, notBinary, sign]
  rfl

-- From the second operand of a chain on; the links before it are already in the frame.
theorem read_links (least : Nat) (tight : least ≤ 4) (frames : List Frame) (first : Expr)
    (links : List (Comparison × Expr)) (done : List (Comparison × Expr)) (op : Comparison) (e : Expr)
    (tokens : List Token) (read : ReadAs (.part 5 e :: Expr.linkItems links) tokens) :
    ∃ state, steps (.operand (.chain first done op :: frames)) tokens = .ok state ∧
      ∀ t, t.reach ≤ least → step state t = completeStep frames (.chain first (done ++ (op, e) :: links)) t := by
  induction links generalizing done op e tokens with
  | nil =>
      cases read with
      | part _ _ _ part tokens reads others =>
          cases others
          rw [List.append_nil]
          refine read_last (.chain first done op) frames e _ part least 5 4 reads (Nat.le_refl 5) rfl (by decide) rfl ?_
          intro t closes
          omega
  | cons link links ih =>
      obtain ⟨next, e'⟩ := link
      cases read with
      | part _ _ _ part tokens reads others =>
          cases others with
          | token _ _ rest others =>
              obtain ⟨state, taken, closes⟩ := reads (.chain first done op :: frames) (Nat.le_refl 5)
              have reach : (Token.op next.sign).reach ≤ 5 := by cases next <;> decide
              have entered : step state (.op next.sign) =
                  .ok (.operand (.chain first (done ++ [(op, e)]) next :: frames)) := by
                rw [closes _ reach, compare_goes_on]
              rw [steps_append _ _ _ _ taken, steps_cons _ _ _ _ entered]
              have goesOn := ih (done ++ [(op, e)]) next e' rest others
              simpa only [List.append_assoc, List.singleton_append] using goesOn

theorem reads_chain (least : Nat) (tight : least ≤ 4) (first : Expr) (links : List (Comparison × Expr))
    (linked : links ≠ []) (tokens : List Token) (read : ReadAs (.part 5 first :: Expr.linkItems links) tokens) :
    Reads least (.chain first links) tokens := by
  intro frames admits
  cases links with
  | nil => exact absurd rfl linked
  | cons link links =>
      obtain ⟨op, e⟩ := link
      cases read with
      | part _ _ _ part tokens reads others =>
          cases others with
          | token _ _ rest others =>
              have loose := admits_mono least 4 tight frames admits
              obtain ⟨state, taken, closes⟩ := reads frames (admits_mono 4 5 (by decide) frames loose)
              have reach : (Token.op op.sign).reach ≤ 5 := by cases op <;> decide
              have entered : step state (.op op.sign) = .ok (.operand (.chain first [] op :: frames)) := by
                rw [closes _ reach, compare_enters frames first op loose]
              rw [steps_append _ _ _ _ taken, steps_cons _ _ _ _ entered]
              exact read_links least tight frames first links [] op e rest others

theorem read_arguments (frames : List Frame) (function : String) (args : List Expr) (done : List Expr) (e : Expr)
    (tokens : List Token) (read : ReadAs (Expr.argumentItems (e :: args)) tokens) :
    steps (.operand (.argument function done :: frames)) (tokens ++ [.closeParen]) =
      .ok (.complete frames (.call function (done ++ e :: args))) := by
  induction args generalizing done e tokens with
  | nil =>
      cases read with
      | part _ _ _ part tokens reads others =>
          cases others
          obtain ⟨state, taken, closes⟩ := reads (.argument function done :: frames) (Nat.le_refl 0)
          have closed : step state .closeParen = .ok (.complete frames (.call function (done ++ [e]))) :=
            closes .closeParen (Nat.le_refl 0)
          rw [List.append_nil, steps_append _ _ _ _ taken, steps_cons _ _ _ _ closed]
          rfl
  | cons next args ih =>
      cases read with
      | part _ _ _ part tokens reads others =>
          cases others with
          | token _ _ rest others =>
              obtain ⟨state, taken, closes⟩ := reads (.argument function done :: frames) (Nat.le_refl 0)
              have entered : step state .comma = .ok (.operand (.argument function (done ++ [e]) :: frames)) :=
                closes .comma (Nat.le_refl 0)
              have goesOn := ih (done ++ [e]) next rest others
              rw [List.append_assoc, steps_append _ _ _ _ taken, List.cons_append, steps_cons _ _ _ _ entered, goesOn,
                List.append_assoc, List.singleton_append]

-- What may not begin an operand is refused where an operand is due, so the first token of one is no closing one.
theorem steps_called (frames : List Frame) (function : String) (tokens : List Token) (state : State)
    (taken : steps (.operand (.argument function [] :: frames)) (tokens ++ [.closeParen]) = .ok state) :
    steps (.called frames function) (tokens ++ [.closeParen]) = .ok state := by
  cases tokens with
  | nil => cases taken
  | cons t rest =>
      have same : step (.called frames function) t = step (.operand (.argument function [] :: frames)) t := by
        cases t with
        | closeParen => cases taken
        | _ => rfl
      simp only [steps, List.cons_append, List.foldlM_cons, same] at taken ⊢
      exact taken

theorem read_append (front back : List Item) (tokens : List Token) (read : ReadAs (front ++ back) tokens) :
    ∃ a b, tokens = a ++ b ∧ ReadAs front a ∧ ReadAs back b := by
  induction front generalizing tokens with
  | nil => exact ⟨[], tokens, rfl, .nil, read⟩
  | cons item front ih =>
      cases read with
      | token t _ rest others =>
          obtain ⟨a, b, rfl, readFront, readBack⟩ := ih rest others
          exact ⟨t :: a, b, rfl, .token t front a readFront, readBack⟩
      | part least e _ part rest reads others =>
          obtain ⟨a, b, rfl, readFront, readBack⟩ := ih rest others
          exact ⟨part ++ a, b, (List.append_assoc part a b).symm, .part least e front part a reads readFront, readBack⟩

theorem read_tokens (own tokens : List Token) (read : ReadAs (own.map .token) tokens) : tokens = own := by
  induction own generalizing tokens with
  | nil =>
      cases read
      rfl
  | cons t own ih =>
      cases read with
      | token _ _ rest others => rw [ih rest others]

theorem dot_free (n : String) (identifier : Identifier n) : ∀ c ∈ n.toList, decide (c ≠ '.') = true := by
  intro c member
  have named := identifier.name
  cases chars : n.toList with
  | nil => simp [chars] at member
  | cons first rest =>
      simp only [chars, Text.isName, Bool.and_eq_true, List.all_eq_true] at named
      rw [chars] at member
      have continues : Text.startsName c = true ∨ Text.continuesName c = true := by
        rcases List.mem_cons.mp member with same | later
        · exact .inl (same ▸ named.1)
        · exact .inr (named.2 c later)
      apply decide_eq_true
      rintro rfl
      revert continues
      decide

theorem function_tokens_plain (n : String) (identifier : Identifier n) : Expr.functionTokens n = [.name n] := by
  have free : n.toList.dropWhile (· ≠ '.') = [] := List.dropWhile_eq_nil_iff.mpr (dot_free n identifier)
  simp only [Expr.functionTokens, Text.cutAt, free]

theorem function_tokens_based (base n : String) (identifier : Identifier base) :
    Expr.functionTokens (base ++ "." ++ n) = [.name base, .dot, .name n] := by
  have chars : (base ++ "." ++ n).toList = base.toList ++ '.' :: n.toList := by simp
  have front : (base.toList ++ '.' :: n.toList).takeWhile (· ≠ '.') = base.toList := by
    rw [List.takeWhile_append_of_pos (dot_free base identifier)]
    simp
  have back : (base.toList ++ '.' :: n.toList).dropWhile (· ≠ '.') = '.' :: n.toList := by
    rw [List.dropWhile_append_of_pos (dot_free base identifier)]
    simp
  simp only [Expr.functionTokens, Text.cutAt, chars, front, back, String.ofList_toList]

theorem steps_function (frames : List Frame) (function : String) (args : List Expr)
    (proper : (Expr.call function args).Proper) (rest : List Token) :
    steps (.operand frames) (Expr.functionTokens function ++ .openParen :: rest) = steps (.called frames function) rest := by
  rcases proper with identifier | ⟨base, n, identifier, _, rfl⟩
  · have first : step (.operand frames) (.name function) = .ok (.named frames function) :=
      operand_identifier frames function identifier
    rw [function_tokens_plain function identifier, List.singleton_append, steps_cons _ _ _ _ first,
      steps_cons _ (.called frames function) _ _ rfl]
  · rw [function_tokens_based base n identifier]
    change steps (.operand frames) (.name base :: .dot :: .name n :: .openParen :: rest) = _
    rw [steps_member frames base n identifier, steps_cons _ (.called frames (base ++ "." ++ n)) _ _ rfl]

theorem reads_call (least : Nat) (function : String) (args : List Expr) (proper : (Expr.call function args).Proper)
    (tokens : List Token) (read : ReadAs (Expr.argumentItems args) tokens) :
    Reads least (.call function args) (Expr.functionTokens function ++ .openParen :: (tokens ++ [.closeParen])) := by
  intro frames _
  refine ⟨.complete frames (.call function args), ?_, fun _ _ => rfl⟩
  rw [steps_function frames function args proper]
  cases args with
  | nil =>
      cases read
      rfl
  | cons e args => exact steps_called frames function tokens _ (read_arguments frames function args [] e tokens read)

theorem reads_literal (least : Nat) (v : Value) (proper : (Expr.literal v).Proper) :
    Reads least (.literal v) (Expr.literalTokens v) := by
  cases v with
  | int n => exact reads_single least _ _ fun _ => rfl
  | str s => exact reads_single least _ _ fun _ => rfl
  | bool b =>
      cases b with
      | true => exact reads_single least _ _ fun _ => rfl
      | false => exact reads_single least _ _ fun _ => rfl
  | _ => cases proper

theorem read_joined (leftLeast rightLeast : Nat) (t : Token) (left right : Expr) (tokens : List Token)
    (read : ReadAs [.part leftLeast left, .token t, .part rightLeast right] tokens) :
    ∃ a b, tokens = a ++ t :: b ∧ Reads leftLeast left a ∧ Reads rightLeast right b := by
  cases read with
  | part _ _ _ a _ readsLeft others =>
      cases others with
      | token _ _ _ others =>
          cases others with
          | part _ _ _ b _ readsRight others =>
              cases others
              exact ⟨a, b, by rw [List.append_nil], readsLeft, readsRight⟩

theorem reads_pattern (e : Expr) (proper : e.Proper) (tokens : List Token) (read : ReadAs e.pattern tokens) (least : Nat)
    (tight : least ≤ e.level) : Reads least e tokens := by
  cases e with
  | literal v =>
      rw [read_tokens _ tokens read]
      exact reads_literal least v proper
  | none =>
      rw [read_tokens [.name "None"] tokens read]
      exact reads_single least _ _ fun _ => rfl
  | name n =>
      rw [read_tokens [.name n] tokens read]
      exact reads_name least tight n proper
  | member base n =>
      rw [read_tokens [.name base, .dot, .name n] tokens read]
      exact reads_member least tight base n proper.1
  | unary op e =>
      cases read with
      | token _ _ rest others =>
          cases others with
          | part _ _ _ part rest reads others =>
              cases others
              rw [List.append_nil]
              exact reads_unary least op e part tight reads
  | binary op left right =>
      obtain ⟨a, b, rfl, readsLeft, readsRight⟩ := read_joined _ _ _ left right tokens read
      exact reads_binary least op left right a b tight readsLeft readsRight
  | chain first links => exact reads_chain least tight first links proper tokens read
  | and left right =>
      obtain ⟨a, b, rfl, readsLeft, readsRight⟩ := read_joined _ _ _ left right tokens read
      exact reads_and least left right a b tight readsLeft readsRight
  | or left right =>
      obtain ⟨a, b, rfl, readsLeft, readsRight⟩ := read_joined _ _ _ left right tokens read
      exact reads_or least left right a b tight readsLeft readsRight
  | choice condition yes no =>
      cases read with
      | part _ _ _ a _ readsYes others =>
          cases others with
          | token _ _ _ others =>
              cases others with
              | part _ _ _ b _ readsCondition others =>
                  cases others with
                  | token _ _ _ others =>
                      cases others with
                      | part _ _ _ d _ readsNo others =>
                          cases others
                          rw [List.append_nil]
                          exact reads_choice least condition yes no a b d tight readsYes readsCondition readsNo
  | call function args =>
      obtain ⟨a, b, rfl, readName, readRest⟩ := read_append _ _ tokens read
      cases readRest with
      | token _ _ rest others =>
          obtain ⟨args', close, rfl, readArgs, readClose⟩ := read_append _ _ rest others
          rw [read_tokens _ a readName, read_tokens [.closeParen] close readClose]
          exact reads_call least function args proper args' readArgs

theorem written_read (spare : Bool) (items : List Item) (tokens : List Token) (written : Writes spare items tokens)
    (grammatical : ∀ least part, Item.part least part ∈ items → Expr.Grammatical part) : ReadAs items tokens := by
  induction written with
  | nil => exact .nil
  | token t items tokens others ih =>
      exact .token t items tokens (ih fun least part later => grammatical least part (List.mem_cons_of_mem _ later))
  | bare least e items part tokens tight inner others ihInner ihOthers =>
      have own := grammatical least e List.mem_cons_self
      cases own with
      | node _ proper parts =>
          have reads := reads_pattern e proper part (ihInner parts) least tight
          exact .part least e items part tokens reads
            (ihOthers fun least part later => grammatical least part (List.mem_cons_of_mem _ later))
  | enclosed least e items part tokens needed inner others ihInner ihOthers =>
      have own := grammatical least e List.mem_cons_self
      cases ihInner (own.alone e) with
      | part _ _ _ part _ reads rest =>
          cases rest
          have enclosed := reads_enclosed least e part reads
          have others := ihOthers fun least part later => grammatical least part (List.mem_cons_of_mem _ later)
          simpa using ReadAs.part least e items _ tokens enclosed others

theorem written_steps (spare : Bool) (e : Expr) (grammatical : e.Grammatical) (tokens : List Token)
    (written : Writes spare [.part 0 e] tokens) : steps (.operand []) (tokens ++ [.finish]) = .ok (.done e) := by
  cases written_read spare _ tokens written (grammatical.alone e) with
  | part _ _ _ part _ reads rest =>
      cases rest
      obtain ⟨state, taken, closes⟩ := reads [] trivial
      have finished : step state .finish = .ok (.done e) := closes .finish (Nat.le_refl 0)
      rw [List.append_nil, steps_append _ _ _ _ taken, steps_cons _ _ _ _ finished]
      rfl

end Parser

end SpaceLink
