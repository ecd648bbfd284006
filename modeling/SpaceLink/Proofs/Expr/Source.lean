import SpaceLink.Proofs.Expr.Reading
import SpaceLink.Proofs.Expr.Spelling

/-!
From an expression to a source and back. What an expression of the grammar is written with can be spelled and laid
out, and every source so laid out compiles to that expression.
-/

set_option autoImplicit false

namespace SpaceLink

namespace Lexer

def Spellable (t : Token) : Prop := ∃ spelling, Spelled t spelling

theorem laid_before (t : Token) (tokens : List Token) (spelling text : List Char) (spelled : Spelled t spelling)
    (laid : Laid tokens text) : Laid (t :: tokens) (spelling ++ ' ' :: text) := by
  have apart : Apart (' ' :: text) := by
    rintro c ⟨⟩
    rfl
  exact .token t tokens spelling (' ' :: text) spelled apart (.blank ' ' tokens text rfl laid)

theorem laid_spaced (tokens : List Token) (each : ∀ t ∈ tokens, Spellable t) : ∃ text, Laid tokens text := by
  induction tokens with
  | nil => exact ⟨[], .nil⟩
  | cons t tokens ih =>
      obtain ⟨⟨spelling, spelled⟩, others⟩ := List.forall_mem_cons.mp each
      obtain ⟨text, laid⟩ := ih others
      exact ⟨_, laid_before t tokens spelling text spelled laid⟩

theorem text_quoted (text : List Char) : ∃ source, Quoted '"' text source := by
  induction text with
  | nil => exact ⟨[], .nil⟩
  | cons c text ih =>
      obtain ⟨source, quoted⟩ := ih
      by_cases special : c = '"' ∨ c = '\\'
      · have listed : c ∈ ['\'', '"', '\\'] := by rcases special with rfl | rfl <;> decide
        exact ⟨_, .escaped c text source listed quoted⟩
      · obtain ⟨unquoted, unslashed⟩ := not_or.mp special
        exact ⟨_, .plain c text source unquoted unslashed quoted⟩

theorem spellable_name (n : String) (named : Text.isName n.toList = true) : Spellable (.name n) := ⟨_, .name n named⟩

theorem spellable_literal (v : Value) (proper : (Expr.literal v).Proper) :
    ∀ t ∈ Expr.literalTokens v, Spellable t := by
  cases v with
  | int n =>
      obtain ⟨positive, fits⟩ := proper
      obtain ⟨n, rfl⟩ := Int.eq_ofNat_of_zero_le positive
      rintro t (_ | ⟨_, ⟨⟩⟩)
      obtain ⟨digits, denotes⟩ := Numeral.denoted 10 (by decide) (by decide) n
      exact ⟨digits, .decimal digits n denotes fits⟩
  | str s =>
      rintro t (_ | ⟨_, ⟨⟩⟩)
      obtain ⟨source, quoted⟩ := text_quoted s.toList
      exact ⟨_, .str '"' s source (.inr rfl) quoted⟩
  | bool b =>
      rintro t (_ | ⟨_, ⟨⟩⟩)
      refine spellable_name _ ?_
      cases b <;> decide
  | _ => exact proper.elim

theorem spellable_function (function : String) (args : List Expr) (proper : (Expr.call function args).Proper) :
    ∀ t ∈ Expr.functionTokens function, Spellable t := by
  rcases proper with identifier | ⟨base, n, before, after, rfl⟩
  · rw [Parser.function_tokens_plain function identifier]
    simpa using spellable_name function identifier.name
  · rw [Parser.function_tokens_based base n before]
    simpa using ⟨spellable_name base before.name, ⟨_, .dot⟩, spellable_name n after.name⟩

theorem argument_token (args : List Expr) (t : Token) (own : .token t ∈ Expr.argumentItems args) : t = .comma := by
  cases args with
  | nil => cases own
  | cons e rest =>
      have later : (∃ e, e ∈ rest) ∧ t = .comma := by simpa [Expr.argumentItems] using own
      exact later.2

theorem spellable_own (e : Expr) (proper : e.Proper) : ∀ t, .token t ∈ e.pattern → Spellable t := by
  have word : ∀ n, Text.isName n.toList = true → ∀ t, t = Token.name n → Spellable t := by
    rintro n named t rfl
    exact spellable_name n named
  have sign : ∀ o t, t = Token.op o → Spellable t := by
    rintro o t rfl
    exact ⟨_, .op o⟩
  intro t own
  cases e with
  | literal v => exact spellable_literal v proper t (by simpa [Expr.pattern] using own)
  | none => exact word "None" (by decide) t (by simpa [Expr.pattern] using own)
  | name n => exact word n proper.name t (by simpa [Expr.pattern] using own)
  | member base n =>
      simp only [Expr.pattern, List.mem_cons, List.not_mem_nil, or_false, Item.token.injEq] at own
      rcases own with first | dot | last
      · exact word base proper.1.name t first
      · cases dot
        exact ⟨_, .dot⟩
      · exact word n proper.2.name t last
  | unary op e =>
      have only : t = op.token := by simpa [Expr.pattern] using own
      cases op with
      | not => exact word "not" (by decide) t only
      | _ => exact sign _ t only
  | binary op left right => exact sign op.sign t (by simpa [Expr.pattern] using own)
  | chain first links =>
      simp only [Expr.pattern, Expr.linkItems, List.mem_cons, List.mem_flatMap, reduceCtorEq, Item.token.injEq,
        List.not_mem_nil, or_false, false_or] at own
      obtain ⟨link, _, same⟩ := own
      exact sign link.1.sign t same
  | and left right => exact word "and" (by decide) t (by simpa [Expr.pattern] using own)
  | or left right => exact word "or" (by decide) t (by simpa [Expr.pattern] using own)
  | choice condition yes no =>
      have either : t = .name "if" ∨ t = .name "else" := by simpa [Expr.pattern] using own
      rcases either with first | last
      · exact word "if" (by decide) t first
      · exact word "else" (by decide) t last
  | call function args =>
      simp only [Expr.pattern, List.mem_append, List.mem_map, List.mem_cons, List.not_mem_nil, or_false,
        Item.token.injEq, exists_eq_right] at own
      rcases own with named | rfl | comma | rfl
      · exact spellable_function function args proper t named
      · exact ⟨_, .openParen⟩
      · cases argument_token args t comma
        exact ⟨_, .comma⟩
      · exact ⟨_, .closeParen⟩

theorem spellable_written (spare : Bool) (items : List Item) (tokens : List Token) (written : Writes spare items tokens)
    (own : ∀ t, .token t ∈ items → Spellable t) (parts : ∀ least part, .part least part ∈ items → part.Grammatical) :
    ∀ t ∈ tokens, Spellable t := by
  induction written with
  | nil => simp
  | token t items tokens others ih =>
      rw [List.forall_mem_cons]
      exact ⟨own t List.mem_cons_self, ih (fun t later => own t (List.mem_cons_of_mem _ later))
        fun least part later => parts least part (List.mem_cons_of_mem _ later)⟩
  | bare least e items part tokens tight inner others ihInner ihOthers =>
      rw [List.forall_mem_append]
      obtain ⟨e, proper, members⟩ := parts least e List.mem_cons_self
      exact ⟨ihInner (spellable_own e proper) members, ihOthers (fun t later => own t (List.mem_cons_of_mem _ later))
        fun least part later => parts least part (List.mem_cons_of_mem _ later)⟩
  | enclosed least e items part tokens needed inner others ihInner ihOthers =>
      rw [List.cons_append, List.forall_mem_cons, List.forall_mem_append, List.forall_mem_cons]
      have enclosed := ihInner (by simp) ((parts least e List.mem_cons_self).alone e)
      exact ⟨⟨_, .openParen⟩, enclosed, ⟨_, .closeParen⟩, ihOthers (fun t later => own t (List.mem_cons_of_mem _ later))
        fun least part later => parts least part (List.mem_cons_of_mem _ later)⟩

end Lexer

namespace Parser

theorem run_steps (state : State) (placed : List Placed) (e : Expr)
    (taken : steps state (placed.map Placed.token) = .ok (.done e)) : run state placed = .ok e := by
  induction placed generalizing state with
  | nil =>
      cases taken
      rfl
  | cons first rest ih =>
      cases next : step state first.token with
      | error fault => simp [steps, next, bind, Except.bind] at taken
      | ok next' =>
          rw [List.map_cons, steps_cons _ _ _ _ next] at taken
          simp only [run, next]
          exact ih next' taken

end Parser

-- The blanks, the base of a number and the quotes of a string are free, and so are parentheses that are not needed.
theorem Expression.compile_written (e : Expr) (grammatical : e.Grammatical) :
    (∃ tokens, Writes true [.part 0 e] tokens) ∧
      ∀ spare tokens, Writes spare [.part 0 e] tokens →
        (∃ source, Lexer.Laid tokens source) ∧
          ∀ source : String, Lexer.Laid tokens source.toList → Expression.compile source = .ok ⟨source, e⟩ := by
  constructor
  · obtain ⟨own, written⟩ := e.grammatical_written grammatical
    exact ⟨own, Writes.alone true e own written⟩
  · intro spare tokens written
    have spellable := Lexer.spellable_written spare _ tokens written (by simp) (grammatical.alone e)
    refine ⟨Lexer.laid_spaced tokens spellable, ?_⟩
    intro source laid
    obtain ⟨placed, lexed, same⟩ := Lexer.tokens_of_laid tokens source.toList laid 0
    have taken := Parser.written_steps spare e grammatical tokens written
    rw [← same] at taken
    have read : Parser.parse source = .ok e := by
      simp [Parser.parse, Lexer.tokens, lexed, bind, Except.bind, Parser.run_steps _ placed e taken]
    simp [Expression.compile, read]

theorem Expression.compile_power_of_sum :
    Expression.compile "( 0x1F + 2 ) ** x" =
      .ok ⟨"( 0x1F + 2 ) ** x", .binary .pow (.binary .add (.literal (.int 31)) (.literal (.int 2))) (.name "x")⟩ := by
  have number : ∀ n : Nat, n ≤ Wide.greatest → (Expr.literal (.int n)).Grammatical := fun n fits =>
    .node _ ⟨Int.natCast_nonneg n, fits⟩ (by simp [Expr.pattern, Expr.literalTokens])
  have name : (Expr.name "x").Grammatical := .node _ ⟨by decide, by decide⟩ (by simp [Expr.pattern])
  have both : ∀ op left right, left.Grammatical → right.Grammatical → (Expr.binary op left right).Grammatical := by
    intro op left right before after
    refine .node _ trivial ?_
    simp only [Expr.pattern, List.mem_cons, Item.part.injEq, reduceCtorEq, List.not_mem_nil, or_false, false_or]
    rintro _ _ (⟨_, rfl⟩ | ⟨_, rfl⟩)
    · exact before
    · exact after
  have own : ∀ least (e : Expr) t items tokens, least ≤ e.level → e.pattern = [.token t] → Writes true items tokens →
      Writes true (.part least e :: items) (t :: tokens) := fun least e t items tokens tight alone others =>
    .bare least e items [t] tokens tight (alone ▸ .token t [] [] .nil) others
  have sum : Writes true (Expr.binary .add (.literal (.int 31)) (.literal (.int 2))).pattern _ :=
    own 9 _ _ _ _ (by decide) rfl (.token _ _ _ (own 10 _ _ _ _ (by decide) rfl .nil))
  have power : Writes true (Expr.binary .pow _ (.name "x")).pattern _ :=
    .enclosed 13 _ _ _ _ (by decide) (Writes.alone _ _ _ sum) (.token _ _ _ (own 11 _ _ _ _ (by decide) rfl .nil))
  have thirtyOne : Numeral.Denotes 16 ['1', 'F'] 31 :=
    .next ['1'] 1 'F' 15 (.digit '1' 1 (by decide) (.inl rfl)) (by decide) (.inr rfl)
  have two : Numeral.Denotes 10 ['2'] 2 := .digit '2' 2 (by decide) (.inl rfl)
  have laid : Lexer.Laid _ "( 0x1F + 2 ) ** x".toList :=
    Lexer.laid_before .openParen _ ['('] _ .openParen
      (Lexer.laid_before (.int 31) _ "0x1F".toList _ (.based 'x' 16 ['1', 'F'] 31 (by decide) thirtyOne (by decide))
        (Lexer.laid_before _ _ ['+'] _ (.op .plus)
          (Lexer.laid_before _ _ ['2'] _ (.decimal ['2'] 2 two (by decide))
            (Lexer.laid_before _ _ [')'] _ .closeParen
              (Lexer.laid_before _ _ ['*', '*'] _ (.op .power)
                (.token (.name "x") [] ['x'] [] (.name "x" (by decide)) (by simp [Lexer.Apart]) .nil))))))
  exact ((Expression.compile_written _ (both .pow _ _ (both .add _ _ (number 31 (by decide)) (number 2 (by decide))) name)).2
    true _ (Writes.alone _ _ _ power)).2 _ laid

end SpaceLink
