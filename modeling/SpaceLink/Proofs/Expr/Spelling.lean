import SpaceLink.Expr.Lexer
import SpaceLink.Proofs.Number.Digits
import SpaceLink.Proofs.Text.Blank

/-!
How tokens are spelled and laid out, each apart from the next by blanks. The lexer finds the tokens again.
-/

set_option autoImplicit false

namespace SpaceLink.Lexer

-- The text of a string between quotes; a backslash may stand before quotes and backslashes, and one has to stand
-- before a backslash and the quote that would end the string.
inductive Quoted (quote : Char) : List Char → List Char → Prop
  | nil : Quoted quote [] []
  | plain (c : Char) (text source : List Char) (unquoted : c ≠ quote) (unslashed : c ≠ '\\')
      (rest : Quoted quote text source) : Quoted quote (c :: text) (c :: source)
  | escaped (c : Char) (text source : List Char) (special : c ∈ ['\'', '"', '\\']) (rest : Quoted quote text source) :
      Quoted quote (c :: text) ('\\' :: c :: source)

-- The marks of the bases other than ten.
def marks : List (Char × Nat) := [('x', 16), ('X', 16), ('o', 8), ('O', 8), ('b', 2), ('B', 2)]

inductive Spelled : Token → List Char → Prop
  | openParen : Spelled .openParen ['(']
  | closeParen : Spelled .closeParen [')']
  | comma : Spelled .comma [',']
  | dot : Spelled .dot ['.']
  | op (o : Operator) : Spelled (.op o) o.text.toList
  | name (n : String) (named : Text.isName n.toList = true) : Spelled (.name n) n.toList
  | decimal (digits : List Char) (n : Nat) (denotes : Numeral.Denotes 10 digits n) (fits : n ≤ Wide.greatest) :
      Spelled (.int n) digits
  | based (mark : Char) (base : Nat) (digits : List Char) (n : Nat) (marked : (mark, base) ∈ marks)
      (denotes : Numeral.Denotes base digits n) (fits : n ≤ Wide.greatest) : Spelled (.int n) ('0' :: mark :: digits)
  | str (quote : Char) (s : String) (source : List Char) (mark : quote = '\'' ∨ quote = '"')
      (quoted : Quoted quote s.toList source) : Spelled (.str s) (quote :: source ++ [quote])

-- Nothing follows, or a blank.
def Apart (rest : List Char) : Prop := ∀ c, rest.head? = some c → Text.isBlank c = true

inductive Laid : List Token → List Char → Prop
  | nil : Laid [] []
  | blank (c : Char) (tokens : List Token) (text : List Char) (blank : Text.isBlank c = true) (rest : Laid tokens text) :
      Laid tokens (c :: text)
  | token (t : Token) (tokens : List Token) (spelling text : List Char) (spelled : Spelled t spelling)
      (apart : Apart text) (rest : Laid tokens text) : Laid (t :: tokens) (spelling ++ text)

-- The lexer takes a spelling as its first token, whatever stands behind it.
def Taken (t : Token) (spelling : List Char) : Prop :=
  ∃ c more, spelling = c :: more ∧ Text.isBlank c = false ∧
    ∀ rest, Apart rest → first c (more ++ rest) = .ok (t, more.length)

theorem taken_mark (t : Token) (c : Char) (visible : Text.isBlank c = false)
    (found : ∀ rest, Apart rest → first c rest = .ok (t, 0)) : Taken t [c] :=
  ⟨c, [], rfl, visible, found⟩

-- What holds of no blank does not hold of what follows.
theorem head_of_apart (found : Char → Bool) (none : ∀ c, Text.isBlank c = true → found c = false) (rest : List Char)
    (apart : Apart rest) : rest.head?.any found = false := by
  cases rest with
  | nil => rfl
  | cons c rest => exact none c (apart c rfl)

theorem bind_of_apart {α : Type} (found : Char → Option α) (none : ∀ c, Text.isBlank c = true → found c = .none)
    (rest : List Char) (apart : Apart rest) : rest.head?.bind found = .none := by
  cases rest with
  | nil => rfl
  | cons c rest => exact none c (apart c rfl)

theorem take_apart (part : Char → Bool) (none : ∀ c, Text.isBlank c = true → part c = false) (more rest : List Char)
    (all : ∀ c ∈ more, part c = true) (apart : Apart rest) : (more ++ rest).takeWhile part = more :=
  (Text.run_over part more rest (fun c first => none c (apart c first)) all).1

theorem blank_no_digit (c : Char) (blank : Text.isBlank c = true) : Reader.isDigit c = false := by
  have outside := Text.of_blank (fun c => !Reader.isDigit c) (by decide) c blank
  simpa using outside

theorem taken_dot : Taken .dot ['.'] := by
  refine ⟨'.', [], rfl, by decide, ?_⟩
  intro rest apart
  have alone := head_of_apart Reader.isDigit blank_no_digit rest apart
  have opened : first '.' rest = if rest.head?.any Reader.isDigit = true then number '.' rest else .ok (.dot, 0) := rfl
  simp [opened, alone]

def signs : List Char := ['*', '/', '<', '>', '=', '!', '+', '-', '%', '&', '|', '^', '~']

theorem first_sign (c : Char) (rest : List Char) (sign : c ∈ signs) :
    first c rest =
      match rest.head?.bind (double? c), single? c with
      | some op, _ => .ok (.op op, 1)
      | none, some op => .ok (.op op, 0)
      | none, none => .error (.badCharacter c) := by
  simp only [signs, List.mem_cons, List.not_mem_nil, or_false] at sign
  rcases sign with rfl | rfl | rfl | rfl | rfl | rfl | rfl | rfl | rfl | rfl | rfl | rfl | rfl <;> rfl

theorem double_blank (c next : Char) (blank : Text.isBlank next = true) : double? c next = none := by
  unfold double?
  split
  all_goals first | rfl | exact absurd blank (by decide)

-- An operator of one sign, or of two.
theorem operator_text (o : Operator) :
    (∃ c, o.text.toList = [c] ∧ c ∈ signs ∧ single? c = some o) ∨
      ∃ c next, o.text.toList = [c, next] ∧ c ∈ signs ∧ double? c next = some o := by
  cases o
  case power | floorDiv | shiftLeft | shiftRight | le | ge | eq | ne => exact .inr ⟨_, _, rfl, by decide, rfl⟩
  all_goals exact .inl ⟨_, rfl, by decide, rfl⟩

theorem taken_operator (o : Operator) : Taken (.op o) o.text.toList := by
  have none : (signs.all fun c => !Text.isBlank c) = true := by decide
  have visible : ∀ c ∈ signs, Text.isBlank c = false := by
    simpa only [List.all_eq_true, Bool.not_eq_true'] using none
  rcases operator_text o with ⟨c, text, sign, single⟩ | ⟨c, next, text, sign, double⟩
  · refine ⟨c, [], text, visible c sign, ?_⟩
    intro rest apart
    have alone := bind_of_apart (double? c) (double_blank c) rest apart
    rw [List.nil_append, first_sign c rest sign, alone, single]
    rfl
  · refine ⟨c, [next], text, visible c sign, ?_⟩
    intro rest apart
    have pair : ([next] ++ rest).head?.bind (double? c) = some o := double
    rw [first_sign c _ sign, pair]
    rfl

theorem code_of_digit (c : Char) (digit : Reader.isDigit c = true) : c.toNat ∈ List.range' 48 10 := by
  simp only [Reader.isDigit, Bool.and_eq_true, decide_eq_true_eq, Char.le_def, UInt32.le_iff_toNat_le] at digit
  rw [List.mem_range'_1]
  exact ⟨digit.1, Nat.lt_succ_of_le digit.2⟩

theorem of_digit (holds : Char → Bool) (each : ∀ code ∈ List.range' 48 10, holds (Char.ofNat code) = true) (c : Char)
    (digit : Reader.isDigit c = true) : holds c = true :=
  Text.of_code (List.range' 48 10) holds each c (code_of_digit c digit)

theorem first_name (c : Char) (rest : List Char) (starts : Text.startsName c = true) :
    first c rest = .ok (.name (String.ofList (c :: rest.takeWhile Text.continuesName)),
      (rest.takeWhile Text.continuesName).length) := by
  have other : ∀ mark, Text.startsName mark = false → c ≠ mark := fun mark =>
    Text.ne_of_holds Text.startsName c mark starts
  have undigit : Reader.isDigit c = false := by
    cases digit : Reader.isDigit c with
    | false => rfl
    | true =>
        have unstarted := of_digit (fun c => !Text.startsName c) (by decide) c digit
        simp [starts] at unstarted
  have pointless : (c == '.') = false := beq_false_of_ne (other '.' (by decide))
  simp only [first, other '(' (by decide), other ')' (by decide), other ',' (by decide), other '.' (by decide), undigit,
    pointless, starts, if_true, if_false, Bool.false_and, Bool.or_false, Bool.false_eq_true]

theorem taken_name (n : String) (named : Text.isName n.toList = true) : Taken (.name n) n.toList := by
  cases chars : n.toList with
  | nil => simp [chars, Text.isName] at named
  | cons c more =>
      simp only [chars, Text.isName, Bool.and_eq_true, List.all_eq_true] at named
      obtain ⟨starts, continues⟩ := named
      refine ⟨c, more, rfl, ?_, ?_⟩
      · cases blank : Text.isBlank c with
        | false => rfl
        | true =>
            have outside := Text.blank_not_in_name c blank
            simp only [Text.continuesName, Text.startsName, Bool.or_eq_true, Bool.or_eq_false_iff] at outside starts
            simp [outside] at starts
      · intro rest apart
        rw [first_name c _ starts, take_apart _ Text.blank_not_in_name more rest continues apart, ← chars,
          String.ofList_toList]

theorem string_quoted (quote : Char) (plain : quote ≠ '\\') (text source rest : List Char)
    (quoted : Quoted quote text source) : string? quote (source ++ quote :: rest) = some (text, source.length + 1) := by
  induction quoted with
  | nil =>
      rw [List.nil_append, string?.eq_def]
      simp
  | plain c text source unquoted unslashed quoted ih =>
      rw [List.cons_append, string?.eq_def]
      simp [unquoted, unslashed, ih]
  | escaped c text source special quoted ih =>
      have kept : unescape c = c := by
        simp only [List.mem_cons, List.not_mem_nil, or_false] at special
        rcases special with rfl | rfl | rfl <;> rfl
      simp [string?, Ne.symm plain, kept, ih]

theorem first_string (quote : Char) (rest text : List Char) (n : Nat) (mark : quote = '\'' ∨ quote = '"')
    (found : string? quote rest = some (text, n)) : first quote rest = .ok (.str (String.ofList text), n) := by
  rcases mark with rfl | rfl
  · have unnamed : Text.startsName '\'' = false := by decide
    simp [first, Reader.isDigit, unnamed, found]
  · have unnamed : Text.startsName '"' = false := by decide
    simp [first, Reader.isDigit, unnamed, found]

theorem taken_string (quote : Char) (s : String) (source : List Char) (mark : quote = '\'' ∨ quote = '"')
    (quoted : Quoted quote s.toList source) : Taken (.str s) (quote :: source ++ [quote]) := by
  have plain : quote ≠ '\\' := by rcases mark with rfl | rfl <;> decide
  refine ⟨quote, source ++ [quote], rfl, by rcases mark with rfl | rfl <;> decide, ?_⟩
  intro rest _
  have found := string_quoted quote plain s.toList source rest quoted
  rw [List.append_assoc, List.singleton_append, first_string quote _ _ _ mark found]
  simp [String.ofList_toList]

theorem first_number (c : Char) (rest : List Char) (digit : Reader.isDigit c = true) : first c rest = number c rest := by
  have other : ∀ mark, Reader.isDigit mark = false → c ≠ mark := fun mark => Text.ne_of_holds Reader.isDigit c mark digit
  simp only [first, other '(' (by decide), other ')' (by decide), other ',' (by decide), digit, Bool.true_or, if_true,
    if_false]

theorem digit_visible (c : Char) (digit : Reader.isDigit c = true) : Text.isBlank c = false := by
  cases blank : Text.isBlank c with
  | false => rfl
  | true => simp [blank_no_digit c blank] at digit

theorem without_underscores (base : Nat) (digits : List Char)
    (known : ∀ c ∈ digits, (Numeral.digitValue? base c).isSome = true) : withoutUnderscores digits = digits := by
  refine List.filter_eq_self.mpr ?_
  intro c member
  exact decide_eq_true (Numeral.digit_ne base c '_' (known c member) rfl)

theorem decimal_length (digits rest : List Char) (all : ∀ c ∈ digits, Reader.isDigit c = true) (apart : Apart rest) :
    decimalLength true (digits ++ rest) = digits.length := by
  induction digits with
  | nil =>
      cases rest with
      | nil => rfl
      | cons c rest =>
          have outside := Text.of_blank (fun c => !(isNumberPart c || c == '.' || c == 'e' || c == 'E')) (by decide) c
            (apart c rfl)
          simp only [Bool.not_eq_true', Bool.or_eq_false_iff, beq_eq_false_iff_ne] at outside
          obtain ⟨⟨⟨part, point⟩, small⟩, capital⟩ := outside
          simp [decimalLength, part, point, small, capital]
  | cons c digits ih =>
      obtain ⟨digit, others⟩ := List.forall_mem_cons.mp all
      simp [decimalLength, isNumberPart, digit, ih others]

theorem decimal_number (digits : List Char) (n : Nat) (value : Numeral.natural? 10 digits = some n)
    (fits : n ≤ Wide.greatest) : decimalNumber digits = .ok (.int n) := by
  have known := (Numeral.natural_parts 10 n digits value).2
  have whole : (digits.any fun c => c == '.' || c == 'e' || c == 'E') = false := by
    rw [List.any_eq_false]
    intro c member fractional
    have plain := of_digit (fun c => !(c == '.' || c == 'e' || c == 'E')) (by decide) c
      (Numeral.digit_decimal c (known c member))
    simp [fractional] at plain
  simp [decimalNumber, without_underscores 10 digits known, whole, Reader.integer_of_natural 10 n digits value fits]

theorem number_unmarked (c : Char) (rest : List Char) (unmarked : rest.head?.bind radix? = none) :
    number c rest =
      (decimalNumber (c :: rest.take (decimalLength true (c :: rest) - 1))).map fun token =>
        (token, decimalLength true (c :: rest) - 1) := by
  unfold number
  split
  · rename_i announced
    rw [unmarked] at announced
    cases announced
  · rfl

theorem unmarked_digits (digits rest : List Char) (all : ∀ c ∈ digits, Reader.isDigit c = true) (apart : Apart rest) :
    (digits ++ rest).head?.bind radix? = none := by
  cases digits with
  | nil =>
      refine bind_of_apart radix? ?_ rest apart
      intro c blank
      simpa using Text.of_blank (fun c => (radix? c).isNone) (by decide) c blank
  | cons c digits => simpa using of_digit (fun c => (radix? c).isNone) (by decide) c (all c List.mem_cons_self)

theorem taken_decimal (digits : List Char) (n : Nat) (value : Numeral.natural? 10 digits = some n)
    (fits : n ≤ Wide.greatest) : Taken (.int n) digits := by
  obtain ⟨filled, known⟩ := Numeral.natural_parts 10 n digits value
  have all : ∀ c ∈ digits, Reader.isDigit c = true := fun c member => Numeral.digit_decimal c (known c member)
  cases digits with
  | nil => exact absurd rfl filled
  | cons c more =>
      obtain ⟨digit, others⟩ := List.forall_mem_cons.mp all
      refine ⟨c, more, rfl, digit_visible c digit, ?_⟩
      intro rest apart
      have count : decimalLength true (c :: (more ++ rest)) - 1 = more.length := by
        rw [← List.cons_append, decimal_length (c :: more) rest all apart]
        rfl
      rw [first_number c _ digit, number_unmarked c _ (unmarked_digits more rest others apart), count, List.take_left,
        decimal_number (c :: more) n value fits]
      rfl

theorem radix_of_mark (mark : Char) (base : Nat) (marked : (mark, base) ∈ marks) : radix? mark = some base := by
  have each : ∀ pair ∈ marks, radix? pair.1 = some pair.2 := by decide
  exact each (mark, base) marked

theorem taken_based (mark : Char) (base : Nat) (digits : List Char) (n : Nat) (announced : radix? mark = some base)
    (value : Numeral.natural? base digits = some n) (fits : n ≤ Wide.greatest) :
    Taken (.int n) ('0' :: mark :: digits) := by
  have known := (Numeral.natural_parts base n digits value).2
  have parts : ∀ c ∈ digits, (c.isAlphanum || c == '_') = true := by
    intro c member
    simp [Numeral.digit_alphanumeric base c (known c member)]
  refine ⟨'0', mark :: digits, rfl, by decide, ?_⟩
  intro rest apart
  have taken : (digits ++ rest).takeWhile (fun d => d.isAlphanum || d == '_') = digits := by
    refine take_apart _ ?_ digits rest parts apart
    intro c blank
    simpa using Text.of_blank (fun c => !(c.isAlphanum || c == '_')) (by decide) c blank
  have whole : radixNumber base ('0' :: mark :: digits) = .ok (.int n) := by
    simp [radixNumber, without_underscores base digits known, Reader.integer_of_natural base n digits value fits]
  rw [first_number '0' _ rfl]
  simp [number, announced, taken, whole, Except.map]

theorem taken_spelled (t : Token) (spelling : List Char) (spelled : Spelled t spelling) : Taken t spelling := by
  cases spelled with
  | openParen => exact taken_mark .openParen '(' rfl fun _ _ => rfl
  | closeParen => exact taken_mark .closeParen ')' rfl fun _ _ => rfl
  | comma => exact taken_mark .comma ',' rfl fun _ _ => rfl
  | dot => exact taken_dot
  | op o => exact taken_operator o
  | name n named => exact taken_name n named
  | decimal digits n denotes fits =>
      exact taken_decimal spelling n (Numeral.natural_of_denotes 10 spelling n denotes) fits
  | based mark base digits n marked denotes fits =>
      have value := Numeral.natural_of_denotes base digits n denotes
      exact taken_based mark base digits n (radix_of_mark mark base marked) value fits
  | str quote s source mark quoted => exact taken_string quote s source mark quoted

theorem tokens_of_laid (tokens : List Token) (text : List Char) (laid : Laid tokens text) :
    ∀ position, ∃ placed, tokensFrom position text = .ok placed ∧ placed.map Placed.token = tokens ++ [.finish] := by
  induction laid with
  | nil =>
      intro position
      exact ⟨_, by rw [tokensFrom], rfl⟩
  | blank c tokens text blank laid ih =>
      intro position
      obtain ⟨placed, lexed, same⟩ := ih (position + c.utf8Size)
      exact ⟨placed, by rw [tokensFrom, if_pos blank, lexed], same⟩
  | token t tokens spelling text spelled apart laid ih =>
      intro position
      obtain ⟨c, more, begun, visible, found⟩ := taken_spelled t spelling spelled
      obtain ⟨placed, lexed, same⟩ := ih (position + width spelling)
      refine ⟨⟨t, position⟩ :: placed, ?_, by simp [same]⟩
      rw [begun] at lexed ⊢
      rw [List.cons_append, tokensFrom, if_neg (by simp [visible]), found text apart]
      simp [lexed, Except.map]

end SpaceLink.Lexer
