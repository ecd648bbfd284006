import SpaceLink.Proofs.Event.Message

/-!
Integers in messages beside what `printf` makes of the same word. The text is the same one except in three cases: a zero
of precision zero, an octal number that is marked and filled with zeros up to its precision, and zeros up to the width
of a number that has a precision.
-/

set_option autoImplicit false

namespace SpaceLink

namespace Directive

def Style.isInteger : Style → Bool
  | .signed | .unsigned | .hex _ | .octal => true
  | _ => false

-- The rules of C for a word of 32 bits.
namespace Printf

variable (d : Directive)

def number (word : Nat) : Int :=
  match d.style with
  | .signed => (word : Int).bmod (2 ^ 32)
  | _ => word

def spelled (style : Style) (n : Nat) : List Char :=
  match style with
  | .hex true => (Nat.toDigits 16 n).map Char.toUpper
  | .hex false => Nat.toDigits 16 n
  | .octal => Nat.toDigits 8 n
  | _ => Nat.toDigits 10 n

-- A zero is made of the zeros in front alone.
def own (style : Style) (n : Nat) : List Char := if n = 0 then [] else spelled style n

def marksOctal : Bool := d.style == .octal && d.alternate

-- The precision is one if none is given, and is raised where an octal number would not start with a zero.
def least (count : Nat) : Nat :=
  let asked := d.precision.getD 1
  if marksOctal d then max asked (count + 1) else asked

def digits (n : Nat) : List Char :=
  let figures := own d.style n
  List.replicate (least d figures.length - figures.length) '0' ++ figures

def front (n : Int) : List Char :=
  match d.style with
  | .signed => if n < 0 then ['-'] else if d.plus then ['+'] else if d.space then [' '] else []
  | .hex upper => if d.alternate && n != 0 then ['0', if upper then 'X' else 'x'] else []
  | _ => []

-- A precision keeps the zeros of the flag away.
def filled (sign body : List Char) : List Char :=
  let gap := d.width - (sign ++ body).length
  if d.left then sign ++ body ++ List.replicate gap ' '
  else if d.zero && d.precision.isNone then sign ++ List.replicate gap '0' ++ body
  else List.replicate gap ' ' ++ sign ++ body

def text (word : Nat) : List Char :=
  filled d (front d (number d word)) (digits d (number d word).natAbs)

end Printf

-- The cases in which a directive does not follow those rules.
section Departing

variable (d : Directive) (word : Nat)

def DigitOfZero : Prop := word = 0 ∧ d.precision = some 0 ∧ Printf.marksOctal d = false

def ZeroOnTop : Prop :=
  word ≠ 0 ∧ (Nat.toDigits 8 word).length < d.precision.getD 0 ∧ Printf.marksOctal d = true

def ZeroFilled : Prop :=
  d.zero = true ∧ d.left = false ∧ d.precision.isSome = true ∧
    (Printf.front d (Printf.number d word) ++ Printf.digits d (Printf.number d word).natAbs).length < d.width

def Departs : Prop := d.DigitOfZero word ∨ d.ZeroOnTop word ∨ d.ZeroFilled word

end Departing

variable (d : Directive) (word : Nat)

-- The digits of the text, with the mark of an octal number.
def shownDigits : List Char :=
  (if Printf.marksOctal d && word != 0 then ['0'] else []) ++
    d.leastDigits (Printf.spelled d.style (Printf.number d word).natAbs)

-- A zero between the sign and the digits may stand on either side of the zeros up to the width.
theorem pad_zero (body : List Char) : d.pad ['0'] body true = d.pad [] ('0' :: body) true := by
  have moved : ∀ gap, '0' :: (List.replicate gap '0' ++ body) = List.replicate gap '0' ++ '0' :: body := by
    intro gap
    rw [← List.cons_append, ← List.replicate_succ, List.replicate_succ', List.append_assoc]
    rfl
  have length : ([] : List Char).length + ('0' :: body).length = ['0'].length + body.length := by
    rw [List.length_nil, List.length_cons, List.length_singleton, Nat.zero_add, Nat.add_comm]
  simp only [pad, length]
  split
  · rfl
  · split
    · exact moved _
    · simp

theorem signed_number (style : d.style = .signed) (small : word < 2 ^ 32) :
    Printf.number d word = if 2 ^ 31 ≤ word then (word : Int) - 2 ^ 32 else (word : Int) := by
  simp only [Printf.number, style]
  rw [Int.bmod]
  split <;> split <;> omega

theorem number_zero_iff (small : word < 2 ^ 32) : (Printf.number d word).natAbs = 0 ↔ word = 0 := by
  unfold Printf.number
  split
  · rw [Int.bmod]
    omega
  · omega

theorem signed_text (style : d.style = .signed) (small : word < 2 ^ 32) :
    d.signedText word = d.pad (Printf.front d (Printf.number d word)) (d.shownDigits word) true := by
  have value := d.signed_number word style small
  have size : (Printf.number d word).natAbs = if 2 ^ 31 ≤ word then 2 ^ 32 - word else word := by
    rw [value]
    split <;> omega
  have negative : Printf.number d word < 0 ↔ 2 ^ 31 ≤ word := by
    rw [value]
    split <;> omega
  have unmarked : Printf.marksOctal d = false := by simp [Printf.marksOctal, style]
  simp only [signedText, shownDigits, unmarked, size, Printf.front, style, negative, Printf.spelled, sign, decide_eq_true_eq,
    Bool.false_and, Bool.false_eq_true, if_false, List.nil_append, Numeral.digits_of_library 10 (by decide) (by decide)]

theorem unsigned_text (style : d.style = .unsigned) :
    d.unsignedText word = d.pad (Printf.front d (Printf.number d word)) (d.shownDigits word) true := by
  have unmarked : Printf.marksOctal d = false := by simp [Printf.marksOctal, style]
  simp [unsignedText, shownDigits, unmarked, Printf.number, Printf.front, Printf.spelled, style,
    Numeral.digits_of_library 10 (by decide) (by decide)]

theorem hex_text (upper : Bool) (style : d.style = .hex upper) :
    d.radixText 16 upper (if upper then ['0', 'X'] else ['0', 'x']) word =
      d.pad (Printf.front d (Printf.number d word)) (d.shownDigits word) true := by
  have unmarked : Printf.marksOctal d = false := by simp [Printf.marksOctal, style]
  cases upper <;>
    simp [radixText, upperCase, shownDigits, unmarked, Printf.number, Printf.front, Printf.spelled, style,
      Numeral.digits_of_library 16 (by decide) (by decide)]

theorem octal_text (style : d.style = .octal) :
    d.radixText 8 false ['0'] word = d.pad (Printf.front d (Printf.number d word)) (d.shownDigits word) true := by
  have marked : Printf.marksOctal d = d.alternate := by simp [Printf.marksOctal, style]
  have plain : Printf.front d (Printf.number d word) = [] := by simp only [Printf.front, style]
  have size : (Printf.number d word).natAbs = word := by simp [Printf.number, style]
  rw [plain]
  simp only [radixText, upperCase, shownDigits, marked, size, Printf.spelled, style,
    Numeral.digits_of_library 8 (by decide) (by decide)]
  split
  · exact d.pad_zero _
  · rfl

theorem integer_text (integer : d.style.isInteger = true) (small : word < 2 ^ 32) :
    d.wordText word = d.pad (Printf.front d (Printf.number d word)) (d.shownDigits word) true := by
  unfold wordText
  cases style : d.style with
  | signed => exact d.signed_text word style small
  | unsigned => exact d.unsigned_text word style
  | hex upper => exact d.hex_text word upper style
  | octal => exact d.octal_text word style
  | text => rw [style] at integer; cases integer
  | character => rw [style] at integer; cases integer
  | fixed upper => rw [style] at integer; cases integer
  | exponent upper => rw [style] at integer; cases integer
  | general upper => rw [style] at integer; cases integer

theorem spelled_zero (style : Style) : Printf.spelled style 0 = ['0'] := by
  unfold Printf.spelled
  split <;> decide

theorem spelled_filled (style : Style) (n : Nat) : 0 < (Printf.spelled style n).length := by
  unfold Printf.spelled
  split
  · rw [List.length_map]
    exact Nat.length_toDigits_pos
  · exact Nat.length_toDigits_pos
  · exact Nat.length_toDigits_pos
  · exact Nat.length_toDigits_pos

-- How many zeros stand in front of a number's own digits.
def zeros : Nat :=
  if word = 0 then max 1 (d.precision.getD 0)
  else (Printf.marksOctal d).toNat + (d.precision.getD 0 - (Printf.own d.style (Printf.number d word).natAbs).length)

theorem shown_digits_zeros (small : word < 2 ^ 32) :
    d.shownDigits word = List.replicate (d.zeros word) '0' ++ Printf.own d.style (Printf.number d word).natAbs := by
  have size := d.number_zero_iff word small
  by_cases zero : word = 0
  · have count : d.precision.getD 0 - 1 + 1 = max 1 (d.precision.getD 0) := by omega
    subst zero
    have none := size.mpr rfl
    simp only [shownDigits, leastDigits, zeros, Printf.own, none, spelled_zero, if_true, List.append_nil, bne_self_eq_false,
      Bool.and_false, Bool.false_eq_true, if_false, List.nil_append]
    rw [← count, List.replicate_succ']
    rfl
  · have same : Printf.own d.style (Printf.number d word).natAbs = Printf.spelled d.style (Printf.number d word).natAbs :=
      if_neg fun none => zero (size.mp none)
    rw [shownDigits, leastDigits, zeros, if_neg zero, same, ← List.replicate_append_replicate, List.append_assoc]
    cases Printf.marksOctal d with
    | false => rfl
    | true => simp [zero]

theorem own_octal (marked : Printf.marksOctal d = true) (some : word ≠ 0) :
    Printf.own d.style (Printf.number d word).natAbs = Nat.toDigits 8 word := by
  simp only [Printf.marksOctal, Bool.and_eq_true, beq_iff_eq] at marked
  simp [Printf.own, Printf.number, Printf.spelled, marked.1, some]

theorem zeros_of_zero :
    Printf.least d 0 ≤ d.zeros 0 ∧ (Printf.least d 0 < d.zeros 0 ↔ d.precision = some 0 ∧ Printf.marksOctal d = false) := by
  rw [zeros, if_pos rfl, Printf.least]
  cases d.precision with
  | none => cases Printf.marksOctal d <;> simp
  | some asked =>
      cases Printf.marksOctal d with
      | false =>
          simp only [Bool.false_eq_true, if_false, Option.getD_some, Option.some.injEq, and_true]
          omega
      | true =>
          simp only [if_true, Option.getD_some, Option.some.injEq, Bool.true_eq_false, and_false, iff_false]
          omega

theorem zeros_of_positive (positive : word ≠ 0) (count : Nat) (some : 0 < count)
    (length : (Printf.own d.style (Printf.number d word).natAbs).length = count) :
    Printf.least d count - count ≤ d.zeros word ∧
      (Printf.least d count - count < d.zeros word ↔ count < d.precision.getD 0 ∧ Printf.marksOctal d = true) := by
  have asked : d.precision.getD 1 - count = d.precision.getD 0 - count := by
    cases d.precision with
    | none => exact (Nat.sub_eq_zero_of_le some).trans (Nat.zero_sub count).symm
    | some asked => rfl
  rw [zeros, if_neg positive, length, Printf.least]
  cases Printf.marksOctal d with
  | false => simp [asked]
  | true =>
      simp only [if_true, Bool.toNat_true, and_true]
      omega

-- There are never too few zeros.
theorem zeros_enough (small : word < 2 ^ 32) :
    let count := (Printf.own d.style (Printf.number d word).natAbs).length
    Printf.least d count - count ≤ d.zeros word ∧
      (Printf.least d count - count < d.zeros word ↔ d.DigitOfZero word ∨ d.ZeroOnTop word) := by
  intro count
  have size := d.number_zero_iff word small
  by_cases zero : word = 0
  · have none : count = 0 := by simp [count, Printf.own, size.mpr zero]
    subst zero
    rw [none]
    simpa [DigitOfZero, ZeroOnTop] using d.zeros_of_zero
  · have some : 0 < count := by
      simp only [count, Printf.own, mt size.mp zero, if_false]
      exact spelled_filled d.style _
    obtain ⟨enough, more⟩ := d.zeros_of_positive word zero count some rfl
    refine ⟨enough, more.trans ⟨?_, ?_⟩⟩
    · rintro ⟨short, marked⟩
      exact .inr ⟨zero, by rwa [← d.own_octal word marked zero], marked⟩
    · rintro (⟨empty, _⟩ | ⟨_, short, marked⟩)
      · exact absurd empty zero
      · exact ⟨by rwa [← d.own_octal word marked zero] at short, marked⟩

-- Both fill up to the width in one way, except with zeros.
section Filling

variable (sign body : List Char)

theorem filled_zeros (precise : d.precision.isSome = true) :
    (Printf.filled d sign body).count '0' = (sign ++ body).count '0' := by
  have unfilled : d.precision.isNone = false := by rw [← Option.not_isSome, precise]; rfl
  unfold Printf.filled
  simp only [unfilled, Bool.and_false, Bool.false_eq_true, if_false]
  split <;> simp [List.count_replicate]

theorem padded_zeros : (sign ++ body).count '0' ≤ (d.pad sign body true).count '0' := by
  unfold pad
  split
  · simp
  · split
    · simp only [List.count_append]
      omega
    · simp

theorem zero_padded (zero : d.zero = true) (right : d.left = false) :
    (d.pad sign body true).count '0' = (sign ++ body).count '0' + (d.width - (sign ++ body).length) := by
  simp [pad, zero, right]
  omega

theorem padded_iff :
    d.pad sign body true = Printf.filled d sign body ↔
      ¬ (d.zero = true ∧ d.left = false ∧ d.precision.isSome = true ∧ (sign ++ body).length < d.width) := by
  constructor
  · rintro same ⟨zero, right, precise, short⟩
    have more := d.zero_padded sign body zero right
    rw [same, d.filled_zeros sign body precise] at more
    omega
  · intro kept
    simp only [pad, Printf.filled, ← List.length_append]
    cases left : d.left with
    | true => rfl
    | false =>
        cases zero : d.zero with
        | false => rfl
        | true =>
            cases precise : d.precision with
            | none => rfl
            | some least =>
                have full : d.width - (sign ++ body).length = 0 :=
                  Nat.sub_eq_zero_of_le (Nat.le_of_not_lt fun short => kept ⟨zero, left, by rw [precise]; rfl, short⟩)
                rw [full]
                simp

end Filling

theorem precision_of_more (more : d.DigitOfZero word ∨ d.ZeroOnTop word) : d.precision.isSome = true := by
  rcases more with ⟨_, bare, _⟩ | ⟨_, short, _⟩
  · rw [bare]
    rfl
  · cases precise : d.precision with
    | none => simp [precise] at short
    | some least => rfl

theorem integer_printed_iff (integer : d.style.isInteger = true) (small : word < 2 ^ 32) :
    d.wordText word = Printf.text d word ↔ ¬ d.Departs word := by
  obtain ⟨enough, more⟩ := d.zeros_enough word small
  rw [d.integer_text word integer small, d.shown_digits_zeros word small]
  rcases Nat.lt_or_eq_of_le enough with fewer | same
  · have departs := more.mp fewer
    have precise := d.precision_of_more word departs
    refine iff_of_false (fun printed => ?_) (fun kept => kept (departs.imp_right .inl))
    have padded := d.padded_zeros (Printf.front d (Printf.number d word))
      (List.replicate (d.zeros word) '0' ++ Printf.own d.style (Printf.number d word).natAbs)
    rw [printed, Printf.text, d.filled_zeros _ _ precise] at padded
    simp only [Printf.digits, List.count_append, List.count_replicate_self] at padded
    omega
  · have neither := mt more.mpr (Nat.not_lt_of_le (Nat.le_of_eq same.symm))
    rw [← same]
    refine (d.padded_iff _ (Printf.digits d (Printf.number d word).natAbs)).trans (not_congr ?_)
    rw [Departs, ← or_assoc, or_iff_right neither]
    rfl

theorem shown_integer (integer : d.style.isInteger = true) (own : Bytes) : d.shown own = d.wordText (Bytes.ofBig own) := by
  unfold shown
  cases style : d.style <;> rw [style] at integer <;> first | rfl | cases integer

theorem input_integer (style : Style) (integer : style.isInteger = true) (own : Bytes) (four : own.length = 4) :
    style.Input own := by
  cases style <;> first | exact four | cases integer

end Directive

namespace Message

theorem integer_rendered (s : Directive.Spelling) (integer : s.style.isInteger = true) (own more : Bytes)
    (four : own.length = 4) :
    render (written [.directive s]) (own ++ more) = .ok (String.ofList (s.directive.wordText (Bytes.ofBig own))) := by
  have input := Directive.input_integer s.style integer own four
  rw [render_of_takes _ _ [own] (.directive s [] own more [] input (.done more))]
  rw [interleaved, interleaved, List.append_nil, s.directive.shown_integer integer]

-- A directive is printed as in C exactly where it is none of the three cases.
theorem integer_directive_printed (s : Directive.Spelling) (integer : s.style.isInteger = true) (own more : Bytes)
    (four : own.length = 4) :
    ∃ text, render (written [.directive s]) (own ++ more) = .ok (String.ofList text) ∧
      (text = Directive.Printf.text s.directive (Bytes.ofBig own) ↔ ¬ s.directive.Departs (Bytes.ofBig own)) := by
  have small := Bytes.of_big_lt own
  rw [four] at small
  exact ⟨_, integer_rendered s integer own more four, s.directive.integer_printed_iff _ integer small⟩

-- The directive `%05i` and the word of -7.
theorem negative_printed :
    let five : Directive.Figures := ⟨['5'], 5, .digit '5' 5 (by decide) (.inl rfl), by decide⟩
    let s : Directive.Spelling :=
      { Directive.Spelling.bare 'i' .signed rfl with
        flags := ['0'], width := some five, flagged := by simp [Directive.isFlag], unflagged := by simp [five] }
    s.style.isInteger = true ∧ ([255, 255, 255, 249] : Bytes).length = 4 ∧ written [.directive s] = "%05i" ∧
      render (written [.directive s]) [255, 255, 255, 249] = .ok "-0007" ∧
      Directive.Printf.text s.directive (Bytes.ofBig [255, 255, 255, 249]) = "-0007".toList := by
  intro five s
  have kept : ¬ s.directive.Departs (Bytes.ofBig [255, 255, 255, 249]) := by
    rintro (⟨zero, _⟩ | ⟨_, short, _⟩ | ⟨_, _, precise, _⟩)
    · exact absurd zero (by decide)
    · cases short
    · cases precise
  have printed : Directive.Printf.text s.directive (Bytes.ofBig [255, 255, 255, 249]) = "-0007".toList := by decide
  obtain ⟨text, rendered, same⟩ := integer_directive_printed s rfl [255, 255, 255, 249] [] rfl
  refine ⟨rfl, rfl, by decide, ?_, printed⟩
  rw [same.mpr kept, printed, String.ofList_toList, List.append_nil] at rendered
  exact rendered

-- The directives `%05.2d`, `%.d` and `%#.3o` with the words of 7, 0 and 7.
theorem precision_departs :
    let two : Directive.Figures := ⟨['2'], 2, .digit '2' 2 (by decide) (.inl rfl), by decide⟩
    let five : Directive.Figures := ⟨['5'], 5, .digit '5' 5 (by decide) (.inl rfl), by decide⟩
    let three : Directive.Figures := ⟨['3'], 3, .digit '3' 3 (by decide) (.inl rfl), by decide⟩
    let filled : Directive.Spelling :=
      { Directive.Spelling.bare 'd' .signed rfl with
        flags := ['0'], width := some five, precision := some (some two), flagged := by simp [Directive.isFlag],
        unflagged := by simp [five] }
    let empty : Directive.Spelling := { Directive.Spelling.bare 'd' .signed rfl with precision := some none }
    let octal : Directive.Spelling :=
      { Directive.Spelling.bare 'o' .octal rfl with
        flags := ['#'], precision := some (some three), flagged := by simp [Directive.isFlag] }
    (written [.directive filled] = "%05.2d" ∧ render (written [.directive filled]) [0, 0, 0, 7] = .ok "00007" ∧
      Directive.Printf.text filled.directive 7 = "   07".toList) ∧
    (written [.directive empty] = "%.d" ∧ render (written [.directive empty]) [0, 0, 0, 0] = .ok "0" ∧
      Directive.Printf.text empty.directive 0 = []) ∧
    (written [.directive octal] = "%#.3o" ∧ render (written [.directive octal]) [0, 0, 0, 7] = .ok "0007" ∧
      Directive.Printf.text octal.directive 7 = "007".toList) := by
  intro two five three filled empty octal
  have rendered : ∀ (s : Directive.Spelling) (own : Bytes) (text : String), s.style.isInteger = true → own.length = 4 →
      s.directive.pad (Directive.Printf.front s.directive (Directive.Printf.number s.directive (Bytes.ofBig own)))
        (s.directive.shownDigits (Bytes.ofBig own)) true = text.toList →
      render (written [.directive s]) own = .ok text := by
    intro s own text integer four same
    have small := Bytes.of_big_lt own
    rw [four] at small
    have all := integer_rendered s integer own [] four
    rwa [List.append_nil, s.directive.integer_text _ integer small, same, String.ofList_toList] at all
  refine ⟨⟨by decide, ?_, by decide⟩, ⟨by decide, ?_, by decide⟩, by decide, ?_, by decide⟩
  · exact rendered filled [0, 0, 0, 7] "00007" rfl rfl (by decide)
  · exact rendered empty [0, 0, 0, 0] "0" rfl rfl (by decide)
  · exact rendered octal [0, 0, 0, 7] "0007" rfl rfl (by decide)

end Message

end SpaceLink
