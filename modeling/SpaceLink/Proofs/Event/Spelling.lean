import SpaceLink.Event.Message
import SpaceLink.Proofs.Number.Digits

/-!
How the directives of a message are written: behind the percent sign an argument number, flags, a width, a precision,
size letters and the letter of a style. What is written is read as the directive it stands for, whatever follows.
-/

set_option autoImplicit false

namespace SpaceLink

namespace Directive

-- Decimal digits and the number that they denote.
structure Figures where
  digits : List Char
  number : Nat
  denotes : Numeral.Denotes 10 digits number
  short : number < 65536

structure Spelling where
  argument : Option Figures
  flags : List Char
  width : Option Figures
  -- A point, behind which the digits may be missing.
  precision : Option (Option Figures)
  sizes : List Char
  letter : Char
  style : Style
  flagged : ∀ c ∈ flags, isFlag c = true
  unflagged : ∀ w ∈ width, ∀ c ∈ w.digits.head?, c ≠ '0'
  sized : ∀ c ∈ sizes, isSize c = true
  lettered : Style.ofLetter? letter = some style

namespace Figures

def text (n : Option Figures) : List Char := (n.map digits).getD []

def value (n : Option Figures) : Nat := (n.map number).getD 0

theorem numeral (n : Figures) : numeral? n.digits = some n.number := by
  have small : n.number < 2 ^ 64 := Nat.lt_trans n.short (by decide)
  simp [numeral?, Numeral.natural_of_denotes 10 n.digits n.number n.denotes, small]

theorem figures (n : Figures) : ∀ c ∈ n.digits, Reader.isDigit c = true := by
  have known := Numeral.natural_parts 10 n.number n.digits (Numeral.natural_of_denotes 10 n.digits n.number n.denotes)
  exact fun c member => Numeral.digit_decimal c (known.2 c member)

theorem text_figures (n : Option Figures) : ∀ c ∈ text n, Reader.isDigit c = true := by
  cases n with
  | none => exact fun c member => nomatch member
  | some n => exact n.figures

theorem numeral_text (n : Option Figures) : (numeral? (text n)).getD 0 = value n := by
  cases n with
  | none => rfl
  | some n => exact congrArg (Option.getD · 0) n.numeral

end Figures

namespace Spelling

def argumentText (s : Spelling) : List Char :=
  match s.argument with
  | none => []
  | some n => n.digits ++ ['$']

def precisionText (s : Spelling) : List Char :=
  match s.precision with
  | none => []
  | some n => '.' :: Figures.text n

-- Behind the percent sign.
def text (s : Spelling) : List Char :=
  s.argumentText ++ (s.flags ++ (Figures.text s.width ++ (s.precisionText ++ (s.sizes ++ [s.letter]))))

def directive (s : Spelling) : Directive where
  left := s.flags.contains '-'
  plus := s.flags.contains '+'
  space := s.flags.contains ' '
  zero := s.flags.contains '0'
  alternate := s.flags.contains '#'
  width := Figures.value s.width
  precision := s.precision.map Figures.value
  style := s.style

-- Only the letter.
def bare (letter : Char) (style : Style) (lettered : Style.ofLetter? letter = some style) : Spelling where
  argument := none
  flags := []
  width := none
  precision := none
  sizes := []
  letter
  style
  flagged := by simp
  unflagged := by simp
  sized := by simp
  lettered

end Spelling

def letters : List Char := ['s', 'c', 'd', 'i', 'u', 'x', 'X', 'o', 'f', 'F', 'e', 'E', 'g', 'G']

theorem letter_of_style (c : Char) (style : Style) (known : Style.ofLetter? c = some style) : c ∈ letters := by
  unfold Style.ofLetter? at known
  split at known
  all_goals first | decide | cases known

def sizeLetters : List Char := ['h', 'l', 'L']

theorem size_letter (c : Char) (size : isSize c = true) : c ∈ sizeLetters := by
  simpa [isSize, sizeLetters, or_assoc] using size

theorem flag_sign (c : Char) (flag : isFlag c = true) : c ∈ ['-', '+', ' ', '0', '#'] := by
  simpa [isFlag, or_assoc] using flag

theorem digit_unflagged (c : Char) (digit : Reader.isDigit c = true) (other : c ≠ '0') : isFlag c = false := by
  cases flag : isFlag c with
  | false => rfl
  | true =>
      have sign := flag_sign c flag
      simp only [List.mem_cons, List.not_mem_nil, or_false] at sign
      rcases sign with rfl | rfl | rfl | rfl | rfl
      all_goals first | exact absurd rfl other | cases digit

namespace Spelling

variable (s : Spelling) (rest : List Char)

-- What stands at the start of each part of a directive, for the kinds of characters that it is cut by.
section Heads

variable (part : Char → Bool) (noLetter : letters.any part = false)

include noLetter

theorem letter_head : ∀ c ∈ (s.letter :: rest).head?, part c = false := by
  intro c first
  cases first
  exact eq_false_of_ne_true (List.any_eq_false.mp noLetter s.letter (letter_of_style s.letter s.style s.lettered))

theorem sizes_head (noSize : sizeLetters.any part = false) :
    ∀ c ∈ (s.sizes ++ s.letter :: rest).head?, part c = false := by
  refine Text.head_over part _ _ (s.letter_head rest part noLetter) ?_
  intro c first
  have size := size_letter c (s.sized c (List.mem_of_mem_head? first))
  exact eq_false_of_ne_true (List.any_eq_false.mp noSize c size)

theorem precision_head (noSize : sizeLetters.any part = false) (noPoint : part '.' = false) :
    ∀ c ∈ (s.precisionText ++ (s.sizes ++ s.letter :: rest)).head?, part c = false := by
  refine Text.head_over part _ _ (s.sizes_head rest part noLetter noSize) ?_
  intro c first
  simp only [precisionText] at first
  split at first
  · cases first
  · cases first
    exact noPoint

end Heads

theorem width_head : ∀ c ∈ (Figures.text s.width ++ (s.precisionText ++ (s.sizes ++ s.letter :: rest))).head?,
    isFlag c = false := by
  refine Text.head_over isFlag _ _ (s.precision_head rest isFlag (by decide) (by decide) (by decide)) ?_
  intro c first
  cases width : s.width with
  | none =>
      rw [width] at first
      cases first
  | some w =>
      rw [width] at first
      exact digit_unflagged c (w.figures c (List.mem_of_mem_head? first)) (s.unflagged w width c first)

theorem flags_taken :
    (s.flags ++ (Figures.text s.width ++ (s.precisionText ++ (s.sizes ++ s.letter :: rest)))).takeWhile isFlag = s.flags :=
  (Text.run_over isFlag _ _ (s.width_head rest) s.flagged).1

theorem width_taken :
    (Figures.text s.width ++ (s.precisionText ++ (s.sizes ++ s.letter :: rest))).takeWhile Reader.isDigit =
      Figures.text s.width :=
  (Text.run_over Reader.isDigit _ _ (s.precision_head rest Reader.isDigit (by decide) (by decide) (by decide))
    (Figures.text_figures s.width)).1

theorem precision_taken :
    precisionPart (s.precisionText ++ (s.sizes ++ s.letter :: rest)) =
      (s.directive.precision, s.precisionText.length) := by
  have digits := s.sizes_head rest Reader.isDigit (by decide) (by decide)
  have point := s.sizes_head rest (· == '.') (by decide) (by decide)
  simp only [precisionText, directive]
  cases s.precision with
  | none =>
      simp only [List.nil_append, Option.map_none, List.length_nil]
      unfold precisionPart
      split
      · rename_i more same
        rw [same] at point
        cases point '.' rfl
      · rfl
  | some n =>
      have run := (Text.run_over Reader.isDigit _ _ digits (Figures.text_figures n)).1
      simp only [List.cons_append, precisionPart, run, Figures.numeral_text, Option.map_some, List.length_cons]

theorem sizes_taken : (s.sizes ++ s.letter :: rest).takeWhile isSize = s.sizes :=
  (Text.run_over isSize _ _ (s.letter_head rest isSize (by decide)) s.sized).1

-- Digits at the start of a directive without an argument number end before any dollar sign.
theorem unnumbered (own : List Char) (plain : ∀ c ∈ own, c ≠ '$') :
    ∀ c ∈ ((own ++ s.letter :: rest).dropWhile Reader.isDigit).head?, c ≠ '$' := by
  have noDigit := s.letter_head rest Reader.isDigit (by decide) s.letter rfl
  have noDollar := s.letter_head rest (· == '$') (by decide) s.letter rfl
  induction own with
  | nil =>
      rw [List.nil_append, List.dropWhile_cons_of_neg (by simp [noDigit])]
      intro c first
      cases first
      exact ne_of_beq_false noDollar
  | cons c more ih =>
      rw [List.cons_append, List.dropWhile_cons]
      split
      · exact ih fun d member => plain d (List.mem_cons_of_mem c member)
      · intro d first
        cases first
        exact plain c List.mem_cons_self

theorem text_append : s.text ++ rest =
    s.argumentText ++ (s.flags ++ (Figures.text s.width ++ (s.precisionText ++ (s.sizes ++ s.letter :: rest)))) := by
  simp [text]

theorem plain_parts : ∀ c ∈ s.flags ++ (Figures.text s.width ++ (s.precisionText ++ s.sizes)), c ≠ '$' := by
  have flag := Text.ne_of_holds isFlag
  have digit := Text.ne_of_holds Reader.isDigit
  have size := Text.ne_of_holds isSize
  intro c member
  simp only [List.mem_append] at member
  rcases member with flags | width | precision | sizes
  · exact flag c '$' (s.flagged c flags) (by decide)
  · exact digit c '$' (Figures.text_figures s.width c width) (by decide)
  · simp only [precisionText] at precision
    split at precision
    · cases precision
    · rcases List.mem_cons.mp precision with rfl | digits
      · decide
      · exact digit c '$' (Figures.text_figures _ c digits) (by decide)
  · exact size c '$' (s.sized c sizes) (by decide)

theorem argument_taken : argumentLength (s.text ++ rest) = s.argumentText.length := by
  rw [s.text_append]
  cases numbered : s.argument with
  | none =>
      have bare : s.argumentText = [] := by simp only [argumentText, numbered]
      have ends := s.unnumbered rest _ s.plain_parts
      rw [bare, List.nil_append]
      simp only [List.append_assoc] at ends
      generalize s.flags ++ (Figures.text s.width ++ (s.precisionText ++ (s.sizes ++ s.letter :: rest))) = own at ends ⊢
      have behind : own.drop (own.takeWhile Reader.isDigit).length = own.dropWhile Reader.isDigit := by
        conv => lhs; rhs; rw [← List.takeWhile_append_dropWhile (p := Reader.isDigit) (l := own)]
        exact List.drop_left
      simp only [argumentLength, behind]
      rw [if_neg]
      · rfl
      · simp only [Bool.and_eq_true, beq_iff_eq, not_and]
        exact fun _ dollar => ends '$' dollar rfl
  | some n =>
      have spelled : s.argumentText = n.digits ++ ['$'] := by simp only [argumentText, numbered]
      rw [spelled, List.append_assoc]
      generalize s.flags ++ (Figures.text s.width ++ (s.precisionText ++ (s.sizes ++ s.letter :: rest))) = own
      have run := (Text.run_over Reader.isDigit n.digits ('$' :: own) (fun c first => by cases first; decide) n.figures).1
      simp [argumentLength, run, n.numeral]

theorem read_spelled : read? (s.text ++ rest) = some (s.directive, s.text.length) := by
  have argument := s.argument_taken rest
  have behind : (s.text ++ rest).drop s.argumentText.length =
      s.flags ++ (Figures.text s.width ++ (s.precisionText ++ (s.sizes ++ s.letter :: rest))) := by
    rw [s.text_append, List.drop_left]
  simp only [read?, argument, behind, flags_taken, List.drop_left, width_taken, precision_taken, sizes_taken, s.lettered,
    Option.map_some, Figures.numeral_text]
  congr 2
  simp [text]
  omega

end Spelling

end Directive

end SpaceLink
