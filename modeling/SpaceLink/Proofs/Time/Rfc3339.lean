import SpaceLink.Proofs.Number.Digits
import SpaceLink.Proofs.Time.Calendar
import SpaceLink.Time.Rfc3339

/-!
Instants as text. A text has six digits of the second, and what is read from it is the instant cut to them.
-/

set_option autoImplicit false

namespace SpaceLink

namespace Instant

-- Whole microseconds.
def cut (t : Instant) : Instant := { t with nanos := t.nanos / 1000 * 1000 }

end Instant

theorem Date.year_of_days (days : Int) (low : 0 ≤ days) (high : days ≤ 1000000) :
    0 ≤ (ofDays days).year ∧ (ofDays days).year ≤ 9999 := by
  obtain ⟨era, year, day, early, inside, rfl⟩ := day_placed days
  have bounds : daysBefore year + day < 146097 := by
    unfold daysBefore at inside ⊢
    omega
  rw [of_days_march era year day early inside]
  simp only [ofMarch]
  split <;> omega

theorem Date.valid_parts (d : Date) (valid : d.isValid = true) : d.month ≤ 12 ∧ d.day ≤ 31 := by
  simp only [isValid, decide_eq_true_eq] at valid
  have most : daysIn d.year d.month ≤ 31 := by
    unfold daysIn
    split <;> split <;> omega
  omega

theorem Civil.back (t : Instant) (regular : t.nanos < Instant.nanosPerSecond) (nanos : Nat) :
    toInstant? { ofInstant t with nanos } 0 = some ⟨t.seconds, nanos⟩ := by
  obtain ⟨counted, valid⟩ := Date.days_back (t.seconds / 86400)
  have noLeap : decide (Instant.nanosPerSecond ≤ t.nanos) = false := by simpa using regular
  simp only [toInstant?, ofInstant, noLeap, valid, counted]
  have second : ¬ (t.seconds % 86400).toNat % 60 = 60 := by omega
  simp only [Bool.false_eq_true, if_false, Nat.add_zero, if_neg second]
  rw [if_pos ⟨trivial, by omega, by omega, by omega⟩]
  congr 2
  omega

namespace Rfc3339

theorem digits_padded (count n : Nat) (some : 0 < count) (fits : n < 10 ^ count) (rest : List Char) :
    digits? count (Numeral.padded 10 count n ++ rest) = .some (n, rest) := by
  have length := Numeral.length_padded 10 count n some fits
  have number := Numeral.natural_padded 10 (by decide) (by decide) count n
  simp only [digits?]
  rw [if_neg (by rw [List.length_append]; omega), List.take_left' length, List.drop_left' length, number]
  rfl

theorem padded_digits (count n : Nat) : ∀ c ∈ Numeral.padded 10 count n, (Numeral.digitValue? 10 c).isSome = true :=
  (Numeral.natural_parts 10 n _ (Numeral.natural_padded 10 (by decide) (by decide) count n)).2

theorem digit_plain (c : Char) (known : (Numeral.digitValue? 10 c).isSome = true) : c.isDigit = true := by
  refine Text.of_code (List.range' 48 10) Char.isDigit (by decide) c ?_
  have code := Numeral.digit_code 10 c known
  rw [List.mem_range'_1]
  omega

theorem fraction_padded (n : Nat) (fits : n < 10 ^ 6) (rest : List Char) (ends : ∀ c ∈ rest.head?, c.isDigit = false) :
    fraction? ('.' :: (Numeral.padded 10 6 n ++ rest)) = some (n * 1000, rest) := by
  have length := Numeral.length_padded 10 6 n (by decide) fits
  have number := Numeral.natural_padded 10 (by decide) (by decide) 6 n
  obtain ⟨own, behind⟩ := Text.run_over Char.isDigit _ rest ends fun c member => digit_plain c (padded_digits 6 n c member)
  simp only [fraction?, own, behind]
  rw [List.take_of_length_le (by omega), number, length]
  rfl

theorem bind_of_some {α β : Type} {found : Option α} {next : α → Option β} {a : α} (known : found = some a) :
    (found >>= next) = next a := known ▸ rfl

theorem mark_own (mark : Char) (rest : List Char) : mark? mark (mark :: rest) = some rest := by simp [mark?]

-- A date and a time of day that are written without a sign.
structure Plain (c : Civil) : Prop where
  year : 0 ≤ c.date.year ∧ c.date.year ≤ 9999
  month : c.date.month < 10 ^ 2
  day : c.date.day < 10 ^ 2
  hour : c.hour < 10 ^ 2
  minute : c.minute < 10 ^ 2
  second : c.second < 10 ^ 2
  nanos : c.nanos / 1000 < 10 ^ 6

theorem plain_of_instant (t : Instant) (regular : t.nanos < Instant.nanosPerSecond) (low : 0 ≤ t.seconds)
    (high : t.seconds < 86400000000) : Plain (Civil.ofInstant t) := by
  have parts := Date.valid_parts _ (Date.days_back (t.seconds / 86400)).2
  have noLeap : decide (Instant.nanosPerSecond ≤ t.nanos) = false := by simpa using regular
  simp only [Instant.nanosPerSecond] at regular
  constructor
  · exact Date.year_of_days (t.seconds / 86400) (by omega) (by omega)
  all_goals
    simp only [Civil.ofInstant, noLeap, Bool.false_eq_true, if_false]
    omega

-- The text that is written for the date and the time of day.
def text (c : Civil) : List Char :=
  Numeral.padded 10 4 c.date.year.natAbs ++ '-' :: (two c.date.month ++ '-' :: (two c.date.day ++
    'T' :: (two c.hour ++ ':' :: (two c.minute ++ ':' :: (two c.second ++
      '.' :: (Numeral.padded 10 6 (c.nanos / 1000) ++ ['Z']))))))

theorem render_text (t : Instant) (plain : Plain (Civil.ofInstant t)) : (render t).toList = text (Civil.ofInstant t) := by
  rw [render, String.toList_ofList, dateText, clockText, yearText, if_pos plain.year, text]
  simp only [List.append_assoc, List.cons_append]

theorem read_text (c : Civil) (plain : Plain c) :
    read? (text c) = Civil.toInstant? { c with nanos := c.nanos / 1000 * 1000 } 0 := by
  have year := digits_padded 4 c.date.year.natAbs (by decide) (by have bounds := plain.year; omega)
  have month := digits_padded 2 c.date.month (by decide) plain.month
  have day := digits_padded 2 c.date.day (by decide) plain.day
  have hour := digits_padded 2 c.hour (by decide) plain.hour
  have minute := digits_padded 2 c.minute (by decide) plain.minute
  have second := digits_padded 2 c.second (by decide) plain.second
  have fraction := fraction_padded (c.nanos / 1000) plain.nanos ['Z'] (by rintro c ⟨⟩; rfl)
  have offset : offset? ['Z'] = some (0, []) := rfl
  have same : (c.date.year.natAbs : Int) = c.date.year := by
    have bounds := plain.year
    omega
  rw [read?, text]
  refine (bind_of_some (year _)).trans ?_
  refine (bind_of_some (mark_own '-' _)).trans ?_
  refine (bind_of_some (month _)).trans ?_
  refine (bind_of_some (mark_own '-' _)).trans ?_
  refine (bind_of_some (day _)).trans ?_
  refine (bind_of_some rfl).trans ?_
  refine (bind_of_some (hour _)).trans ?_
  refine (bind_of_some (mark_own ':' _)).trans ?_
  refine (bind_of_some (minute _)).trans ?_
  refine (bind_of_some (mark_own ':' _)).trans ?_
  refine (bind_of_some (second _)).trans ?_
  refine (bind_of_some fraction).trans ?_
  refine (bind_of_some offset).trans ?_
  rw [same]
  rfl

theorem read_render (t : Instant) (regular : t.nanos < Instant.nanosPerSecond) (low : 0 ≤ t.seconds)
    (high : t.seconds < 86400000000) : read? (render t).toList = some t.cut := by
  have plain := plain_of_instant t regular low high
  have nanos : (Civil.ofInstant t).nanos = t.nanos := by
    have noLeap : decide (Instant.nanosPerSecond ≤ t.nanos) = false := by simpa using regular
    simp only [Civil.ofInstant, noLeap, Bool.false_eq_true, if_false]
  rw [render_text t plain, read_text _ plain, nanos]
  exact Civil.back t regular _

-- Digits and the signs between them.
def isPart (c : Char) : Bool := (Numeral.digitValue? 10 c).isSome || ['-', 'T', ':', '.', 'Z'].contains c

theorem text_parts (c : Civil) : ∀ part ∈ text c, isPart part = true := by
  have digits : ∀ count n, ∀ part ∈ Numeral.padded 10 count n, isPart part = true := fun count n part member => by
    simp [isPart, padded_digits count n part member]
  simp only [text, two, List.forall_mem_append, List.forall_mem_cons, List.not_mem_nil, false_implies, implies_true,
    and_true]
  refine ⟨digits _ _, ?_, digits _ _, ?_, digits _ _, ?_, digits _ _, ?_, digits _ _, ?_, digits _ _, ?_, digits _ _, ?_⟩
  all_goals decide

theorem part_unblank (c : Char) (part : isPart c = true) : Text.isBlank c = false := by
  cases blank : Text.isBlank c with
  | false => rfl
  | true =>
      have outside := Text.of_blank (fun c => !isPart c) (by decide +kernel) c blank
      simp [part] at outside

end Rfc3339

end SpaceLink
