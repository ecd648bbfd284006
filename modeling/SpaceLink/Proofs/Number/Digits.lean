import SpaceLink.Proofs.Text.Blank
import SpaceLink.Value.Reader

/-!
Numerals by place value. Their characters are figures and letters, with no sign in front, and what is read from
them is the number they denote. The text of an integer is read as that integer.
-/

set_option autoImplicit false

namespace SpaceLink

namespace Numeral

def small : List Char := "0123456789abcdef".toList

def capital : List Char := "0123456789ABCDEF".toList

-- The number that digits of a base denote; each digit is in one of the two alphabets where it is worth its place.
inductive Denotes (base : Nat) : List Char → Nat → Prop
  | digit (c : Char) (d : Nat) (below : d < base) (shown : small[d]? = some c ∨ capital[d]? = some c) :
      Denotes base [c] d
  | next (front : List Char) (n : Nat) (c : Char) (d : Nat) (digits : Denotes base front n) (below : d < base)
      (shown : small[d]? = some c ∨ capital[d]? = some c) : Denotes base (front ++ [c]) (n * base + d)

theorem value_of_shown (base : Nat) (c : Char) (d : Nat) (below : d < base)
    (shown : small[d]? = some c ∨ capital[d]? = some c) : digitValue? base c = some d := by
  have each : ∀ alphabet ∈ [small, capital], ∀ pair ∈ alphabet.zipIdx, digitValue? 16 pair.1 = some pair.2 := by decide
  have known : digitValue? 16 c = some d := by
    rcases shown with found | found
    · exact each small (by simp) (c, d) (List.mem_zipIdx_iff_getElem?.mpr found)
    · exact each capital (by simp) (c, d) (List.mem_zipIdx_iff_getElem?.mpr found)
  simp only [digitValue?, Option.filter_eq_some_iff] at known ⊢
  exact ⟨known.1, by simpa using below⟩

theorem value_append (base : Nat) (front : List Char) (c : Char) (acc n d : Nat) (value : value? base front acc = some n)
    (digit : digitValue? base c = some d) : value? base (front ++ [c]) acc = some (n * base + d) := by
  induction front generalizing acc with
  | nil =>
      cases value
      simp [value?, digit]
  | cons first rest ih =>
      obtain ⟨e, same, others⟩ := Option.bind_eq_some_iff.mp value
      simp only [List.cons_append, value?, same]
      exact ih (acc * base + e) others

theorem natural_of_denotes (base : Nat) (text : List Char) (n : Nat) (denotes : Denotes base text n) :
    natural? base text = some n := by
  have value : value? base text 0 = some n := by
    induction denotes with
    | digit c d below shown => simp [value?, value_of_shown base c d below shown]
    | next front n c d digits below shown ih =>
        exact value_append base front c 0 n d ih (value_of_shown base c d below shown)
  have filled : text.isEmpty = false := by cases denotes <;> simp
  simp [natural?, filled, value]

theorem denoted (base : Nat) (two : 2 ≤ base) (letters : base ≤ 16) (n : Nat) : ∃ text, Denotes base text n := by
  have shown : ∀ d, d < base → ∃ c, small[d]? = some c := by
    intro d below
    have inside : d < small.length := Nat.lt_of_lt_of_le below letters
    exact ⟨small[d], List.getElem?_eq_getElem inside⟩
  induction n using Nat.strongRecOn with
  | _ n ih =>
      by_cases last : n < base
      · obtain ⟨c, own⟩ := shown n last
        exact ⟨_, .digit c n last (.inl own)⟩
      · obtain ⟨front, digits⟩ := ih (n / base) (Nat.div_lt_self (by omega) two)
        have below := Nat.mod_lt n (show 0 < base by omega)
        obtain ⟨c, own⟩ := shown (n % base) below
        have whole := Denotes.next front (n / base) c (n % base) digits below (.inl own)
        rw [Nat.div_add_mod'] at whole
        exact ⟨_, whole⟩

theorem digits_of_value (base : Nat) (text : List Char) (acc n : Nat) (value : value? base text acc = some n) :
    ∀ c ∈ text, (digitValue? base c).isSome = true := by
  induction text generalizing acc with
  | nil => simp
  | cons first rest ih =>
      obtain ⟨d, digit, others⟩ := Option.bind_eq_some_iff.mp value
      rw [List.forall_mem_cons]
      exact ⟨by simp [digit], ih (acc * base + d) others⟩

theorem natural_parts (base n : Nat) (text : List Char) (value : natural? base text = some n) :
    text ≠ [] ∧ ∀ c ∈ text, (digitValue? base c).isSome = true := by
  unfold natural? at value
  by_cases empty : text.isEmpty = true
  · rw [if_pos empty] at value
    cases value
  · rw [if_neg empty] at value
    exact ⟨by simpa using empty, digits_of_value base text 0 n value⟩

-- A digit of any base is a figure or a letter; of a base up to ten, a figure.
theorem digit_code (base : Nat) (c : Char) (known : (digitValue? base c).isSome = true) :
    48 ≤ c.toNat ∧ c.toNat ≤ 57 ∧ c.toNat < 48 + base ∨ 97 ≤ c.toNat ∧ c.toNat ≤ 122 ∧ c.toNat < 87 + base ∨
      65 ≤ c.toNat ∧ c.toNat ≤ 90 ∧ c.toNat < 55 + base := by
  obtain ⟨d, found⟩ := Option.isSome_iff_exists.mp known
  simp only [digitValue?, Option.filter_eq_some_iff, decide_eq_true_eq] at found
  obtain ⟨worth, small⟩ := found
  split at worth
  · cases worth
    omega
  · split at worth
    · cases worth
      omega
    · split at worth
      · cases worth
        omega
      · cases worth

theorem digit_decimal (c : Char) (known : (digitValue? 10 c).isSome = true) : Reader.isDigit c = true := by
  refine Text.of_code (List.range' 48 10) Reader.isDigit (by decide) c ?_
  have code := digit_code 10 c known
  rw [List.mem_range'_1]
  omega

theorem digit_alphanumeric (base : Nat) (c : Char) (known : (digitValue? base c).isSome = true) :
    c.isAlphanum = true := by
  refine Text.of_code (List.range' 48 10 ++ List.range' 65 26 ++ List.range' 97 26) Char.isAlphanum (by decide) c ?_
  have code := digit_code base c known
  simp only [List.mem_append, List.mem_range'_1]
  omega

theorem digit_ne (base : Nat) (c mark : Char) (known : (digitValue? base c).isSome = true)
    (other : mark.isAlphanum = false) : c ≠ mark :=
  Text.ne_of_holds Char.isAlphanum c mark (digit_alphanumeric base c known) other

theorem integer_of_natural (base n : Nat) (text : List Char) (value : natural? base text = some n) :
    integer? base text = some (n : Int) := by
  obtain ⟨filled, known⟩ := natural_parts base n text value
  cases text with
  | nil => exact absurd rfl filled
  | cons c rest =>
      have negative : c ≠ '-' := digit_ne base c '-' (known c List.mem_cons_self) rfl
      have positive : c ≠ '+' := digit_ne base c '+' (known c List.mem_cons_self) rfl
      unfold integer?
      split
      · exact absurd (List.cons.inj ‹_›).1 negative
      · exact absurd (List.cons.inj ‹_›).1 positive
      · rw [value]
        rfl

theorem shown_of_value (c : Char) (d : Nat) (value : digitValue? 10 c = some d) : d < 10 ∧ small[d]? = some c := by
  have code := digit_code 10 c (Option.isSome_iff_exists.mpr ⟨d, value⟩)
  have shown := Text.of_code (List.range' 48 10)
    (fun c => (digitValue? 10 c).all fun d => decide (d < 10) && small[d]? == some c) (by decide) c
    (by rw [List.mem_range'_1]; omega)
  simpa [value] using shown

theorem denotes_over (front rest : List Char) (acc n : Nat) (before : Denotes 10 front acc)
    (value : value? 10 rest acc = some n) : Denotes 10 (front ++ rest) n := by
  induction rest generalizing front acc with
  | nil =>
      cases value
      rwa [List.append_nil]
  | cons c rest ih =>
      obtain ⟨d, digit, others⟩ := Option.bind_eq_some_iff.mp value
      obtain ⟨below, shown⟩ := shown_of_value c d digit
      have whole := ih (front ++ [c]) (acc * 10 + d) (.next front acc c d before below (.inl shown)) others
      rwa [List.append_assoc] at whole

theorem natural_iff (text : List Char) (n : Nat) : natural? 10 text = some n ↔ Denotes 10 text n := by
  refine ⟨fun natural => ?_, natural_of_denotes 10 text n⟩
  cases text with
  | nil => cases natural
  | cons c rest =>
      obtain ⟨d, digit, others⟩ := Option.bind_eq_some_iff.mp natural
      obtain ⟨below, shown⟩ := shown_of_value c d digit
      rw [Nat.zero_mul, Nat.zero_add] at others
      exact denotes_over [c] rest d n (.digit c d below (.inl shown)) others

theorem unsigned_iff (text : List Char) (n : Nat) :
    unsigned? 10 text = some n ↔ ∃ numeral, Denotes 10 numeral n ∧ (text = numeral ∨ text = '+' :: numeral) := by
  have signless : ∀ numeral, Denotes 10 numeral n → unsigned? 10 numeral = some n := by
    intro numeral denotes
    have natural := natural_of_denotes 10 numeral n denotes
    obtain ⟨_, known⟩ := natural_parts 10 n numeral natural
    unfold unsigned?
    split
    · exact absurd rfl (digit_ne 10 '+' '+' (known '+' List.mem_cons_self) rfl)
    · exact natural
  constructor
  · intro unsigned
    unfold unsigned? at unsigned
    split at unsigned
    · exact ⟨_, (natural_iff _ n).mp unsigned, .inr rfl⟩
    · exact ⟨_, (natural_iff _ n).mp unsigned, .inl rfl⟩
  · rintro ⟨numeral, denotes, rfl | rfl⟩
    · exact signless text denotes
    · exact natural_of_denotes 10 numeral n denotes

theorem integer_positive_iff (text : List Char) (n : Nat) (positive : 0 < n) :
    integer? 10 text = some (n : Int) ↔ unsigned? 10 text = some n := by
  have counted : ∀ digits, (natural? 10 digits).map (fun n => (n : Int)) = some (n : Int) ↔ natural? 10 digits = some n := by
    intro digits
    cases natural? 10 digits with
    | none => simp
    | some k => exact Option.some_inj.trans (Int.ofNat_inj.trans Option.some_inj.symm)
  unfold integer? unsigned?
  split
  · rename_i digits
    have nothing : natural? 10 ('-' :: digits) ≠ some n := fun natural =>
      digit_ne 10 '-' '-' ((natural_parts 10 n _ natural).2 '-' List.mem_cons_self) rfl rfl
    refine iff_of_false (fun negative => ?_) nothing
    obtain ⟨k, found, same⟩ := Option.map_eq_some_iff.mp negative
    obtain ⟨m, _, own⟩ := Option.bind_eq_some_iff.mp found
    cases own
    omega
  · exact counted _
  · rename_i signless
    split
    · exact absurd rfl (signless _)
    · exact counted _

-- What the text of an integer is made of.
def isFigure (c : Char) : Bool := c == '-' || (digitValue? 10 c).isSome

theorem natural_decimal (n : Nat) : natural? 10 (decimal n).toList = some n := by
  rw [decimal, String.toList_ofList]
  exact natural_digits 10 n (by decide) (by decide)

theorem signed_figures (n : Int) : (signed n).toList ≠ [] ∧ ∀ c ∈ (signed n).toList, isFigure c = true := by
  obtain ⟨filled, known⟩ := natural_parts 10 n.natAbs _ (natural_decimal n.natAbs)
  have figures : ∀ c ∈ (decimal n.natAbs).toList, isFigure c = true := fun c member => by
    simp [isFigure, known c member]
  rw [signed]
  by_cases negative : n < 0
  · rw [if_pos negative]
    simpa [isFigure] using figures
  · rw [if_neg negative]
    exact ⟨filled, figures⟩

theorem integer_signed (n : Int) : integer? 10 (signed n).toList = some n := by
  rw [signed]
  by_cases negative : n < 0
  · rw [if_pos negative]
    have text : ("-" ++ decimal n.natAbs).toList = '-' :: (decimal n.natAbs).toList := by simp
    have negated : -(n.natAbs : Int) = n := by omega
    rw [text, integer?, natural_decimal]
    exact congrArg some negated
  · rw [if_neg negative, integer_of_natural 10 n.natAbs _ (natural_decimal n.natAbs)]
    congr 1
    omega

-- The digits are those of the library.
theorem digits_onto_append (base : Nat) (two : 2 ≤ base) (letters : base ≤ 16) (n : Nat) (rest : List Char) :
    digitsOnto base n rest = Nat.toDigits base n ++ rest := by
  have shown : ∀ d, d < 16 → digit d = Nat.digitChar d := by decide
  induction n using Nat.strongRecOn generalizing rest with
  | _ n ih =>
      rw [digitsOnto]
      by_cases last : n < base
      · rw [dif_pos (.inr last), Nat.toDigits_of_lt_base last, shown n (Nat.lt_of_lt_of_le last letters)]
        rfl
      · have below := Nat.mod_lt n (show 0 < base by omega)
        rw [dif_neg (by omega), ih (n / base) (Nat.div_lt_self (by omega) two)]
        rw [shown (n % base) (Nat.lt_of_lt_of_le below letters), Nat.toDigits_of_base_le two (Nat.le_of_not_lt last)]
        rw [List.append_assoc]
        rfl

theorem digits_of_library (base : Nat) (two : 2 ≤ base) (letters : base ≤ 16) (n : Nat) :
    digits base n = Nat.toDigits base n := by
  rw [digits, digits_onto_append base two letters, List.append_nil]

section Padded

variable (base : Nat)

theorem length_digits_onto (width n : Nat) (rest : List Char) (fits : n < base ^ (width + 1)) :
    (digitsOnto base n rest).length ≤ width + 1 + rest.length := by
  induction width generalizing n rest with
  | zero =>
      rw [Nat.zero_add, Nat.pow_one] at fits
      rw [digitsOnto, dif_pos (.inr fits), List.length_cons]
      omega
  | succ width ih =>
      rw [digitsOnto]
      by_cases last : base < 2 ∨ n < base
      · rw [dif_pos last, List.length_cons]
        omega
      · have front := ih (n / base) (digit (n % base) :: rest) (Nat.div_lt_of_lt_mul (by rwa [Nat.mul_comm, ← Nat.pow_succ]))
        rw [dif_neg last]
        rw [List.length_cons] at front
        omega

theorem length_padded (width n : Nat) (some : 0 < width) (fits : n < base ^ width) :
    (padded base width n).length = width := by
  obtain ⟨less, rfl⟩ := Nat.exists_eq_add_one_of_ne_zero (Nat.ne_of_gt some)
  have short := length_digits_onto base less n [] fits
  rw [padded, List.length_append, List.length_replicate]
  simp only [digits, List.length_nil, Nat.add_zero] at short ⊢
  omega

theorem value_zeros (count : Nat) (rest : List Char) (filled : 0 < base) :
    value? base (List.replicate count '0' ++ rest) 0 = value? base rest 0 := by
  have zero : digitValue? base '0' = some 0 := by
    simp only [digitValue?, Option.filter_eq_some_iff]
    exact ⟨rfl, by simpa using filled⟩
  induction count with
  | zero => rfl
  | succ count ih =>
      rw [List.replicate_succ, List.cons_append]
      simp only [value?, zero, Option.bind_some, Nat.zero_mul, Nat.add_zero]
      exact ih

theorem natural_padded (two : 2 ≤ base) (letters : base ≤ 36) (width n : Nat) : natural? base (padded base width n) = some n := by
  have plain := natural_digits base n two letters
  have filled := digits_onto_ne_nil base n []
  simp only [natural?, padded, digits, List.isEmpty_iff, List.append_eq_nil_iff, filled, and_false, if_false] at plain ⊢
  rw [value_zeros base _ _ (by omega), plain]

end Padded

theorem figure_unblank (c : Char) (figure : isFigure c = true) : Text.isBlank c = false := by
  cases blank : Text.isBlank c with
  | false => rfl
  | true =>
      have outside := Text.of_blank (fun c => !isFigure c) (by decide +kernel) c blank
      simp [figure] at outside

end Numeral

theorem Reader.integer_of_natural (base n : Nat) (text : List Char) (value : Numeral.natural? base text = some n)
    (fits : n ≤ Wide.greatest) : Reader.integer? base text = some (n : Int) := by
  have held : Wide.fits n = true := (Wide.fits_iff n).mpr ⟨by simp only [Wide.least]; omega, fits⟩
  simp [Reader.integer?, Numeral.integer_of_natural base n text value, Wide.checked, held]

theorem Value.of_word_signed (n : Int) (fits : Wide.fits n = true) :
    Value.ofWord (Numeral.signed n).toList = .int n := by
  have figures := (Numeral.signed_figures n).2
  have read : Reader.integer? 10 (Numeral.signed n).toList = some n := by
    simp [Reader.integer?, Numeral.integer_signed, Wide.checked, fits]
  have decimal : ∀ letter, Numeral.isFigure letter = false →
      ∀ digits, (Numeral.signed n).toList ≠ '0' :: letter :: digits := by
    intro letter outside digits same
    have inside := figures letter (same ▸ by simp)
    rw [outside] at inside
    cases inside
  rw [ofWord, read]
  · exact decimal 'x' (by decide)
  · exact decimal 'X' (by decide)
  · exact decimal 'b' (by decide)
  · exact decimal 'B' (by decide)

end SpaceLink
