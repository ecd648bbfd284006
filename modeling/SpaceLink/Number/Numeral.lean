import SpaceLink.Number.Power

/-!
Numerals: digits of a natural number in a base, and integers read from text. The main fact: the value
of a numeral is the number it was made from.
-/

set_option autoImplicit false

namespace SpaceLink.Numeral

def digit (d : Nat) : Char := Char.ofNat (if d < 10 then 48 + d else 87 + d)

def digitValue? (base : Nat) (c : Char) : Option Nat :=
  let n := c.toNat
  let d? :=
    if 48 ≤ n ∧ n ≤ 57 then some (n - 48)
    else if 97 ≤ n ∧ n ≤ 122 then some (n - 87)
    else if 65 ≤ n ∧ n ≤ 90 then some (n - 55)
    else none
  d?.filter (· < base)

-- The digits of `n`, most significant first, in front of `rest`.
def digitsOnto (base n : Nat) (rest : List Char) : List Char :=
  if _ : base < 2 ∨ n < base then digit n :: rest
  else digitsOnto base (n / base) (digit (n % base) :: rest)
termination_by n
decreasing_by exact Nat.div_lt_self (by omega) (by omega)

def digits (base n : Nat) : List Char := digitsOnto base n []

def decimal (n : Nat) : String := String.ofList (digits 10 n)

def signed (n : Int) : String :=
  if n < 0 then "-" ++ decimal n.natAbs else decimal n.natAbs

def padded (base width n : Nat) : List Char :=
  let ds := digits base n
  List.replicate (width - ds.length) '0' ++ ds

def value? (base : Nat) : List Char → Nat → Option Nat
  | [], acc => some acc
  | c :: rest, acc => (digitValue? base c).bind fun d => value? base rest (acc * base + d)

def natural? (base : Nat) (text : List Char) : Option Nat :=
  if text.isEmpty then none else value? base text 0

def unsigned? (base : Nat) : List Char → Option Nat
  | '+' :: rest => natural? base rest
  | text => natural? base text

def integer? (base : Nat) : List Char → Option Int
  | '-' :: rest => (natural? base rest).map fun n => -(n : Int)
  | '+' :: rest => (natural? base rest).map fun n => (n : Int)
  | text => (natural? base text).map fun n => (n : Int)

theorem digit_value_digit (base d : Nat) (small : d < base) (letters : base ≤ 36) :
    digitValue? base (digit d) = some d := by
  have table : ∀ e, e < 36 → digitValue? 36 (digit e) = some e := by decide
  have known := table d (by omega)
  simp only [digitValue?, Option.filter_eq_some_iff] at known ⊢
  exact ⟨known.1, by simpa using small⟩

theorem value_digits_onto (base n : Nat) (rest : List Char) (acc : Nat) (two : 2 ≤ base)
    (letters : base ≤ 36) :
    ∃ count, value? base (digitsOnto base n rest) acc = value? base rest (acc * base ^ count + n) := by
  induction n using Nat.strongRecOn generalizing rest acc with
  | _ n ih =>
    unfold digitsOnto
    split
    · rename_i last
      refine ⟨1, ?_⟩
      simp [value?, digit_value_digit base n (by omega) letters]
    · rename_i more
      obtain ⟨count, eq⟩ := ih (n / base) (Nat.div_lt_self (by omega) (by omega))
        (digit (n % base) :: rest) acc
      refine ⟨count + 1, ?_⟩
      have low := Nat.mod_lt n (show 0 < base by omega)
      rw [eq]
      simp only [value?, digit_value_digit base _ low letters, Option.bind_some]
      congr 1
      rw [Nat.add_mul, Nat.mul_assoc, ← Nat.pow_succ, Nat.add_assoc, Nat.mul_comm (n / base),
        Nat.div_add_mod]

theorem digits_onto_ne_nil (base n : Nat) (rest : List Char) : digitsOnto base n rest ≠ [] := by
  induction n using Nat.strongRecOn generalizing rest with
  | _ n ih =>
    unfold digitsOnto
    split
    · simp
    · exact ih _ (Nat.div_lt_self (by omega) (by omega)) _

theorem natural_digits (base n : Nat) (two : 2 ≤ base) (letters : base ≤ 36) :
    natural? base (digits base n) = some n := by
  obtain ⟨count, eq⟩ := value_digits_onto base n [] 0 two letters
  have filled := digits_onto_ne_nil base n []
  simp [natural?, digits, eq, value?, filled]

end SpaceLink.Numeral
