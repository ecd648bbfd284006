import SpaceLink.Expr.Arithmetic
import SpaceLink.Proofs.Number.Wide

/-!
Arithmetic on integers in steps of 128 bits. A step has no result where it would leave the range, divide by zero or move
by as many places as there are; no operands lead to such a step.
-/

set_option autoImplicit false

namespace SpaceLink

theorem BinaryFormat.nearest_lt (num den : Nat) : BinaryFormat.double.nearest num den < 2 ^ 63 := by
  have greatest : BinaryFormat.double.infinity < 2 ^ 63 := by decide
  have fraction : 2 ^ BinaryFormat.double.fractionBits < 2 ^ 63 := by decide
  simp only [BinaryFormat.nearest]
  split
  · decide
  · split <;> omega

theorem Binary64.of_int_not_below (n : Int) (up : 0 ≤ n) : (Binary64.ofInt n).lt Binary64.zero = false := by
  have bound := BinaryFormat.nearest_lt n.natAbs 1
  have sign : decide (n < 0) = false := by simpa using up
  have bits : (Binary64.ofInt n).bits.toNat = BinaryFormat.double.nearest n.natAbs 1 := by
    simp only [ofInt, ofRatio, ofMagnitude, sign, Bool.false_eq_true, if_false, Nat.add_zero]
    rw [UInt64.toNat_ofNat', Nat.mod_eq_of_lt (by omega)]
  have positive : (Binary64.ofInt n).isNegative = false := by
    simp only [isNegative, bits, decide_eq_false_iff_not]
    omega
  have rank : 0 ≤ (Binary64.ofInt n).rank := by
    rw [Binary64.rank, positive]
    exact Int.natCast_nonneg _
  have zero : Binary64.zero.rank = 0 := by decide
  rw [lt, zero, decide_eq_false (Int.not_lt.mpr rank), Bool.and_false]

end SpaceLink

namespace SpaceLink.Arithmetic

inductive Trap where
  | overflow | zeroDivisor | shiftCount

abbrev Step := Except Trap

namespace Step

def held (n : Int) : Step Int := if Wide.fits n then .ok n else .error .overflow

def remainder (x y : Int) : Step Int :=
  if y = 0 then .error .zeroDivisor
  else if x = Wide.least ∧ y = -1 then .error .overflow
  else .ok (x.tmod y)

def shiftLeft (x : Int) (places : Nat) : Step Int :=
  if places < 128 then .ok (Wide.shiftLeft x places) else .error .shiftCount

def shiftRight (x : Int) (places : Nat) : Step Int :=
  if places < 128 then .ok (Wide.shiftRight x places) else .error .shiftCount

end Step

-- The quotient that rounds toward zero, if there is one that fits.
def quotient? (x y : Int) : Option Int := if y = 0 then none else Wide.checked (x.tdiv y)

def floorQuotient (x y : Int) : Step (Option Int) :=
  match quotient? x y with
  | none => .ok none
  | some q => do
    let r ← Step.remainder x y
    if Wide.astray y r x then (Step.held (q - 1)).map some else .ok (some q)

-- A remainder that would trap is none.
def floorRemainder (x y : Int) : Step (Option Int) :=
  match (Step.remainder x y).toOption with
  | none => .ok none
  | some r => if Wide.astray y r r then (Step.held (r + y)).map some else .ok (some r)

-- Moved to the left and back again to see whether bits were lost.
def movedLeft (x y : Int) : Step (Option Int) :=
  if y < 127 then do
    let moved ← Step.shiftLeft x y.toNat
    let back ← Step.shiftRight moved y.toNat
    .ok (if back = x then some moved else none)
  else .ok none

def movedRight (x y : Int) : Step Int :=
  if 127 ≤ y then .ok (if x < 0 then -1 else 0) else Step.shiftRight x y.toNat

variable (op : BinaryOp) (x y : Int) (kinds : Value.Kind × Value.Kind)

def orDouble (n : Option Int) : Attempt (Option Value) :=
  match n with
  | some n => .ok (some (.int n))
  | none => onDoubles op (Binary64.ofInt x) (Binary64.ofInt y) kinds

-- An operation on integers, one step of the machine after the other.
def stepwise : Step (Attempt (Option Value)) :=
  match op with
  | .add => .ok (orDouble .add x y kinds (Wide.checked (x + y)))
  | .sub => .ok (orDouble .sub x y kinds (Wide.checked (x - y)))
  | .mul => .ok (orDouble .mul x y kinds (Wide.checked (x * y)))
  | .div => .ok (if y = 0 then .ok none else .ok (some (.float ((Binary64.ofInt x).div (Binary64.ofInt y)))))
  | .floorDiv => if y = 0 then .ok (.ok none) else (floorQuotient x y).map (orDouble .floorDiv x y kinds)
  | .mod => if y = 0 then .ok (.ok none) else (floorRemainder x y).map (orDouble .mod x y kinds)
  | .pow =>
    .ok <|
      if y < 0 then
        if x = 0 then .ok none else .ok (some (.float ((Binary64.ofInt x).pow (Binary64.ofInt y))))
      else orDouble .pow x y kinds (if y < 2 ^ 32 then Wide.checked (x ^ y.toNat) else none)
  | .shiftLeft =>
    if y < 0 then .ok (fail .negativeShift)
    else (movedLeft x y).map fun
      | some n => .ok (some (.int n))
      | none => fail .shiftOverflow
  | .shiftRight =>
    if y < 0 then .ok (fail .negativeShift) else (movedRight x y).map fun n => .ok (some (.int n))
  | .bitAnd => .ok (.ok (some (.int (Wide.and x y))))
  | .bitOr => .ok (.ok (some (.int (Wide.or x y))))
  | .bitXor => .ok (.ok (some (.int (Wide.xor x y))))

theorem step_held (n : Int) (inside : Wide.fits n = true) : Step.held n = .ok n := if_pos inside

section Division

variable (held : Wide.fits x = true) (nonzero : y ≠ 0)

include nonzero in
theorem floor_corrected : (if Wide.astray y (x.tmod y) x then x.tdiv y - 1 else x.tdiv y) = x.fdiv y ∧
    (if Wide.astray y (x.tmod y) x then x.tmod y + y else x.tmod y) = x.fmod y := by
  have parts := (Wide.floor_parts_iff x y nonzero _ _).mp (Wide.floor_of_truncated x y nonzero)
  exact ⟨parts.1.symm, parts.2.symm⟩

include held nonzero in
theorem floor_quotient_eq : floorQuotient x y = .ok (Wide.checked (x.fdiv y)) := by
  have fits := Wide.fits_floor x y nonzero held
  have truncated := Wide.fits_truncated x y nonzero held
  simp only [floorQuotient, quotient?, if_neg nonzero]
  by_cases extreme : x = Wide.least ∧ y = -1
  · have lost := Wide.checked_of_lost _ fun inside => fits.mp inside extreme
    have early := Wide.checked_of_lost _ fun inside => truncated.mp inside extreme
    rw [lost, early]
  · have inside := fits.mpr extreme
    have corrected := (floor_corrected x y nonzero).1
    have remainder : Step.remainder x y = .ok (x.tmod y) := by
      rw [Step.remainder, if_neg nonzero, if_neg extreme]
    rw [Wide.checked_of_fits _ inside, Wide.checked_of_fits _ (truncated.mpr extreme)]
    simp only [remainder]
    by_cases strays : Wide.astray y (x.tmod y) x = true
    · rw [if_pos strays] at corrected
      rw [corrected, step_held _ inside]
      exact if_pos strays
    · rw [if_neg strays] at corrected
      rw [corrected]
      exact if_neg strays

include nonzero in
theorem floor_remainder_eq (divisor : Wide.fits y = true) :
    floorRemainder x y = .ok (if x = Wide.least ∧ y = -1 then none else some (x.fmod y)) := by
  simp only [floorRemainder, Step.remainder, if_neg nonzero]
  by_cases extreme : x = Wide.least ∧ y = -1
  · rw [if_pos extreme, if_pos extreme]
    rfl
  · have inside := Wide.fits_floor_remainder x y nonzero divisor
    have corrected := (floor_corrected x y nonzero).2
    rw [if_neg extreme, if_neg extreme]
    change (if Wide.astray y (x.tmod y) (x.tmod y) = true then _ else _) = _
    rw [Wide.astray_own]
    by_cases strays : Wide.astray y (x.tmod y) x = true
    · rw [if_pos strays] at corrected
      rw [if_pos strays, corrected, step_held _ inside]
      rfl
    · rw [if_neg strays] at corrected
      rw [if_neg strays, corrected]

end Division

theorem power_of_unit (n : Nat) (unit : x.natAbs ≤ 1) :
    x ^ n = if n = 0 then 1 else if x = -1 ∧ n % 2 = 0 then 1 else x := by
  induction n with
  | zero => exact Int.pow_zero x
  | succ n ih =>
      rw [Int.pow_succ, ih, if_neg (Nat.succ_ne_zero n)]
      have cases : x = 0 ∨ x = 1 ∨ x = -1 := by omega
      rcases cases with rfl | rfl | rfl
      · simp
      · simp
      · by_cases even : n % 2 = 0
        · simp [even, show (n + 1) % 2 ≠ 0 by omega]
        · simp [even, show (n + 1) % 2 = 0 by omega, show n ≠ 0 by omega]

-- Beyond 127 factors only those of 0, 1 and -1 give a product that fits.
theorem power_checked (n : Nat) (small : n < 2 ^ 32) : power? x n = Wide.checked (x ^ n) := by
  simp only [power?, if_neg (Nat.not_le.mpr small)]
  by_cases unit : x.natAbs ≤ 1
  · rw [if_pos unit, ← power_of_unit x n unit]
    refine (Wide.checked_of_fits _ ?_).symm
    have small : (x ^ n).natAbs ≤ 1 := by
      rw [Int.natAbs_pow, ← Nat.one_pow n]
      exact Nat.pow_le_pow_left unit n
    exact Wide.fits_of_abs _ (by omega)
  · rw [if_neg unit]
    by_cases long : 127 < n
    · rw [if_pos long]
      have large : 2 ^ 128 ≤ (x ^ n).natAbs := by
        rw [Int.natAbs_pow]
        exact Nat.le_trans (Nat.pow_le_pow_right (by decide) long) (Nat.pow_le_pow_left (by omega) n)
      refine (Wide.checked_of_lost _ fun inside => ?_).symm
      rw [Wide.fits_iff] at inside
      simp only [Wide.least, Wide.greatest] at inside
      omega
    · rw [if_neg long]

theorem moved_left_eq (up : 0 ≤ y) : movedLeft x y = .ok (shiftLeft? x y.toNat) := by
  simp only [movedLeft, shiftLeft?]
  by_cases near : y < 127
  · have places : y.toNat < 128 := by omega
    have back := Wide.shift_back x y.toNat places
    rw [if_pos near, if_pos (show y.toNat < 127 by omega)]
    simp only [Step.shiftLeft, Step.shiftRight, if_pos places]
    by_cases fits : Wide.fits (x * 2 ^ y.toNat) = true
    · rw [(Wide.lowest_iff x _ places).mpr fits] at back
      rw [Wide.checked_of_fits _ fits, ← Wide.wrap_of_fits fits]
      exact congrArg Except.ok (if_pos back)
    · rw [Wide.checked_of_lost _ fits]
      exact congrArg Except.ok (if_neg fun same => fits ((Wide.lowest_iff x _ places).mp (back ▸ same)))
  · rw [if_neg near, if_neg (show ¬ y.toNat < 127 by omega)]

theorem moved_right_eq (up : 0 ≤ y) : movedRight x y = .ok (shiftRight x y.toNat) := by
  simp only [movedRight, shiftRight, Step.shiftRight]
  by_cases far : 127 ≤ y
  · rw [if_pos far, if_pos (show 127 ≤ y.toNat by omega)]
  · rw [if_neg far, if_neg (show ¬ 127 ≤ y.toNat by omega), if_pos (show y.toNat < 128 by omega)]

theorem stepwise_eq (left : Wide.fits x = true) (right : Wide.fits y = true) :
    stepwise op x y kinds = .ok (onInts op x y kinds) := by
  cases op
  case add | sub | mul | div | bitAnd | bitOr | bitXor => rfl
  case floorDiv =>
      simp only [stepwise, onInts]
      by_cases zero : y = 0
      · rw [if_pos zero, if_pos zero]
      · rw [if_neg zero, if_neg zero, floor_quotient_eq x y left zero]
        rfl
  case mod =>
      simp only [stepwise, onInts]
      by_cases zero : y = 0
      · rw [if_pos zero, if_pos zero]
      · rw [if_neg zero, if_neg zero, floor_remainder_eq x y zero right]
        rfl
  case pow =>
      simp only [stepwise, onInts]
      by_cases down : y < 0
      · rw [if_pos down, if_pos down]
      · have raised : (if y < 2 ^ 32 then Wide.checked (x ^ y.toNat) else none) = power? x y.toNat := by
          by_cases small : y < 2 ^ 32
          · rw [if_pos small, power_checked x y.toNat (by omega)]
          · rw [if_neg small, power?, if_pos (show 2 ^ 32 ≤ y.toNat by omega)]
        rw [if_neg down, if_neg down, raised]
        rfl
  case shiftLeft =>
      simp only [stepwise, onInts]
      by_cases down : y < 0
      · rw [if_pos down, if_pos down]
      · rw [if_neg down, if_neg down, moved_left_eq x y (Int.not_lt.mp down)]
        cases shiftLeft? x y.toNat <;> rfl
  case shiftRight =>
      simp only [stepwise, onInts]
      by_cases down : y < 0
      · rw [if_pos down, if_pos down]
      · rw [if_neg down, if_neg down, moved_right_eq x y (Int.not_lt.mp down)]
        rfl

-- The integer itself where 128 bits hold it, and a double where they do not.
structure Exact (n : Int) (outcome : Attempt (Option Value)) : Prop where
  held : Wide.fits n = true → outcome = .ok (some (.int n))
  lost : Wide.fits n = false → ∃ z, outcome = .ok (some (.float z))

theorem exact_or_double (n : Int)
    (double : ∃ z, onDoubles op (Binary64.ofInt x) (Binary64.ofInt y) kinds = .ok (some (.float z))) :
    Exact n (orDouble op x y kinds (Wide.checked n)) := by
  constructor
  · intro inside
    rw [Wide.checked_of_fits n inside]
    rfl
  · intro outside
    rw [Wide.checked_of_lost n (by simp [outside])]
    exact double

-- No division by zero among the doubles: an exponent that is not negative does not become one.
theorem power_double (up : 0 ≤ y) : onDoubles .pow (Binary64.ofInt x) (Binary64.ofInt y) kinds =
    .ok (some (.float ((Binary64.ofInt x).pow (Binary64.ofInt y)))) := by
  simp only [onDoubles, Binary64.of_int_not_below y up, Bool.and_false]
  rfl

theorem power_exact (up : 0 ≤ y) (small : y < 2 ^ 32) : Exact (x ^ y.toNat) (onInts .pow x y kinds) := by
  have outcome : onInts .pow x y kinds = orDouble .pow x y kinds (Wide.checked (x ^ y.toNat)) := by
    rw [← power_checked x y.toNat (by omega)]
    exact if_neg (Int.not_lt.mpr up)
  rw [outcome]
  exact exact_or_double .pow x y kinds _ ⟨_, power_double x y kinds up⟩

theorem floor_exact (nonzero : y ≠ 0) (extreme : ¬ (x = Wide.least ∧ y = -1)) (left : Wide.fits x = true) :
    onInts .floorDiv x y kinds = .ok (some (.int (x.fdiv y))) ∧
      onInts .mod x y kinds = .ok (some (.int (x.fmod y))) := by
  constructor
  · have inside := (Wide.fits_floor x y nonzero left).mpr extreme
    simp only [onInts, if_neg nonzero, Wide.checked_of_fits _ inside]
  · simp only [onInts, if_neg nonzero, if_neg extreme]

theorem binary_ints (a b : Value) (left : a.exactInt? = some x) (right : b.exactInt? = some y) :
    binary op a b = onInts op x y (a.kind, b.kind) := by
  unfold binary
  split
  · cases left
  · rw [left, right]

-- No outcome is a number that was cut to 128 bits, and no step on the way to one goes wrong.
theorem integers_computed_exactly (a b : Value) (left : a.exactInt? = some x) (right : b.exactInt? = some y)
    (leftFits : Wide.fits x = true) (rightFits : Wide.fits y = true) :
    Exact (x + y) (binary .add a b) ∧ Exact (x - y) (binary .sub a b) ∧ Exact (x * y) (binary .mul a b) ∧
    (y = 0 → binary .floorDiv a b = .ok none ∧ binary .mod a b = .ok none) ∧
    (y ≠ 0 → ¬ (x = Wide.least ∧ y = -1) → ∃ q r, Wide.fits q = true ∧ Wide.fits r = true ∧
      binary .floorDiv a b = .ok (some (.int q)) ∧ binary .mod a b = .ok (some (.int r)) ∧
      Wide.FloorParts x y q r) ∧
    (0 ≤ y → y < 2 ^ 32 → Exact (x ^ y.toNat) (binary .pow a b)) ∧
    ∀ op, stepwise op x y (a.kind, b.kind) = .ok (binary op a b) := by
  simp only [binary_ints _ x y a b left right]
  refine ⟨?sum, ?difference, ?product, ?zero, ?floor, ?power, ?steps⟩
  case sum => exact exact_or_double .add x y _ _ ⟨_, rfl⟩
  case difference => exact exact_or_double .sub x y _ _ ⟨_, rfl⟩
  case product => exact exact_or_double .mul x y _ _ ⟨_, rfl⟩
  case zero =>
    rintro rfl
    exact ⟨rfl, rfl⟩
  case floor =>
    intro nonzero extreme
    have outcome := floor_exact x y (a.kind, b.kind) nonzero extreme leftFits
    have inside := (Wide.fits_floor x y nonzero leftFits).mpr extreme
    have rest := Wide.fits_floor_remainder x y nonzero rightFits
    exact ⟨_, _, inside, rest, outcome.1, outcome.2, (Wide.floor_parts_iff x y nonzero _ _).mpr ⟨rfl, rfl⟩⟩
  case power => exact power_exact x y (a.kind, b.kind)
  case steps => exact fun op => stepwise_eq op x y _ leftFits rightFits

-- The least number is no multiple of three, so the quotient is the one below.
theorem least_by_three : Wide.fits Wide.least = true ∧ Wide.fits 3 = true ∧
    (∃ z, binary .sub (.int Wide.least) (.int 3) = .ok (some (.float z))) ∧
    ∃ q r, Wide.fits q = true ∧ Wide.fits r = true ∧
      binary .floorDiv (.int Wide.least) (.int 3) = .ok (some (.int q)) ∧
      binary .mod (.int Wide.least) (.int 3) = .ok (some (.int r)) ∧ Wide.FloorParts Wide.least 3 q r := by
  obtain ⟨-, difference, -, -, floor, -⟩ :=
    integers_computed_exactly Wide.least 3 (.int Wide.least) (.int 3) rfl rfl (by decide) (by decide)
  exact ⟨by decide, by decide, difference.lost (by decide), floor (by decide) (by decide)⟩

end SpaceLink.Arithmetic
