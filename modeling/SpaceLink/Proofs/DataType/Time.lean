import SpaceLink.DataType.TimeCode
import SpaceLink.Proofs.Bits
import SpaceLink.Proofs.Time.Rfc3339

/-!
Times in bytes, cut to whole microseconds. Whole seconds stay; a 256th of a second is a whole number of microseconds for
every fourth of them, and any other becomes the one before it.
-/

set_option autoImplicit false

namespace SpaceLink.TimeCode

def cut (t : TimeCode) (own : Bytes) : Bytes :=
  let rest := Bytes.ofBig (own.drop 4)
  match t with
  | .fine => own.take 4 ++ Bytes.big 1 (if rest % 4 = 0 then rest else rest - 1)
  | .nanos => own.take 4 ++ Bytes.big 4 (rest / 1000 * 1000)
  | _ => own

-- The time is one of whole microseconds.
def isWhole (t : TimeCode) (own : Bytes) : Bool :=
  let rest := Bytes.ofBig (own.drop 4)
  match t with
  | .fine => rest % 4 == 0
  | .nanos => rest % 1000 == 0
  | _ => true

theorem cut_parts (own : Bytes) (width n : Nat) (whole : own.length = 4 + width) (fits : n < 256 ^ width) :
    own.take 4 ++ Bytes.big width n = own ↔ n = Bytes.ofBig (own.drop 4) := by
  have rest : (own.drop 4).length = width := by
    rw [List.length_drop]
    omega
  have spelled := Bytes.big_of_big (own.drop 4)
  rw [rest] at spelled
  conv => lhs; rhs; rw [← List.take_append_drop 4 own]
  rw [List.append_cancel_left_eq]
  constructor
  · intro same
    rw [← same, Bytes.of_big_big, Nat.mod_eq_of_lt fits]
  · intro same
    rw [same, spelled]

theorem cut_iff_whole (t : TimeCode) (own : Bytes) (whole : own.length = t.nbytes) :
    t.cut own = own ↔ t.isWhole own = true := by
  have bound := Bytes.of_little_lt (own.drop 4).reverse
  rw [← Bytes.ofBig, List.length_reverse, List.length_drop, whole] at bound
  generalize restEq : Bytes.ofBig (own.drop 4) = rest at bound
  cases t with
  | fraction => simp [cut, isWhole]
  | seconds => simp [cut, isWhole]
  | fine =>
      simp only [cut, isWhole, restEq, beq_iff_eq]
      rw [cut_parts own 1 _ whole (by split <;> simp only [nbytes] at bound <;> omega), restEq]
      split <;> omega
  | nanos =>
      simp only [cut, isWhole, restEq, beq_iff_eq]
      rw [cut_parts own 4 _ whole (by simp only [nbytes] at bound; omega), restEq]
      omega

theorem length_cut (t : TimeCode) (own : Bytes) (whole : own.length = t.nbytes) : (t.cut own).length = t.nbytes := by
  cases t <;> simp only [cut, List.length_append, List.length_take, Bytes.length_big, nbytes, whole] <;> omega

theorem encode_seconds (t : TimeCode) (own : Bytes) (long : 4 ≤ own.length) (nanos : Nat) :
    t.encodeSeconds ⟨epoch + Bytes.ofBig (own.take 4), nanos⟩ = .ok (own.take 4) := by
  have four : (own.take 4).length = 4 := by
    rw [List.length_take]
    omega
  have bound := Bytes.of_little_lt (own.take 4).reverse
  rw [← Bytes.ofBig, List.length_reverse, four] at bound
  have spelled := Bytes.big_of_big (own.take 4)
  rw [four] at spelled
  generalize Bytes.ofBig (own.take 4) = seconds at bound spelled
  have counted : epoch + (seconds : Int) - epoch = seconds := by omega
  simp only [encodeSeconds, counted, Int.toNat_natCast, spelled]
  rw [if_pos (by omega)]

theorem seconds_lt (own : Bytes) : Bytes.ofBig (own.take 4) < 256 ^ 4 := by
  have bound := Bytes.of_little_lt (own.take 4).reverse
  rw [← Bytes.ofBig, List.length_reverse] at bound
  exact Nat.lt_of_lt_of_le bound (Nat.pow_le_pow_right (by decide) (List.length_take_le 4 own))

-- A 256th of a second is 3906.25 microseconds.
theorem fine_of_cut : ∀ fine < 256,
    fine * 1000000000 / 256 / 1000 * 1000 * 256 / 1000000000 = if fine % 4 = 0 then fine else fine - 1 := by
  decide +kernel

theorem encode_fine_cut (own : Bytes) (whole : own.length = 5) :
    encode .fine (.time (Instant.cut
      ⟨epoch + Bytes.ofBig (own.take 4), nanosOfFine (UInt8.ofNat (Bytes.ofBig (own.drop 4)))⟩)) = .ok (cut .fine own) := by
  have bound := Bytes.of_little_lt (own.drop 4).reverse
  rw [← Bytes.ofBig, List.length_reverse, List.length_drop, whole] at bound
  have byte : (UInt8.ofNat (Bytes.ofBig (own.drop 4))).toNat = Bytes.ofBig (own.drop 4) := by
    rw [UInt8.toNat_ofNat', Nat.mod_eq_of_lt bound]
  have fine := fine_of_cut _ bound
  simp only [encode, Instant.cut, nanosOfFine, byte, fineOfNanos, Instant.nanosPerSecond, fine]
  rw [encode_seconds .fine own (by omega)]
  rfl

theorem encode_nanos_cut (own : Bytes) (whole : own.length = 8)
    (regular : Bytes.ofBig (own.drop 4) < Instant.nanosPerSecond) :
    encode .nanos (.time (Instant.cut ⟨epoch + Bytes.ofBig (own.take 4), Bytes.ofBig (own.drop 4)⟩)) =
      .ok (cut .nanos own) := by
  have least : min (Bytes.ofBig (own.drop 4) / 1000 * 1000) (Instant.nanosPerSecond - 1) =
      Bytes.ofBig (own.drop 4) / 1000 * 1000 := by
    simp only [Instant.nanosPerSecond] at regular ⊢
    omega
  simp only [encode, Instant.cut, least]
  rw [encode_seconds .nanos own (by omega)]
  rfl

-- The instant that is decoded, and the bytes of what is left of it in whole microseconds.
theorem decode_cut (t : TimeCode) (instant : t ≠ .fraction) (own : Bytes) (whole : own.length = t.nbytes) (v : Value)
    (decoded : t.decode own false = .ok v) :
    ∃ i : Instant, v = .time i ∧ i.nanos < Instant.nanosPerSecond ∧ 0 ≤ i.seconds ∧ i.seconds < 86400000000 ∧
      t.encode (.time i.cut) = .ok (t.cut own) := by
  have early := seconds_lt own
  have placed : 0 ≤ epoch + (Bytes.ofBig (own.take 4) : Int) ∧ epoch + (Bytes.ofBig (own.take 4) : Int) < 86400000000 := by
    simp only [epoch]
    omega
  have taken : own.take t.nbytes = own := List.take_of_length_le (Nat.le_of_eq whole)
  simp only [decode, taken, whole, Nat.lt_irrefl, Bool.false_eq_true, if_false] at decoded
  cases t with
  | fraction => exact absurd rfl instant
  | seconds =>
      cases decoded
      refine ⟨_, rfl, by simp [Instant.nanosPerSecond], placed.1, placed.2, ?_⟩
      simp only [encode, Instant.cut, cut, Nat.zero_div, Nat.zero_mul]
      exact (encode_seconds .seconds own (Nat.le_of_eq whole.symm) 0).trans
        (congrArg Except.ok (List.take_of_length_le (Nat.le_of_eq whole)))
  | fine =>
      cases decoded
      refine ⟨_, rfl, ?_, placed.1, placed.2, encode_fine_cut own whole⟩
      have bound := (UInt8.ofNat (Bytes.ofBig (own.drop 4))).toNat_lt
      simp only [nanosOfFine, Instant.nanosPerSecond]
      omega
  | nanos =>
      by_cases past : Instant.nanosPerSecond ≤ Bytes.ofBig (own.drop 4)
      · rw [if_pos past] at decoded
        cases decoded
      · rw [if_neg past] at decoded
        cases decoded
        have regular := Nat.lt_of_not_le past
        exact ⟨_, rfl, regular, placed.1, placed.2, encode_nanos_cut own whole regular⟩

end SpaceLink.TimeCode
