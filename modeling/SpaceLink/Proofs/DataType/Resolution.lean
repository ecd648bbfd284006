import SpaceLink.Proofs.DataType.Time

/-!
What a time keeps in bytes. The times of a type stand a tick apart, from the second that has the first bytes on; an
instant between two of them is taken for the earlier one.
-/

set_option autoImplicit false

namespace SpaceLink

-- Nanoseconds since the start of 1970.
def Instant.total (i : Instant) : Int := i.seconds * nanosPerSecond + i.nanos

namespace TimeCode

-- The nanoseconds from a time of the type to the next.
def tick : TimeCode → Nat
  | .seconds => Instant.nanosPerSecond
  | .fraction | .fine => Instant.nanosPerSecond / 256
  | .nanos => 1

theorem tick_divides (t : TimeCode) : t.tick ∣ Instant.nanosPerSecond := by
  cases t <;> decide

-- The time of the type at or before an instant.
def floor (t : TimeCode) (i : Instant) : Instant := ⟨i.seconds, i.nanos / t.tick * t.tick⟩

theorem floor_latest (t : TimeCode) (i : Instant) :
    (t.tick : Int) ∣ (t.floor i).total ∧ (t.floor i).total ≤ i.total ∧
      ∀ n, (t.tick : Int) ∣ n → n ≤ i.total → n ≤ (t.floor i).total := by
  have positive : 0 < t.tick := by cases t <;> decide
  have whole : (t.tick : Int) ∣ i.seconds * Instant.nanosPerSecond :=
    Int.dvd_mul_of_dvd_right (Int.natCast_dvd_natCast.mpr t.tick_divides)
  have parts := Nat.div_add_mod' i.nanos t.tick
  have small := Nat.mod_lt i.nanos positive
  have multiple : (t.tick : Int) ∣ (t.floor i).total := by
    refine Int.dvd_add whole (Int.natCast_dvd_natCast.mpr ?_)
    exact Nat.dvd_mul_left t.tick _
  have split : i.total = (t.floor i).total + (i.nanos % t.tick : Nat) := by
    simp only [Instant.total, floor]
    omega
  refine ⟨multiple, by omega, ?_⟩
  intro n ticked before
  -- A multiple that were later would be later by a whole tick at least.
  refine Int.not_lt.mp fun later => ?_
  have gap := Int.le_of_dvd (by omega) (Int.dvd_sub ticked multiple)
  omega

theorem encode_seconds_iff (t : TimeCode) (i : Instant) (bytes : Bytes) :
    t.encodeSeconds i = .ok bytes ↔
      (0 ≤ i.seconds - epoch ∧ i.seconds - epoch < 2 ^ 32) ∧ Bytes.big 4 (i.seconds - epoch).toNat = bytes := by
  simp only [encodeSeconds]
  by_cases counted : 0 ≤ i.seconds - epoch ∧ i.seconds - epoch < 2 ^ 32
  · rw [if_pos counted, Except.ok.injEq, and_iff_right counted]
  · rw [if_neg counted]
    exact ⟨fun done => (by cases done), fun done => absurd done.1 counted⟩

-- The bytes behind those of the seconds.
def rest (t : TimeCode) (nanos : Nat) : Bytes :=
  match t with
  | .seconds => []
  | .fraction | .fine => [fineOfNanos nanos]
  | .nanos => Bytes.big 4 (min nanos (Instant.nanosPerSecond - 1))

theorem encode_time (t : TimeCode) (instant : t ≠ .fraction) (i : Instant) :
    t.encode (.time i) = (t.encodeSeconds i).map (· ++ t.rest i.nanos) := by
  cases t with
  | fraction => exact absurd rfl instant
  | seconds => cases done : encodeSeconds .seconds i <;> simp [encode, rest, done, Except.map]
  | fine => rfl
  | nanos => rfl

theorem decode_time (t : TimeCode) (instant : t ≠ .fraction) (seconds nanos : Nat) (early : seconds < 256 ^ 4)
    (regular : nanos < Instant.nanosPerSecond) :
    t.decode (Bytes.big 4 seconds ++ t.rest nanos) false =
      .ok (TimeCode.instant seconds (nanos / t.tick * t.tick)) := by
  have four : (Bytes.big 4 seconds).length = 4 := Bytes.length_big 4 seconds
  have whole : (Bytes.big 4 seconds ++ t.rest nanos).length = t.nbytes := by
    rw [List.length_append, four]
    cases t with
    | fraction => exact absurd rfl instant
    | seconds => rfl
    | fine => rfl
    | nanos => simp [rest, nbytes, Bytes.length_big]
  have taken := List.take_of_length_le (Nat.le_of_eq whole)
  have first : Bytes.ofBig (Bytes.big 4 seconds) = seconds := by rw [Bytes.of_big_big, Nat.mod_eq_of_lt early]
  simp only [decode, taken, whole, Nat.lt_irrefl, Bool.false_eq_true, if_false, List.take_left' four,
    List.drop_left' four, first]
  cases t with
  | fraction => exact absurd rfl instant
  | seconds => simp [tick, Nat.div_eq_of_lt regular]
  | fine =>
      have byte : Bytes.ofBig (rest .fine nanos) = (fineOfNanos nanos).toNat := by
        simp [rest, Bytes.ofBig, Bytes.ofLittle]
      have cut : (fineOfNanos nanos).toNat = nanos * 256 / Instant.nanosPerSecond := by
        simp only [Instant.nanosPerSecond] at regular
        simp only [fineOfNanos, UInt8.toNat_ofNat', Instant.nanosPerSecond]
        omega
      rw [byte, UInt8.ofNat_toNat, nanosOfFine, cut]
      have kept : nanos * 256 / Instant.nanosPerSecond * Instant.nanosPerSecond / 256 =
          nanos / tick .fine * tick .fine := by
        simp only [tick, Instant.nanosPerSecond]
        omega
      rw [kept]
  | nanos =>
      have least : min nanos (Instant.nanosPerSecond - 1) = nanos := by omega
      have small : nanos < 256 ^ 4 := Nat.lt_trans regular (by decide)
      simp only [rest, least, Bytes.of_big_big, Nat.mod_eq_of_lt small, if_neg (Nat.not_le.mpr regular), tick,
        Nat.div_one, Nat.mul_one]

theorem fine_of_nanos_of_fine (fine : UInt8) : fineOfNanos (nanosOfFine fine) = fine := by
  have small := fine.toNat_lt
  have same : fine.toNat * Instant.nanosPerSecond / 256 * 256 / Instant.nanosPerSecond = fine.toNat := by
    simp only [Instant.nanosPerSecond]
    omega
  rw [fineOfNanos, nanosOfFine, same, UInt8.ofNat_toNat]

-- An instant in bytes is the last time of the type that is not after it.
theorem decode_encode (t : TimeCode) (instant : t ≠ .fraction) (i : Instant)
    (regular : i.nanos < Instant.nanosPerSecond) (bytes : Bytes) (done : t.encode (.time i) = .ok bytes) :
    t.decode bytes false = .ok (.time (t.floor i)) := by
  rw [t.encode_time instant] at done
  cases counted : t.encodeSeconds i with
  | error fault =>
      rw [counted] at done
      cases done
  | ok own =>
      rw [counted] at done
      cases done
      obtain ⟨range, rfl⟩ := (t.encode_seconds_iff i own).mp counted
      rw [t.decode_time instant _ _ (by omega) regular, TimeCode.instant, floor]
      congr 3
      omega

theorem encode_decode (t : TimeCode) (instant : t ≠ .fraction) (own : Bytes) (whole : own.length = t.nbytes) (v : Value)
    (decoded : t.decode own false = .ok v) : t.encode v = .ok own := by
  have taken : own.take t.nbytes = own := List.take_of_length_le (Nat.le_of_eq whole)
  have back : ∀ nanos, t.rest nanos = own.drop 4 →
      t.encode (TimeCode.instant (Bytes.ofBig (own.take 4)) nanos) = .ok own := by
    intro nanos same
    have long : 4 ≤ own.length := by
      rw [whole]
      cases t <;> first | exact absurd rfl instant | decide
    rw [TimeCode.instant, t.encode_time instant, t.encode_seconds own long, same]
    exact congrArg Except.ok (List.take_append_drop 4 own)
  have behind := Bytes.big_of_big (own.drop 4)
  rw [List.length_drop, whole] at behind
  simp only [decode, taken, whole, Nat.lt_irrefl, Bool.false_eq_true, if_false] at decoded
  cases t with
  | fraction => exact absurd rfl instant
  | seconds =>
      cases decoded
      exact back 0 (List.drop_eq_nil_of_le (Nat.le_of_eq whole)).symm
  | fine =>
      cases decoded
      refine back _ ?_
      rw [rest, fine_of_nanos_of_fine]
      exact behind
  | nanos =>
      by_cases past : Instant.nanosPerSecond ≤ Bytes.ofBig (own.drop 4)
      · rw [if_pos past] at decoded
        cases decoded
      · rw [if_neg past] at decoded
        cases decoded
        have least : min (Bytes.ofBig (own.drop 4)) (Instant.nanosPerSecond - 1) = Bytes.ofBig (own.drop 4) := by omega
        refine back _ ?_
        rw [rest, least]
        exact behind

-- The times of a type are kept exactly; another instant is kept as the last of them that is not after it.
theorem kept_to_the_tick (t : TimeCode) (instant : t ≠ .fraction) :
    (∀ own v, own.length = t.nbytes → t.decode own false = .ok v → t.encode v = .ok own) ∧
    ∀ i : Instant, i.nanos < Instant.nanosPerSecond →
      ((∃ bytes, t.encode (.time i) = .ok bytes) ↔ 0 ≤ i.seconds - 315964800 ∧ i.seconds - 315964800 < 2 ^ 32) ∧
      ∀ bytes, t.encode (.time i) = .ok bytes →
        ∃ last : Instant, t.decode bytes false = .ok (.time last) ∧ last.nanos < Instant.nanosPerSecond ∧
          (t.tick : Int) ∣ last.total ∧ last.total ≤ i.total ∧
          ∀ n, (t.tick : Int) ∣ n → n ≤ i.total → n ≤ last.total := by
  refine ⟨fun own v whole decoded => t.encode_decode instant own whole v decoded, ?_⟩
  intro i regular
  constructor
  · change _ ↔ 0 ≤ i.seconds - epoch ∧ i.seconds - epoch < 2 ^ 32
    rw [t.encode_time instant]
    constructor
    · rintro ⟨bytes, done⟩
      cases counted : t.encodeSeconds i with
      | error fault =>
          rw [counted] at done
          cases done
      | ok own => exact ((t.encode_seconds_iff i own).mp counted).1
    · intro range
      rw [(t.encode_seconds_iff i _).mpr ⟨range, rfl⟩]
      exact ⟨_, rfl⟩
  · intro bytes done
    refine ⟨t.floor i, t.decode_encode instant i regular bytes done, ?_, t.floor_latest i⟩
    exact Nat.lt_of_le_of_lt (Nat.div_mul_le_self i.nanos t.tick) regular

-- One nanosecond past the first 256th of a second.
theorem first_tick_kept :
    TimeCode.encode .fine (.time ⟨315964800, 3906251⟩) = .ok [0, 0, 0, 0, 1] ∧
    ∃ last : Instant, TimeCode.decode .fine [0, 0, 0, 0, 1] false = .ok (.time last) ∧
      last.nanos < Instant.nanosPerSecond ∧ ((3906250 : Nat) : Int) ∣ last.total ∧
      last.total ≤ Instant.total ⟨315964800, 3906251⟩ ∧
      ∀ n, ((3906250 : Nat) : Int) ∣ n → n ≤ Instant.total ⟨315964800, 3906251⟩ → n ≤ last.total := by
  have spelled : TimeCode.encode .fine (.time ⟨315964800, 3906251⟩) = .ok [0, 0, 0, 0, 1] := by rfl
  exact ⟨spelled, ((kept_to_the_tick .fine (by decide)).2 ⟨315964800, 3906251⟩ (by decide)).2 _ spelled⟩

end TimeCode

end SpaceLink
