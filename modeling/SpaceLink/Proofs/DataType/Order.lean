import SpaceLink.Proofs.DataType.Resolution

/-!
Times in bytes and the order of instants. Byte strings of one length are ordered as the numbers they spell, so a later
instant has the later bytes, but for the 256ths of a leap second: they start over in one byte, within the second before.
-/

set_option autoImplicit false

namespace SpaceLink

namespace Bytes

theorem of_little_append (a b : Bytes) : ofLittle (a ++ b) = ofLittle a + 256 ^ a.length * ofLittle b := by
  induction a with
  | nil => simp [ofLittle]
  | cons x rest ih =>
      simp only [List.cons_append, ofLittle, ih, List.length_cons, Nat.pow_succ, Nat.mul_add]
      rw [← Nat.mul_assoc, Nat.mul_comm 256 (256 ^ rest.length), Nat.add_assoc]

theorem of_big_append (a b : Bytes) : ofBig (a ++ b) = ofBig a * 256 ^ b.length + ofBig b := by
  rw [ofBig, List.reverse_append, of_little_append, List.length_reverse, Nat.add_comm, Nat.mul_comm]
  rfl

theorem of_big_cons (x : UInt8) (rest : Bytes) : ofBig (x :: rest) = x.toNat * 256 ^ rest.length + ofBig rest := by
  have alone : ofBig [x] = x.toNat := by simp [ofBig, ofLittle]
  rw [← List.singleton_append, of_big_append, alone]

-- Numbers in two parts, the lower ones below the unit of the upper ones.
theorem parts_lt_iff (unit a b low low' : Nat) (small : low < unit) (small' : low' < unit) :
    a * unit + low < b * unit + low' ↔ a < b ∨ a = b ∧ low < low' := by
  rcases Nat.lt_trichotomy a b with less | same | greater
  · have gap := Nat.mul_le_mul_right unit (Nat.succ_le_of_lt less)
    rw [Nat.succ_mul] at gap
    simp only [less, true_or, iff_true]
    omega
  · subst same
    simp
  · have gap := Nat.mul_le_mul_right unit (Nat.succ_le_of_lt greater)
    rw [Nat.succ_mul] at gap
    omega

theorem lt_iff_of_big (a b : Bytes) (same : a.length = b.length) : a < b ↔ ofBig a < ofBig b := by
  induction a generalizing b with
  | nil =>
      have empty : b = [] := List.length_eq_zero_iff.mp same.symm
      simp [empty]
  | cons x rest ih =>
      cases b with
      | nil => cases same
      | cons y more =>
          have width : rest.length = more.length := Nat.succ.inj same
          have small := of_big_lt rest
          rw [width] at small
          rw [List.cons_lt_cons_iff, ih more width, of_big_cons, of_big_cons, width,
            parts_lt_iff _ _ _ _ _ small (of_big_lt more), UInt8.lt_iff_toNat_lt, UInt8.toNat_inj]

theorem le_iff_of_big (a b : Bytes) (same : a.length = b.length) : a ≤ b ↔ ofBig a ≤ ofBig b := by
  rw [← List.not_lt, lt_iff_of_big b a same.symm, Nat.not_lt]

end Bytes

theorem Instant.not_after_iff (i j : Instant) :
    i.compare j ≠ .gt ↔ i.seconds < j.seconds ∨ i.seconds = j.seconds ∧ i.nanos ≤ j.nanos := by
  simp only [compare, ne_eq, Ordering.then_eq_gt, Int.compare_eq_gt, Int.compare_eq_eq, Nat.compare_eq_gt]
  omega

namespace TimeCode

-- The nanoseconds of a second that are put into bytes for those of an instant.
def held (t : TimeCode) (nanos : Nat) : Nat :=
  match t with
  | .nanos => min nanos (Instant.nanosPerSecond - 1)
  | _ => nanos % Instant.nanosPerSecond

theorem held_lt (t : TimeCode) (nanos : Nat) : t.held nanos < Instant.nanosPerSecond := by
  cases t <;> simp only [held, Instant.nanosPerSecond] <;> omega

theorem rest_held (t : TimeCode) (nanos : Nat) : t.rest (t.held nanos) = t.rest nanos := by
  -- A whole second more is 256 more of its 256ths, which one byte does not show.
  have around : fineOfNanos (nanos % Instant.nanosPerSecond) = fineOfNanos nanos := by
    apply UInt8.toNat_inj.mp
    simp only [fineOfNanos, UInt8.toNat_ofNat', Instant.nanosPerSecond]
    omega
  cases t with
  | fraction => simp only [rest, held, around]
  | seconds => rfl
  | fine => simp only [rest, held, around]
  | nanos => simp only [rest, held, Nat.min_assoc, Nat.min_self]

-- Behind the seconds stands the number of ticks.
theorem rest_ticks (t : TimeCode) (instant : t ≠ .fraction) (nanos : Nat) :
    (t.rest nanos).length = t.nbytes - 4 ∧ Bytes.ofBig (t.rest nanos) = t.held nanos / t.tick := by
  have small := t.held_lt nanos
  rw [← t.rest_held nanos]
  generalize t.held nanos = low at small
  simp only [Instant.nanosPerSecond] at small
  cases t with
  | fraction => exact absurd rfl instant
  | seconds => exact ⟨rfl, (Nat.div_eq_of_lt small).symm⟩
  | fine =>
      refine ⟨rfl, ?_⟩
      simp only [rest, Bytes.ofBig, List.reverse_singleton, Bytes.ofLittle, fineOfNanos, UInt8.toNat_ofNat', tick,
        Instant.nanosPerSecond]
      omega
  | nanos =>
      have least : min low (Instant.nanosPerSecond - 1) = low := by
        simp only [Instant.nanosPerSecond]
        omega
      refine ⟨Bytes.length_big 4 _, ?_⟩
      rw [rest, least, Bytes.of_big_big, Nat.mod_eq_of_lt (Nat.lt_trans small (by decide)), tick, Nat.div_one]

theorem ticks_lt (t : TimeCode) (instant : t ≠ .fraction) (nanos : Nat) :
    t.held nanos / t.tick < 256 ^ (t.nbytes - 4) := by
  obtain ⟨width, ticks⟩ := t.rest_ticks instant nanos
  rw [← ticks, ← width]
  exact Bytes.of_big_lt _

section Encoded

variable (t : TimeCode) (instant : t ≠ .fraction) (i : Instant) (own : Bytes)
variable (done : t.encode (.time i) = .ok own)

include instant done

theorem encode_parts :
    (0 ≤ i.seconds - epoch ∧ i.seconds - epoch < 2 ^ 32) ∧
      own = Bytes.big 4 (i.seconds - epoch).toNat ++ t.rest i.nanos := by
  rw [t.encode_time instant] at done
  cases counted : t.encodeSeconds i with
  | error fault =>
      rw [counted] at done
      cases done
  | ok first =>
      rw [counted] at done
      cases done
      obtain ⟨range, rfl⟩ := (t.encode_seconds_iff i first).mp counted
      exact ⟨range, rfl⟩

theorem encoded_number :
    own.length = 4 + (t.nbytes - 4) ∧
      Bytes.ofBig own = (i.seconds - epoch).toNat * 256 ^ (t.nbytes - 4) + t.held i.nanos / t.tick := by
  obtain ⟨range, rfl⟩ := t.encode_parts instant i own done
  obtain ⟨width, ticks⟩ := t.rest_ticks instant i.nanos
  have early : (i.seconds - epoch).toNat < 256 ^ 4 := by omega
  rw [List.length_append, Bytes.length_big, Bytes.of_big_append, width, ticks, Bytes.of_big_big, Nat.mod_eq_of_lt early]
  exact ⟨rfl, rfl⟩

-- A leap second is read as an instant within the second that carries it.
theorem decode_held : t.decode own false = .ok (.time (t.floor ⟨i.seconds, t.held i.nanos⟩)) := by
  obtain ⟨range, rfl⟩ := t.encode_parts instant i own done
  apply t.decode_encode instant _ (t.held_lt i.nanos)
  rw [t.encode_time instant, (t.encode_seconds_iff ⟨i.seconds, t.held i.nanos⟩ _).mpr ⟨range, rfl⟩, t.rest_held]
  rfl

end Encoded

-- The 256ths of a leap second start over: here they fall behind those of an instant before it.
def FallsBehind (t : TimeCode) (i j : Instant) : Prop :=
  t = .fine ∧ i.seconds = j.seconds ∧ i.nanos < Instant.nanosPerSecond ∧ Instant.nanosPerSecond ≤ j.nanos ∧
    (j.nanos - Instant.nanosPerSecond) / t.tick < i.nanos / t.tick

theorem ticks_kept_iff (t : TimeCode) (instant : t ≠ .fraction) (i j : Instant) (same : i.seconds = j.seconds)
    (ordered : i.nanos ≤ j.nanos) (short : j.nanos < 2 * Instant.nanosPerSecond) :
    t.held i.nanos / t.tick ≤ t.held j.nanos / t.tick ↔ ¬ t.FallsBehind i j := by
  simp only [FallsBehind, same, true_and]
  cases t with
  | fraction => exact absurd rfl instant
  | seconds =>
      have whole : ∀ nanos, held .seconds nanos / tick .seconds = 0 := fun nanos => Nat.div_eq_of_lt (held_lt _ nanos)
      simp [whole]
  | fine =>
      simp only [held, tick, Instant.nanosPerSecond, true_and] at short ⊢
      omega
  | nanos =>
      simp only [held, tick, Instant.nanosPerSecond, reduceCtorEq, false_and, not_false_eq_true, iff_true, Nat.div_one]
      omega

section Pairs

variable (t : TimeCode) (instant : t ≠ .fraction) (i j : Instant) (a b : Bytes)
variable (encodedI : t.encode (.time i) = .ok a) (encodedJ : t.encode (.time j) = .ok b)

include instant encodedI encodedJ in
theorem bytes_ordered_iff :
    a ≤ b ↔ i.seconds < j.seconds ∨ i.seconds = j.seconds ∧ t.held i.nanos / t.tick ≤ t.held j.nanos / t.tick := by
  obtain ⟨⟨startI, _⟩, _⟩ := t.encode_parts instant i a encodedI
  obtain ⟨⟨startJ, _⟩, _⟩ := t.encode_parts instant j b encodedJ
  obtain ⟨lengthI, numberI⟩ := t.encoded_number instant i a encodedI
  obtain ⟨lengthJ, numberJ⟩ := t.encoded_number instant j b encodedJ
  have apart := Bytes.parts_lt_iff _ (j.seconds - epoch).toNat (i.seconds - epoch).toNat _ _
    (t.ticks_lt instant j.nanos) (t.ticks_lt instant i.nanos)
  rw [Bytes.le_iff_of_big a b (lengthI.trans lengthJ.symm), numberI, numberJ, ← Nat.not_lt, apart]
  omega

theorem floors_ordered_iff (low high : Nat) :
    (t.floor ⟨i.seconds, low⟩).compare (t.floor ⟨j.seconds, high⟩) ≠ .gt ↔
      i.seconds < j.seconds ∨ i.seconds = j.seconds ∧ low / t.tick ≤ high / t.tick := by
  have positive : 0 < t.tick := by cases t <;> decide
  simp only [Instant.not_after_iff, floor, Nat.mul_le_mul_right_iff positive]

end Pairs

-- Later instants have later bytes, and are read as later ones, unless the 256ths of a leap second fall behind.
theorem order_kept_iff (t : TimeCode) (instant : t ≠ .fraction) (i j : Instant) (ordered : i.compare j ≠ .gt)
    (short : j.nanos < 2 * Instant.nanosPerSecond) (a b : Bytes) (encodedI : t.encode (.time i) = .ok a)
    (encodedJ : t.encode (.time j) = .ok b) :
    (a ≤ b ↔ ¬ t.FallsBehind i j) ∧
      ∃ x y, t.decode a false = .ok (.time x) ∧ t.decode b false = .ok (.time y) ∧
        (x.compare y ≠ .gt ↔ ¬ t.FallsBehind i j) := by
  have kept : (i.seconds < j.seconds ∨ i.seconds = j.seconds ∧ t.held i.nanos / t.tick ≤ t.held j.nanos / t.tick) ↔
      ¬ t.FallsBehind i j := by
    rcases (Instant.not_after_iff i j).mp ordered with earlier | ⟨same, before⟩
    · have different : i.seconds ≠ j.seconds := Int.ne_of_lt earlier
      simp [FallsBehind, earlier, different]
    · rw [← t.ticks_kept_iff instant i j same before short]
      simp [same]
  refine ⟨(t.bytes_ordered_iff instant i j a b encodedI encodedJ).trans kept, ?_⟩
  exact ⟨_, _, t.decode_held instant i a encodedI, t.decode_held instant j b encodedJ,
    (t.floors_ordered_iff i j _ _).trans kept⟩

-- The last nanosecond but one before the leap second at the end of 2016, and that leap second.
theorem leap_second_in_order :
    let before : Instant := ⟨1483228799, 999999998⟩
    let leap : Instant := ⟨1483228799, 1000000000⟩
    before.compare leap ≠ .gt ∧ leap.nanos < 2 * Instant.nanosPerSecond ∧
      TimeCode.encode .nanos (.time before) = .ok [69, 147, 8, 255, 59, 154, 201, 254] ∧
      TimeCode.encode .nanos (.time leap) = .ok [69, 147, 8, 255, 59, 154, 201, 255] ∧
      ([69, 147, 8, 255, 59, 154, 201, 254] : Bytes) ≤ [69, 147, 8, 255, 59, 154, 201, 255] := by
  intro before leap
  have first : TimeCode.encode .nanos (.time ⟨1483228799, 999999998⟩) = .ok [69, 147, 8, 255, 59, 154, 201, 254] := by rfl
  have second : TimeCode.encode .nanos (.time ⟨1483228799, 1000000000⟩) = .ok [69, 147, 8, 255, 59, 154, 201, 255] := by rfl
  have ordered : before.compare leap ≠ .gt := by decide
  have short : leap.nanos < 2 * Instant.nanosPerSecond := by decide
  obtain ⟨order, _⟩ := order_kept_iff .nanos (by decide) before leap ordered short _ _ first second
  exact ⟨ordered, short, first, second, order.mpr fun falls => absurd falls.1 (by decide)⟩

theorem leap_second_starts_over :
    let before : Instant := ⟨1483228799, 999999999⟩
    let leap : Instant := ⟨1483228799, 1000000000⟩
    before.compare leap = .lt ∧
      TimeCode.encode .fine (.time before) = .ok [69, 147, 8, 255, 255] ∧
      TimeCode.encode .fine (.time leap) = .ok [69, 147, 8, 255, 0] ∧
      ¬ ([69, 147, 8, 255, 255] : Bytes) ≤ [69, 147, 8, 255, 0] ∧
      TimeCode.decode .fine [69, 147, 8, 255, 255] false = .ok (.time ⟨1483228799, 996093750⟩) ∧
      TimeCode.decode .fine [69, 147, 8, 255, 0] false = .ok (.time ⟨1483228799, 0⟩) :=
  ⟨by decide, rfl, rfl, by decide, rfl, rfl⟩

end TimeCode

end SpaceLink
