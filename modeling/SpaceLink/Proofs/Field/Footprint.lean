import SpaceLink.Proofs.DataType.Width
import SpaceLink.Proofs.Field.Check
import SpaceLink.Proofs.Field.Mask

/-!
The bits that belong to a field. A write changes no other bit, and puts into them bits that do not
depend on the buffer; a reading looks at no other bit.
-/

set_option autoImplicit false

namespace SpaceLink

namespace DataType

def order (t : DataType) : ByteOrder :=
  match t.intType? with
  | some t => t.order
  | none => .msb

end DataType

namespace Field

-- Within the bytes that the field takes up: all their bits, or those that the mask names.
def covers (f : Field) (byte place : Nat) : Bool :=
  decide (byte < f.extent) && decide (place < 8) &&
    match f.mask with
    | none => true
    | some mask => mask.toNat.testBit (8 * f.type.order.weight f.type.nbytes byte + place)

-- Within a buffer in which positions are counted from `offset`.
def owns (f : Field) (offset byte place : Nat) : Bool :=
  decide ((f.span offset).start ≤ byte) && f.covers (byte - (f.span offset).start) place

def ApartAt (offset : Nat) (f g : Field) : Prop :=
  ∀ byte place, f.owns offset byte place = true → g.owns offset byte place = false

def Apart (f g : Field) : Prop :=
  ∀ byte place, f.owns 0 byte place = true → g.owns 0 byte place = false

theorem covers_bounds (f : Field) (byte place : Nat) (covered : f.covers byte place = true) :
    byte < f.extent ∧ place < 8 := by
  simp only [covers, Bool.and_eq_true, decide_eq_true_eq] at covered
  exact covered.1

theorem owns_bounds (f : Field) (offset byte place : Nat) (owned : f.owns offset byte place = true) :
    (f.span offset).start ≤ byte ∧ byte < (f.span offset).start + f.extent ∧ place < 8 := by
  simp only [owns, Bool.and_eq_true, decide_eq_true_eq] at owned
  have bounds := f.covers_bounds _ _ owned.2
  omega

-- Every bit that a field owns is one that it covers, counted from its start.
theorem owned_place (f : Field) (offset byte place : Nat) (owned : f.owns offset byte place = true) :
    ∃ own, byte = (f.span offset).start + own ∧ f.covers own place = true := by
  obtain ⟨start, _⟩ := f.owns_bounds offset byte place owned
  simp only [owns, Bool.and_eq_true] at owned
  exact ⟨byte - (f.span offset).start, (Nat.add_sub_of_le start).symm, owned.2⟩

theorem owns_at (f : Field) (offset byte place : Nat) :
    f.owns offset ((f.span offset).start + byte) place = f.covers byte place := by
  simp [owns]

theorem owns_moved (f : Field) (sound : f.Sound) (offset byte place : Nat)
    (near : offset + lastByte + 1 < Position.greatest) : f.owns offset (offset + byte) place = f.owns 0 byte place := by
  have start : (f.span offset).start = (f.span 0).start + offset := by rw [f.span_moved sound offset near]
  simp only [owns]
  rw [start, show offset + byte - ((f.span 0).start + offset) = byte - (f.span 0).start by omega]
  congr 2
  apply propext
  omega

theorem apart_iff (f g : Field) :
    f.Apart g ↔ ∀ byte < (f.span 0).start + f.extent, ∀ place < 8,
      f.owns 0 byte place = true → g.owns 0 byte place = false := by
  constructor
  · intro apart byte _ place _
    exact apart byte place
  · intro checked byte place owned
    obtain ⟨_, inside, low⟩ := f.owns_bounds 0 byte place owned
    exact checked byte inside place low owned

instance (f g : Field) : Decidable (f.Apart g) := decidable_of_iff _ (apart_iff f g).symm

-- Both fields are moved by the same offset, so what is apart stays so.
theorem apart_moved (f g : Field) (soundF : f.Sound) (soundG : g.Sound) (apart : f.Apart g) (offset : Nat)
    (near : offset + lastByte + 1 < Position.greatest) : f.ApartAt offset g := by
  intro byte place owned
  have start : (f.span offset).start = (f.span 0).start + offset := by rw [f.span_moved soundF offset near]
  have bounds := f.owns_bounds offset byte place owned
  have split : byte = offset + (byte - offset) := by omega
  rw [split, f.owns_moved soundF _ _ _ near] at owned
  rw [split, g.owns_moved soundG _ _ _ near]
  exact apart _ _ owned

theorem covers_unmasked (f : Field) (unmasked : f.mask = none) (byte place : Nat) (inside : byte < f.extent)
    (low : place < 8) : f.covers byte place = true := by
  simp [covers, unmasked, inside, low]

theorem nbytes_int (f : Field) (t : IntType) (integer : f.type = .scalar (.primitive (.int t))) :
    f.type.nbytes = t.nbytes := by
  rw [integer]
  rfl

theorem unwrapped_int (f : Field) (t : IntType) (integer : f.type = .scalar (.primitive (.int t))) : ¬ f.type.Wraps :=
  integer ▸ DataType.scalar_unwrapped _

theorem extent_int (f : Field) (t : IntType) (integer : f.type = .scalar (.primitive (.int t))) : f.extent = t.nbytes :=
  f.extent_scalar _ integer

theorem built_in_int (f : Field) (t : IntType) (integer : f.type = .scalar (.primitive (.int t))) :
    f.type.isBuiltIn = true := by
  rw [integer]
  rfl

theorem covers_masked (f : Field) (mask : UInt64) (t : IntType) (masked : f.mask = some mask)
    (integer : f.type = .scalar (.primitive (.int t))) (byte place : Nat) (inside : byte < t.nbytes) (low : place < 8) :
    f.covers byte place = mask.toNat.testBit (8 * t.order.weight t.nbytes byte + place) := by
  have width := f.nbytes_int t integer
  have extent := f.extent_int t integer
  have order : f.type.order = t.order := by rw [integer]; rfl
  simp [covers, masked, width, extent, order, inside, low]

-- Reading in two steps: what the type makes of the bytes, then what the mask and the names make of that.
def typed (books : Books) (f : Field) (data : Bytes) (raw : Bool) (index : Option Nat) : Attempt Value :=
  match f.type, index with
  | .array a, some i => a.decodeElement books data i raw
  | type, _ => type.decode books data raw

def finish (f : Field) (raw : Bool) (v : Value) : Value := if raw then f.unmask v else f.withName (f.unmask v)

theorem decode_slice_eq (books : Books) (f : Field) (data : Bytes) (raw : Bool) (index : Option Nat) :
    f.decodeSlice books data raw index = (f.typed books data raw index >>= fun v => .ok (f.finish raw v)) := by
  simp only [decodeSlice, typed, finish]
  cases f.type with
  | scalar s => rfl
  | array a => cases index <;> rfl

theorem typed_int (books : Books) (f : Field) (t : IntType) (integer : f.type = .scalar (.primitive (.int t)))
    (data : Bytes) (raw : Bool) (index : Option Nat) (long : t.nbytes ≤ data.length) :
    f.typed books data raw index = .ok (.int (t.decode (data.take t.nbytes))) := by
  simp only [typed, integer]
  exact t.decode_primitive data long

theorem unmask_int (f : Field) (mask : UInt64) (t : IntType) (masked : f.mask = some mask)
    (narrow : mask.toNat < 2 ^ t.nbits) (n : Int) :
    f.unmask (.int n) = .int ((t.pattern n &&& mask.toNat) >>> f.shift : Nat) := by
  have bounds := t.nbits_bounds
  simp only [unmask, masked]
  rw [Wide.and_low n _ t.nbits (by omega) narrow, Wide.shift_right_nat]
  rfl

-- Below the mask two spellings agree bit by bit, each bit in the byte where the order puts it.
theorem masked_numbers_agree (f : Field) (mask : UInt64) (t : IntType) (masked : f.mask = some mask)
    (integer : f.type = .scalar (.primitive (.int t))) (narrow : mask.toNat < 2 ^ t.nbits) (a b : Bytes)
    (wholeA : a.length = t.nbytes) (wholeB : b.length = t.nbytes)
    (same : ∀ byte place, f.covers byte place = true → a.bit byte place = b.bit byte place) :
    t.order.read a &&& mask.toNat = t.order.read b &&& mask.toNat := by
  apply Nat.eq_of_testBit_eq
  intro i
  rw [Nat.testBit_and, Nat.testBit_and]
  cases inMask : mask.toNat.testBit i with
  | false => simp
  | true =>
      have inside : i < 8 * t.nbytes := by
        apply Nat.lt_of_not_le
        intro high
        have clear : mask.toNat.testBit i = false :=
          Nat.testBit_lt_two_pow (Nat.lt_of_lt_of_le narrow (Nat.pow_le_pow_right (by decide) high))
        simp [clear] at inMask
      obtain ⟨byte, within, place, low, position⟩ := t.order.bit_index t.nbytes i inside
      have readA := t.order.read_test_bit a byte place (by omega) low
      have readB := t.order.read_test_bit b byte place (by omega) low
      rw [wholeA] at readA
      rw [wholeB] at readB
      have covered : f.covers byte place = true := by
        rw [f.covers_masked mask t masked integer byte place within low, ← position, inMask]
      rw [position, readA, readB, same byte place covered]

theorem decode_slice_agrees (books : Books) (f : Field) (sound : f.Sound) (builtIn : f.type.isBuiltIn = true)
    (unwrapped : ¬ f.type.Wraps) (a b : Bytes) (raw : Bool) (index : Option Nat) (longA : f.type.nbytes ≤ a.length)
    (longB : f.type.nbytes ≤ b.length)
    (same : ∀ byte place, f.covers byte place = true → a.bit byte place = b.bit byte place) :
    f.decodeSlice books a raw index = f.decodeSlice books b raw index := by
  rw [decode_slice_eq, decode_slice_eq]
  cases masked : f.mask with
  | none =>
      rw [f.type.nbytes_unwrapped unwrapped] at longA longB
      have start : a.take f.type.extent = b.take f.type.extent := by
        refine Bytes.take_of_bits a b _ longA longB fun byte inside place low => same byte place ?_
        refine f.covers_unmasked masked byte place ?_ low
        rwa [f.extent_type unwrapped]
      have values : f.typed books a raw index = f.typed books b raw index := by
        have whole := DataType.decode_prefix books f.type a b raw builtIn longA longB start
        simp only [typed]
        cases type : f.type with
        | scalar s => rwa [type] at whole
        | array array =>
            rw [type] at whole longA start
            cases index with
            | none => exact whole
            | some i => exact array.decode_elem_prefix books a b i raw longA start
      rw [values]
  | some mask =>
      obtain ⟨t, integer, _, narrow⟩ := sound.masked mask masked
      have extent := f.extent_int t integer
      rw [f.nbytes_int t integer] at longA longB
      have wholeA : (a.take t.nbytes).length = t.nbytes := by rw [List.length_take]; omega
      have wholeB : (b.take t.nbytes).length = t.nbytes := by rw [List.length_take]; omega
      have numbers := f.masked_numbers_agree mask t masked integer narrow _ _ wholeA wholeB fun byte place covered => by
        have bounds := f.covers_bounds byte place covered
        rw [Bytes.bit_take _ _ _ _ (by omega), Bytes.bit_take _ _ _ _ (by omega)]
        exact same byte place covered
      rw [f.typed_int books t integer a raw index longA, f.typed_int books t integer b raw index longB]
      simp only [Attempt.bind_of_ok _ _ _ rfl, finish, f.unmask_int mask t masked narrow, t.pattern_decode _ wholeA,
        t.pattern_decode _ wholeB, numbers]

-- The slice of a buffer that a field reads, once the buffer reaches that far.
theorem decode_at_of_long (books : Books) (f : Field) (data : Bytes) (offset : Nat) (raw : Bool) (index : Option Nat)
    (forward : (f.span offset).start ≤ (f.span offset).stop) (long : (f.span offset).stop ≤ data.length) :
    f.decodeAt books data offset raw index =
      f.decodeSlice books ((data.drop (f.span offset).start).take ((f.span offset).stop - (f.span offset).start)) raw index := by
  simp [decodeAt, Bytes.slice?, forward, long]

-- A type that has more bytes than its width says may look at all bytes of the field.
theorem decode_at_agrees (books : Books) (f : Field) (sound : f.Sound) (builtIn : f.type.isBuiltIn = true)
    (a b : Bytes) (offset : Nat) (raw : Bool) (index : Option Nat)
    (room : (f.span offset).start + f.extent ≤ (f.span offset).stop) (sameLength : a.length = b.length)
    (same : ∀ byte place, f.owns offset byte place = true → a.bit byte place = b.bit byte place) :
    f.decodeAt books a offset raw index = f.decodeAt books b offset raw index := by
  by_cases long : (f.span offset).stop ≤ a.length
  · rw [f.decode_at_of_long books a offset raw index (by omega) long,
      f.decode_at_of_long books b offset raw index (by omega) (by omega)]
    have own : ∀ byte place, f.covers byte place = true →
        Bytes.bit ((a.drop (f.span offset).start).take ((f.span offset).stop - (f.span offset).start)) byte place =
          Bytes.bit ((b.drop (f.span offset).start).take ((f.span offset).stop - (f.span offset).start)) byte place := by
      intro byte place covered
      have bounds := f.covers_bounds byte place covered
      rw [Bytes.bit_take _ _ _ _ (by omega), Bytes.bit_take _ _ _ _ (by omega), Bytes.bit_drop, Bytes.bit_drop]
      apply same
      rw [f.owns_at, covered]
    by_cases wraps : f.type.Wraps
    · have all : f.extent = f.nbytes := if_pos wraps
      have moved := f.span_moved_length sound offset
      simp only [Span.length] at moved
      congr 1
      apply Bytes.bytes_of_bits
      · simp only [List.length_take, List.length_drop, sameLength]
      · intro byte inside place low
        rw [List.length_take] at inside
        exact own byte place (f.covers_unmasked (f.unmasked_of_wraps sound wraps) byte place (by omega) low)
    · rw [f.extent_unwrapped wraps] at room
      apply f.decode_slice_agrees books sound builtIn wraps _ _ raw index _ _ own
      · rw [List.length_take, List.length_drop]
        omega
      · rw [List.length_take, List.length_drop]
        omega
  · have longB : ¬ (f.span offset).stop ≤ b.length := by omega
    simp [decodeAt, Bytes.slice?, longB, sameLength]

end Field

end SpaceLink
