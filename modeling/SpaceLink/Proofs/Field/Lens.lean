import SpaceLink.Ccsds.Header
import SpaceLink.Proofs.Field.Names
import SpaceLink.Proofs.Field.Write

/-!
Reading and writing an integer field. What is written is read back, writing back what was read changes
nothing, and of two writes the later counts.
-/

set_option autoImplicit false

namespace SpaceLink.Field

-- The numbers that have room in the field: those of its type, or those whose bits are all in the mask
-- once that is moved down to the lowest place.
def Fits (f : Field) (t : IntType) (v : Int) : Prop :=
  match f.mask with
  | none => t.least ≤ v ∧ v ≤ t.greatest
  | some mask => 0 ≤ v ∧ v = Wide.and v (mask.toNat >>> f.shift : Nat)

instance (f : Field) (t : IntType) (v : Int) : Decidable (f.Fits t v) :=
  match masked : f.mask with
  | none => decidable_of_iff (t.least ≤ v ∧ v ≤ t.greatest) (by simp only [Fits, masked])
  | some mask => decidable_of_iff (0 ≤ v ∧ v = Wide.and v (mask.toNat >>> f.shift : Nat)) (by simp only [Fits, masked])

-- A mask that takes in the sign bit of its type cannot be spelled in it.
def MaskHeld (f : Field) (t : IntType) : Prop := ∀ mask, f.mask = some mask → t.holds mask.toNat = true

section Integers

variable (books : Books) (f : Field) (t : IntType) (sound : f.Sound) (held : f.MaskHeld t)
variable (integer : f.type = .scalar (.primitive (.int t)))

include integer in
theorem mask_narrow (sound : f.Sound) (mask : UInt64) (masked : f.mask = some mask) : mask.toNat < 2 ^ t.nbits := by
  obtain ⟨t', integer', _, narrow⟩ := sound.masked mask masked
  rw [integer] at integer'
  cases integer'
  exact narrow

include integer in
theorem mask_held_of_unsigned (sound : f.Sound) (unsigned : f.mask = none ∨ t.signed = false) : f.MaskHeld t := by
  intro mask masked
  have narrow := f.mask_narrow t integer sound mask masked
  rcases unsigned with unmasked | unsigned
  · rw [unmasked] at masked
    cases masked
  · obtain ⟨low, high⟩ := t.bounds_unsigned unsigned
    rw [t.holds_iff, low, high]
    omega

theorem mask_clear (mask : UInt64) (masked : f.mask = some mask) (i : Nat) (low : i < f.shift) :
    mask.toNat.testBit i = false := by
  simp only [shift, masked] at low
  exact trailing_zeros_clear 64 mask.toNat i low

theorem moved_mask_lt (mask : UInt64) : mask.toNat >>> f.shift < 2 ^ 127 := by
  have bound := mask.toNat_lt
  have smaller := Nat.div_le_self mask.toNat (2 ^ f.shift)
  rw [Nat.shiftRight_eq_div_pow]
  omega

include held integer in
theorem mask_bytes_ok : ∃ mask, f.maskBytes books = .ok mask := by
  simp only [maskBytes]
  cases masked : f.mask with
  | none => exact ⟨none, rfl⟩
  | some mask =>
      have encoded := t.encode_of_holds _ (held mask masked)
      refine ⟨some (t.order.spell t.nbytes ((mask.toNat : Int) % 2 ^ t.nbits).toNat), ?_⟩
      rw [integer]
      change (t.encode mask.toNat >>= fun bytes => .ok (some bytes)) = _
      rw [encoded]
      rfl

-- The number that stands in the bytes for a number of the field.
def raised (f : Field) (v : Int) : Int :=
  match f.mask with
  | none => v
  | some _ => Wide.shiftLeft v f.shift

include integer in
theorem encode_int (v : Int) : f.encode books (.int v) = t.encode (f.raised v) := by
  simp only [encode, raised]
  rw [with_code_int, integer]
  cases f.mask with
  | none => rfl
  | some mask => rfl

-- Of a value, the type and the mask see the number only.
include integer in
theorem image_number (v : Value) (n : Int) (number : f.number? v = some n) : f.image books v = f.image books (.int n) := by
  have whole : (Value.int n).toInt? = some n := rfl
  have encoded : f.encode books v = f.encode books (.int n) := by
    simp only [number?] at number
    simp only [encode]
    rw [with_code_int, integer]
    cases f.mask with
    | none => simp only [DataType.encode, Scalar.encode, Primitive.encode, number, whole]
    | some mask => simp only [number, whole]
  simp only [image, encoded]

include held integer in
theorem image_int (v : Int) (inside : t.holds (f.raised v) = true) :
    f.image books (.int v) = .ok (t.order.spell t.nbytes (t.pattern (f.raised v))) := by
  rw [image_ok_iff]
  refine ⟨?_, f.mask_bytes_ok books t held integer⟩
  rw [f.encode_int books t integer, t.encode_of_holds _ inside]
  rfl

-- Within the mask, moving up and cutting undo each other.
theorem raised_fits (mask : UInt64) (masked : f.mask = some mask) (v : Int) (fits : f.Fits t v) :
    ∃ k : Nat, v = k ∧ f.raised v = (k <<< f.shift : Nat) ∧ (k <<< f.shift) &&& mask.toNat = k <<< f.shift := by
  simp only [Fits, masked] at fits
  obtain ⟨positive, inMask⟩ := fits
  obtain ⟨k, rfl⟩ := Int.eq_ofNat_of_zero_le positive
  have low : k = k &&& (mask.toNat >>> f.shift) := by
    rw [Wide.and_nat _ _ (f.moved_mask_lt mask)] at inMask
    exact_mod_cast inMask
  have kept : (k <<< f.shift) &&& mask.toNat = k <<< f.shift := by
    rw [shift_left_and, ← low]
  have bound : k <<< f.shift < 2 ^ 64 := by
    have inside : (k <<< f.shift) &&& mask.toNat ≤ mask.toNat := Nat.and_le_right
    have wide := mask.toNat_lt
    omega
  refine ⟨k, rfl, ?_, kept⟩
  have cast : ((k <<< f.shift : Nat) : Int) = (k : Int) * 2 ^ f.shift := by
    rw [Nat.shiftLeft_eq]
    push_cast
    rfl
  simp only [raised, masked, Wide.shiftLeft]
  rw [← cast, Wide.wrap_of_fits]
  rw [Wide.fits_iff]
  simp only [Wide.least, Wide.greatest]
  omega

include held in
theorem raised_held (v : Int) (fits : f.Fits t v) : t.holds (f.raised v) = true := by
  cases masked : f.mask with
  | none =>
      simp only [Fits, masked] at fits
      simp only [raised, masked]
      exact (t.holds_iff v).mpr fits
  | some mask =>
      obtain ⟨k, _, moved, kept⟩ := f.raised_fits t mask masked v fits
      have inside := (t.holds_iff _).mp (held mask masked)
      have bound : (k <<< f.shift) &&& mask.toNat ≤ mask.toNat := Nat.and_le_right
      have below : t.least ≤ 0 := by
        cases signed : t.signed with
        | true =>
            obtain ⟨low, _⟩ := t.bounds_signed signed
            omega
        | false =>
            obtain ⟨low, _⟩ := t.bounds_unsigned signed
            omega
      rw [moved, t.holds_iff]
      omega

include integer sound in
theorem unmask_raised (v : Int) (fits : f.Fits t v) : f.unmask (.int (f.raised v)) = .int v := by
  cases masked : f.mask with
  | none => simp only [unmask, raised, masked]
  | some mask =>
      obtain ⟨k, same, moved, kept⟩ := f.raised_fits t mask masked v fits
      have narrow := f.mask_narrow t integer sound mask masked
      have bound : (k <<< f.shift) &&& mask.toNat ≤ mask.toNat := Nat.and_le_right
      rw [f.unmask_int mask t masked narrow, moved, t.pattern_of_nat _ (by omega), kept, Nat.shiftLeft_shiftRight, same]

include integer in
theorem decode_spelled (n : Int) (inside : t.holds n = true) (raw : Bool) (index : Option Nat) :
    f.decodeSlice books (t.order.spell t.nbytes (t.pattern n)) raw index = .ok (f.finish raw (.int n)) := by
  have whole : (t.order.spell t.nbytes (t.pattern n)).length = t.nbytes := ByteOrder.length_spell _ _ _
  rw [decode_slice_eq, f.typed_int books t integer _ raw index (by omega), List.take_of_length_le (by omega),
    t.decode_pattern n inside]
  rfl

-- What the field reads in any bytes of its width fits it and stands in the same bits.
include integer sound in
theorem read_fits (own : Bytes) (whole : own.length = t.nbytes) :
    ∃ u, f.unmask (.int (t.decode own)) = .int u ∧ f.Fits t u ∧
      ∀ byte place, f.covers byte place = true →
        (t.order.spell t.nbytes (t.pattern (f.raised u))).bit byte place = own.bit byte place := by
  have extent := f.extent_int t integer
  cases masked : f.mask with
  | none =>
      refine ⟨t.decode own, by simp only [unmask, masked], ?_, ?_⟩
      · simp only [Fits, masked]
        exact (t.holds_iff _).mp (t.holds_decode own whole)
      · intro byte place _
        simp only [raised, masked]
        rw [t.pattern_decode own whole, ← whole, ByteOrder.spell_read]
  | some mask =>
      have narrow := f.mask_narrow t integer sound mask masked
      have clear := f.mask_clear mask masked
      have fits : f.Fits t ((t.order.read own &&& mask.toNat) >>> f.shift : Nat) := by
        simp only [Fits, masked]
        refine ⟨Int.natCast_nonneg _, ?_⟩
        rw [Wide.and_nat _ _ (f.moved_mask_lt mask), and_shift_right, Nat.and_assoc, Nat.and_self]
      refine ⟨((t.order.read own &&& mask.toNat) >>> f.shift : Nat), ?_, fits, ?_⟩
      · rw [f.unmask_int mask t masked narrow, t.pattern_decode own whole]
      · intro byte place covered
        obtain ⟨inside, low⟩ := f.covers_bounds byte place covered
        rw [extent] at inside
        obtain ⟨k, same, moved, _⟩ := f.raised_fits t mask masked _ fits
        have restored : k <<< f.shift = t.order.read own &&& mask.toNat := by
          have cast : (t.order.read own &&& mask.toNat) >>> f.shift = k := by exact_mod_cast same
          rw [← cast, and_shift_back _ _ _ clear]
        have inMask : mask.toNat.testBit (8 * t.order.weight t.nbytes byte + place) = true := by
          rw [← f.covers_masked mask t masked integer byte place inside low, covered]
        have bound : t.order.read own &&& mask.toNat ≤ mask.toNat := Nat.and_le_right
        rw [moved, restored, t.pattern_of_nat _ (by omega), t.order.bit_spell _ _ _ _ inside low, Nat.testBit_and, inMask,
          Bool.and_true, ← whole, t.order.read_test_bit own byte place (by omega) low]

section Buffers

variable (offset : Nat) (room : (f.span offset).start + f.extent ≤ (f.span offset).stop)

include sound integer room in
theorem decode_of_bits (n : Int) (inside : t.holds n = true) (out : Bytes) (long : (f.span offset).stop ≤ out.length)
    (painted : ∀ byte place, f.owns offset byte place = true →
      out.bit byte place = (t.order.spell t.nbytes (t.pattern n)).bit (byte - (f.span offset).start) place)
    (raw : Bool) (index : Option Nat) : f.decodeAt books out offset raw index = .ok (f.finish raw (.int n)) := by
  have builtIn := f.built_in_int t integer
  have whole : (t.order.spell t.nbytes (t.pattern n)).length = f.extent :=
    (ByteOrder.length_spell _ _ _).trans (f.extent_int t integer).symm
  rw [f.decode_painted books sound builtIn (f.unwrapped_int t integer) offset out _ raw index room long whole painted]
  exact f.decode_spelled books t integer n inside raw index

include sound integer in
theorem finish_raised (v : Int) (fits : f.Fits t v) (raw : Bool) :
    f.finish raw (.int (f.raised v)) = if raw then .int v else f.withName (.int v) := by
  simp only [finish]
  rw [f.unmask_raised t sound integer v fits]

include sound held integer room in
theorem write_then_read (buffer : Bytes) (long : (f.span offset).stop ≤ buffer.length) (v : Int) (fits : f.Fits t v) :
    ∃ out, f.write books buffer offset (.int v) = .ok out ∧
      ∀ raw index, f.decodeAt books out offset raw index = .ok (if raw then .int v else f.withName (.int v)) := by
  have builtIn := f.built_in_int t integer
  have inside := f.raised_held t held v fits
  have imaged := f.image_int books t held integer v inside
  obtain ⟨out, written, painted⟩ := f.write_of_image books sound builtIn buffer offset (.int v) _ room long imaged
  refine ⟨out, written, ?_⟩
  intro raw index
  have longOut : (f.span offset).stop ≤ out.length := by rw [painted.length]; exact long
  rw [f.decode_of_bits books t sound integer offset room _ inside out longOut painted.inside raw index,
    f.finish_raised t sound integer v fits raw]

include sound held integer room in
theorem read_then_write (buffer : Bytes) (long : (f.span offset).stop ≤ buffer.length) (raw : Bool)
    (index : Option Nat) :
    ∃ u, f.Fits t u ∧ f.decodeAt books buffer offset raw index = .ok (if raw then .int u else f.withName (.int u)) ∧
      f.write books buffer offset (if raw then .int u else f.withName (.int u)) = .ok buffer := by
  have builtIn := f.built_in_int t integer
  have extent := f.extent_int t integer
  generalize ownEq : (buffer.drop (f.span offset).start).take t.nbytes = own
  have whole : own.length = t.nbytes := by
    rw [← ownEq, List.length_take, List.length_drop]
    omega
  have ownBits : ∀ byte place, f.covers byte place = true →
      Bytes.bit own byte place = buffer.bit ((f.span offset).start + byte) place := by
    intro byte place covered
    have bounds := f.covers_bounds byte place covered
    rw [← ownEq, Bytes.bit_take _ _ _ _ (by omega), Bytes.bit_drop]
  obtain ⟨u, unmasked, fits, bits⟩ := f.read_fits t sound integer own whole
  have inside := f.raised_held t held u fits
  have imaged := f.image_int books t held integer u inside
  have same : f.withCode (if raw then .int u else f.withName (.int u)) = f.withCode (.int u) := by
    cases raw with
    | true => rfl
    | false => exact (f.with_code_with_name u).trans (f.with_code_int u).symm
  refine ⟨u, fits, ?_, ?_⟩
  · rw [f.decode_painted books sound builtIn (f.unwrapped_int t integer) offset buffer own raw index room long
        (whole.trans extent.symm), decode_slice_eq, f.typed_int books t integer own raw index (by omega), List.take_of_length_le (by omega)]
    · change Except.ok (f.finish raw (.int (t.decode own))) = _
      simp only [finish]
      rw [unmasked]
    · intro byte place owned
      obtain ⟨own', rfl, covered⟩ := f.owned_place offset byte place owned
      rw [Nat.add_sub_cancel_left, ownBits own' place covered]
  · rw [f.write_of_code books buffer offset _ _ same]
    exact f.write_unchanged books sound builtIn buffer offset (.int u) _ room long imaged fun byte place covered =>
      (bits byte place covered).trans (ownBits byte place covered)

end Buffers

end Integers

theorem write_then_write (books : Books) (f : Field) (sound : f.Sound) (builtIn : f.type.isBuiltIn = true)
    (offset : Nat) (room : (f.span offset).start + f.extent ≤ (f.span offset).stop) (buffer out : Bytes)
    (v w : Value) (first : f.write books buffer offset v = .ok out) :
    f.write books out offset w = f.write books buffer offset w := by
  obtain ⟨long, newV, _, paintV⟩ := f.painted_of_write books sound builtIn buffer out offset v room first
  cases alone : f.write books buffer offset w with
  | error fault => exact f.write_fault_of_length books sound builtIn buffer out offset w fault room paintV.length.symm alone
  | ok single =>
      obtain ⟨_, newW, imaged, paintW⟩ := f.painted_of_write books sound builtIn buffer single offset w room alone
      have longOut : (f.span offset).stop ≤ out.length := by rw [paintV.length]; exact long
      obtain ⟨last, written, paintLast⟩ := f.write_of_image books sound builtIn out offset w newW room longOut imaged
      have replaced : f.Painted offset buffer newW last := by
        refine ⟨paintLast.length.trans paintV.length, paintLast.inside, ?_⟩
        intro byte place unowned
        rw [paintLast.outside byte place unowned, paintV.outside byte place unowned]
      rw [written, f.painted_unique offset buffer newW last single replaced paintW]

-- Positions are held at the greatest byte number, and no buffer in memory is that long.
theorem integer_field_lens (known books : Books) (f : Field) (t : IntType) (checked : f.check known = .ok ())
    (integer : f.type = .scalar (.primitive (.int t))) (unsigned : f.mask = none ∨ t.signed = false)
    (offset : Nat) (buffer : Bytes) (covering : (f.span offset).stop ≤ buffer.length)
    (inMemory : buffer.length < Position.greatest) :
    (∀ v, f.Fits t v → ∃ out, f.write books buffer offset (.int v) = .ok out ∧
      ∀ index, f.decodeAt books out offset true index = .ok (.int v) ∧
        f.decodeAt books out offset false index = .ok (match f.nameOf? v with
          | some name => .str name
          | none => .int v)) ∧
    (∀ raw index, ∃ v, f.decodeAt books buffer offset raw index = .ok v ∧
      f.write books buffer offset v = .ok buffer) ∧
    (∀ v w out, f.write books buffer offset v = .ok out →
      f.write books out offset w = f.write books buffer offset w) ∧
    (∀ e name code, f.enumeration = some e → e.code? name = some code → f.Fits t code →
      f.write books buffer offset (.str name) = f.write books buffer offset (.int code)) := by
  have sound := f.sound_of_check known checked
  have held := f.mask_held_of_unsigned t integer sound unsigned
  have room := f.room sound offset (by omega)
  have builtIn := f.built_in_int t integer
  refine ⟨?_, ?_, ?_, ?_⟩
  · intro v fits
    obtain ⟨out, written, reads⟩ := f.write_then_read books t sound held integer offset room buffer covering v fits
    refine ⟨out, written, ?_⟩
    intro index
    refine ⟨reads true index, ?_⟩
    rw [reads false index]
    exact congrArg Except.ok (f.with_name_int v)
  · intro raw index
    obtain ⟨u, _, read, written⟩ := f.read_then_write books t sound held integer offset room buffer covering raw index
    exact ⟨_, read, written⟩
  · intro v w out first
    exact f.write_then_write books sound builtIn offset room buffer out v w first
  · intro e name code enumerated found _
    apply f.write_of_code
    rw [f.with_code_name e name code enumerated found, f.with_code_int]

-- The upper two bits of a byte, with a name for each of their four numbers.
theorem sequence_flags_lens :
    let flags := Ccsds.bits "seqflags" Ccsds.byteType (.single 2) (some 0xc0) (some Ccsds.segments)
    flags.check .none = .ok () ∧
      ∃ out, flags.write .none [8, 7, 6, 5, 4, 3] 3 (.int 2) = .ok out ∧
        flags.decodeAt .none out 3 false none = .ok (.str "Last Segment") := by
  intro flags
  have passed : flags.check .none = .ok () := rfl
  obtain ⟨put, _⟩ := integer_field_lens .none .none flags Ccsds.byteType passed rfl (.inr rfl) 3 [8, 7, 6, 5, 4, 3]
    (by decide) (by decide)
  obtain ⟨out, written, reads⟩ := put 2 (by decide)
  exact ⟨passed, out, written, (reads none).2⟩

end SpaceLink.Field
