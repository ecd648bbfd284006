import SpaceLink.Proofs.DataType.Text
import SpaceLink.Proofs.Field.Lens

/-!
What the bytes of a field keep of a value that is valid for its type: of a number the bits that are in
the mask, of a text as many bytes as the type has.
-/

set_option autoImplicit false

namespace SpaceLink

namespace Field

-- The number that is left of a number of the type once it is cut to the mask.
def kept (f : Field) (n : Int) : Int :=
  match f.mask with
  | none => n
  | some mask => Wide.and n (mask.toNat >>> f.shift : Nat)

section Numbers

variable (books : Books) (f : Field) (t : IntType) (sound : f.Sound) (held : f.MaskHeld t)
variable (integer : f.type = .scalar (.primitive (.int t)))

include sound integer in
theorem shift_lt : f.shift < t.nbits := by
  have bounds := t.nbits_bounds
  cases masked : f.mask with
  | none =>
      simp only [shift, masked]
      omega
  | some mask =>
      have narrow := f.mask_narrow t integer sound mask masked
      obtain ⟨_, _, nonzero, _⟩ := sound.masked mask masked
      obtain ⟨i, set⟩ := Nat.exists_testBit_of_ne_zero fun zero => nonzero (UInt64.toNat_inj.mp zero)
      have high : 2 ^ i ≤ mask.toNat := Nat.ge_two_pow_of_testBit set
      have inType : i < t.nbits := (Nat.pow_lt_pow_iff_right (by decide)).mp (Nat.lt_of_le_of_lt high narrow)
      apply Nat.lt_of_le_of_lt _ inType
      apply Nat.le_of_not_lt
      intro below
      simp [f.mask_clear mask masked i below] at set

-- The shift of a number of the type stays within 128 bits.
include sound integer in
theorem raised_of_holds (n : Int) (inside : t.holds n = true) : f.raised n = n * 2 ^ f.shift := by
  cases masked : f.mask with
  | none => simp [raised, shift, masked]
  | some mask =>
      have small : n.natAbs ≤ 2 ^ 64 - 1 := Nat.le_pred_of_lt (t.abs_of_holds n inside)
      have near : f.shift ≤ 63 := by
        have below := f.shift_lt t sound integer
        have bounds := t.nbits_bounds
        omega
      have size : (n * 2 ^ f.shift).natAbs ≤ (2 ^ 64 - 1) * 2 ^ 63 := by
        rw [Int.natAbs_mul, Int.natAbs_pow]
        exact Nat.mul_le_mul small (Nat.pow_le_pow_right (by decide) near)
      simp only [raised, masked, Wide.shiftLeft]
      apply Wide.wrap_of_fits
      rw [Wide.fits_iff]
      simp only [Wide.least, Wide.greatest]
      omega

include sound integer in
theorem unmask_raised_kept (n : Int) (inside : t.holds n = true) : f.unmask (.int (f.raised n)) = .int (f.kept n) := by
  have bounds := t.nbits_bounds
  cases masked : f.mask with
  | none => simp only [unmask, raised, kept, masked]
  | some mask =>
      have narrow := f.mask_narrow t integer sound mask masked
      have moved : mask.toNat >>> f.shift < 2 ^ t.nbits := by
        have smaller := Nat.div_le_self mask.toNat (2 ^ f.shift)
        rw [Nat.shiftRight_eq_div_pow]
        omega
      rw [f.unmask_int mask t masked narrow, f.raised_of_holds t sound integer n inside, t.pattern_shift,
        shift_cut_and _ _ _ _ narrow]
      simp only [kept, masked]
      rw [Wide.and_low n _ t.nbits (by omega) moved]
      rfl

theorem masked_kept_iff (mask : UInt64) (masked : f.mask = some mask) (n : Int) : f.kept n = n ↔ f.Fits t n := by
  simp only [kept, Fits, masked]
  constructor
  · intro same
    refine ⟨?_, same.symm⟩
    rw [← same, Wide.and_low n _ 127 (by decide) (f.moved_mask_lt mask)]
    exact Int.natCast_nonneg _
  · rintro ⟨_, same⟩
    exact same.symm

theorem kept_iff_fits (n : Int) (inside : t.holds n = true) : f.kept n = n ↔ f.Fits t n := by
  cases masked : f.mask with
  | none =>
      simp only [kept, Fits, masked]
      simpa using (t.holds_iff n).mp inside
  | some mask => exact f.masked_kept_iff t mask masked n

section Images

variable (v : Value) (n : Int) (number : f.number? v = some n) (inside : t.holds n = true)

include sound held integer number inside in
theorem image_number_iff : (∃ new, f.image books v = .ok new) ↔ t.holds (n * 2 ^ f.shift) = true := by
  rw [← f.raised_of_holds t sound integer n inside, f.image_number books t integer v n number]
  constructor
  · rintro ⟨new, imaged⟩
    obtain ⟨encoded, _⟩ := (f.image_ok_iff books _ new).mp imaged
    rw [f.encode_int books t integer n] at encoded
    exact (t.encode_ok _ new encoded).1
  · intro moved
    exact ⟨_, f.image_int books t held integer n moved⟩

include sound integer number inside in
theorem read_number_image (new : Bytes) (imaged : f.image books v = .ok new) (index : Option Nat) :
    f.decodeSlice books new true index = .ok (.int (f.kept n)) := by
  rw [f.image_number books t integer v n number] at imaged
  obtain ⟨encoded, _⟩ := (f.image_ok_iff books _ new).mp imaged
  rw [f.encode_int books t integer n] at encoded
  obtain ⟨moved, spelled⟩ := t.encode_ok _ new encoded
  rw [spelled]
  exact (f.decode_spelled books t integer _ moved true index).trans
    (congrArg Except.ok (f.unmask_raised_kept t sound integer n inside))

end Images

end Numbers

section Texts

variable (books : Books) (f : Field) (t : TextType) (sound : f.Sound) (text : f.type = .scalar (.primitive (.text t)))

include sound text in
theorem text_unmasked : f.mask = none := by
  apply f.unmasked_of_other sound
  intro own integer
  rw [text] at integer
  cases integer

include sound text in
theorem image_text (plain : f.enumeration = none) (s : String) : f.image books (.str s) = .ok (t.encode s) := by
  have unmasked := f.text_unmasked t sound text
  rw [image_ok_iff]
  constructor
  · simp only [encode, unmasked, text, withCode, plain]
    rfl
  · exact ⟨none, by simp only [maskBytes, unmasked]⟩

include sound text in
theorem read_text_image (s : String) (raw : Bool) (index : Option Nat) :
    f.decodeSlice books (t.encode s) raw index = .ok (.str (TextType.decode (t.encode s))) := by
  have unmasked := f.text_unmasked t sound text
  have whole := t.length_encode s
  have own : (t.encode s).take t.size = t.encode s := List.take_of_length_le (Nat.le_of_eq whole)
  have typed : f.typed books (t.encode s) raw index = .ok (.str (TextType.decode (t.encode s))) := by
    simp only [typed, text, DataType.decode, Scalar.decode, Primitive.decode, Primitive.nbytes, own, whole, Nat.lt_irrefl,
      if_false]
  rw [decode_slice_eq, Attempt.bind_of_ok _ _ _ typed]
  cases raw <;> cases enumerated : f.enumeration <;> simp [finish, unmask, unmasked, withName, enumerated]

end Texts

-- An integer type, with a mask that it can spell, or a text.
def NumberOrText (f : Field) : Prop :=
  (∃ t, f.type = .scalar (.primitive (.int t)) ∧ f.MaskHeld t) ∨ ∃ t, f.type = .scalar (.primitive (.text t))

section NumbersAndTexts

variable (f : Field) (kind : f.NumberOrText)

include kind

theorem built_in_of_kind : f.type.isBuiltIn = true := by
  rcases kind with ⟨t, integer, _⟩ | ⟨t, text⟩
  · exact f.built_in_int t integer
  · rw [text]
    rfl

theorem unwrapped_of_kind : ¬ f.type.Wraps := by
  rcases kind with ⟨t, integer, _⟩ | ⟨t, text⟩
  · exact f.unwrapped_int t integer
  · exact text ▸ DataType.scalar_unwrapped _

theorem mask_bytes_of_kind (books : Books) (sound : f.Sound) : ∃ mask, f.maskBytes books = .ok mask := by
  rcases kind with ⟨t, integer, held⟩ | ⟨t, text⟩
  · exact f.mask_bytes_ok books t held integer
  · exact ⟨none, by simp only [maskBytes, f.text_unmasked t sound text]⟩

-- No code book is looked at, so the one of the check is as good as any.
theorem image_of_fixed (known books : Books) (v : Value) (fixed : f.fixed = some v) (checked : f.check known = .ok ()) :
    ∃ new, f.image books v = .ok new := by
  obtain ⟨new, encoded⟩ := f.fixed_encodes known v fixed checked
  refine ⟨new, (f.image_ok_iff books v new).mpr ⟨?_, f.mask_bytes_of_kind kind books (f.sound_of_check known checked)⟩⟩
  rw [← encoded]
  rcases kind with ⟨t, integer, _⟩ | ⟨t, text⟩
  · simp only [encode, integer, DataType.encode, Scalar.encode]
  · simp only [encode, text, DataType.encode, Scalar.encode]

end NumbersAndTexts

end Field

end SpaceLink
