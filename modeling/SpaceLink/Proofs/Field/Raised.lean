import SpaceLink.Proofs.Field.Kept
import SpaceLink.Proofs.Number.Wide

/-!
A number on its way into the bits of its field. It is moved up to the mask within 128 bits, where its highest bits are
lost, and only then held against the range of the type. The mask itself goes through the type as a number too.
-/

set_option autoImplicit false

namespace SpaceLink

namespace Wide

-- The bits below those that are lost stay.
theorem and_lowest (n : Int) (places mask width : Nat) (narrow : width + places ≤ 128) (small : width < 128)
    (inside : mask < 2 ^ width) : and (lowest n places) mask = and n mask := by
  have divides : ((2 ^ width : Nat) : Int) ∣ (2 ^ (128 - places) : Nat) := by
    exact_mod_cast Nat.pow_dvd_pow 2 (show width ≤ 128 - places by omega)
  have same : lowest n places % (2 ^ width : Nat) = n % (2 ^ width : Nat) := by
    rw [lowest, ← Int.emod_emod_of_dvd _ divides, Int.bmod_emod, Int.emod_emod_of_dvd _ divides]
  push_cast at same
  rw [and_low _ mask width small inside, and_low n mask width small inside, same]

end Wide

namespace Field

section Masked

variable (books : Books) (f : Field) (t : IntType) (sound : f.Sound) (integer : f.type = .scalar (.primitive (.int t)))
variable (mask : UInt64) (masked : f.mask = some mask)

include sound integer in
theorem shift_near : f.shift < 64 := Nat.lt_of_lt_of_le (f.shift_lt t sound integer) t.nbits_bounds.2

include sound integer masked in
theorem encode_lowest (v : Int) :
    f.encode books (.int v) = t.encode (Wide.lowest v f.shift * 2 ^ f.shift) := by
  have near := f.shift_near t sound integer
  rw [f.encode_int books t integer v, raised, masked]
  exact congrArg t.encode (Wide.shift_left_lowest v f.shift (by omega))

-- A number whose product with the lowest place of the mask is in the range of the type is encoded as that product; any
-- other is refused.
structure Multiplies (v : Int) : Prop where
  taken : t.least ≤ v * 2 ^ f.shift ∧ v * 2 ^ f.shift ≤ t.greatest →
    ∃ bytes, f.encode books (.int v) = .ok bytes ∧ f.type.encode books (.int (v * 2 ^ f.shift)) = .ok bytes
  refused : ¬ (t.least ≤ v * 2 ^ f.shift ∧ v * 2 ^ f.shift ≤ t.greatest) →
    f.encode books (.int v) = .error (.outOfRange (.value (v * 2 ^ f.shift) t.least t.greatest))

include sound integer masked in
theorem multiplies_of_fits (v : Int) (inside : Wide.fits (v * 2 ^ f.shift) = true) : f.Multiplies books t v := by
  have near := f.shift_near t sound integer
  have encoded := f.encode_lowest books t sound integer mask masked v
  rw [(Wide.lowest_iff v f.shift (by omega)).mpr inside] at encoded
  refine ⟨fun held => ?_, fun outside => ?_⟩
  · have spelled := t.encode_of_holds _ ((t.holds_iff _).mpr held)
    exact ⟨_, encoded.trans spelled, by rw [integer]; exact spelled⟩
  · rw [encoded, IntType.encode, if_neg fun held => outside ((t.holds_iff _).mp held)]

include sound integer masked in
theorem holds_mask_iff :
    t.holds mask.toNat = true ↔ ¬ (t.signed = true ∧ 2 ^ (t.nbits - 1) ≤ mask.toNat) := by
  have narrow := f.mask_narrow t integer sound mask masked
  rw [t.holds_iff]
  cases signed : t.signed with
  | true =>
      obtain ⟨low, high⟩ := t.bounds_signed signed
      simp only [low, high, true_and]
      omega
  | false =>
      obtain ⟨low, high⟩ := t.bounds_unsigned signed
      simp only [low, high, Bool.false_eq_true, false_and, not_false_eq_true, iff_true]
      omega

include integer masked in
theorem mask_bytes_eq :
    f.maskBytes books = if t.holds mask.toNat = true then .ok (some (t.order.spell t.nbytes (t.pattern mask.toNat)))
      else .error (.outOfRange (.value mask.toNat t.least t.greatest)) := by
  simp only [maskBytes, masked, integer]
  change (t.encode mask.toNat >>= fun bytes => Except.ok (some bytes)) = _
  by_cases held : t.holds mask.toNat = true
  · rw [if_pos held, Attempt.bind_of_ok _ _ _ (t.encode_of_holds _ held)]
    rfl
  · rw [if_neg held, IntType.encode, if_neg held]
    rfl

end Masked

section Writes

variable (books : Books) (f : Field) (buffer : Bytes) (offset : Nat) (v : Value) (new : Bytes)
variable (long : (f.span offset).stop ≤ buffer.length) (encoded : f.encode books v = .ok new)

include long encoded

theorem write_of_mask (mask : Option Bytes) (spelled : f.maskBytes books = .ok mask) :
    ∃ out, f.write books buffer offset v = .ok out := by
  simp only [write]
  rw [if_neg (Nat.not_lt.mpr long), Attempt.bind_of_ok _ _ new encoded, Attempt.bind_of_ok _ _ mask spelled]
  exact ⟨_, rfl⟩

theorem write_of_mask_fault (fault : Fault) (failed : f.maskBytes books = .error fault) :
    f.write books buffer offset v = .error fault := by
  apply f.write_of_fault books buffer offset v fault long
  rw [image, Attempt.bind_of_ok _ _ new encoded, Attempt.bind_of_error _ _ fault failed]

end Writes

-- The product with the lowest place of the mask is exact up to 128 bits. Of a number whose product needs more, only its
-- lowest bits are seen, as another number.
theorem masked_number_encoding (known books : Books) (f : Field) (mask : UInt64) (checked : f.check known = .ok ())
    (masked : f.mask = some mask) :
    ∃ t, f.type = .scalar (.primitive (.int t)) ∧ ∀ v,
      (Wide.fits (v * 2 ^ f.shift) = true → f.Multiplies books t v) ∧
      (Wide.fits (v * 2 ^ f.shift) = false → Wide.lowest v f.shift ≠ v ∧
        f.encode books (.int v) = f.encode books (.int (Wide.lowest v f.shift)) ∧
        f.Multiplies books t (Wide.lowest v f.shift)) := by
  have sound := f.sound_of_check known checked
  obtain ⟨t, integer, _⟩ := sound.masked mask masked
  have near := f.shift_near t sound integer
  refine ⟨t, integer, fun v => ⟨f.multiplies_of_fits books t sound integer mask masked v, fun outside => ?_⟩⟩
  have inside := Wide.fits_lowest v f.shift (by omega)
  have again := (Wide.lowest_iff (Wide.lowest v f.shift) f.shift (by omega)).mpr inside
  refine ⟨fun same => ?_, ?_, f.multiplies_of_fits books t sound integer mask masked _ inside⟩
  · rw [(Wide.lowest_iff v f.shift (by omega)).mp same] at outside
    cases outside
  · rw [f.encode_lowest books t sound integer mask masked, f.encode_lowest books t sound integer mask masked, again]

-- Seven has room in the upper three bits of a byte, eight does not.
theorem upper_bits_take_seven :
    let upper := Ccsds.bits "version" Ccsds.byteType (.single 0) (some 0xe0) none
    upper.check .none = .ok () ∧ upper.mask = some 0xe0 ∧ (∃ bytes, upper.encode .none (.int 7) = .ok bytes) ∧
      upper.encode .none (.int 8) = .error (.outOfRange (.value 256 0 255)) := by
  intro upper
  obtain ⟨t, integer, each⟩ := masked_number_encoding .none .none upper 0xe0 rfl rfl
  cases integer
  obtain ⟨bytes, encoded, _⟩ := ((each 7).1 (by decide)).taken (by decide)
  exact ⟨rfl, rfl, ⟨bytes, encoded⟩, ((each 8).1 (by decide)).refused (by decide)⟩

-- The least number of 128 bits, doubled, is nothing but a bit that is lost.
theorem doubled_least_taken :
    let second := Ccsds.bits "second" Ccsds.byteType (.single 0) (some 2) none
    second.check .none = .ok () ∧ Wide.fits Wide.least = true ∧ Ccsds.byteType.holds (Wide.least * 2 ^ second.shift) = false ∧
      second.encode .none (.int Wide.least) = .ok [0] := by
  intro second
  exact ⟨rfl, by decide, by decide, rfl⟩

theorem mask_spelled_unless_sign (known books : Books) (f : Field) (mask : UInt64) (checked : f.check known = .ok ())
    (masked : f.mask = some mask) :
    ∃ t, f.type = .scalar (.primitive (.int t)) ∧
      (¬ (t.signed = true ∧ 2 ^ (t.nbits - 1) ≤ mask.toNat) →
        (∃ m, f.maskBytes books = .ok (some m) ∧ m.length = f.type.nbytes ∧ t.order.read m = mask.toNat) ∧
          ∀ buffer offset v new, (f.span offset).stop ≤ buffer.length → f.encode books v = .ok new →
            ∃ out, f.write books buffer offset v = .ok out) ∧
      (t.signed = true ∧ 2 ^ (t.nbits - 1) ≤ mask.toNat →
        f.maskBytes books = .error (.outOfRange (.value mask.toNat t.least t.greatest)) ∧
          ∀ buffer offset v new, (f.span offset).stop ≤ buffer.length → f.encode books v = .ok new →
            f.write books buffer offset v = .error (.outOfRange (.value mask.toNat t.least t.greatest))) := by
  have sound := f.sound_of_check known checked
  obtain ⟨t, integer, _, narrow⟩ := sound.masked mask masked
  have bytes := f.mask_bytes_eq books t integer mask masked
  refine ⟨t, integer, fun unsigned => ?_, fun signed => ?_⟩
  · rw [if_pos ((f.holds_mask_iff t sound integer mask masked).mpr unsigned)] at bytes
    refine ⟨⟨_, bytes, ?_, ?_⟩, fun buffer offset v new long encoded =>
      f.write_of_mask books buffer offset v new long encoded _ bytes⟩
    · rw [ByteOrder.length_spell, f.nbytes_int t integer]
    · rw [t.read_pattern, t.pattern_of_nat _ narrow]
  · rw [if_neg fun held => (f.holds_mask_iff t sound integer mask masked).mp held signed] at bytes
    exact ⟨bytes, fun buffer offset v new long encoded => f.write_of_mask_fault books buffer offset v new long encoded _ bytes⟩

-- Of a signed byte all bits but the sign can be a mask.
theorem magnitude_mask_spelled :
    let magnitude := Ccsds.bits "magnitude" ⟨true, .byte⟩ (.single 0) (some 0x7f) none
    magnitude.check .none = .ok () ∧ magnitude.mask = some 0x7f ∧
      ∃ m, magnitude.maskBytes .none = .ok (some m) ∧ m.length = 1 ∧ Bytes.ofBig m = 0x7f := by
  intro magnitude
  obtain ⟨t, integer, spelled, _⟩ := mask_spelled_unless_sign .none .none magnitude 0x7f rfl rfl
  cases integer
  exact ⟨rfl, rfl, (spelled (by decide)).1⟩

-- The sign alone cannot: a number that has an encoding is not written for want of one for the mask.
theorem sign_mask_refused :
    let sign := Ccsds.bits "sign" ⟨true, .byte⟩ (.single 0) (some 0x80) none
    let refused : Fault := .outOfRange (.value 128 (-128) 127)
    sign.check .none = .ok () ∧ sign.mask = some 0x80 ∧ sign.maskBytes .none = .error refused ∧
      sign.encode .none (.int (-1)) = .ok [0x80] ∧ sign.write .none [0] 0 (.int (-1)) = .error refused := by
  intro sign refused
  exact ⟨rfl, rfl, rfl, rfl, rfl⟩

end Field

end SpaceLink
