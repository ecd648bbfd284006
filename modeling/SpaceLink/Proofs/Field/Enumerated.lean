import SpaceLink.Proofs.Field.Raised

/-!
Names of numbers in bytes. A name is written as its code, moved up to the mask and cut to it, so what is read back is the
part of the code that the mask keeps. It is the name again exactly if the code has room in the field.
-/

set_option autoImplicit false

namespace SpaceLink

-- A number that is in the range of a type once it is moved up was in it before.
theorem IntType.holds_of_product (t : IntType) (n : Int) (places : Nat) (inside : t.holds (n * 2 ^ places) = true) :
    t.holds n = true := by
  have one : (1 : Int) ≤ 2 ^ places := by exact_mod_cast Nat.two_pow_pos places
  have zero : t.least ≤ 0 ∧ 0 ≤ t.greatest := by
    have positive := Nat.two_pow_pos (t.nbits - 1)
    have double := t.nbits_double
    cases signed : t.signed with
    | true =>
        obtain ⟨low, high⟩ := t.bounds_signed signed
        omega
    | false =>
        obtain ⟨low, high⟩ := t.bounds_unsigned signed
        omega
  rw [t.holds_iff] at inside ⊢
  rcases Int.le_total 0 n with positive | negative
  · have grows := Int.mul_le_mul_of_nonneg_left one positive
    omega
  · have falls := Int.mul_le_mul_of_nonpos_left negative one
    omega

namespace Field

section Codes

variable (books : Books) (f : Field) (t : IntType) (sound : f.Sound) (integer : f.type = .scalar (.primitive (.int t)))

include sound integer in
-- The bits that a number loses on its way up are above all masks.
theorem kept_lowest (n : Int) (mask : UInt64) (masked : f.mask = some mask) :
    f.kept (Wide.lowest n f.shift) = f.kept n := by
  have near := f.shift_near t sound integer
  have moved : mask.toNat >>> f.shift < 2 ^ 64 := by
    have smaller := Nat.div_le_self mask.toNat (2 ^ f.shift)
    have bound := mask.toNat_lt
    rw [Nat.shiftRight_eq_div_pow]
    omega
  simp only [kept, masked]
  exact Wide.and_lowest n f.shift _ 64 (by omega) (by decide) moved

variable (n : Int) (inside : t.holds (f.raised n) = true)

include sound integer inside in
theorem unmask_raised_held : f.unmask (.int (f.raised n)) = .int (f.kept n) := by
  cases masked : f.mask with
  | none => simp only [unmask, raised, kept, masked]
  | some mask =>
      have near := f.shift_near t sound integer
      have raised_eq : f.raised n = Wide.lowest n f.shift * 2 ^ f.shift := by
        simp only [raised, masked]
        exact Wide.shift_left_lowest n f.shift (by omega)
      rw [raised_eq] at inside
      have held := t.holds_of_product _ _ inside
      rw [raised_eq, ← f.raised_of_holds t sound integer _ held, f.unmask_raised_kept t sound integer _ held,
        f.kept_lowest t sound integer n mask masked]

include inside in
theorem raised_kept_iff : f.kept n = n ↔ f.Fits t n := by
  cases masked : f.mask with
  | none =>
      simp only [raised, masked] at inside
      exact f.kept_iff_fits t n inside
  | some mask => exact f.masked_kept_iff t mask masked n

include integer in
-- A number that leaves the type, or a mask that does, is refused in every buffer.
theorem write_int_refused (offset : Nat) (buffer : Bytes) (covering : (f.span offset).stop ≤ buffer.length)
    (unfit : ¬ (f.MaskHeld t ∧ t.holds (f.raised n) = true)) :
    ∃ range, f.write books buffer offset (.int n) = .error (.outOfRange range) := by
  have encoded := f.encode_int books t integer n
  by_cases held : t.holds (f.raised n) = true
  · rw [t.encode_of_holds _ held] at encoded
    cases masked : f.mask with
    | none => exact absurd ⟨fun mask other => absurd (masked.symm.trans other) nofun, held⟩ unfit
    | some mask =>
        have refused : ¬ t.holds mask.toNat = true := fun own => unfit ⟨fun other same => by
          rw [masked, Option.some.injEq] at same
          exact same ▸ own, held⟩
        have spelled := f.mask_bytes_eq books t integer mask masked
        rw [if_neg refused] at spelled
        exact ⟨_, f.write_of_mask_fault books buffer offset _ _ covering encoded _ spelled⟩
  · rw [IntType.encode, if_neg held] at encoded
    exact ⟨_, f.write_of_fault books buffer offset _ _ covering (Attempt.bind_of_error _ _ _ encoded)⟩

include sound integer inside in
theorem write_int_kept (held : f.MaskHeld t) (offset : Nat) (buffer : Bytes)
    (room : (f.span offset).start + f.extent ≤ (f.span offset).stop)
    (covering : (f.span offset).stop ≤ buffer.length) :
    ∃ out, f.write books buffer offset (.int n) = .ok out ∧ ∀ raw index,
      f.decodeAt books out offset raw index = .ok (if raw then .int (f.kept n) else f.withName (.int (f.kept n))) := by
  have imaged := f.image_int books t held integer n inside
  obtain ⟨out, written, painted⟩ :=
    f.write_of_image books sound (f.built_in_int t integer) buffer offset (.int n) _ room covering imaged
  refine ⟨out, written, fun raw index => ?_⟩
  have long : (f.span offset).stop ≤ out.length := by rw [painted.length]; exact covering
  rw [f.decode_of_bits books t sound integer offset room _ inside out long painted.inside raw index, finish,
    f.unmask_raised_held t sound integer n inside]

end Codes

theorem enumerated_name_stored_iff (known books : Books) (f : Field) (t : IntType) (e : Enumeration)
    (checked : f.check known = .ok ()) (integer : f.type = .scalar (.primitive (.int t)))
    (enumerated : f.enumeration = some e) (code : Int) (name : String) (listed : (code, name) ∈ e.entries)
    (offset : Nat) (buffer : Bytes) (covering : (f.span offset).stop ≤ buffer.length)
    (inMemory : buffer.length < Position.greatest) :
    ((∃ out, f.write books buffer offset (.str name) = .ok out ∧ ∀ index,
        f.decodeAt books out offset false index = .ok (.str name) ∧
        f.decodeAt books out offset true index = .ok (.int code)) ↔ f.MaskHeld t ∧ f.Fits t code) ∧
    (f.MaskHeld t ∧ t.holds (f.raised code) = true →
      ∃ out, f.write books buffer offset (.str name) = .ok out ∧ ∀ index,
        f.decodeAt books out offset false index = .ok (match f.nameOf? (f.kept code) with
          | some other => .str other
          | none => .int (f.kept code)) ∧
        f.decodeAt books out offset true index = .ok (.int (f.kept code))) ∧
    (¬ (f.MaskHeld t ∧ t.holds (f.raised code) = true) →
      ∃ range, f.write books buffer offset (.str name) = .error (.outOfRange range)) := by
  have sound := f.sound_of_check known checked
  have room := f.room sound offset (by omega)
  have coded := e.code_of_entry code name listed
  have same := f.write_name books buffer offset e name code enumerated coded
  have named : f.nameOf? code = some name := by
    rw [nameOf?, enumerated]
    exact e.name_of_entry code name listed
  have stored : f.MaskHeld t ∧ t.holds (f.raised code) = true → ∃ out, f.write books buffer offset (.int code) = .ok out ∧
      ∀ index, f.decodeAt books out offset false index = .ok (f.withName (.int (f.kept code))) ∧
        f.decodeAt books out offset true index = .ok (.int (f.kept code)) := by
    rintro ⟨held, inside⟩
    obtain ⟨out, written, reads⟩ := f.write_int_kept books t sound integer code inside held offset buffer room covering
    exact ⟨out, written, fun index => ⟨reads false index, reads true index⟩⟩
  have refused := f.write_int_refused books t integer code offset buffer covering
  rw [same]
  simp only [f.with_name_int] at stored
  refine ⟨⟨?_, ?_⟩, stored, refused⟩
  · rintro ⟨out, written, reads⟩
    by_cases fit : f.MaskHeld t ∧ t.holds (f.raised code) = true
    · obtain ⟨out', written', reads'⟩ := stored fit
      rw [written'] at written
      cases written
      have kept := (reads none).2.symm.trans (reads' none).2
      simp only [Except.ok.injEq, Value.int.injEq] at kept
      exact ⟨fit.1, (f.raised_kept_iff t code fit.2).mp kept.symm⟩
    · obtain ⟨range, failed⟩ := refused fit
      rw [failed] at written
      cases written
  · rintro ⟨held, fits⟩
    have inside := f.raised_held t held code fits
    obtain ⟨out, written, reads⟩ := stored ⟨held, inside⟩
    rw [(f.raised_kept_iff t code inside).mpr fits, named] at reads
    exact ⟨out, written, reads⟩

-- One of the four names of two bits, among other bits of a buffer.
theorem segment_name_stored :
    let flags := Ccsds.bits "seqflags" Ccsds.byteType (.single 2) (some 0xc0) (some Ccsds.segments)
    flags.check .none = .ok () ∧ (2, "Last Segment") ∈ Ccsds.segments.entries ∧
      ∃ out, flags.write .none [8, 7, 6, 5] 0 (.str "Last Segment") = .ok out ∧ ∀ index,
        flags.decodeAt .none out 0 false index = .ok (.str "Last Segment") ∧
        flags.decodeAt .none out 0 true index = .ok (.int 2) := by
  intro flags
  have listed : (2, "Last Segment") ∈ Ccsds.segments.entries := by decide
  obtain ⟨returns, _⟩ := enumerated_name_stored_iff .none .none flags Ccsds.byteType Ccsds.segments rfl rfl rfl 2
    "Last Segment" listed 0 [8, 7, 6, 5] (by decide) (by decide)
  have held := flags.mask_held_of_unsigned Ccsds.byteType rfl (flags.sound_of_check .none rfl) (.inr rfl)
  exact ⟨rfl, listed, returns.mpr ⟨held, by decide⟩⟩

-- A code that is too wide for the lower half of a byte is cut to it, in the upper half it is refused.
theorem wide_code_lost :
    let wide : Enumeration := ⟨[(31, "ALL")], List.pairwise_singleton _ _, List.pairwise_singleton _ _⟩
    let lower := Ccsds.bits "lower" Ccsds.byteType (.single 0) (some 0x0f) (some wide)
    let upper := Ccsds.bits "upper" Ccsds.byteType (.single 0) (some 0xf0) (some wide)
    (31, "ALL") ∈ wide.entries ∧ lower.check .none = .ok () ∧ upper.check .none = .ok () ∧
      (∃ out, lower.write .none [0] 0 (.str "ALL") = .ok out ∧ lower.decode .none out false none = .ok (.int 15) ∧
        lower.decode .none out true none = .ok (.int 15)) ∧
      upper.write .none [0] 0 (.str "ALL") = .error (.outOfRange (.value 496 0 255)) := by
  intro wide lower upper
  have lowerCoded := lower.write_name .none [0] 0 wide "ALL" 31 rfl rfl
  have upperCoded := upper.write_name .none [0] 0 wide "ALL" 31 rfl rfl
  have sound := lower.sound_of_check .none rfl
  have held := lower.mask_held_of_unsigned Ccsds.byteType rfl sound (.inr rfl)
  obtain ⟨out, written, reads⟩ :=
    lower.write_int_kept .none Ccsds.byteType sound rfl 31 (by decide) held 0 [0] (by decide) (by decide)
  have kept : lower.kept 31 = 15 := by decide
  have unnamed : lower.nameOf? 15 = none := by decide
  simp only [kept, lower.with_name_int, unnamed, ite_self] at reads
  have refused := upper.encode_int .none Ccsds.byteType rfl 31
  have raised : upper.raised 31 = 496 := by decide
  rw [raised] at refused
  have failed := upper.write_of_fault .none [0] 0 (.int 31) _ (by decide) (Attempt.bind_of_error _ _ _ refused)
  exact ⟨List.mem_singleton_self _, rfl, rfl, ⟨out, lowerCoded.trans written, reads false none, reads true none⟩,
    upperCoded.trans failed⟩

end Field

end SpaceLink
