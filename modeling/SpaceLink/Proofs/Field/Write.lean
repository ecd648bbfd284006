import SpaceLink.Proofs.Field.Footprint

/-!
Writing. What is written depends on the field and the value alone; it replaces the bits of the field in
the buffer and leaves all others. Whether a write fails depends on the buffer by its length only.
-/

set_option autoImplicit false

namespace SpaceLink.Field

-- The bytes that a write cuts to the mask: they are there only if the mask itself can be spelled.
def image (books : Books) (f : Field) (v : Value) : Attempt Bytes := do
  let new ← f.encode books v
  let _ ← f.maskBytes books
  .ok new

-- `out` is `buffer` with the bits of the field taken from `new`.
structure Painted (f : Field) (offset : Nat) (buffer new out : Bytes) : Prop where
  length : out.length = buffer.length
  inside : ∀ byte place, f.owns offset byte place = true →
    out.bit byte place = new.bit (byte - (f.span offset).start) place
  outside : ∀ byte place, f.owns offset byte place = false → out.bit byte place = buffer.bit byte place

theorem length_encode (books : Books) (f : Field) (sized : f.type.Sized) (v : Value) (new : Bytes)
    (done : f.encode books v = .ok new) : new.length = f.type.extent := by
  simp only [encode] at done
  cases masked : f.mask with
  | none =>
      simp only [masked] at done
      exact f.type.length_encode books _ new sized done
  | some mask =>
      simp only [masked] at done
      cases number : (f.withCode v).toInt? with
      | none => simp [number] at done
      | some n =>
          simp only [number] at done
          exact f.type.length_encode books _ new sized done

theorem image_ok_iff (books : Books) (f : Field) (v : Value) (new : Bytes) :
    f.image books v = .ok new ↔ f.encode books v = .ok new ∧ ∃ mask, f.maskBytes books = .ok mask := by
  simp only [image, Attempt.bind_ok_iff, Except.ok.injEq]
  constructor
  · rintro ⟨bytes, encoded, mask, spelled, rfl⟩
    exact ⟨encoded, mask, spelled⟩
  · rintro ⟨encoded, mask, spelled⟩
    exact ⟨new, encoded, mask, spelled, rfl⟩

theorem mask_bytes_cover (books : Books) (f : Field) (sound : f.Sound) (mask : Bytes)
    (spelled : f.maskBytes books = .ok (some mask)) :
    mask.length = f.extent ∧ ∀ byte < f.extent, ∀ place < 8, mask.bit byte place = f.covers byte place := by
  simp only [maskBytes] at spelled
  cases masked : f.mask with
  | none =>
      simp only [masked] at spelled
      cases spelled
  | some m =>
      obtain ⟨t, integer, _, narrow⟩ := sound.masked m masked
      simp only [masked, integer] at spelled
      obtain ⟨bytes, encoded, same⟩ := (Attempt.bind_ok_iff _ _ _).mp spelled
      cases same
      obtain ⟨_, pattern⟩ := t.encode_ok m.toNat mask encoded
      change mask = t.order.spell t.nbytes (t.pattern m.toNat) at pattern
      rw [t.pattern_of_nat _ narrow] at pattern
      rw [f.extent_int t integer, pattern]
      refine ⟨ByteOrder.length_spell _ _ _, ?_⟩
      intro byte inside place low
      rw [t.order.bit_spell _ _ _ _ inside low, f.covers_masked m t masked integer byte place inside low]

theorem unmasked_of_mask_bytes (books : Books) (f : Field) (spelled : f.maskBytes books = .ok none) : f.mask = none := by
  simp only [maskBytes] at spelled
  cases masked : f.mask with
  | none => rfl
  | some m =>
      simp only [masked] at spelled
      obtain ⟨bytes, _, same⟩ := (Attempt.bind_ok_iff _ _ _).mp spelled
      cases same

theorem unwrapped_of_mask_bytes (books : Books) (f : Field) (sound : f.Sound) (mask : Bytes)
    (spelled : f.maskBytes books = .ok (some mask)) : ¬ f.type.Wraps := fun wraps => by
  simp [maskBytes, f.unmasked_of_wraps sound wraps] at spelled

theorem merge_byte_bit (old new mask : UInt8) (place : Nat) (low : place < 8) :
    (mergeByte old new mask).toNat.testBit place =
      if mask.toNat.testBit place then new.toNat.testBit place else old.toNat.testBit place := by
  change (mergeByte old new mask).toBitVec.getLsbD place =
    if mask.toBitVec.getLsbD place then new.toBitVec.getLsbD place else old.toBitVec.getLsbD place
  simp only [mergeByte, UInt8.toBitVec_or, UInt8.toBitVec_and, UInt8.toBitVec_not, BitVec.getLsbD_or,
    BitVec.getLsbD_and, BitVec.getLsbD_not]
  cases mask.toBitVec.getLsbD place <;> simp [low]

-- The bytes that are put over the start of the old ones.
theorem merged_bit (old new mask : Bytes) (sameLength : mask.length = new.length) (long : new.length ≤ old.length)
    (byte place : Nat) (inside : byte < new.length) (low : place < 8) :
    Bytes.bit (List.zipWith (fun pair m => mergeByte pair.1 pair.2 m) (old.zip new) mask) byte place =
      if mask.bit byte place then new.bit byte place else old.bit byte place := by
  have inOld : byte < old.length := by omega
  have inMask : byte < mask.length := by omega
  simp only [Bytes.bit, List.getD_eq_getElem?_getD, List.getElem?_zipWith, List.zip, List.getElem?_eq_getElem inside,
    List.getElem?_eq_getElem inOld, List.getElem?_eq_getElem inMask, Option.getD_some]
  exact merge_byte_bit _ _ _ place low

theorem overlay_bits (books : Books) (f : Field) (sound : f.Sound) (mask : Option Bytes) (old new : Bytes)
    (spelled : f.maskBytes books = .ok mask) (own : f.extent = min new.length old.length)
    (whole : new.length = f.type.extent) :
    (overlay mask old new).length = old.length ∧
      ∀ byte place, (overlay mask old new).bit byte place =
        if f.covers byte place = true then new.bit byte place else old.bit byte place := by
  have front : ∃ written : Bytes, written.length = f.extent ∧
      overlay mask old new = written ++ old.drop written.length ∧
      ∀ byte < f.extent, ∀ place < 8, written.bit byte place =
        if f.covers byte place = true then new.bit byte place else old.bit byte place := by
    cases mask with
    | none =>
        have unmasked := f.unmasked_of_mask_bytes books spelled
        refine ⟨new.take old.length, by rw [List.length_take]; omega, rfl, ?_⟩
        intro byte inside place low
        rw [f.covers_unmasked unmasked byte place inside low, if_pos rfl, Bytes.bit_take _ _ _ _ (by omega)]
    | some mask =>
        obtain ⟨maskLength, covered⟩ := f.mask_bytes_cover books sound mask spelled
        have unwrapped := f.unwrapped_of_mask_bytes books sound mask spelled
        have all : f.extent = new.length := (f.extent_type unwrapped).trans whole.symm
        refine ⟨_, ?_, rfl, ?_⟩
        · rw [List.length_zipWith, List.length_zip]
          omega
        · intro byte inside place low
          rw [merged_bit old new mask (by omega) (by omega) byte place (by omega) low, covered byte inside place low]
  obtain ⟨written, width, joined, bits⟩ := front
  refine ⟨by rw [joined, List.length_append, List.length_drop]; omega, ?_⟩
  intro byte place
  rw [joined]
  by_cases inside : byte < f.extent
  · rw [Bytes.bit_append_left _ _ _ _ (by omega)]
    by_cases low : place < 8
    · exact bits byte inside place low
    · simp [Bytes.bit, Bytes.byte_high_bit _ place (Nat.le_of_not_lt low)]
  · have uncovered : f.covers byte place = false := by simp [covers, inside]
    rw [Bytes.bit_append_right _ _ _ _ (by omega), Bytes.bit_drop, uncovered, width,
      show f.extent + (byte - f.extent) = byte by omega]
    rfl

theorem write_short (books : Books) (f : Field) (buffer : Bytes) (offset : Nat) (v : Value)
    (short : buffer.length < (f.span offset).stop) :
    f.write books buffer offset v = .error (.notEnoughData buffer.length (f.span offset).stop) := if_pos short

theorem write_of_fault (books : Books) (f : Field) (buffer : Bytes) (offset : Nat) (v : Value) (fault : Fault)
    (long : (f.span offset).stop ≤ buffer.length) (failed : f.image books v = .error fault) :
    f.write books buffer offset v = .error fault := by
  simp only [write]
  rw [if_neg (Nat.not_lt.mpr long)]
  simp only [image] at failed
  cases encoded : f.encode books v with
  | error other =>
      rw [Attempt.bind_of_error _ _ other encoded] at failed
      cases failed
      rfl
  | ok new =>
      rw [Attempt.bind_of_ok _ _ new encoded] at failed
      cases spelled : f.maskBytes books with
      | error other =>
          rw [Attempt.bind_of_error _ _ other spelled] at failed
          cases failed
          rfl
      | ok mask =>
          rw [Attempt.bind_of_ok _ _ mask spelled] at failed
          cases failed

theorem write_sized (books : Books) (f : Field) (sound : f.Sound) (sized : f.type.Sized)
    (buffer : Bytes) (offset : Nat) (v : Value) (new : Bytes)
    (room : (f.span offset).start + f.extent ≤ (f.span offset).stop)
    (long : (f.span offset).stop ≤ buffer.length) (imaged : f.image books v = .ok new) :
    ∃ out, f.write books buffer offset v = .ok out ∧ f.Painted offset buffer new out := by
  obtain ⟨encoded, mask, spelled⟩ := (f.image_ok_iff books v new).mp imaged
  have whole := f.length_encode books sized v new encoded
  have moved := f.span_moved_length sound offset
  rw [Span.length] at moved
  generalize startEq : (f.span offset).start = start at room moved
  generalize stopEq : (f.span offset).stop = stop at room moved long
  generalize oldEq : (buffer.drop start).take (stop - start) = old
  have oldLength : old.length = stop - start := by
    rw [← oldEq, List.length_take, List.length_drop]
    omega
  have own : f.extent = min new.length old.length := by
    rw [whole, oldLength]
    exact f.extent_least sound _ (by omega) moved
  obtain ⟨overLength, overBits⟩ := f.overlay_bits books sound mask old new spelled own whole
  have inside : start + (overlay mask old new).length ≤ buffer.length := by omega
  have written : f.write books buffer offset v =
      .ok (buffer.take start ++ overlay mask old new ++ buffer.drop (start + (overlay mask old new).length)) := by
    simp only [write]
    rw [if_neg (by omega), Attempt.bind_of_ok _ _ new encoded, Attempt.bind_of_ok _ _ mask spelled]
    simp only [Span.length, startEq, stopEq, oldEq, overLength]
  refine ⟨_, written, Bytes.length_splice _ _ _ inside, ?_, ?_⟩
  · intro byte place owned
    obtain ⟨own, rfl, covered⟩ := f.owned_place offset byte place owned
    have bounds := f.covers_bounds own place covered
    rw [startEq, Bytes.bit_splice _ _ _ _ _ inside, if_pos (by omega), Nat.add_sub_cancel_left, overBits,
      if_pos covered]
  · intro byte place unowned
    rw [Bytes.bit_splice _ _ _ _ _ inside]
    by_cases within : start ≤ byte ∧ byte < start + (overlay mask old new).length
    · have uncovered : f.covers (byte - start) place = false := by simpa [owns, startEq, within.1] using unowned
      rw [if_pos within, overBits, uncovered, ← oldEq, Bytes.bit_take _ _ _ _ (by omega), Bytes.bit_drop,
        show start + (byte - start) = byte by omega]
      rfl
    · rw [if_neg within]

theorem write_of_image (books : Books) (f : Field) (sound : f.Sound) (builtIn : f.type.isBuiltIn = true)
    (buffer : Bytes) (offset : Nat) (v : Value) (new : Bytes)
    (room : (f.span offset).start + f.extent ≤ (f.span offset).stop)
    (long : (f.span offset).stop ≤ buffer.length) (imaged : f.image books v = .ok new) :
    ∃ out, f.write books buffer offset v = .ok out ∧ f.Painted offset buffer new out :=
  f.write_sized books sound (f.type.sized_of_built_in builtIn) buffer offset v new room long imaged

theorem painted_of_sized (books : Books) (f : Field) (sound : f.Sound) (sized : f.type.Sized)
    (buffer out : Bytes) (offset : Nat) (v : Value)
    (room : (f.span offset).start + f.extent ≤ (f.span offset).stop)
    (done : f.write books buffer offset v = .ok out) :
    (f.span offset).stop ≤ buffer.length ∧ ∃ new, f.image books v = .ok new ∧ f.Painted offset buffer new out := by
  by_cases short : buffer.length < (f.span offset).stop
  · rw [f.write_short books buffer offset v short] at done
    cases done
  · have long := Nat.le_of_not_lt short
    refine ⟨long, ?_⟩
    cases imaged : f.image books v with
    | error fault =>
        rw [f.write_of_fault books buffer offset v fault long imaged] at done
        cases done
    | ok new =>
        obtain ⟨out', written, painted⟩ := f.write_sized books sound sized buffer offset v new room long imaged
        rw [written] at done
        cases done
        exact ⟨new, rfl, painted⟩

theorem painted_of_write (books : Books) (f : Field) (sound : f.Sound) (builtIn : f.type.isBuiltIn = true)
    (buffer out : Bytes) (offset : Nat) (v : Value)
    (room : (f.span offset).start + f.extent ≤ (f.span offset).stop)
    (done : f.write books buffer offset v = .ok out) :
    (f.span offset).stop ≤ buffer.length ∧ ∃ new, f.image books v = .ok new ∧ f.Painted offset buffer new out :=
  f.painted_of_sized books sound (f.type.sized_of_built_in builtIn) buffer out offset v room done

-- The outcome of a write, its fault included, is the same in all buffers of one length.
theorem write_fault_of_length (books : Books) (f : Field) (sound : f.Sound) (builtIn : f.type.isBuiltIn = true)
    (a b : Bytes) (offset : Nat) (v : Value) (fault : Fault)
    (room : (f.span offset).start + f.extent ≤ (f.span offset).stop) (sameLength : a.length = b.length)
    (failed : f.write books a offset v = .error fault) : f.write books b offset v = .error fault := by
  by_cases short : a.length < (f.span offset).stop
  · rw [f.write_short books a offset v short] at failed
    rwa [f.write_short books b offset v (by omega), ← sameLength]
  · cases imaged : f.image books v with
    | error other =>
        rw [f.write_of_fault books a offset v other (by omega) imaged] at failed
        rw [f.write_of_fault books b offset v other (by omega) imaged, failed]
    | ok new =>
        obtain ⟨out, written, _⟩ := f.write_of_image books sound builtIn a offset v new room (by omega) imaged
        rw [written] at failed
        cases failed

theorem painted_unique (f : Field) (offset : Nat) (buffer new out out' : Bytes) (first : f.Painted offset buffer new out)
    (second : f.Painted offset buffer new out') : out = out' := by
  apply Bytes.bytes_of_bits _ _ (first.length.trans second.length.symm)
  intro byte _ place _
  cases owned : f.owns offset byte place with
  | true => rw [first.inside byte place owned, second.inside byte place owned]
  | false => rw [first.outside byte place owned, second.outside byte place owned]

-- Bits that are there already are painted without a change.
theorem painted_self (f : Field) (offset : Nat) (buffer new : Bytes)
    (same : ∀ byte place, f.covers byte place = true →
      new.bit byte place = buffer.bit ((f.span offset).start + byte) place) :
    f.Painted offset buffer new buffer := by
  refine ⟨rfl, ?_, fun _ _ _ => rfl⟩
  intro byte place owned
  obtain ⟨own, rfl, covered⟩ := f.owned_place offset byte place owned
  rw [Nat.add_sub_cancel_left, same own place covered]

theorem write_unchanged (books : Books) (f : Field) (sound : f.Sound) (builtIn : f.type.isBuiltIn = true)
    (buffer : Bytes) (offset : Nat) (v : Value) (new : Bytes)
    (room : (f.span offset).start + f.extent ≤ (f.span offset).stop) (long : (f.span offset).stop ≤ buffer.length)
    (imaged : f.image books v = .ok new)
    (same : ∀ byte place, f.covers byte place = true →
      new.bit byte place = buffer.bit ((f.span offset).start + byte) place) :
    f.write books buffer offset v = .ok buffer := by
  obtain ⟨out, written, painted⟩ := f.write_of_image books sound builtIn buffer offset v new room long imaged
  rw [written, f.painted_unique offset buffer new out buffer painted (f.painted_self offset buffer new same)]

theorem decode_painted (books : Books) (f : Field) (sound : f.Sound) (builtIn : f.type.isBuiltIn = true)
    (unwrapped : ¬ f.type.Wraps) (offset : Nat) (out new : Bytes) (raw : Bool) (index : Option Nat)
    (room : (f.span offset).start + f.extent ≤ (f.span offset).stop) (long : (f.span offset).stop ≤ out.length)
    (whole : new.length = f.extent)
    (painted : ∀ byte place, f.owns offset byte place = true →
      out.bit byte place = new.bit (byte - (f.span offset).start) place) :
    f.decodeAt books out offset raw index = f.decodeSlice books new raw index := by
  have extent := f.extent_unwrapped unwrapped
  rw [f.decode_at_of_long books out offset raw index (by omega) long]
  apply f.decode_slice_agrees books sound builtIn unwrapped
  · rw [List.length_take, List.length_drop]
    omega
  · omega
  · intro byte place covered
    have bounds := f.covers_bounds byte place covered
    rw [Bytes.bit_take _ _ _ _ (by omega), Bytes.bit_drop, painted _ _ (by rw [f.owns_at, covered])]
    rw [show (f.span offset).start + byte - (f.span offset).start = byte by omega]

-- Two fields without a common bit are painted in either order.
theorem painted_commute (f g : Field) (offset : Nat) (buffer newF newG a b ab ba : Bytes)
    (apart : f.ApartAt offset g)
    (paintF : f.Painted offset buffer newF a) (thenG : g.Painted offset a newG ab)
    (paintG : g.Painted offset buffer newG b) (thenF : f.Painted offset b newF ba) : ab = ba := by
  apply Bytes.bytes_of_bits
  · rw [thenG.length, paintF.length, thenF.length, paintG.length]
  intro byte _ place _
  cases ownedF : f.owns offset byte place with
  | true =>
      have unownedG := apart byte place ownedF
      rw [thenG.outside _ _ unownedG, paintF.inside _ _ ownedF, thenF.inside _ _ ownedF]
  | false =>
      rw [thenF.outside _ _ ownedF]
      cases ownedG : g.owns offset byte place with
      | true => rw [thenG.inside _ _ ownedG, paintG.inside _ _ ownedG]
      | false => rw [thenG.outside _ _ ownedG, paintF.outside _ _ ownedF, paintG.outside _ _ ownedG]

end SpaceLink.Field
