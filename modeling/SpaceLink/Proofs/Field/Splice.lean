import SpaceLink.Proofs.Field.Write

/-!
Fields without a mask. Their bytes stand next to each other in the buffer and are replaced all at once.
-/

set_option autoImplicit false

namespace SpaceLink.Field

-- The bytes of a field in a buffer that holds them.
def own (f : Field) (buffer : Bytes) : Bytes := (buffer.drop (f.span 0).start).take f.extent

-- The buffer with other bytes from the start of the field on.
def splice (f : Field) (buffer new : Bytes) : Bytes :=
  buffer.take (f.span 0).start ++ new ++ buffer.drop ((f.span 0).start + new.length)

variable (books : Books) (f : Field) (sound : f.Sound) (builtIn : f.type.isBuiltIn = true) (buffer : Bytes)
variable (long : (f.span 0).stop ≤ buffer.length)

include sound long in
theorem length_own : (f.own buffer).length = f.extent := by
  have room := f.near_start sound
  rw [own, List.length_take, List.length_drop]
  omega

include sound long in
theorem splice_own : f.splice buffer (f.own buffer) = buffer := by
  rw [splice, f.length_own sound buffer long, own, List.append_assoc, ← List.drop_drop, List.take_append_drop,
    List.take_append_drop]

include sound builtIn long in
theorem decode_own (unwrapped : ¬ f.type.Wraps) (raw : Bool) :
    f.decode books buffer raw none = f.decodeSlice books (f.own buffer) raw none := by
  have room := f.near_start sound
  have extent := f.extent_unwrapped unwrapped
  rw [decode, f.decode_at_of_long books buffer 0 raw none (by omega) long]
  apply f.decode_slice_agrees books sound builtIn unwrapped
  · rw [List.length_take, List.length_drop]
    omega
  · rw [f.length_own sound buffer long]
    omega
  · intro byte place covered
    have bounds := f.covers_bounds byte place covered
    rw [own, Bytes.bit_take _ _ _ _ (by omega), Bytes.bit_take _ _ _ _ (by omega)]

include sound long in
-- The bytes of a field by their bits.
theorem own_of_bits (unmasked : f.mask = none) (other : Bytes) (same : other.length = buffer.length)
    (bits : ∀ byte place, f.owns 0 byte place = true → other.bit byte place = buffer.bit byte place) :
    f.own other = f.own buffer := by
  have length := f.length_own sound other (same ▸ long)
  apply Bytes.bytes_of_bits
  · rw [length, f.length_own sound buffer long]
  · intro byte inside place low
    rw [length] at inside
    have covered := f.covers_unmasked unmasked byte place inside low
    rw [own, own, Bytes.bit_take _ _ _ _ inside, Bytes.bit_take _ _ _ _ inside, Bytes.bit_drop, Bytes.bit_drop]
    exact bits _ _ (by rw [f.owns_at, covered])

section Spliced

variable (new : Bytes) (whole : new.length = f.extent)

include sound long whole in
theorem length_splice : (f.splice buffer new).length = buffer.length := by
  have room := f.near_start sound
  exact Bytes.length_splice _ _ _ (by omega)

include sound long whole in
theorem own_splice : f.own (f.splice buffer new) = new := by
  have room := f.near_start sound
  have front : (buffer.take (f.span 0).start).length = (f.span 0).start := by
    rw [List.length_take]
    omega
  rw [own, splice, List.append_assoc, List.drop_append_of_le_length (Nat.le_of_eq front.symm),
    List.drop_of_length_le (Nat.le_of_eq front), List.nil_append, ← whole, List.take_left]

include sound long whole in
theorem splice_painted (unmasked : f.mask = none) : f.Painted 0 buffer new (f.splice buffer new) := by
  have room := f.near_start sound
  refine ⟨f.length_splice sound buffer long new whole, ?_, ?_⟩
  · intro byte place owned
    have bounds := f.owns_bounds 0 byte place owned
    rw [splice, Bytes.bit_splice _ _ _ _ _ (by omega), if_pos (by omega)]
  · intro byte place unowned
    rw [splice, Bytes.bit_splice _ _ _ _ _ (by omega)]
    by_cases within : (f.span 0).start ≤ byte ∧ byte < (f.span 0).start + new.length
    · rw [if_pos within]
      by_cases low : place < 8
      · have covered := f.covers_unmasked unmasked (byte - (f.span 0).start) place (by omega) low
        simp [owns, within.1, covered] at unowned
      · simp [Bytes.bit, Bytes.byte_high_bit _ place (Nat.le_of_not_lt low)]
    · rw [if_neg within]

include sound builtIn long whole in
theorem write_splice (unmasked : f.mask = none) (v : Value) (imaged : f.image books v = .ok new) :
    f.write books buffer 0 v = .ok (f.splice buffer new) := by
  have room := f.near_start sound
  obtain ⟨out, written, painted⟩ := f.write_of_image books sound builtIn buffer 0 v new room long imaged
  rw [written, f.painted_unique 0 buffer new out _ painted (f.splice_painted sound buffer long new whole unmasked)]

end Spliced

end SpaceLink.Field
