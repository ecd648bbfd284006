import SpaceLink.Proofs.DataType.Shortage
import SpaceLink.Proofs.Field.Write

/-!
When a buffer is too short for a field. Writing and reading ask for the bytes up to the end of the field
and, unless the type is one of the user's own or has more bytes than its width says, for nothing more.
-/

set_option autoImplicit false

namespace SpaceLink.Field

open Attempt

variable (books : Books) (f : Field) (builtIn : f.type.isBuiltIn = true)

include builtIn in
theorem encode_enough (v : Value) : Enough (f.encode books v) := by
  simp only [encode]
  cases f.mask with
  | none => exact f.type.encode_enough books builtIn _
  | some mask =>
      cases (f.withCode v).toInt? with
      | none => simp
      | some n => exact f.type.encode_enough books builtIn _

include builtIn in
theorem mask_bytes_enough : Enough (f.maskBytes books) := by
  simp only [maskBytes]
  cases f.mask with
  | none => exact enough_ok _
  | some mask => exact enough_bind _ _ (f.type.encode_enough books builtIn _) fun _ _ => enough_ok _

include builtIn in
theorem write_enough (buffer : Bytes) (offset : Nat) (v : Value) (long : (f.span offset).stop ≤ buffer.length) :
    Enough (f.write books buffer offset v) := by
  simp only [write]
  rw [if_neg (Nat.not_lt.mpr long)]
  apply enough_bind _ _ (f.encode_enough books builtIn v)
  intro new _
  exact enough_bind _ _ (f.mask_bytes_enough books builtIn) fun _ _ => enough_ok _

include builtIn in
theorem decode_slice_only (data : Bytes) (raw : Bool) (index : Option Nat) :
    Only (Fault.OfReading (data.length < f.type.extent)) (f.decodeSlice books data raw index) := by
  rw [decode_slice_eq]
  refine only_bind _ _ _ ?_ fun _ _ => only_ok _ _
  simp only [typed]
  cases type : f.type with
  | scalar s =>
      rw [type] at builtIn
      exact s.decode_only books builtIn data raw
  | array a =>
      rw [type] at builtIn
      cases index with
      | none => exact DataType.decode_only books (.array a) builtIn data raw
      | some i => exact a.decode_element_only books builtIn data i raw

include builtIn in
theorem decode_at_enough (unwrapped : ¬ f.type.Wraps) (bytes : Bytes) (offset : Nat) (raw : Bool) (index : Option Nat)
    (room : (f.span offset).start + f.extent ≤ (f.span offset).stop) (long : (f.span offset).stop ≤ bytes.length) :
    Enough (f.decodeAt books bytes offset raw index) := by
  rw [f.extent_type unwrapped] at room
  rw [f.decode_at_of_long books bytes offset raw index (by omega) long]
  refine enough_of_reading _ _ ?_ (f.decode_slice_only books builtIn _ raw index)
  rw [List.length_take, List.length_drop]
  omega

theorem decode_at_short (bytes : Bytes) (offset : Nat) (raw : Bool) (index : Option Nat)
    (short : bytes.length < (f.span offset).stop) :
    f.decodeAt books bytes offset raw index = .error (.notEnoughData bytes.length (f.span offset).stop) := by
  have outside : ¬ ((f.span offset).start ≤ (f.span offset).stop ∧ (f.span offset).stop ≤ bytes.length) := by omega
  simp only [decodeAt, Bytes.slice?, if_neg outside]

section Wrapped

variable (sound : f.Sound) (wraps : f.type.Wraps)

end Wrapped

theorem decode_at_more (bytes more : Bytes) (offset : Nat) (raw : Bool) (index : Option Nat)
    (forward : (f.span offset).start ≤ (f.span offset).stop) (long : (f.span offset).stop ≤ bytes.length) :
    f.decodeAt books (bytes ++ more) offset raw index = f.decodeAt books bytes offset raw index := by
  have longer : (f.span offset).stop ≤ (bytes ++ more).length := by
    rw [List.length_append]
    omega
  rw [f.decode_at_of_long books bytes offset raw index forward long,
    f.decode_at_of_long books (bytes ++ more) offset raw index forward longer,
    List.drop_append_of_le_length (Nat.le_trans forward long), List.take_append_of_le_length]
  rw [List.length_drop]
  omega

end SpaceLink.Field
