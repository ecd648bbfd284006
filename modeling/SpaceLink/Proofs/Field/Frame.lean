import SpaceLink.Ccsds.Header
import SpaceLink.Proofs.Field.Write

/-!
A write as it runs on a buffer, byte after byte. Nothing is stored before everything that can fail is past, so a fault
leaves the buffer as it was; otherwise only the bits of the field change, to bits that the value alone decides.
-/

set_option autoImplicit false

namespace SpaceLink

namespace Field

-- Each byte comes with the mask under which it is stored.
def storeFrom (start : Nat) : List (UInt8 × UInt8) → StateM Bytes Unit
  | [] => pure ()
  | (new, mask) :: more => do
    modify fun buffer => buffer.modify start fun old => mergeByte old new mask
    storeFrom (start + 1) more

-- What is stored before a fault would stay in the buffer.
def writeInPlace (books : Books) (f : Field) (offset : Nat) (v : Value) : ExceptT Fault (StateM Bytes) Unit := do
  let span := f.span offset
  let buffer ← get
  if buffer.length < span.stop then throw (.notEnoughData buffer.length span.stop)
  let new ← ExceptT.mk (pure (f.encode books v))
  let mask ← ExceptT.mk (pure (f.maskBytes books))
  let masks := mask.getD (List.replicate new.length 0xff)
  storeFrom span.start ((new.zip masks).take span.length)

-- The buffer after one byte is stored.
theorem bit_modify (buffer : Bytes) (start : Nat) (new mask : UInt8) (byte place : Nat)
    (inside : start < buffer.length) :
    Bytes.bit (buffer.modify start fun old => mergeByte old new mask) byte place =
      if byte = start ∧ mask.toNat.testBit place = true then new.toNat.testBit place else buffer.bit byte place := by
  by_cases here : byte = start
  · subst here
    have stored : (buffer.modify byte fun old => mergeByte old new mask).getD byte 0 =
        mergeByte (buffer.getD byte 0) new mask := by
      simp [List.getD_eq_getElem?_getD, inside]
    simp only [Bytes.bit, stored, true_and]
    by_cases low : place < 8
    · exact merge_byte_bit _ _ _ _ low
    · simp only [Bytes.byte_high_bit _ place (Nat.le_of_not_lt low), ite_self]
  · rw [if_neg fun both => here both.1]
    apply Bytes.bit_of_byte
    exact List.getElem?_modify_ne _ _ (Ne.symm here)

-- The buffer after all of them are stored, bit by bit.
theorem store_from_bits (pairs : List (UInt8 × UInt8)) (start : Nat) (buffer : Bytes)
    (room : start + pairs.length ≤ buffer.length) :
    ((storeFrom start pairs).run buffer).2.length = buffer.length ∧
      ∀ byte place, ((storeFrom start pairs).run buffer).2.bit byte place =
        if start ≤ byte ∧ Bytes.bit (pairs.map Prod.snd) (byte - start) place = true then
          Bytes.bit (pairs.map Prod.fst) (byte - start) place
        else buffer.bit byte place := by
  induction pairs generalizing start buffer with
  | nil =>
      refine ⟨rfl, ?_⟩
      intro byte place
      rw [if_neg (by simp [Bytes.bit])]
      rfl
  | cons pair more ih =>
      obtain ⟨new, mask⟩ := pair
      rw [List.length_cons] at room
      let next := buffer.modify start fun old => mergeByte old new mask
      have length : next.length = buffer.length := List.length_modify ..
      obtain ⟨restLength, restBits⟩ := ih (start + 1) next (by omega)
      refine ⟨restLength.trans length, ?_⟩
      intro byte place
      refine (restBits byte place).trans ?_
      rw [bit_modify buffer start new mask byte place (by omega)]
      rcases Nat.lt_trichotomy byte start with before | here | after
      · rw [if_neg (by omega), if_neg (by omega), if_neg (by omega)]
      · subst here
        rw [if_neg (by omega)]
        simp [Bytes.bit]
      · rw [show byte - start = byte - (start + 1) + 1 by omega, if_neg (by omega : ¬ (byte = start ∧ _))]
        simp [Bytes.bit, show start + 1 ≤ byte by omega, show start ≤ byte by omega]

variable (books : Books) (f : Field) (sound : f.Sound)

include sound in
-- Without a mask every byte is stored whole.
theorem masks_cover (mask : Option Bytes) (spelled : f.maskBytes books = .ok mask) (new : Bytes)
    (whole : new.length = f.type.extent) (count : Nat) (own : f.extent = min new.length count) :
    (mask.getD (List.replicate new.length 0xff)).length = new.length ∧
      ∀ byte place, Bytes.bit ((mask.getD (List.replicate new.length 0xff)).take count) byte place =
        f.covers byte place := by
  have inside : (mask.getD (List.replicate new.length 0xff)).length = new.length ∧
      ∀ byte < f.extent, ∀ place < 8,
        Bytes.bit (mask.getD (List.replicate new.length 0xff)) byte place = f.covers byte place := by
    cases mask with
    | none =>
        refine ⟨List.length_replicate .., ?_⟩
        intro byte inside place low
        have full : ∀ place < 8, (0xff : UInt8).toNat.testBit place = true := by decide
        have within : byte < new.length := by omega
        rw [f.covers_unmasked (f.unmasked_of_mask_bytes books spelled) byte place inside low]
        simpa [Bytes.bit, within] using full place low
    | some m =>
        obtain ⟨width, bits⟩ := f.mask_bytes_cover books sound m spelled
        have unwrapped := f.unwrapped_of_mask_bytes books sound m spelled
        rw [f.extent_type unwrapped, ← whole] at width
        exact ⟨width, bits⟩
  obtain ⟨width, bits⟩ := inside
  refine ⟨width, ?_⟩
  intro byte place
  by_cases within : byte < f.extent ∧ place < 8
  · rw [Bytes.bit_take _ _ _ _ (by omega)]
    exact bits byte within.1 place within.2
  · have uncovered : f.covers byte place = false := by
      cases covered : f.covers byte place with
      | false => rfl
      | true => exact absurd (f.covers_bounds byte place covered) within
    rw [uncovered, Bytes.bit]
    by_cases low : place < 8
    · have past : ((mask.getD (List.replicate new.length 0xff)).take count).length ≤ byte := by
        rw [List.length_take, width]
        omega
      rw [List.getD_eq_getElem?_getD, List.getElem?_eq_none past]
      exact Nat.zero_testBit place
    · exact Bytes.byte_high_bit _ place (Nat.le_of_not_lt low)

variable (builtIn : f.type.isBuiltIn = true) (offset : Nat) (v : Value) (buffer : Bytes)
variable (inMemory : buffer.length < Position.greatest)

include sound builtIn inMemory in
theorem stored_painted (new : Bytes) (encoded : f.encode books v = .ok new) (mask : Option Bytes)
    (spelled : f.maskBytes books = .ok mask) (long : (f.span offset).stop ≤ buffer.length) :
    f.Painted offset buffer new ((storeFrom (f.span offset).start
      ((new.zip (mask.getD (List.replicate new.length 0xff))).take (f.span offset).length)).run buffer).2 := by
  have room := f.room sound offset (by omega)
  have whole := f.length_encode books (f.type.sized_of_built_in builtIn) v new encoded
  have least : f.extent ≤ (f.span offset).length := by
    rw [Span.length]
    omega
  have own : f.extent = min new.length (f.span offset).length := by
    rw [whole]
    exact f.extent_least sound _ least (f.span_moved_length sound offset)
  obtain ⟨width, covered⟩ := f.masks_cover books sound mask spelled new whole (f.span offset).length own
  generalize mask.getD (List.replicate new.length 0xff) = masks at width covered ⊢
  generalize (f.span offset).length = count at own covered ⊢
  have stored : ((new.zip masks).take count).length = f.extent := by
    rw [List.length_take, List.length_zip]
    omega
  obtain ⟨length, bits⟩ := store_from_bits ((new.zip masks).take count) (f.span offset).start buffer (by omega)
  rw [List.map_take, List.map_take, List.map_fst_zip (by omega), List.map_snd_zip (by omega)] at bits
  refine ⟨length, ?_, ?_⟩
  · intro byte place owned
    have bounds := f.owns_bounds offset byte place owned
    simp only [owns, Bool.and_eq_true, decide_eq_true_eq] at owned
    rw [bits, if_pos ⟨owned.1, (covered _ _).trans owned.2⟩, Bytes.bit_take _ _ _ _ (by omega)]
  · intro byte place unowned
    rw [bits, if_neg]
    rintro ⟨start, masked⟩
    simp [owns, start, ← covered, masked] at unowned

include sound builtIn inMemory in
theorem write_in_place_run :
    (f.writeInPlace books offset v).run.run buffer =
      match f.write books buffer offset v with
      | .ok out => (.ok (), out)
      | .error fault => (.error fault, buffer) := by
  simp only [writeInPlace]
  rw [Attempt.run_state]
  by_cases short : buffer.length < (f.span offset).stop
  · rw [if_pos short, f.write_short books buffer offset v short]
    rfl
  · have long := Nat.le_of_not_lt short
    rw [if_neg short, Attempt.run_attempt]
    cases encoded : f.encode books v with
    | error fault =>
        have failed : f.image books v = .error fault := Attempt.bind_of_error _ _ fault encoded
        rw [f.write_of_fault books buffer offset v fault long failed]
    | ok new =>
        refine (Attempt.run_attempt buffer (f.maskBytes books) _).trans ?_
        cases spelled : f.maskBytes books with
        | error fault =>
            have failed : f.image books v = .error fault :=
              (Attempt.bind_of_ok _ _ new encoded).trans (Attempt.bind_of_error _ _ fault spelled)
            rw [f.write_of_fault books buffer offset v fault long failed]
        | ok mask =>
            have imaged := (f.image_ok_iff books v new).mpr ⟨encoded, mask, spelled⟩
            have room := f.room sound offset (by omega)
            obtain ⟨out, done, painted⟩ := f.write_of_image books sound builtIn buffer offset v new room long imaged
            have stored := f.stored_painted books sound builtIn offset v buffer inMemory new encoded mask spelled long
            rw [done, f.painted_unique offset buffer new out _ painted stored]
            rfl

include sound builtIn inMemory in
theorem write_in_place_outcome :
    ((f.writeInPlace books offset v).run.run buffer).1 =
      if buffer.length < (f.span offset).stop then .error (.notEnoughData buffer.length (f.span offset).stop)
      else (f.image books v).map fun _ => () := by
  rw [f.write_in_place_run books sound builtIn offset v buffer inMemory]
  by_cases short : buffer.length < (f.span offset).stop
  · rw [if_pos short, f.write_short books buffer offset v short]
  · have long := Nat.le_of_not_lt short
    rw [if_neg short]
    cases imaged : f.image books v with
    | error fault =>
        rw [f.write_of_fault books buffer offset v fault long imaged]
        rfl
    | ok new =>
        have room := f.room sound offset (by omega)
        obtain ⟨out, done, _⟩ := f.write_of_image books sound builtIn buffer offset v new room long imaged
        rw [done]
        rfl

-- Positions are held at the greatest byte number, and no buffer in memory is that long.
theorem write_keeps_other_bits (known books : Books) (f : Field) (checked : f.check known = .ok ())
    (builtIn : f.type.isBuiltIn = true) (v : Value) :
    ∃ image : Bytes, ∀ (offset : Nat) (buffer : Bytes), buffer.length < Position.greatest →
      let run := (f.writeInPlace books offset v).run.run
      (∀ fault, (run buffer).1 = .error fault →
        f.write books buffer offset v = .error fault ∧ (run buffer).2 = buffer) ∧
      ((run buffer).1 = .ok () →
        f.write books buffer offset v = .ok (run buffer).2 ∧ (run buffer).2.length = buffer.length ∧
          ∀ byte place, (run buffer).2.bit byte place =
            if f.owns offset byte place = true then image.bit (byte - (f.span offset).start) place
            else buffer.bit byte place) ∧
      ∀ other : Bytes, other.length = buffer.length → (run other).1 = (run buffer).1 := by
  have sound := f.sound_of_check known checked
  refine ⟨(f.image books v).toOption.getD [], ?_⟩
  intro offset buffer inMemory run
  have ran : run buffer = _ := f.write_in_place_run books sound builtIn offset v buffer inMemory
  have outcome : ∀ other : Bytes, other.length = buffer.length → (run other).1 = _ := fun other same =>
    f.write_in_place_outcome books sound builtIn offset v other (same ▸ inMemory)
  refine ⟨?_, ?_, ?_⟩
  · intro fault failed
    rw [ran] at failed ⊢
    cases done : f.write books buffer offset v with
    | error other =>
        rw [done] at failed
        cases failed
        exact ⟨rfl, rfl⟩
    | ok out =>
        rw [done] at failed
        cases failed
  · intro finished
    rw [ran] at finished ⊢
    cases done : f.write books buffer offset v with
    | error other =>
        rw [done] at finished
        cases finished
    | ok out =>
        have long : (f.span offset).stop ≤ buffer.length := by
          refine Nat.le_of_not_lt fun short => ?_
          rw [f.write_short books buffer offset v short] at done
          cases done
        obtain ⟨_, new, imaged, painted⟩ :=
          f.painted_of_write books sound builtIn buffer out offset v (f.room sound offset (by omega)) done
        refine ⟨rfl, painted.length, ?_⟩
        intro byte place
        rw [imaged]
        cases owned : f.owns offset byte place with
        | true => exact painted.inside byte place owned
        | false => exact painted.outside byte place owned
  · intro other same
    rw [outcome other same, outcome buffer rfl, same]

-- A number across two bytes, five bits of which belong to other fields.
theorem identifier_keeps_other_bits :
    let identifier := Ccsds.bits "apid" Ccsds.wordType (.range 0 1) (some 0x07ff) none
    let run := (identifier.writeInPlace .none 2 (.int 42)).run.run
    identifier.check .none = .ok () ∧ identifier.type.isBuiltIn = true ∧
      ([0xff, 0xff, 0xff, 0xff] : Bytes).length < Position.greatest ∧
      run [0xff, 0xff, 0xff, 0xff] = (.ok (), [0xff, 0xff, 0xf8, 0x2a]) ∧
      (∃ image : Bytes, ∀ byte place, Bytes.bit [0xff, 0xff, 0xf8, 0x2a] byte place =
        if identifier.owns 2 byte place = true then image.bit (byte - 2) place
        else Bytes.bit [0xff, 0xff, 0xff, 0xff] byte place) ∧
      ∀ other : Bytes, other.length = 4 → (run other).1 = .ok () := by
  intro identifier run
  have passed : identifier.check .none = .ok () := rfl
  have masked : identifier.mask = some 0x07ff := rfl
  have number : (identifier.withCode (.int 42)).toInt? = some 42 := rfl
  have raised : Wide.shiftLeft 42 identifier.shift = 42 := by decide
  have stored : identifier.write .none [0xff, 0xff, 0xff, 0xff] 2 (.int 42) = .ok [0xff, 0xff, 0xf8, 0x2a] := by
    simp only [write, encode, masked, number, raised]
    rfl
  have sound := identifier.sound_of_check .none passed
  have done : run [0xff, 0xff, 0xff, 0xff] = (.ok (), [0xff, 0xff, 0xf8, 0x2a]) := by
    refine (identifier.write_in_place_run .none sound rfl 2 (.int 42) _ (by decide)).trans ?_
    rw [stored]
  obtain ⟨image, frame⟩ := write_keeps_other_bits .none .none identifier passed rfl (.int 42)
  obtain ⟨_, finished, uniform⟩ := frame 2 [0xff, 0xff, 0xff, 0xff] (by decide)
  obtain ⟨_, _, bits⟩ := finished (congrArg Prod.fst done)
  refine ⟨passed, rfl, by decide, done, ⟨image, ?_⟩, ?_⟩
  · intro byte place
    have bit := bits byte place
    rwa [show (identifier.writeInPlace .none 2 (.int 42)).run.run [0xff, 0xff, 0xff, 0xff] = _ from done] at bit
  · intro other same
    exact (uniform other same).trans (congrArg Prod.fst done)

end Field

end SpaceLink
