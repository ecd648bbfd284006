import SpaceLink.DataType.Primitive
import SpaceLink.Proofs.Text.Utf8

/-!
Texts in bytes. A text that the type has room for is read back, unless it ends in the character that
fills the type.
-/

set_option autoImplicit false

namespace SpaceLink

namespace Bytes

theorem trim_filled (bytes : Bytes) (count : Nat) : trimZeros (bytes ++ List.replicate count 0) = trimZeros bytes := by
  induction count with
  | zero => rw [List.replicate_zero, List.append_nil]
  | succ count ih =>
      rw [List.replicate_succ', ← List.append_assoc]
      simp only [trimZeros] at ih ⊢
      rw [List.reverse_append, List.reverse_singleton, List.singleton_append, List.dropWhile_cons_of_pos (by rfl), ih]

theorem trim_of_last (bytes : Bytes) (last : bytes.getLast? ≠ some 0) : trimZeros bytes = bytes := by
  simp only [trimZeros]
  rw [List.getLast?_eq_head?_reverse] at last
  cases backwards : bytes.reverse with
  | nil =>
      rw [List.reverse_eq_nil_iff.mp backwards]
      rfl
  | cons b rest =>
      rw [backwards, List.head?_cons] at last
      have visible : ¬ (b == 0) = true := fun zero => last (congrArg some (eq_of_beq zero))
      rw [List.dropWhile_cons, if_neg visible, ← backwards, List.reverse_reverse]

-- What is trimmed away is zeros.
theorem trim_fill (bytes : Bytes) :
    (trimZeros bytes).length ≤ bytes.length ∧
      trimZeros bytes ++ List.replicate (bytes.length - (trimZeros bytes).length) 0 = bytes := by
  have zeros : bytes.reverse.takeWhile (· == 0) = List.replicate (bytes.reverse.takeWhile (· == 0)).length 0 := by
    apply List.eq_replicate_of_mem
    intro b member
    exact eq_of_beq (List.all_eq_true.mp List.all_takeWhile b member)
  have parts := List.takeWhile_append_dropWhile (p := (· == 0)) (l := bytes.reverse)
  have counted := congrArg List.length parts
  rw [List.length_append, List.length_reverse] at counted
  have kept : (trimZeros bytes).length = (bytes.reverse.dropWhile (· == 0)).length := List.length_reverse
  refine ⟨by omega, ?_⟩
  rw [kept, show bytes.length - (bytes.reverse.dropWhile (· == 0)).length =
    (bytes.reverse.takeWhile (· == 0)).length by omega, ← List.reverse_replicate, ← zeros, trimZeros,
    ← List.reverse_append, parts, List.reverse_reverse]

theorem trim_empty_iff (bytes : Bytes) : trimZeros bytes = [] ↔ ∀ b ∈ bytes, b = 0 := by
  constructor
  · intro empty
    have zeros := (trim_fill bytes).2
    rw [empty, List.nil_append] at zeros
    intro b member
    rw [← zeros] at member
    exact List.eq_of_mem_replicate member
  · intro zeros
    have trimmed := trim_filled [] bytes.length
    rw [List.nil_append, ← List.eq_replicate_of_mem zeros] at trimmed
    exact trimmed

end Bytes

namespace TextType

theorem length_encode (t : TextType) (s : String) : (t.encode s).length = t.size := Bytes.length_fit _ _

theorem decode_encode (t : TextType) (s : String) (short : Utf8.length s ≤ t.size)
    (visible : s.toList.getLast? ≠ some (Char.ofNat 0)) : decode (t.encode s) = s := by
  have whole : (Utf8.encode s).length ≤ t.size := by rwa [Utf8.length_encode]
  have last : (Utf8.encode s).getLast? ≠ some 0 := fun zero => visible (Utf8.text_ends_in_zero s zero)
  rw [decode, encode, Bytes.fit, List.take_of_length_le whole, Bytes.trim_filled, Bytes.trim_of_last _ last,
    Utf8.decode_encode]

end TextType

end SpaceLink
