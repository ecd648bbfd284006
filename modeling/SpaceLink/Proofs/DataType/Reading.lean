import SpaceLink.Proofs.DataType.Elements

/-!
What can go wrong when bytes are read. A built-in type may lack bytes, find a number out of its range, or have to ask for a
dictionary or an entry that is not there; it has no other faults.
-/

set_option autoImplicit false

namespace SpaceLink

-- The faults of reading, among them that bytes are missing if these are `short`.
def Fault.OfReading (short : Prop) : Fault → Prop
  | .outOfRange _ | .unboundDictionary _ | .unknownSymbol _ => True
  | .notEnoughData _ _ => short
  | _ => False

open Attempt

-- What goes wrong with bytes that are enough may go wrong with any.
theorem Attempt.only_of_enough {α : Type} (narrow wide : Prop) (x : Attempt α) (enough : ¬ narrow)
    (only : Only (Fault.OfReading narrow) x) : Only (Fault.OfReading wide) x := by
  intro fault failed
  have own := only fault failed
  cases fault with
  | notEnoughData actual minimum => exact absurd own enough
  | outOfRange range => trivial
  | unboundDictionary kind => trivial
  | unknownSymbol symbol => trivial
  | _ => cases own

variable (books : Books)

namespace Code

theorem read_only (bytes : Bytes) : Only (Fault.OfReading (bytes.length < 2)) (read bytes) := by
  unfold read
  split
  · exact only_ok _ _
  case _ few =>
      rw [only_error_iff]
      match bytes with
      | [] => exact Nat.zero_lt_two
      | [_] => exact Nat.one_lt_two
      | high :: low :: rest => exact absurd rfl (few high low rest)

theorem command_book_only (short : Prop) : Only (Fault.OfReading short) books.commandBook := by
  simp only [Books.commandBook]
  cases books.commands <;> simp [Fault.OfReading]

theorem event_book_only (short : Prop) : Only (Fault.OfReading short) books.eventBook := by
  simp only [Books.eventBook]
  cases books.events <;> simp [Fault.OfReading]

theorem decode_command_only (bytes : Bytes) (raw : Bool) :
    Only (Fault.OfReading (bytes.length < 2)) (decodeCommand books bytes raw) := by
  refine only_bind _ _ _ (read_only bytes) fun number _ => ?_
  cases raw with
  | true => exact only_ok _ _
  | false =>
      refine only_bind _ _ _ (command_book_only books _) fun book _ => ?_
      cases book.ofNumber? number <;> simp [Fault.OfReading]

theorem decode_event_only (bytes : Bytes) (raw : Bool) :
    Only (Fault.OfReading (bytes.length < 2)) (decodeEvent books bytes raw) := by
  refine only_bind _ _ _ (read_only bytes) fun number _ => ?_
  cases raw with
  | true => exact only_ok _ _
  | false =>
      refine only_bind _ _ _ (event_book_only books _) fun book _ => ?_
      cases book.ofNumber? number <;> simp

end Code

theorem TimeCode.decode_only (t : TimeCode) (bytes : Bytes) (raw : Bool) :
    Only (Fault.OfReading (bytes.length < t.nbytes)) (t.decode bytes raw) := by
  simp only [decode]
  by_cases short : (bytes.take t.nbytes).length < t.nbytes
  · rw [if_pos short, only_error_iff]
    rw [List.length_take] at short
    exact (by omega : bytes.length < t.nbytes)
  · rw [if_neg short]
    cases t with
    | nanos =>
        by_cases past : Instant.nanosPerSecond ≤ Bytes.ofBig ((bytes.take (nbytes .nanos)).drop 4)
        · simp [past, Fault.OfReading]
        · simp [past]
    | _ => exact only_ok _ _

theorem Primitive.decode_only (p : Primitive) (bytes : Bytes) :
    Only (Fault.OfReading (bytes.length < p.nbytes)) (p.decode bytes) := by
  simp only [Primitive.decode]
  by_cases short : (bytes.take p.nbytes).length < p.nbytes
  · rw [if_pos short, only_error_iff]
    rw [List.length_take] at short
    exact (by omega : bytes.length < p.nbytes)
  · rw [if_neg short]
    exact only_ok _ _

theorem Scalar.decode_only (s : Scalar) (builtIn : s.isBuiltIn = true) (bytes : Bytes) (raw : Bool) :
    Only (Fault.OfReading (bytes.length < s.nbytes)) (s.decode books bytes raw) := by
  cases s with
  | primitive p => exact p.decode_only bytes
  | command => exact Code.decode_command_only books bytes raw
  | event => exact Code.decode_event_only books bytes raw
  | time t => exact t.decode_only bytes raw
  | custom c => cases builtIn

-- For an index that is too large too: that is another fault.
theorem ArrayType.decode_element_only (a : ArrayType) (builtIn : a.element.isBuiltIn = true) (bytes : Bytes)
    (index : Nat) (raw : Bool) :
    Only (Fault.OfReading (bytes.length < a.extent)) (a.decodeElement books bytes index raw) := by
  by_cases outside : a.count ≤ index
  · rw [a.decode_element_outside books bytes index raw outside]
    simp [Fault.OfReading]
  · have inside := Nat.lt_of_not_le outside
    by_cases whole : (a.part bytes index).length = a.element.nbytes
    · rw [a.decode_element_part books bytes index raw inside whole]
      exact only_of_enough _ _ _ (by omega) (a.element.decode_only books builtIn _ raw)
    · have lacking : (a.part bytes index).length < a.element.nbytes :=
        Nat.lt_of_le_of_ne (List.length_take_le _ _) whole
      have short : bytes.length < a.extent := Nat.lt_of_not_le fun long => whole (a.length_part bytes index inside long)
      rw [a.decode_element_lacking books bytes index raw inside lacking, only_error_iff]
      exact short

theorem DataType.decode_only (t : DataType) (builtIn : t.isBuiltIn = true) (bytes : Bytes) (raw : Bool) :
    Only (Fault.OfReading (bytes.length < t.extent)) (t.decode books bytes raw) := by
  cases t with
  | scalar s => exact s.decode_only books builtIn bytes raw
  | array a =>
      simp only [decode, ArrayType.decode, a.decode_range_each]
      exact only_map _ _ _ (only_each _ _ _ fun index _ => a.decode_element_only books builtIn bytes index raw)

end SpaceLink
