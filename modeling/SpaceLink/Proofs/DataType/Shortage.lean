import SpaceLink.Proofs.DataType.Reading

/-!
When bytes are missing. No encoding of a built-in type asks for bytes, and reading asks for those of the type alone, all of
them if the type is an array.
-/

set_option autoImplicit false

namespace SpaceLink

namespace Attempt

variable {α β : Type}

-- Whatever goes wrong, it is not that bytes are missing.
def Enough (x : Attempt α) : Prop := ∀ actual minimum, x ≠ .error (.notEnoughData actual minimum)

@[simp]
theorem enough_ok (a : α) : Enough (.ok a) := by
  intro actual minimum same
  cases same

@[simp]
theorem enough_error_iff (fault : Fault) :
    Enough (.error fault : Attempt α) ↔ ∀ actual minimum, fault ≠ .notEnoughData actual minimum := by
  simp [Enough]

theorem enough_iff_only (x : Attempt α) :
    Enough x ↔ Only (fun fault => ∀ actual minimum, fault ≠ .notEnoughData actual minimum) x := by
  constructor
  · intro enough fault failed actual minimum same
    exact enough actual minimum (failed.trans (congrArg Except.error same))
  · intro only actual minimum failed
    exact only _ failed actual minimum rfl

theorem enough_bind (x : Attempt α) (f : α → Attempt β) (first : Enough x) (next : ∀ a, x = .ok a → Enough (f a)) :
    Enough (x >>= f) := by
  simp only [enough_iff_only] at first next ⊢
  exact only_bind _ x f first next

theorem enough_each (f : α → Attempt β) (xs : List α) (each : ∀ x ∈ xs, Enough (f x)) : Enough (xs.mapM f) := by
  simp only [enough_iff_only] at each ⊢
  exact only_each _ f xs each

theorem enough_of_reading (short : Prop) (x : Attempt α) (long : ¬ short) (reading : Only (Fault.OfReading short) x) :
    Enough x := by
  intro actual minimum failed
  exact long (reading _ failed)

end Attempt

open Attempt

theorem IntType.encode_enough (t : IntType) (n : Int) : Enough (t.encode n) := by
  simp only [IntType.encode]
  by_cases held : t.holds n = true
  · rw [if_pos held]
    exact enough_ok _
  · rw [if_neg held]
    simp

theorem Primitive.encode_enough (p : Primitive) (v : Value) : Enough (p.encode v) := by
  cases p with
  | int t =>
      simp only [Primitive.encode]
      cases v.toInt? with
      | none => simp [Primitive.mismatch]
      | some n => exact t.encode_enough n
  | float t =>
      simp only [Primitive.encode]
      cases v.toDouble? with
      | none => simp [Primitive.mismatch]
      | some x => exact enough_ok _
  | text t => cases v <;> simp [Primitive.encode, Primitive.mismatch]

theorem Books.command_book_enough (books : Books) : Enough books.commandBook :=
  enough_of_reading False _ id (Code.command_book_only books False)

theorem Books.event_book_enough (books : Books) : Enough books.eventBook :=
  enough_of_reading False _ id (Code.event_book_only books False)

namespace Code

theorem encode_command_enough (books : Books) (v : Value) : Enough (encodeCommand books v) := by
  cases v with
  | command r => exact enough_ok _
  | str name =>
      apply enough_bind _ _ books.command_book_enough
      intro book _
      cases book.ofName? name <;> simp
  | int n =>
      simp only [encodeCommand]
      cases number? n with
      | none => simp
      | some number =>
          apply enough_bind _ _ books.command_book_enough
          intro book _
          cases book.ofNumber? number <;> simp
  | _ => simp [encodeCommand]

theorem encode_event_enough (books : Books) (v : Value) : Enough (encodeEvent books v) := by
  cases v with
  | event r => exact enough_ok _
  | str name =>
      apply enough_bind _ _ books.event_book_enough
      intro book _
      cases book.ofName? name <;> simp
  | int n =>
      simp only [encodeEvent]
      cases number? n <;> simp
  | _ => simp [encodeEvent]

end Code

namespace TimeCode

theorem encode_seconds_enough (t : TimeCode) (i : Instant) : Enough (t.encodeSeconds i) := by
  simp only [encodeSeconds]
  by_cases held : 0 ≤ i.seconds - epoch ∧ i.seconds - epoch < 2 ^ 32
  · rw [if_pos held]
    exact enough_ok _
  · rw [if_neg held]
    simp

theorem encode_fraction_enough (x : Binary64) : Enough (encodeFraction x) := by
  simp only [encodeFraction]
  by_cases outside : (x.isNaN || x.lt Binary64.zero || !x.lt (Binary64.ofInt 1)) = true
  · rw [if_pos outside]
    simp
  · rw [if_neg outside]
    exact enough_ok _

theorem encode_enough (t : TimeCode) (v : Value) : Enough (t.encode v) := by
  unfold encode
  split
  · exact enough_ok _
  · cases v.toDouble? with
    | none => simp [mismatch]
    | some x => exact encode_fraction_enough x
  · exact encode_seconds_enough _ _
  · exact enough_bind _ _ (encode_seconds_enough _ _) fun _ _ => enough_ok _
  · exact enough_bind _ _ (encode_seconds_enough _ _) fun _ _ => enough_ok _
  · simp [mismatch]

end TimeCode

theorem Scalar.encode_enough (books : Books) (s : Scalar) (builtIn : s.isBuiltIn = true) (v : Value) :
    Enough (s.encode books v) := by
  cases s with
  | primitive p => exact p.encode_enough v
  | command => exact Code.encode_command_enough books v
  | event => exact Code.encode_event_enough books v
  | time t => exact t.encode_enough v
  | custom c => cases builtIn

namespace ArrayType

variable (books : Books) (a : ArrayType)

theorem encode_items_enough (element : Scalar) (builtIn : element.isBuiltIn = true)
    (items : List Value) (done : List Bytes) : Enough (encodeItems books element items done) := by
  induction items generalizing done with
  | nil => exact enough_ok _
  | cons v rest ih => exact enough_bind _ _ (element.encode_enough books builtIn v) fun part _ => ih (part :: done)

end ArrayType

namespace DataType

theorem encode_enough (books : Books) (t : DataType) (builtIn : t.isBuiltIn = true) (v : Value) :
    Enough (t.encode books v) := by
  cases t with
  | scalar s => exact s.encode_enough books builtIn v
  | array a =>
      cases v with
      | list items =>
          simp only [DataType.encode, ArrayType.encode]
          by_cases counted : items.length = a.count
          · rw [if_pos counted]
            exact ArrayType.encode_items_enough books a.element builtIn items []
          · rw [if_neg counted]
            simp
      | _ => simp [DataType.encode, ArrayType.encode]

end DataType

end SpaceLink
