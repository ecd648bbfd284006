import SpaceLink.DataType.Basic
import SpaceLink.Proofs.Attempt
import SpaceLink.Proofs.DataType.Integer

/-!
What all types but those of the user have in common: an encoding has as many bytes as its type has, and
decoding looks at no byte behind them. An array may have more than its width says.
-/

set_option autoImplicit false

namespace SpaceLink

namespace Scalar

def isBuiltIn : Scalar → Bool
  | .custom _ => false
  | _ => true

end Scalar

namespace DataType

def isBuiltIn : DataType → Bool
  | .scalar s => s.isBuiltIn
  | .array a => a.element.isBuiltIn

end DataType

namespace DataType

-- A type with more bytes than its width says.
def Wraps (t : DataType) : Prop := t.nbytes ≠ t.extent

instance (t : DataType) : Decidable t.Wraps := inferInstanceAs (Decidable (t.nbytes ≠ t.extent))

variable (t : DataType)

theorem scalar_unwrapped (s : Scalar) : ¬ (DataType.scalar s).Wraps := fun wraps => wraps rfl

theorem nbytes_unwrapped (unwrapped : ¬ t.Wraps) : t.nbytes = t.extent := Decidable.not_not.mp unwrapped

theorem array_wraps_iff (a : ArrayType) : (DataType.array a).Wraps ↔ 2 ^ 64 ≤ a.extent := by
  change a.extent % 2 ^ 64 ≠ a.extent ↔ 2 ^ 64 ≤ a.extent
  rw [← Nat.not_lt, ne_eq, Nat.mod_eq_iff_lt (by decide)]

-- A scalar is as wide as it says, so a type that is not is an array.
theorem extent_wraps (wraps : t.Wraps) : 2 ^ 64 ≤ t.extent := by
  cases t with
  | scalar s => exact absurd wraps (scalar_unwrapped s)
  | array a => exact (array_wraps_iff a).mp wraps

end DataType

theorem Primitive.length_encode (p : Primitive) (v : Value) (bytes : Bytes) (done : p.encode v = .ok bytes) :
    bytes.length = p.nbytes := by
  cases p with
  | int t =>
      simp only [Primitive.encode] at done
      cases number : v.toInt? with
      | none => simp [number] at done
      | some n => exact t.length_encode n bytes (by simpa [number] using done)
  | float t =>
      simp only [Primitive.encode] at done
      cases number : v.toDouble? with
      | none => simp [number] at done
      | some x =>
          have spelled : t.encode x = bytes := by simpa [number] using done
          rw [← spelled]
          exact ByteOrder.length_spell _ _ _
  | text t =>
      cases v with
      | str s =>
          have fitted : t.encode s = bytes := by simpa [Primitive.encode] using done
          rw [← fitted]
          exact Bytes.length_fit _ _
      | _ => simp [Primitive.encode] at done

theorem Code.length_spell (number : UInt16) : (Code.spell number).length = 2 := Bytes.length_big 2 _

theorem Code.length_encode_command (books : Books) (v : Value) (bytes : Bytes)
    (done : Code.encodeCommand books v = .ok bytes) : bytes.length = 2 := by
  simp only [Code.encodeCommand] at done
  split at done
  · cases done
    exact length_spell _
  · obtain ⟨book, _, found⟩ := (Attempt.bind_ok_iff _ _ _).mp done
    split at found
    · cases found
      exact length_spell _
    · cases found
  · split at done
    · cases done
    · obtain ⟨book, _, found⟩ := (Attempt.bind_ok_iff _ _ _).mp done
      split at found
      · cases found
        exact length_spell _
      · cases found
  · cases done

theorem Code.length_encode_event (books : Books) (v : Value) (bytes : Bytes)
    (done : Code.encodeEvent books v = .ok bytes) : bytes.length = 2 := by
  simp only [Code.encodeEvent] at done
  split at done
  · cases done
    exact length_spell _
  · obtain ⟨book, _, found⟩ := (Attempt.bind_ok_iff _ _ _).mp done
    split at found
    · cases found
      exact length_spell _
    · cases found
  · split at done
    · cases done
      exact length_spell _
    · cases done
  · cases done

namespace TimeCode

theorem length_encode_seconds (t : TimeCode) (i : Instant) (bytes : Bytes)
    (done : t.encodeSeconds i = .ok bytes) : bytes.length = 4 := by
  unfold encodeSeconds at done
  simp only at done
  split at done
  · cases done
    exact Bytes.length_big 4 _
  · cases done

theorem length_encode_fraction (x : Binary64) (bytes : Bytes) (done : encodeFraction x = .ok bytes) :
    bytes.length = 1 := by
  unfold encodeFraction at done
  simp only at done
  split at done
  · cases done
  · cases done
    rfl

theorem length_encode (t : TimeCode) (v : Value) (bytes : Bytes) (done : t.encode v = .ok bytes) :
    bytes.length = t.nbytes := by
  simp only [encode] at done
  split at done
  · cases done
    rfl
  · split at done
    · exact length_encode_fraction _ bytes done
    · cases done
  · exact length_encode_seconds _ _ bytes done
  · obtain ⟨whole, seconds, joined⟩ := (Attempt.bind_ok_iff _ _ _).mp done
    cases joined
    simp [length_encode_seconds _ _ whole seconds, nbytes]
  · obtain ⟨whole, seconds, joined⟩ := (Attempt.bind_ok_iff _ _ _).mp done
    cases joined
    simp [length_encode_seconds _ _ whole seconds, Bytes.length_big, nbytes]
  · cases done

end TimeCode

-- What is asked of a type of the user; the others need nothing.
def Scalar.Sized : Scalar → Prop
  | .custom c => ∀ v bytes, c.encode v = .ok bytes → bytes.length = c.nbytes
  | _ => True

def DataType.Sized : DataType → Prop
  | .scalar s => s.Sized
  | .array a => a.element.Sized

theorem Scalar.sized_of_built_in (s : Scalar) (builtIn : s.isBuiltIn = true) : s.Sized := by
  cases s with
  | custom c => cases builtIn
  | _ => trivial

theorem DataType.sized_of_built_in (t : DataType) (builtIn : t.isBuiltIn = true) : t.Sized := by
  cases t with
  | scalar s => exact s.sized_of_built_in builtIn
  | array a => exact a.element.sized_of_built_in builtIn

theorem Scalar.length_encode (books : Books) (s : Scalar) (v : Value) (bytes : Bytes) (sized : s.Sized)
    (done : s.encode books v = .ok bytes) : bytes.length = s.nbytes := by
  cases s with
  | primitive p => exact p.length_encode v bytes done
  | command => exact Code.length_encode_command books v bytes done
  | event => exact Code.length_encode_event books v bytes done
  | time t => exact t.length_encode v bytes done
  | custom c => exact sized v bytes done

theorem ArrayType.length_encode_items (books : Books) (element : Scalar) (items : List Value)
    (written : List Bytes) (bytes : Bytes) (sized : element.Sized)
    (widths : ∀ part ∈ written, part.length = element.nbytes)
    (done : ArrayType.encodeItems books element items written = .ok bytes) :
    bytes.length = (written.length + items.length) * element.nbytes := by
  induction items generalizing written with
  | nil =>
      cases done
      have constant : written.reverse.map List.length = List.replicate written.length element.nbytes := by
        rw [← List.length_reverse, List.eq_replicate_iff]
        simpa using widths
      simp [List.length_flatten, constant]
  | cons v rest ih =>
      obtain ⟨part, first, others⟩ := (Attempt.bind_ok_iff _ _ _).mp done
      have width := element.length_encode books v part sized first
      have total := ih (part :: written) (by simpa [width] using widths) others
      rw [total, List.length_cons, List.length_cons]
      congr 1
      omega

theorem DataType.length_encode (books : Books) (t : DataType) (v : Value) (bytes : Bytes) (sized : t.Sized)
    (done : t.encode books v = .ok bytes) : bytes.length = t.extent := by
  cases t with
  | scalar s => exact s.length_encode books v bytes sized done
  | array a =>
      cases v with
      | list items =>
          simp only [DataType.encode, ArrayType.encode] at done
          split at done
          · rename_i counted
            have total := ArrayType.length_encode_items books a.element items [] bytes sized (by simp) done
            simpa [DataType.extent, ArrayType.extent, counted] using total
          · cases done
      | _ => cases done

-- From here on two byte strings are compared that start with the same bytes, those of a type; what
-- stands behind them, and how much, may differ.
theorem take_prefix {a b : Bytes} {width : Nat} (start count : Nat) (same : a.take width = b.take width)
    (inside : start + count ≤ width) : (a.drop start).take count = (b.drop start).take count := by
  have cut := congrArg (fun bytes => List.take count (List.drop start bytes)) same
  simpa [List.drop_take, List.take_take, show min count (width - start) = count by omega] using cut

theorem Primitive.decode_prefix (p : Primitive) (a b : Bytes) (long : p.nbytes ≤ b.length)
    (same : a.take p.nbytes = b.take p.nbytes) : p.decode a = p.decode b := by
  have whole : ¬ (b.take p.nbytes).length < p.nbytes := by
    rw [List.length_take]
    omega
  simp only [Primitive.decode, same, if_neg whole]

theorem TimeCode.decode_prefix (t : TimeCode) (a b : Bytes) (raw : Bool) (long : t.nbytes ≤ b.length)
    (same : a.take t.nbytes = b.take t.nbytes) : t.decode a raw = t.decode b raw := by
  have whole : ¬ (b.take t.nbytes).length < t.nbytes := by
    rw [List.length_take]
    omega
  simp only [TimeCode.decode, same, if_neg whole]

theorem Code.read_prefix (a b : Bytes) (longA : 2 ≤ a.length) (longB : 2 ≤ b.length)
    (same : a.take 2 = b.take 2) : Code.read a = Code.read b := by
  match a, b with
  | high :: low :: _, high' :: low' :: _ =>
      simp only [List.take_succ_cons, List.take_zero, List.cons.injEq, and_true] at same
      rw [same.1, same.2]
      rfl
  | [], _ => simp at longA
  | [_], _ => simp at longA
  | _ :: _ :: _, [] => simp at longB
  | _ :: _ :: _, [_] => simp at longB

theorem Scalar.decode_prefix (books : Books) (s : Scalar) (a b : Bytes) (raw : Bool)
    (builtIn : s.isBuiltIn = true) (longA : s.nbytes ≤ a.length) (longB : s.nbytes ≤ b.length)
    (same : a.take s.nbytes = b.take s.nbytes) : s.decode books a raw = s.decode books b raw := by
  cases s with
  | primitive p => exact p.decode_prefix a b longB same
  | command => simp only [Scalar.decode, Code.decodeCommand, Code.read_prefix a b longA longB same]
  | event => simp only [Scalar.decode, Code.decodeEvent, Code.read_prefix a b longA longB same]
  | time t => exact t.decode_prefix a b raw longB same
  | custom c => cases builtIn

namespace ArrayType

theorem element_inside (a : ArrayType) (index : Nat) (inside : index < a.count) :
    index * a.element.nbytes + a.element.nbytes ≤ a.extent := by
  have bound := Nat.mul_le_mul_right a.element.nbytes (Nat.succ_le_of_lt inside)
  rwa [Nat.succ_mul] at bound

theorem decode_next_prefix (books : Books) (a : ArrayType) (raw : Bool) (total total' index : Nat)
    (rest rest' : Bytes) (long : index < a.count → a.element.nbytes ≤ rest.length)
    (same : index < a.count → rest.take a.element.nbytes = rest'.take a.element.nbytes) :
    a.decodeNext books raw total index rest = a.decodeNext books raw total' index rest' := by
  simp only [decodeNext]
  by_cases inside : index < a.count
  · have whole : ¬ (rest.take a.element.nbytes).length < a.element.nbytes := by
      have enough := long inside
      rw [List.length_take]
      omega
    simp only [← same inside, if_neg whole]
  · simp only [if_pos (Nat.le_of_not_lt inside)]

theorem decode_elem_prefix (books : Books) (a : ArrayType) (data data' : Bytes) (index : Nat) (raw : Bool)
    (long : a.extent ≤ data.length) (same : data.take a.extent = data'.take a.extent) :
    a.decodeElement books data index raw = a.decodeElement books data' index raw := by
  apply decode_next_prefix
  · intro inside
    have bound := a.element_inside index inside
    rw [List.length_drop]
    omega
  · intro inside
    exact take_prefix _ _ same (a.element_inside index inside)

theorem decode_items_prefix (books : Books) (a : ArrayType) (raw : Bool) (total total' count index : Nat)
    (rest rest' : Bytes) (done : List Value) (long : count * a.element.nbytes ≤ rest.length)
    (same : rest.take (count * a.element.nbytes) = rest'.take (count * a.element.nbytes)) :
    a.decodeItems books raw total count index rest done = a.decodeItems books raw total' count index rest' done := by
  induction count generalizing index rest rest' done with
  | zero => rfl
  | succ count ih =>
      rw [Nat.succ_mul] at long same
      have first := a.decode_next_prefix books raw total total' index rest rest' (fun _ => by omega) fun _ => by
        simpa using take_prefix 0 a.element.nbytes same (by omega)
      have others : ∀ v, a.decodeItems books raw total count (index + 1) (rest.drop a.element.nbytes) (v :: done) =
          a.decodeItems books raw total' count (index + 1) (rest'.drop a.element.nbytes) (v :: done) := by
        intro v
        apply ih
        · rw [List.length_drop]
          omega
        · exact take_prefix _ _ same (by omega)
      simp only [decodeItems, first, others]

end ArrayType

theorem DataType.decode_prefix (books : Books) (t : DataType) (a b : Bytes) (raw : Bool)
    (builtIn : t.isBuiltIn = true) (longA : t.extent ≤ a.length) (longB : t.extent ≤ b.length)
    (same : a.take t.extent = b.take t.extent) : t.decode books a raw = t.decode books b raw := by
  cases t with
  | scalar s => exact s.decode_prefix books a b raw builtIn longA longB same
  | array array =>
      have items := array.decode_items_prefix books raw a.length b.length array.count 0 a b [] longA same
      simp [DataType.decode, ArrayType.decode, ArrayType.decodeRange, items]

end SpaceLink
