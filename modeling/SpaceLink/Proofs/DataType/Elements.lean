import Mathlib.Tactic.Choose
import SpaceLink.Proofs.DataType.Width

/-!
The elements of an array, each in bytes of its own. A run of elements is read element by element, and a list is spelled
item by item, so whatever holds of the type of the elements holds of lists of them.
-/

set_option autoImplicit false

namespace SpaceLink

-- The values that fit are spelled in bytes of one width, and any bytes of this width are the spelling of one of them.
structure Exact {α : Type} (value : α → Value) (fits : α → Prop) (width : Nat) (encode : Value → Attempt Bytes)
    (decode : Bytes → Attempt Value) : Prop where
  spelled_iff : ∀ x, (∃ bytes, encode (value x) = .ok bytes) ↔ fits x
  sized : ∀ x bytes, encode (value x) = .ok bytes → bytes.length = width
  back : ∀ x bytes, encode (value x) = .ok bytes → ∀ behind, decode (bytes ++ behind) = .ok (value x)
  read : ∀ bytes, bytes.length = width → ∃ x, decode bytes = .ok (value x) ∧ encode (value x) = .ok bytes

namespace ArrayType

variable (books : Books) (a : ArrayType)

-- The bytes of one element.
def part (bytes : Bytes) (index : Nat) : Bytes := (bytes.drop (index * a.element.nbytes)).take a.element.nbytes

theorem length_part (bytes : Bytes) (index : Nat) (counted : index < a.count) (long : a.extent ≤ bytes.length) :
    (a.part bytes index).length = a.element.nbytes := by
  have room := a.element_inside index counted
  rw [part, List.length_take, List.length_drop]
  omega

theorem parts_joined (bytes : Bytes) (count : Nat) :
    (List.range count).flatMap (a.part bytes) = bytes.take (count * a.element.nbytes) := by
  induction count with
  | zero => simp
  | succ count ih =>
      rw [List.range_succ, List.flatMap_append, ih, List.flatMap_singleton, part, Nat.succ_mul, List.take_add]

theorem part_of_joined (parts : List Bytes) (behind own : Bytes) (index : Nat)
    (widths : ∀ part ∈ parts, part.length = a.element.nbytes) (found : parts[index]? = some own) :
    a.part (parts.flatten ++ behind) index = own := by
  rw [part]
  induction parts generalizing index with
  | nil => cases found
  | cons first rest ih =>
      obtain ⟨width, others⟩ := List.forall_mem_cons.mp widths
      rw [List.flatten_cons, List.append_assoc]
      cases index with
      | zero =>
          cases found
          rw [Nat.zero_mul, List.drop_zero, ← width, List.take_left]
      | succ index =>
          rw [Nat.succ_mul, Nat.add_comm, ← List.drop_drop, ← width, List.drop_left, width]
          exact ih index others found

theorem decode_element_part (bytes : Bytes) (index : Nat) (raw : Bool) (counted : index < a.count)
    (whole : (a.part bytes index).length = a.element.nbytes) :
    a.decodeElement books bytes index raw = a.element.decode books (a.part bytes index) raw := by
  rw [part] at whole ⊢
  simp only [decodeElement, decodeNext, if_neg (Nat.not_le.mpr counted), whole, Nat.lt_irrefl, if_false]

theorem decode_element_outside (bytes : Bytes) (index : Nat) (raw : Bool) (outside : a.count ≤ index) :
    a.decodeElement books bytes index raw = .error (.outOfRange (.index index a.name)) := by
  simp only [decodeElement, decodeNext, if_pos outside]

theorem decode_element_lacking (bytes : Bytes) (index : Nat) (raw : Bool) (counted : index < a.count)
    (lacking : (a.part bytes index).length < a.element.nbytes) :
    a.decodeElement books bytes index raw =
      .error (.notEnoughData bytes.length (index * a.element.nbytes + a.element.nbytes)) := by
  rw [part] at lacking
  simp only [decodeElement, decodeNext, if_neg (Nat.not_le.mpr counted), if_pos lacking]

theorem decode_items_each (raw : Bool) (bytes : Bytes) (count index : Nat) (done : List Value) :
    a.decodeItems books raw bytes.length count index (bytes.drop (index * a.element.nbytes)) done =
      ((List.range' index count).mapM fun i => a.decodeElement books bytes i raw).map (done.reverse ++ ·) := by
  induction count generalizing index done with
  | zero => simp [decodeItems, pure, Except.pure, Except.map]
  | succ count ih =>
      rw [decodeItems, List.range'_succ, List.mapM_cons, List.drop_drop, ← Nat.succ_mul]
      change (a.decodeElement books bytes index raw >>= fun v => _) = _
      cases a.decodeElement books bytes index raw with
      | error fault => rfl
      | ok v =>
          rw [Attempt.bind_of_ok _ _ v rfl, Attempt.bind_of_ok _ _ v rfl, ih]
          cases (List.range' (index + 1) count).mapM fun i => a.decodeElement books bytes i raw with
          | error fault => rfl
          | ok vs => simp [bind, Except.bind, pure, Except.pure, Except.map]

theorem decode_range_each (bytes : Bytes) (start stop : Nat) (raw : Bool) :
    a.decodeRange books bytes start stop raw =
      ((List.range' start (stop - start)).mapM fun i => a.decodeElement books bytes i raw).map .list := by
  rw [decodeRange, decode_items_each]
  cases (List.range' start (stop - start)).mapM fun i => a.decodeElement books bytes i raw <;> rfl

-- What a run of elements is read as, by the elements.
theorem decode_range_ok_iff (bytes : Bytes) (start stop : Nat) (raw : Bool) (items : List Value) :
    a.decodeRange books bytes start stop raw = .ok (.list items) ↔
      items.length = stop - start ∧
        ∀ i v, items[i]? = some v → a.decodeElement books bytes (start + i) raw = .ok v := by
  have outcomes : a.decodeRange books bytes start stop raw = .ok (.list items) ↔
      (List.range' start (stop - start)).map (fun i => a.decodeElement books bytes i raw) = items.map .ok := by
    rw [decode_range_each, ← Attempt.map_ok_iff]
    cases (List.range' start (stop - start)).mapM fun i => a.decodeElement books bytes i raw <;> simp [Except.map]
  have place : ∀ i < stop - start, (List.range' start (stop - start))[i]? = some (start + i) := by
    intro i inside
    rw [List.getElem?_range' inside, Nat.one_mul]
  rw [outcomes]
  constructor
  · intro same
    have length : items.length = stop - start := by simpa using (congrArg List.length same).symm
    refine ⟨length, ?_⟩
    intro i v item
    have inside := length ▸ (List.getElem?_eq_some_iff.mp item).1
    have own := congrArg (fun results => results[i]?) same
    simpa [place i inside, item] using own
  · rintro ⟨length, each⟩
    apply List.ext_getElem?
    intro i
    rw [List.getElem?_map, List.getElem?_map]
    by_cases inside : i < stop - start
    · have item : items[i]? = some (items.get ⟨i, length.symm ▸ inside⟩) := List.getElem?_eq_getElem _
      rw [place i inside, item, Option.map_some, Option.map_some, each i _ item]
    · rw [List.getElem?_eq_none (by simpa using inside), List.getElem?_eq_none (by omega)]
      rfl

theorem decode_ok_iff (bytes : Bytes) (raw : Bool) (items : List Value) :
    a.decode books bytes raw = .ok (.list items) ↔
      items.length = a.count ∧ ∀ i v, items[i]? = some v → a.decodeElement books bytes i raw = .ok v := by
  rw [decode, decode_range_ok_iff]
  simp only [Nat.sub_zero, Nat.zero_add]

theorem decode_list (bytes : Bytes) (raw : Bool) (v : Value) (done : a.decode books bytes raw = .ok v) :
    ∃ items, v = .list items := by
  rw [decode, decode_range_each] at done
  cases each : (List.range' 0 (a.count - 0)).mapM fun i => a.decodeElement books bytes i raw with
  | error fault =>
      rw [each] at done
      cases done
  | ok items =>
      rw [each] at done
      cases done
      exact ⟨items, rfl⟩

theorem encode_items_each (items : List Value) (done : List Bytes) :
    encodeItems books a.element items done =
      (items.mapM (a.element.encode books)).map fun parts => (done.reverse ++ parts).flatten := by
  induction items generalizing done with
  | nil => simp [encodeItems, pure, Except.pure, Except.map]
  | cons v rest ih =>
      rw [encodeItems, List.mapM_cons]
      cases a.element.encode books v with
      | error fault => rfl
      | ok bytes =>
          rw [Attempt.bind_of_ok _ _ bytes rfl, Attempt.bind_of_ok _ _ bytes rfl, ih]
          cases rest.mapM (a.element.encode books) with
          | error fault => rfl
          | ok parts => simp [bind, Except.bind, pure, Except.pure, Except.map]

theorem encode_ok_iff (items : List Value) (bytes : Bytes) :
    a.encode books (.list items) = .ok bytes ↔
      items.length = a.count ∧
        ∃ parts : List Bytes, items.map (a.element.encode books) = parts.map .ok ∧ bytes = parts.flatten := by
  simp only [encode]
  by_cases counted : items.length = a.count
  · rw [if_pos counted, encode_items_each]
    simp only [← Attempt.map_ok_iff, counted, true_and]
    cases items.mapM (a.element.encode books) with
    | error fault => simp [Except.map]
    | ok parts => simp [Except.map, eq_comm]
  · simp [counted]

section Elements

variable {α : Type} (value : α → Value) (fits : α → Prop) (raw : Bool)
variable (element : Exact value fits a.element.nbytes (a.element.encode books)
  fun bytes => a.element.decode books bytes raw)

include element in
theorem encoded_parts (xs : List α) (parts : List Bytes)
    (each : (xs.map value).map (a.element.encode books) = parts.map .ok) :
    parts.length = xs.length ∧ (∀ part ∈ parts, part.length = a.element.nbytes) ∧
      ∀ (i : Nat) (x : α), xs[i]? = some x →
        ∃ part, parts[i]? = some part ∧ a.element.encode books (value x) = .ok part := by
  have length : parts.length = xs.length := by simpa using (congrArg List.length each).symm
  refine ⟨length, ?_, ?_⟩
  · intro part member
    have spelled : Except.ok part ∈ (xs.map value).map (a.element.encode books) := by
      rw [each]
      exact List.mem_map_of_mem member
    rw [List.map_map] at spelled
    obtain ⟨x, _, done⟩ := List.mem_map.mp spelled
    exact element.sized x part done
  · intro i x item
    have own := congrArg (fun results => results[i]?) each
    simp only [List.getElem?_map, item, Option.map_some] at own
    obtain ⟨part, found, same⟩ := Option.map_eq_some_iff.mp own.symm
    exact ⟨part, found, same.symm⟩

include element in
theorem decode_element_encoded (xs : List α) (bytes behind : Bytes) (i : Nat) (x : α)
    (done : a.encode books (.list (xs.map value)) = .ok bytes) (item : xs[i]? = some x) :
    a.decodeElement books (bytes ++ behind) i raw = .ok (value x) := by
  obtain ⟨counted, parts, each, joined⟩ := (a.encode_ok_iff books _ bytes).mp done
  obtain ⟨length, widths, own⟩ := a.encoded_parts books value fits raw element xs parts each
  obtain ⟨part, found, spelled⟩ := own i x item
  have inside : i < a.count := by
    rw [← counted, List.length_map]
    exact (List.getElem?_eq_some_iff.mp item).1
  have place := a.part_of_joined parts behind part i widths found
  have read := element.back x part spelled []
  rw [joined, a.decode_element_part books _ i raw inside (by rw [place]; exact element.sized x part spelled), place]
  rwa [List.append_nil] at read

include element in
theorem decode_range_encoded (xs : List α) (bytes behind : Bytes) (start stop : Nat)
    (done : a.encode books (.list (xs.map value)) = .ok bytes) (ordered : start ≤ stop) (inside : stop ≤ a.count) :
    a.decodeRange books (bytes ++ behind) start stop raw =
      .ok (.list (((xs.drop start).take (stop - start)).map value)) := by
  have counted := ((a.encode_ok_iff books _ bytes).mp done).1
  rw [List.length_map] at counted
  refine (a.decode_range_ok_iff books _ start stop raw _).mpr ⟨?_, ?_⟩
  · rw [List.length_map, List.length_take, List.length_drop]
    omega
  · intro i v item
    rw [List.getElem?_map] at item
    obtain ⟨x, found, rfl⟩ := Option.map_eq_some_iff.mp item
    rw [List.getElem?_take] at found
    split at found
    · rw [List.getElem?_drop] at found
      exact a.decode_element_encoded books value fits raw element xs bytes behind (start + i) x done found
    · cases found

include element in
theorem lists_exact :
    Exact (fun xs : List α => .list (xs.map value)) (fun xs => xs.length = a.count ∧ ∀ x ∈ xs, fits x) a.extent
      (a.encode books) fun bytes => a.decode books bytes raw := by
  refine ⟨?_, ?_, ?_, ?_⟩
  · intro xs
    constructor
    · rintro ⟨bytes, done⟩
      obtain ⟨counted, parts, each, _⟩ := (a.encode_ok_iff books _ bytes).mp done
      obtain ⟨_, _, own⟩ := a.encoded_parts books value fits raw element xs parts each
      refine ⟨by simpa using counted, ?_⟩
      intro x member
      obtain ⟨i, item⟩ := List.mem_iff_getElem?.mp member
      obtain ⟨part, _, spelled⟩ := own i x item
      exact (element.spelled_iff x).mp ⟨part, spelled⟩
    · rintro ⟨counted, each⟩
      obtain ⟨parts, done⟩ := Attempt.ok_of_each (fun x => a.element.encode books (value x)) xs fun x member =>
        (element.spelled_iff x).mpr (each x member)
      rw [Attempt.map_ok_iff] at done
      refine ⟨parts.flatten, (a.encode_ok_iff books _ _).mpr ⟨by simpa using counted, parts, ?_, rfl⟩⟩
      rwa [List.map_map]
  · intro xs bytes done
    obtain ⟨counted, parts, each, joined⟩ := (a.encode_ok_iff books _ bytes).mp done
    obtain ⟨length, widths, _⟩ := a.encoded_parts books value fits raw element xs parts each
    have constant : parts.map List.length = List.replicate parts.length a.element.nbytes := by
      rw [List.eq_replicate_iff]
      simpa using widths
    rw [List.length_map] at counted
    rw [joined, List.length_flatten, constant, length, counted]
    simp [extent]
  · intro xs bytes done behind
    have counted := ((a.encode_ok_iff books _ bytes).mp done).1
    rw [List.length_map] at counted
    have whole := a.decode_range_encoded books value fits raw element xs bytes behind 0 a.count done (Nat.zero_le _)
      (Nat.le_refl _)
    rwa [List.drop_zero, Nat.sub_zero, ← counted, List.take_length, counted] at whole
  · intro bytes length
    have long := Nat.le_of_eq length.symm
    have each := fun i (inside : i < a.count) => element.read (a.part bytes i) (a.length_part bytes i inside long)
    choose own decoded encoded using each
    have items : ∀ i x, (List.ofFn fun i : Fin a.count => own i i.2)[i]? = some x →
        ∃ inside : i < a.count, own i inside = x := by
      intro i x item
      simpa [List.getElem?_ofFn] using item
    refine ⟨List.ofFn fun i : Fin a.count => own i i.2, ?_, ?_⟩
    · refine (a.decode_ok_iff books bytes raw _).mpr ⟨by simp, ?_⟩
      intro i v item
      rw [List.getElem?_map] at item
      obtain ⟨x, found, rfl⟩ := Option.map_eq_some_iff.mp item
      obtain ⟨inside, rfl⟩ := items i x found
      rw [a.decode_element_part books bytes i raw inside (a.length_part bytes i inside long)]
      exact decoded i inside
    · refine (a.encode_ok_iff books _ bytes).mpr ⟨by simp, (List.range a.count).map (a.part bytes), ?_, ?_⟩
      · apply List.ext_getElem (by simp)
        intro i _ _
        simp [List.getElem_ofFn, encoded]
      · rw [← List.flatMap_def, a.parts_joined, ← extent, ← length, List.take_length]

end Elements

end ArrayType

namespace IntType

theorem ints_exact (t : IntType) :
    Exact Value.int (fun n => t.least ≤ n ∧ n ≤ t.greatest) t.nbytes (Primitive.int t).encode
      (Primitive.int t).decode := by
  refine ⟨?_, t.length_encode, ?_, ?_⟩
  · intro n
    rw [← t.holds_iff]
    constructor
    · rintro ⟨bytes, done⟩
      exact (t.encode_ok n bytes done).1
    · intro held
      exact ⟨_, t.encode_of_holds n held⟩
  · intro n bytes done behind
    have width := t.length_encode n bytes done
    rw [t.decode_primitive _ (by rw [List.length_append]; omega), ← width, List.take_left]
    exact congrArg (fun m => Except.ok (Value.int m)) (t.decode_encode n bytes done)
  · intro bytes whole
    refine ⟨t.decode bytes, ?_, t.encode_decode bytes whole⟩
    rw [t.decode_primitive bytes (Nat.le_of_eq whole.symm), ← whole, List.take_length]

theorem encode_lsb (signed : Bool) (size : WordSize) (n : Int) :
    encode ⟨signed, .word .lsb size⟩ n = (encode ⟨signed, .word .msb size⟩ n).map List.reverse := by
  by_cases held : holds ⟨signed, .word .msb size⟩ n = true
  · have same : holds ⟨signed, .word .lsb size⟩ n = true := held
    rw [encode_of_holds _ n held, encode_of_holds _ n same]
    simp only [order, ByteOrder.spell, Bytes.big, Except.map, List.reverse_reverse]
    rfl
  · have same : ¬ holds ⟨signed, .word .lsb size⟩ n = true := held
    rw [encode, encode, if_neg held, if_neg same]
    rfl

end IntType

-- Integers in bytes, alone and in lists of a set length. The elements of a list stand one after the other.
theorem integers_spelled_exactly (books : Books) (t : IntType) (raw : Bool) :
    Exact Value.int (fun n => t.least ≤ n ∧ n ≤ t.greatest) t.nbytes (Primitive.int t).encode
      (Primitive.int t).decode ∧
    (∀ size n, (Primitive.int ⟨t.signed, .word .lsb size⟩).encode (.int n) =
      ((Primitive.int ⟨t.signed, .word .msb size⟩).encode (.int n)).map List.reverse) ∧
    ∀ count, let a : ArrayType := ⟨.primitive (.int t), count⟩
      Exact (fun ns : List Int => .list (ns.map .int))
        (fun ns => ns.length = count ∧ ∀ n ∈ ns, t.least ≤ n ∧ n ≤ t.greatest)
        (count * t.nbytes) (a.encode books) (fun bytes => a.decode books bytes raw) ∧
      ∀ (ns : List Int) (bytes : Bytes), a.encode books (.list (ns.map .int)) = .ok bytes →
        (∃ parts : List Bytes,
          ns.map (fun n => (Primitive.int t).encode (.int n)) = parts.map .ok ∧ bytes = parts.flatten) ∧
        ∀ behind,
          (∀ i n, ns[i]? = some n → a.decodeElement books (bytes ++ behind) i raw = .ok (.int n)) ∧
          ∀ start stop, start ≤ stop → stop ≤ count →
            a.decodeRange books (bytes ++ behind) start stop raw =
              .ok (.list (((ns.drop start).take (stop - start)).map .int)) := by
  refine ⟨t.ints_exact, IntType.encode_lsb t.signed, ?_⟩
  intro count a
  refine ⟨a.lists_exact books _ _ raw t.ints_exact, ?_⟩
  intro ns bytes done
  obtain ⟨_, parts, each, joined⟩ := (a.encode_ok_iff books _ bytes).mp done
  rw [List.map_map] at each
  refine ⟨⟨parts, each, joined⟩, ?_⟩
  intro behind
  constructor
  · intro i n item
    exact a.decode_element_encoded books _ _ raw t.ints_exact ns bytes behind i n done item
  · intro start stop ordered inside
    exact a.decode_range_encoded books _ _ raw t.ints_exact ns bytes behind start stop done ordered inside

theorem shorts_spelled_exactly :
    let a : ArrayType := ⟨.primitive (.int ⟨true, .word .lsb .two⟩), 2⟩
    a.encode .none (.list [.int (-2), .int 258]) = .ok [0xfe, 0xff, 2, 1] ∧
    a.decodeRange .none [0xfe, 0xff, 2, 1, 9] 1 2 false = .ok (.list [.int 258]) := by
  intro a
  have spelled : a.encode .none (.list ([-2, 258].map .int)) = .ok [0xfe, 0xff, 2, 1] := rfl
  have lists := (integers_spelled_exactly .none ⟨true, .word .lsb .two⟩ false).2.2 2
  exact ⟨spelled, ((lists.2 [-2, 258] _ spelled).2 [9]).2 1 2 (by decide) (by decide)⟩

end SpaceLink
