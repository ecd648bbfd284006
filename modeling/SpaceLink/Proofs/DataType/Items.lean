import SpaceLink.Proofs.DataType.Elements

/-!
Arrays of integers in bytes. The items that are read have the bytes that they were read from.
-/

set_option autoImplicit false

namespace SpaceLink.ArrayType

variable (books : Books) (a : ArrayType) (t : IntType) (element : a.element = .primitive (.int t))

include element in
theorem ints_exact (raw : Bool) : Exact Value.int (fun n => t.least ≤ n ∧ n ≤ t.greatest) a.element.nbytes
    (a.element.encode books) fun bytes => a.element.decode books bytes raw := by
  rw [element]
  exact t.ints_exact

include element in
theorem decode_back (bytes : Bytes) (raw : Bool) (long : a.extent ≤ bytes.length) :
    ∃ numbers : List Int, numbers.length = a.count ∧ (∀ n ∈ numbers, t.holds n = true) ∧
      a.decode books bytes raw = .ok (.list (numbers.map .int)) ∧
      a.encode books (.list (numbers.map .int)) = .ok (bytes.take a.extent) := by
  have lists := a.lists_exact books Value.int _ raw (a.ints_exact books t element raw)
  obtain ⟨numbers, _, encoded⟩ := lists.read (bytes.take a.extent) (List.length_take_of_le long)
  obtain ⟨length, held⟩ := (lists.spelled_iff numbers).mp ⟨_, encoded⟩
  refine ⟨numbers, length, fun n member => (t.holds_iff n).mpr (held n member), ?_, encoded⟩
  have back := lists.back numbers _ encoded (bytes.drop a.extent)
  rwa [List.take_append_drop] at back

section SingleBytes

variable (single : t.nbytes = 1)

include element single in
theorem bytes_back (raw : Bool) (bytes : Bytes) (whole : bytes.length = a.count) :
    a.decode books bytes raw = .ok (.list (bytes.map fun b => .int (t.decode [b]))) ∧
      a.encode books (.list (bytes.map fun b => .int (t.decode [b]))) = .ok bytes := by
  have width : a.element.nbytes = 1 := by
    rw [element]
    exact single
  have spelled : ∀ b : UInt8, a.element.encode books (.int (t.decode [b])) = .ok [b] := by
    intro b
    rw [element]
    exact t.encode_decode [b] single.symm
  have encoded : a.encode books (.list (bytes.map fun b => .int (t.decode [b]))) = .ok bytes := by
    refine (a.encode_ok_iff books _ bytes).mpr ⟨by rw [List.length_map, whole], bytes.map ([·]), ?_, ?_⟩
    · simp [spelled]
    · rw [← List.flatMap_def, List.flatMap_singleton']
  have lists := a.lists_exact books Value.int _ raw (a.ints_exact books t element raw)
  refine ⟨?_, encoded⟩
  have back := lists.back (bytes.map fun b => t.decode [b]) bytes (by rw [List.map_map]; exact encoded) []
  rw [List.map_map, List.append_nil] at back
  exact back

end SingleBytes

end SpaceLink.ArrayType
