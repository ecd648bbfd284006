import Mathlib.Data.List.Induction
import SpaceLink.Proofs.DataType.Text

/-!
Texts that a type has no room for. They are cut behind a number of bytes, and what is read back is a start of the text
unless the cut goes through a character: the bytes that are left of it are read as the replacement character.
-/

set_option autoImplicit false

namespace SpaceLink

namespace Utf8

def bytesOf (chars : List Char) : Bytes := chars.flatMap String.utf8EncodeChar

theorem bytes_of_cons (c : Char) (chars : List Char) :
    bytesOf (c :: chars) = String.utf8EncodeChar c ++ bytesOf chars := rfl

theorem bytes_of_append (front rest : List Char) : bytesOf (front ++ rest) = bytesOf front ++ bytesOf rest :=
  List.flatMap_append

theorem decode_over (front : List Char) (rest : Bytes) :
    decodeChars (bytesOf front ++ rest) = front ++ decodeChars rest := by
  induction front with
  | nil => rfl
  | cons c front ih =>
      rw [bytes_of_cons, List.append_assoc, decode_encode_char, ih, List.cons_append]

section Starts

variable (lead b c : UInt8)

theorem decode_lead (least : 0x80 ≤ lead.toNat) : decodeChars [lead] = [replacement] := by
  rw [decodeChars.eq_def]
  simp only [if_neg (not_one lead least), decodeChars, ite_self]

theorem decode_lead_three (least : 0xe0 ≤ lead.toNat) (greatest : lead.toNat ≤ 0xef) (followed : second lead b = true) :
    decodeChars [lead, b] = [replacement] := by
  have first := not_one lead (Nat.le_trans (by decide) least)
  rw [decodeChars.eq_def]
  simp only [if_neg first, if_neg (not_two lead least), if_pos (leads_three lead least greatest), if_pos followed]

theorem decode_lead_four (least : 0xf0 ≤ lead.toNat) (greatest : lead.toNat ≤ 0xf4) (followed : second lead b = true)
    (following : continues c = true) : decodeChars [lead, b] = [replacement] ∧ decodeChars [lead, b, c] = [replacement] := by
  have first := not_one lead (Nat.le_trans (by decide) least)
  have notTwo := not_two lead (Nat.le_trans (by decide) least)
  constructor
  all_goals
    rw [decodeChars.eq_def]
    simp only [if_neg first, if_neg notTwo, if_neg (not_three lead least), if_pos (leads_four lead least greatest),
      if_pos followed, if_pos following]

end Starts

theorem byte_ne_zero (n : Nat) (positive : 0 < n) (small : n < 256) : UInt8.ofNat n ≠ 0 := by
  intro zero
  have byte := congrArg UInt8.toNat zero
  rw [to_nat_byte n small] at byte
  exact Nat.ne_of_gt positive byte

-- Of a character in several bytes, some of them but not all.
theorem decode_part (c : Char) (count : Nat) (some : 0 < count) (short : count < (String.utf8EncodeChar c).length) :
    decodeChars ((String.utf8EncodeChar c).take count) = [replacement] ∧
      ∀ b ∈ (String.utf8EncodeChar c).take count, b ≠ 0 := by
  obtain ⟨v, same⟩ : ∃ v, c.val.toNat = v := ⟨_, rfl⟩
  have valid : v < 0xd800 ∨ 0xdfff < v ∧ v < 0x110000 := same ▸ c.valid
  simp only [String.utf8EncodeChar, same] at short ⊢
  have middle := to_nat_byte (v / 64 % 64 + 0x80) (by omega)
  have middleFilled := byte_ne_zero (v / 64 % 64 + 0x80) (by omega) (by omega)
  by_cases one : v ≤ 0x7f
  · rw [if_pos one, List.length_singleton] at short
    omega
  by_cases two : v ≤ 0x7ff
  · have lead := to_nat_byte (v / 64 % 32 + 0xc0) (by omega)
    have leadFilled := byte_ne_zero (v / 64 % 32 + 0xc0) (by omega) (by omega)
    rw [if_neg one, if_pos two] at short ⊢
    obtain rfl : count = 1 := Nat.le_antisymm (Nat.le_of_lt_succ short) some
    exact ⟨decode_lead _ (by omega), List.forall_mem_singleton.mpr leadFilled⟩
  by_cases three : v ≤ 0xffff
  · have lead := to_nat_byte (v / 4096 % 16 + 0xe0) (by omega)
    have leadFilled := byte_ne_zero (v / 4096 % 16 + 0xe0) (by omega) (by omega)
    rw [if_neg one, if_neg two, if_pos three] at short ⊢
    have parts : count = 1 ∨ count = 2 := by
      simp only [List.length_cons, List.length_nil] at short
      omega
    rcases parts with rfl | rfl
    · exact ⟨decode_lead _ (by omega), List.forall_mem_singleton.mpr leadFilled⟩
    · exact ⟨decode_lead_three _ _ (by omega) (by omega)
        (second_of_bounds _ _ (by omega) (by omega) (by omega) (by omega) (by omega) (by omega)),
        List.forall_mem_cons.mpr ⟨leadFilled, List.forall_mem_singleton.mpr middleFilled⟩⟩
  · have lead := to_nat_byte (v / 262144 % 8 + 0xf0) (by omega)
    have leadFilled := byte_ne_zero (v / 262144 % 8 + 0xf0) (by omega) (by omega)
    have upper := to_nat_byte (v / 4096 % 64 + 0x80) (by omega)
    have upperFilled := byte_ne_zero (v / 4096 % 64 + 0x80) (by omega) (by omega)
    rw [if_neg one, if_neg two, if_neg three] at short ⊢
    have parts : count = 1 ∨ count = 2 ∨ count = 3 := by
      simp only [List.length_cons, List.length_nil] at short
      omega
    have started := decode_lead_four _ _ _ (by omega) (by omega)
      (second_of_bounds (UInt8.ofNat (v / 262144 % 8 + 0xf0)) (UInt8.ofNat (v / 4096 % 64 + 0x80))
        (by omega) (by omega) (by omega) (by omega) (by omega) (by omega))
      ((continues_iff (UInt8.ofNat (v / 64 % 64 + 0x80))).mpr (by omega))
    rcases parts with rfl | rfl | rfl
    · exact ⟨decode_lead _ (by omega), List.forall_mem_singleton.mpr leadFilled⟩
    · exact ⟨started.1, List.forall_mem_cons.mpr ⟨leadFilled, List.forall_mem_singleton.mpr upperFilled⟩⟩
    · exact ⟨started.2, List.forall_mem_cons.mpr ⟨leadFilled,
        List.forall_mem_cons.mpr ⟨upperFilled, List.forall_mem_singleton.mpr middleFilled⟩⟩⟩

theorem utf8_bytes (bytes : Bytes) (valid : bytes.toByteArray.IsValidUTF8) : ∃ chars, bytes = bytesOf chars := by
  obtain ⟨chars, spelled⟩ := valid
  have same := congrArg ByteArray.data spelled
  rw [List.utf8Encode, List.data_toByteArray, List.data_toByteArray] at same
  exact ⟨chars, congrArg Array.toList same⟩

-- The first `size` bytes of the text end in the middle of the character behind `front`.
def Parted (size : Nat) (s : String) (front : List Char) (c : Char) : Prop :=
  ∃ rest, s.toList = front ++ c :: rest ∧ (bytesOf front).length < size ∧
    size < (bytesOf front).length + (String.utf8EncodeChar c).length

theorem take_part (size : Nat) (front rest : List Char) (c : Char) (least : (bytesOf front).length ≤ size)
    (short : size ≤ (bytesOf front).length + (String.utf8EncodeChar c).length) :
    (bytesOf (front ++ c :: rest)).take size =
      bytesOf front ++ (String.utf8EncodeChar c).take (size - (bytesOf front).length) := by
  rw [bytes_of_append, List.take_append, List.take_of_length_le least, bytes_of_cons,
    List.take_append_of_le_length (by omega)]

-- Characters are taken whole, one after the other, until the next has no room.
theorem cut_cases (size : Nat) (chars : List Char) :
    (∃ front, front <+: chars ∧ (bytesOf chars).take size = bytesOf front) ∨
      ∃ front c rest, chars = front ++ c :: rest ∧ (bytesOf front).length < size ∧
        size < (bytesOf front).length + (String.utf8EncodeChar c).length := by
  induction chars generalizing size with
  | nil => exact .inl ⟨[], List.prefix_rfl, List.take_nil⟩
  | cons c chars ih =>
      by_cases none : size = 0
      · exact .inl ⟨[], List.nil_prefix, by rw [none, List.take_zero]; rfl⟩
      by_cases short : size < (String.utf8EncodeChar c).length
      · exact .inr ⟨[], c, chars, rfl, Nat.pos_of_ne_zero none, by rwa [bytesOf, List.flatMap_nil,
          List.length_nil, Nat.zero_add]⟩
      have whole : (bytesOf (c :: chars)).take size =
          String.utf8EncodeChar c ++ (bytesOf chars).take (size - (String.utf8EncodeChar c).length) := by
        rw [bytes_of_cons, List.take_append, List.take_of_length_le (Nat.le_of_not_lt short)]
      rcases ih (size - (String.utf8EncodeChar c).length) with ⟨front, starts, cut⟩ | ⟨front, d, rest, split, low, high⟩
      · refine .inl ⟨c :: front, List.cons_prefix_cons.mpr ⟨rfl, starts⟩, ?_⟩
        rw [whole, cut, bytes_of_cons]
      · have count : (bytesOf (c :: front)).length = (String.utf8EncodeChar c).length + (bytesOf front).length := by
          rw [bytes_of_cons, List.length_append]
        exact .inr ⟨c :: front, d, rest, by rw [split]; rfl, by omega, by omega⟩

-- Zeros at the end are whole characters.
theorem trim_chars (chars : List Char) : ∃ kept, kept <+: chars ∧ Bytes.trimZeros (bytesOf chars) = bytesOf kept := by
  induction chars using List.reverseRecOn with
  | nil => exact ⟨[], List.prefix_rfl, rfl⟩
  | append_singleton front c ih =>
      have split : bytesOf (front ++ [c]) = bytesOf front ++ String.utf8EncodeChar c := by
        rw [bytes_of_append, bytes_of_cons, bytesOf, bytesOf, List.flatMap_nil, List.append_nil]
      by_cases zero : (String.utf8EncodeChar c).getLast? = some 0
      · obtain ⟨kept, starts, trimmed⟩ := ih
        refine ⟨kept, starts.trans (List.prefix_append _ _), ?_⟩
        rw [split, char_ends_in_zero c zero, ← trimmed]
        exact Bytes.trim_filled (bytesOf front) 1
      · refine ⟨front ++ [c], List.prefix_rfl, Bytes.trim_of_last _ fun ends => zero ?_⟩
        rw [split, List.getLast?_append, List.getLast?_eq_some_getLast String.utf8EncodeChar_ne_nil, Option.some_or,
          ← List.getLast?_eq_some_getLast String.utf8EncodeChar_ne_nil] at ends
        exact ends

end Utf8

namespace TextType

theorem decode_encode_cut (t : TextType) (s : String) :
    decode (t.encode s) = Utf8.decode (Bytes.trimZeros ((Utf8.bytesOf s.toList).take t.size)) := by
  rw [decode, encode, Bytes.fit, Bytes.trim_filled]
  rfl

theorem decode_whole (t : TextType) (s : String) (front : List Char) (starts : front <+: s.toList)
    (cut : (Utf8.bytesOf s.toList).take t.size = Utf8.bytesOf front) : (decode (t.encode s)).toList <+: s.toList := by
  obtain ⟨kept, inside, trimmed⟩ := Utf8.trim_chars front
  rw [decode_encode_cut, cut, trimmed, Utf8.decode, String.toList_ofList, Utf8.bytesOf, Utf8.decode_chars_encode]
  exact inside.trans starts

theorem decode_parted (t : TextType) (s : String) (front : List Char) (c : Char) (parted : Utf8.Parted t.size s front c) :
    (decode (t.encode s)).toList = front ++ [Utf8.replacement] := by
  obtain ⟨rest, split, least, short⟩ := parted
  obtain ⟨lost, filled⟩ := Utf8.decode_part c (t.size - (Utf8.bytesOf front).length) (by omega) (by omega)
  have cut := Utf8.take_part t.size front rest c (Nat.le_of_lt least) (Nat.le_of_lt short)
  have ends : (Utf8.bytesOf front ++
      (String.utf8EncodeChar c).take (t.size - (Utf8.bytesOf front).length)).getLast? ≠ some 0 := by
    intro zero
    rw [List.getLast?_append, Option.or_eq_some_iff] at zero
    rcases zero with inside | ⟨empty, -⟩
    · exact filled 0 (List.mem_of_getLast? inside) rfl
    · rw [List.getLast?_eq_none_iff.mp empty] at lost
      cases lost
  rw [decode_encode_cut, split, cut, Bytes.trim_of_last _ ends, Utf8.decode, String.toList_ofList, Utf8.decode_over, lost]

theorem cut_prefix_iff (t : TextType) (s : String) :
    (decode (t.encode s)).toList <+: s.toList ↔
      ∀ front c, Utf8.Parted t.size s front c → c = Utf8.replacement := by
  constructor
  · intro starts front c parted
    rw [decode_parted t s front c parted] at starts
    obtain ⟨rest, split, -, -⟩ := parted
    rw [split, List.prefix_append_right_inj, List.cons_prefix_cons] at starts
    exact starts.1.symm
  · intro replaced
    rcases Utf8.cut_cases t.size s.toList with ⟨front, starts, cut⟩ | ⟨front, c, rest, split, least, short⟩
    · exact decode_whole t s front starts cut
    · have parted : Utf8.Parted t.size s front c := ⟨rest, split, least, short⟩
      rw [decode_parted t s front c parted, split, replaced front c parted]
      exact List.prefix_append_right_inj front |>.mpr (List.cons_prefix_cons.mpr ⟨rfl, List.nil_prefix⟩)

theorem encode_decode (t : TextType) (bytes : Bytes) (whole : bytes.length = t.size)
    (valid : bytes.toByteArray.IsValidUTF8) : t.encode (decode bytes) = bytes := by
  obtain ⟨chars, spelled⟩ := Utf8.utf8_bytes bytes valid
  obtain ⟨kept, -, trimmed⟩ := Utf8.trim_chars chars
  obtain ⟨short, filled⟩ := Bytes.trim_fill bytes
  rw [← spelled] at trimmed
  have text : Utf8.encode (decode bytes) = Bytes.trimZeros bytes := by
    rw [decode, trimmed, Utf8.decode, Utf8.bytesOf, Utf8.decode_chars_encode, Utf8.encode, String.toList_ofList]
  rw [encode, text, Bytes.fit, ← whole, List.take_of_length_le short, filled]

theorem cut_text_read (t : TextType) :
    (∀ s, ∃ bytes back, (Primitive.text t).encode (.str s) = .ok bytes ∧ bytes.length = t.size ∧
      (Primitive.text t).decode bytes = .ok (.str back) ∧
      (Utf8.length s ≤ t.size → s.toList.getLast? ≠ some (Char.ofNat 0) → back = s) ∧
      (∀ front c, Utf8.Parted t.size s front c → back.toList = front ++ [Utf8.replacement]) ∧
      (back.toList <+: s.toList ↔ ∀ front c, Utf8.Parted t.size s front c → c = Utf8.replacement)) ∧
    ∀ bytes : Bytes, bytes.length = t.size → bytes.toByteArray.IsValidUTF8 →
      ∃ s, (Primitive.text t).decode bytes = .ok (.str s) ∧ (Primitive.text t).encode (.str s) = .ok bytes := by
  have read : ∀ bytes : Bytes, bytes.length = t.size → (Primitive.text t).decode bytes = .ok (.str (decode bytes)) := by
    intro bytes whole
    have own : bytes.take t.size = bytes := List.take_of_length_le (Nat.le_of_eq whole)
    simp only [Primitive.decode, Primitive.nbytes, own]
    rw [if_neg (Nat.not_lt.mpr (Nat.le_of_eq whole.symm))]
  constructor
  · intro s
    exact ⟨t.encode s, decode (t.encode s), rfl, length_encode t s, read _ (length_encode t s), decode_encode t s,
      decode_parted t s, cut_prefix_iff t s⟩
  · intro bytes whole valid
    exact ⟨decode bytes, read bytes whole, congrArg Except.ok (encode_decode t bytes whole valid)⟩

-- Four bytes end in the middle of the last character.
theorem accent_replaced :
    (Primitive.text ⟨"4", 4⟩).encode (.str "caf\u00e9") = .ok [0x63, 0x61, 0x66, 0xc3] ∧
      (Primitive.text ⟨"4", 4⟩).decode [0x63, 0x61, 0x66, 0xc3] = .ok (.str "caf\ufffd") ∧
      ¬ "caf\ufffd".toList <+: "caf\u00e9".toList := by
  refine ⟨rfl, rfl, ?_⟩
  decide

end TextType

end SpaceLink
