import SpaceLink.Text.Utf8

/-!
The bytes of a text are read back as the text. Each character is read from its own bytes, and what
stands behind them is left for the next.
-/

set_option autoImplicit false

namespace SpaceLink.Utf8

theorem continues_iff (b : UInt8) : continues b = true ↔ 0x80 ≤ b.toNat ∧ b.toNat ≤ 0xbf := by
  simp [continues, UInt8.le_iff_toNat_le]

-- The second byte of three or four is in a smaller range after four of the leads.
theorem second_of_bounds (lead b : UInt8) (low : 0x80 ≤ b.toNat) (high : b.toNat ≤ 0xbf)
    (longEnough : lead.toNat = 0xe0 → 0xa0 ≤ b.toNat) (fourEnough : lead.toNat = 0xf0 → 0x90 ≤ b.toNat)
    (noSurrogate : lead.toNat = 0xed → b.toNat ≤ 0x9f) (inRange : lead.toNat = 0xf4 → b.toNat ≤ 0x8f) :
    second lead b = true := by
  simp only [second, Bool.and_eq_true, decide_eq_true_eq, UInt8.le_iff_toNat_le, ← UInt8.toNat_inj]
  constructor
  · by_cases three : lead.toNat = (0xe0 : UInt8).toNat
    · rw [if_pos three]
      exact longEnough three
    · by_cases four : lead.toNat = (0xf0 : UInt8).toNat
      · rw [if_neg three, if_pos four]
        exact fourEnough four
      · rw [if_neg three, if_neg four]
        exact low
  · by_cases three : lead.toNat = (0xed : UInt8).toNat
    · rw [if_pos three]
      exact noSurrogate three
    · by_cases four : lead.toNat = (0xf4 : UInt8).toNat
      · rw [if_neg three, if_pos four]
        exact inRange four
      · rw [if_neg three, if_neg four]
        exact high

section Leads

variable (lead : UInt8)

theorem not_one (least : 0x80 ≤ lead.toNat) : ¬ lead < 0x80 := by
  rw [UInt8.lt_iff_toNat_lt]
  exact Nat.not_lt.mpr least

theorem leads_two (least : 0xc2 ≤ lead.toNat) (greatest : lead.toNat ≤ 0xdf) :
    (0xc2 ≤ lead && lead ≤ 0xdf) = true := by
  simp only [Bool.and_eq_true, decide_eq_true_eq, UInt8.le_iff_toNat_le]
  exact ⟨least, greatest⟩

theorem not_two (least : 0xe0 ≤ lead.toNat) : ¬ (0xc2 ≤ lead && lead ≤ 0xdf) = true := by
  simp only [Bool.and_eq_true, decide_eq_true_eq, UInt8.le_iff_toNat_le, not_and, Nat.not_le]
  exact fun _ => Nat.lt_of_lt_of_le (by decide) least

theorem leads_three (least : 0xe0 ≤ lead.toNat) (greatest : lead.toNat ≤ 0xef) :
    (0xe0 ≤ lead && lead ≤ 0xef) = true := by
  simp only [Bool.and_eq_true, decide_eq_true_eq, UInt8.le_iff_toNat_le]
  exact ⟨least, greatest⟩

theorem not_three (least : 0xf0 ≤ lead.toNat) : ¬ (0xe0 ≤ lead && lead ≤ 0xef) = true := by
  simp only [Bool.and_eq_true, decide_eq_true_eq, UInt8.le_iff_toNat_le, not_and, Nat.not_le]
  exact fun _ => Nat.lt_of_lt_of_le (by decide) least

theorem leads_four (least : 0xf0 ≤ lead.toNat) (greatest : lead.toNat ≤ 0xf4) :
    (0xf0 ≤ lead && lead ≤ 0xf4) = true := by
  simp only [Bool.and_eq_true, decide_eq_true_eq, UInt8.le_iff_toNat_le]
  exact ⟨least, greatest⟩

end Leads

section Sequences

variable (rest : Bytes) (lead b c d : UInt8)

theorem decode_one (ascii : lead.toNat < 0x80) :
    decodeChars (lead :: rest) = Char.ofNat lead.toNat :: decodeChars rest := by
  have first : lead < 0x80 := UInt8.lt_iff_toNat_lt.mpr ascii
  rw [decodeChars.eq_def]
  simp only [if_pos first]

theorem decode_two (least : 0xc2 ≤ lead.toNat) (greatest : lead.toNat ≤ 0xdf) (following : continues b = true) :
    decodeChars (lead :: b :: rest) = Char.ofNat (lead.toNat % 32 * 64 + tail b) :: decodeChars rest := by
  have first := not_one lead (Nat.le_trans (by decide) least)
  rw [decodeChars.eq_def]
  simp only [if_neg first, if_pos (leads_two lead least greatest), if_pos following]

theorem decode_three (least : 0xe0 ≤ lead.toNat) (greatest : lead.toNat ≤ 0xef) (followed : second lead b = true)
    (following : continues c = true) :
    decodeChars (lead :: b :: c :: rest) =
      Char.ofNat ((lead.toNat % 16 * 64 + tail b) * 64 + tail c) :: decodeChars rest := by
  have first := not_one lead (Nat.le_trans (by decide) least)
  rw [decodeChars.eq_def]
  simp only [if_neg first, if_neg (not_two lead least), if_pos (leads_three lead least greatest), if_pos followed,
    if_pos following]

theorem decode_four (least : 0xf0 ≤ lead.toNat) (greatest : lead.toNat ≤ 0xf4) (followed : second lead b = true)
    (followingC : continues c = true) (followingD : continues d = true) :
    decodeChars (lead :: b :: c :: d :: rest) =
      Char.ofNat (((lead.toNat % 8 * 64 + tail b) * 64 + tail c) * 64 + tail d) :: decodeChars rest := by
  have first := not_one lead (Nat.le_trans (by decide) least)
  have notTwo := not_two lead (Nat.le_trans (by decide) least)
  rw [decodeChars.eq_def]
  simp only [if_neg first, if_neg notTwo, if_neg (not_three lead least), if_pos (leads_four lead least greatest),
    if_pos followed, if_pos followingC, if_pos followingD]

end Sequences

theorem to_nat_byte (n : Nat) (small : n < 256) : (UInt8.ofNat n).toNat = n := by
  rw [UInt8.toNat_ofNat', Nat.mod_eq_of_lt small]

theorem decode_encode_char (rest : Bytes) (c : Char) : decodeChars (String.utf8EncodeChar c ++ rest) = c :: decodeChars rest := by
  obtain ⟨v, same⟩ : ∃ v, c.val.toNat = v := ⟨_, rfl⟩
  have valid : v < 0xd800 ∨ 0xdfff < v ∧ v < 0x110000 := same ▸ c.valid
  have whole : Char.ofNat v = c := same ▸ Char.ofNat_toNat c
  simp only [String.utf8EncodeChar, same]
  have last := to_nat_byte (v % 64 + 0x80) (by omega)
  have middle := to_nat_byte (v / 64 % 64 + 0x80) (by omega)
  by_cases one : v ≤ 0x7f
  · have lead := to_nat_byte v (by omega)
    rw [if_pos one]
    rw [List.cons_append, List.nil_append, decode_one rest _ (by omega), lead, whole]
  by_cases two : v ≤ 0x7ff
  · have lead := to_nat_byte (v / 64 % 32 + 0xc0) (by omega)
    rw [if_neg one, if_pos two]
    rw [List.cons_append, List.cons_append, List.nil_append,
      decode_two rest _ _ (by omega) (by omega) ((continues_iff _).mpr (by omega)), tail, lead, last,
      show (v / 64 % 32 + 0xc0) % 32 * 64 + (v % 64 + 0x80) % 64 = v by omega, whole]
  by_cases three : v ≤ 0xffff
  · have lead := to_nat_byte (v / 4096 % 16 + 0xe0) (by omega)
    rw [if_neg one, if_neg two, if_pos three]
    rw [List.cons_append, List.cons_append, List.cons_append, List.nil_append,
      decode_three rest _ _ _ (by omega) (by omega)
      (second_of_bounds _ _ (by omega) (by omega) (by omega) (by omega) (by omega) (by omega))
      ((continues_iff _).mpr (by omega)), tail, tail, lead, middle, last,
      show ((v / 4096 % 16 + 0xe0) % 16 * 64 + (v / 64 % 64 + 0x80) % 64) * 64 + (v % 64 + 0x80) % 64 = v by omega, whole]
  · have lead := to_nat_byte (v / 262144 % 8 + 0xf0) (by omega)
    have upper := to_nat_byte (v / 4096 % 64 + 0x80) (by omega)
    rw [if_neg one, if_neg two, if_neg three]
    rw [List.cons_append, List.cons_append, List.cons_append, List.cons_append, List.nil_append,
      decode_four rest _ _ _ _ (by omega) (by omega)
      (second_of_bounds _ _ (by omega) (by omega) (by omega) (by omega) (by omega) (by omega))
      ((continues_iff _).mpr (by omega)) ((continues_iff _).mpr (by omega)), tail, tail, tail, lead, upper, middle, last,
      show (((v / 262144 % 8 + 0xf0) % 8 * 64 + (v / 4096 % 64 + 0x80) % 64) * 64 + (v / 64 % 64 + 0x80) % 64) * 64 +
        (v % 64 + 0x80) % 64 = v by omega, whole]

theorem decode_chars_encode (chars : List Char) : decodeChars (chars.flatMap String.utf8EncodeChar) = chars := by
  induction chars with
  | nil => rfl
  | cons c rest ih => rw [List.flatMap_cons, decode_encode_char, ih]

theorem decode_encode (s : String) : decode (encode s) = s := by
  rw [decode, encode, decode_chars_encode, String.ofList_toList]

theorem length_encode (s : String) : (encode s).length = length s := by
  have spelled : s.utf8ByteSize = (s.toList.flatMap String.utf8EncodeChar).toByteArray.size := by
    conv => lhs; rw [← String.ofList_toList (s := s)]
    rfl
  rw [length, spelled, encode, List.size_toByteArray]

-- No character but the one numbered zero ends in a zero byte.
theorem char_ends_in_zero (c : Char) (zero : (String.utf8EncodeChar c).getLast? = some 0) : c = Char.ofNat 0 := by
  obtain ⟨v, same⟩ : ∃ v, c.val.toNat = v := ⟨_, rfl⟩
  have whole : Char.ofNat v = c := same ▸ Char.ofNat_toNat c
  have last := to_nat_byte (v % 64 + 0x80) (by omega)
  simp only [String.utf8EncodeChar, same] at zero
  by_cases one : v ≤ 0x7f
  · have lead := to_nat_byte v (by omega)
    rw [if_pos one] at zero
    have byte : (UInt8.ofNat v).toNat = 0 := congrArg UInt8.toNat (Option.some.inj zero)
    rw [lead] at byte
    rw [← whole, byte]
  · have byte : UInt8.ofNat (v % 64 + 0x80) = 0 := by
      by_cases two : v ≤ 0x7ff
      · rw [if_neg one, if_pos two] at zero
        exact Option.some.inj zero
      · by_cases three : v ≤ 0xffff
        · rw [if_neg one, if_neg two, if_pos three] at zero
          exact Option.some.inj zero
        · rw [if_neg one, if_neg two, if_neg three] at zero
          exact Option.some.inj zero
    rw [byte] at last
    change 0 = v % 64 + 0x80 at last
    omega

theorem text_ends_in_zero (s : String) (zero : (encode s).getLast? = some 0) :
    s.toList.getLast? = some (Char.ofNat 0) := by
  simp only [encode] at zero
  rcases List.eq_nil_or_concat s.toList with empty | ⟨front, c, split⟩
  · rw [empty] at zero
    cases zero
  · rw [List.concat_eq_append] at split
    rw [split, List.flatMap_append, List.flatMap_singleton, List.getLast?_append] at zero
    rw [List.getLast?_eq_some_getLast String.utf8EncodeChar_ne_nil, Option.some_or,
      ← List.getLast?_eq_some_getLast String.utf8EncodeChar_ne_nil] at zero
    rw [split, List.getLast?_concat, char_ends_in_zero c zero]

end SpaceLink.Utf8
