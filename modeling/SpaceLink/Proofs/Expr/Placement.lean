import SpaceLink.Expr.Lexer

/-!
Where the tokens of a source stand. The lexer places every token at the byte at which it finds it, and closes the
list with a token of its own behind the last byte.
-/

set_option autoImplicit false

namespace SpaceLink.Lexer

-- The number of bytes in front of a token, and what makes it the token there. Only the last has no character.
def Stands (text : List Char) (start : Nat) (t : Placed) : Prop :=
  ∃ front rest : List Char, text = front ++ rest ∧ t.position = start + (String.ofList front).utf8ByteSize ∧
    (t.token = .finish ↔ rest = []) ∧
      ∀ c more, rest = c :: more → Text.isBlank c = false ∧ ∃ n, first c more = .ok (t.token, n)

theorem stands_at_start (start n : Nat) (c : Char) (more : List Char) (t : Token) (visible : Text.isBlank c = false)
    (proper : t ≠ .finish) (found : first c more = .ok (t, n)) : Stands (c :: more) start ⟨t, start⟩ := by
  refine ⟨[], c :: more, rfl, rfl, by simp [proper], ?_⟩
  rintro _ _ ⟨⟩
  exact ⟨visible, n, found⟩

theorem stands_at_end (start : Nat) : Stands [] start ⟨.finish, start⟩ := by
  refine ⟨[], [], rfl, rfl, by simp, ?_⟩
  rintro _ _ ⟨⟩

theorem width_bytes (text : List Char) : width text = (String.ofList text).utf8ByteSize := by
  induction text with
  | nil => rfl
  | cons c text ih =>
      have own : width (c :: text) = c.utf8Size + width text := rfl
      simp [own, ih]

-- What stands in a text stands as far behind what is put in front of that text.
theorem stands_behind (passed text : List Char) (start : Nat) (t : Placed) (stands : Stands text (start + width passed) t) :
    Stands (passed ++ text) start t := by
  obtain ⟨front, rest, rfl, placed, ends, begins⟩ := stands
  refine ⟨passed ++ front, rest, by simp, ?_, ends, begins⟩
  rw [placed, width_bytes, String.ofList_append, String.utf8ByteSize_append]
  omega

theorem radix_proper (base : Nat) (text : List Char) : radixNumber base text ≠ .ok .finish := by
  unfold radixNumber
  split <;> simp

theorem decimal_proper (text : List Char) : decimalNumber text ≠ .ok .finish := by
  have typed : ∀ {α : Type} (read : Option α) (token : α → Token), (∀ x, token x ≠ .finish) →
      read.map token ≠ some .finish := by
    intro α read token proper found
    obtain ⟨x, _, same⟩ := Option.map_eq_some_iff.mp found
    exact proper x same
  intro found
  simp only [decimalNumber] at found
  split at found
  · rename_i t number
    cases found
    split at number
    · exact typed _ Token.float (by simp) number
    · exact typed _ Token.int (by simp) number
  · cases found

theorem number_proper (c : Char) (rest : List Char) (n : Nat) : number c rest ≠ .ok (.finish, n) := by
  have alone : ∀ (read : Except SyntaxFault Token) (k : Nat), read ≠ .ok .finish →
      (read.map fun token => (token, k)) ≠ .ok (.finish, n) := by
    intro read k proper found
    cases read with
    | error fault => cases found
    | ok t =>
        cases found
        exact proper rfl
  unfold number
  split
  · exact alone _ _ (radix_proper _ _)
  · exact alone _ _ (decimal_proper _)

-- No character stands for the end.
theorem first_proper (c : Char) (rest : List Char) (n : Nat) : first c rest ≠ .ok (.finish, n) := by
  intro found
  unfold first at found
  repeat' split at found
  all_goals first | cases found | exact number_proper c rest n found

theorem tokens_placed (start : Nat) (text : List Char) (tokens : List Placed)
    (lexed : tokensFrom start text = .ok tokens) :
    (∀ t ∈ tokens, Stands text start t) ∧ ∃ front last, tokens = front ++ [last] ∧ last.token = .finish := by
  induction start, text using tokensFrom.induct generalizing tokens with
  | case1 start =>
      rw [tokensFrom] at lexed
      cases lexed
      exact ⟨by simpa using stands_at_end start, [], _, rfl, rfl⟩
  | case2 start c rest blank ih =>
      rw [tokensFrom, if_pos blank] at lexed
      obtain ⟨stand, ends⟩ := ih tokens lexed
      exact ⟨fun t member => stands_behind [c] rest start t (stand t member), ends⟩
  | case3 start c rest visible fault failed => simp [tokensFrom, visible, failed] at lexed
  | case4 start c rest visible token n found ih =>
      cases others : tokensFrom (start + width (c :: rest.take n)) (rest.drop n) with
      | error fault => simp [tokensFrom, visible, found, others, Except.map] at lexed
      | ok more =>
          simp only [tokensFrom, visible, found, others, Except.map] at lexed
          cases lexed
          obtain ⟨stand, front, last, rfl, ends⟩ := ih more others
          refine ⟨?_, ⟨token, start⟩ :: front, last, rfl, ends⟩
          rw [List.forall_mem_cons]
          constructor
          · refine stands_at_start start n c rest token (by simpa using visible) ?_ found
            rintro rfl
            exact first_proper c rest n found
          · intro t member
            have whole : c :: rest.take n ++ rest.drop n = c :: rest := by simp
            rw [← whole]
            exact stands_behind _ _ start t (stand t member)

end SpaceLink.Lexer
