import SpaceLink.Proofs.Text.Blank
import SpaceLink.Text.Pieces

/-!
Texts joined from parts and cut again. The parts come back where none of them holds what they are joined by, and a
joined text needs no trimming where its parts need none.
-/

set_option autoImplicit false

namespace SpaceLink.Text

theorem joined_cons (mark : Char) (part next : List Char) (rest : List (List Char)) :
    List.intercalate [mark] (part :: next :: rest) = part ++ mark :: List.intercalate [mark] (next :: rest) := by
  rw [List.intercalate_cons_cons, List.append_assoc, List.singleton_append]

theorem mem_joined (mark c : Char) (parts : List (List Char)) (member : c ∈ List.intercalate [mark] parts) :
    c = mark ∨ ∃ part ∈ parts, c ∈ part := by
  induction parts with
  | nil => simp at member
  | cons part rest ih =>
      cases rest with
      | nil => exact .inr ⟨part, List.mem_cons_self, by simpa using member⟩
      | cons next rest =>
          rw [joined_cons, List.mem_append, List.mem_cons] at member
          rcases member with inPart | isMark | inRest
          · exact .inr ⟨part, List.mem_cons_self, inPart⟩
          · exact .inl isMark
          · exact (ih inRest).imp_right fun ⟨other, later, inOther⟩ => ⟨other, List.mem_cons_of_mem _ later, inOther⟩

section Pieces

variable (mark : Char)

theorem contains_mark (text : List Char) : contains [mark] text = decide (mark ∈ text) := by
  induction text with
  | nil => simp [contains]
  | cons c rest ih => simp [contains, ih, List.isPrefixOf, Bool.beq_eq_decide_eq]

theorem pieces_from_over (piece front rest : List Char) (free : mark ∉ front) :
    piecesFrom [mark] 0 piece (front ++ rest) = piecesFrom [mark] 0 (front.reverse ++ piece) rest := by
  induction front generalizing piece with
  | nil => rfl
  | cons c front ih =>
      have other : mark ≠ c := fun same => free (same ▸ List.mem_cons_self)
      have start : [mark].isPrefixOf (c :: (front ++ rest)) = false := by simp [List.isPrefixOf, other]
      rw [List.cons_append, piecesFrom, start, if_neg (by simp), ih (c :: piece) fun inFront =>
        free (List.mem_cons_of_mem _ inFront)]
      simp

theorem pieces_from_mark (piece rest : List Char) :
    piecesFrom [mark] 0 piece (mark :: rest) = piece.reverse :: piecesFrom [mark] 0 [] rest := by
  simp [piecesFrom, List.isPrefixOf]

theorem pieces_joined (parts : List (List Char)) (filled : parts ≠ []) (free : ∀ part ∈ parts, mark ∉ part) :
    pieces [mark] (List.intercalate [mark] parts) = parts := by
  rw [pieces, if_neg (by simp)]
  induction parts with
  | nil => exact absurd rfl filled
  | cons part rest ih =>
      have own := free part List.mem_cons_self
      cases rest with
      | nil =>
          have moved := pieces_from_over mark [] part [] own
          simpa [piecesFrom] using moved
      | cons next rest =>
          rw [joined_cons, pieces_from_over mark [] part _ own, pieces_from_mark,
            ih (by simp) fun other later => free other (List.mem_cons_of_mem _ later)]
          simp

end Pieces

theorem cut_at_iff (mark : Char) (text before rest : List Char) :
    cutAt mark text = some (before, rest) ↔ text = before ++ mark :: rest ∧ mark ∉ before := by
  induction text generalizing before with
  | nil => simp [cutAt]
  | cons c text ih =>
      by_cases same : c = mark
      · subst same
        have cut : cutAt c (c :: text) = some ([], text) := by simp [cutAt]
        rw [cut]
        constructor
        · intro parts
          cases parts
          exact ⟨rfl, List.not_mem_nil⟩
        · rintro ⟨split, free⟩
          cases before with
          | nil =>
              cases split
              rfl
          | cons first _ =>
              rw [List.cons_append, List.cons.injEq] at split
              exact absurd (split.1 ▸ List.mem_cons_self) free
      · have cut : cutAt mark (c :: text) = (cutAt mark text).map fun parts => (c :: parts.1, parts.2) := by
          simp only [cutAt, List.dropWhile_cons, List.takeWhile_cons, ne_eq, same, not_false_eq_true, decide_true, if_true]
          cases text.dropWhile fun d => decide (d ≠ mark) <;> rfl
        rw [cut, Option.map_eq_some_iff]
        constructor
        · rintro ⟨⟨front, behind⟩, found, parts⟩
          cases parts
          obtain ⟨split, free⟩ := (ih front).mp found
          exact ⟨by rw [split]; rfl, by simpa [Ne.symm same] using free⟩
        · rintro ⟨split, free⟩
          cases before with
          | nil =>
              cases split
              exact absurd rfl same
          | cons first front =>
              cases split
              exact ⟨(front, rest), (ih front).mpr ⟨rfl, fun member => free (List.mem_cons_of_mem _ member)⟩, rfl⟩

theorem cut_at_none (mark : Char) (text : List Char) : cutAt mark text = none ↔ mark ∉ text := by
  constructor
  · intro uncut member
    obtain ⟨before, rest, split, free⟩ := List.eq_append_cons_of_mem member
    rw [(cut_at_iff mark text before rest).mpr ⟨split, free⟩] at uncut
    cases uncut
  · intro free
    cases found : cutAt mark text with
    | none => rfl
    | some parts =>
        obtain ⟨split, _⟩ := (cut_at_iff mark text parts.1 parts.2).mp found
        exact absurd (split ▸ List.mem_append_right _ List.mem_cons_self) free

section Words

theorem words_from_over (word front rest : List Char) (solid : ∀ c ∈ front, isBlank c = false) :
    wordsFrom word (front ++ rest) = wordsFrom (front.reverse ++ word) rest := by
  induction front generalizing word with
  | nil => rfl
  | cons c front ih =>
      rw [List.cons_append, wordsFrom, solid c List.mem_cons_self, if_neg (by simp), ih (c :: word) fun other later =>
        solid other (List.mem_cons_of_mem _ later)]
      simp

theorem words_joined (parts : List (List Char)) (solid : ∀ part ∈ parts, part ≠ [] ∧ ∀ c ∈ part, isBlank c = false) :
    words (List.intercalate [' '] parts) = parts := by
  rw [words]
  induction parts with
  | nil => rfl
  | cons part rest ih =>
      obtain ⟨filled, own⟩ := solid part List.mem_cons_self
      cases rest with
      | nil =>
          have moved := words_from_over [] part [] own
          simpa [wordsFrom, filled] using moved
      | cons next rest =>
          have blank : isBlank ' ' = true := by decide
          rw [joined_cons, words_from_over [] part _ own, wordsFrom, if_pos blank, if_neg (by simpa using filled),
            ih fun other later => solid other (List.mem_cons_of_mem _ later)]
          simp

theorem words_from_solid (word text : List Char) (begun : ∀ c ∈ word, isBlank c = false) :
    ∀ part ∈ wordsFrom word text, ∀ c ∈ part, isBlank c = false := by
  have first : ∀ c ∈ word.reverse, isBlank c = false := fun c member => begun c (List.mem_reverse.mp member)
  induction text generalizing word with
  | nil =>
      intro part member
      cases word with
      | nil => cases member
      | cons _ _ =>
          rcases List.mem_singleton.mp member with rfl
          exact first
  | cons c rest ih =>
      simp only [wordsFrom]
      cases blank : isBlank c with
      | false =>
          have further : ∀ d ∈ c :: word, isBlank d = false := List.forall_mem_cons.mpr ⟨blank, begun⟩
          exact ih (c :: word) further fun d member => further d (List.mem_reverse.mp member)
      | true =>
          have later := ih [] (by simp) (by simp)
          cases word with
          | nil => exact later
          | cons _ _ => exact List.forall_mem_cons.mpr ⟨first, later⟩

theorem words_solid (text : List Char) : ∀ part ∈ words text, ∀ c ∈ part, isBlank c = false :=
  words_from_solid [] text (by simp)

-- Words stand apart, so half of the characters at least are in no word's place.
theorem length_words_from (word text : List Char) :
    2 * (wordsFrom word text).length ≤ text.length + if word = [] then 1 else 2 := by
  induction text generalizing word with
  | nil => cases word <;> simp [wordsFrom]
  | cons c rest ih =>
      have fresh := ih []
      have further := ih (c :: word)
      simp only [wordsFrom, List.length_cons, if_true, reduceCtorEq, if_false] at fresh further ⊢
      cases isBlank c with
      | false =>
          rw [if_neg (by simp)]
          split <;> omega
      | true =>
          cases word with
          | nil =>
              simp only [if_true, List.isEmpty_nil]
              omega
          | cons _ _ =>
              simp only [if_true, List.isEmpty_cons, Bool.false_eq_true, if_false, List.length_cons, reduceCtorEq]
              omega

theorem length_words (text : List Char) : 2 * (words text).length ≤ text.length + 1 := length_words_from [] text

end Words

section Trimming

theorem drop_blanks_iff (text : List Char) : dropBlanks text = text ↔ ∀ c ∈ text.head?, isBlank c = false := by
  cases text with
  | nil => simp [dropBlanks]
  | cons c rest =>
      rw [dropBlanks, List.dropWhile_cons]
      cases blank : isBlank c with
      | false => simp [blank]
      | true =>
          have shorter := (List.dropWhile_suffix isBlank (l := rest)).length_le
          have other : rest.dropWhile isBlank ≠ c :: rest := by
            intro same
            rw [same, List.length_cons] at shorter
            omega
          simp [blank, other]

-- Trimming takes nothing away exactly where no blank stands at an end.
theorem trimmed_iff (text : List Char) :
    trimmed text = text ↔ (∀ c ∈ text.head?, isBlank c = false) ∧ ∀ c ∈ text.getLast?, isBlank c = false := by
  have back := drop_blanks_iff text.reverse
  rw [List.head?_reverse] at back
  rw [← drop_blanks_iff, ← back, trimmed, List.reverse_eq_iff]
  have front := List.dropWhile_suffix isBlank (l := text)
  have back' := List.dropWhile_suffix isBlank (l := (dropBlanks text).reverse)
  constructor
  · intro same
    have whole : dropBlanks text = text := by
      apply front.eq_of_length
      have long := back'.length_le
      have most := front.length_le
      rw [dropBlanks] at same
      rw [same] at long
      simp only [dropBlanks, List.length_reverse] at long most ⊢
      omega
    rw [whole] at same
    exact ⟨whole, same⟩
  · rintro ⟨whole, same⟩
    rw [whole, same]

theorem mem_trimmed (text : List Char) (c : Char) (member : c ∈ text) (solid : isBlank c = false) : c ∈ trimmed text := by
  have stays : ∀ part, c ∈ part → c ∈ dropBlanks part := by
    intro part inside
    rw [← List.takeWhile_append_dropWhile (p := isBlank) (l := part), List.mem_append] at inside
    rcases inside with front | back
    · have blank := List.all_eq_true.mp (List.all_takeWhile (p := isBlank) (l := part)) c front
      rw [solid] at blank
      cases blank
    · exact back
  exact List.mem_reverse.mpr (stays _ (List.mem_reverse.mpr (stays _ member)))

theorem trimmed_of_solid (text : List Char) (solid : ∀ c ∈ text, isBlank c = false) : trimmed text = text :=
  (trimmed_iff text).mpr ⟨fun c first => solid c (List.mem_of_mem_head? first),
    fun c last => solid c (List.mem_of_mem_getLast? last)⟩

theorem head_joined (mark : Char) (part : List Char) (rest : List (List Char)) (filled : part ≠ []) :
    (List.intercalate [mark] (part :: rest)).head? = part.head? := by
  cases rest with
  | nil => simp
  | cons next rest =>
      rw [joined_cons, List.head?_append, Option.or_of_isSome (List.isSome_head?.mpr filled)]

theorem joined_filled (mark : Char) (part : List Char) (rest : List (List Char)) (filled : part ≠ []) :
    List.intercalate [mark] (part :: rest) ≠ [] := by
  rw [← List.isSome_head?, head_joined mark part rest filled, List.isSome_head?]
  exact filled

theorem last_joined (mark : Char) (parts : List (List Char)) (filled : ∀ part ∈ parts, part ≠ []) (c : Char)
    (last : c ∈ (List.intercalate [mark] parts).getLast?) : ∃ part ∈ parts, c ∈ part.getLast? := by
  induction parts with
  | nil => simp at last
  | cons part rest ih =>
      cases rest with
      | nil => exact ⟨part, List.mem_cons_self, by simpa using last⟩
      | cons next rest =>
          have some := joined_filled mark next rest (filled next (by simp))
          rw [joined_cons, List.getLast?_append, List.getLast?_cons_of_ne_nil some,
            Option.or_of_isSome (by simpa using some)] at last
          obtain ⟨other, later, ends⟩ := ih (fun other later => filled other (List.mem_cons_of_mem _ later)) last
          exact ⟨other, List.mem_cons_of_mem _ later, ends⟩

theorem trimmed_joined (mark : Char) (parts : List (List Char))
    (each : ∀ part ∈ parts, part ≠ [] ∧ trimmed part = part) :
    trimmed (List.intercalate [mark] parts) = List.intercalate [mark] parts := by
  rw [trimmed_iff]
  cases parts with
  | nil => simp
  | cons part rest =>
      refine ⟨?_, ?_⟩
      · obtain ⟨filled, own⟩ := each part List.mem_cons_self
        rw [head_joined mark part rest filled]
        exact ((trimmed_iff part).mp own).1
      · intro c last
        obtain ⟨other, member, ends⟩ := last_joined mark (part :: rest)
          (fun other member => (each other member).1) c last
        exact ((trimmed_iff other).mp (each other member).2).2 c ends

theorem head_joined_cases (mark c : Char) (parts : List (List Char)) (first : c ∈ (List.intercalate [mark] parts).head?) :
    c = mark ∨ ∃ part ∈ parts, c ∈ part.head? := by
  cases parts with
  | nil => simp at first
  | cons part rest =>
      cases rest with
      | nil => exact .inr ⟨part, List.mem_cons_self, by simpa using first⟩
      | cons next rest =>
          rw [joined_cons, List.head?_append] at first
          cases part with
          | nil => exact .inl (Option.some.inj first).symm
          | cons own _ => exact .inr ⟨_, List.mem_cons_self, first⟩

theorem last_joined_cases (mark c : Char) (parts : List (List Char))
    (last : c ∈ (List.intercalate [mark] parts).getLast?) : c = mark ∨ ∃ part ∈ parts, c ∈ part.getLast? := by
  induction parts with
  | nil => simp at last
  | cons part rest ih =>
      cases rest with
      | nil => exact .inr ⟨part, List.mem_cons_self, by simpa using last⟩
      | cons next rest =>
          rw [joined_cons, List.getLast?_append, List.getLast?_cons] at last
          cases tail : (List.intercalate [mark] (next :: rest)).getLast? with
          | none =>
              rw [tail] at last
              exact .inl (Option.some.inj last).symm
          | some own =>
              rw [tail] at last
              rw [tail] at ih
              exact (ih last).imp_right fun ⟨other, later, ends⟩ => ⟨other, List.mem_cons_of_mem _ later, ends⟩

-- A mark that is no blank keeps what stands between it and an end, even if that is nothing.
theorem trimmed_joined_unblank (mark : Char) (unblank : isBlank mark = false) (parts : List (List Char))
    (each : ∀ part ∈ parts, trimmed part = part) :
    trimmed (List.intercalate [mark] parts) = List.intercalate [mark] parts := by
  rw [trimmed_iff]
  constructor
  · intro c first
    rcases head_joined_cases mark c parts first with rfl | ⟨part, member, own⟩
    · exact unblank
    · exact ((trimmed_iff part).mp (each part member)).1 c own
  · intro c last
    rcases last_joined_cases mark c parts last with rfl | ⟨part, member, own⟩
    · exact unblank
    · exact ((trimmed_iff part).mp (each part member)).2 c own

end Trimming

section Lines

def ofLines (lines : List String) : String := String.join (lines.map fun line => line ++ "\n")

theorem of_lines_cons (line : String) (lines : List String) :
    ofLines (line :: lines) = line ++ "\n" ++ ofLines lines := by
  simp [ofLines]

theorem lines_from_over (line front rest : List Char) (free : '\n' ∉ front) :
    linesFrom line (front ++ rest) = linesFrom (front.reverse ++ line) rest := by
  induction front generalizing line with
  | nil => rfl
  | cons c front ih =>
      have other : c ≠ '\n' := fun same => free (same ▸ List.mem_cons_self)
      rw [List.cons_append, linesFrom.eq_def]
      simp only [if_neg other]
      rw [ih (c :: line) fun inFront => free (List.mem_cons_of_mem _ inFront)]
      simp

-- A carriage return at the end would be lost with the line feed.
theorem lines_from_line (line rest : List Char) (free : '\n' ∉ line) (solid : trimmed line = line) :
    linesFrom [] (line ++ '\n' :: rest) = line :: linesFrom [] rest := by
  rw [lines_from_over [] line _ free, List.append_nil, linesFrom.eq_def]
  simp only [if_true]
  congr 1
  have ends := ((trimmed_iff line).mp solid).2
  rw [← List.head?_reverse] at ends
  split
  · rename_i before reversed
    rw [reversed] at ends
    have blank : isBlank '\r' = true := by decide
    have unblank := ends '\r' rfl
    rw [blank] at unblank
    cases unblank
  · exact List.reverse_reverse line

theorem lines_of_lines (lines : List String)
    (each : ∀ line ∈ lines, '\n' ∉ line.toList ∧ trimmed line.toList = line.toList) :
    Text.lines (ofLines lines) = lines := by
  have cut : linesFrom [] (ofLines lines).toList = lines.map String.toList := by
    induction lines with
    | nil => rfl
    | cons line rest ih =>
        obtain ⟨free, solid⟩ := each line List.mem_cons_self
        have text : (ofLines (line :: rest)).toList = line.toList ++ '\n' :: (ofLines rest).toList := by
          simp [of_lines_cons]
        rw [text, lines_from_line _ _ free solid, ih fun other later => each other (List.mem_cons_of_mem _ later),
          List.map_cons]
  rw [Text.lines, cut, List.map_map]
  simp

end Lines

end SpaceLink.Text
