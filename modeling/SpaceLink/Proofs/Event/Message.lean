import SpaceLink.Proofs.Attempt
import SpaceLink.Proofs.Event.Spelling

/-!
Messages and the data of an event. The directives of a message take their bytes one after the other from the start of the
data, and the text has what each of them shows of its own bytes, between the characters of the message.
-/

set_option autoImplicit false

namespace SpaceLink

namespace Directive

-- How many bytes a directive takes; those of a text go up to a zero.
def Style.size? : Style → Option Nat
  | .text => none
  | .character => some 1
  | _ => some 4

-- The bytes that one directive takes.
def Style.Input (style : Style) (own : Bytes) : Prop :=
  match style.size? with
  | none => ∃ body, own = body ++ [0] ∧ 0 ∉ body
  | some count => own.length = count

-- What a directive shows of its bytes.
def shown (d : Directive) (own : Bytes) : List Char :=
  match d.style with
  | .text =>
    let text := (Utf8.decode own.dropLast).toList
    d.pad [] (text.take (d.precision.getD text.length)) false
  | .character => d.pad [] (own.map fun b => Char.ofNat b.toNat) false
  | _ => d.wordText (Bytes.ofBig own)

theorem take_own (total count : Nat) (own rest : Bytes) (whole : own.length = count) :
    take total count (own ++ rest) = .ok (own, rest) := by
  simp [take, ← whole]

theorem take_short (total count : Nat) (rest : Bytes) (short : rest.length < count) :
    take total count rest = .error (.notEnoughData total (total - rest.length + count)) := by
  have fewer : (rest.take count).length < count := by rwa [List.length_take, Nat.min_eq_right (Nat.le_of_lt short)]
  simp only [take, if_pos fewer]

theorem size_of_other (style : Style) (unsized : style.size? = none) : style = .text := by
  cases style <;> first | rfl | cases unsized

theorem render_sized (d : Directive) (count : Nat) (sized : d.style.size? = some count) (total : Nat) (rest : Bytes) :
    d.render total rest = (take total count rest >>= fun taken => .ok (d.shown taken.1, taken.2)) := by
  simp only [render, shown]
  cases style : d.style <;> rw [style] at sized <;> cases sized <;> rfl

-- The bytes of a text end where the first zero stands.
theorem body_taken (body rest : Bytes) (filled : 0 ∉ body) (ends : ∀ b ∈ rest.head?, b = 0) :
    (body ++ rest).takeWhile (· != 0) = body := by
  refine (Text.run_over (· != 0) body rest (fun b first => by simp [ends b first]) ?_).1
  intro b member
  simpa using ne_of_mem_of_not_mem member filled

theorem render_text (d : Directive) (text : d.style = .text) (total : Nat) (body rest : Bytes) (filled : 0 ∉ body) :
    d.render total (body ++ 0 :: rest) = .ok (d.shown (body ++ [0]), rest) := by
  have own := body_taken body (0 :: rest) filled fun b first => (Option.some.inj first).symm
  simp only [render, shown, text, own, List.drop_left, List.dropLast_concat]

theorem render_endless (d : Directive) (text : d.style = .text) (total : Nat) (rest : Bytes) (endless : 0 ∉ rest) :
    d.render total rest = .error (.notEnoughData total (total + 1)) := by
  have own := body_taken rest [] endless fun b first => nomatch first
  rw [List.append_nil] at own
  simp only [render, text, own, List.drop_length]

theorem render_input (d : Directive) (total : Nat) (own rest : Bytes) (input : d.style.Input own) :
    d.render total (own ++ rest) = .ok (d.shown own, rest) := by
  simp only [Style.Input] at input
  cases sized : d.style.size? with
  | none =>
      rw [sized] at input
      obtain ⟨body, rfl, filled⟩ := input
      rw [List.append_assoc]
      exact d.render_text (size_of_other d.style sized) total body rest filled
  | some count =>
      rw [sized] at input
      rw [d.render_sized count sized, Attempt.bind_of_ok _ _ _ (take_own total count own rest input)]

theorem render_short (d : Directive) (total : Nat) (rest : Bytes) (within : rest.length ≤ total)
    (none : ∀ own left, d.style.Input own → own ++ left ≠ rest) :
    ∃ minimum, d.render total rest = .error (.notEnoughData total minimum) ∧ total < minimum := by
  simp only [Style.Input] at none
  cases sized : d.style.size? with
  | none =>
      simp only [sized] at none
      refine ⟨_, d.render_endless (size_of_other d.style sized) total rest ?_, Nat.lt_succ_self total⟩
      intro zero
      obtain ⟨body, left, same, filled⟩ := List.eq_append_cons_of_mem zero
      exact none (body ++ [0]) left ⟨body, rfl, filled⟩ (by rw [same, List.append_assoc]; rfl)
  | some count =>
      simp only [sized] at none
      have short : rest.length < count := by
        refine Nat.lt_of_not_le fun long => none (rest.take count) (rest.drop count) ?_ (List.take_append_drop count rest)
        rw [List.length_take, Nat.min_eq_left long]
      rw [d.render_sized count sized, Attempt.bind_of_error _ _ _ (take_short total count rest short)]
      exact ⟨_, rfl, by omega⟩

end Directive

namespace Message

inductive Part where
  | text (t : List Char)
  | directive (s : Directive.Spelling)

namespace Part

-- Percent signs of a text are doubled.
def written : Part → List Char
  | .text t => t.flatMap fun c => if c = '%' then ['%', '%'] else [c]
  | .directive s => '%' :: s.text

def pieces : Part → List Piece
  | .text t => t.map .literal
  | .directive s => [.directive s.directive]

end Part

def written (parts : List Part) : String := String.ofList (parts.flatMap Part.written)

-- One input for each directive, in their order, from the start of the data.
inductive Takes : List Part → Bytes → List Bytes → Prop
  | done (data : Bytes) : Takes [] data []
  | text (t : List Char) (more : List Part) (data : Bytes) (inputs : List Bytes) (rest : Takes more data inputs) :
      Takes (.text t :: more) data inputs
  | directive (s : Directive.Spelling) (more : List Part) (own left : Bytes) (inputs : List Bytes)
      (input : s.style.Input own) (rest : Takes more left inputs) :
      Takes (.directive s :: more) (own ++ left) (own :: inputs)

-- The texts, and what each directive shows of its own input.
def interleaved : List Part → List Bytes → List Char
  | [], _ => []
  | .text t :: more, inputs => t ++ interleaved more inputs
  | .directive s :: more, own :: inputs => s.directive.shown own ++ interleaved more inputs
  | .directive _ :: _, [] => []

theorem read_percent (rest : List Char) : Directive.read? ('%' :: rest) = none := rfl

theorem pieces_directive (s : Directive.Spelling) (rest : List Char) :
    pieces ('%' :: (s.text ++ rest)) = .directive s.directive :: pieces rest := by
  have read := s.read_spelled rest
  rw [pieces, read]
  · simp only [List.drop_left]
  · intro more same
    rw [same, read_percent] at read
    cases read

theorem pieces_text (t rest : List Char) :
    pieces (Part.written (.text t) ++ rest) = t.map .literal ++ pieces rest := by
  induction t with
  | nil => rfl
  | cons c more ih =>
      simp only [Part.written, List.flatMap_cons, List.append_assoc, List.map_cons, List.cons_append] at ih ⊢
      by_cases percent : c = '%'
      · subst percent
        rw [if_pos rfl]
        simp only [List.cons_append, List.nil_append]
        rw [pieces, ih]
      · rw [if_neg percent]
        simp only [List.cons_append, List.nil_append]
        rw [pieces, ih]
        · exact fun _ same _ => percent same
        · exact fun same => percent same

-- What is written is read as the same parts.
theorem pieces_written (parts : List Part) : pieces (parts.flatMap Part.written) = parts.flatMap Part.pieces := by
  induction parts with
  | nil => rw [List.flatMap_nil, List.flatMap_nil, pieces]
  | cons part more ih =>
      rw [List.flatMap_cons, List.flatMap_cons]
      cases part with
      | text t => rw [pieces_text, ih]; rfl
      | directive s =>
          simp only [Part.written, Part.pieces, List.cons_append, List.nil_append]
          rw [pieces_directive, ih]

section Rendering

variable (total : Nat)

theorem render_text (t : List Char) (more : List Piece) (rest : Bytes) (done : List Char) :
    renderPieces total (t.map .literal ++ more) rest done = renderPieces total more rest (t.reverse ++ done) := by
  induction t generalizing done with
  | nil => rfl
  | cons c t ih => simp [renderPieces, ih]

theorem render_taken (parts : List Part) (rest : Bytes) (inputs : List Bytes) (done : List Char)
    (takes : Takes parts rest inputs) :
    renderPieces total (parts.flatMap Part.pieces) rest done =
      .ok ((interleaved parts inputs).reverse ++ done) := by
  induction takes generalizing done with
  | done data => rfl
  | text t more data inputs rest ih =>
      simp only [List.flatMap_cons, Part.pieces, interleaved, List.reverse_append, List.append_assoc]
      rw [render_text, ih]
  | directive s more own left inputs input rest ih =>
      simp only [List.flatMap_cons, Part.pieces, interleaved, List.reverse_append, List.append_assoc, List.cons_append,
        List.nil_append, renderPieces]
      rw [Attempt.bind_of_ok _ _ _ (s.directive.render_input total own left input), ih]

theorem render_lacking (parts : List Part) (rest : Bytes) (done : List Char) (within : rest.length ≤ total)
    (none : ∀ inputs, ¬ Takes parts rest inputs) :
    ∃ minimum, renderPieces total (parts.flatMap Part.pieces) rest done = .error (.notEnoughData total minimum) ∧
      total < minimum := by
  induction parts generalizing rest done with
  | nil => exact absurd (.done rest) (none [])
  | cons part more ih =>
      rw [List.flatMap_cons]
      cases part with
      | text t =>
          simp only [Part.pieces]
          rw [render_text]
          exact ih rest _ within fun inputs takes => none inputs (.text t more rest inputs takes)
      | directive s =>
          simp only [Part.pieces, List.cons_append, List.nil_append, renderPieces]
          by_cases first : ∃ own left, s.style.Input own ∧ own ++ left = rest
          · obtain ⟨own, left, input, rfl⟩ := first
            rw [Attempt.bind_of_ok _ _ _ (s.directive.render_input total own left input)]
            rw [List.length_append] at within
            exact ih left _ (by omega) fun inputs takes =>
              none (own :: inputs) (.directive s more own left inputs input takes)
          · have short : ∀ own left, s.style.Input own → own ++ left ≠ rest := fun own left input same =>
              first ⟨own, left, input, same⟩
            obtain ⟨minimum, failed, beyond⟩ := s.directive.render_short total rest within short
            exact ⟨minimum, Attempt.bind_of_error _ _ _ failed, beyond⟩

end Rendering

theorem takes_more (parts : List Part) (data : Bytes) (inputs : List Bytes) (takes : Takes parts data inputs)
    (more : Bytes) : Takes parts (data ++ more) inputs := by
  induction takes with
  | done data => exact .done _
  | text t rest data inputs _ ih => exact .text t rest _ inputs ih
  | directive s rest own left inputs input _ ih =>
      rw [List.append_assoc]
      exact .directive s rest own _ inputs input ih

theorem render_of_takes (parts : List Part) (data : Bytes) (inputs : List Bytes) (takes : Takes parts data inputs) :
    render (written parts) data = .ok (String.ofList (interleaved parts inputs)) := by
  rw [render, written, String.toList_ofList, pieces_written, render_taken data.length parts data inputs [] takes]
  simp [Except.map]

-- A message succeeds exactly if its directives find their bytes, and bytes behind those are not looked at.
theorem directives_take_in_order (parts : List Part) (data : Bytes) :
    (∀ inputs, Takes parts data inputs → render (written parts) data = .ok (String.ofList (interleaved parts inputs))) ∧
    ((∃ text, render (written parts) data = .ok text) ↔ ∃ inputs, Takes parts data inputs) ∧
    ((¬ ∃ inputs, Takes parts data inputs) →
      ∃ minimum, render (written parts) data = .error (.notEnoughData data.length minimum) ∧ data.length < minimum) ∧
    ∀ more text, render (written parts) data = .ok text → render (written parts) (data ++ more) = .ok text := by
  have lacking : (¬ ∃ inputs, Takes parts data inputs) →
      ∃ minimum, render (written parts) data = .error (.notEnoughData data.length minimum) ∧ data.length < minimum := by
    intro none
    obtain ⟨minimum, failed, beyond⟩ := render_lacking data.length parts data [] (Nat.le_refl _) fun inputs takes =>
      none ⟨inputs, takes⟩
    refine ⟨minimum, ?_, beyond⟩
    rw [render, written, String.toList_ofList, pieces_written, failed]
    rfl
  have succeeds : (∃ text, render (written parts) data = .ok text) ↔ ∃ inputs, Takes parts data inputs := by
    constructor
    · rintro ⟨text, done⟩
      refine Classical.byContradiction fun none => ?_
      obtain ⟨minimum, failed, _⟩ := lacking none
      rw [failed] at done
      cases done
    · rintro ⟨inputs, takes⟩
      exact ⟨_, render_of_takes parts data inputs takes⟩
  refine ⟨render_of_takes parts data, succeeds, lacking, ?_⟩
  intro more text done
  obtain ⟨inputs, takes⟩ := succeeds.mp ⟨text, done⟩
  rw [render_of_takes parts data inputs takes] at done
  rw [render_of_takes parts _ inputs (takes_more parts data inputs takes more), done]

theorem greeting_taken :
    let parts : List Part := [.directive (.bare 'c' .character rfl), .text [' '], .directive (.bare 's' .text rfl),
      .text [' '], .directive (.bare 'u' .unsigned rfl)]
    written parts = "%c %s %u" ∧
      Takes parts [33, 70, 111, 111, 0, 255, 17, 51, 68] [[33], [70, 111, 111, 0], [255, 17, 51, 68]] ∧
      render (written parts) [33, 70, 111, 111, 0, 255, 17, 51, 68] = .ok "! Foo 4279317316" := by
  intro parts
  have takes : Takes parts [33, 70, 111, 111, 0, 255, 17, 51, 68] [[33], [70, 111, 111, 0], [255, 17, 51, 68]] := by
    refine .directive _ _ [33] [70, 111, 111, 0, 255, 17, 51, 68] _ rfl (.text _ _ _ _ ?_)
    refine .directive _ _ [70, 111, 111, 0] [255, 17, 51, 68] _ ⟨[70, 111, 111], rfl, by decide⟩ (.text _ _ _ _ ?_)
    exact .directive _ _ [255, 17, 51, 68] [] _ rfl (.done [])
  have word : Bytes.ofBig [255, 17, 51, 68] = 4279317316 := by decide
  have digits : Numeral.digits 10 4279317316 = "4279317316".toList := by
    rw [Numeral.digits_of_library 10 (by decide) (by decide)]
    decide
  have number : (Directive.Spelling.bare 'u' .unsigned rfl).directive.shown [255, 17, 51, 68] = "4279317316".toList := by
    simp only [Directive.shown, Directive.Spelling.bare, Directive.Spelling.directive, Directive.wordText,
      Directive.unsignedText, word, digits]
    decide
  have text : interleaved parts [[33], [70, 111, 111, 0], [255, 17, 51, 68]] = "! Foo 4279317316".toList := by
    simp only [parts, interleaved, number]
    decide
  refine ⟨by decide, takes, ?_⟩
  rw [(directives_take_in_order parts _).1 _ takes, text, String.ofList_toList]

end Message

end SpaceLink
