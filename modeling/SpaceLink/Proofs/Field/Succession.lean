import SpaceLink.Ccsds.Header
import SpaceLink.Proofs.Field.Layout

/-!
How the fields of a layout follow one another. A field without bytes of its own gets as many as its type is wide, from
the start or the end of the field before it; a field with bytes of its own keeps them, and so a layout that is laid out
again stays as it is.
-/

set_option autoImplicit false

namespace SpaceLink

namespace Position

def isExplicit : Position → Bool
  | .single _ | .range _ _ => true
  | .next | .previous => false

end Position

namespace Field

-- The field with the bytes from `byte` on that its type asks for.
def startingAt (f : Field) (byte : Nat) : Field :=
  { f with position := .range byte (byte + f.type.nbytes - 1) }

-- The byte before the end can be counted: the end is not the start of all bytes, nor beyond the last of them.
def Counted (stop : Nat) : Prop := 0 < stop ∧ stop ≤ Position.greatest

instance (stop : Nat) : Decidable (Counted stop) := inferInstanceAs (Decidable (_ ∧ _))

-- What a field becomes behind the bytes of another one.
def Succeeds (before : Span) (f placed : Field) : Prop :=
  match f.position with
  | .single _ | .range _ _ => placed = f
  | .previous => Counted (before.start + f.type.nbytes) →
      placed = f.startingAt before.start ∧ placed.span 0 = ⟨before.start, before.start + f.type.nbytes⟩
  | .next => Counted (before.stop + f.type.nbytes) →
      placed = f.startingAt before.stop ∧ placed.span 0 = ⟨before.stop, before.stop + f.type.nbytes⟩

theorem place_of_explicit (f : Field) (before : Span) (explicit : f.position.isExplicit = true) : f.place before = f := by
  cases position : f.position with
  | single _ | range _ _ => simp only [place, position]
  | next | previous => simp [position, Position.isExplicit] at explicit

theorem place_explicit (f : Field) (before : Span) : (f.place before).position.isExplicit = true := by
  cases position : f.position <;> simp [place, position, Position.isExplicit]

-- An inclusive range names its last byte, which a field of no bytes at the start of all bytes would lack.
theorem span_starting (f : Field) (byte : Nat) (counted : Counted (byte + f.type.nbytes)) :
    (f.startingAt byte).span 0 = ⟨byte, byte + f.type.nbytes⟩ := by
  obtain ⟨filled, held⟩ := counted
  simp only [span, startingAt, Position.span, Position.addHeld, Span.mk.injEq]
  omega

theorem place_succeeds (f : Field) (before : Span) : f.Succeeds before (f.place before) := by
  cases position : f.position with
  | single _ | range _ _ => simp only [Succeeds, place, position]
  | previous =>
      simp only [Succeeds, position]
      intro counted
      have placed : f.place before = f.startingAt before.start := by
        simp only [place, position, startingAt, span, Position.span, Position.addHeld, Nat.min_eq_right counted.2]
      exact ⟨placed, placed ▸ f.span_starting before.start counted⟩
  | next =>
      simp only [Succeeds, position]
      intro counted
      have placed : f.place before = f.startingAt before.stop := by
        simp only [place, position, startingAt, span, Position.span, Position.addHeld, Nat.min_eq_right counted.2]
      exact ⟨placed, placed ▸ f.span_starting before.stop counted⟩

end Field

theorem length_lay_out (before : Span) (fields : List Field) : (layOut before fields).1.length = fields.length := by
  induction fields generalizing before with
  | nil => rfl
  | cons f rest ih => exact congrArg (· + 1) (ih _)

theorem lay_out_explicit (before : Span) (fields : List Field) :
    ∀ g ∈ (layOut before fields).1, g.position.isExplicit = true := by
  induction fields generalizing before with
  | nil => exact fun g member => nomatch member
  | cons f rest ih => exact List.forall_mem_cons.mpr ⟨f.place_explicit before, ih _⟩

theorem lay_out_of_explicit (before : Span) (fields : List Field)
    (explicit : ∀ f ∈ fields, f.position.isExplicit = true) : (layOut before fields).1 = fields := by
  induction fields generalizing before with
  | nil => rfl
  | cons f rest ih =>
      obtain ⟨here, later⟩ := List.forall_mem_cons.mp explicit
      simp only [layOut, f.place_of_explicit before here, ih _ later]

theorem lay_out_first (before : Span) (fields : List Field) (f g : Field)
    (listed : fields[0]? = some f) (placed : (layOut before fields).1[0]? = some g) : f.Succeeds before g := by
  cases fields with
  | nil => cases listed
  | cons first rest =>
      cases listed
      cases placed
      exact f.place_succeeds before

theorem lay_out_next (before : Span) (fields : List Field) (i : Nat)
    (f h g : Field) (listed : fields[i + 1]? = some f) (earlier : (layOut before fields).1[i]? = some h)
    (placed : (layOut before fields).1[i + 1]? = some g) : f.Succeeds (h.span 0) g := by
  induction fields generalizing before i with
  | nil => cases listed
  | cons first rest ih =>
      cases i with
      | zero =>
          cases earlier
          exact lay_out_first _ rest f g listed placed
      | succ i => exact ih _ i listed earlier placed

theorem lay_out_from_stop (start : Nat) (fields : List Field) :
    (layOutFrom start fields).2 = ((layOutFrom start fields).1.getLast?.map fun g => (g.span 0).stop).getD start :=
  lay_out_stop ⟨start, start⟩ fields

theorem lay_out_again (start again : Nat) (fields : List Field) :
    (layOutFrom again (layOutFrom start fields).1).1 = (layOutFrom start fields).1 :=
  lay_out_of_explicit ⟨again, again⟩ _ (lay_out_explicit ⟨start, start⟩ fields)

-- The end is that of the last field, wherever the pass begins, as there is a last field.
theorem lay_out_again_stop (start again : Nat) (fields : List Field) (filled : fields ≠ []) :
    (layOutFrom again (layOutFrom start fields).1).2 = (layOutFrom start fields).2 := by
  rw [lay_out_from_stop, lay_out_again, lay_out_from_stop]
  cases last : (layOutFrom start fields).1.getLast? with
  | some g => rfl
  | none =>
      have empty := congrArg List.length (List.getLast?_eq_none_iff.mp last)
      rw [show (layOutFrom start fields).1.length = fields.length from length_lay_out _ fields] at empty
      exact absurd (List.eq_nil_of_length_eq_zero empty) filled

-- Fields follow one another from the start on, the end is that of the last one, and there is nothing left to lay out.
theorem fields_follow_one_another (start : Nat) (fields : List Field) :
    let placed := (layOutFrom start fields).1
    let stop := (layOutFrom start fields).2
    placed.length = fields.length ∧
    (∀ f g, fields[0]? = some f → placed[0]? = some g → f.Succeeds ⟨start, start⟩ g) ∧
    (∀ i f h g, fields[i + 1]? = some f → placed[i]? = some h → placed[i + 1]? = some g →
      f.Succeeds (h.span 0) g) ∧
    stop = (placed.getLast?.map fun g => (g.span 0).stop).getD start ∧
    ∀ again, (layOutFrom again placed).1 = placed ∧ (fields ≠ [] → (layOutFrom again placed).2 = stop) := by
  intro placed stop
  refine ⟨length_lay_out _ fields, lay_out_first _ fields, lay_out_next _ fields, ?stop, ?again⟩
  case stop => exact lay_out_from_stop start fields
  case again => exact fun again => ⟨lay_out_again start again fields, lay_out_again_stop start again fields⟩

def Field.dial : Field := Ccsds.bits "dial" Ccsds.wordType (.single 4) none none

def Field.digit : Field := Ccsds.bits "digit" Ccsds.byteType .previous none none

def Field.total : Field := Ccsds.bits "total" Ccsds.wordType .next none none

-- What stands behind a narrow field at the place of a wide one begins where the narrow one ends.
theorem total_follows_digit :
    (Field.total.startingAt 5).span 0 = ⟨5, 7⟩ ∧ (layOutFrom 9 [Field.dial, Field.digit, Field.total]).2 = 7 ∧
      (layOutFrom 0 (layOutFrom 9 [Field.dial, Field.digit, Field.total]).1).2 = 7 := by
  obtain ⟨_, _, next, stop, again⟩ := fields_follow_one_another 9 [Field.dial, Field.digit, Field.total]
  obtain ⟨same, span⟩ := next 1 Field.total _ _ rfl rfl rfl (by decide)
  exact ⟨same ▸ span, stop, ((again 0).2 (by simp)).trans stop⟩

end SpaceLink
