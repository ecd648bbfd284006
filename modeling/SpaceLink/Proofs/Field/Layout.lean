import SpaceLink.Field.Layout

/-!
The reach of a list of fields: no field ends behind it, and it is no farther than that asks for. The end
that a layout gives is another one, that of the last field.
-/

set_option autoImplicit false

namespace SpaceLink

theorem reach_grows (fields : List Field) (start : Nat) :
    start ≤ fields.foldl (fun reach f => max reach (f.span 0).stop) start := by
  induction fields generalizing start with
  | nil => exact Nat.le_refl start
  | cons f rest ih => exact Nat.le_trans (Nat.le_max_left _ _) (ih (max start (f.span 0).stop))

theorem stop_le_reach (fields : List Field) (start : Nat) (f : Field) (member : f ∈ fields) :
    (f.span 0).stop ≤ fields.foldl (fun reach f => max reach (f.span 0).stop) start := by
  induction fields generalizing start with
  | nil => cases member
  | cons g rest ih =>
      rw [List.foldl_cons]
      rcases List.mem_cons.mp member with same | later
      · subst same
        exact Nat.le_trans (Nat.le_max_right start _) (reach_grows rest _)
      · exact ih _ later

theorem stop_le_farthest (fields : List Field) (f : Field) (member : f ∈ fields) : (f.span 0).stop ≤ farthest fields :=
  stop_le_reach fields 0 f member

theorem reach_le (fields : List Field) (start bound : Nat) (near : start ≤ bound)
    (inside : ∀ f ∈ fields, (f.span 0).stop ≤ bound) :
    fields.foldl (fun reach f => max reach (f.span 0).stop) start ≤ bound := by
  induction fields generalizing start with
  | nil => exact near
  | cons f rest ih =>
      apply ih _ (Nat.max_le.mpr ⟨near, inside f List.mem_cons_self⟩)
      exact fun g later => inside g (List.mem_cons_of_mem _ later)

theorem farthest_le_iff (fields : List Field) (bound : Nat) :
    farthest fields ≤ bound ↔ ∀ f ∈ fields, (f.span 0).stop ≤ bound := by
  constructor
  · exact fun near f member => Nat.le_trans (stop_le_farthest fields f member) near
  · exact reach_le fields 0 bound (Nat.zero_le bound)

def lastStop (fields : List Field) : Nat := (fields.getLast?.map fun f => (f.span 0).stop).getD 0

theorem lay_out_stop (before : Span) (fields : List Field) :
    (layOut before fields).2 = (((layOut before fields).1.getLast?).map fun f => (f.span 0).stop).getD before.stop := by
  induction fields generalizing before with
  | nil => rfl
  | cons f rest ih =>
      simp only [layOut, ih, List.getLast?_cons]
      cases (layOut ((f.place before).span 0) rest).1.getLast? <;> rfl

theorem lay_out_from_zero_stop (fields : List Field) : (layOutFrom 0 fields).2 = lastStop (layOutFrom 0 fields).1 :=
  lay_out_stop ⟨0, 0⟩ fields

theorem last_stop_le_farthest (fields : List Field) : lastStop fields ≤ farthest fields := by
  simp only [lastStop]
  cases last : fields.getLast? with
  | none => exact Nat.zero_le _
  | some f => exact stop_le_farthest fields f (List.mem_of_getLast? last)

end SpaceLink
