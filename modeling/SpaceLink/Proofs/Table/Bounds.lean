import SpaceLink.Proofs.Field.Layout
import SpaceLink.Proofs.Field.Shortage
import SpaceLink.Table.Basic

/-!
The bounds of a row. A row is as wide as its last column reaches, which is not far enough where an
earlier column reaches farther. Bytes are missing in such a row, always, and in no other.
-/

set_option autoImplicit false

namespace SpaceLink.TableDefinition

open Attempt

-- A definition made of columns. What it is given later, such as a delimiter or a size, leaves them alone.
def Accepted (d : TableDefinition) : Prop :=
  ∃ books header columns made, ofColumns books d.name header columns = .ok made ∧
    d.header = made.header ∧ d.headerBytes = made.headerBytes ∧ d.columns = made.columns ∧ d.rowBytes = made.rowBytes

-- The columns and the width of the header row, or those of a data row.
def HasRow (d : TableDefinition) (columns : List Field) (nbytes : Nat) : Prop :=
  (columns = d.header ∧ nbytes = d.headerBytes) ∨ (columns = d.columns ∧ nbytes = d.rowBytes)

theorem columns_listed (books : Books) (table : String) (seen : List String) (columns : List Field)
    (passed : checkColumns books table seen columns = .ok ()) : Field.Listed books seen columns := by
  induction columns generalizing seen with
  | nil => exact .nil seen
  | cons f rest ih =>
      obtain ⟨⟨⟩, checked, others⟩ := (Attempt.bind_ok_iff _ _ _).mp passed
      by_cases repeated : seen.contains f.name = true
      · rw [if_pos repeated] at others
        cases others
      · rw [if_neg repeated] at others
        exact .cons seen f rest checked (by simpa using repeated) (ih (f.name :: seen) others)

theorem sound_of_columns (books : Books) (table : String) (columns : List Field)
    (passed : checkColumns books table [] columns = .ok ()) : ∀ f ∈ columns, f.Sound := by
  obtain ⟨checked, _⟩ := Field.listed_members books [] columns (columns_listed books table [] columns passed)
  exact fun f member => f.sound_of_check books (checked f member)

theorem accepted_row (d : TableDefinition) (accepted : d.Accepted) (columns : List Field) (nbytes : Nat)
    (row : d.HasRow columns nbytes) : (∀ f ∈ columns, f.Sound) ∧ nbytes = lastStop columns := by
  obtain ⟨books, header, data, made, done, sameHeader, sameHeaderBytes, sameColumns, sameRowBytes⟩ := accepted
  simp only [ofColumns] at done
  by_cases empty : data.isEmpty = true
  · rw [if_pos empty] at done
    cases done
  · rw [if_neg empty] at done
    obtain ⟨⟨⟩, headerPassed, rest⟩ := (Attempt.bind_ok_iff _ _ _).mp done
    obtain ⟨⟨⟩, columnsPassed, built⟩ := (Attempt.bind_ok_iff _ _ _).mp rest
    cases built
    rcases row with ⟨rfl, rfl⟩ | ⟨rfl, rfl⟩
    · rw [sameHeader, sameHeaderBytes]
      exact ⟨sound_of_columns books d.name _ headerPassed, lay_out_from_zero_stop header⟩
    · rw [sameColumns, sameRowBytes]
      exact ⟨sound_of_columns books d.name _ columnsPassed, lay_out_from_zero_stop data⟩

section Columns

variable (books : Books) (columns : List Field) (sound : ∀ f ∈ columns, f.Sound)
variable (builtIn : ∀ f ∈ columns, f.type.isBuiltIn = true)

include sound builtIn in
theorem write_values_enough (values : List Value) (row : Bytes) (inside : ∀ f ∈ columns, (f.span 0).stop ≤ row.length) :
    Enough (writeValues books columns values row) := by
  induction columns generalizing values row with
  | nil => cases values <;> exact enough_ok row
  | cons f rest ih =>
      cases values with
      | nil => exact enough_ok row
      | cons v values =>
          have own := List.mem_cons_self (a := f) (l := rest)
          apply enough_bind _ _ (f.write_enough books (builtIn f own) row 0 v (inside f own))
          intro out written
          obtain ⟨_, _, _, painted⟩ := f.painted_of_write books (sound f own) (builtIn f own) row out 0 v
            (f.near_start (sound f own)) written
          apply ih
          · exact fun g later => sound g (List.mem_cons_of_mem _ later)
          · exact fun g later => builtIn g (List.mem_cons_of_mem _ later)
          · intro g later
            rw [painted.length]
            exact inside g (List.mem_cons_of_mem _ later)

include sound builtIn in
-- The values up to the first column outside of the row are written before that one fails.
theorem write_values_short (values : List Value) (row : Bytes) (counted : values.length = columns.length)
    (encodable : ∀ pair ∈ columns.zip values, ∃ new, pair.1.image books pair.2 = .ok new) (f : Field)
    (first : columns.find? (fun g => decide (row.length < (g.span 0).stop)) = some f) :
    writeValues books columns values row = .error (.notEnoughData row.length (f.span 0).stop) := by
  induction columns generalizing values row with
  | nil => cases first
  | cons g rest ih =>
      cases values with
      | nil => cases counted
      | cons v values =>
          have own := List.mem_cons_self (a := g) (l := rest)
          by_cases outside : row.length < (g.span 0).stop
          · rw [List.find?_cons_of_pos (by simpa using outside)] at first
            cases first
            exact Attempt.bind_of_error _ _ _ (f.write_short books row 0 v outside)
          · rw [List.find?_cons_of_neg (by simpa using outside)] at first
            obtain ⟨new, imaged⟩ := encodable (g, v) List.mem_cons_self
            obtain ⟨out, written, painted⟩ := g.write_of_image books (sound g own) (builtIn g own) row 0 v new
              (g.near_start (sound g own)) (Nat.le_of_not_lt outside) imaged
            simp only [writeValues]
            rw [Attempt.bind_of_ok _ _ out written, ← painted.length]
            apply ih
            · exact fun other later => sound other (List.mem_cons_of_mem _ later)
            · exact fun other later => builtIn other (List.mem_cons_of_mem _ later)
            · exact Nat.succ.inj counted
            · exact fun pair later => encodable pair (List.mem_cons_of_mem _ later)
            · rw [painted.length]
              exact first

theorem decode_columns_short (row : Bytes) (raw : Bool) (f : Field) (member : f ∈ columns)
    (outside : row.length < (f.span 0).stop) (values : List Value) :
    columns.mapM (fun g => g.decode books row raw none) ≠ .ok values := by
  intro done
  obtain ⟨v, decoded⟩ := Attempt.ok_of_map _ columns values done f member
  rw [Field.decode, f.decode_at_short books row 0 raw none outside] at decoded
  cases decoded

end Columns

theorem encode_row_enough (books : Books) (columns : List Field) (nbytes : Nat) (sound : ∀ f ∈ columns, f.Sound)
    (builtIn : ∀ f ∈ columns, f.type.isBuiltIn = true) (inside : ∀ f ∈ columns, (f.span 0).stop ≤ nbytes)
    (values : List Value) : Enough (encodeRow books columns nbytes values) := by
  simp only [encodeRow]
  by_cases counted : values.length = columns.length
  · rw [if_pos counted]
    apply write_values_enough books columns sound builtIn
    simpa using inside
  · rw [if_neg counted]
    simp

theorem decode_row_enough (books : Books) (d : TableDefinition) (columns : List Field) (nbytes : Nat)
    (sound : ∀ f ∈ columns, f.Sound) (builtIn : ∀ f ∈ columns, f.type.isBuiltIn = true)
    (unwrapped : ∀ f ∈ columns, ¬ f.type.Wraps) (inside : ∀ f ∈ columns, (f.span 0).stop ≤ nbytes) (raw : Bool)
    (bytes : Bytes) :
    Enough (d.decodeRow books columns nbytes raw bytes) := by
  simp only [decodeRow]
  by_cases cut : (bytes.take nbytes).length < nbytes
  · rw [if_pos cut]
    simp
  · rw [if_neg cut]
    apply enough_each
    intro f member
    have near := inside f member
    exact f.decode_at_enough books (builtIn f member) (unwrapped f member) _ 0 raw none (f.near_start (sound f member))
      (by omega)

theorem row_holds_columns_iff (d : TableDefinition) (accepted : d.Accepted) (columns : List Field) (nbytes : Nat)
    (row : d.HasRow columns nbytes) (builtIn : ∀ f ∈ columns, f.type.isBuiltIn = true) :
    nbytes = lastStop columns ∧
    ((∀ f ∈ columns, (f.span 0).stop ≤ nbytes) ↔ lastStop columns = farthest columns) ∧
    (lastStop columns = farthest columns →
      (∀ books values, Enough (encodeRow books columns nbytes values)) ∧
      ((∀ f ∈ columns, ¬ f.type.Wraps) → ∀ books raw bytes, Enough (d.decodeRow books columns nbytes raw bytes))) ∧
    (lastStop columns ≠ farthest columns →
      (∀ books (values : List Value), values.length = columns.length →
        (∀ pair ∈ columns.zip values, ∃ new, pair.1.image books pair.2 = .ok new) →
        ∃ f ∈ columns, encodeRow books columns nbytes values = .error (.notEnoughData nbytes (f.span 0).stop)) ∧
      ∀ books raw bytes values, d.decodeRow books columns nbytes raw bytes ≠ .ok values) := by
  obtain ⟨sound, rfl⟩ := d.accepted_row accepted columns nbytes row
  have holds : (∀ f ∈ columns, (f.span 0).stop ≤ lastStop columns) ↔ lastStop columns = farthest columns := by
    rw [← farthest_le_iff]
    have near := last_stop_le_farthest columns
    omega
  refine ⟨rfl, holds, ?_, ?_⟩
  · intro whole
    have inside := holds.mpr whole
    exact ⟨fun books values => encode_row_enough books columns _ sound builtIn inside values,
      fun unwrapped books raw bytes => decode_row_enough books d columns _ sound builtIn unwrapped inside raw bytes⟩
  · intro narrow
    cases first : columns.find? (fun g => decide (lastStop columns < (g.span 0).stop)) with
    | none =>
        refine absurd (holds.mp fun f member => ?_) narrow
        simpa using List.find?_eq_none.mp first f member
    | some f =>
        have member := List.mem_of_find?_eq_some first
        have outside : lastStop columns < (f.span 0).stop := by simpa using List.find?_some first
        refine ⟨?_, ?_⟩
        · intro books values counted encodable
          refine ⟨f, member, ?_⟩
          have refused := write_values_short books columns sound builtIn values (List.replicate (lastStop columns) 0)
            counted encodable f (by simpa using first)
          simpa [encodeRow, counted] using refused
        · intro books raw bytes values done
          simp only [decodeRow] at done
          by_cases cut : (bytes.take (lastStop columns)).length < lastStop columns
          · rw [if_pos cut] at done
            cases done
          · rw [if_neg cut] at done
            refine decode_columns_short books columns _ raw f member ?_ values done
            rw [List.length_take]
            omega

def byteColumn (name : String) (byte : Nat) : Field :=
  { name
    type := .scalar (.primitive (.int ⟨false, .byte⟩))
    position := .single byte
    mask := none
    enumeration := none
    range := none
    conversion := none
    expr := none
    condition := none
    fixed := none
    units := none
    desc := none }

-- The column that stands first in the row is declared last.
def swapped : TableDefinition :=
  { name := "SWAPPED"
    delimiter := ","
    desc := none
    size := none
    header := []
    columns := [byteColumn "LATER" 4, byteColumn "FIRST" 0]
    headerBytes := 0
    rowBytes := 1 }

theorem swapped_accepted : swapped.Accepted :=
  ⟨.none, [], [byteColumn "LATER" 4, byteColumn "FIRST" 0], swapped, rfl, rfl, rfl, rfl, rfl⟩

theorem swapped_row_holds_no_values :
    (∃ f ∈ swapped.columns, encodeRow .none swapped.columns 1 [.int 7, .int 9] =
        .error (.notEnoughData 1 (f.span 0).stop)) ∧
      ∀ raw bytes values, swapped.decodeRow .none swapped.columns 1 raw bytes ≠ .ok values := by
  obtain ⟨_, _, _, narrow⟩ := row_holds_columns_iff swapped swapped_accepted _ _ (.inr ⟨rfl, rfl⟩) (by decide)
  obtain ⟨refused, undecoded⟩ := narrow (by decide)
  refine ⟨refused .none [.int 7, .int 9] rfl ?_, undecoded .none⟩
  intro pair member
  rcases List.mem_cons.mp member with rfl | later
  · exact ⟨[7], rfl⟩
  · rcases List.mem_singleton.mp later with rfl
    exact ⟨[9], rfl⟩

theorem accepted_row_too_narrow :
    ∃ d, ofColumns .none "SWAPPED" [] [byteColumn "LATER" 4, byteColumn "FIRST" 0] = .ok d ∧
      (∀ f ∈ d.columns, f.type.isBuiltIn = true) ∧
      d.columns.map (fun f => (f.span 0).stop) = [5, 1] ∧ d.rowBytes = 1 ∧
      encodeRow .none d.columns d.rowBytes [.int 7, .int 9] = .error (.notEnoughData 1 5) ∧
      d.decodeRow .none d.columns d.rowBytes false [9, 0, 0, 0, 7] = .error (.notEnoughData 1 5) :=
  ⟨swapped, rfl, by decide, rfl, rfl, rfl, rfl⟩

end SpaceLink.TableDefinition
