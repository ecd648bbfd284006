import SpaceLink.Packet.Csv
import SpaceLink.Proofs.Field.Names
import SpaceLink.Proofs.Text.Joining

/-!
The rows of a packet's fields and a reader of quoted cells, which knows nothing of packets. What it reads between quotes
is the cell's text, whatever the text holds, so the rows come back one by one with their cells.
-/

set_option autoImplicit false

namespace SpaceLink.Csv

-- Where a reader stands: before a cell, in one without quotes, between quotes, or behind a quote that ends the cell
-- unless another one follows.
inductive Standing where
  | start | bare | quoted | closed
deriving DecidableEq

-- The rows read, then the cells of the row that is being read, then the text of its last cell.
structure Reader where
  rows : List (List String)
  cells : List String
  text : List Char
  standing : Standing
deriving DecidableEq

namespace Reader

def endCell (r : Reader) : Reader :=
  { r with cells := r.cells ++ [String.ofList r.text], text := [], standing := .start }

def endRow (r : Reader) : Reader :=
  { r with rows := r.rows ++ [r.endCell.cells], cells := [], text := [], standing := .start }

def append (r : Reader) (c : Char) (standing : Standing) : Reader := { r with text := r.text ++ [c], standing }

-- Between quotes only a quote is not text. Elsewhere a quote stands at the start of a cell, or behind another one.
def next (r : Reader) (c : Char) : Option Reader :=
  match r.standing with
  | .quoted => some (if c = '"' then { r with standing := .closed } else r.append c .quoted)
  | standing =>
    if c = ',' then some r.endCell
    else if c = '\n' then some r.endRow
    else if c = '"' then
      match standing with
      | .start => some { r with standing := .quoted }
      | .closed => some (r.append c .quoted)
      | _ => none
    else if standing = .closed then none
    else some (r.append c .bare)

-- The last row may lack its newline.
def finish (r : Reader) : Option (List (List String)) :=
  match r.standing with
  | .quoted => none
  | .start => some (if r.cells.isEmpty then r.rows else r.endRow.rows)
  | _ => some r.endRow.rows

def run (r : Reader) (input : List Char) : Option Reader := input.foldlM next r

theorem run_append (r middle : Reader) (front rest : List Char) (first : r.run front = some middle) :
    r.run (front ++ rest) = middle.run rest := by
  rw [run, List.foldlM_append, show front.foldlM next r = some middle from first]
  rfl

theorem run_cons (r middle : Reader) (c : Char) (rest : List Char) (first : r.next c = some middle) :
    r.run (c :: rest) = middle.run rest := by
  rw [run, List.foldlM_cons, first]
  rfl

end Reader

def read (text : String) : Option (List (List String)) :=
  (Reader.run ⟨[], [], [], .start⟩ text.toList).bind Reader.finish

section Reading

variable (rows : List (List String)) (before : List String)

-- One character of a cell's text, a quote as two.
theorem run_quoted (text : List Char) (c : Char) :
    Reader.run ⟨rows, before, text, .quoted⟩ (if c = '"' then ['"', '"'] else [c]) =
      some ⟨rows, before, text ++ [c], .quoted⟩ := by
  by_cases quote : c = '"'
  · subst quote
    rfl
  · rw [if_neg quote, Reader.run_cons _ ⟨rows, before, text ++ [c], .quoted⟩]
    · rfl
    · simp [Reader.next, Reader.append, quote]

theorem run_text (text more : List Char) :
    Reader.run ⟨rows, before, text, .quoted⟩ (more.flatMap fun c => if c = '"' then ['"', '"'] else [c]) =
      some ⟨rows, before, text ++ more, .quoted⟩ := by
  induction more generalizing text with
  | nil => simp [Reader.run]
  | cons c rest ih =>
      rw [List.flatMap_cons, Reader.run_append _ _ _ _ (run_quoted rows before text c), ih, List.append_assoc]
      rfl

theorem run_cell (text : String) :
    Reader.run ⟨rows, before, [], .start⟩ (cell text) = some ⟨rows, before, text.toList, .closed⟩ := by
  rw [cell, List.cons_append, Reader.run_cons _ ⟨rows, before, [], .quoted⟩ _ _ rfl,
    Reader.run_append _ _ _ _ (run_text rows before [] text.toList)]
  rfl

theorem run_row (cells : List String) (filled : cells ≠ []) :
    Reader.run ⟨rows, before, [], .start⟩ (row cells) = some ⟨rows ++ [before ++ cells], [], [], .start⟩ := by
  unfold row
  induction cells generalizing before with
  | nil => exact absurd rfl filled
  | cons text rest ih =>
      cases rest with
      | nil =>
          rw [List.map_cons, List.map_nil, List.intercalate_singleton,
            Reader.run_append _ _ _ _ (run_cell rows before text), Reader.run_cons _ _ _ _ rfl]
          simp [Reader.run, Reader.endRow, Reader.endCell]
      | cons second rest =>
          have further := ih (before ++ [text]) (by simp)
          rw [List.map_cons, List.map_cons, Text.joined_cons, List.append_assoc,
            Reader.run_append _ _ _ _ (run_cell rows before text), List.cons_append,
            Reader.run_cons _ ⟨rows, before ++ [text], [], .start⟩]
          · simpa using further
          · simp [Reader.next, Reader.endCell]

theorem run_rows (more : List (List String)) (filled : ∀ cells ∈ more, cells ≠ []) :
    Reader.run ⟨rows, [], [], .start⟩ (more.flatMap row) = some ⟨rows ++ more, [], [], .start⟩ := by
  induction more generalizing rows with
  | nil => simp [Reader.run]
  | cons cells rest ih =>
      have first := run_row rows [] cells (filled cells List.mem_cons_self)
      rw [List.flatMap_cons, Reader.run_append _ _ _ _ first,
        ih _ fun others later => filled others (List.mem_cons_of_mem _ later), List.append_assoc]
      rfl

end Reading

-- A row without cells would be read as one with an empty cell.
theorem read_rows (rows : List (List String)) (filled : ∀ cells ∈ rows, cells ≠ []) :
    read (String.ofList (rows.flatMap row)) = some rows := by
  rw [read, String.toList_ofList, run_rows [] rows filled]
  rfl

-- Cells without quotes are read as well, but no quote within them.
example : read "a,\"b \"\"c\"\"\nd\"\n" = some [["a", "b \"c\"\nd"]] ∧ read "a\"b\n" = none := by decide

-- The cell of a mask: in hexadecimal, or empty.
inductive MaskCell : Option UInt64 → String → Prop where
  | absent : MaskCell none ""
  | shown (mask : UInt64) : MaskCell (some mask) ("0x" ++ String.ofList (Numeral.digits 16 mask.toNat))

-- The cell of a byte order, which arrays, times and the like do not have, nor single bytes and texts.
inductive OrderCell : DataType → String → Prop where
  | most (p : Primitive) (ordered : p.order? = some .msb) : OrderCell (.scalar (.primitive p)) "MSB"
  | least (p : Primitive) (ordered : p.order? = some .lsb) : OrderCell (.scalar (.primitive p)) "LSB"
  | absent (type : DataType) (unordered : ∀ p, type = .scalar (.primitive p) → p.order? = none) : OrderCell type ""

-- The cell of an enumeration: a line for each code, ascending.
inductive ValuesCell : Option Enumeration → String → Prop where
  | absent : ValuesCell none ""
  | lines (e : Enumeration) (listed : List (Int × String)) (ascending : listed.Pairwise fun a b => a.1 < b.1)
      (complete : ∀ code name, (code, name) ∈ listed ↔ e.name? code = some name) :
      ValuesCell (some e)
        (String.intercalate "\n" (listed.map fun entry => Numeral.signed entry.1 ++ ": " ++ entry.2))

inductive Describes (f : Field) : List String → Prop where
  | row (mask order values : String) (masked : MaskCell f.mask mask) (ordered : OrderCell f.type order)
      (enumerated : ValuesCell f.enumeration values) :
      Describes f
        [f.name, Numeral.decimal (f.span 0).start, Numeral.decimal (f.span 0).stop, mask, order, f.type.name,
          (f.desc.getD "").map (fun c => if c = '\n' then ' ' else c), values]

section Cells

variable (f : Field)

theorem mask_cell : MaskCell f.mask ((f.mask.map fun mask => hexText mask.toNat).getD "") := by
  cases f.mask with
  | none => exact .absent
  | some mask => exact .shown mask

theorem order_cell : OrderCell f.type (orderText f) := by
  unfold orderText
  cases f.type with
  | array a => exact .absent _ nofun
  | scalar s =>
      cases s with
      | primitive p =>
          simp only [DataType.primitive?, Option.bind_some]
          cases ordered : p.order? with
          | none => exact .absent _ fun q same => by cases same; exact ordered
          | some order =>
              cases order with
              | msb => exact .most p ordered
              | lsb => exact .least p ordered
      | _ => exact .absent _ nofun

theorem values_cell : ValuesCell f.enumeration (valuesText f) := by
  unfold valuesText
  cases f.enumeration with
  | none => exact .absent
  | some e =>
      exact .lines e e.entries e.ascending fun code name => ⟨e.name_of_entry code name, e.entry_of_name code name⟩

theorem cells_describe : Describes f (cells f) :=
  .row _ _ _ (mask_cell f) (order_cell f) (values_cell f)

end Cells

theorem rendered_rows_read (d : PacketDefinition) :
    read (render d) = some (heading :: d.fields.map cells) ∧ ∀ f, Describes f (cells f) ∧ (cells f).length = 8 := by
  have whole : render d = String.ofList ((heading :: d.fields.map cells).flatMap row) := by
    rw [render, List.flatMap_cons, List.flatMap_map]
  refine ⟨?_, fun f => ⟨cells_describe f, rfl⟩⟩
  rw [whole]
  apply read_rows
  intro row member
  rcases List.mem_cons.mp member with rfl | described
  · exact List.cons_ne_nil _ _
  · obtain ⟨f, -, rfl⟩ := List.mem_map.mp described
    exact List.cons_ne_nil _ _

end SpaceLink.Csv
