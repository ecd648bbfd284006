import SpaceLink.Packet.Definition
import SpaceLink.Text.Pieces

/-!
The fields of a packet as rows of quoted cells. A quote in a cell is written twice; the end of the last
byte is exclusive. A dictionary is written as one file for each packet, into a directory that has no
directories in it.
-/

set_option autoImplicit false

namespace SpaceLink.Csv

def cell (text : String) : List Char :=
  '"' :: text.toList.flatMap (fun c => if c = '"' then ['"', '"'] else [c]) ++ ['"']

def row (cells : List String) : List Char := List.intercalate [','] (cells.map cell) ++ ['\n']

def heading : List String :=
  ["Name", "First Byte", "Last Byte", "Bit Mask", "Endian", "Type", "Description", "Values"]

def orderText (f : Field) : String :=
  match f.type.primitive?.bind Primitive.order? with
  | some .msb => "MSB"
  | some .lsb => "LSB"
  | none => ""

def valuesText (f : Field) : String :=
  match f.enumeration with
  | none => ""
  | some e =>
    String.intercalate "\n" (e.entries.map fun entry => s!"{Numeral.signed entry.1}: {entry.2}")

def onOneLine (text : String) : String := text.map fun c => if c = '\n' then ' ' else c

def cells (f : Field) : List String :=
  let span := f.span 0
  [f.name, Numeral.decimal span.start, Numeral.decimal span.stop,
    (f.mask.map fun mask => hexText mask.toNat).getD "", orderText f, f.type.name,
    onOneLine (f.desc.getD ""), valuesText f]

def render (d : PacketDefinition) : String :=
  String.ofList (row heading ++ d.fields.flatMap fun f => row (cells f))

def longestFileName : Nat := 255

inductive Place where
  | inside (name : String)
  | outside
  | nowhere

-- A path that starts at the root or steps upward leads out of the directory.
def place (path : String) : Place :=
  match (Text.pieces ['/'] path.toList).reverse with
  | [] => .nowhere
  | file :: steps =>
    let name := String.ofList file
    if path.toList.contains '\x00' || decide (longestFileName < name.utf8ByteSize) then .nowhere
    else if !steps.all fun step => step.isEmpty || step == ['.'] || step == ['.', '.'] then .nowhere
    else if steps.getLast? == some [] || steps.contains ['.', '.'] then .outside
    else .inside name

-- The files of a dictionary in its directory. A file replaces an earlier one of the same name.
def files (packets : PacketDictionary) : Attempt (List (String × String)) := do
  let written ← packets.entries.mapM fun d => do
    let path := d.name ++ ".csv"
    match place path with
    | .inside name => .ok (some (name, render d))
    | .outside => .ok none
    | .nowhere => .error (.file path)
  .ok (written.filterMap id)

end SpaceLink.Csv
