import SpaceLink.Fault
import SpaceLink.Number.Reader

/-!
Values read from words and from JSON.
-/

set_option autoImplicit false

namespace SpaceLink.Value

-- An integer in base ten, or in base sixteen or two after `0x` or `0b`; else a decimal; else text.
def ofWord (word : List Char) : Value :=
  let integer := match word with
    | '0' :: 'x' :: digits | '0' :: 'X' :: digits => Reader.integer? 16 digits
    | '0' :: 'b' :: digits | '0' :: 'B' :: digits => Reader.integer? 2 digits
    | digits => Reader.integer? 10 digits
  match integer with
  | some n => .int n
  | none =>
    match Reader.decimal? word with
    | some x => .float x
    | none => .str (String.ofList word)

mutual

-- Neither `null` nor an object is a value.
def ofJson : Json → Attempt Value
  | .bool b => .ok (.bool b)
  | .int n => .ok (.int n)
  | .float x => .ok (.float x)
  | .str s => .ok (.str s)
  | .array items => do .ok (.list (← ofJsonItems items))
  | .null => .error (.schema (.notValue .null))
  | .object members => .error (.schema (.notValue (.object members)))

def ofJsonItems : List Json → Attempt (List Value)
  | [] => .ok []
  | j :: rest => do
    let v ← ofJson j
    .ok (v :: (← ofJsonItems rest))

end

end SpaceLink.Value
