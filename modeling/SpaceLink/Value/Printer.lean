import SpaceLink.Value
import SpaceLink.Json.Printer
import SpaceLink.Time.Rfc3339

/-!
Values as text and as JSON. In text a truth value is a word and a list stands in brackets; in JSON
times, commands and events are strings.
-/

set_option autoImplicit false

namespace SpaceLink.Value

mutual

def render : Value → String
  | .int n => Numeral.signed n
  | .float x => FloatLayout.plain.render x
  | .str s => s
  | .bool true => "True"
  | .bool false => "False"
  | .time t => Rfc3339.render t
  | .list items => "[" ++ String.intercalate ", " (renderItems items) ++ "]"
  | .command r => r.name
  | .event r => r.name

def renderItems : List Value → List String
  | [] => []
  | v :: rest => render v :: renderItems rest

end

mutual

def toJson : Value → Json
  | .int n => .int n
  | .float x => .float x
  | .str s => .str s
  | .bool b => .bool b
  | .time t => .str (Rfc3339.render t)
  | .list items => .array (toJsonItems items)
  | .command r => .str r.name
  | .event r => .str r.name

def toJsonItems : List Value → List Json
  | [] => []
  | v :: rest => toJson v :: toJsonItems rest

end

def jsonText (v : Value) : String := v.toJson.render

mutual

-- Every integer in the value is one that a JSON document can hold: signed or unsigned 64 bits.
def fitsDocument : Value → Bool
  | .int n => decide (-2 ^ 63 ≤ n) && decide (n < 2 ^ 64)
  | .list items => fitDocument items
  | _ => true

def fitDocument : List Value → Bool
  | [] => true
  | v :: rest => fitsDocument v && fitDocument rest

end

end SpaceLink.Value
