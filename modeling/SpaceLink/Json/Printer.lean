import SpaceLink.Json.Basic
import SpaceLink.Number.Layout

/-!
Compact JSON text. Numbers that are not finite are written `null`; in strings the quote, the backslash
and the control characters are escaped and nothing else.
-/

set_option autoImplicit false

namespace SpaceLink.Json

def numberText (x : Binary64) : String :=
  if x.isFinite then FloatLayout.json.render x else "null"

def escapedChar (c : Char) : List Char :=
  if c = '"' then ['\\', '"']
  else if c = '\\' then ['\\', '\\']
  else if c = '\x08' then ['\\', 'b']
  else if c = '\x0c' then ['\\', 'f']
  else if c = '\n' then ['\\', 'n']
  else if c = '\r' then ['\\', 'r']
  else if c = '\t' then ['\\', 't']
  else if c.toNat < 32 then ['\\', 'u'] ++ Numeral.padded 16 4 c.toNat
  else [c]

def stringText (s : String) : String :=
  String.ofList (['"'] ++ s.toList.flatMap escapedChar ++ ['"'])

mutual

def render : Json → String
  | .null => "null"
  | .bool true => "true"
  | .bool false => "false"
  | .int n => Numeral.signed n
  | .float x => numberText x
  | .str s => stringText s
  | .array items => "[" ++ String.intercalate "," (renderItems items) ++ "]"
  | .object members => "\x7b" ++ String.intercalate "," (renderMembers members) ++ "\x7d"

def renderItems : List Json → List String
  | [] => []
  | j :: rest => render j :: renderItems rest

def renderMembers : List (String × Json) → List String
  | [] => []
  | (key, j) :: rest => (stringText key ++ ":" ++ render j) :: renderMembers rest

end

end SpaceLink.Json
