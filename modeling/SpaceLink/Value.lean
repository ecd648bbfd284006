import SpaceLink.Json.Basic
import SpaceLink.Time.Instant

/-!
Values read from and written to packets, commands and tables. Equality and order go across integers,
truth values and doubles, as their numbers; other kinds equal only their own.
-/

set_option autoImplicit false

namespace SpaceLink

structure Reference where
  name : String
  number : UInt16
deriving DecidableEq, Repr

inductive Value where
  | int (n : Int)
  | float (x : Binary64)
  | str (s : String)
  | bool (b : Bool)
  | time (t : Instant)
  | list (items : List Value)
  | command (r : Reference)
  | event (r : Reference)

inductive Value.Kind where
  | int | float | string | bool | time | list | command | event
deriving DecidableEq, Repr

def Value.Kind.name : Value.Kind → String
  | .int => "int"
  | .float => "float"
  | .string => "string"
  | .bool => "bool"
  | .time => "time"
  | .list => "list"
  | .command => "command"
  | .event => "evr"

namespace Value

def kind : Value → Kind
  | .int _ => .int
  | .float _ => .float
  | .str _ => .string
  | .bool _ => .bool
  | .time _ => .time
  | .list _ => .list
  | .command _ => .command
  | .event _ => .event

def exactInt? : Value → Option Int
  | .int n => some n
  | .bool b => some (if b then 1 else 0)
  | _ => none

-- The integer of a number; a double loses its fraction and is held to the 128-bit range.
def toInt? : Value → Option Int
  | .int n => some n
  | .bool b => some (if b then 1 else 0)
  | .float x => if x.isFinite then some x.toWide else none
  | _ => none

def toDouble? : Value → Option Binary64
  | .int n => some (Binary64.ofInt n)
  | .float x => some x
  | .bool b => some (Binary64.ofInt (if b then 1 else 0))
  | _ => none

def text? : Value → Option String
  | .str s => some s
  | _ => none

def time? : Value → Option Instant
  | .time t => some t
  | _ => none

def isNumeric : Value → Bool
  | .int _ | .float _ | .bool _ => true
  | _ => false

def isTrue : Value → Bool
  | .int n => n != 0
  | .float x => !x.isZero
  | .str s => !s.isEmpty
  | .bool b => b
  | .list items => !items.isEmpty
  | .time _ | .command _ | .event _ => true

mutual

-- Equality of values: numbers by their value, commands and events by their number.
def equal : Value → Value → Bool
  | .str a, .str b => a == b
  | .time a, .time b => a == b
  | .list a, .list b => equalItems a b
  | .command a, .command b => a.number == b.number
  | .event a, .event b => a.number == b.number
  | .float a, b => match b.toDouble? with
    | some b => a.eq b
    | none => false
  | a, .float b => match a.toDouble? with
    | some a => a.eq b
    | none => false
  | a, b => match a.exactInt?, b.exactInt? with
    | some a, some b => a == b
    | _, _ => false

def equalItems : List Value → List Value → Bool
  | [], [] => true
  | a :: as, b :: bs => equal a b && equalItems as bs
  | _, _ => false

end

-- The order of two values, if they have one: numbers, texts and times among themselves.
def compare? : Value → Value → Option Ordering
  | .str a, .str b => some (compare a b)
  | .time a, .time b => some (a.compare b)
  | a, b =>
    if a.isNumeric && b.isNumeric then
      match a.exactInt?, b.exactInt? with
      | some a, some b => some (compare a b)
      | _, _ => do (← a.toDouble?).compare? (← b.toDouble?)
    else none

end Value

end SpaceLink
