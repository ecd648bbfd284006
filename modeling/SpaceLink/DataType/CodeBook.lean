import SpaceLink.Bytes
import SpaceLink.Fault

/-!
Sixteen-bit numbers that stand for commands or events. Which names they have is in a code book; the
two books may be missing, and an operation that needs a missing one fails.
-/

set_option autoImplicit false

namespace SpaceLink

abbrev CodeBook := List Reference

namespace CodeBook

def ofName? (book : CodeBook) (name : String) : Option Reference := book.find? fun r => r.name == name

def ofNumber? (book : CodeBook) (number : UInt16) : Option Reference :=
  book.find? fun r => r.number == number

end CodeBook

structure Books where
  commands : Option CodeBook
  events : Option CodeBook

namespace Books

def none : Books := ⟨.none, .none⟩

def commandBook (books : Books) : Attempt CodeBook :=
  match books.commands with
  | some book => .ok book
  | .none => .error (.unboundDictionary .command)

def eventBook (books : Books) : Attempt CodeBook :=
  match books.events with
  | some book => .ok book
  | .none => .error (.unboundDictionary .event)

end Books

namespace Code

def spell (number : UInt16) : Bytes := Bytes.big 2 number.toNat

def number? (n : Int) : Option UInt16 :=
  if 0 ≤ n ∧ n < 2 ^ 16 then some (UInt16.ofNat n.toNat) else none

def read (bytes : Bytes) : Attempt UInt16 :=
  match bytes with
  | high :: low :: _ => .ok (UInt16.ofNat (Bytes.ofBig [high, low]))
  | _ => .error (.notEnoughData bytes.length 2)

-- A number has to be that of a command.
def encodeCommand (books : Books) (v : Value) : Attempt Bytes :=
  match v with
  | .command r => .ok (spell r.number)
  | .str name => do
    match (← books.commandBook).ofName? name with
    | some r => .ok (spell r.number)
    | none => .error (.unknownSymbol (.command name))
  | .int n =>
    match number? n with
    | none => .error (.outOfRange (.opcode n))
    | some number => do
      match (← books.commandBook).ofNumber? number with
      | some _ => .ok (spell number)
      | none => .error (.unknownSymbol (.opcode number.toNat))
  | v => .error (.typeMismatch "CMD16" .commandName (.kind v.kind))

def decodeCommand (books : Books) (bytes : Bytes) (raw : Bool) : Attempt Value := do
  let number ← read bytes
  if raw then .ok (.int number.toNat)
  else
    match (← books.commandBook).ofNumber? number with
    | some r => .ok (.command r)
    | none => .error (.unknownSymbol (.opcode number.toNat))

-- Any number may be that of an event.
def encodeEvent (books : Books) (v : Value) : Attempt Bytes :=
  match v with
  | .event r => .ok (spell r.number)
  | .str name => do
    match (← books.eventBook).ofName? name with
    | some r => .ok (spell r.number)
    | none => .error (.unknownSymbol (.event name))
  | .int n =>
    match number? n with
    | some number => .ok (spell number)
    | none => .error (.outOfRange (.eventCode n))
  | v => .error (.typeMismatch "EVR16" .eventName (.kind v.kind))

-- A number without a name is its own value.
def decodeEvent (books : Books) (bytes : Bytes) (raw : Bool) : Attempt Value := do
  let number ← read bytes
  if raw then .ok (.int number.toNat)
  else
    match (← books.eventBook).ofNumber? number with
    | some r => .ok (.event r)
    | none => .ok (.int number.toNat)

end Code

end SpaceLink
