import SpaceLink.DataType.Basic
import SpaceLink.Text.Blank

/-!
The types that names stand for, and the code books they see. Built-in names come first, then the types
of the user, then arrays. A code book that is missing may be found by a resolver when an operation
first needs it; once there it stays.
-/

set_option autoImplicit false

namespace SpaceLink

-- A code book, or what a resolver gives when one is needed.
structure Binding where
  book : Option CodeBook
  resolver : Option CodeBook

namespace Binding

def unbound : Binding := ⟨none, none⟩

def bind (kind : DictionaryKind) (b : Binding) (book : CodeBook) : Attempt Binding :=
  match b.book with
  | some _ => .error (.schema (.alreadyBound kind))
  | none => .ok { b with book := some book }

def withResolver (b : Binding) (gives : Option CodeBook) : Binding := { b with resolver := gives }

def orElse (b : Binding) (book : CodeBook) : Binding := { b with book := b.book <|> some book }

def isBound (b : Binding) : Bool := b.book.isSome

def visible (b : Binding) : Option CodeBook := b.book <|> b.resolver

end Binding

structure Registry where
  -- The types of the user, the latest first.
  custom : List CustomType
  commands : Binding
  events : Binding

namespace Registry

def empty : Registry := ⟨[], .unbound, .unbound⟩

def books (r : Registry) : Books := ⟨r.commands.visible, r.events.visible⟩

-- Whether an operation needs the book of a kind: without it, it fails for want of it.
def needs {α : Type} (kind : DictionaryKind) (books : Books) (op : Books → Attempt α) : Bool :=
  let without : Books := match kind with
    | .command => { books with commands := none }
    | .event => { books with events := none }
  match op without with
  | .error (.unboundDictionary k) => k == kind
  | _ => false

-- The outcome of an operation, and the registry after it: the books it needed stay.
def perform {α : Type} (r : Registry) (op : Books → Attempt α) : Attempt α × Registry :=
  let books := r.books
  let commands := if needs .command books op then { r.commands with book := books.commands } else r.commands
  let events := if needs .event books op then { r.events with book := books.events } else r.events
  (op books, { r with commands, events })

def codes : List Scalar := [.command, .event] ++ TimeCode.all.map .time

def isBuiltIn (name : String) : Bool :=
  Primitive.fixed.any (fun p => p.name == name) || codes.any fun s => s.name == name

-- The names of fixed types are taken.
def register (r : Registry) (c : CustomType) : Attempt Registry :=
  if isBuiltIn c.name then .error (.schema (.builtInType c.name))
  else .ok { r with custom := c :: r.custom }

def scalar? (r : Registry) (name : String) : Option Scalar :=
  match Primitive.ofName? name with
  | some p => some (.primitive p)
  | none =>
    match codes.find? fun s => s.name == name with
    | some s => some s
    | none => (r.custom.find? fun c => c.name == name).map .custom

def arraySpec (name : String) : Attempt (Option (String × Nat)) :=
  let text := name.toList
  match Text.cutAt '[' text with
  | none => .ok none
  | some (base, inside) =>
    match Text.cutAt ']' inside with
    | none => .error (.arraySpec (.unterminated name))
    | some (count, rest) =>
      if !rest.isEmpty || base.isEmpty then .error (.arraySpec (.misplaced name))
      else
        match Numeral.integer? 10 (Text.trimmed count) with
        | some n =>
          if 0 < n ∧ n < 2 ^ 63 then .ok (some (String.ofList base, n.toNat))
          else .error (.arraySpec (.count name))
        | none => .error (.arraySpec (.count name))

def get (r : Registry) (text : String) : Attempt DataType :=
  let name := Text.trim text
  match r.scalar? name with
  | some s => .ok (.scalar s)
  | none => do
    match ← arraySpec name with
    | none => .error (.unknownType name)
    | some (base, count) =>
      match r.scalar? (Text.trim base) with
      | some element => .ok (.array ⟨element, count⟩)
      | none => .error (.arraySpec (.element name))

end Registry

end SpaceLink
