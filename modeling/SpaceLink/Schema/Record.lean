import SpaceLink.Json.Reader

/-!
Records in JSON documents. A record is an object, in which a member it knows may stand once and others
are passed over unread, or an array with its members in order, of which the last may be missing.
-/

set_option autoImplicit false

namespace SpaceLink.Record

abbrev Members := String → Option Document

def members? (keys : List String) (d : Document) : Option Members :=
  match d with
  | .object members =>
    if keys.all fun key => (members.filter fun m => m.1.text == key).length ≤ 1 then
      some fun key => (members.find? fun m => m.1.text == key).map Prod.snd
    else none
  | .array items =>
    if items.length ≤ keys.length then some fun key => (keys.zip items).lookup key else none
  | _ => none

def required {α : Type} (m : Members) (key : String) (read : Document → Option α) : Option α :=
  (m key).bind read

-- A member that may be missing or `null`.
def optional {α : Type} (m : Members) (key : String) (read : Document → Option α) :
    Option (Option α) :=
  match m key with
  | none | some .null => some none
  | some d => (read d).map some

-- A member that may be missing but not `null`.
def withDefault {α : Type} (m : Members) (key : String) (default : α) (read : Document → Option α) :
    Option α :=
  match m key with
  | none => some default
  | some d => read d

def string? : Document → Option String
  | .str s => some s
  | _ => none

def bool? : Document → Option Bool
  | .bool b => some b
  | _ => none

def natural? (bits : Nat) : Document → Option Nat
  | .int n => if 0 ≤ n ∧ n < 2 ^ bits then some n.toNat else none
  | _ => none

def double? : Document → Option Binary64
  | .int n => some (Binary64.ofInt n)
  | .float x => some x
  | _ => none

def list? {α : Type} (read : Document → Option α) : Document → Option (List α)
  | .array items => items.mapM read
  | _ => none

def pair? {α : Type} (read : Document → Option α) : Document → Option (α × α)
  | .array [a, b] => do some (← read a, ← read b)
  | _ => none

def insertKey {κ α : Type} [Ord κ] (key : κ) (value : α) : List (κ × α) → List (κ × α)
  | [] => [(key, value)]
  | entry :: rest =>
    match compare key entry.1 with
    | .lt => (key, value) :: entry :: rest
    | .eq => (key, value) :: rest
    | .gt => entry :: insertKey key value rest

-- The members of an object in ascending order of their keys, of which the last written count.
def map? {κ α : Type} [Ord κ] (readKey : Document.Key → Option κ) (read : Document → Option α) :
    Document → Option (List (κ × α))
  | .object members => do
    let entries ← members.mapM fun m => do some (← readKey m.1, ← read m.2)
    some (entries.foldl (fun done entry => insertKey entry.1 entry.2 done) [])
  | _ => none

def textKey? (key : Document.Key) : Option String := some key.text

-- A key that is an integer of 64 bits, written without escapes.
def integerKey? (key : Document.Key) : Option Int :=
  if key.plain then
    match Document.number? key.text.toList with
    | some (.int n, []) => if n < 2 ^ 63 then some n else none
    | _ => none
  else none

end SpaceLink.Record
