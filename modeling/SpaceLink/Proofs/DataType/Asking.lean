import SpaceLink.DataType.Registry
import SpaceLink.Proofs.Attempt
import SpaceLink.Proofs.DataType.Width

/-!
Operations that ask for a code book. They are known by their fault: where the book is missing, they fail for want of
it. Encoding a command asks about names and numbers, encoding an event about names, decoding asks unless it is raw.
-/

set_option autoImplicit false

namespace SpaceLink

namespace Attempt

variable {α β : Type} (kind : DictionaryKind)

def Wants (x : Attempt α) : Prop := x = .error (.unboundDictionary kind)

@[simp]
theorem wants_ok (a : α) : ¬ Wants kind (.ok a) := by
  rintro ⟨⟩

@[simp]
theorem wants_error_iff (fault : Fault) : Wants kind (.error fault : Attempt α) ↔ fault = .unboundDictionary kind := by
  simp [Wants]

theorem wants_bind_iff (x : Attempt α) (f : α → Attempt β) :
    Wants kind (x >>= f) ↔ Wants kind x ∨ ∃ a, x = .ok a ∧ Wants kind (f a) := by
  cases x with
  | error fault => simp [bind, Except.bind]
  | ok a => simp [bind, Except.bind]

theorem wants_bind_of_content (x : Attempt α) (f : α → Attempt β) (content : ∀ a, ¬ Wants kind (f a)) :
    Wants kind (x >>= f) ↔ Wants kind x := by
  rw [wants_bind_iff]
  exact ⟨fun either => either.elim id fun ⟨a, _, wants⟩ => absurd wants (content a), .inl⟩

@[simp]
theorem wants_map_iff (x : Attempt α) (f : α → β) : Wants kind (x.map f) ↔ Wants kind x := by
  cases x with
  | error fault => simp [Except.map]
  | ok a => simp [Except.map]

theorem wants_of_guard (c : Prop) [Decidable c] (fault : Fault) (x : Attempt α)
    (wants : Wants kind (if c then .error fault else x)) (other : fault ≠ .unboundDictionary kind) : Wants kind x := by
  by_cases holds : c
  · rw [if_pos holds, wants_error_iff] at wants
    exact absurd wants other
  · rwa [if_neg holds] at wants

theorem wants_each (f : α → Attempt β) (xs : List α) (wants : Wants kind (xs.mapM f)) :
    ∃ x ∈ xs, Wants kind (f x) := by
  obtain ⟨before, x, after, split, _, own⟩ := (each_error_iff f xs _).mp wants
  exact ⟨x, split ▸ List.mem_append_cons_self, own⟩

theorem wants_fold (f : β → α → Attempt β) (xs : List α) (start : β) (wants : Wants kind (xs.foldlM f start)) :
    ∃ x ∈ xs, ∃ b, Wants kind (f b x) := by
  induction xs generalizing start with
  | nil => exact absurd wants (wants_ok kind _)
  | cons x xs ih =>
      rw [List.foldlM_cons, wants_bind_iff] at wants
      rcases wants with first | ⟨b, _, rest⟩
      · exact ⟨x, List.mem_cons_self, start, first⟩
      · obtain ⟨z, member, own⟩ := ih b rest
        exact ⟨z, List.mem_cons_of_mem _ member, own⟩

end Attempt

open Attempt

namespace Books

def book? (books : Books) : DictionaryKind → Option CodeBook
  | .command => books.commands
  | .event => books.events

def without (books : Books) : DictionaryKind → Books
  | .command => { books with commands := .none }
  | .event => { books with events := .none }

theorem without_of_missing (books : Books) (kind : DictionaryKind) (missing : books.book? kind = .none) :
    books.without kind = books := by
  cases kind with
  | command => exact congrArg (fun book => Books.mk book books.events) missing.symm
  | event => exact congrArg (fun book => Books.mk books.commands book) missing.symm

theorem command_book_wants_iff (books : Books) (kind : DictionaryKind) :
    Wants kind (books.without kind).commandBook ↔ kind = .command := by
  cases kind with
  | command => simp [without, commandBook]
  | event => cases own : books.commands <;> simp [without, commandBook, own]

theorem event_book_wants_iff (books : Books) (kind : DictionaryKind) :
    Wants kind (books.without kind).eventBook ↔ kind = .event := by
  cases kind with
  | event => simp [without, eventBook]
  | command => cases own : books.events <;> simp [without, eventBook, own]

end Books

theorem Registry.needs_iff {α : Type} (kind : DictionaryKind) (books : Books) (op : Books → Attempt α) :
    Registry.needs kind books op = true ↔ Wants kind (op (books.without kind)) := by
  cases kind
  all_goals
    simp only [Registry.needs, Books.without]
    generalize op _ = outcome
    cases outcome with
    | ok a => simp
    | error fault => cases fault <;> simp

namespace DictionaryKind

-- The type of the numbers that the dictionary is about.
def codes : DictionaryKind → Scalar
  | .command => .command
  | .event => .event

-- What the encoding of a value asks about: names, and numbers that have to be those of commands.
def IsAsked : DictionaryKind → Value → Prop
  | _, .str _ => True
  | .command, .int n => 0 ≤ n ∧ n < 2 ^ 16
  | _, _ => False

end DictionaryKind

namespace Code

theorem number_none_iff (n : Int) : number? n = none ↔ ¬ (0 ≤ n ∧ n < 2 ^ 16) := by
  rw [number?]
  by_cases inside : 0 ≤ n ∧ n < 2 ^ 16
  · rw [if_pos inside]
    simpa using inside
  · rw [if_neg inside]
    simpa using inside

variable (books : Books) (kind : DictionaryKind)

theorem encode_command_wants_iff (v : Value) :
    Wants kind (encodeCommand (books.without kind) v) ↔ kind = .command ∧ DictionaryKind.IsAsked .command v := by
  cases v with
  | str name =>
      rw [encodeCommand, wants_bind_of_content, books.command_book_wants_iff]
      · simp [DictionaryKind.IsAsked]
      · intro book
        cases book.ofName? name <;> simp
  | int n =>
      rw [encodeCommand]
      cases number : number? n with
      | none =>
          have outside := (number_none_iff n).mp number
          simp only [wants_error_iff, reduceCtorEq, false_iff]
          exact fun asked => outside asked.2
      | some code =>
          have inside : 0 ≤ n ∧ n < 2 ^ 16 := Decidable.not_not.mp fun outside => by
            rw [(number_none_iff n).mpr outside] at number
            cases number
          rw [wants_bind_of_content, books.command_book_wants_iff]
          · exact ⟨fun same => ⟨same, inside⟩, And.left⟩
          · intro book
            cases book.ofNumber? code <;> simp
  | _ => simp [encodeCommand, DictionaryKind.IsAsked]

theorem encode_event_wants_iff (v : Value) :
    Wants kind (encodeEvent (books.without kind) v) ↔ kind = .event ∧ DictionaryKind.IsAsked .event v := by
  cases v with
  | str name =>
      rw [encodeEvent, wants_bind_of_content, books.event_book_wants_iff]
      · simp [DictionaryKind.IsAsked]
      · intro book
        cases book.ofName? name <;> simp
  | int n =>
      rw [encodeEvent]
      cases number? n <;> simp [DictionaryKind.IsAsked]
  | _ => simp [encodeEvent, DictionaryKind.IsAsked]

theorem read_content (bytes : Bytes) : ¬ Wants kind (read bytes) := by
  match bytes with
  | high :: low :: _ => simp [read]
  | [] => simp [read]
  | [_] => simp [read]

theorem read_ok_iff (bytes : Bytes) : (∃ number, read bytes = .ok number) ↔ 2 ≤ bytes.length := by
  match bytes with
  | high :: low :: _ => simp [read]
  | [] => simp [read]
  | [_] => simp [read]

variable (bytes : Bytes) (raw : Bool)

-- A number is shown as it is, or looked up in a book.
theorem wants_looked_up (book : Attempt CodeBook) (plain : UInt16 → Value) (found : CodeBook → UInt16 → Attempt Value)
    (content : ∀ own number, ¬ Wants kind (found own number)) :
    Wants kind (read bytes >>= fun number =>
        if raw = true then .ok (plain number) else book >>= fun own => found own number) ↔
      Wants kind book ∧ raw = false ∧ 2 ≤ bytes.length := by
  rw [wants_bind_iff, ← read_ok_iff]
  have silent := read_content kind bytes
  cases raw with
  | true => simp [silent]
  | false =>
      have looked := fun number => wants_bind_of_content kind book _ fun own => content own number
      simp [silent, looked, and_comm]

theorem decode_command_wants_iff :
    Wants kind (decodeCommand (books.without kind) bytes raw) ↔ kind = .command ∧ raw = false ∧ 2 ≤ bytes.length := by
  rw [← books.command_book_wants_iff]
  apply wants_looked_up
  intro own number
  cases own.ofNumber? number <;> simp

theorem decode_event_wants_iff :
    Wants kind (decodeEvent (books.without kind) bytes raw) ↔ kind = .event ∧ raw = false ∧ 2 ≤ bytes.length := by
  rw [← books.event_book_wants_iff]
  apply wants_looked_up
  intro own number
  cases own.ofNumber? number <;> simp

end Code

namespace DictionaryKind

variable (books : Books) (asked own : DictionaryKind)

theorem encode_wants_iff (v : Value) :
    Wants asked (own.codes.encode (books.without asked) v) ↔ asked = own ∧ own.IsAsked v := by
  cases own with
  | command => exact Code.encode_command_wants_iff books asked v
  | event => exact Code.encode_event_wants_iff books asked v

theorem decode_wants_iff (bytes : Bytes) (raw : Bool) :
    Wants asked (own.codes.decode (books.without asked) bytes raw) ↔ asked = own ∧ raw = false ∧ 2 ≤ bytes.length := by
  cases own with
  | command => exact Code.decode_command_wants_iff books asked bytes raw
  | event => exact Code.decode_event_wants_iff books asked bytes raw

end DictionaryKind

section Raw

variable (books : Books) (kind : DictionaryKind)

theorem TimeCode.decode_content (t : TimeCode) (bytes : Bytes) (raw : Bool) : ¬ Wants kind (t.decode bytes raw) := by
  simp only [TimeCode.decode]
  by_cases short : (bytes.take t.nbytes).length < t.nbytes
  · rw [if_pos short]
    simp
  · rw [if_neg short]
    cases t with
    | nanos =>
        by_cases past : Instant.nanosPerSecond ≤ Bytes.ofBig ((bytes.take (nbytes .nanos)).drop 4)
        · simp [past]
        · simp [past]
    | _ => simp

theorem Primitive.decode_content (p : Primitive) (bytes : Bytes) : ¬ Wants kind (p.decode bytes) := by
  simp only [Primitive.decode]
  by_cases short : (bytes.take p.nbytes).length < p.nbytes
  · rw [if_pos short]
    simp
  · rw [if_neg short]
    simp

theorem Scalar.raw_decode_content (s : Scalar) (builtIn : s.isBuiltIn = true) (bytes : Bytes) :
    ¬ Wants kind (s.decode (books.without kind) bytes true) := by
  cases s with
  | primitive p => exact p.decode_content kind bytes
  | command => simp [Scalar.decode, Code.decode_command_wants_iff]
  | event => simp [Scalar.decode, Code.decode_event_wants_iff]
  | time t => exact t.decode_content kind bytes true
  | custom c => cases builtIn

theorem ArrayType.raw_decode_items_content (a : ArrayType) (builtIn : a.element.isBuiltIn = true)
    (total count index : Nat) (rest : Bytes) (done : List Value) :
    ¬ Wants kind (a.decodeItems (books.without kind) true total count index rest done) := by
  induction count generalizing index rest done with
  | zero => exact wants_ok kind _
  | succ count ih =>
      rw [decodeItems, wants_bind_of_content _ _ _ fun v => ih _ _ _, decodeNext]
      by_cases outside : a.count ≤ index
      · rw [if_pos outside]
        simp
      · by_cases short : (rest.take a.element.nbytes).length < a.element.nbytes
        · rw [if_neg outside, if_pos short]
          simp
        · rw [if_neg outside, if_neg short]
          exact a.element.raw_decode_content books kind builtIn _

theorem DataType.raw_decode_content (t : DataType) (builtIn : t.isBuiltIn = true) (bytes : Bytes) :
    ¬ Wants kind (t.decode (books.without kind) bytes true) := by
  cases t with
  | scalar s => exact s.raw_decode_content books kind builtIn bytes
  | array a =>
      rw [DataType.decode, ArrayType.decode, ArrayType.decodeRange, wants_map_iff]
      exact a.raw_decode_items_content books kind builtIn _ _ _ _ _

end Raw

end SpaceLink
