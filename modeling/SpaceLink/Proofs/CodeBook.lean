import SpaceLink.Proofs.Binding
import SpaceLink.Proofs.Dictionaries

/-!
Codes of commands and events under a dictionary that any calls of `add` built. A name is encoded to the number of its
definition and that number decoded to the definition; whatever is decoded is encoded back to the same two bytes. Only
commands of the dictionary have codes, while any number may be that of an event.
-/

set_option autoImplicit false

namespace SpaceLink

open Attempt

namespace Code

variable (bytes : Bytes) (whole : bytes.length = 2) (number : UInt16)

include whole in
theorem spell_iff : spell number = bytes ↔ number.toNat = Bytes.ofBig bytes := by
  have spelled := Bytes.big_of_big bytes
  rw [whole] at spelled
  constructor
  · intro same
    have value := Bytes.of_big_big 2 number.toNat
    rw [Nat.mod_eq_of_lt number.toNat_lt] at value
    rw [← same, spell, value]
  · intro same
    rw [spell, same, spelled]

include whole in
theorem read_iff : read bytes = .ok number ↔ number.toNat = Bytes.ofBig bytes := by
  match bytes, whole with
  | [high, low], _ =>
      have small : Bytes.ofBig [high, low] < 256 ^ 2 := Bytes.of_little_lt [low, high]
      change Except.ok (UInt16.ofNat (Bytes.ofBig [high, low])) = Except.ok number ↔ _
      rw [Except.ok.injEq, ← UInt16.toNat_inj, UInt16.toNat_ofNat', Nat.mod_eq_of_lt (by omega), eq_comm]

theorem number_iff (n : Int) : number? n = some number ↔ n = number.toNat := by
  have small := number.toNat_lt
  rw [number?]
  by_cases inside : 0 ≤ n ∧ n < 2 ^ 16
  · rw [if_pos inside, Option.some.injEq, ← UInt16.toNat_inj, UInt16.toNat_ofNat']
    omega
  · rw [if_neg inside]
    simp only [reduceCtorEq, false_iff]
    omega

end Code

namespace DictionaryKind

variable (kind : DictionaryKind) (books : Books) (book : CodeBook)

def value : DictionaryKind → Reference → Value
  | .command, r => .command r
  | .event, r => .event r

theorem encode_value (r : Reference) : kind.codes.encode books (kind.value r) = .ok (Code.spell r.number) := by
  cases kind <;> rfl

theorem shown_iff (number : UInt16) (v : Value) :
    kind.shown book number = .ok v ↔
      (∃ r, book.ofNumber? number = some r ∧ v = kind.value r) ∨
        kind = .event ∧ book.ofNumber? number = none ∧ v = .int number.toNat := by
  unfold shown
  cases kind with
  | command => cases book.ofNumber? number <;> simp [value, eq_comm]
  | event => cases book.ofNumber? number <;> simp [value, eq_comm]

variable (bound : books.book? kind = some book)

include bound in
theorem encode_int_iff (n : Int) (bytes : Bytes) :
    kind.codes.encode books (.int n) = .ok bytes ↔
      ∃ number : UInt16, n = number.toNat ∧ Code.spell number = bytes ∧
        (kind = .event ∨ ∃ r, book.ofNumber? number = some r) := by
  simp only [← Code.number_iff]
  cases kind with
  | command =>
      have found : books.commandBook = .ok book := by rw [Books.commandBook, show books.commands = some book from bound]
      simp only [codes, Scalar.encode, Code.encodeCommand, found]
      cases Code.number? n with
      | none => simp
      | some number =>
          dsimp only
          rw [bind_of_ok _ _ book rfl]
          cases known : book.ofNumber? number <;> simp [known]
  | event =>
      simp only [codes, Scalar.encode, Code.encodeEvent]
      cases Code.number? n <;> simp

include bound in
-- A number without a name has no value that could be encoded to other bytes: it is refused, or its own value.
theorem encode_of_decode (bytes : Bytes) (v : Value) (whole : bytes.length = 2)
    (done : kind.codes.decode books bytes false = .ok v) : kind.codes.encode books v = .ok bytes := by
  rw [kind.decode_from_book books book bound] at done
  obtain ⟨number, read, shown⟩ := (bind_ok_iff _ _ _).mp done
  have spelled := (Code.spell_iff bytes whole number).mpr ((Code.read_iff bytes whole number).mp read)
  rcases (kind.shown_iff book number v).mp shown with ⟨r, found, rfl⟩ | ⟨event, _, rfl⟩
  · have same : r.number = number := by simpa using List.find?_some found
    rw [encode_value, same, spelled]
  · exact (kind.encode_int_iff books book bound _ bytes).mpr ⟨number, rfl, spelled, .inl event⟩

end DictionaryKind

namespace Catalog

variable {α : Type} {name : α → String} {number : α → UInt16}

-- The names and numbers of a catalog.
def book (c : Catalog α name number) : CodeBook := c.entries.map fun a => ⟨name a, number a⟩

theorem book_of_name (c : Catalog α name number) (n : String) :
    c.book.ofName? n = (c.ofName? n).map fun a => ⟨name a, number a⟩ := List.find?_map

theorem book_of_number (c : Catalog α name number) (n : UInt16) :
    c.book.ofNumber? n = (c.ofNumber? n).map fun a => ⟨name a, number a⟩ := List.find?_map

-- Codes of one kind, and a dictionary of that kind with the definitions that it took in.
structure Coded (kind : DictionaryKind) (books : Books) (run : Catalog α name number × List α) : Prop where
  back : ∀ bytes v, bytes.length = 2 → kind.codes.decode books bytes false = .ok v →
    kind.codes.encode books v = .ok bytes
  named : ∀ a ∈ run.2, kind.codes.encode books (.str (name a)) = .ok (Bytes.big 2 (number a).toNat) ∧
    kind.codes.decode books (Bytes.big 2 (number a).toNat) false = .ok (kind.value ⟨name a, number a⟩) ∧
    run.1.ofName? (name a) = some a ∧ run.1.ofNumber? (number a) = some a
  plain : ∀ n bytes, kind.codes.encode books (.int n) = .ok bytes → bytes = Bytes.big 2 n.toNat

section Codes

variable (kind : DictionaryKind) (books : Books) (run : Catalog α name number × List α)
variable (add : Catalog α name number → α → Attempt (Catalog α name number)) (fault : α → SchemaFault)
variable (consistent : Consistent add fault run) (bound : books.book? kind = some run.1.book)

include consistent in
theorem known_iff (n : UInt16) (r : Reference) :
    run.1.book.ofNumber? n = some r ↔ ∃ a ∈ run.2, number a = n ∧ r = ⟨name a, number a⟩ := by
  rw [book_of_number, Option.map_eq_some_iff]
  simp only [consistent.numbered, and_assoc, eq_comm]

include consistent in
theorem unknown_iff (n : UInt16) : run.1.book.ofNumber? n = none ↔ ∀ a ∈ run.2, number a ≠ n := by
  rw [book_of_number, Option.map_eq_none_iff, Option.eq_none_iff_forall_ne_some]
  constructor
  · intro none a member same
    exact none a ((consistent.numbered n a).mpr ⟨member, same⟩)
  · intro others a found
    obtain ⟨member, same⟩ := (consistent.numbered n a).mp found
    exact others a member same

include consistent bound in
theorem name_coded (a : α) (member : a ∈ run.2) :
    kind.codes.encode books (.str (name a)) = .ok (Bytes.big 2 (number a).toNat) ∧
      kind.codes.decode books (Bytes.big 2 (number a).toNat) false = .ok (kind.value ⟨name a, number a⟩) := by
  have byName := (consistent.named (name a) a).mpr ⟨member, rfl⟩
  have byNumber := (consistent.numbered (number a) a).mpr ⟨member, rfl⟩
  have whole := Bytes.length_big 2 (number a).toNat
  have read := (Code.read_iff _ whole (number a)).mpr ((Code.spell_iff _ whole (number a)).mp rfl)
  constructor
  · rw [kind.encode_from_book books _ bound, DictionaryKind.spelled, book_of_name, byName]
    rfl
  · rw [kind.decode_from_book books _ bound, bind_of_ok _ _ _ read, kind.shown_iff, book_of_number, byNumber]
    exact .inl ⟨_, rfl, rfl⟩

include consistent bound in
theorem coded : Coded kind books run where
  back bytes v := kind.encode_of_decode books _ bound bytes v
  named a member := by
    obtain ⟨encoded, decoded⟩ := name_coded kind books run add fault consistent bound a member
    exact ⟨encoded, decoded, (consistent.named _ a).mpr ⟨member, rfl⟩, (consistent.numbered _ a).mpr ⟨member, rfl⟩⟩
  plain n bytes done := by
    obtain ⟨own, rfl, rfl, _⟩ := (kind.encode_int_iff books _ bound n bytes).mp done
    rfl

include consistent bound in
theorem decode_iff (bytes : Bytes) (whole : bytes.length = 2) (v : Value) :
    kind.codes.decode books bytes false = .ok v ↔
      (∃ a ∈ run.2, (number a).toNat = Bytes.ofBig bytes ∧ v = kind.value ⟨name a, number a⟩) ∨
        kind = .event ∧ (∀ a ∈ run.2, (number a).toNat ≠ Bytes.ofBig bytes) ∧ v = .int (Bytes.ofBig bytes) := by
  obtain ⟨n, read⟩ := (Code.read_ok_iff bytes).mpr (Nat.le_of_eq whole.symm)
  have same := (Code.read_iff bytes whole n).mp read
  rw [kind.decode_from_book books _ bound, bind_of_ok _ _ n read, kind.shown_iff,
    unknown_iff run add fault consistent]
  simp only [known_iff run add fault consistent, ← same, UInt16.toNat_inj, ne_eq]
  constructor
  · rintro (⟨r, ⟨a, member, own, rfl⟩, shown⟩ | event)
    · exact .inl ⟨a, member, own, shown⟩
    · exact .inr event
  · rintro (⟨a, member, own, shown⟩ | event)
    · exact .inl ⟨_, ⟨a, member, own, rfl⟩, shown⟩
    · exact .inr event

include consistent bound in
theorem encode_iff (n : Int) :
    (∃ bytes, kind.codes.encode books (.int n) = .ok bytes) ↔
      (kind = .event ∧ 0 ≤ n ∧ n ≤ 65535) ∨ ∃ a ∈ run.2, n = (number a).toNat := by
  simp only [kind.encode_int_iff books _ bound, known_iff run add fault consistent]
  constructor
  · rintro ⟨bytes, own, rfl, _, event | ⟨r, a, member, rfl, _⟩⟩
    · have small := own.toNat_lt
      exact .inl ⟨event, by omega, by omega⟩
    · exact .inr ⟨a, member, rfl⟩
  · rintro (⟨event, low, high⟩ | ⟨a, member, rfl⟩)
    · obtain ⟨k, rfl⟩ := Int.eq_ofNat_of_zero_le low
      refine ⟨_, UInt16.ofNat k, ?_, rfl, .inl event⟩
      rw [UInt16.toNat_ofNat']
      omega
    · exact ⟨_, number a, rfl, rfl, .inr ⟨_, a, member, rfl, rfl⟩⟩

end Codes

end Catalog

-- The types of a registry that has the book of a dictionary, whatever calls of `add` built it.
theorem code_types_follow_dictionaries (r : Registry) :
    (∀ calls, r.commands.book = some (CommandDictionary.book (CommandDictionary.ofCalls calls).1) →
      Catalog.Coded .command r.books (CommandDictionary.ofCalls calls) ∧
      (∀ bytes, bytes.length = 2 → ((∃ v, Scalar.command.decode r.books bytes false = .ok v) ↔
        ∃ d ∈ (CommandDictionary.ofCalls calls).2, d.opcode.toNat = Bytes.ofBig bytes)) ∧
      ∀ n, (∃ bytes, Scalar.command.encode r.books (.int n) = .ok bytes) ↔
        ∃ d ∈ (CommandDictionary.ofCalls calls).2, n = d.opcode.toNat) ∧
    ∀ calls, r.events.book = some (EventDictionary.book (EventDictionary.ofCalls calls).1) →
      Catalog.Coded .event r.books (EventDictionary.ofCalls calls) ∧
      (∀ bytes, bytes.length = 2 → (∃ v, Scalar.event.decode r.books bytes false = .ok v) ∧
        ((∀ d ∈ (EventDictionary.ofCalls calls).2, d.code.toNat ≠ Bytes.ofBig bytes) →
          Scalar.event.decode r.books bytes false = .ok (.int (Bytes.ofBig bytes)))) ∧
      ∀ n, (∃ bytes, Scalar.event.encode r.books (.int n) = .ok bytes) ↔ 0 ≤ n ∧ n ≤ 65535 := by
  refine ⟨fun calls bound => ?_, fun calls bound => ?_⟩
  · have consistent := CommandDictionary.consistent calls
    generalize CommandDictionary.ofCalls calls = run at consistent bound
    have seen := r.books_of_bound .command _ bound
    refine ⟨Catalog.coded _ _ run _ _ consistent seen, fun bytes whole => ?_, fun n => ?_⟩
    · have decodes := Catalog.decode_iff _ _ run _ _ consistent seen bytes whole
      constructor
      · rintro ⟨v, done⟩
        rcases (decodes v).mp done with ⟨d, member, own, _⟩ | ⟨event, _⟩
        · exact ⟨d, member, own⟩
        · cases event
      · rintro ⟨d, member, own⟩
        exact ⟨_, (decodes _).mpr (.inl ⟨d, member, own, rfl⟩)⟩
    · refine (Catalog.encode_iff _ _ run _ _ consistent seen n).trans (or_iff_right ?_)
      rintro ⟨⟨⟩, _⟩
  · have consistent := EventDictionary.consistent calls
    generalize EventDictionary.ofCalls calls = run at consistent bound
    have seen := r.books_of_bound .event _ bound
    refine ⟨Catalog.coded _ _ run _ _ consistent seen, fun bytes whole => ?_, fun n => ?_⟩
    · have decodes := Catalog.decode_iff _ _ run _ _ consistent seen bytes whole
      have unknown := fun others => (decodes (.int (Bytes.ofBig bytes))).mpr (.inr ⟨rfl, others, rfl⟩)
      refine ⟨?_, unknown⟩
      by_cases known : ∃ d ∈ run.2, d.code.toNat = Bytes.ofBig bytes
      · obtain ⟨d, member, own⟩ := known
        exact ⟨_, (decodes _).mpr (.inl ⟨d, member, own, rfl⟩)⟩
      · exact ⟨_, unknown fun d member own => known ⟨d, member, own⟩⟩
    · have encodes := Catalog.encode_iff _ _ run _ _ consistent seen n
      refine encodes.trans ⟨?_, fun inside => .inl ⟨rfl, inside⟩⟩
      rintro (⟨_, inside⟩ | ⟨d, _, rfl⟩)
      · exact inside
      · have small := d.code.toNat_lt
        omega

-- One opcode has a name, and an event without one is shown as its number.
theorem noop_named_event_plain :
    let noop : CommandDefinition := ⟨"NOOP", 0x0102, none, none, none, none, []⟩
    let commands := CommandDictionary.book (CommandDictionary.ofCalls [noop, noop]).1
    let events := EventDictionary.book (EventDictionary.ofCalls [⟨"READY", 7, none, ""⟩]).1
    let r := Registry.empty.run [.bind .command commands, .bind .event events]
    r.commands.book = some commands ∧ r.events.book = some events ∧
      Scalar.command.encode r.books (.str "NOOP") = .ok [1, 2] ∧
      Scalar.command.decode r.books [1, 2] false = .ok (.command ⟨"NOOP", 0x0102⟩) ∧
      Scalar.event.decode r.books [0, 8] false = .ok (.int 8) := by
  intro noop commands events r
  obtain ⟨forCommands, forEvents⟩ := code_types_follow_dictionaries r
  obtain ⟨coded, _⟩ := forCommands [noop, noop] rfl
  obtain ⟨encoded, decoded, _⟩ := coded.named noop (List.mem_singleton_self noop)
  have spelled : Bytes.big 2 noop.opcode.toNat = [1, 2] := by decide
  rw [spelled] at encoded decoded
  obtain ⟨_, shown, _⟩ := forEvents [⟨"READY", 7, none, ""⟩] rfl
  exact ⟨rfl, rfl, encoded, decoded, (shown [0, 8] rfl).2 (by decide)⟩

end SpaceLink
