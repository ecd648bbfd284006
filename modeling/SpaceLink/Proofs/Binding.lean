import SpaceLink.Proofs.Schema.Asking

/-!
The code books of a registry in use. A binding without a book takes the one that is bound to it, the one that its latest
resolver gives when an operation asks, or that of a schema that was built. The book it has then is its book for ever.
-/

set_option autoImplicit false

namespace SpaceLink

open Attempt

def Dictionaries.book (built : Dictionaries) : DictionaryKind → CodeBook
  | .command => built.commands.book
  | .event => built.events.book

namespace Binding

def asked (b : Binding) : Binding := { b with book := b.visible }

variable (b : Binding) (book : CodeBook)

theorem asked_of_bound (bound : b.book = some book) : b.asked = b := by
  obtain ⟨own, resolver⟩ := b
  cases bound
  rfl

theorem or_else_of_bound (bound : b.book = some book) (other : CodeBook) : b.orElse other = b := by
  obtain ⟨own, resolver⟩ := b
  cases bound
  rfl

theorem asked_of_unbound (unbound : b.book = none) : b.asked.book = b.resolver := by
  simp [asked, visible, unbound]

theorem or_else_of_unbound (unbound : b.book = none) (other : CodeBook) : (b.orElse other).book = some other := by
  simp [orElse, unbound]

end Binding

namespace DictionaryKind

-- What a number stands for in a book. Only events may have numbers that the book does not know.
def shown (kind : DictionaryKind) (book : CodeBook) (number : UInt16) : Attempt Value :=
  match kind, book.ofNumber? number with
  | .command, some r => .ok (.command r)
  | .command, none => .error (.unknownSymbol (.opcode number.toNat))
  | .event, some r => .ok (.event r)
  | .event, none => .ok (.int number.toNat)

def unknown (kind : DictionaryKind) (name : String) : SymbolFault :=
  match kind with
  | .command => .command name
  | .event => .event name

def spelled (kind : DictionaryKind) (book : CodeBook) (name : String) : Attempt Bytes :=
  match book.ofName? name with
  | some r => .ok (Code.spell r.number)
  | none => .error (.unknownSymbol (kind.unknown name))

theorem decode_from_book (kind : DictionaryKind) (books : Books) (book : CodeBook) (bound : books.book? kind = some book)
    (bytes : Bytes) : kind.codes.decode books bytes false = Code.read bytes >>= kind.shown book := by
  cases kind with
  | command =>
      have found : books.commandBook = .ok book := by rw [Books.commandBook, show books.commands = some book from bound]
      simp only [codes, Scalar.decode, Code.decodeCommand, found]
      congr 1
      funext number
      rw [if_neg Bool.false_ne_true, bind_of_ok _ _ book rfl]
      unfold shown
      cases book.ofNumber? number <;> rfl
  | event =>
      have found : books.eventBook = .ok book := by rw [Books.eventBook, show books.events = some book from bound]
      simp only [codes, Scalar.decode, Code.decodeEvent, found]
      congr 1
      funext number
      rw [if_neg Bool.false_ne_true, bind_of_ok _ _ book rfl]
      unfold shown
      cases book.ofNumber? number <;> rfl

theorem encode_from_book (kind : DictionaryKind) (books : Books) (book : CodeBook) (bound : books.book? kind = some book)
    (name : String) : kind.codes.encode books (.str name) = kind.spelled book name := by
  cases kind with
  | command =>
      have found : books.commandBook = .ok book := by rw [Books.commandBook, show books.commands = some book from bound]
      rw [codes, Scalar.encode, Code.encodeCommand, found, bind_of_ok _ _ book rfl, spelled]
      cases book.ofName? name <;> rfl
  | event =>
      have found : books.eventBook = .ok book := by rw [Books.eventBook, show books.events = some book from bound]
      rw [codes, Scalar.encode, Code.encodeEvent, found, bind_of_ok _ _ book rfl, spelled]
      cases book.ofName? name <;> rfl

end DictionaryKind

namespace Registry

def binding (r : Registry) : DictionaryKind → Binding
  | .command => r.commands
  | .event => r.events

def withBinding (r : Registry) (b : Binding) : DictionaryKind → Registry
  | .command => { r with commands := b }
  | .event => { r with events := b }

-- What is done with a registry. A resolver is known by what it gives: one that changes its mind is one set again.
inductive Operation where
  | bind (kind : DictionaryKind) (book : CodeBook)
  | resolve (kind : DictionaryKind) (gives : Option CodeBook)
  | encode (t : DataType) (v : Value)
  | decode (t : DataType) (bytes : Bytes) (raw : Bool)
  | build (schema : Schema)

inductive Answer where
  | done (x : Attempt Unit)
  | bytes (x : Attempt Bytes)
  | value (x : Attempt Value)
  | built (x : Attempt Dictionaries)

def Answer.Fails : Answer → Fault → Prop
  | .done x, fault => x = .error fault
  | .bytes x, fault => x = .error fault
  | .value x, fault => x = .error fault
  | .built x, fault => x = .error fault

def step (r : Registry) : Operation → Answer × Registry
  | .bind kind book =>
    match (r.binding kind).bind kind book with
    | .ok b => (.done (.ok ()), r.withBinding b kind)
    | .error fault => (.done (.error fault), r)
  | .resolve kind gives => (.done (.ok ()), r.withBinding ((r.binding kind).withResolver gives) kind)
  | .encode t v =>
    let (x, later) := r.perform fun books => t.encode books v
    (.bytes x, later)
  | .decode t bytes raw =>
    let (x, later) := r.perform fun books => t.decode books bytes raw
    (.value x, later)
  | .build schema =>
    let (x, later) := schema.build r
    (.built x, later)

def run (r : Registry) (ops : List Operation) : Registry := ops.foldl (fun r op => (r.step op).2) r

-- Without the book of a kind the operation fails for want of it.
def Operation.Asks (r : Registry) (kind : DictionaryKind) : Operation → Prop
  | .encode t v => needs kind r.books (fun books => t.encode books v) = true
  | .decode t bytes raw => needs kind r.books (fun books => t.decode books bytes raw) = true
  | .build schema => needs kind r.books (schema.dictionaries r) = true
  | .bind .. | .resolve .. => False

-- How an operation gives a book to a binding that has none.
inductive Binds (r : Registry) (kind : DictionaryKind) : Operation → CodeBook → Prop
  | bound (book : CodeBook) : Binds r kind (.bind kind book) book
  | resolved (op : Operation) (book : CodeBook) (asks : op.Asks r kind)
      (gives : (r.binding kind).resolver = some book) : Binds r kind op book
  | built (schema : Schema) (built : Dictionaries) (content : ¬ (Operation.build schema).Asks r kind)
      (done : (r.step (.build schema)).1 = .built (.ok built)) : Binds r kind (.build schema) (built.book kind)

section Steps

variable (r : Registry) (kind : DictionaryKind)

theorem binding_with (b : Binding) (own : DictionaryKind) :
    (r.withBinding b own).binding kind = if own = kind then b else r.binding kind := by
  cases own <;> cases kind <;> rfl

theorem books_visible : r.books.book? kind = (r.binding kind).visible := by
  cases kind <;> rfl

theorem perform_binding {α : Type} (op : Books → Attempt α) :
    (r.perform op).2.binding kind = if needs kind r.books op = true then (r.binding kind).asked else r.binding kind := by
  cases kind <;> rfl

theorem build_binding (schema : Schema) :
    (r.step (.build schema)).2.binding kind =
      match schema.dictionaries r r.books with
      | .ok built => ((r.perform (schema.dictionaries r)).2.binding kind).orElse (built.book kind)
      | .error _ => (r.perform (schema.dictionaries r)).2.binding kind := by
  have outcome : (r.perform (schema.dictionaries r)).1 = schema.dictionaries r r.books := rfl
  simp only [step, Schema.build, outcome]
  cases schema.dictionaries r r.books with
  | error fault => rfl
  | ok built => cases kind <;> rfl

theorem build_answer (schema : Schema) : (r.step (.build schema)).1 = .built (schema.dictionaries r r.books) := by
  have outcome : (r.perform (schema.dictionaries r)).1 = schema.dictionaries r r.books := rfl
  simp only [step, Schema.build, outcome]
  cases schema.dictionaries r r.books <;> rfl

theorem bind_answer (own : DictionaryKind) (book : CodeBook) :
    (r.step (.bind own book)).1 =
      .done (if (r.binding own).book = none then .ok () else .error (.schema (.alreadyBound own))) := by
  simp only [step, Binding.bind]
  cases (r.binding own).book <;> rfl

theorem bind_binding (own : DictionaryKind) (book : CodeBook) :
    (r.step (.bind own book)).2.binding kind =
      if own = kind then (r.binding kind).orElse book else r.binding kind := by
  simp only [step, Binding.bind]
  cases taken : (r.binding own).book with
  | some d =>
      by_cases same : own = kind
      · subst same
        rw [if_pos rfl, Binding.or_else_of_bound _ d taken]
      · rw [if_neg same]
  | none =>
      simp only [binding_with]
      by_cases same : own = kind
      · subst same
        simp [Binding.orElse, taken]
      · simp [same]

theorem resolve_binding (own : DictionaryKind) (gives : Option CodeBook) :
    (r.step (.resolve own gives)).2.binding kind =
      if own = kind then (r.binding kind).withResolver gives else r.binding kind := by
  simp only [step, binding_with]
  by_cases same : own = kind
  · rw [if_pos same, if_pos same, same]
  · rw [if_neg same, if_neg same]

end Steps

section Bound

variable (r : Registry) (kind : DictionaryKind) (book : CodeBook) (bound : (r.binding kind).book = some book)

include bound in
theorem perform_of_bound {α : Type} (op : Books → Attempt α) : (r.perform op).2.binding kind = r.binding kind := by
  rw [perform_binding, Binding.asked_of_bound _ book bound, ite_self]

include bound in
theorem build_of_bound (schema : Schema) : (r.step (.build schema)).2.binding kind = r.binding kind := by
  rw [build_binding, r.perform_of_bound kind book bound]
  cases schema.dictionaries r r.books with
  | error fault => rfl
  | ok built => exact Binding.or_else_of_bound _ book bound _

include bound in
-- What one operation keeps: a book that is there.
theorem step_keeps (op : Operation) : ((r.step op).2.binding kind).book = some book := by
  cases op with
  | bind own other =>
      rw [bind_binding, Binding.or_else_of_bound _ book bound, ite_self, bound]
  | resolve own gives =>
      rw [resolve_binding]
      by_cases same : own = kind
      · rw [if_pos same]
        exact bound
      · rw [if_neg same, bound]
  | encode t v => exact (congrArg Binding.book (r.perform_of_bound kind book bound _)).trans bound
  | decode t bytes raw => exact (congrArg Binding.book (r.perform_of_bound kind book bound _)).trans bound
  | build schema => rw [r.build_of_bound kind book bound, bound]

include bound in
theorem run_keeps (ops : List Operation) : ((r.run ops).binding kind).book = some book := by
  induction ops generalizing r with
  | nil => exact bound
  | cons op rest ih => exact ih (r.step op).2 (r.step_keeps kind book bound op)

include bound in
theorem books_of_bound : r.books.book? kind = some book := by
  rw [books_visible, Binding.visible, bound]
  rfl

include bound in
theorem bind_refused (other : CodeBook) :
    r.step (.bind kind other) = (.done (.error (.schema (.alreadyBound kind))), r) := by
  simp only [step, Binding.bind, bound]

theorem fields_with (b : Binding) (own : DictionaryKind) : FieldEntry.build (r.withBinding b own) = FieldEntry.build r := by
  have custom : (r.withBinding b own).custom = r.custom := by cases own <;> rfl
  funext entry
  simp only [FieldEntry.build, Registry.get, scalar?, custom]

-- The types and the dictionaries of a schema do not depend on a binding but for its book.
theorem dictionaries_with (b : Binding) (own : DictionaryKind) (schema : Schema) (books : Books) :
    schema.dictionaries (r.withBinding b own) books = schema.dictionaries r books := by
  simp only [Schema.dictionaries, CommandEntry.build, PacketEntry.build, TableEntry.build, FieldEntry.buildAll,
    r.fields_with b own]

include bound in
theorem resolver_without_effect (gives : Option CodeBook) (op : Operation) :
    ((r.step (.resolve kind gives)).2.step op).1 = (r.step op).1 := by
  generalize laterEq : (r.step (.resolve kind gives)).2 = later
  have resolved : ∀ own, (later.binding own).book = (r.binding own).book := by
    intro own
    rw [← laterEq, resolve_binding]
    by_cases same : kind = own
    · rw [if_pos same]
      rfl
    · rw [if_neg same]
  have seen : ∀ own, later.books.book? own = r.books.book? own := by
    intro own
    by_cases same : kind = own
    · subst same
      rw [later.books_of_bound kind book (by rw [resolved, bound]), r.books_of_bound kind book bound]
    · rw [books_visible, books_visible, ← laterEq, resolve_binding, if_neg same]
  have books : later.books = r.books := by
    rw [show later.books = ⟨later.books.book? .command, later.books.book? .event⟩ from rfl, seen, seen]
    rfl
  cases op with
  | bind own other => rw [bind_answer, bind_answer, resolved]
  | resolve own other => rfl
  | encode t v => exact congrArg (fun books => Answer.bytes (t.encode books v)) books
  | decode t bytes raw => exact congrArg (fun books => Answer.value (t.decode books bytes raw)) books
  | build schema =>
      rw [build_answer, build_answer, books, ← laterEq]
      exact congrArg Answer.built (r.dictionaries_with _ kind schema r.books)

end Bound

section Unbound

variable (r : Registry) (kind : DictionaryKind) (unbound : (r.binding kind).book = none)

include unbound in
-- An operation that asks gives the binding what the resolver gives, any other leaves it alone.
theorem perform_of_unbound {α : Type} (op : Books → Attempt α) :
    ((r.perform op).2.binding kind).book =
      if needs kind r.books op = true then (r.binding kind).resolver else none := by
  rw [perform_binding, apply_ite Binding.book, Binding.asked_of_unbound _ unbound, unbound]

include unbound in
theorem wants_of_needs {α : Type} (silent : (r.binding kind).resolver = none) (op : Books → Attempt α)
    (needed : needs kind r.books op = true) : Wants kind (op r.books) := by
  have missing : r.books.book? kind = none := by
    rw [books_visible, Binding.visible, unbound, silent]
    rfl
  rwa [needs_iff, Books.without_of_missing r.books kind missing] at needed

include unbound in
-- Where the build asks, the resolver's book is there before the schema's own could be.
theorem build_of_unbound (schema : Schema) :
    ((r.step (.build schema)).2.binding kind).book =
      if needs kind r.books (schema.dictionaries r) = true then (r.binding kind).resolver
      else match schema.dictionaries r r.books with
        | .ok built => some (built.book kind)
        | .error _ => none := by
  have performed := r.perform_of_unbound kind unbound (schema.dictionaries r)
  rw [build_binding]
  by_cases needed : needs kind r.books (schema.dictionaries r) = true
  · rw [if_pos needed] at performed ⊢
    cases given : (r.binding kind).resolver with
    | none =>
        have failed := r.wants_of_needs kind unbound given _ needed
        rw [Wants] at failed
        rw [failed]
        exact performed.trans given
    | some book =>
        have taken := performed.trans given
        cases schema.dictionaries r r.books with
        | error fault => exact taken
        | ok built =>
            simp only
            rw [Binding.or_else_of_bound _ book taken, taken]
  · rw [if_neg needed] at performed ⊢
    cases schema.dictionaries r r.books with
    | error fault => exact performed
    | ok built => exact Binding.or_else_of_unbound _ performed _

include unbound in
theorem binds_of_step (op : Operation) (book : CodeBook) (taken : ((r.step op).2.binding kind).book = some book) :
    r.Binds kind op book := by
  -- An operation that asks, and an encoding or a decoding altogether, can only bring in what the resolver gives.
  have asked : ∀ needed : Bool, (needed = true → op.Asks r kind) →
      (if needed = true then (r.binding kind).resolver else none) = some book → r.Binds kind op book := by
    rintro (_ | _) asks given
    · cases given
    · exact .resolved op book (asks rfl) given
  cases op with
  | bind own other =>
      rw [bind_binding] at taken
      by_cases same : own = kind
      · subst same
        rw [if_pos rfl, Binding.or_else_of_unbound _ unbound] at taken
        cases taken
        exact .bound book
      · rw [if_neg same, unbound] at taken
        cases taken
  | resolve own gives =>
      rw [resolve_binding, apply_ite Binding.book] at taken
      simp only [Binding.withResolver, unbound, ite_self] at taken
      cases taken
  | encode t v =>
      exact asked _ id ((r.perform_of_unbound kind unbound fun books => t.encode books v).symm.trans taken)
  | decode t bytes raw =>
      exact asked _ id ((r.perform_of_unbound kind unbound fun books => t.decode books bytes raw).symm.trans taken)
  | build schema =>
      rw [r.build_of_unbound kind unbound] at taken
      by_cases needed : needs kind r.books (schema.dictionaries r) = true
      · rw [if_pos needed] at taken
        exact .resolved _ book needed taken
      · rw [if_neg needed] at taken
        cases done : schema.dictionaries r r.books with
        | error fault =>
            rw [done] at taken
            cases taken
        | ok built =>
            rw [done] at taken
            cases taken
            exact .built schema built needed (by rw [build_answer, done])

include unbound in
theorem step_of_binds (op : Operation) (book : CodeBook) (binds : r.Binds kind op book) :
    ((r.step op).2.binding kind).book = some book := by
  cases binds with
  | bound => rw [bind_binding, if_pos rfl, Binding.or_else_of_unbound _ unbound]
  | resolved _ _ asks gives =>
      cases op with
      | bind own other => cases asks
      | resolve own other => cases asks
      | encode t v => exact (r.perform_of_unbound kind unbound _).trans ((if_pos asks).trans gives)
      | decode t bytes raw => exact (r.perform_of_unbound kind unbound _).trans ((if_pos asks).trans gives)
      | build schema => exact (r.build_of_unbound kind unbound schema).trans ((if_pos asks).trans gives)
  | built schema built content done =>
      rw [build_answer, Answer.built.injEq] at done
      refine (r.build_of_unbound kind unbound schema).trans ((if_neg content).trans ?_)
      rw [done]

include unbound in
theorem asking_fails (silent : (r.binding kind).resolver = none) (op : Operation) (asks : op.Asks r kind) :
    (r.step op).1.Fails (.unboundDictionary kind) := by
  cases op with
  | bind own other => cases asks
  | resolve own other => cases asks
  | encode t v => exact r.wants_of_needs kind unbound silent _ asks
  | decode t bytes raw => exact r.wants_of_needs kind unbound silent _ asks
  | build schema =>
      rw [build_answer]
      exact r.wants_of_needs kind unbound silent _ asks

end Unbound

section Asking

variable (r : Registry) (kind : DictionaryKind)

theorem code_encode_asks_iff (own : DictionaryKind) (v : Value) :
    (Operation.encode (.scalar own.codes) v).Asks r kind ↔ kind = own ∧ own.IsAsked v :=
  (needs_iff kind r.books _).trans (DictionaryKind.encode_wants_iff r.books kind own v)

theorem code_decode_asks_iff (own : DictionaryKind) (bytes : Bytes) (raw : Bool) :
    (Operation.decode (.scalar own.codes) bytes raw).Asks r kind ↔ kind = own ∧ raw = false ∧ 2 ≤ bytes.length :=
  (needs_iff kind r.books _).trans (DictionaryKind.decode_wants_iff r.books kind own bytes raw)

theorem build_asks (schema : Schema) (asks : (Operation.build schema).Asks r kind) :
    FieldEntry.Asking r (r.books.without kind) kind schema.fieldEntries :=
  schema.dictionaries_want r _ kind ((needs_iff kind r.books _).mp asks)

theorem raw_decode_changes_nothing (t : DataType) (builtIn : t.isBuiltIn = true) (bytes : Bytes) :
    (r.step (.decode t bytes true)).2 = r := by
  have content : ∀ own, needs own r.books (fun books => t.decode books bytes true) = false := by
    intro own
    rw [Bool.eq_false_iff, ne_eq, needs_iff]
    exact t.raw_decode_content r.books own builtIn bytes
  simp only [step, perform, content, Bool.false_eq_true, if_false]

end Asking

-- What the latest resolver of a kind gives, among those that operations set.
def latest (kind : DictionaryKind) (start : Option CodeBook) (ops : List Operation) : Option CodeBook :=
  ops.foldl (fun gives op => match op with
    | .resolve own later => if own = kind then later else gives
    | _ => gives) start

theorem perform_resolver {α : Type} (r : Registry) (kind : DictionaryKind) (op : Books → Attempt α) :
    ((r.perform op).2.binding kind).resolver = (r.binding kind).resolver := by
  rw [perform_binding, apply_ite Binding.resolver, Binding.asked, ite_self]

theorem step_resolver (r : Registry) (kind : DictionaryKind) (op : Operation) :
    ((r.step op).2.binding kind).resolver = latest kind (r.binding kind).resolver [op] := by
  cases op with
  | bind own book => rw [bind_binding, apply_ite Binding.resolver, Binding.orElse, ite_self]; rfl
  | resolve own gives => rw [resolve_binding, apply_ite Binding.resolver]; rfl
  | encode t v => exact r.perform_resolver kind _
  | decode t bytes raw => exact r.perform_resolver kind _
  | build schema =>
      rw [build_binding]
      cases schema.dictionaries r r.books with
      | error fault => exact r.perform_resolver kind _
      | ok built => exact r.perform_resolver kind _

theorem run_resolver (r : Registry) (kind : DictionaryKind) (ops : List Operation) :
    ((r.run ops).binding kind).resolver = latest kind (r.binding kind).resolver ops := by
  induction ops generalizing r with
  | nil => rfl
  | cons op rest ih =>
      rw [run, List.foldl_cons, ← run, ih, step_resolver]
      rfl

-- A binding without a book: which operations give it one, and which fail for want of it.
structure Open (r : Registry) (kind : DictionaryKind) : Prop where
  binds : ∀ op book, ((r.step op).2.binding kind).book = some book ↔ r.Binds kind op book
  fails : (r.binding kind).resolver = none → ∀ op, op.Asks r kind →
    (r.step op).1.Fails (.unboundDictionary kind) ∧ ((r.step op).2.binding kind).book = none
  failed_build : ∀ schema fault, (r.step (.build schema)).1 = .built (.error fault) →
    ∀ book, ((r.step (.build schema)).2.binding kind).book = some book →
      (Operation.build schema).Asks r kind ∧ (r.binding kind).resolver = some book

-- A binding with a book: nothing takes its place, and all answers come from it.
structure Closed (r : Registry) (kind : DictionaryKind) (book : CodeBook) : Prop where
  bound : (r.binding kind).book = some book
  refuses : ∀ other, r.step (.bind kind other) = (.done (.error (.schema (.alreadyBound kind))), r)
  resolvers : ∀ gives op, ((r.step (.resolve kind gives)).2.step op).1 = (r.step op).1
  builds : ∀ schema, (r.step (.build schema)).2.binding kind = r.binding kind
  decodes : ∀ bytes, (r.step (.decode (.scalar kind.codes) bytes false)).1 =
    .value (Code.read bytes >>= kind.shown book)
  encodes : ∀ name, (r.step (.encode (.scalar kind.codes) (.str name))).1 = .bytes (kind.spelled book name)
  answers : ∃ books : Books, books.book? kind = some book ∧
    (∀ t v, (r.step (.encode t v)).1 = .bytes (t.encode books v)) ∧
    ∀ t bytes raw, (r.step (.decode t bytes raw)).1 = .value (t.decode books bytes raw)

-- Which operations ask for the book of a kind: encodings and decodings of its codes, but not raw ones, and builds of
-- schemas that have such an encoding for a fixed value.
structure Asking (r : Registry) (kind : DictionaryKind) : Prop where
  encodes : ∀ own v, (Operation.encode (.scalar own.codes) v).Asks r kind ↔ kind = own ∧ own.IsAsked v
  decodes : ∀ own bytes raw, (Operation.decode (.scalar own.codes) bytes raw).Asks r kind ↔
    kind = own ∧ raw = false ∧ 2 ≤ bytes.length
  builds : ∀ schema, (Operation.build schema).Asks r kind →
    FieldEntry.Asking r (r.books.without kind) kind schema.fieldEntries
  raw : ∀ t : DataType, t.isBuiltIn = true → ∀ bytes, (r.step (.decode t bytes true)).2 = r

theorem open_of_unbound (r : Registry) (kind : DictionaryKind) (unbound : (r.binding kind).book = none) :
    Open r kind := by
  have binds := fun op book => r.binds_of_step kind unbound op book
  refine ⟨fun op book => ⟨binds op book, r.step_of_binds kind unbound op book⟩, ?_, ?_⟩
  · intro silent op asks
    refine ⟨r.asking_fails kind unbound silent op asks, Option.eq_none_iff_forall_ne_some.mpr fun book taken => ?_⟩
    cases binds op book taken with
    | bound => cases asks
    | resolved _ _ _ gives =>
        rw [silent] at gives
        cases gives
    | built _ _ content _ => exact content asks
  · intro schema fault failed book taken
    cases binds _ book taken with
    | resolved _ _ asks gives => exact ⟨asks, gives⟩
    | built _ built content done =>
        rw [failed] at done
        cases done

theorem closed_of_bound (r : Registry) (kind : DictionaryKind) (book : CodeBook)
    (bound : (r.binding kind).book = some book) : Closed r kind book where
  bound := bound
  refuses := r.bind_refused kind book bound
  resolvers := r.resolver_without_effect kind book bound
  builds := r.build_of_bound kind book bound
  decodes bytes := congrArg Answer.value (kind.decode_from_book r.books book (r.books_of_bound kind book bound) bytes)
  encodes name := congrArg Answer.bytes (kind.encode_from_book r.books book (r.books_of_bound kind book bound) name)
  answers := ⟨r.books, r.books_of_bound kind book bound, fun _ _ => rfl, fun _ _ _ => rfl⟩

theorem asking_known (r : Registry) (kind : DictionaryKind) : Asking r kind where
  encodes := r.code_encode_asks_iff kind
  decodes := r.code_decode_asks_iff kind
  builds := r.build_asks kind
  raw t builtIn bytes := r.raw_decode_changes_nothing t builtIn bytes

-- What holds of a binding after any run, `more` being any run that follows.
theorem book_bound_once (start : Registry) (ops : List Operation) (kind : DictionaryKind) :
    ((start.run ops).binding kind).resolver = latest kind (start.binding kind).resolver ops ∧
      (start.run ops).Asking kind ∧
      (((start.run ops).binding kind).book = none → (start.run ops).Open kind) ∧
      ∀ book, ((start.run ops).binding kind).book = some book → ∀ more, ((start.run ops).run more).Closed kind book := by
  refine ⟨start.run_resolver kind ops, asking_known _ kind, open_of_unbound _ kind, ?_⟩
  intro book bound more
  exact closed_of_bound _ kind book (run_keeps _ kind book bound more)

-- Raw decoding leaves the resolver alone, the next decoding takes its book, and what comes later is too late.
example :
    let early : CodeBook := [⟨"NOOP", 1⟩]
    let late : CodeBook := [⟨"STOP", 1⟩]
    let ops := [.resolve .command (some early), .decode (.scalar .command) [0, 1] true]
    ((empty.run ops).binding .command).book = none ∧
      ((empty.run (ops ++ [.decode (.scalar .command) [0, 9] false, .bind .command late])).binding .command).book =
        some early := by
  decide

end Registry

end SpaceLink
