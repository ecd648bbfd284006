import SpaceLink.Proofs.DataType.Asking
import SpaceLink.Proofs.Field.Pairs
import SpaceLink.Schema.Builder

/-!
What the building of a schema asks for. It takes a code book only to encode the fixed value of a field; types,
expressions, enumerations and dictionaries are built without.
-/

set_option autoImplicit false

namespace SpaceLink

open Attempt

namespace Attempt

variable {α β : Type} (kind : DictionaryKind)

theorem content_bind (x : Attempt α) (f : α → Attempt β) (first : ¬ Wants kind x) (next : ∀ a, ¬ Wants kind (f a)) :
    ¬ Wants kind (x >>= f) := by
  rwa [wants_bind_of_content kind x f next]

end Attempt

section Parts

variable (kind : DictionaryKind)

theorem Expression.compile_content (source : String) : ¬ Wants kind (Expression.compile source) := by
  rw [Expression.compile]
  cases Parser.parse source with
  | ok tree => simp
  | error fault => simp

theorem Conversion.compile_content (equation : String) (units condition : Option String) :
    ¬ Wants kind (Conversion.compile equation units condition) := by
  apply content_bind _ _ _ (Expression.compile_content kind equation)
  intro tree
  cases condition with
  | none => exact wants_ok kind _
  | some source => exact content_bind _ _ _ (Expression.compile_content kind source) fun _ => wants_ok kind _

theorem Registry.array_spec_content (name : String) : ¬ Wants kind (Registry.arraySpec name) := by
  simp only [Registry.arraySpec]
  cases Text.cutAt '[' name.toList with
  | none => simp
  | some parts =>
      simp only
      cases Text.cutAt ']' parts.2 with
      | none => simp
      | some ends =>
          simp only
          by_cases misplaced : (!ends.2.isEmpty || parts.1.isEmpty) = true
          · rw [if_pos misplaced]
            simp
          · rw [if_neg misplaced]
            cases Numeral.integer? 10 (Text.trimmed ends.1) with
            | none => simp
            | some n =>
                by_cases counted : 0 < n ∧ n < 2 ^ 63
                · simp only [if_pos counted]
                  simp
                · simp only [if_neg counted]
                  simp

theorem Registry.get_content (r : Registry) (text : String) : ¬ Wants kind (r.get text) := by
  simp only [Registry.get]
  cases r.scalar? (Text.trim text) with
  | some s => simp
  | none =>
      apply content_bind _ _ _ (Registry.array_spec_content kind _)
      intro spec
      cases spec with
      | none => simp
      | some parts => cases own : r.scalar? (Text.trim parts.1) <;> simp [own]

theorem BytesEntry.position_content (entry : BytesEntry) : ¬ Wants kind entry.position := by
  have within : ∀ (last : Nat) (p : Position), ¬ Wants kind (if Field.lastByte < last
      then .error (.schema (.bytePosition last Field.lastByte)) else .ok p : Attempt Position) := by
    intro last p
    by_cases far : Field.lastByte < last
    · rw [if_pos far]
      simp
    · rw [if_neg far]
      simp
  unfold BytesEntry.position
  split
  · exact within _ _
  · exact within _ _
  · simp
  · simp

theorem Enumeration.of_pairs_content (pairs : List (Int × String)) : ¬ Wants kind (Enumeration.ofPairs pairs) := by
  cases outcome : Enumeration.ofPairs pairs with
  | ok e => exact wants_ok kind e
  | error fault =>
      obtain ⟨_, _, _, _, own, _, _, _, _, rfl⟩ := Enumeration.of_pairs_refused pairs fault outcome
      simp

mutual

theorem Value.of_json_content (j : Json) : ¬ Wants kind (Value.ofJson j) := by
  cases j with
  | array items => exact content_bind _ _ _ (Value.of_json_items_content items) fun _ => wants_ok kind _
  | _ => simp [Value.ofJson]

theorem Value.of_json_items_content (items : List Json) : ¬ Wants kind (Value.ofJsonItems items) := by
  cases items with
  | nil => exact wants_ok kind _
  | cons j rest =>
      exact content_bind _ _ _ (Value.of_json_content j) fun _ =>
        content_bind _ _ _ (Value.of_json_items_content rest) fun _ => wants_ok kind _

end

theorem FieldEntry.attempt_content {α β : Type} (f : α → Attempt β) (each : ∀ a, ¬ Wants kind (f a)) (a? : Option α) :
    ¬ Wants kind (FieldEntry.attempt? f a?) := by
  cases a? with
  | none => exact wants_ok kind _
  | some a => exact content_bind _ _ _ (each a) fun _ => wants_ok kind _

theorem FieldEntry.build_content (registry : Registry) (entry : FieldEntry) : ¬ Wants kind (entry.build registry) := by
  apply content_bind _ _ _ (attempt_content kind _ (fun c => Conversion.compile_content kind _ _ _) _)
  intro conversion
  apply content_bind _ _ _ (registry.get_content kind _)
  intro type
  apply content_bind _ _ _ (attempt_content kind _ (BytesEntry.position_content kind) _)
  intro position
  apply content_bind _ _ _ (attempt_content kind _ (Enumeration.of_pairs_content kind) _)
  intro enumeration
  apply content_bind _ _ _ (attempt_content kind _ (Expression.compile_content kind) _)
  intro expr
  apply content_bind _ _ _ (attempt_content kind _ (Expression.compile_content kind) _)
  intro condition
  exact content_bind _ _ _ (attempt_content kind _ (Value.of_json_content kind) _) fun _ => wants_ok kind _

theorem FieldEntry.build_all_content (registry : Registry) (entries : List FieldEntry) :
    ¬ Wants kind (FieldEntry.buildAll registry entries) := by
  intro wants
  obtain ⟨entry, _, own⟩ := wants_each kind _ entries wants
  exact entry.build_content kind registry own

theorem UserFunction.signature_content (text : String) : ¬ Wants kind (UserFunction.signature text) := by
  rw [UserFunction.signature]
  cases UserFunction.signature? text <;> simp

theorem UserFunction.compile_branches_content (branches : List (String × String)) :
    ¬ Wants kind (UserFunction.compileBranches branches) := by
  induction branches with
  | nil => exact wants_ok kind _
  | cons branch rest ih =>
      apply content_bind _ _ _ (Expression.compile_content kind _)
      intro condition
      apply content_bind _ _ _ (Expression.compile_content kind _)
      intro value
      exact content_bind _ _ _ ih fun _ => wants_ok kind _

theorem FunctionEntry.build_content (signature : String) (entry : FunctionEntry) :
    ¬ Wants kind (entry.build signature) := by
  cases entry with
  | expression source =>
      apply content_bind _ _ _ (UserFunction.signature_content kind signature)
      intro parts
      exact content_bind _ _ _ (Expression.compile_content kind source) fun _ => wants_ok kind _
  | branches bs =>
      apply content_bind _ _ _ (UserFunction.signature_content kind signature)
      intro parts
      exact content_bind _ _ _ (UserFunction.compile_branches_content kind bs) fun _ => wants_ok kind _

end Parts

namespace Field

variable (books : Books) (kind : DictionaryKind) (f : Field)

theorem fail_content (fault : FieldFault) : ¬ Wants kind (f.fail fault) := by
  simp [fail]

theorem check_position_content : ¬ Wants kind f.checkPosition := by
  unfold checkPosition
  by_cases past : lastByte + 1 < (f.span 0).stop
  · rw [if_pos past]
    exact f.fail_content kind _
  · rw [if_neg past]
    cases f.position with
    | range first last =>
        by_cases reversed : last < first
        · simpa only [if_pos reversed] using f.fail_content kind _
        · by_cases narrow : last - first + 1 < f.type.nbytes
          · simpa only [if_neg reversed, if_pos narrow] using f.fail_content kind _
          · simp [reversed, narrow]
    | _ => exact wants_ok kind _

theorem check_mask_content : ¬ Wants kind f.checkMask := by
  unfold checkMask
  cases f.mask with
  | none => exact wants_ok kind _
  | some mask =>
      cases f.type.intType? with
      | none => exact f.fail_content kind _
      | some t =>
          by_cases unfit : mask = 0 ∨ 2 ^ t.nbits ≤ mask.toNat
          · simpa only [if_pos unfit] using f.fail_content kind _
          · simp only [if_neg unfit]
            exact wants_ok kind _

theorem check_range_content : ¬ Wants kind f.checkRange := by
  unfold checkRange
  cases f.range with
  | none => exact wants_ok kind _
  | some ends =>
      by_cases reversed : ends.2.lt ends.1 = true
      · simpa only [if_pos reversed] using f.fail_content kind _
      · simp only [if_neg reversed]
        exact wants_ok kind _

-- The encoding of the field's fixed value wants a book.
def FixedWants : Prop := ∃ v, f.fixed = some v ∧ Wants kind (f.encode books v)

theorem check_wants (wants : Wants kind (f.check books)) : f.FixedWants books kind := by
  rcases (wants_bind_iff kind _ _).mp wants with position | ⟨_, _, wants⟩
  · exact absurd position (f.check_position_content kind)
  rcases (wants_bind_iff kind _ _).mp wants with mask | ⟨_, _, wants⟩
  · exact absurd mask (f.check_mask_content kind)
  rcases (wants_bind_iff kind _ _).mp wants with range | ⟨_, _, wants⟩
  · exact absurd range (f.check_range_content kind)
  unfold checkFixed at wants
  cases own : f.fixed with
  | none =>
      rw [own] at wants
      exact absurd wants (wants_ok kind _)
  | some v =>
      simp only [own] at wants
      rw [wants_bind_of_content kind _ _ fun _ => wants_ok kind _] at wants
      exact ⟨v, own, wants⟩

end Field

-- Laying out moves fields and changes nothing else of them.
theorem member_of_lay_out (before : Span) (fields : List Field) (placed : Field)
    (member : placed ∈ (layOut before fields).1) : ∃ f ∈ fields, ∃ position, placed = { f with position } := by
  induction fields generalizing before with
  | nil => cases member
  | cons f rest ih =>
      rcases List.mem_cons.mp member with same | later
      · refine ⟨f, List.mem_cons_self, placed.position, ?_⟩
        rw [same]
        unfold Field.place
        cases f.position <;> rfl
      · obtain ⟨g, known, own⟩ := ih _ later
        exact ⟨g, List.mem_cons_of_mem _ known, own⟩

section Definitions

variable (books : Books) (kind : DictionaryKind)

-- A check of fields one after the other, each of which may be refused for its name too.
theorem Field.list_wants (check : List String → List Field → Attempt Unit)
    (none : ∀ seen, ¬ Wants kind (check seen []))
    (step : ∀ seen f rest, Wants kind (check seen (f :: rest)) →
      Wants kind (f.check books) ∨ Wants kind (check (f.name :: seen) rest))
    (seen : List String) (fields : List Field) (wants : Wants kind (check seen fields)) :
    ∃ f ∈ fields, f.FixedWants books kind := by
  induction fields generalizing seen with
  | nil => exact absurd wants (none seen)
  | cons f rest ih =>
      rcases step seen f rest wants with own | others
      · exact ⟨f, List.mem_cons_self, f.check_wants books kind own⟩
      · obtain ⟨g, member, later⟩ := ih _ others
        exact ⟨g, List.mem_cons_of_mem _ member, later⟩

theorem CommandDefinition.check_fields_wants (command : String) (fields : List Field)
    (wants : Wants kind (checkFields books command [] fields)) : ∃ f ∈ fields, f.FixedWants books kind := by
  refine Field.list_wants books kind (checkFields books command) (fun _ => wants_ok kind _) ?_ [] fields wants
  intro seen f rest wants
  refine ((wants_bind_iff kind _ _).mp wants).imp id fun ⟨_, _, others⟩ => ?_
  exact wants_of_guard kind _ _ _ others nofun

theorem TableDefinition.check_columns_wants (table : String) (columns : List Field)
    (wants : Wants kind (checkColumns books table [] columns)) : ∃ f ∈ columns, f.FixedWants books kind := by
  refine Field.list_wants books kind (checkColumns books table) (fun _ => wants_ok kind _) ?_ [] columns wants
  intro seen f rest wants
  refine ((wants_bind_iff kind _ _).mp wants).imp id fun ⟨_, _, others⟩ => ?_
  exact wants_of_guard kind _ _ _ others nofun

theorem PacketDefinition.check_fields_wants (packet : String) (fields : List Field)
    (wants : Wants kind (checkFields books packet [] fields)) : ∃ f ∈ fields, f.FixedWants books kind := by
  refine Field.list_wants books kind (checkFields books packet) (fun _ => wants_ok kind _) ?_ [] fields wants
  intro seen f rest wants
  have unreserved := wants_of_guard kind _ _ _ wants nofun
  refine ((wants_bind_iff kind _ _).mp unreserved).imp id fun ⟨_, _, others⟩ => ?_
  exact wants_of_guard kind _ _ _ others nofun

theorem PacketDefinition.with_history_content (d : PacketDefinition) (names : List String) :
    ¬ Wants kind (d.withHistory names) := by
  apply content_bind _ _ _ _ fun _ => wants_ok kind _
  induction names with
  | nil => exact wants_ok kind _
  | cons name rest ih =>
      apply content_bind _ _ _ _ fun _ => ih
      rw [field]
      cases d.field? name <;> simp

end Definitions

namespace FieldEntry

variable (registry : Registry) (books : Books) (kind : DictionaryKind)

-- One of the entries makes a field whose fixed value wants a book.
def Asking (entries : List FieldEntry) : Prop :=
  ∃ entry ∈ entries, ∃ f, entry.build registry = .ok f ∧ f.FixedWants books kind

theorem asking_of_subset (few many : List FieldEntry) (part : ∀ entry ∈ few, entry ∈ many)
    (asking : Asking registry books kind few) : Asking registry books kind many := by
  obtain ⟨entry, member, own⟩ := asking
  exact ⟨entry, part entry member, own⟩

theorem asking_of_placed (entries : List FieldEntry) (fields : List Field)
    (built : buildAll registry entries = .ok fields) (start : Nat) (placed : Field)
    (member : placed ∈ (layOutFrom start fields).1) (wants : placed.FixedWants books kind) :
    Asking registry books kind entries := by
  obtain ⟨f, known, position, same⟩ := member_of_lay_out _ fields placed member
  obtain ⟨entry, own, done⟩ := each_of_map _ entries fields built f known
  obtain ⟨v, fixed, encoded⟩ := wants
  subst same
  exact ⟨entry, own, f, done, v, fixed, encoded⟩

end FieldEntry

section Entries

variable (registry : Registry) (books : Books) (kind : DictionaryKind)

theorem CommandEntry.build_wants (entry : CommandEntry) (wants : Wants kind (entry.build registry books)) :
    FieldEntry.Asking registry books kind entry.arguments := by
  rcases (wants_bind_iff kind _ _).mp wants with fields | ⟨fields, built, wants⟩
  · exact absurd fields (FieldEntry.build_all_content kind registry _)
  rw [wants_bind_of_content kind _ _ fun _ => wants_ok kind _] at wants
  unfold CommandDefinition.ofFields at wants
  rw [wants_bind_of_content kind _ _ fun _ => wants_ok kind _] at wants
  obtain ⟨f, member, own⟩ := CommandDefinition.check_fields_wants books kind _ _ wants
  exact FieldEntry.asking_of_placed registry books kind _ fields built 0 f member own

theorem PacketEntry.build_wants (entry : PacketEntry) (wants : Wants kind (entry.build registry books)) :
    FieldEntry.Asking registry books kind entry.fields := by
  rcases (wants_bind_iff kind _ _).mp wants with fields | ⟨fields, built, wants⟩
  · exact absurd fields (FieldEntry.build_all_content kind registry _)
  rw [wants_bind_of_content] at wants
  · unfold PacketDefinition.ofFields at wants
    rw [wants_bind_of_content kind _ _ fun _ => wants_ok kind _] at wants
    obtain ⟨f, member, own⟩ := PacketDefinition.check_fields_wants books kind _ _ wants
    exact FieldEntry.asking_of_placed registry books kind _ fields built 0 f member own
  · intro d
    apply content_bind _ _ _ (d.with_history_content kind _)
    intro d
    apply content_bind
    · intro constants
      obtain ⟨pair, _, own⟩ := wants_each kind _ _ constants
      exact content_bind _ _ _ (Value.of_json_content kind _) (fun _ => wants_ok kind _) own
    · intro constants
      apply content_bind _ _ _ _ fun _ => wants_ok kind _
      intro functions
      obtain ⟨pair, _, own⟩ := wants_each kind _ _ functions
      exact FunctionEntry.build_content kind _ _ own

theorem TableEntry.build_wants (entry : TableEntry) (wants : Wants kind (entry.build registry books)) :
    FieldEntry.Asking registry books kind (entry.header ++ entry.columns) := by
  rcases (wants_bind_iff kind _ _).mp wants with header | ⟨header, headerBuilt, wants⟩
  · exact absurd header (FieldEntry.build_all_content kind registry _)
  rcases (wants_bind_iff kind _ _).mp wants with columns | ⟨columns, columnsBuilt, wants⟩
  · exact absurd columns (FieldEntry.build_all_content kind registry _)
  rw [wants_bind_of_content kind _ _ fun _ => wants_ok kind _] at wants
  rw [TableDefinition.ofColumns] at wants
  replace wants := wants_of_guard kind _ _ _ wants nofun
  rcases (wants_bind_iff kind _ _).mp wants with inHeader | ⟨_, _, wants⟩
  · obtain ⟨f, member, own⟩ := TableDefinition.check_columns_wants books kind _ _ inHeader
    apply FieldEntry.asking_of_subset registry books kind entry.header
    · exact fun e inside => List.mem_append_left _ inside
    · exact FieldEntry.asking_of_placed registry books kind _ header headerBuilt 0 f member own
  · rw [wants_bind_of_content kind _ _ fun _ => wants_ok kind _] at wants
    obtain ⟨f, member, own⟩ := TableDefinition.check_columns_wants books kind _ _ wants
    apply FieldEntry.asking_of_subset registry books kind entry.columns
    · exact fun e inside => List.mem_append_right _ inside
    · exact FieldEntry.asking_of_placed registry books kind _ columns columnsBuilt 0 f member own

end Entries

namespace Schema

def fieldEntries (schema : Schema) : List FieldEntry :=
  schema.commands.flatMap CommandEntry.arguments ++ schema.packets.flatMap PacketEntry.fields ++
    schema.tables.flatMap fun t => t.header ++ t.columns

-- Definitions are built and added one after the other; adding asks for nothing.
theorem add_all_wants {D E α : Type} (kind : DictionaryKind) (add : D → α → Attempt D) (build : E → Attempt α)
    (content : ∀ all a, ¬ Wants kind (add all a)) (entries : List E) (start : D)
    (wants : Wants kind (entries.foldlM (fun all e => do add all (← build e)) start)) :
    ∃ e ∈ entries, Wants kind (build e) := by
  obtain ⟨e, member, all, own⟩ := wants_fold kind _ _ _ wants
  exact ⟨e, member, (wants_bind_of_content kind _ _ (content all)).mp own⟩

theorem dictionaries_want (schema : Schema) (registry : Registry) (books : Books) (kind : DictionaryKind)
    (wants : Wants kind (schema.dictionaries registry books)) :
    FieldEntry.Asking registry books kind schema.fieldEntries := by
  rcases (wants_bind_iff kind _ _).mp wants with events | ⟨events, _, wants⟩
  · obtain ⟨e, _, all, own⟩ := wants_fold kind _ _ _ events
    unfold EventDictionary.add at own
    cases added : all.add? e.build <;> simp [added] at own
  rcases (wants_bind_iff kind _ _).mp wants with commands | ⟨commands, _, wants⟩
  · obtain ⟨e, member, own⟩ := add_all_wants kind CommandDictionary.add _
      (fun all d => by unfold CommandDictionary.add; cases all.add? d <;> simp) _ _ commands
    apply FieldEntry.asking_of_subset registry books kind e.arguments _ _ (e.build_wants registry books kind own)
    intro entry inside
    simp only [fieldEntries, List.mem_append, List.mem_flatMap]
    exact .inl (.inl ⟨e, member, inside⟩)
  rcases (wants_bind_iff kind _ _).mp wants with packets | ⟨packets, _, wants⟩
  · obtain ⟨e, member, own⟩ := add_all_wants kind PacketDictionary.add _
      (fun all d => by unfold PacketDictionary.add; cases all.add? d <;> simp) _ _ packets
    apply FieldEntry.asking_of_subset registry books kind e.fields _ _ (e.build_wants registry books kind own)
    intro entry inside
    simp only [fieldEntries, List.mem_append, List.mem_flatMap]
    exact .inl (.inr ⟨e, member, inside⟩)
  rw [wants_bind_of_content kind _ _ fun _ => wants_ok kind _] at wants
  obtain ⟨e, member, own⟩ := add_all_wants kind TableDictionary.add _
    (fun all d => by unfold TableDictionary.add; cases all.add? d <;> simp) _ _ wants
  apply FieldEntry.asking_of_subset registry books kind _ _ _ (e.build_wants registry books kind own)
  intro entry inside
  simp only [fieldEntries, List.mem_append, List.mem_flatMap]
  exact .inr ⟨e, member, List.mem_append.mp inside⟩

end Schema

end SpaceLink
