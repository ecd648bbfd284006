import SpaceLink.Proofs.Command.Encoding
import SpaceLink.Proofs.Field.Kept
import SpaceLink.Proofs.Field.Validation

/-!
Commands that pass their check. Each argument is supplied and valid for its field, so only a number that
its mask moves out of the type can keep a command from being encoded, and what is read back is what the
bytes of the field keep.
-/

set_option autoImplicit false

namespace SpaceLink.Command

theorem valid_arguments (fields : List Field) (args : List (Option Value)) (verdict : Verdict)
    (valid : (validateArguments fields args verdict).valid = true) :
    verdict.valid = true ∧ ∃ values more, args = values.map some ++ more ∧ values.length = fields.length ∧
      ∀ f v, (f, v) ∈ fields.zip values → ∃ log, (f.validate v log).valid = true := by
  induction fields generalizing args verdict with
  | nil => exact ⟨valid, [], args, rfl, rfl, by simp⟩
  | cons f rest ih =>
      obtain ⟨before, values, more, split, enough, each⟩ := ih _ _ valid
      obtain ⟨passed, checked⟩ := (Verdict.valid_also _ _).mp before
      refine ⟨passed, ?_⟩
      match args, split, checked with
      | [], _, checked => cases checked
      | none :: args, _, checked => cases checked
      | some v :: args, split, checked =>
          refine ⟨v :: values, more, ?_, ?_, ?_⟩
          · rw [List.map_cons, List.cons_append, ← split]
            rfl
          · rw [List.length_cons, List.length_cons, enough]
          · intro g w member
            rw [List.zip_cons_cons, List.mem_cons, Prod.mk.injEq] at member
            rcases member with ⟨rfl, rfl⟩ | later
            · exact ⟨_, checked⟩
            · exact each g w later

theorem valid_recognized (names : List String) (verdict : Verdict)
    (valid : (names.foldl (fun verdict name => verdict.also (.fail s!"Argument \"{name}\" is unrecognized.")) verdict).valid = true) :
    verdict.valid = true := by
  induction names generalizing verdict with
  | nil => exact valid
  | cons name rest ih => exact ((Verdict.valid_also _ _).mp (ih _ valid)).1

-- More values than arguments do not pass either, but nothing below depends on it.
theorem valid_values (c : Command) (log : List String) (valid : (c.validate log).valid = true) :
    ∃ values more, c.args = values.map some ++ more ∧ values.length = c.definition.arguments.length ∧
      ∀ f v, (f, v) ∈ c.definition.arguments.zip values → ∃ log, (f.validate v log).valid = true :=
  (valid_arguments _ _ _ (valid_recognized _ _ valid)).2

theorem supplied_iff (fields : List Field) (values : List Value) (more : List (Option Value))
    (enough : values.length = fields.length) (f : Field) (v : Value) :
    (f, some v) ∈ fields.zip (values.map some ++ more) ↔ (f, v) ∈ fields.zip values := by
  induction fields generalizing values with
  | nil => simp
  | cons g rest ih =>
      cases values with
      | nil => cases enough
      | cons w values =>
          rw [List.map_cons, List.cons_append, List.zip_cons_cons, List.zip_cons_cons, List.mem_cons, List.mem_cons,
            ih values (Nat.succ.inj enough), Prod.mk.injEq, Prod.mk.injEq, Option.some.injEq]

section Images

variable (books : Books) (d : CommandDefinition) (accepted : d.Accepted)
variable (kinds : ∀ f ∈ d.fields, f.NumberOrText)
variable (values : List Value) (enough : values.length = d.arguments.length)
variable (valid : ∀ f v, (f, v) ∈ d.arguments.zip values → ∃ log, (f.validate v log).valid = true)

theorem argument_field (f : Field) (v : Value) (given : (f, v) ∈ d.arguments.zip values) : f ∈ d.fields :=
  (List.mem_filter.mp (List.of_mem_zip given).1).1

-- Texts always have an image, and fixed values were found to have one when the definition was made.
include accepted kinds enough valid in
theorem images_iff :
    (∀ pair ∈ assigned d.fields values, ∃ new, pair.1.image books pair.2 = .ok new) ↔
      ∀ f v t n, (f, v) ∈ d.arguments.zip values → f.type = .scalar (.primitive (.int t)) → f.number? v = some n →
        t.holds (n * 2 ^ f.shift) = true := by
  obtain ⟨⟨known, checked⟩, _⟩ := d.accepted_fields accepted
  constructor
  · intro imaged f v t n given integer number
    have member := argument_field d values f v given
    have sound := d.accepted_sound accepted f member
    obtain ⟨log, passed⟩ := valid f v given
    obtain ⟨m, same, inside⟩ := f.valid_number v log t integer passed
    rw [number] at same
    cases same
    rcases kinds f member with ⟨t', integer', held⟩ | ⟨t', text⟩
    · rw [integer] at integer'
      cases integer'
      apply (f.image_number_iff books t sound held integer v n number inside).mp
      exact imaged (f, v) ((assigned_iff d.fields values enough f v).mpr (.inr given))
    · rw [integer] at text
      cases text
  · intro moved
    rintro ⟨f, v⟩ assigned
    have member := assigned_member d values enough (f, v) assigned
    have sound := d.accepted_sound accepted f member
    rcases (assigned_iff d.fields values enough f v).mp assigned with ⟨_, fixed⟩ | given
    · exact f.image_of_fixed (kinds f member) known books v fixed (checked f member)
    · obtain ⟨log, passed⟩ := valid f v given
      rcases kinds f member with ⟨t, integer, held⟩ | ⟨t, text⟩
      · obtain ⟨n, number, inside⟩ := f.valid_number v log t integer passed
        exact (f.image_number_iff books t sound held integer v n number inside).mpr (moved f v t n given integer number)
      · obtain ⟨plain, s, rfl⟩ := f.valid_text v log t text passed
        exact ⟨_, f.image_text books t sound text plain s⟩

end Images

-- The mask and the size of a text are not part of the check, so a valid number may have no place in the
-- mask and a valid text may be longer than its type.
theorem valid_command_stored (books : Books) (c : Command) (accepted : c.definition.Accepted)
    (small : c.definition.argumentSize ≤ 255) (kinds : ∀ f ∈ c.definition.fields, f.NumberOrText)
    (apart : c.definition.fields.Pairwise Field.Apart) (log : List String) (valid : (c.validate log).valid = true)
    (pad : Nat) :
    ((∃ encoded, c.encode books pad = .ok encoded) ↔
      ∀ f v t n, (f, some v) ∈ c.definition.arguments.zip c.args → f.type = .scalar (.primitive (.int t)) →
        f.number? v = some n → t.holds (n * 2 ^ f.shift) = true) ∧
    ∀ encoded, c.encode books pad = .ok encoded → ∀ f v, (f, some v) ∈ c.definition.arguments.zip c.args →
      (∀ t, f.type = .scalar (.primitive (.int t)) →
        ∃ n, f.number? v = some n ∧ f.decodeAt books encoded 3 true none = .ok (.int (f.kept n)) ∧
          (f.kept n = n ↔ f.Fits t n)) ∧
      ∀ t, f.type = .scalar (.primitive (.text t)) →
        ∃ s, v = .str s ∧ f.decodeAt books encoded 3 true none = .ok (.str (TextType.decode (t.encode s))) ∧
          (Utf8.length s ≤ t.size → s.toList.getLast? ≠ some (Char.ofNat 0) → TextType.decode (t.encode s) = s) := by
  obtain ⟨d, args, unrecognized⟩ := c
  obtain ⟨values, more, split, enough, each⟩ := valid_values _ log valid
  simp only at accepted small kinds apart split enough each ⊢
  subst split
  have builtIn : ∀ f ∈ d.fields, f.type.isBuiltIn = true := fun f member => f.built_in_of_kind (kinds f member)
  have images := images_iff books d accepted kinds values enough each
  simp only [supplied_iff d.arguments values more enough]
  constructor
  · rw [← images]
    constructor
    · rintro ⟨encoded, done⟩
      exact images_of_encode books d accepted small builtIn values enough more unrecognized pad encoded done
    · intro imaged
      obtain ⟨encoded, done, _⟩ := encode_painted books d accepted small builtIn values enough more unrecognized pad
        apart imaged
      exact ⟨encoded, done⟩
  · intro encoded done f v given
    have imaged := images_of_encode books d accepted small builtIn values enough more unrecognized pad encoded done
    obtain ⟨encoded', done', painted⟩ := encode_painted books d accepted small builtIn values enough more unrecognized pad
      apart imaged
    rw [done] at done'
    cases done'
    have member := argument_field d values f v given
    have sound := d.accepted_sound accepted f member
    have assigned := (assigned_iff d.fields values enough f v).mpr (.inr given)
    obtain ⟨new, own⟩ := imaged (f, v) assigned
    have reads := painted_reads books d accepted builtIn values enough pad encoded painted f v new [] assigned
      (f.unwrapped_of_kind (kinds f member)) own true none
    rw [List.append_nil] at reads
    obtain ⟨before, passed⟩ := each f v given
    constructor
    · intro t integer
      obtain ⟨n, number, inside⟩ := f.valid_number v before t integer passed
      refine ⟨n, number, ?_, f.kept_iff_fits t n inside⟩
      exact reads.trans (f.read_number_image books t sound integer v n number inside new own none)
    · intro t text
      obtain ⟨plain, s, rfl⟩ := f.valid_text v before t text passed
      rw [f.image_text books t sound text plain s] at own
      cases own
      exact ⟨s, rfl, reads.trans (f.read_text_image books t sound text s true none), t.decode_encode s⟩

section Tagging

def label : Field :=
  { Ccsds.bits "label" Ccsds.byteType (.range 0 1) none none with type := .scalar (.primitive (.text ⟨"2", 2⟩)) }

def low : Field := Ccsds.bits "low" Ccsds.byteType (.single 2) (some 0x0f) none

def high : Field := Ccsds.bits "high" Ccsds.byteType (.single 2) (some 0xf0) none

def segment : Field := Ccsds.bits "segment" Ccsds.byteType (.single 3) none (some Ccsds.segments)

def tagging : CommandDefinition :=
  { name := "TAG"
    opcode := 1
    subsystem := none
    title := none
    desc := none
    ccsds := none
    fields := [label, low, high, segment] }

theorem tagging_accepted : tagging.Accepted := ⟨.none, tagging.fields, tagging, rfl, rfl⟩

theorem tagging_kinds : ∀ f ∈ tagging.fields, f.NumberOrText := by
  have unmasked : segment.MaskHeld Ccsds.byteType := fun mask masked => nomatch masked
  have lowHeld : low.MaskHeld Ccsds.byteType := fun mask masked => Option.some.inj masked ▸ rfl
  have highHeld : high.MaskHeld Ccsds.byteType := fun mask masked => Option.some.inj masked ▸ rfl
  intro f member
  rcases member with _ | ⟨_, _ | ⟨_, _ | ⟨_, _ | ⟨_, ⟨⟩⟩⟩⟩⟩
  · exact .inr ⟨_, rfl⟩
  · exact .inl ⟨_, rfl, lowHeld⟩
  · exact .inl ⟨_, rfl, highHeld⟩
  · exact .inl ⟨_, rfl, unmasked⟩

-- The text is cut to two bytes, 31 to four bits and 2.5 to its whole part; 16 has no place in the upper bits.
theorem valid_command_cut :
    tagging.Accepted ∧ tagging.argumentSize ≤ 255 ∧ (∀ f ∈ tagging.fields, f.NumberOrText) ∧
      tagging.fields.Pairwise Field.Apart ∧
      (let command := ofValues tagging [.str "abc", .int 31, .int 1, .float ⟨0x4004000000000000⟩]
       (command.validate []).valid = true ∧ ∃ encoded, command.encode .none 0 = .ok encoded ∧
         label.decodeAt .none encoded 3 true none = .ok (.str "ab") ∧
         low.decodeAt .none encoded 3 true none = .ok (.int 15) ∧
         segment.decodeAt .none encoded 3 true none = .ok (.int 2)) ∧
      (let command := ofValues tagging [.str "ab", .int 1, .int 16, .int 0]
       (command.validate []).valid = true ∧ ∃ fault, command.encode .none 0 = .error fault) :=
  ⟨tagging_accepted, by decide, tagging_kinds, by decide, ⟨by decide, _, rfl, rfl, rfl, rfl⟩, by decide, _, rfl⟩

theorem tagged_command_stored :
    let command := ofValues tagging [.str "é", .int 5, .int 12, .str "Last Segment"]
    (command.validate []).valid = true ∧ ∃ encoded, command.encode .none 0 = .ok encoded ∧
      label.decodeAt .none encoded 3 true none = .ok (.str "é") ∧
      high.decodeAt .none encoded 3 true none = .ok (.int 12) ∧
      segment.decodeAt .none encoded 3 true none = .ok (.int 2) := by
  intro command
  have valid : (command.validate []).valid = true := by decide
  obtain ⟨possible, stored⟩ := valid_command_stored .none command tagging_accepted (by decide) tagging_kinds (by decide)
    [] valid 0
  have room : ∀ f v t n, (f, some v) ∈ command.definition.arguments.zip command.args →
      f.type = .scalar (.primitive (.int t)) → f.number? v = some n → t.holds (n * 2 ^ f.shift) = true := by
    intro f v t n given integer number
    rcases given with _ | ⟨_, _ | ⟨_, _ | ⟨_, _ | ⟨_, ⟨⟩⟩⟩⟩⟩ <;> cases integer <;> cases number <;> rfl
  obtain ⟨encoded, done⟩ := possible.mpr room
  have text : label.decodeAt .none encoded 3 true none = .ok (.str "é") := by
    obtain ⟨s, same, read, _⟩ := (stored encoded done label (.str "é") (.head _)).2 _ rfl
    cases same
    exact read
  have masked : high.decodeAt .none encoded 3 true none = .ok (.int 12) := by
    obtain ⟨n, number, read, _⟩ := (stored encoded done high (.int 12) (.tail _ (.tail _ (.head _)))).1 _ rfl
    cases number
    exact read
  have named : segment.decodeAt .none encoded 3 true none = .ok (.int 2) := by
    obtain ⟨n, number, read, _⟩ :=
      (stored encoded done segment (.str "Last Segment") (.tail _ (.tail _ (.tail _ (.head _))))).1 _ rfl
    cases number
    exact read
  exact ⟨valid, encoded, done, text, masked, named⟩

end Tagging

end SpaceLink.Command
