import SpaceLink.Proofs.Command.Encoding
import SpaceLink.Proofs.Field.Lens

/-!
Commands survive their bytes. A dictionary finds the definition by the opcode and reads every argument
that was supplied, whatever stands behind the command.
-/

set_option autoImplicit false

namespace SpaceLink

namespace Field

-- A value that the field itself reads from some bytes, by its name where it has one.
def Canonical (books : Books) (f : Field) (v : Value) : Prop := ∃ data, f.decode books data false none = .ok v

section Numbers

variable (books : Books) (f : Field) (t : IntType) (sound : f.Sound) (held : f.MaskHeld t)
variable (integer : f.type = .scalar (.primitive (.int t)))

include sound held integer in
theorem canonical_fits (v : Value) (canonical : f.Canonical books v) : ∃ u, f.Fits t u ∧ v = f.withName (.int u) := by
  obtain ⟨data, read⟩ := canonical
  have long : (f.span 0).stop ≤ data.length := by
    apply Nat.le_of_not_lt
    intro short
    simp [decode, decodeAt, Bytes.slice?, Nat.not_le.mpr short] at read
  obtain ⟨u, fits, reads, _⟩ := f.read_then_write books t sound held integer 0 (f.near_start sound) data long false none
  refine ⟨u, fits, ?_⟩
  have same := read.symm.trans reads
  cases same
  rfl

end Numbers

end Field

namespace Command

section Reading

variable (books : Books) (d : CommandDefinition) (accepted : d.Accepted)
variable (builtIn : ∀ f ∈ d.fields, f.type.isBuiltIn = true)
variable (values : List Value) (enough : values.length = d.arguments.length) (pad : Nat) (encoded suffix : Bytes)
variable (painted : Field.PaintedAll books CommandDefinition.argumentStart (assigned d.fields values) (blank d pad) encoded)

include accepted builtIn enough painted in
theorem painted_number (f : Field) (t : IntType) (v : Value) (u : Int) (member : (f, v) ∈ assigned d.fields values)
    (integer : f.type = .scalar (.primitive (.int t))) (held : f.MaskHeld t)
    (number : f.number? v = some u) (fits : f.Fits t u) (raw : Bool) (index : Option Nat) :
    f.decodeAt books (encoded ++ suffix) CommandDefinition.argumentStart raw index =
      .ok (if raw then .int u else f.withName (.int u)) := by
  have sound := d.accepted_sound accepted f (assigned_member d values enough (f, v) member)
  have inside := f.raised_held t held u fits
  have imaged := (f.image_number books t integer v u number).trans (f.image_int books t held integer u inside)
  rw [painted_reads books d accepted builtIn values enough pad encoded painted f v _ suffix member
      (f.unwrapped_int t integer) imaged raw index, f.decode_spelled books t integer _ inside raw index, f.finish_raised t sound integer u fits raw]

end Reading

section Canonical

variable (books : Books) (d : CommandDefinition) (accepted : d.Accepted)
variable (integers : ∀ f ∈ d.fields, ∃ t, f.type = .scalar (.primitive (.int t)) ∧ (f.mask = none ∨ t.signed = false))
variable (fixedCanonical : ∀ f ∈ d.fields, ∀ v, f.fixed = some v → f.Canonical books v)
variable (values : List Value) (enough : values.length = d.arguments.length)
variable (canonical : ∀ pair ∈ d.arguments.zip values, pair.1.Canonical books pair.2)

include integers in
theorem integers_built_in (f : Field) (member : f ∈ d.fields) : f.type.isBuiltIn = true := by
  obtain ⟨t, integer, _⟩ := integers f member
  exact f.built_in_int t integer

-- Fixed or supplied, a value that is written is the name of a number that fits, or that number.
include accepted integers fixedCanonical enough canonical in
theorem assigned_number (f : Field) (v : Value) (member : (f, v) ∈ assigned d.fields values) :
    ∃ t u, f.type = .scalar (.primitive (.int t)) ∧ f.MaskHeld t ∧ f.Fits t u ∧ v = f.withName (.int u) := by
  have inFields := assigned_member d values enough (f, v) member
  obtain ⟨t, integer, unsigned⟩ := integers f inFields
  have sound := d.accepted_sound accepted f inFields
  have held := f.mask_held_of_unsigned t integer sound unsigned
  have produced : f.Canonical books v := by
    rcases (assigned_iff d.fields values enough f v).mp member with ⟨_, fixed⟩ | given
    · exact fixedCanonical f inFields v fixed
    · exact canonical (f, v) given
  obtain ⟨u, fits, named⟩ := f.canonical_fits books t sound held integer v produced
  exact ⟨t, u, integer, held, fits, named⟩

include accepted integers fixedCanonical enough canonical in
theorem canonical_images : ∀ pair ∈ assigned d.fields values, ∃ new, pair.1.image books pair.2 = .ok new := by
  rintro ⟨f, v⟩ member
  obtain ⟨t, u, integer, held, fits, rfl⟩ :=
    assigned_number books d accepted integers fixedCanonical values enough canonical f v member
  have spelled := f.image_int books t held integer u (f.raised_held t held u fits)
  exact ⟨_, (f.image_number books t integer _ u (f.number_with_name u)).trans spelled⟩

include accepted integers fixedCanonical enough canonical in
theorem canonical_reads (pad : Nat) (encoded suffix : Bytes)
    (painted : Field.PaintedAll books CommandDefinition.argumentStart (assigned d.fields values) (blank d pad) encoded)
    (f : Field) (v : Value) (member : (f, v) ∈ assigned d.fields values) :
    f.decodeAt books (encoded ++ suffix) CommandDefinition.argumentStart false none = .ok v := by
  obtain ⟨t, u, integer, held, fits, rfl⟩ :=
    assigned_number books d accepted integers fixedCanonical values enough canonical f v member
  exact painted_number books d accepted (integers_built_in d integers) values enough pad encoded suffix painted f t _ u
    member integer held (f.number_with_name u) fits false none

end Canonical

end Command

namespace CommandDictionary

theorem decode_of_header (dictionary : CommandDictionary) (books : Books) (d : CommandDefinition)
    (member : d ∈ dictionary.entries) (bytes : Bytes)
    (headed : bytes.take CommandDefinition.argumentStart = Command.header d) :
    dictionary.decode books bytes = (do
      let values ← d.arguments.mapM fun f => f.decodeAt books bytes CommandDefinition.argumentStart false none
      .ok (.ofValues d values)) := by
  have opcode : bytes.take 2 = Bytes.big 2 d.opcode.toNat := by
    have front := congrArg (List.take 2) headed
    rwa [List.take_take, Command.header, List.take_left' (Bytes.length_big _ _)] at front
  have long : CommandDefinition.argumentStart ≤ bytes.length := by
    have length := congrArg List.length headed
    rw [Command.length_header, List.length_take] at length
    omega
  exact decode_of_opcode dictionary books d member bytes opcode long

theorem encoded_command_decodes (books : Books) (dictionary : CommandDictionary) (reachable : dictionary.Reachable)
    (d : CommandDefinition) (member : d ∈ dictionary.entries) (small : d.argumentSize ≤ 255)
    (integers : ∀ f ∈ d.fields, ∃ t, f.type = .scalar (.primitive (.int t)) ∧ (f.mask = none ∨ t.signed = false))
    (apart : d.fields.Pairwise Field.Apart)
    (fixedCanonical : ∀ f ∈ d.fields, ∀ v, f.fixed = some v → f.Canonical books v)
    (values : List Value) (enough : values.length = d.arguments.length)
    (canonical : ∀ pair ∈ d.arguments.zip values, pair.1.Canonical books pair.2) (pad : Nat) :
    ∃ encoded, (Command.ofValues d values).encode books pad = .ok encoded ∧
      encoded.length = max (3 + d.argumentSize) pad ∧
      encoded.take 3 = Bytes.big 2 d.opcode.toNat ++ [UInt8.ofNat d.argumentSize] ∧
      (∀ f ∈ d.fields, ∀ v, f.fixed = some v → f.decodeAt books encoded 3 false none = .ok v) ∧
      (∀ byte place, 3 ≤ byte → (∀ f ∈ d.fields, f.owns 3 byte place = false) → encoded.bit byte place = false) ∧
      ∀ suffix, dictionary.decode books (encoded ++ suffix) = .ok (Command.ofValues d values) := by
  have accepted := dictionary.reachable_accepted reachable d member
  have imaged := Command.canonical_images books d accepted integers fixedCanonical values enough canonical
  obtain ⟨encoded, done, painted⟩ := Command.encode_painted books d accepted small
    (Command.integers_built_in d integers) values enough [] [] pad apart imaged
  have length := Command.painted_length books d values pad encoded painted
  have headed := Command.painted_header books d accepted values enough pad encoded painted
  have zero := Command.painted_gap books d values enough pad encoded painted
  have reads : ∀ suffix f v, (f, v) ∈ Command.assigned d.fields values →
      f.decodeAt books (encoded ++ suffix) 3 false none = .ok v :=
    fun suffix => Command.canonical_reads books d accepted integers fixedCanonical values enough canonical pad encoded
      suffix painted
  refine ⟨encoded, ?_, length, headed, ?_, zero, ?_⟩
  · rw [List.append_nil] at done
    exact done
  · intro f inFields v fixed
    have assigned := (Command.assigned_iff d.fields values enough f v).mpr (.inl ⟨inFields, fixed⟩)
    have read := reads [] f v assigned
    rwa [List.append_nil] at read
  · intro suffix
    have start : (encoded ++ suffix).take CommandDefinition.argumentStart = Command.header d := by
      rw [List.take_append_of_le_length _, headed]
      rw [length]
      exact Nat.le_trans (Nat.le_add_right 3 _) (Nat.le_max_left _ _)
    rw [dictionary.decode_of_header books d member _ start]
    apply Attempt.bind_of_ok
    apply Attempt.map_of_each _ _ _ enough
    rintro ⟨f, v⟩ given
    exact reads suffix f v ((Command.assigned_iff d.fields values enough f v).mpr (.inr given))

-- A command whose arguments stand out of order: two share a byte, one of these is fixed, and a byte is unused.
def exposure : CommandDefinition :=
  { name := "EXPOSE"
    opcode := 0x0102
    subsystem := none
    title := none
    desc := none
    ccsds := none
    fields :=
      [Ccsds.bits "gain" Ccsds.byteType (.single 4) (some 0x3c) none,
        Ccsds.bits "segment" Ccsds.byteType (.single 0) (some 0xc0) (some Ccsds.segments),
        { Ccsds.bits "guard" Ccsds.byteType (.single 0) (some 0x05) none with fixed := some (.int 4) },
        Ccsds.bits "time" Ccsds.wordType (.range 2 3) none none] }

theorem exposure_accepted : exposure.Accepted := ⟨.none, exposure.fields, exposure, rfl, rfl⟩

theorem exposure_decodes :
    let dictionary : CommandDictionary := ⟨[exposure], by decide, by decide⟩
    let command := Command.ofValues exposure [.int 9, .str "Last Segment", .int 258]
    ∃ encoded, command.encode .none 0 = .ok encoded ∧ encoded.length = 8 ∧
      dictionary.decode .none (encoded ++ [255]) = .ok command := by
  intro dictionary command
  have reachable : dictionary.Reachable := .add Catalog.empty dictionary exposure .empty exposure_accepted rfl
  have integers : ∀ f ∈ exposure.fields, ∃ t, f.type = .scalar (.primitive (.int t)) ∧ (f.mask = none ∨ t.signed = false) := by
    intro f member
    rcases member with _ | ⟨_, _ | ⟨_, _ | ⟨_, _ | ⟨_, ⟨⟩⟩⟩⟩⟩ <;> exact ⟨_, rfl, .inr rfl⟩
  have fixedCanonical : ∀ f ∈ exposure.fields, ∀ v, f.fixed = some v → f.Canonical .none v := by
    intro f member v fixed
    rcases member with _ | ⟨_, _ | ⟨_, _ | ⟨_, _ | ⟨_, ⟨⟩⟩⟩⟩⟩ <;> cases fixed
    exact ⟨[4], rfl⟩
  have canonical : ∀ pair ∈ exposure.arguments.zip [.int 9, .str "Last Segment", .int 258], pair.1.Canonical .none pair.2 := by
    intro pair member
    rcases member with _ | ⟨_, _ | ⟨_, _ | ⟨_, ⟨⟩⟩⟩⟩
    · exact ⟨[0, 0, 0, 0, 36], rfl⟩
    · exact ⟨[128], rfl⟩
    · exact ⟨[0, 0, 1, 2], rfl⟩
  obtain ⟨encoded, done, length, _, _, _, decoded⟩ := encoded_command_decodes .none dictionary reachable exposure
    List.mem_cons_self (by decide) integers (by decide) fixedCanonical [.int 9, .str "Last Segment", .int 258] rfl canonical 0
  exact ⟨encoded, done, length, decoded [255]⟩

end CommandDictionary

end SpaceLink
