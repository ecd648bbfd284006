import SpaceLink.Command.Basic
import SpaceLink.Proofs.Command.Definition
import SpaceLink.Proofs.Field.Layout
import SpaceLink.Proofs.Field.Run

/-!
The bytes of a command. One run writes every argument behind the three bytes of the header, the fixed
ones with their own values and the others with those supplied, in order.
-/

set_option autoImplicit false

namespace SpaceLink

namespace Command

-- Each field with its fixed value, or else with the next of the values supplied.
def assigned : List Field → List Value → List (Field × Value)
  | [], _ => []
  | f :: fields, values =>
    match f.fixed, values with
    | some v, _ => (f, v) :: assigned fields values
    | none, v :: rest => (f, v) :: assigned fields rest
    | none, [] => []

def supplied (fields : List Field) : List Field := fields.filter fun f => f.fixed.isNone

theorem supplied_fixed (f : Field) (fields : List Field) (v : Value) (fixed : f.fixed = some v) :
    supplied (f :: fields) = supplied fields := by
  simp [supplied, fixed]

theorem supplied_free (f : Field) (fields : List Field) (free : f.fixed = none) :
    supplied (f :: fields) = f :: supplied fields := by
  simp [supplied, free]

-- The three ways that fields and enough values for them begin.
theorem assigned_induction
    {motive : (fields : List Field) → (values : List Value) → values.length = (supplied fields).length → Prop}
    (nil : motive [] [] rfl)
    (fixed : ∀ f v fields values whole enough, f.fixed = some v → motive fields values enough →
      motive (f :: fields) values whole)
    (free : ∀ f v fields values whole enough, f.fixed = none → motive fields values enough →
      motive (f :: fields) (v :: values) whole)
    (fields : List Field) (values : List Value) (enough : values.length = (supplied fields).length) :
    motive fields values enough := by
  induction fields generalizing values with
  | nil =>
      have empty := List.eq_nil_of_length_eq_zero enough
      subst empty
      exact nil
  | cons f fields ih =>
      cases set : f.fixed with
      | some v =>
          have rest : values.length = (supplied fields).length := by rw [enough, supplied_fixed f fields v set]
          exact fixed f v fields values enough rest set (ih values rest)
      | none =>
          cases values with
          | nil =>
              rw [supplied_free f fields set] at enough
              cases enough
          | cons v values =>
              have rest : values.length = (supplied fields).length := by
                rw [supplied_free f fields set] at enough
                exact Nat.succ.inj enough
              exact free f v fields values enough rest set (ih values rest)

theorem assigned_fixed (f : Field) (v : Value) (fields : List Field) (values : List Value) (fixed : f.fixed = some v) :
    assigned (f :: fields) values = (f, v) :: assigned fields values := by
  simp only [assigned, fixed]

theorem assigned_free (f : Field) (v : Value) (fields : List Field) (values : List Value) (free : f.fixed = none) :
    assigned (f :: fields) (v :: values) = (f, v) :: assigned fields values := by
  simp only [assigned, free]

section Values

variable (fields : List Field) (values : List Value) (enough : values.length = (supplied fields).length)

include enough

theorem assigned_fields : (assigned fields values).map Prod.fst = fields := by
  induction fields, values, enough using assigned_induction with
  | nil => rfl
  | fixed f v fields values _ _ set ih => rw [assigned_fixed f v fields values set, List.map_cons, ih]
  | free f v fields values _ _ set ih => rw [assigned_free f v fields values set, List.map_cons, ih]

-- Every field gets its own fixed value or the value at its place among those supplied, and no other.
theorem assigned_iff (f : Field) (v : Value) :
    (f, v) ∈ assigned fields values ↔ (f ∈ fields ∧ f.fixed = some v) ∨ (f, v) ∈ (supplied fields).zip values := by
  induction fields, values, enough using assigned_induction with
  | nil => simp [assigned, supplied]
  | fixed g w fields values _ _ fixed ih =>
      rw [assigned_fixed g w fields values fixed, supplied_fixed g fields w fixed, List.mem_cons, ih, List.mem_cons,
        Prod.mk.injEq]
      constructor
      · rintro (⟨rfl, rfl⟩ | ⟨member, set⟩ | inZip)
        · exact .inl ⟨.inl rfl, fixed⟩
        · exact .inl ⟨.inr member, set⟩
        · exact .inr inZip
      · rintro (⟨rfl | member, set⟩ | inZip)
        · rw [fixed] at set
          cases set
          exact .inl ⟨rfl, rfl⟩
        · exact .inr (.inl ⟨member, set⟩)
        · exact .inr (.inr inZip)
  | free g w fields values _ _ free ih =>
      rw [assigned_free g w fields values free, supplied_free g fields free, List.zip_cons_cons, List.mem_cons, ih,
        List.mem_cons, List.mem_cons, Prod.mk.injEq]
      constructor
      · rintro (⟨rfl, rfl⟩ | ⟨member, set⟩ | inZip)
        · exact .inr (.inl ⟨rfl, rfl⟩)
        · exact .inl ⟨.inr member, set⟩
        · exact .inr (.inr inZip)
      · rintro (⟨rfl | member, set⟩ | ⟨rfl, rfl⟩ | inZip)
        · rw [free] at set
          cases set
        · exact .inr (.inl ⟨member, set⟩)
        · exact .inl ⟨rfl, rfl⟩
        · exact .inr (.inr inZip)

-- The running index of the supplied values is never off: what comes behind them is not looked at.
theorem write_fields_assigned (books : Books) (more : List (Option Value)) (buffer : Bytes) :
    writeFields books fields (values.map some ++ more) buffer =
      Field.writeAll books CommandDefinition.argumentStart (assigned fields values) buffer := by
  induction fields, values, enough using assigned_induction generalizing buffer with
  | nil => rfl
  | fixed f v fields values _ _ set ih =>
      rw [assigned_fixed f v fields values set]
      simp only [writeFields, set, Field.writeAll, ih]
  | free f v fields values _ _ set ih =>
      rw [assigned_free f v fields values set]
      simp only [List.map_cons, List.cons_append, writeFields, set, Field.writeAll, ih]

end Values

def header (d : CommandDefinition) : Bytes := Bytes.big 2 d.opcode.toNat ++ [UInt8.ofNat d.argumentSize]

-- The bytes of a command before any argument is written.
def blank (d : CommandDefinition) (pad : Nat) : Bytes := Bytes.fit (max d.nbytes pad) (header d)

theorem length_header (d : CommandDefinition) : (header d).length = CommandDefinition.argumentStart := by
  rw [header, List.length_append, Bytes.length_big]
  rfl

theorem length_blank (d : CommandDefinition) (pad : Nat) : (blank d pad).length = max d.nbytes pad := Bytes.length_fit _ _

theorem header_le_blank (d : CommandDefinition) (pad : Nat) : (header d).length ≤ max d.nbytes pad := by
  rw [length_header, CommandDefinition.nbytes]
  omega

theorem blank_eq (d : CommandDefinition) (pad : Nat) :
    blank d pad = header d ++ List.replicate (max d.nbytes pad - (header d).length) 0 := by
  rw [blank, Bytes.fit, List.take_of_length_le (header_le_blank d pad)]

theorem take_blank (d : CommandDefinition) (pad : Nat) :
    (blank d pad).take CommandDefinition.argumentStart = header d := by
  rw [blank_eq, ← length_header d, List.take_left]

theorem blank_bit (d : CommandDefinition) (pad byte place : Nat) (behind : CommandDefinition.argumentStart ≤ byte) :
    (blank d pad).bit byte place = false := by
  rw [blank_eq, Bytes.bit_append_right _ _ _ _ (by rw [length_header]; exact behind), Bytes.bit_zeros]

section Encoding

variable (books : Books) (d : CommandDefinition) (accepted : d.Accepted) (small : d.argumentSize ≤ 255)
variable (builtIn : ∀ f ∈ d.fields, f.type.isBuiltIn = true)
variable (values : List Value) (enough : values.length = d.arguments.length)
variable (more : List (Option Value)) (unrecognized : List String) (pad : Nat)

include small enough in
theorem encode_assigned :
    encode books ⟨d, values.map some ++ more, unrecognized⟩ pad =
      Field.writeAll books CommandDefinition.argumentStart (assigned d.fields values) (blank d pad) := by
  simp only [encode]
  rw [if_neg (Nat.not_lt.mpr small)]
  exact write_fields_assigned d.fields values enough books more (blank d pad)

theorem near_arguments : CommandDefinition.argumentStart + Field.lastByte + 1 < Position.greatest := by decide

include accepted in
theorem argument_span (f : Field) (member : f ∈ d.fields) :
    f.Sound ∧ f.span CommandDefinition.argumentStart =
      ⟨(f.span 0).start + CommandDefinition.argumentStart, (f.span 0).stop + CommandDefinition.argumentStart⟩ ∧
      (f.span 0).stop ≤ d.argumentSize := by
  have sound := d.accepted_sound accepted f member
  exact ⟨sound, f.span_moved sound _ near_arguments, stop_le_farthest d.fields f member⟩

include accepted in
theorem argument_fitted (f : Field) (member : f ∈ d.fields) (sized : f.type.Sized) :
    f.Fitted CommandDefinition.argumentStart (blank d pad).length := by
  obtain ⟨sound, moved, inside⟩ := argument_span d accepted f member
  have start := f.near_start sound
  refine ⟨sound, sized, ?_, ?_⟩
  · rw [moved]
    simp only
    omega
  · rw [moved, length_blank, CommandDefinition.nbytes]
    simp only
    omega

include accepted builtIn in
theorem argument_placed (f : Field) (member : f ∈ d.fields) :
    f.Placed CommandDefinition.argumentStart (blank d pad).length := by
  obtain ⟨sound, _, room, inside⟩ :=
    argument_fitted d accepted pad f member (f.type.sized_of_built_in (builtIn f member))
  exact ⟨sound, builtIn f member, room, inside⟩

include accepted in
theorem header_unowned (f : Field) (member : f ∈ d.fields) (byte place : Nat)
    (before : byte < CommandDefinition.argumentStart) : f.owns CommandDefinition.argumentStart byte place = false := by
  obtain ⟨_, moved, _⟩ := argument_span d accepted f member
  cases owned : f.owns CommandDefinition.argumentStart byte place with
  | false => rfl
  | true =>
      obtain ⟨start, _⟩ := f.owns_bounds _ byte place owned
      rw [moved] at start
      simp only at start
      omega

include enough in
theorem assigned_member (pair : Field × Value) (member : pair ∈ assigned d.fields values) : pair.1 ∈ d.fields := by
  rw [← assigned_fields d.fields values enough]
  exact List.mem_map_of_mem member

include accepted enough in
theorem assigned_apart (apart : d.fields.Pairwise Field.Apart) :
    (assigned d.fields values).Pairwise fun a b => a.1.ApartAt CommandDefinition.argumentStart b.1 := by
  rw [← assigned_fields d.fields values enough, List.pairwise_map] at apart
  refine apart.imp_of_mem ?_
  intro a b memberA memberB
  have soundA := d.accepted_sound accepted a.1 (assigned_member d values enough a memberA)
  have soundB := d.accepted_sound accepted b.1 (assigned_member d values enough b memberB)
  exact fun separate => a.1.apart_moved b.1 soundA soundB separate _ near_arguments

-- Where each argument has an image, encoding paints them all; and it fails where one has none.
include accepted small enough in
theorem encode_sized (sized : ∀ f ∈ d.fields, f.type.Sized) (apart : d.fields.Pairwise Field.Apart)
    (imaged : ∀ pair ∈ assigned d.fields values, ∃ new, pair.1.image books pair.2 = .ok new) :
    ∃ encoded, encode books ⟨d, values.map some ++ more, unrecognized⟩ pad = .ok encoded ∧
      Field.PaintedAll books CommandDefinition.argumentStart (assigned d.fields values) (blank d pad) encoded := by
  rw [encode_assigned books d small values enough more unrecognized pad]
  apply Field.write_all_painted
  · intro pair member
    have own := assigned_member d values enough pair member
    exact argument_fitted d accepted pad pair.1 own (sized pair.1 own)
  · exact assigned_apart d accepted values enough apart
  · exact imaged

include accepted small builtIn enough in
theorem encode_painted (apart : d.fields.Pairwise Field.Apart)
    (imaged : ∀ pair ∈ assigned d.fields values, ∃ new, pair.1.image books pair.2 = .ok new) :
    ∃ encoded, encode books ⟨d, values.map some ++ more, unrecognized⟩ pad = .ok encoded ∧
      Field.PaintedAll books CommandDefinition.argumentStart (assigned d.fields values) (blank d pad) encoded :=
  encode_sized books d accepted small values enough more unrecognized pad
    (fun f member => f.type.sized_of_built_in (builtIn f member)) apart imaged

include accepted small enough in
theorem images_of_sized (sized : ∀ f ∈ d.fields, f.type.Sized) (encoded : Bytes)
    (done : encode books ⟨d, values.map some ++ more, unrecognized⟩ pad = .ok encoded) :
    ∀ pair ∈ assigned d.fields values, ∃ new, pair.1.image books pair.2 = .ok new := by
  rw [encode_assigned books d small values enough more unrecognized pad] at done
  apply Field.write_all_images books _ _ _ encoded _ done
  intro pair member
  have own := assigned_member d values enough pair member
  exact argument_fitted d accepted pad pair.1 own (sized pair.1 own)

include accepted small builtIn enough in
theorem images_of_encode (encoded : Bytes)
    (done : encode books ⟨d, values.map some ++ more, unrecognized⟩ pad = .ok encoded) :
    ∀ pair ∈ assigned d.fields values, ∃ new, pair.1.image books pair.2 = .ok new :=
  images_of_sized books d accepted small values enough more unrecognized pad
    (fun f member => f.type.sized_of_built_in (builtIn f member)) encoded done

include accepted small enough in
theorem encode_refused (sized : ∀ f ∈ d.fields, f.type.Sized) (before rest : List (Field × Value)) (f : Field)
    (v : Value) (fault : Fault) (split : assigned d.fields values = before ++ (f, v) :: rest)
    (imaged : ∀ pair ∈ before, ∃ new, pair.1.image books pair.2 = .ok new) (failed : f.image books v = .error fault) :
    encode books ⟨d, values.map some ++ more, unrecognized⟩ pad = .error fault := by
  have own : ∀ pair ∈ before ++ (f, v) :: rest, pair.1.Fitted CommandDefinition.argumentStart (blank d pad).length := by
    intro pair member
    have inFields := assigned_member d values enough pair (split ▸ member)
    exact argument_fitted d accepted pad pair.1 inFields (sized pair.1 inFields)
  rw [encode_assigned books d small values enough more unrecognized pad, split]
  exact Field.write_all_refused books _ before rest f v fault _
    (fun pair member => own pair (List.mem_append_left _ member)) imaged
    (own (f, v) (List.mem_append_right _ List.mem_cons_self)).inside failed

variable (encoded : Bytes)
variable (painted : Field.PaintedAll books CommandDefinition.argumentStart (assigned d.fields values) (blank d pad) encoded)

include painted in
theorem painted_length : encoded.length = max (CommandDefinition.argumentStart + d.argumentSize) pad := by
  rw [painted.length, length_blank, CommandDefinition.nbytes]

include accepted enough painted in
theorem painted_header : encoded.take CommandDefinition.argumentStart = header d := by
  have long : CommandDefinition.argumentStart ≤ (blank d pad).length := by
    rw [length_blank, CommandDefinition.nbytes]
    omega
  rw [← take_blank d pad]
  apply Bytes.take_of_bits
  · rw [painted.length]
    exact long
  · exact long
  · intro byte before place _
    apply painted.outside
    intro pair member
    exact header_unowned d accepted pair.1 (assigned_member d values enough pair member) byte place before

include enough painted in
theorem painted_gap (byte place : Nat) (behind : CommandDefinition.argumentStart ≤ byte)
    (unowned : ∀ f ∈ d.fields, f.owns CommandDefinition.argumentStart byte place = false) :
    encoded.bit byte place = false := by
  rw [painted.outside byte place, blank_bit d pad byte place behind]
  intro pair member
  exact unowned pair.1 (assigned_member d values enough pair member)

-- Every field reads its own image, whatever stands behind the command.
include accepted builtIn enough painted in
theorem painted_reads (f : Field) (v : Value) (new suffix : Bytes) (member : (f, v) ∈ assigned d.fields values)
    (unwrapped : ¬ f.type.Wraps) (imaged : f.image books v = .ok new) (raw : Bool) (index : Option Nat) :
    f.decodeAt books (encoded ++ suffix) CommandDefinition.argumentStart raw index = f.decodeSlice books new raw index := by
  have inFields := assigned_member d values enough (f, v) member
  obtain ⟨sound, plain, room, long⟩ := argument_placed d accepted builtIn pad f inFields
  have whole := f.length_encode books (f.type.sized_of_built_in plain) v new ((f.image_ok_iff books v new).mp imaged).1
  rw [← f.extent_type unwrapped] at whole
  rw [← painted.length] at long
  apply f.decode_painted books sound plain unwrapped _ (encoded ++ suffix) new raw index room _ whole
  · intro byte place owned
    have bounds := f.owns_bounds _ byte place owned
    rw [Bytes.bit_append_left _ _ _ _ (by omega)]
    exact painted.inside (f, v) member new imaged byte place owned
  · rw [List.length_append]
    omega

end Encoding

end Command

end SpaceLink
