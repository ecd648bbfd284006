import SpaceLink.Proofs.Field.Slice
import SpaceLink.Proofs.Number.Parts
import SpaceLink.Proofs.Packet.Definition

/-!
The header as one number. Its six bytes spell the seven values side by side; setting a field replaces one of them
and reading gives one back, so that all headers are such numbers, whatever the order in which they were set.
-/

set_option autoImplicit false

namespace SpaceLink.Ccsds

open BitRun (joined placed Fits)

-- From the most significant bit on.
def parts : List BitRun :=
  [⟨"version", 3⟩, ⟨"type", 1⟩, ⟨"shflag", 1⟩, ⟨"apid", 11⟩, ⟨"seqflags", 2⟩, ⟨"seqcount", 14⟩, ⟨"length", 16⟩]

example (value : String → Nat) : joined value parts = value "version" * 2 ^ 45 + (value "type" * 2 ^ 44 +
    (value "shflag" * 2 ^ 43 + (value "apid" * 2 ^ 32 + (value "seqflags" * 2 ^ 30 + (value "seqcount" * 2 ^ 16 +
      (value "length" * 2 ^ 0 + 0)))))) := rfl

theorem parts_distinct : (parts.map BitRun.name).Nodup := by decide

-- The bits of the type from the lowest bit of the part on. A value that fits them is written and cut to the part.
def room (name : String) : Nat :=
  match name with
  | "version" => 3
  | "type" => 4
  | "shflag" => 5
  | "seqflags" => 2
  | _ => 16

def joinedHeader (value : String → Nat) : Packet := ⟨header, Bytes.big 6 (joined value parts)⟩

-- The field of a part, which has the bits of the part and no others.
structure Holds (place : BitRun.Placed) (f : Field) (t : IntType) : Prop where
  found : header.field place.name = .ok f
  present : f.condition = none
  slice : f.Slice t 6 place.low place.width
  spare : f.shift + room place.name = t.nbits

theorem holds_bits (place : BitRun.Placed) (type : IntType) (position : Position) (mask : Option UInt64)
    (enumeration : Option Enumeration) (member : bits place.name type position mask enumeration ∈ fields)
    (msb : type.signed = false ∧ type.order = .msb)
    (run : let f := bits place.name type position mask enumeration
      (f.span 0).stop ≤ 6 ∧ place.low + 8 * ((f.span 0).start + type.nbytes) = 8 * 6 + f.shift ∧
        f.shift + place.width ≤ 8 * type.nbytes ∧ f.shift + room place.name = type.nbits ∧
        ∀ byte < type.nbytes, ∀ small < 8, f.covers byte small =
          decide (f.shift ≤ 8 * (type.nbytes - 1 - byte) + small ∧
            8 * (type.nbytes - 1 - byte) + small < f.shift + place.width)) :
    ∃ f t, Holds place f t := by
  obtain ⟨inside, low, within, spare, covered⟩ := run
  have sound := header.accepted_sound header_accepted _ member
  exact ⟨_, type, header.accepted_field header_accepted _ member, rfl,
    ⟨sound, rfl, msb.1, msb.2, inside, low, within, covered⟩, spare⟩

theorem part_held (place : BitRun.Placed) (member : place ∈ placed parts) : ∃ f t, Holds place f t := by
  simp only [parts, placed, BitRun.total, List.mem_cons, List.not_mem_nil, or_false] at member
  rcases member with rfl | rfl | rfl | rfl | rfl | rfl | rfl
  · exact holds_bits _ byteType (.single 0) (some 0xe0) none (by simp [fields]) ⟨rfl, rfl⟩ (by decide)
  · exact holds_bits _ byteType (.single 0) (some 0x10) none (by simp [fields]) ⟨rfl, rfl⟩ (by decide)
  · exact holds_bits _ byteType (.single 0) (some 0x08) none (by simp [fields]) ⟨rfl, rfl⟩ (by decide)
  · exact holds_bits _ wordType (.range 0 1) (some 0x07ff) none (by simp [fields]) ⟨rfl, rfl⟩ (by decide)
  · exact holds_bits _ byteType (.single 2) (some 0xc0) (some segments) (by simp [fields]) ⟨rfl, rfl⟩ (by decide)
  · exact holds_bits _ wordType (.range 2 3) (some 0x3fff) none (by simp [fields]) ⟨rfl, rfl⟩ (by decide)
  · exact holds_bits _ wordType (.range 4 5) none none (by simp [fields]) ⟨rfl, rfl⟩ (by decide)

section Values

variable (value : String → Nat) (fits : Fits value parts) (place : BitRun.Placed) (member : place ∈ placed parts)

-- The values of a header after one of its parts was given a number.
def given (value : String → Nat) (place : BitRun.Placed) (n : Nat) : String → Nat :=
  Function.update value place.name (n % 2 ^ place.width)

include fits in
theorem header_number : Bytes.ofBig (Bytes.big 6 (joined value parts)) = joined value parts := by
  rw [Bytes.of_big_big]
  exact Nat.mod_eq_of_lt (BitRun.joined_lt value parts fits)

include fits member in
theorem set_part (n : Nat) (small : n < 2 ^ room place.name) :
    setBits (joinedHeader value) place.name n = .ok (joinedHeader (given value place n)) ∧
      Fits (given value place n) parts := by
  obtain ⟨f, t, holds⟩ := part_held place member
  have narrow : n * 2 ^ f.shift < 2 ^ t.nbits := by
    rw [← holds.spare, Nat.add_comm, Nat.pow_add]
    exact Nat.mul_lt_mul_of_pos_right small (Nat.two_pow_pos _)
  obtain ⟨out, written, length, bits⟩ := f.write_slice_bits t 6 place.low place.width holds.slice .none
    (Bytes.big 6 (joined value parts)) (Bytes.length_big 6 _) n narrow
  rw [header_number value fits] at bits
  have bound : Bytes.ofBig out < 2 ^ BitRun.total parts := by
    have below := ByteOrder.msb.read_lt out
    rw [length] at below
    exact below
  obtain ⟨same, fitting⟩ := BitRun.eq_joined_update value parts fits parts_distinct place member n _ bound bits
  refine ⟨?_, fitting⟩
  have spelled : out = Bytes.big 6 (joined (given value place n) parts) := by
    rw [given, ← same, ← length, Bytes.big_of_big]
  simp only [setBits, Packet.set, joinedHeader]
  rw [Attempt.bind_of_ok _ _ f holds.found, Attempt.bind_of_ok _ _ out written, spelled]

include member in
theorem set_part_refused (n : Nat) (byte : n < 2 ^ 8) (large : 2 ^ room place.name ≤ n) :
    ∃ cause, setBits (joinedHeader value) place.name n = .error (.outOfRange cause) := by
  obtain ⟨f, t, holds⟩ := part_held place member
  have wide : 2 ^ t.nbits ≤ n * 2 ^ f.shift := by
    rw [← holds.spare, Nat.add_comm, Nat.pow_add]
    exact Nat.mul_le_mul_right _ large
  have inType : n < 2 ^ t.nbits := Nat.lt_of_lt_of_le byte (Nat.pow_le_pow_right (by decide) t.nbits_bounds.1)
  have refused := f.write_slice_refused t 6 place.low place.width holds.slice .none (Bytes.big 6 (joined value parts))
    (Bytes.length_big 6 _) n inType wide
  refine ⟨.value (n * 2 ^ f.shift : Nat) t.least t.greatest, ?_⟩
  simp only [setBits, Packet.set, joinedHeader]
  rw [Attempt.bind_of_ok _ _ f holds.found, Attempt.bind_of_error _ _ _ refused]

include fits member in
theorem get_part (c : Context) :
    (joinedHeader value).get c place.name true none = .ok (some (.int (value place.name))) := by
  obtain ⟨f, t, holds⟩ := part_held place member
  have read := f.read_slice t 6 place.low place.width holds.slice c.books (Bytes.big 6 (joined value parts))
    (Bytes.length_big 6 _)
  rw [header_number value fits, BitRun.joined_cut value parts fits place member] at read
  simp only [Packet.get, joinedHeader]
  rw [Attempt.bind_of_ok _ _ f holds.found]
  simp only [Packet.readAt, Packet.readWith, holds.present]
  change (f.decode c.books (Bytes.big 6 (joined value parts)) true none >>= fun v => Except.ok (some v)) = _
  rw [read]
  rfl

end Values

-- Every header is that of some values, those that are cut out of its number.
theorem header_of_bytes (bytes : Bytes) (whole : bytes.length = 6) :
    let value := fun name => BitRun.cut (Bytes.ofBig bytes) name parts
    Fits value parts ∧ (⟨header, bytes⟩ : Packet) = joinedHeader value := by
  intro value
  have bound := ByteOrder.msb.read_lt bytes
  rw [whole] at bound
  obtain ⟨fits, joins⟩ := BitRun.joined_of_cuts value parts (Bytes.ofBig bytes) bound fun place member =>
    BitRun.cut_placed parts parts_distinct _ place member
  refine ⟨fits, ?_⟩
  rw [joinedHeader, joins, ← whole, Bytes.big_of_big]

def setAll (value : String → Nat) (p : Packet) (order : List String) : Attempt Packet :=
  order.foldlM (fun p name => setBits p name (value name)) p

-- Setting parts in some order gives them their own values; the others keep theirs.
theorem set_all_joined (value : String → Nat) (fits : Fits value parts) (order : List String)
    (known : ∀ name ∈ order, ∃ part ∈ parts, part.name = name) (start : String → Nat) (startFits : Fits start parts) :
    setAll value (joinedHeader start) order =
      .ok (joinedHeader fun name => if name ∈ order then value name else start name) := by
  induction order generalizing start with
  | nil => simp [setAll, pure, Except.pure]
  | cons name rest ih =>
      obtain ⟨part, inParts, rfl⟩ := known name List.mem_cons_self
      obtain ⟨place, member, rfl⟩ := BitRun.placed_of_part parts part inParts
      obtain ⟨f, t, holds⟩ := part_held place member
      have fitting := fits place.toBitRun inParts
      have within : value place.name < 2 ^ room place.name := by
        have run := holds.slice.run
        have spare := holds.spare
        simp only [IntType.nbits] at spare
        exact Nat.lt_of_lt_of_le fitting (Nat.pow_le_pow_right (by decide) (by omega))
      obtain ⟨done, nextFits⟩ := set_part start startFits place member (value place.name) within
      have later := ih (fun name inRest => known name (List.mem_cons_of_mem _ inRest)) _ nextFits
      rw [setAll, List.foldlM_cons, Attempt.bind_of_ok _ _ _ done]
      refine later.trans (congrArg (fun value => Except.ok (joinedHeader value)) (funext fun name => ?_))
      by_cases inRest : name ∈ rest
      · simp [inRest]
      · by_cases own : name = place.name
        · simp [given, own, Nat.mod_eq_of_lt fitting]
        · simp [given, own, inRest]

theorem set_all_parts (value : String → Nat) (fits : Fits value parts) (start : Bytes) (six : start.length = 6)
    (order : List String) (every : order.Perm (parts.map BitRun.name)) :
    setAll value ⟨header, start⟩ order = .ok (joinedHeader value) := by
  obtain ⟨startFits, same⟩ := header_of_bytes start six
  have known : ∀ name ∈ order, ∃ part ∈ parts, part.name = name := fun name member =>
    List.mem_map.mp (every.mem_iff.mp member)
  rw [same, set_all_joined value fits order known _ startFits]
  simp only [joinedHeader]
  rw [BitRun.joined_congr _ parts value]
  intro part inParts
  exact if_pos (every.mem_iff.mpr (List.mem_map_of_mem inParts))

theorem header_concatenates (value : String → Nat) (fits : ∀ part ∈ parts, value part.name < 2 ^ part.width)
    (start : Bytes) (six : start.length = 6) (order : List String) (every : order.Perm (parts.map BitRun.name))
    (bytes : Bytes) (whole : bytes.length = 6) :
    setAll value ⟨header, start⟩ order = .ok ⟨header, Bytes.big 6 (joined value parts)⟩ ∧
    readHeader bytes = .ok ⟨header, bytes⟩ ∧
    (∀ place ∈ placed parts, Packet.get context ⟨header, bytes⟩ place.name true none =
      .ok (some (.int (Bytes.ofBig bytes / 2 ^ place.low % 2 ^ place.width : Nat)))) ∧
    ∀ read : String → Nat, (∀ part ∈ parts, Packet.get context ⟨header, bytes⟩ part.name true none =
      .ok (some (.int (read part.name)))) → setAll read ⟨header, start⟩ order = .ok ⟨header, bytes⟩ := by
  obtain ⟨cutsFit, same⟩ := header_of_bytes bytes whole
  have reads : ∀ place ∈ placed parts, Packet.get context ⟨header, bytes⟩ place.name true none =
      .ok (some (.int (Bytes.ofBig bytes / 2 ^ place.low % 2 ^ place.width : Nat))) := by
    intro place member
    rw [← BitRun.cut_placed parts parts_distinct _ place member, same]
    exact get_part _ cutsFit place member context
  refine ⟨set_all_parts value fits start six order every, ?_, reads, ?_⟩
  · have all : bytes.take header.nbytes = bytes := List.take_of_length_le (Nat.le_of_eq whole)
    have long : ¬ bytes.length < header.nbytes := Nat.not_lt.mpr (Nat.le_of_eq whole.symm)
    simp only [readHeader, Packet.receive, all, if_neg long]
    rfl
  · intro read known
    have cuts : ∀ place ∈ placed parts, read place.name = Bytes.ofBig bytes / 2 ^ place.low % 2 ^ place.width := by
      intro place member
      have value := known place.toBitRun (BitRun.part_of_placed parts place member)
      rw [reads place member] at value
      injection value with value
      injection value with value
      injection value with value
      exact (Int.ofNat.inj value).symm
    have bound := ByteOrder.msb.read_lt bytes
    rw [whole] at bound
    obtain ⟨readFits, joins⟩ := BitRun.joined_of_cuts read parts (Bytes.ofBig bytes) bound cuts
    rw [set_all_parts read readFits start six order every, joinedHeader, joins, ← whole, Bytes.big_of_big]

def sample (name : String) : Nat :=
  match name with
  | "type" => 1
  | "shflag" => 1
  | "apid" => 42
  | "seqflags" => 3
  | "seqcount" => 1234
  | "length" => 5678
  | _ => 0

-- Seven values set from the lowest bits up, over a header of ones.
theorem sample_concatenates :
    (∀ part ∈ parts, sample part.name < 2 ^ part.width) ∧
    setAll sample ⟨header, List.replicate 6 255⟩
        ["length", "seqcount", "seqflags", "apid", "shflag", "type", "version"] =
      .ok ⟨header, [0x18, 0x2a, 0xc4, 0xd2, 0x16, 0x2e]⟩ ∧
    Packet.get context ⟨header, [0x18, 0x2a, 0xc4, 0xd2, 0x16, 0x2e]⟩ "seqcount" true none =
      .ok (some (.int 1234)) := by
  have fits : ∀ part ∈ parts, sample part.name < 2 ^ part.width := by decide
  obtain ⟨sets, _, reads, _⟩ := header_concatenates sample fits (List.replicate 6 255) rfl
    ["length", "seqcount", "seqflags", "apid", "shflag", "type", "version"] (by decide)
    [0x18, 0x2a, 0xc4, 0xd2, 0x16, 0x2e] rfl
  exact ⟨fits, sets, reads ⟨⟨"seqcount", 14⟩, 16⟩ (by simp [parts, placed, BitRun.total])⟩

end SpaceLink.Ccsds
