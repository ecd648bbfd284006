import SpaceLink.Proofs.Ccsds.Concatenation

/-!
The header of a definition. A value is refused where it leaves the byte or word of its field. Where it only leaves
the bits of the field it is cut, and then the header is not one that the definition describes.
-/

set_option autoImplicit false

namespace SpaceLink

namespace Ccsds

open BitRun (placed Fits)

def setEach (p : Packet) (steps : List (BitRun.Placed × Nat)) : Attempt Packet :=
  steps.foldlM (fun p step => setBits p step.1.name step.2) p

def givenEach (value : String → Nat) (steps : List (BitRun.Placed × Nat)) : String → Nat :=
  steps.foldl (fun value step => given value step.1 step.2) value

theorem set_each_joined (steps : List (BitRun.Placed × Nat)) (known : ∀ step ∈ steps, step.1 ∈ placed parts)
    (value : String → Nat) (fits : Fits value parts) (roomy : ∀ step ∈ steps, step.2 < 2 ^ room step.1.name) :
    setEach (joinedHeader value) steps = .ok (joinedHeader (givenEach value steps)) ∧
      Fits (givenEach value steps) parts := by
  induction steps generalizing value with
  | nil => exact ⟨rfl, fits⟩
  | cons step rest ih =>
      obtain ⟨done, nextFits⟩ := set_part value fits step.1 (known step List.mem_cons_self) step.2
        (roomy step List.mem_cons_self)
      obtain ⟨later, lastFits⟩ := ih (fun other inRest => known other (List.mem_cons_of_mem _ inRest)) _ nextFits
        fun other inRest => roomy other (List.mem_cons_of_mem _ inRest)
      refine ⟨?_, lastFits⟩
      rw [setEach, List.foldlM_cons, Attempt.bind_of_ok _ _ _ done]
      exact later

-- The first value without room ends the run.
theorem set_each_refused (steps : List (BitRun.Placed × Nat)) (known : ∀ step ∈ steps, step.1 ∈ placed parts)
    (small : ∀ step ∈ steps, step.2 < 2 ^ room step.1.name ∨ step.2 < 2 ^ 8) (value : String → Nat)
    (fits : Fits value parts) (large : ∃ step ∈ steps, 2 ^ room step.1.name ≤ step.2) :
    ∃ cause, setEach (joinedHeader value) steps = .error (.outOfRange cause) := by
  induction steps generalizing value with
  | nil =>
      obtain ⟨step, member, _⟩ := large
      cases member
  | cons step rest ih =>
      have own := known step List.mem_cons_self
      by_cases roomy : step.2 < 2 ^ room step.1.name
      · obtain ⟨done, nextFits⟩ := set_part value fits step.1 own step.2 roomy
        have later : ∃ other ∈ rest, 2 ^ room other.1.name ≤ other.2 := by
          obtain ⟨other, member, unroomy⟩ := large
          rcases List.mem_cons.mp member with same | inRest
          · subst same
            omega
          · exact ⟨other, inRest, unroomy⟩
        obtain ⟨cause, refused⟩ := ih (fun other inRest => known other (List.mem_cons_of_mem _ inRest))
          (fun other inRest => small other (List.mem_cons_of_mem _ inRest)) _ nextFits later
        refine ⟨cause, ?_⟩
        rw [setEach, List.foldlM_cons, Attempt.bind_of_ok _ _ _ done]
        exact refused
      · have byte : step.2 < 2 ^ 8 := (small step List.mem_cons_self).resolve_left roomy
        obtain ⟨cause, refused⟩ := set_part_refused value step.1 own step.2 byte (Nat.le_of_not_lt roomy)
        exact ⟨cause, by rw [setEach, List.foldlM_cons, Attempt.bind_of_error _ _ _ refused]⟩

end Ccsds

namespace CcsdsDefinition

open Ccsds BitRun

variable (d : CcsdsDefinition)

-- A new header is not part of a group; then come the values of the definition.
def steps : List (BitRun.Placed × Nat) :=
  [(⟨⟨"seqflags", 2⟩, 30⟩, 3), (⟨⟨"version", 3⟩, 45⟩, d.version.toNat), (⟨⟨"type", 1⟩, 44⟩, d.type.toNat),
    (⟨⟨"shflag", 1⟩, 43⟩, d.shflag.toNat), (⟨⟨"apid", 11⟩, 32⟩, d.apid.toNat),
    (⟨⟨"seqflags", 2⟩, 30⟩, d.seqflags.toNat), (⟨⟨"length", 16⟩, 0⟩, d.length.toNat)]

theorem steps_known : ∀ step ∈ d.steps, step.1 ∈ placed parts := by
  simp [steps, parts, placed, total]

theorem header_steps : d.header = setEach (joinedHeader fun _ => 0) d.steps := by
  have empty : Packet.new Ccsds.header = joinedHeader fun _ => 0 := rfl
  simp only [header, newHeader, setEach, steps, empty, List.foldlM_cons, List.foldlM_nil, bind_pure]
  rfl

theorem shflag_le : d.shflag.toNat ≤ 1 := by
  simp only [shflag]
  cases d.secondary <;> decide

theorem step_rooms : room "version" = 3 ∧ room "type" = 4 ∧ room "shflag" = 5 ∧ room "apid" = 16 ∧
    room "seqflags" = 2 ∧ room "length" = 16 := by decide

theorem steps_small : ∀ step ∈ d.steps, step.2 < 2 ^ room step.1.name ∨ step.2 < 2 ^ 8 := by
  have version := d.version.toNat_lt
  have type := d.type.toNat_lt
  have flag := d.shflag_le
  have apid := d.apid.toNat_lt
  have flags := d.seqflags.toNat_lt
  have length := d.length.toNat_lt
  simp only [steps, List.forall_mem_cons, List.not_mem_nil, false_implies, implies_true, and_true, step_rooms]
  omega

theorem steps_roomy_iff : (∀ step ∈ d.steps, step.2 < 2 ^ room step.1.name) ↔
    d.version.toNat < 8 ∧ d.type.toNat < 16 ∧ d.seqflags.toNat < 4 := by
  have flag := d.shflag_le
  have apid := d.apid.toNat_lt
  have length := d.length.toNat_lt
  simp only [steps, List.forall_mem_cons, List.not_mem_nil, false_implies, implies_true, and_true, step_rooms]
  omega

-- What a header holds of the definition.
def stored (name : String) : Nat :=
  match name with
  | "version" => d.version.toNat
  | "type" => d.type.toNat % 2
  | "shflag" => d.shflag.toNat
  | "apid" => d.apid.toNat % 2048
  | "seqflags" => d.seqflags.toNat
  | "length" => d.length.toNat
  | _ => 0

theorem stored_wanted : d.stored "version" = d.version.toNat ∧ d.stored "type" = d.type.toNat % 2 ∧
    d.stored "shflag" = d.shflag.toNat ∧ d.stored "apid" = d.apid.toNat % 2048 := ⟨rfl, rfl, rfl, rfl⟩

theorem stored_given : ∀ part ∈ parts, d.seqflags.toNat < 4 → d.version.toNat < 8 →
    givenEach (fun _ => 0) d.steps part.name = d.stored part.name := by
  have flag := d.shflag_le
  have length := d.length.toNat_lt
  simp only [parts, List.forall_mem_cons, List.not_mem_nil, false_implies, implies_true, givenEach, steps,
    List.foldl_cons, List.foldl_nil, given, Function.update_apply, stored]
  refine ⟨?_, ?_, ?_, ?_, ?_, ?_, ?_, trivial⟩ <;> intro flags version <;> simp <;> omega

-- A header agrees with wanted numbers exactly if they are its values.
theorem agrees_joined (value : String → Nat) (fits : Fits value parts) (c : Context) (wanted : List (String × Int))
    (known : ∀ pair ∈ wanted, ∃ place ∈ placed parts, place.name = pair.1) :
    agrees c (joinedHeader value) wanted = .ok (decide (∀ pair ∈ wanted, (value pair.1 : Int) = pair.2)) := by
  induction wanted with
  | nil => simp [agrees]
  | cons pair rest ih =>
      obtain ⟨name, number⟩ := pair
      obtain ⟨place, member, rfl⟩ := known _ List.mem_cons_self
      have others := ih fun pair later => known pair (List.mem_cons_of_mem _ later)
      simp only [agrees]
      rw [Attempt.bind_of_ok _ _ _ (get_part value fits place member c)]
      by_cases same : (value place.name : Int) = number
      · simp [Value.toInt?, same, others]
      · simp [Value.toInt?, same]

theorem header_stored (version : d.version.toNat < 8) (type : d.type.toNat < 16) (flags : d.seqflags.toNat < 4) :
    d.header = .ok (joinedHeader d.stored) ∧ Fits d.stored parts := by
  have zeros : Fits (fun _ => 0) parts := fun part _ => Nat.two_pow_pos part.width
  obtain ⟨done, fits⟩ := set_each_joined d.steps d.steps_known _ zeros (d.steps_roomy_iff.mpr ⟨version, type, flags⟩)
  have same : ∀ part ∈ parts, givenEach (fun _ => 0) d.steps part.name = d.stored part.name := fun part member =>
    d.stored_given part member flags version
  refine ⟨?_, fun part member => same part member ▸ fits part member⟩
  rw [header_steps, done, joinedHeader, BitRun.joined_congr _ parts d.stored same, joinedHeader]

theorem header_refused (unroomy : ¬ (d.version.toNat < 8 ∧ d.type.toNat < 16 ∧ d.seqflags.toNat < 4)) :
    ∃ cause, d.header = .error (.outOfRange cause) := by
  have zeros : Fits (fun _ => 0) parts := fun part _ => Nat.two_pow_pos part.width
  rw [header_steps]
  apply set_each_refused d.steps d.steps_known d.steps_small _ zeros
  rw [← d.steps_roomy_iff] at unroomy
  simpa using unroomy

theorem header_fits (fits : Fits d.stored parts) (c : Context) :
    d.fits c (joinedHeader d.stored) = .ok (decide (d.type.toNat < 2 ∧ d.apid.toNat < 2048)) := by
  have known : ∀ pair ∈ ([("version", (d.version.toNat : Int)), ("type", d.type.toNat), ("shflag", d.shflag.toNat),
      ("apid", d.apid.toNat)] : List (String × Int)), ∃ place ∈ placed parts, place.name = pair.1 := by
    simp [parts, placed]
  rw [CcsdsDefinition.fits, agrees_joined d.stored fits c _ known]
  congr 1
  apply decide_eq_decide.mpr
  simp only [List.forall_mem_cons, List.not_mem_nil, false_implies, implies_true, and_true, true_and,
    stored_wanted]
  omega

-- A value is refused only where it leaves the byte of its field. A type of two and more and an identifier of 2048 and
-- more are cut to the bits that there are for them, and the header is then another one than was asked for.
theorem header_refuses_or_cuts (d : CcsdsDefinition) :
    ((∃ p, d.header = .ok p) ↔ d.version.toNat < 8 ∧ d.type.toNat < 16 ∧ d.seqflags.toNat < 4) ∧
    (∀ fault, d.header = .error fault → ∃ cause, fault = .outOfRange cause) ∧
    ∀ p, d.header = .ok p → ∀ c,
      d.fits c p = .ok (decide (d.type.toNat < 2 ∧ d.apid.toNat < 2048)) ∧
      p.get c "type" true none = .ok (some (.int (d.type.toNat % 2 : Nat))) ∧
      p.get c "apid" true none = .ok (some (.int (d.apid.toNat % 2048 : Nat))) ∧
      p.get c "seqflags" true none = .ok (some (.int d.seqflags.toNat)) ∧
      p.get c "seqcount" true none = .ok (some (.int 0)) ∧
      p.get c "length" true none = .ok (some (.int d.length.toNat)) := by
  by_cases roomy : d.version.toNat < 8 ∧ d.type.toNat < 16 ∧ d.seqflags.toNat < 4
  · obtain ⟨done, fits⟩ := d.header_stored roomy.1 roomy.2.1 roomy.2.2
    refine ⟨⟨fun _ => roomy, fun _ => ⟨_, done⟩⟩, ?_, ?_⟩
    · intro fault failed
      rw [done] at failed
      cases failed
    · intro p made c
      rw [done] at made
      cases made
      have reads := fun place member => get_part d.stored fits place member c
      exact ⟨d.header_fits fits c, reads ⟨⟨"type", 1⟩, 44⟩ (by decide), reads ⟨⟨"apid", 11⟩, 32⟩ (by decide),
        reads ⟨⟨"seqflags", 2⟩, 30⟩ (by decide), reads ⟨⟨"seqcount", 14⟩, 16⟩ (by decide),
        reads ⟨⟨"length", 16⟩, 0⟩ (by decide)⟩
  · obtain ⟨cause, refused⟩ := d.header_refused roomy
    refine ⟨⟨?_, fun within => absurd within roomy⟩, ?_, ?_⟩
    · rintro ⟨p, made⟩
      rw [refused] at made
      cases made
    · intro fault failed
      rw [refused] at failed
      cases failed
      exact ⟨cause, rfl⟩
    · intro p made
      rw [refused] at made
      cases made

-- The type has a single bit.
def oversized : CcsdsDefinition := { CcsdsDefinition.default with type := 2 }

theorem oversized_type_lost :
    ∃ p, oversized.header = .ok p ∧ p.data = [0, 0, 0xc0, 0, 0, 0] ∧ oversized.fits Ccsds.context p = .ok false :=
  ⟨_, rfl, rfl, rfl⟩

end CcsdsDefinition

end SpaceLink
