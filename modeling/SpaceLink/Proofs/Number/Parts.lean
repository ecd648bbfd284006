import Mathlib.Logic.Function.Basic
import SpaceLink.Number.Power

/-!
Numbers side by side. Each part of the whole number has bits of its own, the first part the highest; the parts
make the whole and can be cut out of it again.
-/

set_option autoImplicit false

namespace SpaceLink

-- A name and a number of bits.
structure BitRun where
  name : String
  width : Nat
deriving DecidableEq

-- A part with the number of bits behind it.
structure BitRun.Placed extends BitRun where
  low : Nat
deriving DecidableEq

namespace BitRun

def total : List BitRun → Nat
  | [] => 0
  | part :: rest => part.width + total rest

def joined (value : String → Nat) : List BitRun → Nat
  | [] => 0
  | part :: rest => value part.name * 2 ^ total rest + joined value rest

def placed : List BitRun → List Placed
  | [] => []
  | part :: rest => ⟨part, total rest⟩ :: placed rest

def Fits (value : String → Nat) (parts : List BitRun) : Prop := ∀ part ∈ parts, value part.name < 2 ^ part.width

-- The bits of a part, by its name.
def cut (n : Nat) (name : String) : List BitRun → Nat
  | [] => 0
  | part :: rest => if part.name = name then n / 2 ^ total rest % 2 ^ part.width else cut n name rest

variable (value : String → Nat) (parts : List BitRun)

theorem part_of_placed (place : Placed) (member : place ∈ placed parts) : place.toBitRun ∈ parts := by
  induction parts with
  | nil => cases member
  | cons part rest ih =>
      rcases List.mem_cons.mp member with same | later
      · subst same
        exact List.mem_cons_self
      · exact List.mem_cons_of_mem _ (ih later)

theorem placed_of_part (part : BitRun) (member : part ∈ parts) : ∃ place ∈ placed parts, place.toBitRun = part := by
  induction parts with
  | nil => cases member
  | cons first rest ih =>
      rcases List.mem_cons.mp member with same | later
      · exact ⟨_, List.mem_cons_self, same.symm⟩
      · obtain ⟨place, inRest, own⟩ := ih later
        exact ⟨place, List.mem_cons_of_mem _ inRest, own⟩

theorem placed_inside (place : Placed) (member : place ∈ placed parts) : place.low + place.width ≤ total parts := by
  induction parts with
  | nil => cases member
  | cons part rest ih =>
      rcases List.mem_cons.mp member with same | later
      · subst same
        exact Nat.le_of_eq (Nat.add_comm _ _)
      · exact Nat.le_trans (ih later) (Nat.le_add_left _ _)

-- Every bit of the whole is a bit of one part, and of no other.
theorem placed_of_bit (i : Nat) (inside : i < total parts) :
    ∃ place ∈ placed parts, place.low ≤ i ∧ i < place.low + place.width := by
  induction parts with
  | nil => cases inside
  | cons part rest ih =>
      by_cases behind : i < total rest
      · obtain ⟨place, member, own⟩ := ih behind
        exact ⟨place, List.mem_cons_of_mem _ member, own⟩
      · refine ⟨_, List.mem_cons_self, Nat.le_of_not_lt behind, ?_⟩
        rw [Nat.add_comm]
        exact inside

theorem placed_apart (a b : Placed) (memberA : a ∈ placed parts) (memberB : b ∈ placed parts) (i : Nat)
    (ownA : a.low ≤ i ∧ i < a.low + a.width) (ownB : b.low ≤ i ∧ i < b.low + b.width) : a = b := by
  induction parts with
  | nil => cases memberA
  | cons part rest ih =>
      rcases List.mem_cons.mp memberA with sameA | laterA
      · rcases List.mem_cons.mp memberB with sameB | laterB
        · rw [sameA, sameB]
        · have below := placed_inside rest b laterB
          rw [sameA] at ownA
          simp only at ownA
          omega
      · rcases List.mem_cons.mp memberB with sameB | laterB
        · have below := placed_inside rest a laterA
          rw [sameB] at ownB
          simp only at ownB
          omega
        · exact ih laterA laterB

theorem placed_by_name (distinct : (parts.map name).Nodup) (a b : Placed) (memberA : a ∈ placed parts)
    (memberB : b ∈ placed parts) (same : a.name = b.name) : a = b := by
  induction parts with
  | nil => cases memberA
  | cons part rest ih =>
      rw [List.map_cons, List.nodup_cons] at distinct
      rcases List.mem_cons.mp memberA with sameA | laterA
      · rcases List.mem_cons.mp memberB with sameB | laterB
        · rw [sameA, sameB]
        · refine absurd (List.mem_map.mpr ⟨b.toBitRun, part_of_placed rest b laterB, ?_⟩) distinct.1
          rw [← same, sameA]
      · rcases List.mem_cons.mp memberB with sameB | laterB
        · refine absurd (List.mem_map.mpr ⟨a.toBitRun, part_of_placed rest a laterA, ?_⟩) distinct.1
          rw [same, sameB]
        · exact ih distinct.2 laterA laterB

section Joined

variable (fits : Fits value parts)

include fits

theorem joined_lt : joined value parts < 2 ^ total parts := by
  induction parts with
  | nil => exact Nat.one_pos
  | cons part rest ih =>
      have behind := ih fun other later => fits other (List.mem_cons_of_mem _ later)
      have own : value part.name + 1 ≤ 2 ^ part.width := fits part List.mem_cons_self
      calc
        joined value (part :: rest) < value part.name * 2 ^ total rest + 2 ^ total rest := Nat.add_lt_add_left behind _
        _ = (value part.name + 1) * 2 ^ total rest := (Nat.succ_mul _ _).symm
        _ ≤ 2 ^ part.width * 2 ^ total rest := Nat.mul_le_mul_right _ own
        _ = 2 ^ total (part :: rest) := (Nat.pow_add 2 part.width (total rest)).symm

theorem joined_bit (place : Placed) (member : place ∈ placed parts) (i : Nat) (inside : i < place.width) :
    (joined value parts).testBit (place.low + i) = (value place.name).testBit i := by
  induction parts with
  | nil => cases member
  | cons part rest ih =>
      have restFits : Fits value rest := fun other later => fits other (List.mem_cons_of_mem _ later)
      rw [joined, Nat.mul_comm, Nat.testBit_two_pow_mul_add _ (joined_lt value rest restFits)]
      rcases List.mem_cons.mp member with same | later
      · subst same
        rw [if_neg (by simp), Nat.add_sub_cancel_left]
      · have below := placed_inside rest place later
        rw [if_pos (by omega)]
        exact ih restFits later

theorem joined_cut (place : Placed) (member : place ∈ placed parts) :
    joined value parts / 2 ^ place.low % 2 ^ place.width = value place.name := by
  apply Nat.eq_of_testBit_eq
  intro i
  rw [Nat.testBit_mod_two_pow, Nat.testBit_div_two_pow, Nat.add_comm]
  by_cases inside : i < place.width
  · rw [joined_bit value parts fits place member i inside, decide_eq_true inside, Bool.true_and]
  · have small := fits place.toBitRun (part_of_placed parts place member)
    have clear : (value place.name).testBit i = false :=
      Nat.testBit_lt_two_pow (Nat.lt_of_lt_of_le small (Nat.pow_le_pow_right (by decide) (Nat.le_of_not_lt inside)))
    rw [clear, decide_eq_false inside, Bool.false_and]

-- A number whose bits are those of the parts is the parts joined.
theorem eq_joined_of_bits (n : Nat) (small : n < 2 ^ total parts)
    (bits : ∀ place ∈ placed parts, ∀ i < place.width, n.testBit (place.low + i) = (value place.name).testBit i) :
    n = joined value parts := by
  apply Nat.eq_of_testBit_eq
  intro i
  by_cases inside : i < total parts
  · obtain ⟨place, member, above, below⟩ := placed_of_bit parts i inside
    have index : i = place.low + (i - place.low) := by omega
    rw [index, bits place member _ (by omega), joined_bit value parts fits place member _ (by omega)]
  · have high := Nat.pow_le_pow_right (show 0 < 2 by decide) (Nat.le_of_not_lt inside)
    rw [Nat.testBit_lt_two_pow (Nat.lt_of_lt_of_le small high),
      Nat.testBit_lt_two_pow (Nat.lt_of_lt_of_le (joined_lt value parts fits) high)]

-- One part replaced changes the bits of that part and no other.
theorem eq_joined_update (distinct : (parts.map name).Nodup) (place : Placed) (member : place ∈ placed parts)
    (n out : Nat) (small : out < 2 ^ total parts)
    (bits : ∀ i < total parts, out.testBit i =
      if place.low ≤ i ∧ i < place.low + place.width then n.testBit (i - place.low) else (joined value parts).testBit i) :
    out = joined (Function.update value place.name (n % 2 ^ place.width)) parts ∧
      Fits (Function.update value place.name (n % 2 ^ place.width)) parts := by
  have updated : Fits (Function.update value place.name (n % 2 ^ place.width)) parts := by
    intro part inParts
    by_cases own : part.name = place.name
    · obtain ⟨other, otherMember, same⟩ := placed_of_part parts part inParts
      have one : other = place := placed_by_name parts distinct other place otherMember member (by rw [same, own])
      rw [own, Function.update_self, ← same, one]
      exact Nat.mod_lt _ (Nat.two_pow_pos _)
    · rw [Function.update_of_ne own]
      exact fits part inParts
  refine ⟨eq_joined_of_bits _ parts updated out small ?_, updated⟩
  intro other otherMember i inside
  have below := placed_inside parts other otherMember
  rw [bits _ (by omega)]
  by_cases own : other.name = place.name
  · have one : other = place := placed_by_name parts distinct other place otherMember member own
    subst one
    rw [if_pos (by omega), Nat.add_sub_cancel_left, Function.update_self, Nat.testBit_mod_two_pow,
      decide_eq_true inside, Bool.true_and]
  · have outside : ¬ (place.low ≤ other.low + i ∧ other.low + i < place.low + place.width) := by
      intro common
      have one := placed_apart parts other place otherMember member (other.low + i) (by omega) common
      exact own (by rw [one])
    rw [if_neg outside, Function.update_of_ne own, joined_bit value parts fits other otherMember i inside]

end Joined

theorem joined_congr (other : String → Nat) (same : ∀ part ∈ parts, value part.name = other part.name) :
    joined value parts = joined other parts := by
  induction parts with
  | nil => rfl
  | cons part rest ih =>
      rw [joined, joined, same part List.mem_cons_self, ih fun part later => same part (List.mem_cons_of_mem _ later)]

theorem cut_placed (distinct : (parts.map name).Nodup) (n : Nat) (place : Placed) (member : place ∈ placed parts) :
    cut n place.name parts = n / 2 ^ place.low % 2 ^ place.width := by
  induction parts with
  | nil => cases member
  | cons part rest ih =>
      rw [List.map_cons, List.nodup_cons] at distinct
      rcases List.mem_cons.mp member with same | later
      · subst same
        exact if_pos rfl
      · have other : part.name ≠ place.name := by
          intro same
          exact distinct.1 (List.mem_map.mpr ⟨place.toBitRun, part_of_placed rest place later, same.symm⟩)
        rw [cut, if_neg other, ih distinct.2 later]

theorem joined_of_cuts (n : Nat) (small : n < 2 ^ total parts)
    (cuts : ∀ place ∈ placed parts, value place.name = n / 2 ^ place.low % 2 ^ place.width) :
    Fits value parts ∧ joined value parts = n := by
  have fits : Fits value parts := by
    intro part inParts
    obtain ⟨place, member, same⟩ := placed_of_part parts part inParts
    rw [← same, cuts place member]
    exact Nat.mod_lt _ (Nat.two_pow_pos _)
  refine ⟨fits, (eq_joined_of_bits value parts fits n small ?_).symm⟩
  intro place member i inside
  rw [cuts place member, Nat.testBit_mod_two_pow, Nat.testBit_div_two_pow, decide_eq_true inside, Bool.true_and,
    Nat.add_comm]

end BitRun

end SpaceLink
