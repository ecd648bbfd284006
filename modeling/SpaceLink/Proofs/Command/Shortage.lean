import SpaceLink.Ccsds.Header
import SpaceLink.Proofs.Command.Encoding
import SpaceLink.Proofs.Field.Shortage

/-!
Commands that are cut short. Reading asks for three bytes and then for those of each argument that has to be supplied,
one argument after the other. For the bytes of a fixed argument, or of a gap, it never asks.
-/

set_option autoImplicit false

namespace SpaceLink

namespace Attempt

variable {α : Type}

def Short (x : Attempt α) : Prop := ∃ actual minimum, x = .error (.notEnoughData actual minimum)

end Attempt

namespace CommandDictionary

open Attempt

section Cut

variable (books : Books) (bytes : Bytes)

def Reads (f : Field) : Prop := ∃ v, f.decodeAt books bytes 3 false none = .ok v

-- The bytes end before this argument does, and every argument in front of it is read.
def CutAt (arguments : List Field) (f : Field) : Prop :=
  ∃ before after, arguments = before ++ f :: after ∧ (∀ g ∈ before, Reads books bytes g) ∧
    bytes.length < 3 + (f.span 0).stop

theorem cut_of_readable (arguments : List Field) (long : 3 ≤ bytes.length)
    (readable : ∀ f ∈ arguments, 3 + (f.span 0).stop ≤ bytes.length → Reads books bytes f)
    (short : bytes.length < 3 + farthest arguments) : ∃ f, CutAt books bytes arguments f := by
  cases first : arguments.find? (fun f => decide (bytes.length < 3 + (f.span 0).stop)) with
  | none =>
      have inside : farthest arguments ≤ bytes.length - 3 := by
        rw [farthest_le_iff]
        intro f member
        have within := List.find?_eq_none.mp first f member
        rw [decide_eq_true_iff] at within
        omega
      omega
  | some f =>
      obtain ⟨past, before, after, rfl, inside⟩ := List.find?_eq_some_iff_append.mp first
      refine ⟨f, before, after, rfl, ?_, of_decide_eq_true past⟩
      intro g member
      have within : ¬ bytes.length < 3 + (g.span 0).stop := by simpa using inside g member
      exact readable g (List.mem_append_left _ member) (Nat.le_of_not_lt within)

end Cut

section Reading

variable (books : Books) (dictionary : CommandDictionary) (reachable : dictionary.Reachable)
variable (d : CommandDefinition) (member : d ∈ dictionary.entries)
variable (bytes : Bytes) (headed : bytes.take 2 = Bytes.big 2 d.opcode.toNat) (long : 3 ≤ bytes.length)

include member headed long in
theorem decode_error_iff (fault : Fault) : dictionary.decode books bytes = .error fault ↔
    ∃ before f after, d.arguments = before ++ f :: after ∧ (∀ g ∈ before, Reads books bytes g) ∧
      f.decodeAt books bytes 3 false none = .error fault := by
  rw [dictionary.decode_of_opcode books d member bytes headed long]
  refine Iff.trans ?_ (each_error_iff (fun f => f.decodeAt books bytes 3 false none) d.arguments fault)
  simp only [CommandDefinition.argumentStart]
  cases d.arguments.mapM fun f => f.decodeAt books bytes 3 false none <;> simp [bind, Except.bind]

include reachable member in
theorem argument_stop (f : Field) (argument : f ∈ d.arguments) :
    (f.span 3).start + f.extent ≤ (f.span 3).stop ∧ (f.span 3).stop = 3 + (f.span 0).stop := by
  have accepted := dictionary.reachable_accepted reachable d member
  obtain ⟨sound, moved, _⟩ := Command.argument_span d accepted f (List.mem_filter.mp argument).1
  have start := f.near_start sound
  simp only [CommandDefinition.argumentStart] at moved
  rw [moved]
  simp only
  omega

include reachable member headed long in
theorem decode_cut (f : Field) (cut : CutAt books bytes d.arguments f) :
    dictionary.decode books bytes = .error (.notEnoughData bytes.length (3 + (f.span 0).stop)) := by
  obtain ⟨before, after, split, read, past⟩ := cut
  have argument : f ∈ d.arguments := split ▸ List.mem_append_cons_self
  have stop := (argument_stop dictionary reachable d member f argument).2
  rw [decode_error_iff books dictionary d member bytes headed long]
  refine ⟨before, f, after, split, read, ?_⟩
  rw [← stop] at past ⊢
  exact f.decode_at_short books bytes 3 false none past

include reachable member headed long in
theorem cut_of_short (plain : ∀ f ∈ d.arguments, f.type.isBuiltIn = true ∧ ¬ f.type.Wraps)
    (short : Short (dictionary.decode books bytes)) : ∃ f, CutAt books bytes d.arguments f := by
  obtain ⟨actual, minimum, failed⟩ := short
  obtain ⟨before, f, after, split, read, own⟩ :=
    (decode_error_iff books dictionary d member bytes headed long _).mp failed
  have argument : f ∈ d.arguments := split ▸ List.mem_append_cons_self
  obtain ⟨room, stop⟩ := argument_stop dictionary reachable d member f argument
  refine ⟨f, before, after, split, read, Nat.lt_of_not_le fun inside => ?_⟩
  rw [← stop] at inside
  obtain ⟨builtIn, unwrapped⟩ := plain f argument
  exact f.decode_at_enough books builtIn unwrapped bytes 3 false none room inside actual minimum own

include member headed long in
theorem not_short_of_readable (readable : ∀ f ∈ d.arguments, Reads books bytes f) :
    ¬ Short (dictionary.decode books bytes) := by
  rintro ⟨actual, minimum, failed⟩
  obtain ⟨before, f, after, split, _, own⟩ :=
    (decode_error_iff books dictionary d member bytes headed long _).mp failed
  obtain ⟨v, read⟩ := readable f (split ▸ List.mem_append_cons_self)
  rw [read] at own
  cases own

include reachable member headed long in
theorem decode_more (inside : 3 + farthest d.arguments ≤ bytes.length) (more : Bytes) :
    dictionary.decode books (bytes ++ more) = dictionary.decode books bytes := by
  have longer : 3 ≤ (bytes ++ more).length := by
    rw [List.length_append]
    omega
  have front : (bytes ++ more).take 2 = Bytes.big 2 d.opcode.toNat := by
    rw [List.take_append_of_le_length (by omega), headed]
  rw [dictionary.decode_of_opcode books d member bytes headed long,
    dictionary.decode_of_opcode books d member (bytes ++ more) front longer]
  have same : (d.arguments.mapM fun f => f.decodeAt books (bytes ++ more) 3 false none) =
      d.arguments.mapM fun f => f.decodeAt books bytes 3 false none := by
    refine each_congr _ _ _ fun f argument => ?_
    obtain ⟨room, stop⟩ := argument_stop dictionary reachable d member f argument
    have near := stop_le_farthest d.arguments f argument
    exact f.decode_at_more books bytes more 3 false none (by omega) (by omega)
  simp only [CommandDefinition.argumentStart, same]

end Reading

theorem cut_command_noticed (books : Books) (dictionary : CommandDictionary) (reachable : dictionary.Reachable)
    (d : CommandDefinition) (member : d ∈ dictionary.entries) (bytes : Bytes)
    (headed : bytes.take 2 = Bytes.big 2 d.opcode.toNat) :
    (bytes.length < 3 → dictionary.decode books bytes = .error (.notEnoughData bytes.length 3)) ∧
    (3 ≤ bytes.length →
      (∀ f, CutAt books bytes d.arguments f →
        dictionary.decode books bytes = .error (.notEnoughData bytes.length (3 + (f.span 0).stop))) ∧
      ((∀ f ∈ d.arguments, f.type.isBuiltIn = true ∧ ¬ f.type.Wraps) →
        (Short (dictionary.decode books bytes) ↔ ∃ f, CutAt books bytes d.arguments f)) ∧
      ((∀ f ∈ d.arguments, 3 + (f.span 0).stop ≤ bytes.length → Reads books bytes f) →
        (Short (dictionary.decode books bytes) ↔ bytes.length < 3 + farthest d.arguments)) ∧
      (3 + farthest d.arguments ≤ bytes.length →
        ∀ more, dictionary.decode books (bytes ++ more) = dictionary.decode books bytes)) := by
  refine ⟨dictionary.decode_few books bytes, fun long => ⟨?cut, ?built, ?readable, ?more⟩⟩
  case cut => exact decode_cut books dictionary reachable d member bytes headed long
  case built =>
    intro plain
    refine ⟨cut_of_short books dictionary reachable d member bytes headed long plain, ?_⟩
    rintro ⟨f, cut⟩
    exact ⟨_, _, decode_cut books dictionary reachable d member bytes headed long f cut⟩
  case readable =>
    intro readable
    constructor
    · intro short
      refine Nat.lt_of_not_le fun inside => ?_
      refine not_short_of_readable books dictionary d member bytes headed long (fun f argument => ?_) short
      have near := stop_le_farthest d.arguments f argument
      exact readable f argument (by omega)
    · intro past
      obtain ⟨f, cut⟩ := cut_of_readable books bytes d.arguments long readable past
      exact ⟨_, _, decode_cut books dictionary reachable d member bytes headed long f cut⟩
  case more => exact decode_more books dictionary reachable d member bytes headed long

section Arming

-- The key behind the mode is always the same.
def arming : CommandDefinition :=
  { name := "ARM"
    opcode := 0x0102
    subsystem := none
    title := none
    desc := none
    ccsds := none
    fields :=
      [Ccsds.bits "mode" Ccsds.byteType (.single 0) none none,
        { Ccsds.bits "key" Ccsds.byteType (.single 1) none none with fixed := some (.int 0xaa) }] }

def armory : CommandDictionary := ⟨[arming], by decide, by decide⟩

theorem armory_reachable : armory.Reachable :=
  .add Catalog.empty armory arming .empty ⟨.none, arming.fields, arming, rfl, rfl⟩ rfl

theorem mode_wanted :
    Short (armory.decode .none [1, 2, 2]) ∧
      ∀ more, armory.decode .none ([1, 2, 2, 5] ++ more) = .ok (.ofValues arming [.int 5]) := by
  have noticed := cut_command_noticed .none armory armory_reachable arming List.mem_cons_self
  obtain ⟨-, -, present, -⟩ := (noticed [1, 2, 2] rfl).2 (by decide)
  obtain ⟨-, -, -, more⟩ := (noticed [1, 2, 2, 5] rfl).2 (by decide)
  refine ⟨(present fun f argument inside => ?_).mpr (by decide), more (by decide)⟩
  rcases List.mem_singleton.mp argument with rfl
  exact absurd inside (by decide)

theorem key_not_wanted :
    armory.Reachable ∧ arming ∈ armory.entries ∧
      ([1, 2, 2, 5] : Bytes).take 2 = Bytes.big 2 arming.opcode.toNat ∧ ([1, 2, 2, 5] : Bytes).length < arming.nbytes ∧
      armory.decode .none [1, 2, 2, 5] = .ok (.ofValues arming [.int 5]) :=
  ⟨armory_reachable, List.mem_cons_self, rfl, by decide, rfl⟩

end Arming

end CommandDictionary

end SpaceLink
