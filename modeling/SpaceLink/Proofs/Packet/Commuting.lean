import SpaceLink.Packet.Basic
import SpaceLink.Proofs.Field.Write
import SpaceLink.Proofs.Packet.Definition

/-!
Setting fields that share no bit. The order does not matter, neither for the bytes nor for what fails,
and setting one does not change what the other reads.
-/

set_option autoImplicit false

namespace SpaceLink

namespace Field

-- The buffer after a write, which a failing one leaves as it was, and the outcome.
def put (books : Books) (f : Field) (buffer : Bytes) (offset : Nat) (v : Value) : Bytes × Attempt Unit :=
  match f.write books buffer offset v with
  | .ok out => (out, .ok ())
  | .error fault => (buffer, .error fault)

variable (books : Books) (f g : Field) (offset length : Nat)

-- In all buffers of one length a value is either written with one image or refused with one fault.
theorem put_uniform (sound : f.Sound) (builtIn : f.type.isBuiltIn = true) (v : Value)
    (room : (f.span offset).start + f.extent ≤ (f.span offset).stop) :
    (∃ new, ∀ buffer : Bytes, buffer.length = length →
      ∃ out, f.put books buffer offset v = (out, .ok ()) ∧ f.Painted offset buffer new out) ∨
    (∃ fault, ∀ buffer : Bytes, buffer.length = length → f.put books buffer offset v = (buffer, .error fault)) := by
  by_cases short : length < (f.span offset).stop
  · refine .inr ⟨.notEnoughData length (f.span offset).stop, ?_⟩
    intro buffer same
    rw [put, f.write_short books buffer offset v (by omega), same]
  · cases imaged : f.image books v with
    | error fault =>
        refine .inr ⟨fault, ?_⟩
        intro buffer same
        rw [put, f.write_of_fault books buffer offset v fault (by omega) imaged]
    | ok new =>
        refine .inl ⟨new, ?_⟩
        intro buffer same
        obtain ⟨out, written, painted⟩ := f.write_of_image books sound builtIn buffer offset v new room (by omega) imaged
        exact ⟨out, by rw [put, written], painted⟩

variable (soundF : f.Sound) (soundG : g.Sound) (builtInF : f.type.isBuiltIn = true) (builtInG : g.type.isBuiltIn = true)
variable (roomF : (f.span offset).start + f.extent ≤ (f.span offset).stop)
variable (roomG : (g.span offset).start + g.extent ≤ (g.span offset).stop)
variable (apart : f.ApartAt offset g)

include soundF soundG builtInF builtInG roomF roomG apart in
theorem put_commute (buffer : Bytes) (v w : Value) :
    (g.put books (f.put books buffer offset v).1 offset w).2 = (g.put books buffer offset w).2 ∧
      (f.put books (g.put books buffer offset w).1 offset v).2 = (f.put books buffer offset v).2 ∧
      (g.put books (f.put books buffer offset v).1 offset w).1 = (f.put books (g.put books buffer offset w).1 offset v).1 := by
  rcases f.put_uniform books offset buffer.length soundF builtInF v roomF with ⟨newF, writesF⟩ | ⟨faultF, failsF⟩
  · obtain ⟨a, putF, paintF⟩ := writesF buffer rfl
    rcases g.put_uniform books offset buffer.length soundG builtInG w roomG with ⟨newG, writesG⟩ | ⟨faultG, failsG⟩
    · obtain ⟨b, putG, paintG⟩ := writesG buffer rfl
      obtain ⟨ab, putFG, paintFG⟩ := writesG a paintF.length
      obtain ⟨ba, putGF, paintGF⟩ := writesF b paintG.length
      rw [putF, putG]
      simp only [putFG, putGF, true_and]
      exact painted_commute f g offset buffer newF newG a b ab ba apart paintF paintFG paintG paintGF
    · rw [putF, failsG buffer rfl]
      simp only [failsG a paintF.length, putF, and_self]
  · rw [failsF buffer rfl]
    rcases g.put_uniform books offset buffer.length soundG builtInG w roomG with ⟨newG, writesG⟩ | ⟨faultG, failsG⟩
    · obtain ⟨b, putG, paintG⟩ := writesG buffer rfl
      simp only [putG, failsF b paintG.length, and_self]
    · simp only [failsG buffer rfl, failsF buffer rfl, and_self]

include soundF soundG builtInF builtInG roomF roomG apart in
theorem decode_after_put (buffer : Bytes) (v : Value) (raw : Bool) (index : Option Nat) :
    g.decodeAt books (f.put books buffer offset v).1 offset raw index = g.decodeAt books buffer offset raw index := by
  rcases f.put_uniform books offset buffer.length soundF builtInF v roomF with ⟨newF, writesF⟩ | ⟨faultF, failsF⟩
  · obtain ⟨out, putF, painted⟩ := writesF buffer rfl
    rw [putF]
    apply g.decode_at_agrees books soundG builtInG out buffer offset raw index roomG painted.length
    intro byte place ownedG
    apply painted.outside
    cases ownedF : f.owns offset byte place with
    | false => rfl
    | true => simp [apart byte place ownedF] at ownedG
  · rw [failsF buffer rfl]

end Field

namespace Packet

-- A packet after a value is set, with the outcome; the packet stays as it was where that fails.
def put (books : Books) (p : Packet) (name : String) (v : Value) : Packet × Attempt Unit :=
  match p.set books name v with
  | .ok changed => (changed, .ok ())
  | .error fault => (p, .error fault)

theorem put_field (books : Books) (d : PacketDefinition) (accepted : d.Accepted) (f : Field) (member : f ∈ d.fields)
    (data : Bytes) (v : Value) :
    put books ⟨d, data⟩ f.name v = (⟨d, (f.put books data 0 v).1⟩, (f.put books data 0 v).2) := by
  simp only [put, set, Field.put]
  rw [Attempt.bind_of_ok _ _ f (d.accepted_field accepted f member)]
  cases f.write books data 0 v with
  | ok out => rfl
  | error fault => rfl

theorem disjoint_sets_commute (books : Books) (p : Packet) (accepted : p.definition.Accepted)
    (builtIn : ∀ f ∈ p.definition.fields, f.type.isBuiltIn = true) (f g : Field)
    (memberF : f ∈ p.definition.fields) (memberG : g ∈ p.definition.fields) (apart : f.Apart g) (v w : Value) :
    let afterF := p.put books f.name v
    let afterFG := afterF.1.put books g.name w
    let afterG := p.put books g.name w
    let afterGF := afterG.1.put books f.name v
    afterFG.2 = afterG.2 ∧ afterGF.2 = afterF.2 ∧ afterFG.1 = afterGF.1 ∧
      ∀ raw index, g.decode books afterF.1.data raw index = g.decode books p.data raw index := by
  obtain ⟨d, data⟩ := p
  have soundF := d.accepted_sound accepted f memberF
  have soundG := d.accepted_sound accepted g memberG
  have roomF := f.near_start soundF
  have roomG := g.near_start soundG
  obtain ⟨outcomeG, outcomeF, bytes⟩ := f.put_commute books g 0 soundF soundG (builtIn f memberF) (builtIn g memberG)
    roomF roomG apart data v w
  have unread := f.decode_after_put books g 0 soundF soundG (builtIn f memberF) (builtIn g memberG) roomF roomG apart data v
  simp only [put_field books d accepted f memberF, put_field books d accepted g memberG]
  exact ⟨outcomeG, outcomeF, congrArg (Packet.mk d) bytes, unread⟩

-- Two fields of the space packet header that share its first byte.
theorem header_sets_commute :
    let p := Packet.new Ccsds.header
    let apidAlone := p.put .none "apid" (.int 42)
    let apidLater := (p.put .none "shflag" (.int 1)).1.put .none "apid" (.int 42)
    let flagLater := apidAlone.1.put .none "shflag" (.int 1)
    apidLater.2 = apidAlone.2 ∧ apidLater.1 = flagLater.1 := by
  intro p apidAlone apidLater flagLater
  obtain ⟨outcome, _, same, _⟩ := disjoint_sets_commute .none p Ccsds.header_accepted (by decide)
    (Ccsds.bits "shflag" Ccsds.byteType (.single 0) (some 0x08) none)
    (Ccsds.bits "apid" Ccsds.wordType (.range 0 1) (some 0x07ff) none)
    (.tail _ (.tail _ (.head _))) (.tail _ (.tail _ (.tail _ (.head _)))) (by decide) (.int 1) (.int 42)
  exact ⟨outcome, same⟩

end Packet

end SpaceLink
