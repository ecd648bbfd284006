import SpaceLink.Proofs.Field.Write

/-!
Runs of writes. Where no two fields share a bit, each write of a run stays: at the end every field has
its own image, and the bits of no field are as they were.
-/

set_option autoImplicit false

namespace SpaceLink.Field

-- What a write at an offset into buffers of a length asks of its field.
structure Placed (f : Field) (offset length : Nat) : Prop where
  sound : f.Sound
  builtIn : f.type.isBuiltIn = true
  room : (f.span offset).start + f.extent ≤ (f.span offset).stop
  inside : (f.span offset).stop ≤ length

-- The same without a look at who made the type.
structure Fitted (f : Field) (offset length : Nat) : Prop where
  sound : f.Sound
  sized : f.type.Sized
  room : (f.span offset).start + f.extent ≤ (f.span offset).stop
  inside : (f.span offset).stop ≤ length

theorem Placed.fitted (f : Field) (offset length : Nat) (placed : f.Placed offset length) : f.Fitted offset length :=
  ⟨placed.sound, f.type.sized_of_built_in placed.builtIn, placed.room, placed.inside⟩

def writeAll (books : Books) (offset : Nat) : List (Field × Value) → Bytes → Attempt Bytes
  | [], buffer => .ok buffer
  | (f, v) :: rest, buffer => f.write books buffer offset v >>= writeAll books offset rest

structure PaintedAll (books : Books) (offset : Nat) (pairs : List (Field × Value)) (buffer out : Bytes) : Prop where
  length : out.length = buffer.length
  inside : ∀ pair ∈ pairs, ∀ new, pair.1.image books pair.2 = .ok new →
    ∀ byte place, pair.1.owns offset byte place = true →
      out.bit byte place = new.bit (byte - (pair.1.span offset).start) place
  outside : ∀ byte place, (∀ pair ∈ pairs, pair.1.owns offset byte place = false) →
    out.bit byte place = buffer.bit byte place

variable (books : Books) (offset : Nat)

theorem painted_all_nil (buffer : Bytes) : PaintedAll books offset [] buffer buffer := by
  refine ⟨rfl, ?_, fun _ _ _ => rfl⟩
  intro pair member
  cases member

-- The first write stays because no later one touches its bits.
theorem painted_all_cons (f : Field) (v : Value) (rest : List (Field × Value)) (buffer next out new : Bytes)
    (imaged : f.image books v = .ok new) (apart : ∀ pair ∈ rest, f.ApartAt offset pair.1)
    (first : f.Painted offset buffer new next) (later : PaintedAll books offset rest next out) :
    PaintedAll books offset ((f, v) :: rest) buffer out := by
  refine ⟨later.length.trans first.length, ?_, ?_⟩
  · intro pair member other otherImaged byte place owned
    rcases List.mem_cons.mp member with same | inRest
    · subst same
      rw [imaged] at otherImaged
      cases otherImaged
      rw [later.outside byte place fun pair inRest => apart pair inRest byte place owned]
      exact first.inside byte place owned
    · exact later.inside pair inRest other otherImaged byte place owned
  · intro byte place unowned
    rw [later.outside byte place fun pair inRest => unowned pair (List.mem_cons_of_mem _ inRest)]
    exact first.outside byte place (unowned (f, v) List.mem_cons_self)

theorem write_all_painted (pairs : List (Field × Value)) (buffer : Bytes)
    (fitted : ∀ pair ∈ pairs, pair.1.Fitted offset buffer.length)
    (apart : pairs.Pairwise fun a b => a.1.ApartAt offset b.1)
    (imaged : ∀ pair ∈ pairs, ∃ new, pair.1.image books pair.2 = .ok new) :
    ∃ out, writeAll books offset pairs buffer = .ok out ∧ PaintedAll books offset pairs buffer out := by
  induction pairs generalizing buffer with
  | nil => exact ⟨buffer, rfl, painted_all_nil books offset buffer⟩
  | cons pair rest ih =>
      obtain ⟨f, v⟩ := pair
      obtain ⟨here, restApart⟩ := List.pairwise_cons.mp apart
      obtain ⟨sound, sized, room, inside⟩ := fitted (f, v) List.mem_cons_self
      obtain ⟨new, done⟩ := imaged (f, v) List.mem_cons_self
      obtain ⟨next, written, painted⟩ := f.write_sized books sound sized buffer offset v new room inside done
      obtain ⟨out, finished, all⟩ := ih next
        (fun pair inRest => painted.length ▸ fitted pair (List.mem_cons_of_mem _ inRest)) restApart
        (fun pair inRest => imaged pair (List.mem_cons_of_mem _ inRest))
      refine ⟨out, ?_, painted_all_cons books offset f v rest buffer next out new done here painted all⟩
      exact (Attempt.bind_of_ok _ _ next written).trans finished

-- The first value without an image ends the run with its fault.
theorem write_all_refused (before rest : List (Field × Value)) (f : Field) (v : Value) (fault : Fault) (buffer : Bytes)
    (fitted : ∀ pair ∈ before, pair.1.Fitted offset buffer.length)
    (imaged : ∀ pair ∈ before, ∃ new, pair.1.image books pair.2 = .ok new)
    (inside : (f.span offset).stop ≤ buffer.length) (failed : f.image books v = .error fault) :
    writeAll books offset (before ++ (f, v) :: rest) buffer = .error fault := by
  induction before generalizing buffer with
  | nil => exact Attempt.bind_of_error _ _ fault (f.write_of_fault books buffer offset v fault inside failed)
  | cons pair before ih =>
      obtain ⟨sound, sized, room, reach⟩ := fitted pair List.mem_cons_self
      obtain ⟨new, done⟩ := imaged pair List.mem_cons_self
      obtain ⟨next, written, painted⟩ := pair.1.write_sized books sound sized buffer offset pair.2 new room reach done
      have later := ih next (fun other member => painted.length ▸ fitted other (List.mem_cons_of_mem _ member))
        (fun other member => imaged other (List.mem_cons_of_mem _ member)) (painted.length ▸ inside)
      exact (Attempt.bind_of_ok _ _ next written).trans later

-- Writing back the values of a buffer restores it from any other one, if the fields leave no bit out.
theorem write_all_restores (pairs : List (Field × Value)) (bytes buffer : Bytes) (same : buffer.length = bytes.length)
    (placed : ∀ pair ∈ pairs, pair.1.Placed offset bytes.length)
    (apart : pairs.Pairwise fun a b => a.1.ApartAt offset b.1)
    (back : ∀ pair ∈ pairs, pair.1.write books bytes offset pair.2 = .ok bytes)
    (covered : ∀ byte < bytes.length, ∀ place < 8, ∃ pair ∈ pairs, pair.1.owns offset byte place = true) :
    writeAll books offset pairs buffer = .ok bytes := by
  have images : ∀ pair ∈ pairs, ∃ new, pair.1.image books pair.2 = .ok new ∧
      pair.1.Painted offset bytes new bytes := by
    intro pair member
    obtain ⟨sound, builtIn, room, _⟩ := placed pair member
    exact (pair.1.painted_of_write books sound builtIn bytes bytes offset pair.2 room (back pair member)).2
  obtain ⟨out, written, painted⟩ := write_all_painted books offset pairs buffer
    (fun pair member => same ▸ (placed pair member).fitted) apart fun pair member => (images pair member).imp fun _ found => found.1
  have length : out.length = bytes.length := painted.length.trans same
  rw [written]
  congr 1
  apply Bytes.bytes_of_bits out bytes length
  intro byte inside place low
  obtain ⟨pair, member, owned⟩ := covered byte (by omega) place low
  obtain ⟨new, imaged, own⟩ := images pair member
  rw [painted.inside pair member new imaged byte place owned, own.inside byte place owned]

-- A run that ends well has an image for each of its values.
theorem write_all_images (pairs : List (Field × Value)) (buffer out : Bytes)
    (fitted : ∀ pair ∈ pairs, pair.1.Fitted offset buffer.length) (done : writeAll books offset pairs buffer = .ok out) :
    ∀ pair ∈ pairs, ∃ new, pair.1.image books pair.2 = .ok new := by
  induction pairs generalizing buffer with
  | nil => simp
  | cons pair rest ih =>
      obtain ⟨f, v⟩ := pair
      obtain ⟨sound, sized, room, _⟩ := fitted (f, v) List.mem_cons_self
      obtain ⟨next, written, others⟩ := (Attempt.bind_ok_iff _ _ _).mp done
      obtain ⟨_, new, imaged, painted⟩ := f.painted_of_sized books sound sized buffer next offset v room written
      intro pair member
      rcases List.mem_cons.mp member with same | inRest
      · subst same
        exact ⟨new, imaged⟩
      · exact ih next (fun pair inRest => painted.length ▸ fitted pair (List.mem_cons_of_mem _ inRest)) others pair inRest

end SpaceLink.Field
