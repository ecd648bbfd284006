import SpaceLink.Field.Basic
import SpaceLink.Proofs.Attempt
import SpaceLink.Proofs.DataType.Width

/-!
What a field that passes its check is known to be: its bytes stand in order, hold its type and end
early enough, and a mask is one of an integer type that is as wide. Fields of one definition have names
of their own besides.
-/

set_option autoImplicit false

namespace SpaceLink.Field

structure Sound (f : Field) : Prop where
  reach : (f.span 0).stop ≤ lastByte + 1
  forward : ∀ first last, f.position = .range first last → first ≤ last ∧ f.type.nbytes ≤ last - first + 1
  masked : ∀ mask, f.mask = some mask →
    ∃ t, f.type = .scalar (.primitive (.int t)) ∧ mask ≠ 0 ∧ mask.toNat < 2 ^ t.nbits

theorem unmasked_of_other (f : Field) (sound : f.Sound) (other : ∀ t, f.type ≠ .scalar (.primitive (.int t))) :
    f.mask = none := by
  cases masked : f.mask with
  | none => rfl
  | some mask =>
      obtain ⟨t, integer, _⟩ := sound.masked mask masked
      exact absurd integer (other t)

theorem unmasked_of_wraps (f : Field) (sound : f.Sound) (wraps : f.type.Wraps) : f.mask = none :=
  f.unmasked_of_other sound fun _ integer => DataType.scalar_unwrapped _ (integer ▸ wraps)

theorem check_ok_iff (books : Books) (f : Field) :
    f.check books = .ok () ↔
      f.checkPosition = .ok () ∧ f.checkMask = .ok () ∧ f.checkRange = .ok () ∧ f.checkFixed books = .ok () := by
  simp only [check, Attempt.bind_ok_iff]
  constructor
  · rintro ⟨⟨⟩, position, ⟨⟩, mask, ⟨⟩, range, fixed⟩
    exact ⟨position, mask, range, fixed⟩
  · rintro ⟨position, mask, range, fixed⟩
    exact ⟨(), position, (), mask, (), range, fixed⟩

theorem int_type_of_some (type : DataType) (t : IntType) (integer : type.intType? = some t) :
    type = .scalar (.primitive (.int t)) := by
  cases type with
  | array a => cases integer
  | scalar s =>
      cases s with
      | primitive p =>
          cases p with
          | int t' => cases integer; rfl
          | _ => cases integer
      | _ => cases integer

theorem reach_of_check (f : Field) (passed : f.checkPosition = .ok ()) :
    (f.span 0).stop ≤ lastByte + 1 ∧
      ∀ first last, f.position = .range first last → first ≤ last ∧ f.type.nbytes ≤ last - first + 1 := by
  simp only [checkPosition] at passed
  by_cases past : lastByte + 1 < (f.span 0).stop
  · rw [if_pos past] at passed
    cases passed
  · refine ⟨Nat.le_of_not_lt past, ?_⟩
    intro first last ranged
    simp only [if_neg past, ranged] at passed
    by_cases reversed : last < first
    · rw [if_pos reversed] at passed
      cases passed
    · by_cases narrow : last - first + 1 < f.type.nbytes
      · rw [if_neg reversed, if_pos narrow] at passed
        cases passed
      · exact ⟨Nat.le_of_not_lt reversed, Nat.le_of_not_lt narrow⟩

theorem mask_of_check (f : Field) (mask : UInt64) (masked : f.mask = some mask) (passed : f.checkMask = .ok ()) :
    ∃ t, f.type = .scalar (.primitive (.int t)) ∧ mask ≠ 0 ∧ mask.toNat < 2 ^ t.nbits := by
  simp only [checkMask, masked] at passed
  cases integer : f.type.intType? with
  | none =>
      simp only [integer] at passed
      cases passed
  | some t =>
      simp only [integer] at passed
      by_cases unfit : mask = 0 ∨ 2 ^ t.nbits ≤ mask.toNat
      · rw [if_pos unfit] at passed
        cases passed
      · refine ⟨t, int_type_of_some f.type t integer, ?_, ?_⟩
        · exact fun zero => unfit (.inl zero)
        · exact Nat.lt_of_not_le fun wide => unfit (.inr wide)

theorem sound_of_check (books : Books) (f : Field) (passed : f.check books = .ok ()) : f.Sound := by
  obtain ⟨position, mask, _, _⟩ := (check_ok_iff books f).mp passed
  obtain ⟨reach, forward⟩ := reach_of_check f position
  exact ⟨reach, forward, fun m masked => mask_of_check f m masked mask⟩

theorem fixed_encodes (books : Books) (f : Field) (v : Value) (fixed : f.fixed = some v)
    (passed : f.check books = .ok ()) : ∃ bytes, f.encode books v = .ok bytes := by
  obtain ⟨_, _, _, checked⟩ := (check_ok_iff books f).mp passed
  simp only [checkFixed, fixed] at checked
  obtain ⟨bytes, encoded, _⟩ := (Attempt.bind_ok_iff _ _ _).mp checked
  exact ⟨bytes, encoded⟩

-- The bytes that a field takes up: those of its type, or all it has if the type has more of them than its width says.
def extent (f : Field) : Nat := if f.type.Wraps then f.nbytes else f.type.nbytes

theorem extent_unwrapped (f : Field) (unwrapped : ¬ f.type.Wraps) : f.extent = f.type.nbytes := if_neg unwrapped

theorem extent_type (f : Field) (unwrapped : ¬ f.type.Wraps) : f.extent = f.type.extent :=
  (f.extent_unwrapped unwrapped).trans (f.type.nbytes_unwrapped unwrapped)

theorem extent_exact (f : Field) (exact : f.nbytes = f.type.nbytes) : f.extent = f.type.nbytes := by
  rw [extent, exact, ite_self]

theorem extent_scalar (f : Field) (s : Scalar) (scalar : f.type = .scalar s) : f.extent = s.nbytes := by
  rw [f.extent_unwrapped (scalar ▸ DataType.scalar_unwrapped s), scalar]
  rfl

theorem type_inside (f : Field) (sound : f.Sound) : (f.span 0).start + f.type.nbytes ≤ (f.span 0).stop := by
  have reach := sound.reach
  have forward := sound.forward
  simp only [span, Position.span, Position.addHeld, lastByte, Position.greatest] at reach ⊢
  cases place : f.position with
  | next => simp only [place] at reach ⊢; omega
  | previous => simp only [place] at reach ⊢; omega
  | single first => simp only [place] at reach ⊢; omega
  | range first last =>
      obtain ⟨ordered, wide⟩ := forward first last place
      simp only [place] at reach ⊢
      omega

theorem near_start (f : Field) (sound : f.Sound) : (f.span 0).start + f.extent ≤ (f.span 0).stop := by
  have inside := f.type_inside sound
  by_cases wraps : f.type.Wraps
  · rw [extent, if_pos wraps, nbytes, Span.length]
    omega
  · rwa [f.extent_unwrapped wraps]

-- Byte numbers are held below 2 ^ 64. Where the end of a field is not held, nothing before it is.
theorem span_held (f : Field) (sound : f.Sound) (offset : Nat) (inside : (f.span offset).stop < Position.greatest) :
    f.span offset = ⟨(f.span 0).start + offset, (f.span 0).stop + offset⟩ := by
  have reach := sound.reach
  have forward := sound.forward
  simp only [span, Position.span, Position.addHeld, lastByte, Position.greatest] at inside reach ⊢
  cases place : f.position with
  | next =>
      simp only [place, Span.mk.injEq] at inside reach ⊢
      omega
  | previous =>
      simp only [place, Span.mk.injEq] at inside reach ⊢
      omega
  | single first =>
      simp only [place, Span.mk.injEq] at inside reach ⊢
      omega
  | range first last =>
      obtain ⟨ordered, wide⟩ := forward first last place
      simp only [place, Span.mk.injEq] at inside reach ⊢
      omega

theorem room (f : Field) (sound : f.Sound) (offset : Nat) (inside : (f.span offset).stop < Position.greatest) :
    (f.span offset).start + f.extent ≤ (f.span offset).stop := by
  have near := f.near_start sound
  rw [f.span_held sound offset inside]
  simp only
  omega

-- A moved field may lack bytes at the end of what is counted.
theorem span_moved_length (f : Field) (sound : f.Sound) (offset : Nat) : (f.span offset).length ≤ f.nbytes := by
  have reach := sound.reach
  have forward := sound.forward
  simp only [nbytes, span, Position.span, Position.addHeld, lastByte, Position.greatest, Span.length] at reach ⊢
  cases place : f.position with
  | next => simp only [place] at reach ⊢; omega
  | previous => simp only [place] at reach ⊢; omega
  | single first => simp only [place] at reach ⊢; omega
  | range first last => simp only [place] at reach ⊢; omega

-- A value has too many bytes only for a field that gives it all of its own.
theorem extent_least (f : Field) (sound : f.Sound) (length : Nat) (enough : f.extent ≤ length)
    (own : length ≤ f.nbytes) : f.extent = min f.type.extent length := by
  by_cases wraps : f.type.Wraps
  · have full : f.extent = f.nbytes := if_pos wraps
    have reach := sound.reach
    have more := f.type.extent_wraps wraps
    simp only [nbytes, Span.length, lastByte] at full own reach
    omega
  · rw [f.extent_type wraps] at enough ⊢
    exact (Nat.min_eq_left enough).symm

theorem span_moved (f : Field) (sound : f.Sound) (offset : Nat) (near : offset + lastByte + 1 < Position.greatest) :
    f.span offset = ⟨(f.span 0).start + offset, (f.span 0).stop + offset⟩ := by
  apply f.span_held sound
  have reach := sound.reach
  simp only [span, Position.span, Position.addHeld] at near reach ⊢
  cases place : f.position <;> simp only [place] at reach ⊢ <;> omega

-- Fields that pass their checks and have names of their own, none of which was seen before.
inductive Listed (books : Books) : List String → List Field → Prop
  | nil (seen : List String) : Listed books seen []
  | cons (seen : List String) (f : Field) (rest : List Field) (checked : f.check books = .ok ()) (fresh : f.name ∉ seen)
      (others : Listed books (f.name :: seen) rest) : Listed books seen (f :: rest)

theorem listed_members (books : Books) (seen : List String) (fields : List Field) (listed : Listed books seen fields) :
    (∀ f ∈ fields, f.check books = .ok ()) ∧ (fields.map name).Nodup ∧ ∀ f ∈ fields, f.name ∉ seen := by
  induction listed with
  | nil seen => simp
  | cons seen f rest checked fresh others ih =>
      obtain ⟨restChecked, restDistinct, restFresh⟩ := ih
      refine ⟨?_, ?_, ?_⟩
      · intro g member
        rcases List.mem_cons.mp member with same | later
        · exact same ▸ checked
        · exact restChecked g later
      · rw [List.map_cons, List.nodup_cons]
        refine ⟨?_, restDistinct⟩
        intro repeated
        obtain ⟨g, member, same⟩ := List.mem_map.mp repeated
        exact restFresh g member (same ▸ List.mem_cons_self)
      · intro g member
        rcases List.mem_cons.mp member with same | later
        · exact same ▸ fresh
        · exact fun inSeen => restFresh g later (List.mem_cons_of_mem _ inSeen)

end SpaceLink.Field
