import SpaceLink.Command.Basic
import SpaceLink.Proofs.Catalog
import SpaceLink.Proofs.Field.Check

/-!
What is known of the arguments of a command definition, of any dictionary that definitions were added
to, and of the search by opcode, with which the bytes of a command are read.
-/

set_option autoImplicit false

namespace SpaceLink

namespace CommandDefinition

-- A definition made of fields. The title, subsystem and the like that it is given later leave them alone.
def Accepted (d : CommandDefinition) : Prop :=
  ∃ books fields made, ofFields books d.name d.opcode fields = .ok made ∧ d.fields = made.fields

theorem fields_listed (books : Books) (command : String) (seen : List String) (fields : List Field)
    (passed : checkFields books command seen fields = .ok ()) : Field.Listed books seen fields := by
  induction fields generalizing seen with
  | nil => exact .nil seen
  | cons f rest ih =>
      simp only [checkFields] at passed
      obtain ⟨⟨⟩, checked, others⟩ := (Attempt.bind_ok_iff _ _ _).mp passed
      by_cases repeated : seen.contains f.name = true
      · rw [if_pos repeated] at others
        cases others
      · rw [if_neg repeated] at others
        exact .cons seen f rest checked (by simpa using repeated) (ih (f.name :: seen) others)

theorem accepted_fields (d : CommandDefinition) (accepted : d.Accepted) :
    (∃ books, ∀ f ∈ d.fields, f.check books = .ok ()) ∧ (d.fields.map Field.name).Nodup := by
  obtain ⟨books, fields, made, done, same⟩ := accepted
  obtain ⟨⟨⟩, passed, built⟩ := (Attempt.bind_ok_iff _ _ _).mp done
  cases built
  obtain ⟨checked, distinct, _⟩ := Field.listed_members books _ _ (fields_listed books _ _ _ passed)
  exact ⟨⟨books, same ▸ checked⟩, same ▸ distinct⟩

theorem accepted_sound (d : CommandDefinition) (accepted : d.Accepted) (f : Field) (member : f ∈ d.fields) : f.Sound := by
  obtain ⟨⟨books, checked⟩, _⟩ := d.accepted_fields accepted
  exact f.sound_of_check books (checked f member)

end CommandDefinition

namespace CommandDictionary

inductive Reachable : CommandDictionary → Prop
  | empty : Reachable Catalog.empty
  | add (dictionary more : CommandDictionary) (d : CommandDefinition) (earlier : Reachable dictionary)
      (accepted : d.Accepted) (added : dictionary.add d = .ok more) : Reachable more

theorem entries_of_add (dictionary more : CommandDictionary) (d : CommandDefinition)
    (added : dictionary.add d = .ok more) : more.entries = dictionary.entries ++ [d] := by
  unfold add at added
  cases outcome : dictionary.add? d with
  | none =>
      rw [outcome] at added
      cases added
  | some other =>
      rw [outcome] at added
      cases added
      exact Catalog.entries_of_add dictionary more d outcome

theorem reachable_accepted (dictionary : CommandDictionary) (reachable : Reachable dictionary) :
    ∀ d ∈ dictionary.entries, d.Accepted := by
  induction reachable with
  | empty => simp [Catalog.empty]
  | add dictionary more d earlier accepted added ih =>
      intro other member
      rw [entries_of_add dictionary more d added, List.mem_append, List.mem_singleton] at member
      rcases member with before | same
      · exact ih other before
      · exact same ▸ accepted

theorem of_number (dictionary : CommandDictionary) (d : CommandDefinition) (member : d ∈ dictionary.entries) :
    dictionary.ofNumber? d.opcode = some d :=
  (dictionary.of_number_iff d.opcode d).mpr ⟨member, rfl⟩

theorem decode_of_opcode (dictionary : CommandDictionary) (books : Books) (d : CommandDefinition)
    (member : d ∈ dictionary.entries) (bytes : Bytes) (headed : bytes.take 2 = Bytes.big 2 d.opcode.toNat)
    (long : CommandDefinition.argumentStart ≤ bytes.length) :
    dictionary.decode books bytes = (do
      let values ← d.arguments.mapM fun f => f.decodeAt books bytes CommandDefinition.argumentStart false none
      .ok (.ofValues d values)) := by
  match bytes, headed, long with
  | high :: low :: size :: rest, headed, _ =>
      have spelled : [high, low] = Bytes.big 2 d.opcode.toNat := headed
      have small : d.opcode.toNat < 256 ^ 2 := d.opcode.toNat_lt
      have opcode : UInt16.ofNat (Bytes.ofBig [high, low]) = d.opcode := by
        rw [spelled, Bytes.of_big_big, Nat.mod_eq_of_lt small, UInt16.ofNat_toNat]
      simp only [decode, opcode, dictionary.of_number d member]
  | [], _, long | [_], _, long | [_, _], _, long => simp [CommandDefinition.argumentStart] at long

theorem decode_few (dictionary : CommandDictionary) (books : Books) (bytes : Bytes)
    (few : bytes.length < CommandDefinition.argumentStart) :
    dictionary.decode books bytes = .error (.notEnoughData bytes.length CommandDefinition.argumentStart) := by
  match bytes, few with
  | [], _ | [_], _ | [_, _], _ => rfl
  | _ :: _ :: _ :: rest, few =>
      simp only [List.length_cons, CommandDefinition.argumentStart] at few
      omega

end CommandDictionary

end SpaceLink
