import Mathlib.Data.List.Nodup
import SpaceLink.Proofs.Command.Encoding
import SpaceLink.Proofs.Table.Words

/-!
Names of an enumeration in the text of a command. A token of the text is a number wherever it can be one, and only what
is left is looked up among the names. A cell of a table is looked up first, so the two part at names that spell numbers.
-/

set_option autoImplicit false

namespace SpaceLink

namespace Field

-- The bytes of a field in a buffer that holds them, with positions counted from `offset`.
def ownAt (f : Field) (offset : Nat) (buffer : Bytes) : Bytes := (buffer.drop (f.span offset).start).take f.type.nbytes

section Unmasked

variable (books : Books) (f : Field) (t : IntType) (integer : f.type = .scalar (.primitive (.int t)))
variable (unmasked : f.mask = none)

include integer unmasked in
theorem own_at_of_bits (offset : Nat) (out new : Bytes) (whole : new.length = t.nbytes)
    (long : (f.span offset).start + f.extent ≤ out.length)
    (bits : ∀ byte place, f.owns offset byte place = true →
      out.bit byte place = new.bit (byte - (f.span offset).start) place) : f.ownAt offset out = new := by
  have extent := f.extent_int t integer
  have length : (f.ownAt offset out).length = t.nbytes := by
    rw [ownAt, f.nbytes_int t integer, List.length_take, List.length_drop]
    omega
  apply Bytes.bytes_of_bits _ _ (length.trans whole.symm)
  intro byte inside place low
  rw [length] at inside
  have covered := f.covers_unmasked unmasked byte place (by omega) low
  have own := bits ((f.span offset).start + byte) place (by rw [f.owns_at, covered])
  rw [Nat.add_sub_cancel_left] at own
  rw [ownAt, f.nbytes_int t integer, Bytes.bit_take _ _ _ _ inside, Bytes.bit_drop, own]

include integer unmasked in
theorem image_unmasked (v : Value) :
    f.image books v = match f.number? v with
      | some n => t.encode n
      | none => .error (.typeMismatch t.name .integer (.kind (f.withCode v).kind)) := by
  have encoded : f.encode books v = (Primitive.int t).encode (f.withCode v) := by
    simp only [encode, unmasked, integer]
    rfl
  have spelled : f.maskBytes books = .ok none := by simp only [maskBytes, unmasked]
  simp only [image, encoded, Primitive.encode, number?, spelled]
  cases (f.withCode v).toInt? with
  | none => rfl
  | some n =>
      dsimp only
      cases t.encode n <;> rfl

include integer unmasked in
-- A cell of a table that is the name of a number.
theorem store_name (sound : f.Sound) (e : Enumeration) (enumerated : f.enumeration = some e) (code : Int) (name : String)
    (listed : (code, name) ∈ e.entries) (held : t.holds code = true)
    (solid : ∀ c ∈ name.toList, Text.isBlank c = false) (buffer : Bytes) (covering : (f.span 0).stop ≤ buffer.length) :
    ∃ out, Cell.store books f buffer name.toList = .ok out ∧ t.encode code = .ok (f.ownAt 0 out) := by
  have read := f.read_name t integer e enumerated code name (e.name_of_entry code name listed)
    (Text.trimmed_of_solid _ solid)
  have number : f.number? (.str name) = some code := by
    rw [number?, f.with_code_name e name code enumerated (e.code_of_entry code name listed)]
    rfl
  have spelled := t.encode_of_holds code held
  have imaged := f.image_unmasked books t integer unmasked (.str name)
  rw [number] at imaged
  have room := f.near_start sound
  obtain ⟨out, written, painted⟩ := f.write_of_image books sound (f.built_in_int t integer) buffer 0 (.str name) _ room
    covering (imaged.trans spelled)
  refine ⟨out, (Attempt.bind_of_ok _ _ _ read).trans written, ?_⟩
  have long := painted.length
  rw [spelled, f.own_at_of_bits t integer unmasked 0 out _ (t.length_encode code _ spelled) (by omega) painted.inside]

end Unmasked

-- What an enumerated field makes of the word that one of its names is: of a number it does not ask for a name.
theorem number_of_word (f : Field) (e : Enumeration) (enumerated : f.enumeration = some e) (code : Int) (name : String)
    (listed : (code, name) ∈ e.entries) :
    (Value.ofWord name.toList = .str name ∧ f.number? (Value.ofWord name.toList) = some code) ∨
      (Value.ofWord name.toList ≠ .str name ∧ f.withCode (Value.ofWord name.toList) = Value.ofWord name.toList ∧
        ((Value.ofWord name.toList).toInt? = none → (Value.ofWord name.toList).kind = .float)) := by
  rcases Value.of_word_cases name.toList with ⟨n, word⟩ | ⟨x, word⟩ | word
  · rw [word]
    exact .inr ⟨nofun, f.with_code_int n, nofun⟩
  · rw [word]
    refine .inr ⟨nofun, ?_, fun _ => rfl⟩
    simp only [withCode, enumerated]
  · rw [word, String.ofList_toList]
    refine .inl ⟨rfl, ?_⟩
    rw [number?, f.with_code_name e name code enumerated (e.code_of_entry code name listed)]
    rfl

end Field

namespace Command

section Others

variable (d : CommandDefinition) (accepted : d.Accepted) (values : List Value) (enough : values.length = d.arguments.length)

-- Every argument but one has bytes for its value, be it supplied or fixed.
def OthersFit (books : Books) (d : CommandDefinition) (values : List Value) (name : String) : Prop :=
  ∀ pair ∈ assigned d.fields values, pair.1.name ≠ name → ∃ new, pair.1.image books pair.2 = .ok new

include accepted enough in
theorem assigned_split (f : Field) (v : Value) (member : (f, v) ∈ assigned d.fields values) :
    ∃ before rest, assigned d.fields values = before ++ (f, v) :: rest ∧
      ∀ pair ∈ before ++ rest, pair.1.name ≠ f.name := by
  obtain ⟨before, rest, split⟩ := List.append_of_mem member
  have names : ((assigned d.fields values).map (Field.name ∘ Prod.fst)).Nodup := by
    rw [← List.map_map, assigned_fields d.fields values enough]
    exact (d.accepted_fields accepted).2
  rw [split, List.map_append, List.map_cons, List.nodup_middle, List.nodup_cons, ← List.map_append] at names
  exact ⟨before, rest, split, fun pair others same => names.1 (List.mem_map.mpr ⟨pair, others, same⟩)⟩

variable (books : Books) (small : d.argumentSize ≤ 255) (sized : ∀ f ∈ d.fields, f.type.Sized)
variable (apart : d.fields.Pairwise Field.Apart) (f : Field) (v : Value) (member : (f, v) ∈ assigned d.fields values)
variable (pad : Nat)

include accepted enough small sized member in
theorem encode_fault (others : OthersFit books d values f.name) (fault : Fault)
    (failed : f.image books v = .error fault) : (ofValues d values).encode books pad = .error fault := by
  obtain ⟨before, rest, split, unlike⟩ := assigned_split d accepted values enough f v member
  have refused := encode_refused books d accepted small values enough [] [] pad sized before rest f v fault split
    (fun pair earlier => others pair (split ▸ List.mem_append_left _ earlier) (unlike pair (List.mem_append_left _ earlier)))
    failed
  rwa [List.append_nil] at refused

variable (t : IntType) (integer : f.type = .scalar (.primitive (.int t))) (unmasked : f.mask = none)

include accepted enough small sized apart member integer unmasked in
theorem encode_own (others : OthersFit books d values f.name) (n : Int) (number : f.number? v = some n)
    (held : t.holds n = true) :
    ∃ encoded, (ofValues d values).encode books pad = .ok encoded ∧
      t.encode n = .ok (f.ownAt CommandDefinition.argumentStart encoded) := by
  obtain ⟨before, rest, split, unlike⟩ := assigned_split d accepted values enough f v member
  have spelled := t.encode_of_holds n held
  have imaged := f.image_unmasked books t integer unmasked v
  rw [number] at imaged
  have all : ∀ pair ∈ assigned d.fields values, ∃ new, pair.1.image books pair.2 = .ok new := by
    intro pair inAll
    rw [split, List.mem_append, List.mem_cons] at inAll
    rcases inAll with earlier | rfl | later
    · exact others pair (split ▸ List.mem_append_left _ earlier) (unlike pair (List.mem_append_left _ earlier))
    · exact ⟨_, imaged.trans spelled⟩
    · exact others pair (split ▸ List.mem_append_right _ (List.mem_cons_of_mem _ later))
        (unlike pair (List.mem_append_right _ later))
  obtain ⟨encoded, done, painted⟩ := encode_sized books d accepted small values enough [] [] pad sized apart all
  have own := assigned_member d values enough (f, v) member
  obtain ⟨_, _, room, inside⟩ := argument_fitted d accepted pad f own (sized f own)
  rw [← painted.length] at inside
  rw [List.append_nil] at done
  refine ⟨encoded, done, ?_⟩
  rw [spelled, f.own_at_of_bits t integer unmasked _ encoded _ (t.length_encode n _ spelled) (Nat.le_trans room inside)
    (painted.inside (f, v) member _ (imaged.trans spelled))]

include accepted enough small sized apart member integer unmasked in
theorem encode_own_iff (code : Int) (held : t.holds code = true) :
    (∃ encoded, (ofValues d values).encode books pad = .ok encoded ∧
        t.encode code = .ok (f.ownAt CommandDefinition.argumentStart encoded)) ↔
      OthersFit books d values f.name ∧ f.number? v = some code := by
  constructor
  · rintro ⟨encoded, done, stored⟩
    have images := images_of_sized books d accepted small values enough [] [] pad sized encoded
      (by rw [List.append_nil]; exact done)
    have others : OthersFit books d values f.name := fun pair inAll _ => images pair inAll
    refine ⟨others, ?_⟩
    obtain ⟨new, imaged⟩ := images (f, v) member
    rw [f.image_unmasked books t integer unmasked] at imaged
    cases number : f.number? v with
    | none =>
        rw [number] at imaged
        cases imaged
    | some n =>
        rw [number] at imaged
        obtain ⟨again, same, own⟩ := encode_own d accepted values enough books small sized apart f v member pad t integer
          unmasked others n number (t.encode_ok n new imaged).1
        rw [done, Except.ok.injEq] at same
        rw [← same] at own
        rw [← (t.decode_encode n _ own), t.decode_encode code _ stored]
  · rintro ⟨others, number⟩
    exact encode_own d accepted values enough books small sized apart f v member pad t integer unmasked others code number
      held

-- A value that is no name is a number, which the type holds or not, or it is none.
include accepted enough small sized apart member integer unmasked in
theorem encode_unnamed (others : OthersFit books d values f.name) (itself : f.withCode v = v) :
    (∀ n, v.toInt? = some n → t.holds n = true → ∃ encoded, (ofValues d values).encode books pad = .ok encoded ∧
      t.encode n = .ok (f.ownAt CommandDefinition.argumentStart encoded)) ∧
    (∀ n, v.toInt? = some n → t.holds n = false →
      (ofValues d values).encode books pad = .error (.outOfRange (.value n t.least t.greatest))) ∧
    (v.toInt? = none → (ofValues d values).encode books pad = .error (.typeMismatch t.name .integer (.kind v.kind))) := by
  have number : f.number? v = v.toInt? := congrArg Value.toInt? itself
  have imaged := f.image_unmasked books t integer unmasked v
  have fault := encode_fault d accepted values enough books small sized f v member pad others
  rw [number, itself] at imaged
  refine ⟨?_, ?_, ?_⟩
  · intro n spelled inside
    exact encode_own d accepted values enough books small sized apart f v member pad t integer unmasked others n
      (number.trans spelled) inside
  · intro n spelled outside
    have refused : t.encode n = .error (.outOfRange (.value n t.least t.greatest)) :=
      if_neg (by rw [outside]; exact Bool.false_ne_true)
    rw [spelled] at imaged
    exact fault _ (imaged.trans refused)
  · intro none
    rw [none] at imaged
    exact fault _ imaged

end Others

end Command

namespace CommandDictionary

theorem read_words (dictionary : CommandDictionary) (d : CommandDefinition) (member : d ∈ dictionary.entries)
    (text : String) (tokens : List (List Char)) (words : Text.words text.toList = d.name.toList :: tokens) :
    dictionary.read text = .ok (.ofValues d (tokens.map Value.ofWord)) := by
  have found : dictionary.find d.name = .ok d := by
    rw [find, (dictionary.of_name_iff d.name d).mpr ⟨member, rfl⟩]
  rw [read, words]
  simp only [String.ofList_toList, create]
  exact Attempt.bind_of_ok _ _ d found

theorem spoken_name_stored_iff (books : Books) (dictionary : CommandDictionary) (reachable : dictionary.Reachable)
    (d : CommandDefinition) (member : d ∈ dictionary.entries) (small : d.argumentSize ≤ 255)
    (sized : ∀ g ∈ d.fields, g.type.Sized) (apart : d.fields.Pairwise Field.Apart) (f : Field) (i : Nat)
    (argument : d.arguments[i]? = some f) (t : IntType) (integer : f.type = .scalar (.primitive (.int t)))
    (unmasked : f.mask = none) (e : Enumeration) (enumerated : f.enumeration = some e) (code : Int) (name : String)
    (listed : (code, name) ∈ e.entries) (held : t.holds code = true) (text : String) (tokens : List (List Char))
    (words : Text.words text.toList = d.name.toList :: tokens) (enough : tokens.length = d.arguments.length)
    (spoken : tokens[i]? = some name.toList) :
    let word := Value.ofWord name.toList
    let others := Command.OthersFit books d (tokens.map Value.ofWord) f.name
    ∃ c, dictionary.read text = .ok c ∧
      (∀ pad, (∃ encoded, c.encode books pad = .ok encoded ∧
          t.encode code = .ok (f.ownAt CommandDefinition.argumentStart encoded)) ↔
        others ∧ (word = .str name ∨ word.toInt? = some code)) ∧
      (others → word ≠ .str name → ∀ pad,
        (∀ n, word.toInt? = some n → t.holds n = true → ∃ encoded, c.encode books pad = .ok encoded ∧
          t.encode n = .ok (f.ownAt CommandDefinition.argumentStart encoded)) ∧
        (∀ n, word.toInt? = some n → t.holds n = false →
          c.encode books pad = .error (.outOfRange (.value n t.least t.greatest))) ∧
        (word.toInt? = none → c.encode books pad = .error (.typeMismatch t.name .integer (.kind .float)))) ∧
      ∀ buffer, (f.span 0).stop ≤ buffer.length → ∃ out, Cell.store books f buffer name.toList = .ok out ∧
        t.encode code = .ok (f.ownAt 0 out) := by
  intro word others
  have accepted := reachable_accepted dictionary reachable d member
  have counted : (tokens.map Value.ofWord).length = d.arguments.length := (List.length_map _).trans enough
  have inFields : f ∈ d.fields := (List.mem_filter.mp (List.mem_of_getElem? argument)).1
  have given : (f, word) ∈ Command.assigned d.fields (tokens.map Value.ofWord) := by
    rw [Command.assigned_iff d.fields _ counted]
    have value : (tokens.map Value.ofWord)[i]? = some word := by rw [List.getElem?_map, spoken, Option.map_some]
    exact .inr (List.mem_of_getElem? (List.getElem?_zip_eq_some.mpr ⟨argument, value⟩))
  have solid : ∀ c ∈ name.toList, Text.isBlank c = false := by
    apply Text.words_solid text.toList
    rw [words]
    exact List.mem_cons_of_mem _ (List.mem_of_getElem? spoken)
  have meaning := f.number_of_word e enumerated code name listed
  refine ⟨_, read_words dictionary d member text tokens words, ?stored, ?lost, ?cell⟩
  case stored =>
    intro pad
    rw [Command.encode_own_iff d accepted _ counted books small sized apart f word given pad t integer unmasked code held]
    refine and_congr_right fun _ => ?_
    rcases meaning with ⟨same, coded⟩ | ⟨other, itself, -⟩
    · exact iff_of_true coded (.inl same)
    · rw [Field.number?, itself]
      exact (or_iff_right other).symm
  case lost =>
    intro fit other pad
    obtain ⟨-, itself, kind⟩ := meaning.resolve_left fun own => other own.1
    obtain ⟨inside, outside, nothing⟩ := Command.encode_unnamed d accepted _ counted books small sized apart f word given
      pad t integer unmasked fit itself
    exact ⟨inside, outside, fun none => by rw [nothing none, kind none]⟩
  case cell =>
    exact f.store_name books t integer unmasked (CommandDefinition.accepted_sound d accepted f inFields) e enumerated code
      name listed held solid

section Setting

def modes : Enumeration := ⟨[(1, "SAFE"), (7, "5")], by decide, by decide⟩

def mode : Field := Ccsds.bits "mode" Ccsds.byteType (.single 0) none (some modes)

def setting : CommandDefinition :=
  { name := "SET"
    opcode := 0x0102
    subsystem := none
    title := none
    desc := none
    ccsds := none
    fields := [mode] }

def settings : CommandDictionary := ⟨[setting], by decide, by decide⟩

theorem settings_reachable : settings.Reachable :=
  .add Catalog.empty settings setting .empty ⟨.none, setting.fields, setting, rfl, rfl⟩ rfl

theorem safe_mode_set :
    ∃ c, settings.read "SET SAFE" = .ok c ∧ ∃ encoded, c.encode .none 0 = .ok encoded ∧
      mode.ownAt CommandDefinition.argumentStart encoded = [1] := by
  obtain ⟨c, read, stored, -, -⟩ := spoken_name_stored_iff .none settings settings_reachable setting List.mem_cons_self
    (by decide) (List.forall_mem_singleton.mpr trivial) (by decide) mode 0 rfl Ccsds.byteType rfl rfl modes rfl 1 "SAFE"
    (by decide) rfl "SET SAFE" ["SAFE".toList] rfl rfl rfl
  have others : Command.OthersFit .none setting (["SAFE".toList].map Value.ofWord) "mode" := by
    intro pair member other
    rcases List.mem_singleton.mp member with rfl
    exact absurd rfl other
  obtain ⟨encoded, done, own⟩ := (stored 0).mpr ⟨others, .inl rfl⟩
  exact ⟨c, read, encoded, done, (Except.ok.inj own).symm⟩

-- The name of seven is spoken as the number five, while a cell of a table is seven.
theorem five_not_looked_up :
    (7, "5") ∈ modes.entries ∧ settings.Reachable ∧ Text.words "SET 5".toList = ["SET".toList, "5".toList] ∧
      (∃ c, settings.read "SET 5" = .ok c ∧ c.encode .none 0 = .ok [1, 2, 1, 5]) ∧
      Cell.store .none mode [0] "5".toList = .ok [7] :=
  ⟨by decide, settings_reachable, rfl, ⟨.ofValues setting [.int 5], rfl, rfl⟩, rfl⟩

end Setting

end CommandDictionary

end SpaceLink
