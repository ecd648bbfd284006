import SpaceLink.Proofs.Packet.Reach

/-!
The history of a packet definition in use. Whatever is done with its packets, the history keeps for each of
its names the value that the field had in the last packet received in which it had one, and zero before
there was any.
-/

set_option autoImplicit false

namespace SpaceLink

namespace History

-- One name of a new history.
def enter (kept : History) (n : String) : History :=
  if kept.any (fun entry => entry.1 == n) then kept else kept ++ [(n, .int 0)]

def Keeps (kept : History) (names : List String) : Prop :=
  (kept.map Prod.fst).Nodup ∧ ∀ n, n ∈ kept.map Prod.fst ↔ n ∈ names

def Zero (kept : History) : Prop := ∀ entry ∈ kept, entry.2 = .int 0

theorem enter_keeps (kept : History) (names : List String) (n : String) (keeps : Keeps kept names) :
    Keeps (enter kept n) (names ++ [n]) := by
  obtain ⟨distinct, listed⟩ := keeps
  by_cases again : kept.any (fun entry => entry.1 == n) = true
  · rw [enter, if_pos again]
    have known : n ∈ names := (listed n).mp (by simpa using again)
    refine ⟨distinct, ?_⟩
    intro m
    rw [listed m, List.mem_append, List.mem_singleton]
    exact ⟨.inl, fun either => either.elim id fun same => same ▸ known⟩
  · rw [enter, if_neg again]
    constructor
    · apply nodup_map_append Prod.fst kept (n, .int 0) distinct
      intro entry member same
      exact again (List.any_eq_true.mpr ⟨entry, member, by simpa using same⟩)
    · intro m
      rw [List.map_append, List.mem_append, List.mem_append, listed m]
      rfl

theorem enter_zero (kept : History) (n : String) (zero : Zero kept) : Zero (enter kept n) := by
  by_cases again : kept.any (fun entry => entry.1 == n) = true
  · rwa [enter, if_pos again]
  · rw [enter, if_neg again]
    intro entry member
    rcases List.mem_append.mp member with before | last
    · exact zero entry before
    · rw [List.mem_singleton.mp last]

theorem enter_all (kept : History) (before names : List String) (keeps : Keeps kept before) (zero : Zero kept) :
    Keeps (names.foldl enter kept) (before ++ names) ∧ Zero (names.foldl enter kept) := by
  induction names generalizing kept before with
  | nil => exact ⟨by simpa using keeps, zero⟩
  | cons n rest ih => simpa using ih _ _ (enter_keeps kept before n keeps) (enter_zero kept n zero)

theorem start_keeps (names : List String) : Keeps (start names) names ∧ Zero (start names) :=
  enter_all [] [] names ⟨by simp, by simp⟩ fun _ member => nomatch member

theorem value_of_start (names : List String) (name : String) (listed : name ∈ names) :
    (start names).value? name = some (.int 0) := by
  obtain ⟨keeps, zero⟩ := start_keeps names
  obtain ⟨entry, member, same⟩ := List.mem_map.mp ((keeps.2 name).mpr listed)
  have found : ((start names).lookup name).isSome = true :=
    List.lookup_isSome_iff.mpr ⟨entry, member, by simp [same]⟩
  obtain ⟨v, value⟩ := Option.isSome_iff_exists.mp found
  obtain ⟨_, _, split, _⟩ := List.lookup_eq_some_iff.mp value
  have none_yet : v = .int 0 := zero (name, v) (by simp [split])
  rw [value?, value, none_yet]

theorem record_keeps (h : History) (names : List String) (received : List (String × Value)) (keeps : Keeps h names) :
    Keeps (h.record received) names := by
  have same : (h.record received).map Prod.fst = h.map Prod.fst := by simp [record, Function.comp_def]
  simpa only [Keeps, same] using keeps

theorem value_of_record (h : History) (received : List (String × Value)) (name : String) :
    (h.record received).value? name = (h.value? name).map fun v => (received.reverse.lookup name).getD v := by
  induction h with
  | nil => rfl
  | cons entry rest ih =>
      obtain ⟨n, v⟩ := entry
      simp only [record, value?, List.map_cons, List.lookup_cons] at ih ⊢
      cases same : name == n with
      | true => simp [eq_of_beq same]
      | false => simpa using ih

-- The later of two values for a name counts, but here there is one for each.
theorem lookup_each (f : String → Option Value) (names : List String) (name : String) :
    (names.filterMap fun n => (f n).map fun v => (n, v)).lookup name = if name ∈ names then f name else none := by
  induction names with
  | nil => rfl
  | cons n rest ih =>
      rw [List.filterMap_cons]
      by_cases same : name = n
      · subst same
        cases given : f name with
        | none => simp [ih, given]
        | some v => simp
      · have other : (name == n) = false := beq_false_of_ne same
        cases given : f n with
        | none => simp [ih, same]
        | some v => simp [List.lookup_cons, ih, same, other]

end History

namespace Packet

def valueOf (x : Attempt (Option Value)) : Option Value :=
  match x with
  | .ok v => v
  | .error _ => none

theorem value_of_iff (x : Attempt (Option Value)) (v : Value) : valueOf x = some v ↔ x = .ok (some v) := by
  cases x with
  | ok w => simp [valueOf]
  | error fault => simp [valueOf]

theorem received_value (c : Context) (p : Packet) (name : String) (listed : name ∈ p.definition.history) :
    (p.received c).reverse.lookup name = valueOf (p.get c name false none) := by
  have each : p.received c =
      p.definition.history.filterMap fun n => (valueOf (p.get c n false none)).map fun v => (n, v) := by
    simp only [received, valueOf]
    congr 1
    funext n
    cases p.get c n false none with
    | error fault => rfl
    | ok v => cases v <;> rfl
  rw [each, ← List.filterMap_reverse, History.lookup_each, if_pos (List.mem_reverse.mpr listed)]

theorem receive_short (c : Context) (d : PacketDefinition) (bytes : Bytes) (short : bytes.length < d.nbytes) :
    receive c d bytes = .error (.notEnoughData bytes.length d.nbytes) := by
  have missing : (bytes.take d.nbytes).length < d.nbytes := by rw [List.length_take]; omega
  simp only [receive, if_pos missing]

theorem receive_long (c : Context) (d : PacketDefinition) (bytes : Bytes) (long : d.nbytes ≤ bytes.length) :
    receive c d bytes =
      .ok (⟨d, bytes.take d.nbytes⟩, c.history.record ((⟨d, bytes.take d.nbytes⟩ : Packet).received c)) := by
  have whole : ¬ (bytes.take d.nbytes).length < d.nbytes := by rw [List.length_take]; omega
  simp only [receive, if_neg whole]

end Packet

namespace PacketDefinition

-- What is done with a definition. A packet is known by its bytes, so each operation may be on any.
inductive Operation where
  | new
  | receive (books : Books) (bytes : Bytes)
  | set (books : Books) (data : Bytes) (name : String) (v : Value)
  | get (books : Books) (data : Bytes) (name : String) (raw : Bool) (index : Option Nat)
  | validate (books : Books) (data : Bytes) (log : List String)

inductive Answer where
  | packet (x : Attempt Packet)
  | value (x : Attempt (Option Value))
  | verdict (v : Verdict)

variable (d : PacketDefinition)

def perform (h : History) : Operation → History × Answer
  | .new => (h, .packet (.ok (Packet.new d)))
  | .receive books bytes =>
    match Packet.receive ⟨books, h⟩ d bytes with
    | .ok (p, later) => (later, .packet (.ok p))
    | .error fault => (h, .packet (.error fault))
  | .set books data name v => (h, .packet (Packet.set books ⟨d, data⟩ name v))
  | .get books data name raw index => (h, .value (Packet.get ⟨books, h⟩ ⟨d, data⟩ name raw index))
  | .validate books data log => (h, .verdict (Packet.validate ⟨books, h⟩ ⟨d, data⟩ log))

def run (ops : List Operation) : History := ops.foldl (fun h op => (d.perform h op).1) (.start d.history)

-- The operation at a place receives a packet in which the field has a value, given the history before it.
def Gives (ops : List Operation) (place : Nat) (name : String) (v : Value) : Prop :=
  ∃ books bytes p, ops[place]? = some (.receive books bytes) ∧
    (d.perform (d.run (ops.take place)) (.receive books bytes)).2 = .packet (.ok p) ∧
    p.get ⟨books, d.run (ops.take place)⟩ name false none = .ok (some v)

theorem perform_receive (h : History) (books : Books) (bytes : Bytes) :
    (d.perform h (.receive books bytes)).2 =
      .packet (if bytes.length < d.nbytes then .error (.notEnoughData bytes.length d.nbytes)
        else .ok ⟨d, bytes.take d.nbytes⟩) := by
  by_cases short : bytes.length < d.nbytes
  · simp only [perform, Packet.receive_short ⟨books, h⟩ d bytes short, if_pos short]
  · simp only [perform, Packet.receive_long ⟨books, h⟩ d bytes (Nat.not_lt.mp short), if_neg short]

theorem perform_keeps (h : History) (op : Operation) (keeps : h.Keeps d.history) :
    (d.perform h op).1.Keeps d.history := by
  cases op with
  | receive books bytes =>
      by_cases short : bytes.length < d.nbytes
      · simpa only [perform, Packet.receive_short ⟨books, h⟩ d bytes short] using keeps
      · simp only [perform, Packet.receive_long ⟨books, h⟩ d bytes (Nat.not_lt.mp short)]
        exact h.record_keeps _ _ keeps
  | _ => exact keeps

-- The value that one operation gives a field, if it is a reception with one.
def given (h : History) (name : String) : Operation → Option Value
  | .receive books bytes =>
    if bytes.length < d.nbytes then none
    else Packet.valueOf (Packet.get ⟨books, h⟩ ⟨d, bytes.take d.nbytes⟩ name false none)
  | _ => none

theorem value_of_perform (h : History) (op : Operation) (name : String) (listed : name ∈ d.history) :
    (d.perform h op).1.value? name = (h.value? name).map fun v => (d.given h name op).getD v := by
  cases op with
  | receive books bytes =>
      by_cases short : bytes.length < d.nbytes
      · simp [perform, given, Packet.receive_short ⟨books, h⟩ d bytes short, if_pos short]
      · simp only [perform, given, Packet.receive_long ⟨books, h⟩ d bytes (Nat.not_lt.mp short), if_neg short]
        rw [History.value_of_record, Packet.received_value _ _ name listed]
  | _ => simp [perform, given]

theorem gives_iff (ops : List Operation) (place : Nat) (name : String) (v : Value) :
    d.Gives ops place name v ↔ ∃ op, ops[place]? = some op ∧ d.given (d.run (ops.take place)) name op = some v := by
  constructor
  · rintro ⟨books, bytes, p, here, answer, value⟩
    refine ⟨_, here, ?_⟩
    rw [perform_receive] at answer
    by_cases short : bytes.length < d.nbytes
    · simp [if_pos short] at answer
    · simp only [if_neg short, Answer.packet.injEq, Except.ok.injEq] at answer
      rw [← answer] at value
      simpa only [given, if_neg short, Packet.value_of_iff] using value
  · rintro ⟨op, here, value⟩
    cases op with
    | receive books bytes =>
        by_cases short : bytes.length < d.nbytes
        · simp [given, if_pos short] at value
        · simp only [given, if_neg short, Packet.value_of_iff] at value
          exact ⟨books, bytes, _, here, by rw [perform_receive, if_neg short], value⟩
    | _ => cases value

theorem run_next (ops : List Operation) (place : Nat) (op : Operation) (here : ops[place]? = some op) :
    d.run (ops.take (place + 1)) = (d.perform (d.run (ops.take place)) op).1 := by
  simp only [run, List.take_add_one, here, Option.toList_some, List.foldl_append, List.foldl_cons, List.foldl_nil]

theorem run_past (ops : List Operation) (place : Nat) (past : ops[place]? = none) :
    d.run (ops.take (place + 1)) = d.run (ops.take place) := by
  simp only [run, List.take_add_one, past, Option.toList_none, List.append_nil]

theorem run_keeps (ops : List Operation) : (d.run ops).Keeps d.history := by
  have each (h : History) (keeps : h.Keeps d.history) :
      (ops.foldl (fun h op => (d.perform h op).1) h).Keeps d.history := by
    induction ops generalizing h with
    | nil => exact keeps
    | cons op rest ih => exact ih _ (d.perform_keeps h op keeps)
  exact each _ (History.start_keeps d.history).1

theorem value_of_run (ops : List Operation) (name : String) (listed : name ∈ d.history) :
    ∃ v, (d.run ops).value? name = some v := by
  obtain ⟨entry, member, same⟩ := List.mem_map.mp (((d.run_keeps ops).2 name).mpr listed)
  apply Option.isSome_iff_exists.mp
  exact List.lookup_isSome_iff.mpr ⟨entry, member, by simp [same]⟩

section Steps

variable (ops : List Operation) (place : Nat) (name : String) (listed : name ∈ d.history)

include listed in
theorem kept_after_gift (v : Value) (gives : d.Gives ops place name v) :
    (d.run (ops.take (place + 1))).value? name = some v := by
  obtain ⟨op, here, given⟩ := (d.gives_iff ops place name v).mp gives
  obtain ⟨w, before⟩ := d.value_of_run (ops.take place) name listed
  rw [d.run_next ops place op here, d.value_of_perform _ op name listed, before, given]
  rfl

include listed in
theorem kept_without_gift (quiet : ∀ v, ¬ d.Gives ops place name v) :
    (d.run (ops.take (place + 1))).value? name = (d.run (ops.take place)).value? name := by
  cases here : ops[place]? with
  | none => rw [d.run_past ops place here]
  | some op =>
      cases given : d.given (d.run (ops.take place)) name op with
      | some v => exact absurd ((d.gives_iff ops place name v).mpr ⟨op, here, given⟩) (quiet v)
      | none =>
          rw [d.run_next ops place op here, d.value_of_perform _ op name listed, given]
          simp

-- By induction on the place, since each operation either gives the field a value or leaves its entry.
include listed in
theorem kept_before (v : Value) :
    (d.run (ops.take place)).value? name = some v ↔
      (∃ i < place, d.Gives ops i name v ∧ ∀ j, i < j → j < place → ∀ w, ¬ d.Gives ops j name w) ∨
        v = .int 0 ∧ ∀ j < place, ∀ w, ¬ d.Gives ops j name w := by
  induction place with
  | zero =>
      have start : (d.run (ops.take 0)).value? name = some (.int 0) := History.value_of_start _ _ listed
      rw [start]
      simp [eq_comm]
  | succ place ih =>
      by_cases given : ∃ w, d.Gives ops place name w
      · obtain ⟨w, gives⟩ := given
        have kept := d.kept_after_gift ops place name listed
        rw [kept w gives]
        constructor
        · intro same
          cases same
          exact .inl ⟨place, Nat.lt_succ_self place, gives, fun j later below => by omega⟩
        · rintro (⟨i, below, givesV, last⟩ | ⟨_, silent⟩)
          · by_cases here : i = place
            · subst here
              rw [← kept w gives, kept v givesV]
            · exact absurd gives (last place (by omega) (Nat.lt_succ_self place) w)
          · exact absurd gives (silent place (Nat.lt_succ_self place) w)
      · rw [d.kept_without_gift ops place name listed (not_exists.mp given), ih]
        have earlier (j : Nat) (below : j < place + 1) (w : Value) (gives : d.Gives ops j name w) : j < place := by
          rcases Nat.lt_succ_iff_lt_or_eq.mp below with less | rfl
          · exact less
          · exact absurd ⟨w, gives⟩ given
        constructor
        · rintro (⟨i, below, gives, last⟩ | ⟨zero, silent⟩)
          · refine .inl ⟨i, by omega, gives, ?_⟩
            exact fun j later below w other => last j later (earlier j below w other) w other
          · exact .inr ⟨zero, fun j below w other => silent j (earlier j below w other) w other⟩
        · rintro (⟨i, below, gives, last⟩ | ⟨zero, silent⟩)
          · exact .inl ⟨i, earlier i below v gives, gives, fun j later less => last j later (by omega)⟩
          · exact .inr ⟨zero, fun j less => silent j (by omega)⟩

end Steps

theorem gives_inside (ops : List Operation) (place : Nat) (name : String) (v : Value)
    (gives : d.Gives ops place name v) : place < ops.length := by
  obtain ⟨_, _, _, here, _⟩ := gives
  exact (List.getElem?_eq_some_iff.mp here).1

-- The history never loses or gains a name, and a reception fails only for want of bytes.
theorem history_holds_latest (d : PacketDefinition) (ops : List Operation) :
    (d.run ops).Keeps d.history ∧
    (∀ h books bytes, (d.perform h (.receive books bytes)).2 =
      .packet (if bytes.length < d.nbytes then .error (.notEnoughData bytes.length d.nbytes)
        else .ok ⟨d, bytes.take d.nbytes⟩)) ∧
    ∀ name ∈ d.history,
      (∀ v, (d.run ops).value? name = some v ↔
        (∃ i, d.Gives ops i name v ∧ ∀ j, i < j → ∀ w, ¬ d.Gives ops j name w) ∨
          v = .int 0 ∧ ∀ j w, ¬ d.Gives ops j name w) ∧
      ∀ place, (∀ v, ¬ d.Gives ops place name v) →
        (d.run (ops.take (place + 1))).value? name = (d.run (ops.take place)).value? name := by
  refine ⟨d.run_keeps ops, d.perform_receive, ?_⟩
  intro name listed
  refine ⟨?_, fun place quiet => d.kept_without_gift ops place name listed quiet⟩
  intro v
  have whole := d.kept_before ops ops.length name listed v
  rw [List.take_length] at whole
  rw [whole]
  constructor
  · rintro (⟨i, _, gives, last⟩ | ⟨zero, silent⟩)
    · exact .inl ⟨i, gives, fun j later w other => last j later (d.gives_inside ops j name w other) w other⟩
    · exact .inr ⟨zero, fun j w other => silent j (d.gives_inside ops j name w other) w other⟩
  · rintro (⟨i, gives, last⟩ | ⟨zero, silent⟩)
    · exact .inl ⟨i, d.gives_inside ops i name v gives, gives, fun j later _ => last j later⟩
    · exact .inr ⟨zero, fun j _ => silent j⟩

section Tracking

def lastMode : Field :=
  { Ccsds.bits "last" Ccsds.byteType (.single 0) none none with
    expr := some ⟨"history.mode", .member "history" "mode"⟩ }

def tracked : PacketDefinition :=
  { Packet.modes with fields := [Packet.switch, Packet.mode, lastMode], functions := [], history := ["mode", "last"] }

-- A packet with a mode, one without, and one that is too short.
def contact : List Operation :=
  [.new, .receive .none [1, 5], .set .none [1, 5] "mode" (.int 9), .receive .none [0, 7], .receive .none [1]]

-- The mode of the first packet stays, and that packet did not yet see it as the last one.
theorem contact_keeps_mode :
    (tracked.run contact).value? "mode" = some (.int 5) ∧ tracked.Gives contact 1 "last" (.int 0) := by
  have given : tracked.Gives contact 1 "mode" (.int 5) := ⟨.none, [1, 5], ⟨tracked, [1, 5]⟩, rfl, by rfl, by rfl⟩
  have later (j : Nat) (past : 1 < j) (w : Value) : ¬ tracked.Gives contact j "mode" w := by
    intro gives
    have inside : j < 5 := tracked.gives_inside contact j "mode" w gives
    obtain ⟨op, here, value⟩ := (tracked.gives_iff contact j "mode" w).mp gives
    have nothing : j = 2 ∨ j = 3 ∨ j = 4 := by omega
    rcases nothing with rfl | rfl | rfl
    · cases here
      cases value
    · cases here
      cases value
    · cases here
      cases value
  obtain ⟨_, _, holds⟩ := history_holds_latest tracked contact
  refine ⟨((holds "mode" List.mem_cons_self).1 (.int 5)).mpr (.inl ⟨1, given, later⟩), ?_⟩
  exact ⟨.none, [1, 5], ⟨tracked, [1, 5]⟩, rfl, by rfl, by rfl⟩

end Tracking

end PacketDefinition

end SpaceLink
