import SpaceLink.Ccsds.Header
import SpaceLink.Command.Basic
import SpaceLink.Packet.Basic
import SpaceLink.Proofs.DataType.Width

/-!
What checks report. A check leaves the messages there were before it, adds messages of its own that do not
depend on those, and passes exactly if it adds none; checks made one after the other do the same together.
-/

set_option autoImplicit false

namespace SpaceLink

namespace Verdict

def Reports (check : List String → Verdict) (messages : List String) : Prop :=
  ∀ log, check log = ⟨messages.isEmpty, log ++ messages⟩

theorem pass_reports : Reports pass [] := fun log => by simp [pass]

theorem fail_reports (message : String) : Reports (fail message) [message] := fun _ => rfl

theorem also_reports (check next : List String → Verdict) (messages others : List String)
    (first : Reports check messages) (second : Reports next others) :
    Reports (fun log => (check log).also next) (messages ++ others) := by
  intro log
  simp only [also, first log, second (log ++ messages), List.append_assoc]
  cases messages <;> rfl

theorem each_reports {α : Type} (check : α → List String → Verdict) (own : α → List String) (xs : List α)
    (each : ∀ x ∈ xs, Reports (check x) (own x)) (before : List String → Verdict) (messages : List String)
    (first : Reports before messages) :
    Reports (fun log => xs.foldl (fun verdict x => verdict.also (check x)) (before log)) (messages ++ xs.flatMap own) := by
  induction xs generalizing before messages with
  | nil => simpa using first
  | cons x rest ih =>
      obtain ⟨head, tail⟩ := List.forall_mem_cons.mp each
      have both := also_reports before (check x) messages (own x) first head
      simpa [List.append_assoc] using ih tail _ _ both

-- The messages of a check are those that it adds to an empty log.
theorem own_reports (check : List String → Verdict) (reporting : ∃ messages, Reports check messages) :
    Reports check (check []).messages := by
  obtain ⟨messages, reports⟩ := reporting
  rwa [reports []]

end Verdict

open Verdict

theorem test_reports (passed : Prop) [Decidable passed] (message : String) :
    ∃ messages, Reports (fun log => if passed then .pass log else .fail message log) messages := by
  by_cases holds : passed
  · exact ⟨[], fun log => (if_pos holds).trans (pass_reports log)⟩
  · exact ⟨[message], fun _ => if_neg holds⟩

theorem Primitive.number_reports (v : Value) (name : Option String) (integer inside : Bool) (range : String) :
    ∃ messages, Reports (fun log => validateNumber v name log integer inside range) messages := by
  cases v with
  | int n => exact test_reports (inside = true) _
  | bool b => exact test_reports (inside = true) _
  | float x =>
      cases integer with
      | true => exact ⟨_, fail_reports _⟩
      | false => exact test_reports (inside = true) _
  | _ => exact ⟨_, fail_reports _⟩

theorem Primitive.validate_reports (p : Primitive) (v : Value) (name : Option String) :
    ∃ messages, Reports (p.validate v name) messages := by
  cases p with
  | int t => exact number_reports v name true _ _
  | float t => exact number_reports v name false _ _
  | text t =>
      cases v with
      | str s => exact ⟨_, pass_reports⟩
      | _ => exact ⟨_, fail_reports _⟩

-- What is asked of a type of the user; the others need nothing.
def Scalar.Reporting : Scalar → Prop
  | .custom c => ∀ v name, ∃ messages, Reports (c.validate v name) messages
  | _ => True

def DataType.Reporting : DataType → Prop
  | .scalar s => s.Reporting
  | .array a => a.element.Reporting

theorem Scalar.reporting_of_built_in (s : Scalar) (builtIn : s.isBuiltIn = true) : s.Reporting := by
  cases s with
  | custom c => cases builtIn
  | _ => trivial

theorem DataType.reporting_of_built_in (t : DataType) (builtIn : t.isBuiltIn = true) : t.Reporting := by
  cases t with
  | scalar s => exact s.reporting_of_built_in builtIn
  | array a => exact a.element.reporting_of_built_in builtIn

theorem Scalar.validate_reports (s : Scalar) (reporting : s.Reporting) (v : Value) (name : Option String) :
    ∃ messages, Reports (s.validate v name) messages := by
  cases s with
  | primitive p => exact p.validate_reports v name
  | command => exact ⟨_, pass_reports⟩
  | event => exact ⟨_, pass_reports⟩
  | time t => exact test_reports (t.accepts v = true) _
  | custom c => exact reporting v name

-- All items are checked, also those after one that does not pass.
theorem ArrayType.validate_reports (a : ArrayType) (reporting : a.element.Reporting) (v : Value)
    (name : Option String) : ∃ messages, Reports (a.validate v name) messages := by
  cases v with
  | list items =>
      by_cases counted : items.length = a.count
      · have checked : a.validate (.list items) name = validateItems a.element name items := by
          funext log
          exact if_pos counted
        rw [checked]
        exact ⟨_, each_reports _ _ items
          (fun item _ => own_reports _ (a.element.validate_reports reporting item name)) _ _ pass_reports⟩
      · exact ⟨[_], fun log => if_neg counted⟩
  | _ => exact ⟨_, fail_reports _⟩

theorem DataType.validate_reports (t : DataType) (reporting : t.Reporting) (v : Value) (name : Option String) :
    ∃ messages, Reports (t.validate v name) messages := by
  cases t with
  | scalar s => exact s.validate_reports reporting v name
  | array a => exact a.validate_reports reporting v name

namespace Field

variable (f : Field) (reporting : f.type.Reporting) (v number : Value)

include reporting in
theorem type_reports (named : Bool) : ∃ messages, Reports (f.validateType v number named) messages := by
  cases named with
  | true => exact f.type.validate_reports reporting number (some f.name)
  | false => exact ⟨_, fail_reports _⟩

theorem range_reports : ∃ messages, Reports (f.validateRange number) messages := by
  cases ranged : f.range with
  | none => exact ⟨[], fun log => by simp only [validateRange, ranged, pass_reports log]⟩
  | some bounds =>
      cases double : number.toDouble? with
      | none => exact ⟨[], fun log => by simp only [validateRange, ranged, double, pass_reports log]⟩
      | some x =>
          by_cases outside : (x.lt bounds.1 || bounds.2.lt x) = true
          · exact ⟨[_], fun log => by simp only [validateRange, ranged, double, if_pos outside]; rfl⟩
          · exact ⟨[], fun log => by simp only [validateRange, ranged, double, if_neg outside, pass_reports log]⟩

include reporting in
theorem validate_reports : ∃ messages, Reports (f.validate v) messages := by
  obtain ⟨_, typed⟩ := f.type_reports reporting v _ _
  obtain ⟨_, ranged⟩ := f.range_reports _
  exact ⟨_, also_reports _ _ _ _ typed ranged⟩

end Field

namespace PacketDefinition

variable (d : PacketDefinition) (source : String → Attempt (Option Value))

-- What one field has to say: nothing if it has no value, one message if that cannot be told.
def fieldMessages (f : Field) : List String :=
  match source f.name with
  | .ok (some v) => (f.validate v []).messages
  | .ok none => []
  | .error fault =>
    [s!"Telemetry field mismatch for packet '{d.name}'.  Unable to retrieve value for " ++
      s!"{f.name} in Packet: {fault.message}"]

theorem field_reports (f : Field) (reporting : f.type.Reporting) :
    Reports (d.validateField source f) (d.fieldMessages source f) := by
  intro log
  simp only [validateField, fieldMessages]
  cases source f.name with
  | error fault => exact fail_reports _ log
  | ok value =>
      cases value with
      | none => exact pass_reports log
      | some v => exact own_reports _ (f.validate_reports reporting v) log

theorem validate_reports (reporting : ∀ f ∈ d.fields, f.type.Reporting) :
    Reports (d.validate source) (d.fields.flatMap (d.fieldMessages source)) :=
  each_reports _ _ d.fields (fun f member => d.field_reports source f (reporting f member)) .pass [] pass_reports

end PacketDefinition

namespace Command

theorem arguments_report (fields : List Field) (reporting : ∀ f ∈ fields, f.type.Reporting)
    (args : List (Option Value)) (before : List String → Verdict) (messages : List String)
    (first : Reports before messages) :
    ∃ all, Reports (fun log => validateArguments fields args (before log)) all := by
  induction fields generalizing args before messages with
  | nil => exact ⟨messages, first⟩
  | cons f rest ih =>
      obtain ⟨own, others⟩ := List.forall_mem_cons.mp reporting
      cases given : args.head?.join with
      | none =>
          have missing := also_reports _ _ _ _ first (fail_reports s!"Argument \"{f.name}\" is missing.")
          simpa only [validateArguments, given] using ih others args.tail _ _ missing
      | some v =>
          obtain ⟨_, checked⟩ := f.validate_reports own v
          have both := also_reports _ _ _ _ first checked
          simpa only [validateArguments, given] using ih others args.tail _ _ both

theorem validate_reports (c : Command) (reporting : ∀ f ∈ c.definition.arguments, f.type.Reporting) :
    ∃ messages, Reports c.validate messages := by
  obtain ⟨_, counted⟩ := test_reports ((c.args.filter Option.isSome).length = c.definition.arguments.length) _
  obtain ⟨_, supplied⟩ := arguments_report c.definition.arguments reporting c.args _ _ counted
  exact ⟨_, each_reports _ (fun name => [s!"Argument \"{name}\" is unrecognized."]) c.unrecognized
    (fun _ _ => fail_reports _) _ _ supplied⟩

end Command

-- Of a packet the messages are those of its fields in order, whatever became of the fields before.
theorem checks_report :
    (∀ t : DataType, t.isBuiltIn = true → t.Reporting) ∧
    (∀ (f : Field) (v : Value), f.type.Reporting → ∃ messages, Reports (f.validate v) messages) ∧
    (∀ (d : PacketDefinition) (source : String → Attempt (Option Value)), (∀ f ∈ d.fields, f.type.Reporting) →
      Reports (d.validate source) (d.fields.flatMap (d.fieldMessages source))) ∧
    ∀ c : Command, (∀ f ∈ c.definition.arguments, f.type.Reporting) → ∃ messages, Reports c.validate messages :=
  ⟨DataType.reporting_of_built_in, fun f v reporting => f.validate_reports reporting v,
    fun d source reporting => d.validate_reports source reporting, fun c reporting => c.validate_reports reporting⟩

namespace Observation

def samples : Field :=
  { Ccsds.bits "samples" Ccsds.byteType (.range 0 2) none none with
    type := .array ⟨.primitive (.int Ccsds.byteType), 3⟩ }

def gain : Field := Ccsds.bits "gain" Ccsds.byteType (.single 3) none none

def observation : PacketDefinition := { Ccsds.header with name := "OBS", fields := [samples, gain] }

-- Two of the samples do not fit into a byte, and no gain is known.
def observed (name : String) : Attempt (Option Value) :=
  if name = "samples" then .ok (some (.list [.int 256, .int 7, .int (-1)])) else .error (.unknownField "OBS" name)

-- The gain is missing, its name being misspelled.
def setGain : Command :=
  ⟨⟨"GAIN", 1, none, none, none, none, [gain]⟩, [none], ["gian"]⟩

theorem observation_reports :
    Reports (samples.validate (.list [.int 256, .int 7, .int (-1)]))
        ["samples value '256' out of range [0, 255].", "samples value '-1' out of range [0, 255]."] ∧
      Reports (observation.validate observed)
        ["samples value '256' out of range [0, 255].", "samples value '-1' out of range [0, 255].",
          "Telemetry field mismatch for packet 'OBS'.  Unable to retrieve value for gain in Packet: " ++
            "OBS has no field 'gain'"] ∧
      Reports setGain.validate
        ["Expected 1 arguments, but received 0.", "Argument \"gain\" is missing.",
          "Argument \"gian\" is unrecognized."] := by
  obtain ⟨builtIn, ofField, ofPacket, ofCommand⟩ := checks_report
  have fields : ∀ f ∈ observation.fields, f.type.isBuiltIn = true := by decide
  have arguments : ∀ f ∈ setGain.definition.arguments, f.type.isBuiltIn = true := by decide
  refine ⟨?_, ?_, ?_⟩
  · have reports := own_reports _ (ofField samples (.list [.int 256, .int 7, .int (-1)]) (builtIn _ rfl))
    exact Eq.mp (congrArg (Reports _) (by decide +kernel)) reports
  · have reports := ofPacket observation observed fun f member => builtIn _ (fields f member)
    exact Eq.mp (congrArg (Reports _) (by decide +kernel)) reports
  · have reports := own_reports _ (ofCommand setGain fun f member => builtIn _ (arguments f member))
    exact Eq.mp (congrArg (Reports _) (by decide +kernel)) reports

end Observation

end SpaceLink
