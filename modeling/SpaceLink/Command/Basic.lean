import SpaceLink.Command.Definition
import SpaceLink.Text.Blank
import SpaceLink.Value.Reader

/-!
Commands: a definition with values for its arguments. A command is made from values in order, from
values by name, from a line of text or from bytes; it is written to bytes whole.
-/

set_option autoImplicit false

namespace SpaceLink

structure Command where
  definition : CommandDefinition
  args : List (Option Value)
  -- Names that were given a value and belong to no argument, in ascending order.
  unrecognized : List String

namespace Command

def ofValues (d : CommandDefinition) (values : List Value) : Command := ⟨d, values.map some, []⟩

def insertName (name : String) : List String → List String
  | [] => [name]
  | n :: rest =>
    match compare name n with
    | .lt => name :: n :: rest
    | .eq => n :: rest
    | .gt => n :: insertName name rest

-- Of two values for a name the later counts.
def ofNamed (d : CommandDefinition) (named : List (String × Value)) : Command :=
  let known := d.arguments.map Field.name
  { definition := d
    args := known.map fun name => named.reverse.lookup name
    unrecognized :=
      (named.filter fun entry => !known.contains entry.1).foldl
        (fun names entry => insertName entry.1 names) [] }

def place (c : Command) (name : String) : Attempt Nat :=
  match (c.definition.arguments.map Field.name).idxOf? name with
  | some i => .ok i
  | none => .error (.unknownField c.definition.name name)

def get (c : Command) (name : String) : Attempt (Option Value) :=
  match (c.definition.fields.find? fun f => f.name == name).bind Field.fixed with
  | some v => .ok (some v)
  | none => do .ok ((c.args[← c.place name]?).join)

def set (c : Command) (name : String) (v : Value) : Attempt Command := do
  let i ← c.place name
  let args := c.args ++ List.replicate (i + 1 - c.args.length) none
  .ok { c with args := args.set i (some v) }

def writeFields (books : Books) : List Field → List (Option Value) → Bytes → Attempt Bytes
  | [], _, buffer => .ok buffer
  | f :: fields, args, buffer =>
    match f.fixed, args with
    | some v, _ => do
      writeFields books fields args (← f.write books buffer CommandDefinition.argumentStart v)
    | none, some v :: rest => do
      writeFields books fields rest (← f.write books buffer CommandDefinition.argumentStart v)
    | none, _ => .error (.missingArgument f.name)

def encode (books : Books) (c : Command) (pad : Nat) : Attempt Bytes := do
  let d := c.definition
  if 255 < d.argumentSize then .error (.outOfRange (.argumentBlock d.name d.argumentSize))
  else
    let start := Bytes.big 2 d.opcode.toNat ++ [UInt8.ofNat d.argumentSize]
    writeFields books d.fields c.args (Bytes.fit (max d.nbytes pad) start)

def validateArguments : List Field → List (Option Value) → Verdict → Verdict
  | [], _, verdict => verdict
  | f :: fields, args, verdict =>
    let check := match args.head?.join with
      | none => Verdict.fail s!"Argument \"{f.name}\" is missing."
      | some v => f.validate v
    validateArguments fields args.tail (verdict.also check)

-- The count of the arguments, each argument, then the names that belong to none.
def validate (c : Command) (log : List String) : Verdict :=
  let given := (c.args.filter Option.isSome).length
  let wanted := c.definition.arguments.length
  let counted := if given = wanted then Verdict.pass log
    else
      Verdict.fail (s!"Expected {Numeral.decimal wanted} arguments, but received " ++
        s!"{Numeral.decimal given}.") log
  c.unrecognized.foldl
    (fun verdict name => verdict.also (.fail s!"Argument \"{name}\" is unrecognized."))
    (validateArguments c.definition.arguments c.args counted)

def render (c : Command) : String :=
  String.intercalate " " (c.definition.name :: c.args.map fun v =>
    match v with
    | some v => v.render
    | none => "None")

end Command

namespace CommandDictionary

def create (dictionary : CommandDictionary) (name : String) (values : List Value) :
    Attempt Command := do
  .ok (.ofValues (← dictionary.find name) values)

def createNamed (dictionary : CommandDictionary) (name : String) (named : List (String × Value)) :
    Attempt Command := do
  .ok (.ofNamed (← dictionary.find name) named)

def read (dictionary : CommandDictionary) (text : String) : Attempt Command :=
  match Text.words text.toList with
  | [] => .error (.unknownSymbol .emptyCommand)
  | name :: words => dictionary.create (String.ofList name) (words.map Value.ofWord)

-- The command that bytes stand for; fixed arguments are not looked at.
def decode (dictionary : CommandDictionary) (books : Books) (bytes : Bytes) : Attempt Command :=
  match bytes with
  | high :: low :: _ :: _ =>
    let opcode := UInt16.ofNat (Bytes.ofBig [high, low])
    match dictionary.ofNumber? opcode with
    | none => .error (.unknownSymbol (.opcode opcode.toNat))
    | some d => do
      let values ← d.arguments.mapM fun f =>
        f.decodeAt books bytes CommandDefinition.argumentStart false none
      .ok (.ofValues d values)
  | _ => .error (.notEnoughData bytes.length CommandDefinition.argumentStart)

end CommandDictionary

end SpaceLink
