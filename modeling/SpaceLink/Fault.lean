import SpaceLink.Expr.Syntax
import SpaceLink.Expr.Token
import SpaceLink.Json.Printer
import SpaceLink.Time.Rfc3339

/-!
What can go wrong, by cause, and the message of each cause. A message is formed here and nowhere else.
-/

set_option autoImplicit false

namespace SpaceLink

inductive SyntaxFault where
  | badCharacter (c : Char)
  | badNumber (text : String)
  | unterminatedString
  | unexpected (token : Token)
  | keyword (word : String)
  | trailing (token : Token)
  | noElse
  | noClose
  | noCallEnd
  | noMember
deriving DecidableEq, Repr

def SyntaxFault.message : SyntaxFault → String
  | .badCharacter c => s!"unexpected character '{c}'"
  | .badNumber text => s!"invalid number literal '{text}'"
  | .unterminatedString => "unterminated string"
  | .unexpected token => s!"unexpected {token.describe}"
  | .keyword word => s!"unexpected keyword '{word}'"
  | .trailing token => s!"unexpected {token.describe} after expression"
  | .noElse => "expected 'else'"
  | .noClose => "expected ')'"
  | .noCallEnd => "expected ')' to close call"
  | .noMember => "expected name after '.'"

inductive ExprFault where
  | syntaxAt (fault : SyntaxFault) (position : Nat) (source : String)
  | undefinedName (name : String)
  | undefinedMember (base name : String)
  | undefinedConstant (name : String)
  | undefinedHistory (packet name : String)
  | undefinedFunction (name : String)
  | operand (sign : String) (kind : Value.Kind)
  | operands (op : BinaryOp) (left right : Value.Kind)
  | unordered (left right : Value.Kind)
  | negativeShift
  | shiftOverflow
  | argumentCount (function : String) (least most given : Nat)
  | parameterCount (function : String) (expected given : Nat)
  | notNumber (function : String) (kind : Value.Kind)
  | incomparable (function : String) (left right : Value.Kind)
  | emptySequence (function : String)
  | domain (function : String)
  | badSignature (signature : String)
  | fieldDepth (packet : String) (limit : Nat)
  | callDepth (function : String) (limit : Nat)
deriving DecidableEq, Repr

def ExprFault.message : ExprFault → String
  | .syntaxAt fault position source =>
    s!"{fault.message} at position {Numeral.decimal position} in '{source}'"
  | .undefinedName name => s!"name '{name}' is not defined"
  | .undefinedMember base name => s!"unsupported attribute access '{base}.{name}'"
  | .undefinedConstant name => s!"math has no constant '{name}'"
  | .undefinedHistory packet name => s!"{packet} has no history field '{name}'"
  | .undefinedFunction name => s!"unknown function '{name}'"
  | .operand sign kind => s!"bad operand for unary {sign}: {kind.name}"
  | .operands op left right =>
    s!"unsupported operand types for {op.text}: {left.name} and {right.name}"
  | .unordered left right => s!"cannot order {left.name} and {right.name}"
  | .negativeShift => "negative shift count"
  | .shiftOverflow => "shift result overflows"
  | .argumentCount function least most given =>
    s!"{function}() takes {Numeral.decimal least} to {Numeral.decimal most} arguments " ++
      s!"({Numeral.decimal given} given)"
  | .parameterCount function expected given =>
    s!"{function}() takes {Numeral.decimal expected} arguments ({Numeral.decimal given} given)"
  | .notNumber function kind => s!"{function}() requires a number, got {kind.name}"
  | .incomparable function left right =>
    s!"{function}() cannot compare {left.name} and {right.name}"
  | .emptySequence function => s!"{function}() arg is an empty sequence"
  | .domain function => s!"{function}(): math domain error"
  | .badSignature signature => s!"invalid function signature '{signature}'"
  | .fieldDepth packet limit =>
    s!"derived fields of {packet} nest deeper than {Numeral.decimal limit} levels"
  | .callDepth function limit => s!"call to {function} nests deeper than {Numeral.decimal limit} levels"

inductive DictionaryKind where
  | command | event
deriving DecidableEq, Repr

def DictionaryKind.name : DictionaryKind → String
  | .command => "command"
  | .event => "evr"

inductive Wanted where
  | string | number | integer | time | timeOrFraction | commandName | eventName | array
  | list (count : Nat)
deriving DecidableEq, Repr

def listText (count : Nat) : String := s!"list of {Numeral.decimal count} values"

def Wanted.text : Wanted → String
  | .string => "string"
  | .number => "number"
  | .integer => "integer"
  | .time => "time"
  | .timeOrFraction => "time or fraction of a second"
  | .commandName => "command name"
  | .eventName => "EVR name"
  | .array => "array"
  | .list count => listText count

inductive Given where
  | kind (k : Value.Kind)
  | list (count : Nat)
  | scalar
deriving DecidableEq, Repr

def Given.text : Given → String
  | .kind k => k.name
  | .list count => listText count
  | .scalar => "scalar"

inductive SymbolFault where
  | command (name : String)
  | opcode (code : Nat)
  | event (name : String)
  | packet (name : String)
  | emptyCommand
deriving DecidableEq, Repr

def SymbolFault.message : SymbolFault → String
  | .command name => s!"Unrecognized command: {name}"
  | .opcode code => s!"Unrecognized command opcode: {Numeral.decimal code}"
  | .event name => s!"Unrecognized EVR: {name}"
  | .packet name => s!"Unrecognized packet: {name}"
  | .emptyCommand => "empty command"

inductive RangeFault where
  | value (v low high : Int)
  | index (i : Nat) (type : String)
  | opcode (n : Int)
  | eventCode (n : Int)
  | time (t : Instant) (type : String)
  | fraction (x : Binary64)
  | nanoseconds (n : Nat)
  | argumentBlock (command : String) (size : Nat)
  | tableSize (table : String) (size limit : Nat)
  | cellText (text : String) (limit : Nat) (column : String)
deriving DecidableEq, Repr

def RangeFault.message : RangeFault → String
  | .value v low high =>
    s!"Value '{Numeral.signed v}' out of range [{Numeral.signed low}, {Numeral.signed high}]."
  | .index i type => s!"index {Numeral.decimal i} out of range for {type}"
  | .opcode n => s!"opcode {Numeral.signed n} exceeds 16 bits"
  | .eventCode n => s!"EVR code {Numeral.signed n} exceeds 16 bits"
  | .time t type => s!"{Rfc3339.renderSpaced t} is not representable as {type}"
  | .fraction x => s!"TIME8 fraction {FloatLayout.plain.render x} not in [0, 1)"
  | .nanoseconds n => s!"TIME64 nanoseconds {Numeral.decimal n} exceed one second"
  | .argumentBlock command size =>
    s!"{command} argument block of {Numeral.decimal size} bytes does not fit the size byte"
  | .tableSize table size limit =>
    s!"table {table} encodes to {Numeral.decimal size} bytes, more than its size of " ++
      Numeral.decimal limit
  | .cellText text limit column =>
    s!"'{text}' is longer than {Numeral.decimal limit} bytes for column {column}"

inductive ArrayFault where
  | unterminated (name : String)
  | misplaced (name : String)
  | count (name : String)
  | element (name : String)
deriving DecidableEq, Repr

def ArrayFault.message : ArrayFault → String
  | .unterminated name => s!"unterminated brackets in {name}"
  | .misplaced name => name
  | .count name => s!"{name} must have an integer greater than zero in square brackets"
  | .element name => s!"unknown element type in {name}"

inductive TableFault where
  | noHeader (table : String)
  | cellCount (row : Nat) (table : String) (given expected : Nat)
  | valueCount (expected given : Nat)
  | cut (table : String) (left row : Nat)
deriving DecidableEq, Repr

def TableFault.message : TableFault → String
  | .noHeader table => s!"table {table} is missing its header"
  | .cellCount row table given expected =>
    s!"row {Numeral.decimal row} of table {table} has {Numeral.decimal given} values, expected " ++
      Numeral.decimal expected
  | .valueCount expected given =>
    s!"expected {Numeral.decimal expected} values, got {Numeral.decimal given}"
  | .cut table left row =>
    s!"table {table} ends {Numeral.decimal left} bytes into a {Numeral.decimal row} byte row"

-- Why a field definition cannot be used. Positions are given as their text.
inductive FieldFault where
  | endsPast (bytes : String) (last : Nat)
  | reversedBytes (first last : Nat)
  | narrowBytes (first last : Nat) (type : String)
  | maskedType (type : String)
  | maskTooWide (mask : Nat) (type : String)
  | reversedRange (low high : Binary64)
deriving DecidableEq, Repr

def hexText (n : Nat) : String := "0x" ++ String.ofList (Numeral.digits 16 n)

def bytesText (first last : Nat) : String :=
  s!"[{Numeral.decimal first}, {Numeral.decimal last}]"

def rangeText (low high : Binary64) : String :=
  s!"[{FloatLayout.plain.render low}, {FloatLayout.plain.render high}]"

def FieldFault.message : FieldFault → String
  | .endsPast bytes last => s!"bytes {bytes} end past byte {Numeral.decimal last}"
  | .reversedBytes first last => s!"byte range {bytesText first last} is reversed"
  | .narrowBytes first last type => s!"byte range {bytesText first last} is narrower than {type}"
  | .maskedType type => s!"mask requires an integer type, not {type}"
  | .maskTooWide mask type => s!"mask {hexText mask} does not fit {type}"
  | .reversedRange low high => s!"range {rangeText low high} is reversed"

inductive SchemaFault where
  | notValue (json : Json)
  | bytePosition (position last : Nat)
  | byteDirective (text : String)
  | repeatedCode (code : Int)
  | repeatedCodeName (name : String)
  | field (name : String) (fault : FieldFault)
  | reservedField (packet name : String)
  | repeatedField (packet name : String)
  | repeatedPacket (name : String)
  | repeatedArgument (command argument : String)
  | repeatedCommand (name : String) (opcode : Nat)
  | repeatedEvent (name : String) (code : Nat)
  | noColumns (table : String)
  | repeatedColumn (table column : String)
  | repeatedTable (name : String)
  | builtInType (name : String)
  | alreadyBound (kind : DictionaryKind)

def SchemaFault.message : SchemaFault → String
  | .notValue json => s!"cannot convert {json.sorted.render} to a value"
  | .bytePosition position last =>
    s!"byte position {Numeral.decimal position} is past {Numeral.decimal last}"
  | .byteDirective text => s!"invalid bytes value '{text}'"
  | .repeatedCode code => s!"duplicate enumeration code {Numeral.signed code}"
  | .repeatedCodeName name => s!"duplicate enumeration name {name}"
  | .field name fault => s!"field {name}: {fault.message}"
  | .reservedField packet name => s!"packet {packet}: field name '{name}' is reserved"
  | .repeatedField packet name => s!"packet {packet}: duplicate field '{name}'"
  | .repeatedPacket name => s!"Duplicate packet name '{name}'"
  | .repeatedArgument command argument => s!"command {command}: duplicate argument '{argument}'"
  | .repeatedCommand name opcode =>
    s!"Duplicate command name/opcode {name} (0x{String.ofList (Numeral.padded 16 4 opcode)})"
  | .repeatedEvent name code => s!"Duplicate EVR name/code {name} ({Numeral.decimal code})"
  | .noColumns table => s!"table {table} has no columns"
  | .repeatedColumn table column => s!"table {table} has duplicate column {column}"
  | .repeatedTable name => s!"Duplicate table name {name}"
  | .builtInType name => s!"cannot replace built-in type {name}"
  | .alreadyBound kind => s!"{kind.name} dictionary already bound"

inductive Fault where
  | unknownField (definition field : String)
  | typeMismatch (type : String) (wanted : Wanted) (given : Given)
  | unknownSymbol (fault : SymbolFault)
  | unknownType (name : String)
  | outOfRange (fault : RangeFault)
  | arraySpec (fault : ArrayFault)
  | malformedTable (fault : TableFault)
  | notEnoughData (actual minimum : Nat)
  | missingArgument (name : String)
  | schema (fault : SchemaFault)
  | expression (fault : ExprFault)
  | unboundDictionary (kind : DictionaryKind)
  | file (name : String)
  | json

def Fault.message : Fault → String
  | .unknownField definition field => s!"{definition} has no field '{field}'"
  | .typeMismatch type wanted given => s!"{type} expected {wanted.text}, got {given.text}"
  | .unknownSymbol fault => s!"Unknown symbol: {fault.message}"
  | .unknownType name => s!"Unknown type: {name}"
  | .outOfRange fault => fault.message
  | .arraySpec fault => s!"Invalid array spec: {fault.message}"
  | .malformedTable fault => s!"Malformed table: {fault.message}"
  | .notEnoughData _ _ => "Not enough bytes"
  | .missingArgument name => s!"Argument \"{name}\" is missing"
  | .schema fault => s!"Invalid schema: {fault.message}"
  | .expression fault => s!"Expression error: {fault.message}"
  | .unboundDictionary kind => s!"No {kind.name} dictionary bound"
  | .file name => s!"Cannot write '{name}'"
  | .json => "Malformed document"

abbrev Attempt (α : Type) := Except Fault α

end SpaceLink
