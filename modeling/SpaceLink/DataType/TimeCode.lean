import SpaceLink.Bytes
import SpaceLink.Fault
import SpaceLink.Value.Printer
import SpaceLink.Verdict

/-!
Time codes: seconds since the start of 6 January 1980 in four bytes, alone, with a byte of 256ths or
with four bytes of nanoseconds; and a byte of 256ths on its own.
-/

set_option autoImplicit false

namespace SpaceLink

inductive TimeCode where
  | fraction | seconds | fine | nanos
deriving DecidableEq, Repr

namespace TimeCode

def epoch : Int := 315964800

def name : TimeCode → String
  | .fraction => "TIME8"
  | .seconds => "TIME32"
  | .fine => "TIME40"
  | .nanos => "TIME64"

def nbytes : TimeCode → Nat
  | .fraction => 1
  | .seconds => 4
  | .fine => 5
  | .nanos => 8

def all : List TimeCode := [.fraction, .seconds, .fine, .nanos]

def mismatch (t : TimeCode) (wanted : Wanted) (v : Value) : Fault :=
  .typeMismatch t.name wanted (.kind v.kind)

-- The 256ths of a second, cut, in one byte.
def fineOfNanos (nanos : Nat) : UInt8 := UInt8.ofNat (nanos * 256 / Instant.nanosPerSecond)

def nanosOfFine (fine : UInt8) : Nat := fine.toNat * Instant.nanosPerSecond / 256

def encodeSeconds (t : TimeCode) (i : Instant) : Attempt Bytes :=
  let n := i.seconds - epoch
  if 0 ≤ n ∧ n < 2 ^ 32 then .ok (Bytes.big 4 n.toNat) else .error (.outOfRange (.time i t.name))

def encodeFraction (x : Binary64) : Attempt Bytes :=
  let one := Binary64.ofInt 1
  if x.isNaN || x.lt Binary64.zero || !x.lt one then .error (.outOfRange (.fraction x))
  else .ok [UInt8.ofNat (x.wholePart 256)]

-- A leap second has the last nanosecond of the second before it.
def encode (t : TimeCode) (v : Value) : Attempt Bytes :=
  match t, v with
  | .fraction, .time i => .ok [fineOfNanos i.nanos]
  | .fraction, v =>
    match v.toDouble? with
    | some x => encodeFraction x
    | none => .error (t.mismatch .timeOrFraction v)
  | .seconds, .time i => t.encodeSeconds i
  | .fine, .time i => do .ok ((← t.encodeSeconds i) ++ [fineOfNanos i.nanos])
  | .nanos, .time i => do
    .ok ((← t.encodeSeconds i) ++ Bytes.big 4 (min i.nanos (Instant.nanosPerSecond - 1)))
  | _, v => .error (t.mismatch .time v)

def instant (seconds nanos : Nat) : Value := .time ⟨epoch + seconds, nanos⟩

def double (seconds part unit : Nat) : Value :=
  .float ((Binary64.ofInt seconds).add ((Binary64.ofInt part).div (Binary64.ofInt unit)))

def decode (t : TimeCode) (bytes : Bytes) (raw : Bool) : Attempt Value :=
  let own := bytes.take t.nbytes
  if own.length < t.nbytes then .error (.notEnoughData bytes.length t.nbytes)
  else
    let seconds := Bytes.ofBig (own.take 4)
    let rest := Bytes.ofBig (own.drop 4)
    match t with
    | .fraction =>
      .ok (if raw then .int (Bytes.ofBig own) else .float (Binary64.ofRatio false (Bytes.ofBig own) 256))
    | .seconds => .ok (if raw then .int seconds else instant seconds 0)
    | .fine =>
      .ok (if raw then double seconds rest 256 else instant seconds (nanosOfFine (UInt8.ofNat rest)))
    | .nanos =>
      if Instant.nanosPerSecond ≤ rest then .error (.outOfRange (.nanoseconds rest))
      else .ok (if raw then double seconds rest Instant.nanosPerSecond else instant seconds rest)

def accepts (t : TimeCode) (v : Value) : Bool :=
  v.time?.isSome || (t == .fraction && v.isNumeric)

def validate (t : TimeCode) (v : Value) (name : Option String) (log : List String) : Verdict :=
  if t.accepts v then .pass log
  else .fail (name.getD "Value" ++ s!" '{v.render}' is not a valid {t.name}.") log

end TimeCode

end SpaceLink
