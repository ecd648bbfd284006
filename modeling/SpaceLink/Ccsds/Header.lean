import SpaceLink.Packet.Basic

/-!
The primary header of a space packet: seven bit fields in six bytes, from the most significant bit on
version (3), type (1), secondary header flag (1), application identifier (11), sequence flags (2),
sequence count (14) and length (16).
-/

set_option autoImplicit false

namespace SpaceLink.Ccsds

def byteType : IntType := ⟨false, .byte⟩
def wordType : IntType := ⟨false, .word .msb .two⟩

def bits (name : String) (type : IntType) (position : Position) (mask : Option UInt64)
    (enumeration : Option Enumeration) : Field :=
  { name
    type := .scalar (.primitive (.int type))
    position
    mask
    enumeration
    range := none
    conversion := none
    expr := none
    condition := none
    fixed := none
    units := none
    desc := none }

def segments : Enumeration :=
  { entries :=
      [(0, "Continuation Segment"), (1, "First Segment"), (2, "Last Segment"), (3, "Unsegmented")]
    ascending := by simp
    distinct := by simp }

def fields : List Field :=
  [bits "version" byteType (.single 0) (some 0xe0) none,
    bits "type" byteType (.single 0) (some 0x10) none,
    bits "shflag" byteType (.single 0) (some 0x08) none,
    bits "apid" wordType (.range 0 1) (some 0x07ff) none,
    bits "seqflags" byteType (.single 2) (some 0xc0) (some segments),
    bits "seqcount" wordType (.range 2 3) (some 0x3fff) none,
    bits "length" wordType (.range 4 5) none none]

def header : PacketDefinition :=
  { name := "CCSDS_Header"
    ownApid := none
    desc := none
    fields
    history := []
    constants := []
    functions := []
    table := .core
    ccsds := none }

-- The header sees no code books and has no history.
def context : Context := ⟨.none, []⟩

def setBits (p : Packet) (name : String) (n : Nat) : Attempt Packet := p.set .none name (.int n)

def newHeader : Attempt Packet := setBits (Packet.new header) "seqflags" unsegmented.toNat

def readHeader (bytes : Bytes) : Attempt Packet :=
  (Packet.receive context header bytes).map Prod.fst

end SpaceLink.Ccsds

namespace SpaceLink.CcsdsDefinition

open Ccsds (setBits)

def header (d : CcsdsDefinition) : Attempt Packet := do
  let p ← Ccsds.newHeader
  let p ← setBits p "version" d.version.toNat
  let p ← setBits p "type" d.type.toNat
  let p ← setBits p "shflag" d.shflag.toNat
  let p ← setBits p "apid" d.apid.toNat
  let p ← setBits p "seqflags" d.seqflags.toNat
  setBits p "length" d.length.toNat

-- Whether all the fields have their wanted numbers; the first that has not ends the search.
def agrees (c : Context) (p : Packet) : List (String × Int) → Attempt Bool
  | [] => .ok true
  | (name, wanted) :: rest => do
    let v ← p.get c name true none
    if v.bind Value.toInt? = some wanted then agrees c p rest else .ok false

def fits (d : CcsdsDefinition) (c : Context) (p : Packet) : Attempt Bool :=
  agrees c p
    [("version", d.version.toNat), ("type", d.type.toNat), ("shflag", d.shflag.toNat),
      ("apid", d.apid.toNat)]

end SpaceLink.CcsdsDefinition
