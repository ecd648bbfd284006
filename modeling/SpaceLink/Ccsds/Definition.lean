import SpaceLink.Bytes

/-!
What a packet definition or a command says about its space packet header.
-/

set_option autoImplicit false

namespace SpaceLink

def unsegmented : UInt8 := 3

structure CcsdsDefinition where
  version : UInt8
  type : UInt8
  secondary : Bool
  apid : UInt16
  seqflags : UInt8
  length : UInt16
deriving DecidableEq, Repr

namespace CcsdsDefinition

def default : CcsdsDefinition := ⟨0, 0, false, 0, unsegmented, 0⟩

def shflag (d : CcsdsDefinition) : UInt8 := if d.secondary then 1 else 0

end CcsdsDefinition

end SpaceLink
