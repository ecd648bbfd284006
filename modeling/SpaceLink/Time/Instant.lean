/-!
Instants of universal time: seconds since the start of 1970, without leap seconds, and nanoseconds.
Nanoseconds from a thousand million up are the leap second after the second that carries them.
-/

set_option autoImplicit false

namespace SpaceLink

structure Instant where
  seconds : Int
  nanos : Nat
deriving DecidableEq, Repr

namespace Instant

def nanosPerSecond : Nat := 1000000000

def compare (a b : Instant) : Ordering :=
  (Ord.compare a.seconds b.seconds).then (Ord.compare a.nanos b.nanos)

end Instant

end SpaceLink
