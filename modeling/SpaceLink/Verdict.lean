/-!
The outcome of checks that do not stop at the first failure: whether all passed, and the messages of
those that did not, after the messages there were before.
-/

set_option autoImplicit false

namespace SpaceLink

structure Verdict where
  valid : Bool
  messages : List String
deriving DecidableEq, Repr

namespace Verdict

def pass (log : List String) : Verdict := ⟨true, log⟩

def fail (message : String) (log : List String) : Verdict := ⟨false, log ++ [message]⟩

-- A further check, made whether or not the earlier ones passed.
def also (v : Verdict) (check : List String → Verdict) : Verdict :=
  let next := check v.messages
  ⟨v.valid && next.valid, next.messages⟩

end Verdict

end SpaceLink
