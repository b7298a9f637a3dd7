import Khorjin.BlockHeap
import Khorjin.ConnectRetries

set_option autoImplicit false

/-!
# The descriptors of the socket

`Socket_connect` opens a new descriptor for every attempt whose address it can
resolve, and overwrites the one of the attempt before. `Socket_destroy` closes the
one that is left.
-/
namespace Khorjin
open BlockHeap

inductive Attempt
  /-- `getaddrinfo` fails, before a descriptor is opened. -/
  | unresolved
  /-- `connect` fails at once, with an error other than `EINPROGRESS`. -/
  | refused
  /-- `select` reports an error or no socket within the timeout. -/
  | timedOut
  | connected
deriving DecidableEq

def Attempt.result : Attempt → Bool
  | .connected => true
  | _ => false

section
variable {α F : Type} [DecidableEq α]

variable {A : Allocator α Unit} {timeoutInMs : UInt32}

end

section
attribute [local instance] ExactRational.platform

end
end Khorjin
