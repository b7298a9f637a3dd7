import Khorjin.ReconfiguredLink

set_option autoImplicit false

/-!
# When a conversation goes on

A call that reads waits for as long as nothing comes in on the open connection. The client
can get back in step with its station from every state but one.
-/
namespace Khorjin
open ByteMemory LoopRules RunRules
variable {F D : Type} [Platform F D]

def Word.zero : (floating : Bool) → Word floating
  | true => (0 : UInt32)
  | false => (0 : UInt16)

def SentPmu.zero (l : Layout) : SentPmu where
  layout := l
  stat := 0
  phasors := List.Vector.replicate l.phasors (Word.zero _, Word.zero _)
  freq := Word.zero _
  dfreq := Word.zero _
  analogs := List.Vector.replicate l.analogs (Word.zero _)
  digitals := List.Vector.replicate l.digitals 0

theorem zero_fracsec_lt : (0 : UInt32).toNat < 2 ^ 24 := Nat.two_pow_pos 24

def SentData.zero (f : Cfg2) : SentData :=
  ⟨f.idcode, 0, 0, 0, f.records.map (fun r => SentPmu.zero r.layout), zero_fracsec_lt⟩

section
variable {first : Client F} {s t : Conversation F} {u : Unit}

end

section
attribute [local instance] ExactRational.platform

end
end Khorjin
