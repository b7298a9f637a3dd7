import Mathlib.Data.Vector.Basic
import Mathlib.Data.Fintype.Basic
import Mathlib.Tactic.Simps.Basic
import Khorjin.Platform

set_option autoImplicit false

/-!
# The records of the client

The structures of `ieeeC37_118.h` and `ieeeC37_118.c`. A pointer to an allocated
array is the list of its elements, the null pointer being the empty array, and
a pointer to one record is an option. `zero` is the record `calloc` delivers.
-/
namespace Khorjin

abbrev Name := List.Vector UInt8 20

structure Phasor (F : Type) where
  channelName : Name
  magnitude : F
  angle : F
  conversionFactor : F
  /-- True for a voltage, false for a current. -/
  phasorIsVorI : Bool
deriving DecidableEq

structure Analog (F : Type) where
  channelName : Name
  value : F
  analogType : UInt8
  conversionFactor : F
deriving DecidableEq

structure DigitalChannel where
  channelName : Name
  status : Bool
  isEnabled : Bool
deriving DecidableEq

structure Digital where
  channel : Fin 16 → DigitalChannel
  digitalWord : UInt16
  dgMaskWord : UInt16
  validInputs : UInt16
deriving DecidableEq

structure Configuration (F : Type) where
  pmuIdcode : UInt16
  stationName : Name
  freqIsFloatingPoint : Bool
  analogIsFloatingPoint : Bool
  phasorIsFloatingPoint : Bool
  phasorIsPolar : Bool
  numberOfPhasors : UInt16
  numberOfAnalogs : UInt16
  numberOfDigitals : UInt16
  fNom : F
  frequency : F
  rocof : F
  cfgCnt : UInt16
  phasor : List (Phasor F)
  analog : List (Analog F)
  digital : List Digital
  dataError : UInt8
  pmuIsNOTSync : Bool
  dataSortingByArrivalorTime : Bool
  pmuIsTriggered : Bool
  configToChange : Bool
  dataModified : Bool
  pmuTimeQuality : UInt8
  unlockTime : UInt8
  triggerReason : UInt8
  statWord : UInt16
deriving DecidableEq

/-! The assignments to one member of a PMU record. -/

namespace Configuration
variable {F : Type}

@[simps] def setPhasor (self : Configuration F) (phasor : List (Phasor F)) : Configuration F :=
  { self with phasor }

@[simps] def setAnalog (self : Configuration F) (analog : List (Analog F)) : Configuration F :=
  { self with analog }

@[simps] def setDigital (self : Configuration F) (digital : List Digital) : Configuration F :=
  { self with digital }

@[simps] def setFrequency (self : Configuration F) (frequency : F) : Configuration F :=
  { self with frequency }

@[simps] def setRocof (self : Configuration F) (rocof : F) : Configuration F :=
  { self with rocof }

theorem setPhasor_self (self : Configuration F) : self.setPhasor self.phasor = self := rfl

theorem setAnalog_self (self : Configuration F) : self.setAnalog self.analog = self := rfl

theorem setDigital_self (self : Configuration F) : self.setDigital self.digital = self := rfl

@[simp] theorem setPhasor_setPhasor (self : Configuration F) (l l' : List (Phasor F)) :
    (self.setPhasor l).setPhasor l' = self.setPhasor l' := rfl

@[simp] theorem setAnalog_setAnalog (self : Configuration F) (l l' : List (Analog F)) :
    (self.setAnalog l).setAnalog l' = self.setAnalog l' := rfl

@[simp] theorem setDigital_setDigital (self : Configuration F) (l l' : List Digital) :
    (self.setDigital l).setDigital l' = self.setDigital l' := rfl

@[simp] theorem setFrequency_setFrequency (self : Configuration F) (x y : F) :
    (self.setFrequency x).setFrequency y = self.setFrequency y := rfl

end Configuration

structure ParsedTime (F : Type) where
  year : ℤ
  month : ℤ
  day : ℤ
  hour : ℤ
  minute : ℤ
  second : ℤ
  secPlusFraction : F
deriving DecidableEq

structure TimeQuality (F : Type) where
  leapSecondDirection : ℤ
  leapSecondOccured : Bool
  leapSecondPending : Bool
  timeIsLocked : Bool
  timeError : F
deriving DecidableEq

structure Time (F : Type) where
  parsedTime : Option (ParsedTime F)
  timeValueInMs : UInt64
  secondOfCenctury : UInt32
  fractionOfSecond : F
  quality : TimeQuality F
deriving DecidableEq

/-- `struct sC37_118client`. Of the socket only the connect timeout is kept. -/
structure Client (F : Type) where
  bufferSnd : List UInt8
  bufferRcv : List UInt8
  connectTimeout : UInt32
  idcode : UInt16
  numPmu : UInt16
  timeBase : UInt32
  dataRate : UInt16
  configTimeStamp : Time F
  dataTimeStamp : Time F
  configuration : List (Configuration F)
  running : Bool
deriving DecidableEq

def BUFER_LENGTH : ℕ := 10000

def Name.zero : Name := List.Vector.replicate 20 0

section
variable {F D : Type} [FloatArith F D]

/-- The float whose bytes `calloc` has cleared. -/
def zeroFloat : F := FloatArith.ofBits 0

def Phasor.zero : Phasor F := ⟨Name.zero, zeroFloat, zeroFloat, zeroFloat, false⟩

def Analog.zero : Analog F := ⟨Name.zero, zeroFloat, 0, zeroFloat⟩

def Digital.zero : Digital := ⟨fun _ => ⟨Name.zero, false, false⟩, 0, 0, 0⟩

def Configuration.zero : Configuration F where
  pmuIdcode := 0
  stationName := Name.zero
  freqIsFloatingPoint := false
  analogIsFloatingPoint := false
  phasorIsFloatingPoint := false
  phasorIsPolar := false
  numberOfPhasors := 0
  numberOfAnalogs := 0
  numberOfDigitals := 0
  fNom := zeroFloat
  frequency := zeroFloat
  rocof := zeroFloat
  cfgCnt := 0
  phasor := []
  analog := []
  digital := []
  dataError := 0
  pmuIsNOTSync := false
  dataSortingByArrivalorTime := false
  pmuIsTriggered := false
  configToChange := false
  dataModified := false
  pmuTimeQuality := 0
  unlockTime := 0
  triggerReason := 0
  statWord := 0

def Time.zero : Time F := ⟨none, 0, 0, zeroFloat, ⟨0, false, false, false, zeroFloat⟩⟩

/-- The client record as `c37_118client_connect` sets it up before it connects.
    `malloc` leaves the bytes of the two buffers open, and `int32_t pmuIdCode` is
    truncated to the 16 bits of `idcode`. -/
def Client.fresh (pmuIdCode : ℤ) (timeoutInMs : UInt32) (bufferSnd bufferRcv : List UInt8) :
    Client F where
  bufferSnd := bufferSnd
  bufferRcv := bufferRcv
  connectTimeout := timeoutInMs
  idcode := UInt16.ofInt pmuIdCode
  numPmu := 0
  timeBase := 0
  dataRate := 0
  configTimeStamp := Time.zero
  dataTimeStamp := Time.zero
  configuration := []
  running := false

end
end Khorjin
