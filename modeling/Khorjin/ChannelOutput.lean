import Mathlib.Logic.Function.Basic
import Khorjin.ClientRecords
import Khorjin.LoopRules

set_option autoImplicit false

/-!
# The reporting calls

What the client hands out and prints. As in the parsers, a run is undefined once it
names an array element that was not allocated or follows the null pointer.
-/
namespace Khorjin
open LoopRules
variable {F : Type}

structure OutputBuffers (F : Type) where
  timestamp : ParsedTime F
  freqBuffer : ℕ → F
  rocofBuffer : ℕ → F
  phasorsMagBuffer : ℕ → F
  phasorsAngBuffer : ℕ → F
  analogBuffer : ℕ → F

structure OutputState (F : Type) where
  buffers : OutputBuffers F
  k : ℕ
  m : ℕ

def outputPhasor (c : Configuration F) (j : ℕ) (s : OutputState F) : Option (OutputState F) := do
  let ph ← c.phasor[j]?
  let buffers := { s.buffers with
    phasorsMagBuffer := Function.update s.buffers.phasorsMagBuffer s.k ph.magnitude
    phasorsAngBuffer := Function.update s.buffers.phasorsAngBuffer s.k ph.angle }
  some { s with buffers, k := s.k + 1 }

def outputAnalog (c : Configuration F) (j : ℕ) (s : OutputState F) : Option (OutputState F) := do
  let an ← c.analog[j]?
  let buffers := { s.buffers with
    analogBuffer := Function.update s.buffers.analogBuffer s.m an.value }
  some { s with buffers, m := s.m + 1 }

def outputPmu (self : Client F) (i : ℕ) (s : OutputState F) : Option (OutputState F) := do
  let c ← self.configuration[i]?
  let buffers := { s.buffers with
    freqBuffer := Function.update s.buffers.freqBuffer i c.frequency
    rocofBuffer := Function.update s.buffers.rocofBuffer i c.rocof }
  let s ← forLoop (outputPhasor c) c.numberOfPhasors.toNat { s with buffers }
  forLoop (outputAnalog c) c.numberOfAnalogs.toNat s

def outputChannels (self : Client F) (buffers : OutputBuffers F) : Option (OutputState F) :=
  forLoop (outputPmu self) self.numPmu.toNat ⟨buffers, 0, 0⟩

/-- The null pointer `parsedTime` is dereferenced before the loops. -/
def outputDataStream (self : Client F) (buffers : OutputBuffers F) : Option (OutputBuffers F) := do
  let timestamp ← self.dataTimeStamp.parsedTime
  let s ← outputChannels self { buffers with timestamp }
  some s.buffers

/-- What `%s` prints of a name that ends in a zero byte. -/
def Name.text (name : Name) : List UInt8 := name.toList.takeWhile (· != 0)

structure PrintedTime (F : Type) where
  leapSecondOccured : Bool
  leapSecondPending : Bool
  timeIsLocked : Bool
  timeError : F
  timeValueInMs : UInt64
  year : ℤ
  month : ℤ
  day : ℤ
  hour : ℤ
  minute : ℤ
  secPlusFraction : F

def Time.printed (timeStamp : Time F) (parsedTime : ParsedTime F) : PrintedTime F where
  leapSecondOccured := timeStamp.quality.leapSecondOccured
  leapSecondPending := timeStamp.quality.leapSecondPending
  timeIsLocked := timeStamp.quality.timeIsLocked
  timeError := timeStamp.quality.timeError
  timeValueInMs := timeStamp.timeValueInMs
  year := parsedTime.year
  month := parsedTime.month
  day := parsedTime.day
  hour := parsedTime.hour
  minute := parsedTime.minute
  secPlusFraction := parsedTime.secPlusFraction

inductive PrintedRate
  | framesPerSecond (dataRate : UInt16)
  | secondsPerFrame (seconds : ℤ)

/-- The member is unsigned: a negative rate is taken for a large positive one. -/
def printedRate (dataRate : UInt16) : PrintedRate :=
  if 0 < dataRate then .framesPerSecond dataRate else .secondsPerFrame (dataRate.toNat * -1)

/-- What one group of printed lines shows, without the fixed texts. The mask word of a digital
    channel is passed to `%f`: what is printed for it is undefined and left out. -/
inductive ConfigurationLine (F : Type)
  | timeStamp (time : PrintedTime F)
  | pdc (idcode numPmu : UInt16) (timeBase : Int32) (dataRate : PrintedRate)
  | pmu (cfgCnt : UInt16) (stationName : List UInt8) (pmuIdcode numberOfPhasors : UInt16)
      (phasorIsFloatingPoint phasorIsPolar : Bool) (numberOfAnalogs : UInt16)
      (analogIsFloatingPoint : Bool) (numberOfDigitals : UInt16) (fNom : F)
      (freqIsFloatingPoint : Bool)
  | phasor (j i : ℕ) (channelName : List UInt8) (conversionFactor : F) (phasorIsVorI : Bool)
  | analog (j i : ℕ) (channelName : List UInt8) (analogType : UInt8) (conversionFactor : F)
  | digital (j i : ℕ) (channelName : Fin 16 → List UInt8) (validInputs : UInt16)

def printPhasor (c : Configuration F) (i j : ℕ) (lines : List (ConfigurationLine F)) :
    Option (List (ConfigurationLine F)) := do
  let ph ← c.phasor[j]?
  some (lines ++ [.phasor (j + 1) (i + 1) ph.channelName.text ph.conversionFactor ph.phasorIsVorI])

def printAnalog (c : Configuration F) (i j : ℕ) (lines : List (ConfigurationLine F)) :
    Option (List (ConfigurationLine F)) := do
  let an ← c.analog[j]?
  some (lines ++ [.analog (j + 1) (i + 1) an.channelName.text an.analogType an.conversionFactor])

def printDigital (c : Configuration F) (i j : ℕ) (lines : List (ConfigurationLine F)) :
    Option (List (ConfigurationLine F)) := do
  let dg ← c.digital[j]?
  some (lines ++
    [.digital (j + 1) (i + 1) (fun k => (dg.channel k).channelName.text) dg.validInputs])

def printPmu (self : Client F) (i : ℕ) (lines : List (ConfigurationLine F)) :
    Option (List (ConfigurationLine F)) := do
  let c ← self.configuration[i]?
  let lines := lines ++ [.pmu c.cfgCnt c.stationName.text c.pmuIdcode c.numberOfPhasors
    c.phasorIsFloatingPoint c.phasorIsPolar c.numberOfAnalogs c.analogIsFloatingPoint
    c.numberOfDigitals c.fNom c.freqIsFloatingPoint]
  let lines ← forLoop (printPhasor c i) c.numberOfPhasors.toNat lines
  let lines ← forLoop (printAnalog c i) c.numberOfAnalogs.toNat lines
  forLoop (printDigital c i) c.numberOfDigitals.toNat lines

def printChannels (self : Client F) (lines : List (ConfigurationLine F)) :
    Option (List (ConfigurationLine F)) :=
  forLoop (printPmu self) self.numPmu.toNat lines

def printConfiguration (self : Client F) : Option (List (ConfigurationLine F)) := do
  let parsedTime ← self.configTimeStamp.parsedTime
  printChannels self [
    .timeStamp (self.configTimeStamp.printed parsedTime),
    .pdc self.idcode self.numPmu self.timeBase.toInt32 (printedRate self.dataRate)]

def getConf_pdc (self : Client F) : Option (UInt16 × UInt16 × ParsedTime F) := do
  let timestamp ← self.configTimeStamp.parsedTime
  some (self.numPmu, self.dataRate, timestamp)

/-- The caller's arrays for `getConf_pmu`, which are taken to be large enough. -/
structure PmuArrays (F : Type) where
  numPhasors : ℕ → UInt16
  numAnalog : ℕ → UInt16
  numdigital : ℕ → UInt16
  freqNom : ℕ → F
  configCount : ℕ → UInt16
  idCode : ℕ → UInt16

def confPmu (self : Client F) (i : ℕ) (s : PmuArrays F) : Option (PmuArrays F) := do
  let c ← self.configuration[i]?
  some {
    numPhasors := Function.update s.numPhasors i c.numberOfPhasors
    numAnalog := Function.update s.numAnalog i c.numberOfAnalogs
    numdigital := Function.update s.numdigital i c.numberOfDigitals
    freqNom := Function.update s.freqNom i c.fNom
    configCount := Function.update s.configCount i c.cfgCnt
    idCode := Function.update s.idCode i c.pmuIdcode }

def getConf_pmu (self : Client F) (arrays : PmuArrays F) : Option (PmuArrays F) :=
  forLoop (confPmu self) self.numPmu.toNat arrays

/-- The 16 bytes that are copied to `stationName`, which nothing terminates. -/
def getConf_pmu_stationName (self : Client F) (pmuNumber : ℕ) : Option (List UInt8) := do
  let c ← self.configuration[pmuNumber]?
  some (c.stationName.toList.take 16)

def getConf_pmu_channelName (self : Client F) (pmuNumber phasor : ℕ) :
    Option (List UInt8 × ℤ) := do
  let c ← self.configuration[pmuNumber]?
  let ph ← c.phasor[phasor]?
  some (ph.channelName.toList.take 16, if ph.phasorIsVorI then 0 else 1)

def getConf_pmu_analogs (self : Client F) (pmuNumber analog : ℕ) : Option (List UInt8 × ℤ) := do
  let c ← self.configuration[pmuNumber]?
  let an ← c.analog[analog]?
  some (an.channelName.toList.take 16, an.analogType.toNat)

structure Status where
  dataError : UInt8
  pmuIsNOTSync : UInt8
  pmuIsTriggered : UInt8
  dataModified : UInt8
  pmuTimeQuality : UInt8
  unlockTime : UInt8
  triggerReason : UInt8
deriving DecidableEq

def outputDataStream_status (self : Client F) (pmuNumber : ℕ) : Option Status := do
  let c ← self.configuration[pmuNumber]?
  some {
    dataError := c.dataError
    dataModified := c.dataModified.toUInt8
    pmuIsNOTSync := c.pmuIsNOTSync.toUInt8
    pmuIsTriggered := c.pmuIsTriggered.toUInt8
    pmuTimeQuality := c.pmuTimeQuality
    triggerReason := c.triggerReason
    unlockTime := c.unlockTime }

/-- What one group of lines of `printDataStream` shows, without the fixed texts. The reason of
    a trigger is looked up under `pmuTimeQuality`. The value of an analog channel is passed
    to `%u`: what is printed for it is undefined and left out. -/
inductive DataLine (F : Type)
  | timeStamp (time : PrintedTime F)
  | status (i : ℕ) (dataError : UInt8) (pmuIsNOTSync dataSortingByArrivalorTime pmuIsTriggered
      configToChange dataModified : Bool) (pmuTimeQuality unlockTime : UInt8)
  | triggerReason (pmuTimeQuality : UInt8)
  | frequency (i : ℕ) (frequency rocof : F)
  | phasor (j i : ℕ) (channelName : List UInt8) (magnitude angle : F)
  | analog (j i : ℕ) (channelName : List UInt8)
  | digital (j i : ℕ) (channelName : Fin 16 → List UInt8) (isEnabled status : Fin 16 → Bool)

def printDataPhasor (c : Configuration F) (i j : ℕ) (lines : List (DataLine F)) :
    Option (List (DataLine F)) := do
  let ph ← c.phasor[j]?
  some (lines ++ [.phasor (j + 1) (i + 1) ph.channelName.text ph.magnitude ph.angle])

def printDataAnalog (c : Configuration F) (i j : ℕ) (lines : List (DataLine F)) :
    Option (List (DataLine F)) := do
  let an ← c.analog[j]?
  some (lines ++ [.analog (j + 1) (i + 1) an.channelName.text])

def printDataDigital (c : Configuration F) (i j : ℕ) (lines : List (DataLine F)) :
    Option (List (DataLine F)) := do
  let dg ← c.digital[j]?
  some (lines ++ [.digital (j + 1) (i + 1) (fun k => (dg.channel k).channelName.text)
    (fun k => (dg.channel k).isEnabled) (fun k => (dg.channel k).status)])

def printDataPmu (self : Client F) (i : ℕ) (lines : List (DataLine F)) :
    Option (List (DataLine F)) := do
  let c ← self.configuration[i]?
  let lines := lines ++ [.status (i + 1) c.dataError c.pmuIsNOTSync c.dataSortingByArrivalorTime
    c.pmuIsTriggered c.configToChange c.dataModified c.pmuTimeQuality c.unlockTime]
  let lines := lines ++ (if c.pmuIsTriggered then [.triggerReason c.pmuTimeQuality] else [])
  let lines := lines ++ [.frequency (i + 1) c.frequency c.rocof]
  let lines ← forLoop (printDataPhasor c i) c.numberOfPhasors.toNat lines
  let lines ← forLoop (printDataAnalog c i) c.numberOfAnalogs.toNat lines
  forLoop (printDataDigital c i) c.numberOfDigitals.toNat lines

def printData (self : Client F) (lines : List (DataLine F)) : Option (List (DataLine F)) :=
  forLoop (printDataPmu self) self.numPmu.toNat lines

def printDataStream (self : Client F) : Option (List (DataLine F)) := do
  let parsedTime ← self.dataTimeStamp.parsedTime
  printData self [
    .timeStamp (self.dataTimeStamp.printed parsedTime)]

end Khorjin
