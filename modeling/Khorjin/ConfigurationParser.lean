import Khorjin.FrameChecks
import Khorjin.TimeStamp

set_option autoImplicit false

/-!
# The configuration-frame parser

`preparePhsor`, `prepareAnalog`, `prepareDigital`, `prepareConfiguration` and
`parseConfigurationFrame`. As in the source, the three helpers work on arrays
that `calloc` has cleared, sized by the record they are given.
-/
namespace Khorjin
open ByteMemory LoopRules
variable {F D : Type} [Platform F D]

/-- `memcpy` of 16 bytes into a name of 20. -/
def copyName (name : Name) (bytes : List.Vector UInt8 16) : Name := bytes ++ name.drop 16

def copyPhasorName (buffer : Memory) (ph : Phasor F) (bufPos : ℕ) : Option (Phasor F × ℕ) := do
  let bytes ← buffer.readBytes 16 bufPos
  some ({ ph with channelName := copyName ph.channelName bytes }, bufPos + 16)

/-- `(float)phunit * 0.00001` -/
def scalePhunit (phunit : UInt32) : F :=
  let x : F := FloatArith.ofInt phunit.toNat
  FloatArith.narrow (FloatArith.mulD F (FloatArith.widen x) (FloatArith.const F (1 / 100000)))

def Phasor.setVorI (ph : Phasor F) (phasorType : UInt8) : Phasor F :=
  match phasorType.toNat with
  | 0 => { ph with phasorIsVorI := true }
  | 1 => { ph with phasorIsVorI := false }
  | _ => ph

def readPhunit (self : Configuration F) (buffer : Memory) (ph : Phasor F) (bufPos : ℕ) :
    Option (Phasor F × ℕ) := do
  let phasorType ← buffer.read bufPos
  let ph := ph.setVorI phasorType
  let (phunit, bufPos) ← threeByteToUint32 buffer (bufPos + 1)
  if self.phasorIsFloatingPoint then
    some ({ ph with conversionFactor := FloatArith.ofInt 1 }, bufPos)
  else
    some ({ ph with conversionFactor := scalePhunit phunit }, bufPos)

def preparePhsor (self : Configuration F) (buffer : Memory) (bufPos : ℕ) :
    Option (List (Phasor F)) := do
  let count := self.numberOfPhasors.toNat
  let (phasors, bufPos) ← forLoop (arrayPass (copyPhasorName buffer)) count
    (List.replicate count Phasor.zero, bufPos)
  let bufPos := bufPos + 16 * (self.numberOfAnalogs.toNat + 16 * self.numberOfDigitals.toNat)
  let (phasors, _) ← forLoop (arrayPass (readPhunit self buffer)) count (phasors, bufPos)
  some phasors

def copyAnalogName (buffer : Memory) (an : Analog F) (bufPos : ℕ) : Option (Analog F × ℕ) := do
  let bytes ← buffer.readBytes 16 bufPos
  some ({ an with channelName := copyName an.channelName bytes }, bufPos + 16)

def readAnunit (buffer : Memory) (an : Analog F) (bufPos : ℕ) : Option (Analog F × ℕ) := do
  let analogType ← buffer.read bufPos
  some ({ an with analogType, conversionFactor := FloatArith.ofInt 1 }, bufPos + 4)

def prepareAnalog (self : Configuration F) (buffer : Memory) (bufPos : ℕ) :
    Option (List (Analog F)) := do
  let count := self.numberOfAnalogs.toNat
  let (analogs, bufPos) ← forLoop (arrayPass (copyAnalogName buffer)) count
    (List.replicate count Analog.zero, bufPos)
  let bufPos :=
    bufPos + (16 * (16 * self.numberOfDigitals.toNat) + 4 * self.numberOfPhasors.toNat)
  let (analogs, _) ← forLoop (arrayPass (readAnunit buffer)) count (analogs, bufPos)
  some analogs

def copyDigitalName (buffer : Memory) (k : ℕ) (s : Digital × ℕ) : Option (Digital × ℕ) := do
  let bytes ← buffer.readBytes 16 s.2
  some ({ s.1 with channel := fun i =>
    if i.val = k then
      { s.1.channel i with channelName := copyName (s.1.channel i).channelName bytes }
    else s.1.channel i }, s.2 + 16)

def copyDigitalNames (buffer : Memory) (dg : Digital) (bufPos : ℕ) : Option (Digital × ℕ) :=
  forLoop (copyDigitalName buffer) 16 (dg, bufPos)

def readDigunit (buffer : Memory) (dg : Digital) (bufPos : ℕ) : Option (Digital × ℕ) := do
  let (dgMaskWord, bufPos) ← twoByteToUint16 buffer bufPos
  let (validInputs, bufPos) ← twoByteToUint16 buffer bufPos
  some ({ dg with
    dgMaskWord
    validInputs
    channel := (markBits (fun ch => { ch with isEnabled := true }) dg.channel validInputs 16).1 },
    bufPos)

def prepareDigital (self : Configuration F) (buffer : Memory) (bufPos : ℕ) :
    Option (List Digital) := do
  let count := self.numberOfDigitals.toNat
  let (digitals, bufPos) ← forLoop (arrayPass (copyDigitalNames buffer)) count
    (List.replicate count Digital.zero, bufPos)
  let bufPos := bufPos + 4 * (self.numberOfPhasors.toNat + self.numberOfAnalogs.toNat)
  let (digitals, _) ← forLoop (arrayPass (readDigunit buffer)) count (digitals, bufPos)
  some digitals

def readRecordHead (c : Configuration F) (buffer : Memory) (bufPos : ℕ) :
    Option (Configuration F × ℕ) := do
  let bytes ← buffer.readBytes 16 bufPos
  let bufPos := bufPos + 16
  let (idCode, bufPos) ← twoByteToUint16 buffer bufPos
  let (format, bufPos) ← twoByteToUint16 buffer bufPos
  let (phnmr, bufPos) ← twoByteToUint16 buffer bufPos
  let (annmr, bufPos) ← twoByteToUint16 buffer bufPos
  let (dgnmr, bufPos) ← twoByteToUint16 buffer bufPos
  some ({ c with
    stationName := copyName c.stationName bytes
    pmuIdcode := idCode
    phasorIsPolar := format &&& 0x1 == 0x1
    phasorIsFloatingPoint := format &&& 0x2 == 0x2
    analogIsFloatingPoint := format &&& 0x4 == 0x4
    freqIsFloatingPoint := format &&& 0x8 == 0x8
    numberOfPhasors := phnmr
    numberOfAnalogs := annmr
    numberOfDigitals := dgnmr }, bufPos)

/-- One pass of the loop of `prepareConfiguration`. The helpers are called on, and the
    cursor is advanced by the counts of, `configurationPtr`, which is the first record
    for every `i`. -/
def prepareRecord (buffer : Memory) (i : ℕ) (s : List (Configuration F) × ℕ) :
    Option (List (Configuration F) × ℕ) := do
  let c ← s.1[i]?
  let (c, bufPos) ← readRecordHead c buffer s.2
  let first ← (s.1.set i c)[0]?
  let phasor ←
    (if c.numberOfPhasors ≠ 0 then preparePhsor first buffer bufPos else some c.phasor)
  let bufPos := bufPos + 16 * first.numberOfPhasors.toNat
  let analog ←
    (if c.numberOfAnalogs ≠ 0 then prepareAnalog first buffer bufPos else some c.analog)
  let bufPos := bufPos + 16 * first.numberOfAnalogs.toNat
  let digital ←
    (if c.numberOfDigitals ≠ 0 then prepareDigital first buffer bufPos else some c.digital)
  let bufPos := bufPos + (16 * 16 * c.numberOfDigitals.toNat +
    4 * (c.numberOfAnalogs.toNat + c.numberOfDigitals.toNat + c.numberOfPhasors.toNat))
  let (fnom, bufPos) ← twoByteToUint16 buffer bufPos
  let fNom : F := if fnom &&& 0x1 = 0 then FloatArith.ofInt 60 else FloatArith.ofInt 50
  let (cfgcnt, bufPos) ← twoByteToUint16 buffer bufPos
  some (s.1.set i { c with phasor, analog, digital, fNom, cfgCnt := cfgcnt }, bufPos)

def prepareConfiguration (self : Client F) (buffer : Memory) (bufPos : ℕ) :
    Option (List (Configuration F)) := do
  let numPmu := self.numPmu.toNat
  let (configuration, _) ← forLoop (prepareRecord buffer) numPmu
    (List.replicate numPmu Configuration.zero, bufPos)
  some configuration

def parseConfigurationFrame (self : Client F) (buffer : Memory) (bufferSize : ℤ) :
    Option (ℤ × Client F) := do
  match ← checkFrame 0x31 self buffer bufferSize with
  | none => some (-1, self)
  | some header =>
    let self := { self with idcode := header.idCodeRcdv }
    let bufPos := header.bufPos + 8
    let (timeBaseRcvd, bufPos) ← fourByteToUint32 buffer bufPos
    let self := { self with timeBase := timeBaseRcvd }
    let bufPos := bufPos - 12
    let (configTimeStamp, bufPos) ← parseTimeStamp self.configTimeStamp 1000 buffer bufPos
    let self := { self with configTimeStamp }
    let bufPos := bufPos + 4
    let (numPmuRcvd, bufPos) ← twoByteToUint16 buffer bufPos
    let self := { self with numPmu := numPmuRcvd }
    -- an offset before the buffer is not readable
    let dataRatePos ←
      (if 4 ≤ header.frameSizeRcdv.toNat then some (header.frameSizeRcdv.toNat - 4) else none)
    let (dataRateRcvd, _) ← twoByteToUint16 buffer dataRatePos
    let self := { self with dataRate := dataRateRcvd }
    let configuration ← prepareConfiguration self buffer bufPos
    some (0, { self with configuration })

end Khorjin
