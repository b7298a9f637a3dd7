import Khorjin.FrameChecks
import Khorjin.TimeStamp

set_option autoImplicit false

/-!
# The data-frame parser

`parseSTATWord` and `parseDataFrame`. A run is undefined (`none`) once it reads a
byte outside the memory or names an array element that was not allocated. The
local words `tempUint16_1` and `tempUint16_2` are assigned right before every
use; the local floats are not, so that they are part of the loop state and their
indeterminate initial values are an argument of the parser.
-/
namespace Khorjin
open ByteMemory LoopRules
variable {F D : Type} [Platform F D]

/-- The effect of `parseSTATWord` once the word is read: the five flags are only
    ever set. -/
@[simps] def Configuration.storeSTAT (self : Configuration F) (tempSTAT : UInt16) :
    Configuration F :=
  let w4 := tempSTAT >>> 4
  let w6 := w4 >>> 2
  let w9 := w6 >>> 3
  let w10 := w9 >>> 1
  let w11 := w10 >>> 1
  let w12 := w11 >>> 1
  let w13 := w12 >>> 1
  let w14 := w13 >>> 1
  { self with
    statWord := tempSTAT
    triggerReason := (tempSTAT &&& 0x1111).toUInt8
    unlockTime := (w4 &&& 0x11).toUInt8
    pmuTimeQuality := (w6 &&& 0x111).toUInt8
    dataModified := if w9 &&& 0x1 = 0x1 then true else self.dataModified
    configToChange := if w10 &&& 0x1 = 0x1 then true else self.configToChange
    pmuIsTriggered := if w11 &&& 0x1 = 0x1 then true else self.pmuIsTriggered
    dataSortingByArrivalorTime :=
      if w12 &&& 0x1 = 0x1 then true else self.dataSortingByArrivalorTime
    pmuIsNOTSync := if w13 &&& 0x1 = 0x1 then true else self.pmuIsNOTSync
    dataError := (w14 &&& 0x11).toUInt8 }

def parseSTATWord (self : Configuration F) (buffer : Memory) (bufPos : ℕ) :
    Option (Configuration F × ℕ) := do
  let (tempSTAT, bufPos) ← twoByteToUint16 buffer bufPos
  some (self.storeSTAT tempSTAT, bufPos)

structure Temps (F : Type) where
  tempFloat_1 : F
  tempFloat_2 : F
deriving DecidableEq

structure PmuState (F : Type) where
  pmu : Configuration F
  bufPos : ℕ
  temps : Temps F

def magnitudeOf (x y : F) : D :=
  let square (z : F) : D := FloatArith.pow F (FloatArith.widen z) (FloatArith.const F 2)
  FloatArith.sqrt F (FloatArith.addD F (square x) (square y))

/-- Angle of a vector in degrees, `atan2(y, x) * 180 / M_PI`. -/
def angleOf (x y : F) : F :=
  FloatArith.narrow (FloatArith.divD F
    (FloatArith.mulD F (FloatArith.atan2 F (FloatArith.widen y) (FloatArith.widen x))
      (FloatArith.const F 180)) (FloatArith.M_PI F))

def floatOfWord (w : UInt16) : F := FloatArith.ofInt w.toNat

def parsePhasor (buffer : Memory) (j : ℕ) (s : PmuState F) : Option (PmuState F) := do
  let ph ← s.pmu.phasor[j]?
  let store (ph : Phasor F) (bufPos : ℕ) (temps : Temps F) : PmuState F :=
    ⟨s.pmu.setPhasor (s.pmu.phasor.set j ph), bufPos, temps⟩
  if s.pmu.phasorIsFloatingPoint then
    let (tempFloat_1, bufPos) ← decodeFloatingPointValue buffer s.bufPos
    let (tempFloat_2, bufPos) ← decodeFloatingPointValue buffer bufPos
    if s.pmu.phasorIsPolar then
      some (store { ph with magnitude := tempFloat_1, angle := tempFloat_2 } bufPos
        ⟨tempFloat_1, tempFloat_2⟩)
    else
      some (store { ph with
        magnitude := FloatArith.narrow (magnitudeOf tempFloat_1 tempFloat_2)
        angle := angleOf tempFloat_1 tempFloat_2 } bufPos ⟨tempFloat_1, tempFloat_2⟩)
  else
    let (tempUint16_1, bufPos) ← twoByteToUint16 buffer s.bufPos
    let (tempUint16_2, bufPos) ← twoByteToUint16 buffer bufPos
    if s.pmu.phasorIsPolar then
      -- the source multiplies the local floats here, not the two words just read
      some (store { ph with
        magnitude := FloatArith.mul s.temps.tempFloat_1 ph.conversionFactor
        angle := FloatArith.mul s.temps.tempFloat_2 ph.conversionFactor } bufPos s.temps)
    else
      let x : F := floatOfWord tempUint16_1
      let y : F := floatOfWord tempUint16_2
      some (store { ph with
        magnitude := FloatArith.narrow
          (FloatArith.mulD F (magnitudeOf x y) (FloatArith.widen ph.conversionFactor))
        angle := angleOf x y } bufPos s.temps)

def parseFrequency (buffer : Memory) (s : PmuState F) : Option (PmuState F) := do
  if s.pmu.freqIsFloatingPoint then
    let (tempFloat_1, bufPos) ← decodeFloatingPointValue buffer s.bufPos
    some ⟨s.pmu.setFrequency tempFloat_1, bufPos, { s.temps with tempFloat_1 }⟩
  else
    let (tempUint16_1, bufPos) ← twoByteToUint16 buffer s.bufPos
    let x : F := floatOfWord tempUint16_1
    some ⟨s.pmu.setFrequency (FloatArith.narrow (FloatArith.addD F (FloatArith.widen s.pmu.fNom)
      (FloatArith.mulD F (FloatArith.widen x) (FloatArith.const F (1 / 1000))))), bufPos, s.temps⟩

/-- The second of the two frequency tests. Its integer branch assigns `frequency`
    again, and `rocof` nowhere. -/
def parseRocof (buffer : Memory) (s : PmuState F) : Option (PmuState F) := do
  if s.pmu.freqIsFloatingPoint then
    let (tempFloat_1, bufPos) ← decodeFloatingPointValue buffer s.bufPos
    some ⟨s.pmu.setRocof (FloatArith.narrow (FloatArith.mulD F (FloatArith.widen tempFloat_1)
      (FloatArith.const F (1 / 100)))), bufPos, { s.temps with tempFloat_1 }⟩
  else
    let (tempUint16_1, bufPos) ← twoByteToUint16 buffer s.bufPos
    let x : F := floatOfWord tempUint16_1
    some ⟨s.pmu.setFrequency (FloatArith.narrow (FloatArith.mulD F (FloatArith.widen x)
      (FloatArith.const F (1 / 100)))), bufPos, s.temps⟩

def parseAnalog (buffer : Memory) (j : ℕ) (s : PmuState F) : Option (PmuState F) := do
  let an ← s.pmu.analog[j]?
  let store (value : F) (bufPos : ℕ) (temps : Temps F) : PmuState F :=
    ⟨s.pmu.setAnalog (s.pmu.analog.set j { an with value }), bufPos, temps⟩
  if s.pmu.analogIsFloatingPoint then
    let (tempFloat_1, bufPos) ← decodeFloatingPointValue buffer s.bufPos
    some (store tempFloat_1 bufPos { s.temps with tempFloat_1 })
  else
    let (tempUint16_1, bufPos) ← twoByteToUint16 buffer s.bufPos
    some (store (FloatArith.mul (floatOfWord tempUint16_1) an.conversionFactor) bufPos s.temps)

def Digital.storeWord (dg : Digital) (word : UInt16) : Digital :=
  { dg with
    digitalWord := word
    channel := (markBits (fun ch => { ch with status := true }) dg.channel word 16).1 }

def parseDigital (buffer : Memory) (j : ℕ) (s : PmuState F) : Option (PmuState F) := do
  let dg ← s.pmu.digital[j]?
  let (tempUint16_1, bufPos) ← twoByteToUint16 buffer s.bufPos
  some ⟨s.pmu.setDigital (s.pmu.digital.set j (dg.storeWord tempUint16_1)), bufPos, s.temps⟩

def parsePmuBlock (buffer : Memory) (s : PmuState F) : Option (PmuState F) := do
  let (pmu, bufPos) ← parseSTATWord s.pmu buffer s.bufPos
  let s : PmuState F := ⟨pmu, bufPos, s.temps⟩
  let s ← forLoop (parsePhasor buffer) s.pmu.numberOfPhasors.toNat s
  let s ← parseFrequency buffer s
  let s ← parseRocof buffer s
  let s ← forLoop (parseAnalog buffer) s.pmu.numberOfAnalogs.toNat s
  forLoop (parseDigital buffer) s.pmu.numberOfDigitals.toNat s

structure DataState (F : Type) where
  configuration : List (Configuration F)
  bufPos : ℕ
  temps : Temps F

def parsePmu (buffer : Memory) (i : ℕ) (s : DataState F) : Option (DataState F) := do
  let pmu ← s.configuration[i]?
  let r ← parsePmuBlock buffer ⟨pmu, s.bufPos, s.temps⟩
  some ⟨s.configuration.set i r.pmu, r.bufPos, r.temps⟩

def parseDataFrame (temps : Temps F) (self : Client F) (buffer : Memory) (bufferSize : ℤ) :
    Option (ℤ × Client F) := do
  match ← checkFrame 0x01 self buffer bufferSize with
  | none => some (-1, self)
  | some header =>
    let (dataTimeStamp, bufPos) ←
      parseTimeStamp self.dataTimeStamp self.timeBase buffer header.bufPos
    let self := { self with dataTimeStamp }
    let s ← forLoop (parsePmu buffer) self.numPmu.toNat ⟨self.configuration, bufPos, temps⟩
    some (0, { self with configuration := s.configuration })

end Khorjin
