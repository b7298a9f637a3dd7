import Khorjin.WordDecoders

set_option autoImplicit false

namespace Khorjin
open ByteMemory
variable {F D : Type} [Platform F D]

def convertEpochToCalendar (timeValue : UInt32) : ParsedTime F :=
  let tm := Platform.localtime F timeValue
  { year := tm.tm_year + 1900
    month := tm.tm_mon + 1
    day := tm.tm_mday
    hour := tm.tm_hour
    minute := tm.tm_min
    second := tm.tm_sec
    secPlusFraction := zeroFloat }

def setTimeError (quality : TimeQuality F) (timeErrortemp : UInt8) : TimeQuality F :=
  match timeErrortemp.toNat with
  | 0xF => { quality with timeIsLocked := false }
  | 0xB => { quality with timeError := FloatArith.ofInt 10 }
  | 0xA => { quality with timeError := FloatArith.ofInt 1 }
  | 0x9 => { quality with timeError := FloatArith.narrow (FloatArith.const F (1 / 10)) }
  | 0x8 => { quality with timeError := FloatArith.narrow (FloatArith.const F (1 / 10 ^ 2)) }
  | 0x7 => { quality with timeError := FloatArith.narrow (FloatArith.const F (1 / 10 ^ 3)) }
  | 0x6 => { quality with timeError := FloatArith.narrow (FloatArith.const F (1 / 10 ^ 4)) }
  | 0x5 => { quality with timeError := FloatArith.narrow (FloatArith.const F (1 / 10 ^ 5)) }
  | 0x4 => { quality with timeError := FloatArith.narrow (FloatArith.const F (1 / 10 ^ 6)) }
  | 0x3 => { quality with timeError := FloatArith.narrow (FloatArith.const F (1 / 10 ^ 7)) }
  | 0x2 => { quality with timeError := FloatArith.narrow (FloatArith.const F (1 / 10 ^ 8)) }
  | 0x1 => { quality with timeError := FloatArith.narrow (FloatArith.const F (1 / 10 ^ 9)) }
  | 0x0 => { quality with timeError := FloatArith.ofInt 0, timeIsLocked := true }
  | _ => quality

def parseTimeQuality (quality : TimeQuality F) (timeQualityRcvd : UInt8) : TimeQuality F :=
  let quality := setTimeError quality (timeQualityRcvd &&& 0xF)
  let timeQualityRcvd := timeQualityRcvd >>> 4
  let quality := { quality with leapSecondPending := timeQualityRcvd &&& 0x1 == 0x1 }
  let timeQualityRcvd := timeQualityRcvd >>> 1
  let quality := { quality with leapSecondOccured := timeQualityRcvd &&& 0x1 == 0x1 }
  let timeQualityRcvd := timeQualityRcvd >>> 1
  { quality with leapSecondDirection := if timeQualityRcvd &&& 0x1 = 0x1 then -1 else 1 }

/-- Seconds and their fraction in milliseconds, computed in `long long`. -/
def timeInMs (soc fracsec timeBase : UInt32) : UInt64 :=
  (Int64.ofNat soc.toNat * 1000 +
    Int64.ofNat fracsec.toNat * 1000 / Int64.ofNat timeBase.toNat).toUInt64

def setFraction (timeStamp : Time F) (soc fracsec timeBase : UInt32) : Time F :=
  if timeBase ≠ 0 then
    { timeStamp with
      timeValueInMs := timeInMs soc fracsec timeBase
      fractionOfSecond :=
        FloatArith.div (FloatArith.ofInt fracsec.toNat) (FloatArith.ofInt timeBase.toNat) }
  else timeStamp

def parseTimeStamp (timeStamp : Time F) (timeBase : UInt32) (buffer : Memory) (bufPos : ℕ) :
    Option (Time F × ℕ) := do
  let (socTemp, bufPos) ← fourByteToUint32 buffer bufPos
  let parsedTime : ParsedTime F := convertEpochToCalendar socTemp
  let timeStamp := { timeStamp with secondOfCenctury := socTemp, parsedTime := some parsedTime }
  let timeQualityRcvd ← buffer.read bufPos
  let bufPos := bufPos + 1
  let timeStamp := { timeStamp with quality := parseTimeQuality timeStamp.quality timeQualityRcvd }
  let (fracsecRcvd, bufPos) ← threeByteToUint32 buffer bufPos
  let timeStamp := setFraction timeStamp socTemp fracsecRcvd timeBase
  let secPlusFraction :=
    FloatArith.add (FloatArith.ofInt parsedTime.second) timeStamp.fractionOfSecond
  some ({ timeStamp with parsedTime := some { parsedTime with secPlusFraction } }, bufPos)

def timeAt (timeStamp : Time F) (timeBase : UInt32) (m : ℕ → UInt8) (p : ℕ) : Time F :=
  let parsedTime : ParsedTime F := convertEpochToCalendar (word32 m p)
  let fraction := setFraction timeStamp (word32 m p) (word24 m (p + 5)) timeBase
  { parsedTime := some { parsedTime with
      secPlusFraction :=
        FloatArith.add (FloatArith.ofInt parsedTime.second) fraction.fractionOfSecond }
    timeValueInMs := fraction.timeValueInMs
    secondOfCenctury := word32 m p
    fractionOfSecond := fraction.fractionOfSecond
    quality := parseTimeQuality timeStamp.quality (m (p + 4)) }

theorem parseTimeStamp_iff (t : Time F) (timeBase : UInt32) (b : Memory) (p : ℕ)
    (r : Time F × ℕ) : parseTimeStamp t timeBase b p = some r ↔
      b.Defined p (p + 8) ∧ (timeAt t timeBase b.byte p, p + 8) = r := by
  have range : b.Defined p (p + 8) ↔
      b.Defined p (p + 4) ∧ b.Defined (p + 4) (p + 4 + 1) ∧ b.Defined (p + 5) (p + 5 + 3) := by
    rw [Memory.defined_append (p := p + 4) (q := p + 5) (by omega) (by omega),
      Memory.defined_append (by omega) (by omega)]
  simp only [range, parseTimeStamp, Option.bind_eq_bind, fourByteToUint32_bind, Memory.read_bind,
    threeByteToUint32_bind, Option.some.injEq, and_assoc]
  refine and_congr Iff.rfl (and_congr Iff.rfl (and_congr Iff.rfl ?_))
  unfold timeAt setFraction
  split_ifs <;> rfl

end Khorjin
