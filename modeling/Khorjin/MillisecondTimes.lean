import Mathlib.Data.Rat.Floor
import Khorjin.ClientRuns
import Khorjin.ConfigurationEncoding

set_option autoImplicit false

/-!
# Time stamps in milliseconds

Seconds and a fraction counted in units of a time base, rounded down to milliseconds.
-/
namespace Khorjin
open ByteMemory LoopRules

/-- A number that is sent with its most significant byte first. -/
def bigEndian (bytes : List UInt8) : ℕ := bytes.foldl (fun v byte => 256 * v + byte.toNat) 0

def sentSoc (m : ℕ → UInt8) : ℕ := bigEndian [m 6, m 7, m 8, m 9]
def sentFracsec (m : ℕ → UInt8) : ℕ := bigEndian [m 11, m 12, m 13]
def sentTimeBase (m : ℕ → UInt8) : ℕ := bigEndian [m 14, m 15, m 16, m 17]

theorem word32_bigEndian (m : ℕ → UInt8) (p : ℕ) :
    (word32 m p).toNat = bigEndian [m p, m (p + 1), m (p + 2), m (p + 3)] := by
  simp only [word32_toNat, bigEndian, List.foldl_cons, List.foldl_nil]
  omega

theorem word24_bigEndian (m : ℕ → UInt8) (p : ℕ) :
    (word24 m p).toNat = bigEndian [m p, m (p + 1), m (p + 2)] := by
  simp only [word24_toNat, bigEndian, List.foldl_cons, List.foldl_nil]
  omega

/-- The time that is meant, as a number of whole milliseconds. -/
def exactTimeInMs (soc fracsec timeBase : ℕ) : ℤ := ⌊(1000 : ℚ) * (soc + fracsec / timeBase)⌋

theorem exactTimeInMs_eq (soc fracsec timeBase : ℕ) :
    exactTimeInMs soc fracsec timeBase = ((1000 * soc + 1000 * fracsec / timeBase : ℕ) : ℤ) := by
  have split : (1000 : ℚ) * (soc + fracsec / timeBase) =
      ((1000 * fracsec : ℕ) / (timeBase : ℕ) : ℚ) + ((1000 * soc : ℕ) : ℚ) := by
    push_cast
    ring
  rw [exactTimeInMs, split, Int.floor_add_natCast, Rat.floor_natCast_div_natCast]
  push_cast
  ring

structure NoWrap (soc fracsec timeBase : UInt32) : Prop where
  seconds : (Int64.ofNat soc.toNat * 1000).toInt = soc.toNat * 1000
  fraction : (Int64.ofNat fracsec.toNat * 1000).toInt = fracsec.toNat * 1000
  quotient : (Int64.ofNat fracsec.toNat * 1000 / Int64.ofNat timeBase.toNat).toInt =
    fracsec.toNat * 1000 / timeBase.toNat
  sum : (Int64.ofNat soc.toNat * 1000 +
    Int64.ofNat fracsec.toNat * 1000 / Int64.ofNat timeBase.toNat).toInt =
      soc.toNat * 1000 + fracsec.toNat * 1000 / timeBase.toNat
  stored : ((timeInMs soc fracsec timeBase).toNat : ℤ) =
    soc.toNat * 1000 + fracsec.toNat * 1000 / timeBase.toNat

theorem timeInMs_noWrap (soc fracsec timeBase : UInt32) : NoWrap soc fracsec timeBase := by
  have hsoc := soc.toNat_lt
  have hfrac := fracsec.toNat_lt
  have hbase := timeBase.toNat_lt
  have thousand : (1000 : Int64) = Int64.ofNat 1000 := rfl
  have small : fracsec.toNat * 1000 / timeBase.toNat ≤ fracsec.toNat * 1000 := Nat.div_le_self _ _
  have quotient : Int64.ofNat fracsec.toNat * 1000 / Int64.ofNat timeBase.toNat =
      Int64.ofNat (fracsec.toNat * 1000 / timeBase.toNat) := by
    rw [thousand, ← Int64.ofNat_mul, Int64.ofNat_div (by omega) (by omega)]
  have sum : Int64.ofNat soc.toNat * 1000 +
      Int64.ofNat fracsec.toNat * 1000 / Int64.ofNat timeBase.toNat =
        Int64.ofNat (soc.toNat * 1000 + fracsec.toNat * 1000 / timeBase.toNat) := by
    rw [quotient, thousand, ← Int64.ofNat_mul, ← Int64.ofNat_add]
  constructor
  case seconds =>
    rw [thousand, ← Int64.ofNat_mul, Int64.toInt_ofNat_of_lt (by omega)]
    rfl
  case fraction =>
    rw [thousand, ← Int64.ofNat_mul, Int64.toInt_ofNat_of_lt (by omega)]
    rfl
  case quotient =>
    rw [quotient, Int64.toInt_ofNat_of_lt (by omega)]
    rfl
  case sum =>
    rw [sum, Int64.toInt_ofNat_of_lt (by omega)]
    rfl
  case stored =>
    rw [timeInMs, sum, Int64.toUInt64_ofNat', UInt64.toNat_ofNat', Nat.mod_eq_of_lt (by omega)]
    rfl

theorem timeInMs_exact (soc fracsec timeBase : UInt32) :
    ((timeInMs soc fracsec timeBase).toNat : ℤ) =
      exactTimeInMs soc.toNat fracsec.toNat timeBase.toNat := by
  rw [(timeInMs_noWrap soc fracsec timeBase).stored, exactTimeInMs_eq]
  push_cast
  rw [mul_comm, mul_comm (fracsec.toNat : ℤ)]

theorem exactTimeInMs_mono {soc fracsec soc' fracsec' timeBase : ℕ}
    (h : (soc : ℚ) + fracsec / timeBase ≤ soc' + fracsec' / timeBase) :
    exactTimeInMs soc fracsec timeBase ≤ exactTimeInMs soc' fracsec' timeBase := by
  apply Int.floor_le_floor
  exact mul_le_mul_of_nonneg_left h (by norm_num)

section
variable {F D : Type} [Platform F D]

theorem timeAt_timeInMs (t : Time F) {timeBase : UInt32} (nonzero : timeBase ≠ 0)
    (m : ℕ → UInt8) (p : ℕ) : (timeAt t timeBase m p).timeValueInMs =
      timeInMs (word32 m p) (word24 m (p + 5)) timeBase := by
  simp only [timeAt, setFraction, if_pos nonzero]

theorem data_time_exact {t : Temps F} {self self' : Client F} {b : Memory} {bufferSize : ℤ}
    (nonzero : self.timeBase ≠ 0) (run : parseDataFrame t self b bufferSize = some (0, self')) :
    NoWrap (word32 b.byte 6) (word24 b.byte 11) self.timeBase ∧
      (self'.dataTimeStamp.timeValueInMs.toNat : ℤ) =
        exactTimeInMs (sentSoc b.byte) (sentFracsec b.byte) self.timeBase.toNat := by
  obtain ⟨_, _, _, _, _, _, rfl⟩ := parseDataFrame_accepted run
  refine ⟨timeInMs_noWrap _ _ _, ?_⟩
  have stored : (self.storeData t b.byte).dataTimeStamp.timeValueInMs =
      timeInMs (word32 b.byte 6) (word24 b.byte 11) self.timeBase :=
    timeAt_timeInMs self.dataTimeStamp nonzero b.byte 6
  rw [stored, timeInMs_exact, word32_bigEndian, word24_bigEndian]
  rfl

/-- The time stamps of data frames are exact, whatever else the frames hold, and those of
    any two frames accepted with one time base are ordered like the times that are meant. -/
theorem data_times_exact_and_ordered {self : Client F} (nonzero : self.timeBase ≠ 0) :
    (∀ (t : Temps F) (s : Client F) (b : Memory) (bufferSize : ℤ),
      parseDataFrame t self b bufferSize = some (0, s) →
        NoWrap (word32 b.byte 6) (word24 b.byte 11) self.timeBase ∧
          (word32 b.byte 6).toNat = sentSoc b.byte ∧
          (word24 b.byte 11).toNat = sentFracsec b.byte ∧
          (s.dataTimeStamp.timeValueInMs.toNat : ℤ) =
            exactTimeInMs (sentSoc b.byte) (sentFracsec b.byte) self.timeBase.toNat) ∧
      ∀ (self' : Client F), self'.timeBase = self.timeBase →
        ∀ (t t' : Temps F) (s s' : Client F) (b b' : Memory) (bufferSize bufferSize' : ℤ),
          parseDataFrame t self b bufferSize = some (0, s) →
          parseDataFrame t' self' b' bufferSize' = some (0, s') →
          (sentSoc b.byte : ℚ) + sentFracsec b.byte / self.timeBase.toNat ≤
            sentSoc b'.byte + sentFracsec b'.byte / self.timeBase.toNat →
          s.dataTimeStamp.timeValueInMs ≤ s'.dataTimeStamp.timeValueInMs := by
  constructor
  · intro t s b bufferSize run
    obtain ⟨noWrap, exactly⟩ := data_time_exact nonzero run
    exact ⟨noWrap, word32_bigEndian _ _, word24_bigEndian _ _, exactly⟩
  · intro self' same t t' s s' b b' bufferSize bufferSize' run run' earlier
    have first := (data_time_exact nonzero run).2
    have second := (data_time_exact (same ▸ nonzero) run').2
    have ordered := exactTimeInMs_mono earlier
    rw [same] at second
    rw [UInt64.le_iff_toNat_le]
    omega

end

section
attribute [local instance] ExactRational.platform

def thirdsClient : Client ℚ := { Client.fresh 7 0 [] [] with timeBase := 3 }

def lastSecond (quality thirds : UInt8) : Memory :=
  Memory.zeroFilled BUFER_LENGTH (appendChk
    [0xAA, 0x01, 0, 16, 0, 7, 0xFF, 0xFF, 0xFF, 0xFF, quality, 0, 0, thirds])

theorem last_seconds_exact_and_ordered :
    ∃ s s', parseDataFrame ⟨0, 0⟩ thirdsClient (lastSecond 0 1) (16 : ℕ) = some (0, s) ∧
      parseDataFrame ⟨0, 0⟩ thirdsClient (lastSecond 0x2F 2) (16 : ℕ) = some (0, s') ∧
      (s.dataTimeStamp.timeValueInMs.toNat : ℤ) = 4294967295333 ∧
      s.dataTimeStamp.timeValueInMs ≤ s'.dataTimeStamp.timeValueInMs := by
  have exactly : thirdsClient.ArraysMatch := by decide
  have run : parseDataFrame ⟨0, 0⟩ thirdsClient (lastSecond 0 1) (16 : ℕ) =
      some (0, thirdsClient.storeData ⟨0, 0⟩ (lastSecond 0 1).byte) :=
    parseDataFrame_zeroFilled _ exactly (by decide) (by decide) (by decide) (by decide +kernel)
  have run' : parseDataFrame ⟨0, 0⟩ thirdsClient (lastSecond 0x2F 2) (16 : ℕ) =
      some (0, thirdsClient.storeData ⟨0, 0⟩ (lastSecond 0x2F 2).byte) :=
    parseDataFrame_zeroFilled _ exactly (by decide) (by decide) (by decide) (by decide +kernel)
  have soc : sentSoc (lastSecond 0 1).byte = 4294967295 := by decide +kernel
  have fracsec : sentFracsec (lastSecond 0 1).byte = 1 := by decide +kernel
  have soc' : sentSoc (lastSecond 0x2F 2).byte = 4294967295 := by decide +kernel
  have fracsec' : sentFracsec (lastSecond 0x2F 2).byte = 2 := by decide +kernel
  have base : thirdsClient.timeBase.toNat = 3 := rfl
  obtain ⟨exact, ordered⟩ := @data_times_exact_and_ordered _ _ _ thirdsClient (by decide)
  have value := (exact _ _ _ _ run).2.2.2
  rw [soc, fracsec, base, exactTimeInMs_eq] at value
  refine ⟨_, _, run, run', value, ordered thirdsClient rfl _ _ _ _ _ _ _ _ run run' ?_⟩
  rw [soc, fracsec, soc', fracsec', base]
  norm_num

end

/-- The fraction, counted in units of the time base, is the number of milliseconds. -/
def CountsMilliseconds (fracsec timeBase : ℕ) : Prop :=
  (fracsec = 0 ∨ timeBase ≤ 1000) ∧ fracsec * (1000 - timeBase) < timeBase

instance (fracsec timeBase : ℕ) : Decidable (CountsMilliseconds fracsec timeBase) :=
  inferInstanceAs (Decidable (_ ∧ _))

theorem countsMilliseconds_iff {timeBase : ℕ} (nonzero : timeBase ≠ 0) (fracsec : ℕ) :
    1000 * fracsec / timeBase = fracsec ↔ CountsMilliseconds fracsec timeBase := by
  have pos : 0 < timeBase := Nat.pos_of_ne_zero nonzero
  have bounds : 1000 * fracsec / timeBase = fracsec ↔
      fracsec * timeBase ≤ 1000 * fracsec ∧ 1000 * fracsec < (fracsec + 1) * timeBase := by
    rw [← Nat.div_lt_iff_lt_mul pos, ← Nat.le_div_iff_mul_le pos]
    omega
  rw [bounds, CountsMilliseconds]
  rcases Nat.eq_zero_or_pos fracsec with rfl | some
  · simp [pos]
  · have lower : fracsec * timeBase ≤ 1000 * fracsec ↔ timeBase ≤ 1000 := by
      rw [Nat.mul_comm 1000, Nat.mul_le_mul_left_iff some]
    rw [lower, or_iff_right (Nat.ne_of_gt some)]
    refine and_congr_right (fun le => ?_)
    have rest : fracsec * (1000 - timeBase) + fracsec * timeBase = 1000 * fracsec := by
      rw [← Nat.mul_add, Nat.sub_add_cancel le, Nat.mul_comm]
    rw [Nat.add_mul, Nat.one_mul]
    omega

section
variable {F D : Type} [Platform F D]

theorem configuration_time_iff {self self' : Client F} {b : Memory} {bufferSize : ℤ}
    (run : parseConfigurationFrame self b bufferSize = some (0, self'))
    (nonzero : sentTimeBase b.byte ≠ 0) :
    (self'.configTimeStamp.timeValueInMs.toNat : ℤ) =
        exactTimeInMs (sentSoc b.byte) (sentFracsec b.byte) (sentTimeBase b.byte) ↔
      CountsMilliseconds (sentFracsec b.byte) (sentTimeBase b.byte) := by
  obtain ⟨n, _, _, rfl⟩ := parseConfigurationFrame_accepted run
  have thousand : (1000 : UInt32) ≠ 0 := by decide
  have stored : (self.storeConfiguration b.byte n).configTimeStamp.timeValueInMs =
      timeInMs (word32 b.byte 6) (word24 b.byte 11) 1000 :=
    timeAt_timeInMs self.configTimeStamp thousand b.byte 6
  have value : (1000 : UInt32).toNat = 1000 := rfl
  have soc : (word32 b.byte 6).toNat = sentSoc b.byte := word32_bigEndian _ _
  have fracsec : (word24 b.byte 11).toNat = sentFracsec b.byte := word24_bigEndian _ _
  rw [stored, timeInMs_exact, exactTimeInMs_eq, exactTimeInMs_eq, value, soc, fracsec,
    ← countsMilliseconds_iff nonzero, Nat.mul_div_cancel_left _ (by decide : 0 < 1000)]
  omega

end

section
attribute [local instance] ExactRational.platform

def halfSecond (fracsec timeBase : List UInt8) : List UInt8 :=
  appendChk ([0xAA, 0x31, 0, 54, 0, 7, 0, 0, 0, 1, 0] ++ fracsec ++ timeBase ++ [0, 1] ++
    [80, 77, 85, 0, 0, 0, 0, 0, 0, 0, 0, 0, 0, 0, 0, 0, 0, 7, 0, 0, 0, 0, 0, 0, 0, 0, 0, 1, 0, 1] ++
    [0, 50])

/-- 500000 microseconds become 500000 milliseconds. -/
theorem microseconds_become_milliseconds :
    ∃ s, parseConfigurationFrame (Client.fresh 7 0 [] [] : Client ℚ) (Memory.zeroFilled BUFER_LENGTH
        (halfSecond [0x07, 0xA1, 0x20] [0, 0x0F, 0x42, 0x40])) (54 : ℕ) = some (0, s) ∧
      s.timeBase = 1000000 ∧ s.configTimeStamp.timeValueInMs = 501000 ∧
      exactTimeInMs 1 500000 1000000 = 1500 := by
  refine ⟨(Client.fresh 7 0 [] []).storeConfiguration (Memory.zeroFilled BUFER_LENGTH
    (halfSecond [0x07, 0xA1, 0x20] [0, 0x0F, 0x42, 0x40])).byte 54, by decide +kernel,
    by decide +kernel, by decide +kernel, ?_⟩
  rw [exactTimeInMs_eq]
  rfl

theorem milliseconds_stay_milliseconds :
    let frame := Memory.zeroFilled BUFER_LENGTH (halfSecond [0, 0x01, 0xF4] [0, 0, 0x03, 0xE8])
    ∃ s, parseConfigurationFrame (Client.fresh 7 0 [] [] : Client ℚ) frame (54 : ℕ) = some (0, s) ∧
      (s.configTimeStamp.timeValueInMs.toNat : ℤ) =
        exactTimeInMs (sentSoc frame.byte) (sentFracsec frame.byte) (sentTimeBase frame.byte) := by
  intro frame
  have run : parseConfigurationFrame (Client.fresh 7 0 [] [] : Client ℚ) frame (54 : ℕ) =
      some (0, (Client.fresh 7 0 [] []).storeConfiguration frame.byte 54) := by
    decide +kernel
  exact ⟨_, run, (configuration_time_iff run (by decide +kernel)).2 (by decide +kernel)⟩

end
end Khorjin
