import Mathlib.Tactic.IntervalCases
import Khorjin.DataHistory

set_option autoImplicit false

/-!
# The time quality in every reachable state

`parseTimeStamp` writes into one of two time records, and not every code of the time
quality writes every member. What a member tells comes from the last code that did.
-/
namespace Khorjin
open ByteMemory LoopRules RunRules
variable {F D : Type} [Platform F D]

def lockWritten (timeQualityRcvd : UInt8) : Option Bool :=
  if (timeQualityRcvd &&& 0xF).toNat = 0xF then some false
  else if (timeQualityRcvd &&& 0xF).toNat = 0 then some true
  else none

def errorWritten (timeQualityRcvd : UInt8) : Option F :=
  let code := (timeQualityRcvd &&& 0xF).toNat
  if code = 0 then some (FloatArith.ofInt 0)
  else if code ≤ 0x9 then some (FloatArith.narrow (FloatArith.const F (1 / 10 ^ (0xA - code))))
  else if code = 0xA then some (FloatArith.ofInt 1)
  else if code = 0xB then some (FloatArith.ofInt 10)
  else none

theorem parseTimeQuality_timeIsLocked (q : TimeQuality F) (x : UInt8) :
    (parseTimeQuality q x).timeIsLocked = (lockWritten x).getD q.timeIsLocked := by
  have written := setTimeError_timeIsLocked q (x &&& 0xF)
  rw [lockWritten]
  split_ifs at written ⊢ <;> exact written

theorem setTimeError_timeError (q : TimeQuality F) (x : UInt8) :
    (setTimeError q (x &&& 0xF)).timeError = (errorWritten x).getD q.timeError := by
  have lt : (x &&& 0xF).toNat < 16 := by
    rw [UInt8.toNat_and]
    exact Nat.and_lt_two_pow (n := 4) _ (by decide)
  unfold setTimeError errorWritten
  generalize (x &&& 0xF).toNat = code at lt
  interval_cases code <;> simp

theorem parseTimeQuality_timeError (q : TimeQuality F) (x : UInt8) :
    (parseTimeQuality q x).timeError = (errorWritten x).getD q.timeError :=
  setTimeError_timeError q x

theorem lowBit_byte_iff (v : UInt8) : v &&& 1 = 1 ↔ v.toNat.testBit 0 = true := by
  rw [← UInt8.toNat_inj, UInt8.toNat_and]
  change v.toNat &&& 1 = 1 ↔ _
  rw [Nat.and_one_is_mod, Nat.testBit_zero]
  simp

theorem parseTimeQuality_leapSecond (q : TimeQuality F) (x : UInt8) :
    (parseTimeQuality q x).leapSecondPending = x.toNat.testBit 4 ∧
      (parseTimeQuality q x).leapSecondOccured = x.toNat.testBit 5 ∧
      (parseTimeQuality q x).leapSecondDirection = if x.toNat.testBit 6 then -1 else 1 := by
  have bit : ∀ {v : UInt8} {k : ℕ}, v.toNat = x.toNat >>> k →
      (v &&& 0x1 = 0x1 ↔ x.toNat.testBit k = true) := by
    intro v k h
    rw [lowBit_byte_iff, h, Nat.testBit_shiftRight, Nat.add_zero]
  have h4 : (x >>> 4).toNat = x.toNat >>> 4 := by simp [UInt8.toNat_shiftRight]
  have h5 : (x >>> 4 >>> 1).toNat = x.toNat >>> 5 := by
    simp [UInt8.toNat_shiftRight, ← Nat.shiftRight_add]
  have h6 : (x >>> 4 >>> 1 >>> 1).toNat = x.toNat >>> 6 := by
    simp [UInt8.toNat_shiftRight, ← Nat.shiftRight_add]
  refine ⟨?_, ?_, if_congr (bit h6) rfl rfl⟩
  · exact Bool.eq_iff_iff.2 (beq_iff_eq.trans (bit h4))
  · exact Bool.eq_iff_iff.2 (beq_iff_eq.trans (bit h5))

/-- What a time record says of the clock when these bytes have been parsed into it. -/
structure QualityFrom (bytes : List UInt8) (q : TimeQuality F) : Prop where
  timeIsLocked : q.timeIsLocked = (bytes.reverse.findSome? lockWritten).getD false
  timeError : q.timeError = (bytes.reverse.findSome? errorWritten).getD zeroFloat
  leapSecondPending : q.leapSecondPending =
    (bytes.getLast?.map (fun x => x.toNat.testBit 4)).getD false
  leapSecondOccured : q.leapSecondOccured =
    (bytes.getLast?.map (fun x => x.toNat.testBit 5)).getD false
  leapSecondDirection : q.leapSecondDirection =
    (bytes.getLast?.map (fun x => if x.toNat.testBit 6 then -1 else 1)).getD 0

theorem parseTimeQuality_all (bytes : List UInt8) :
    QualityFrom bytes (bytes.foldl parseTimeQuality (Time.zero : Time F).quality) := by
  constructor
  case timeIsLocked =>
    exact foldl_last_write TimeQuality.timeIsLocked lockWritten parseTimeQuality_timeIsLocked _ _
  case timeError =>
    exact foldl_last_write TimeQuality.timeError errorWritten parseTimeQuality_timeError _ _
  case leapSecondPending =>
    exact foldl_last_event TimeQuality.leapSecondPending _
      (fun q x => (parseTimeQuality_leapSecond q x).1) _ _
  case leapSecondOccured =>
    exact foldl_last_event TimeQuality.leapSecondOccured _
      (fun q x => (parseTimeQuality_leapSecond q x).2.1) _ _
  case leapSecondDirection =>
    exact foldl_last_event TimeQuality.leapSecondDirection _
      (fun q x => (parseTimeQuality_leapSecond q x).2.2) _ _

/-- The time-quality bytes of the accepted data frames, or of the configuration frames. -/
def qualityBytes (data : Bool) (accepted : List (Event F)) : List UInt8 :=
  (accepted.filter (fun e => e.isDataFrame == data)).map (fun e => e.received.buffer.byte 10)

theorem foldl_store_quality (accepted : List (Event F)) (self : Client F) :
    (accepted.foldl Event.store self).dataTimeStamp.quality =
        (qualityBytes true accepted).foldl parseTimeQuality self.dataTimeStamp.quality ∧
      (accepted.foldl Event.store self).configTimeStamp.quality =
        (qualityBytes false accepted).foldl parseTimeQuality self.configTimeStamp.quality := by
  induction accepted generalizing self with
  | nil => exact ⟨rfl, rfl⟩
  | cons e accepted ih =>
    obtain ⟨data, config⟩ := ih (e.store self)
    rw [List.foldl_cons, data, config]
    cases e <;> exact ⟨rfl, rfl⟩

/-- What the two time records say of the PMU's clock in every state that a fresh client can
    reach. Each goes by the accepted frames of its own kind. A lock that was reported stays
    reported until a code says otherwise, and most codes leave it alone. -/
theorem reachable_clock {pmuIdCode : ℤ} {timeoutInMs : UInt32} {bufferSnd bufferRcv : List UInt8}
    {events : List (Event F)} {returned : List ℤ} {final : Client F}
    (h : run handle (Client.fresh pmuIdCode timeoutInMs bufferSnd bufferRcv) events =
      some (returned, final)) :
    QualityFrom (qualityBytes true (acceptedOf events returned)) final.dataTimeStamp.quality ∧
      QualityFrom (qualityBytes false (acceptedOf events returned))
        final.configTimeStamp.quality := by
  obtain ⟨data, config⟩ := foldl_store_quality (acceptedOf events returned)
    (Client.fresh pmuIdCode timeoutInMs bufferSnd bufferRcv)
  rw [← run_stores h] at data config
  rw [data, config]
  exact ⟨parseTimeQuality_all _, parseTimeQuality_all _⟩

section
attribute [local instance] ExactRational.platform

def qualityFrame (timeQualityRcvd : UInt8) : List UInt8 :=
  appendChk ([0xAA, 0x01, 0, 22, 0, 7, 0, 0, 0, 1, timeQualityRcvd, 0, 0, 0] ++
    [0, 0, 0, 0, 0, 0])

def clockEvents : List (Event ℚ) :=
  [.configurationFrame (.ofBytes plainConfiguration plainConfiguration_two_le
      plainConfiguration_fits),
    .dataFrame (.ofBytes (qualityFrame 0x00) (by decide) (by decide)) ⟨0, 0⟩,
    .dataFrame (.ofBytes (qualityFrame 0x5C) (by decide) (by decide)) ⟨0, 0⟩]

theorem lock_outlasts_unassigned_code :
    ∃ final, run handle (Client.fresh 7 0 [] []) clockEvents = some ([0, 0, 0], final) ∧
      final.dataTimeStamp.quality.timeIsLocked = true ∧
      final.dataTimeStamp.quality.leapSecondPending = true ∧
      final.dataTimeStamp.quality.leapSecondDirection = -1 := by
  have handled : (run handle (Client.fresh 7 0 [] []) clockEvents).map Prod.fst =
      some [0, 0, 0] := by
    decide +kernel
  obtain ⟨⟨_, final⟩, h, rfl⟩ := Option.map_eq_some_iff.1 handled
  have bytes : qualityBytes true (acceptedOf clockEvents [0, 0, 0]) = [0x00, 0x5C] := by
    decide +kernel
  obtain ⟨quality, _⟩ := reachable_clock h
  rw [bytes] at quality
  exact ⟨final, h, quality.timeIsLocked.trans (by decide),
    quality.leapSecondPending.trans (by decide), quality.leapSecondDirection.trans (by decide)⟩

end
end Khorjin
