import Khorjin.PrintedLines
import Khorjin.StatusHistory

set_option autoImplicit false

/-!
# The texts of the status

`printDataStream` prints most of the status as texts, each chosen by a `switch` over a
field that `parseSTATWord` has masked.
-/
namespace Khorjin
open ByteMemory LoopRules RunRules
variable {F D : Type} [Platform F D]

def dataErrorText (dataError : UInt8) : Option String :=
  match dataError.toNat with
  | 0 => some "GOOD MEASUREMENT DATA, NO ERRORS"
  | 1 => some "PMU ERROR. NO INFORMATION ABOUT DATA"
  | 2 => some "PMU IN TEST MODE OR ABSENT DATA TAGS HAVE BEEN INSERTED (DO NOT USE VALUES)"
  | 3 => some "PMU ERROR. (DO NOT USE VALUES)"
  | _ => none

def pmuTimeQualityText (pmuTimeQuality : UInt8) : Option String :=
  match pmuTimeQuality.toNat with
  | 0 => some "NOT USED"
  | 1 => some "ESTIMATED MAXIMUM TIME ERROR < 100 ns"
  | 2 => some "ESTIMATED MAXIMUM TIME ERROR < 1 micro SECOND"
  | 3 => some "ESTIMATED MAXIMUM TIME ERROR < 10 micro SECOND"
  | 4 => some "ESTIMATED MAXIMUM TIME ERROR < 100 micro SECOND"
  | 5 => some "ESTIMATED MAXIMUM TIME ERROR < 1 ms"
  | 6 => some "ESTIMATED MAXIMUM TIME ERROR < 10 ms"
  | 7 => some "ESTIMATED MAXIMUM TIME ERROR > 10 ms OR TIME ERROR UNKNOWN"
  | _ => none

def unlockTimeText (unlockTime : UInt8) : Option String :=
  match unlockTime.toNat with
  | 0 => some "SYNC LOCKED OR UNLOCKED <10s (BEST QUALITY)"
  | 1 => some "10 s =< UNLOCKED TIME < 100 s"
  | 2 => some "100 s < UNLOCKED TIME =< 1000 s"
  | 3 => some "UNLOCKED TIME > 1000 s"
  | _ => none

/-- The fourth `switch`, over `pmuTimeQuality` like the second. -/
def triggerReasonText (pmuTimeQuality : UInt8) : String :=
  match pmuTimeQuality.toNat with
  | 0 => "MANUAL"
  | 1 => "MAGNITUDE LOW"
  | 2 => "MAGNITUDE HIGH"
  | 3 => "PHASE ANGLE DIFF"
  | 4 => "FREQUENCY HIGH OR LOW"
  | 5 => "df/dt HIGH"
  | 7 => "DIGITAL"
  | _ => "USER DEFINED"

def DataLine.statusTexts {F : Type} : DataLine F → List String
  | .status _ dataError _ _ _ _ _ pmuTimeQuality unlockTime =>
    (dataErrorText dataError).toList ++ (pmuTimeQualityText pmuTimeQuality).toList ++
      (unlockTimeText unlockTime).toList
  | .triggerReason pmuTimeQuality => [triggerReasonText pmuTimeQuality]
  | _ => []

/-- The texts by the STAT word, of which six bits matter, and by the trigger flag. -/
def textsOf (w : UInt16) (triggered : Bool) : List String :=
  [if w.toNat.testBit 14 then "PMU ERROR. NO INFORMATION ABOUT DATA"
    else "GOOD MEASUREMENT DATA, NO ERRORS"] ++
  (if w.toNat.testBit 10 then []
    else [if w.toNat.testBit 6 then "ESTIMATED MAXIMUM TIME ERROR < 100 ns" else "NOT USED"]) ++
  (if w.toNat.testBit 8 then []
    else [if w.toNat.testBit 4 then "10 s =< UNLOCKED TIME < 100 s"
      else "SYNC LOCKED OR UNLOCKED <10s (BEST QUALITY)"]) ++
  (if triggered then [if w.toNat.testBit 10 then "USER DEFINED"
    else if w.toNat.testBit 6 then "MAGNITUDE LOW" else "MANUAL"] else [])

theorem slice_one (w : UInt16) (k : ℕ) : slice w k 1 = if w.toNat.testBit k then 1 else 0 := by
  rw [slice, Nat.testBit_eq_decide_div_mod_eq]
  rcases Nat.mod_two_eq_zero_or_one (w.toNat / 2 ^ k) with h | h <;> simp [h]

def Configuration.statusTexts {F : Type} (c : Configuration F) : List String :=
  (dataErrorText c.dataError).toList ++ (pmuTimeQualityText c.pmuTimeQuality).toList ++
    (unlockTimeText c.unlockTime).toList ++
      if c.pmuIsTriggered then [triggerReasonText c.pmuTimeQuality] else []

theorem StatusSince.texts {data : List (Event F)} {p : ℕ} {c : Configuration F}
    (since : StatusSince data p c) :
    c.statusTexts = textsOf (lastWord data p) (decide (Raised data p 11)) := by
  have error : dataErrorText c.dataError = some (if (lastWord data p).toNat.testBit 14 then
      "PMU ERROR. NO INFORMATION ABOUT DATA" else "GOOD MEASUREMENT DATA, NO ERRORS") := by
    rw [dataErrorText, since.dataError, slice_one]
    cases (lastWord data p).toNat.testBit 14 <;> rfl
  have quality : pmuTimeQualityText c.pmuTimeQuality =
      if (lastWord data p).toNat.testBit 10 then none
        else some (if (lastWord data p).toNat.testBit 6 then
          "ESTIMATED MAXIMUM TIME ERROR < 100 ns" else "NOT USED") := by
    rw [pmuTimeQualityText, since.pmuTimeQuality, slice_one, slice_one]
    cases (lastWord data p).toNat.testBit 10 <;>
      cases (lastWord data p).toNat.testBit 6 <;> rfl
  have unlock : unlockTimeText c.unlockTime =
      if (lastWord data p).toNat.testBit 8 then none
        else some (if (lastWord data p).toNat.testBit 4 then "10 s =< UNLOCKED TIME < 100 s"
          else "SYNC LOCKED OR UNLOCKED <10s (BEST QUALITY)") := by
    rw [unlockTimeText, since.unlockTime, slice_one, slice_one]
    cases (lastWord data p).toNat.testBit 8 <;>
      cases (lastWord data p).toNat.testBit 4 <;> rfl
  have reason : triggerReasonText c.pmuTimeQuality =
      if (lastWord data p).toNat.testBit 10 then "USER DEFINED"
        else if (lastWord data p).toNat.testBit 6 then "MAGNITUDE LOW" else "MANUAL" := by
    rw [triggerReasonText, since.pmuTimeQuality, slice_one, slice_one]
    cases (lastWord data p).toNat.testBit 10 <;>
      cases (lastWord data p).toNat.testBit 6 <;> rfl
  have triggered : c.pmuIsTriggered = decide (Raised data p 11) := by
    rw [Bool.eq_iff_iff, decide_eq_true_iff]
    exact since.flag .pmuIsTriggered
  rw [Configuration.statusTexts, error, quality, unlock, reason, triggered, textsOf]
  cases (lastWord data p).toNat.testBit 10 <;> cases (lastWord data p).toNat.testBit 8 <;> rfl

theorem textsOf_warns_never (w : UInt16) (triggered : Bool) : ∀ text ∈ textsOf w triggered,
    some text ≠ dataErrorText 2 ∧ some text ≠ dataErrorText 3 := by
  unfold textsOf
  generalize w.toNat.testBit 14 = b14, w.toNat.testBit 10 = b10, w.toNat.testBit 8 = b8,
    w.toNat.testBit 6 = b6, w.toNat.testBit 4 = b4
  revert b14 b10 b8 b6 b4 triggered
  decide

theorem flatMap_flatten_mapIdx {α β γ : Type} {f : ℕ → α → List β} {g : β → List γ}
    {h : α → List γ} (each : ∀ i x, (f i x).flatMap g = h x) (xs : List α) :
    (xs.mapIdx f).flatten.flatMap g = xs.flatMap h := by
  induction xs generalizing f with
  | nil => rfl
  | cons x xs ih =>
    rw [List.mapIdx_cons, List.flatten_cons, List.flatMap_append, each,
      ih (fun i => each (i + 1)), List.flatMap_cons]

theorem dataLines_statusTexts (i : ℕ) (c : Configuration F) :
    (c.dataLines i).flatMap DataLine.statusTexts = c.statusTexts := by
  have silent : ∀ {α : Type} {f : ℕ → α → List (DataLine F)} (xs : List α),
      (∀ j x, (f j x).flatMap DataLine.statusTexts = []) →
        (xs.mapIdx f).flatten.flatMap DataLine.statusTexts = [] := by
    intro α f xs each
    rw [flatMap_flatten_mapIdx each]
    simp
  simp only [Configuration.dataLines, List.flatMap_append]
  rw [silent _ (fun _ _ => rfl), silent _ (fun _ _ => rfl), silent _ (fun _ _ => rfl)]
  cases h : c.pmuIsTriggered <;> simp [Configuration.statusTexts, DataLine.statusTexts, h]

/-- What the client prints about the status of its PMUs after any run. Each text is chosen by
    two bits at most of a PMU's last STAT word, the trigger reason being printed when any of
    the words had the trigger bit. No text ever says that values are not to be used. -/
theorem printed_status_texts {pmuIdCode : ℤ} {timeoutInMs : UInt32}
    {bufferSnd bufferRcv : List UInt8} {events : List (Event F)} {returned : List ℤ}
    {final : Client F} (h : run handle (Client.fresh pmuIdCode timeoutInMs bufferSnd bufferRcv)
      events = some (returned, final)) {lines : List (DataLine F)}
    (printed : printDataStream final = some lines) :
    lines.flatMap DataLine.statusTexts = (List.range final.numPmu.toNat).flatMap (fun i =>
      textsOf (lastWord (sinceConfiguration (acceptedOf events returned)) (final.blockBase i))
        (decide (Raised (sinceConfiguration (acceptedOf events returned)) (final.blockBase i)
          11))) ∧
      ∀ text ∈ lines.flatMap DataLine.statusTexts,
        some text ≠ dataErrorText 2 ∧ some text ≠ dataErrorText 3 := by
  have texts : lines.flatMap DataLine.statusTexts = (List.range final.numPmu.toNat).flatMap
      (fun i => textsOf
        (lastWord (sinceConfiguration (acceptedOf events returned)) (final.blockBase i))
        (decide (Raised (sinceConfiguration (acceptedOf events returned)) (final.blockBase i)
          11))) := by
    obtain ⟨time, _, inside, rfl⟩ := (printDataStream_iff final lines).1 printed
    obtain ⟨count, _⟩ := (arraysInside_iff final).1 inside
    have length : final.numPmu.toNat = (final.configuration.take final.numPmu.toNat).length := by
      rw [List.length_take, Nat.min_eq_left count]
    rw [Client.dataLines, List.flatMap_cons, flatMap_flatten_mapIdx dataLines_statusTexts,
      List.flatMap_def, List.flatMap_def]
    refine congrArg List.flatten (map_range_eq_map length (fun i c hc => ?_)).symm
    have hi : i < final.numPmu.toNat := by
      rw [length]
      exact (List.getElem?_eq_some_iff.1 hc).choose
    obtain ⟨c', hc', since⟩ := run_statusFrom h i hi
    rw [List.getElem?_take_of_lt hi, hc'] at hc
    obtain rfl := Option.some.inj hc
    exact since.texts.symm
  refine ⟨texts, fun text ht => ?_⟩
  rw [texts] at ht
  obtain ⟨i, _, hi⟩ := List.mem_flatMap.1 ht
  exact textsOf_warns_never _ _ text hi

section
attribute [local instance] ExactRational.platform

theorem trigger_printed_after_the_next_frame :
    ∃ final lines, run handle (Client.fresh 7 0 [] []) triggeredEvents =
        some ([0, 0, 0], final) ∧ printDataStream final = some lines ∧
      lines.flatMap DataLine.statusTexts = ["PMU ERROR. NO INFORMATION ABOUT DATA", "NOT USED",
        "SYNC LOCKED OR UNLOCKED <10s (BEST QUALITY)", "MANUAL"] := by
  have handled : (run handle (Client.fresh 7 0 [] []) triggeredEvents).map
      (fun r => (r.1, r.2.numPmu, (printDataStream r.2).isSome)) = some ([0, 0, 0], 1, true) := by
    decide +kernel
  obtain ⟨⟨returned, final⟩, h, result⟩ := Option.map_eq_some_iff.1 handled
  simp only [Prod.mk.injEq] at result
  obtain ⟨rfl, count, prints⟩ := result
  obtain ⟨lines, printed⟩ := Option.isSome_iff_exists.1 prints
  obtain ⟨word, raised⟩ := triggeredEvents_words
  have base : final.blockBase 0 = 14 := rfl
  obtain ⟨texts, _⟩ := printed_status_texts h printed
  have one : List.range final.numPmu.toNat = [0] := by
    rw [count]
    rfl
  refine ⟨final, lines, h, printed, ?_⟩
  rw [texts, one, List.flatMap_singleton, base, word, decide_eq_true raised]
  decide

end
end Khorjin
