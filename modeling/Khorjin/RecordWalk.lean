import Khorjin.ConfigurationSlots

set_option autoImplicit false

/-!
# Walking the records of a configuration frame

The frame format puts each record behind the previous one, whose size follows from
its own counts. The parser's cursor keeps to this walk as long as the records
have the counts of the first one.
-/
namespace Khorjin
open ByteMemory LoopRules
variable {F D : Type} [Platform F D]

/-- Each kind of channel is absent or as numerous as in the first record. -/
def Layout.FollowsCounts (own first : Layout) : Prop :=
  (own.phasors = 0 ∨ own.phasors = first.phasors) ∧
    (own.analogs = 0 ∨ own.analogs = first.analogs) ∧
    (own.digitals = 0 ∨ own.digitals = first.digitals)

instance (own first : Layout) : Decidable (own.FollowsCounts first) :=
  inferInstanceAs (Decidable (_ ∧ _ ∧ _))

theorem ifAny_length {α : Type} (n k : ℕ) (l : List α) (h : l.length = k) :
    (if n ≠ 0 then l else []).length = n ↔ n = 0 ∨ n = k := by
  by_cases hn : n = 0
  · simp [hn]
  · simp [hn, h, eq_comm]

theorem recordAt_arraysMatch_iff (first : Layout) (m : ℕ → UInt8) (p : ℕ) :
    (recordAt first m p : Configuration F).ArraysMatch ↔ (declaredAt m p).FollowsCounts first := by
  have phasors := ifAny_length (declaredAt m p).phasors first.phasors
    (phasorsAt first m (p + 26) : List (Phasor F)) (by simp [phasorsAt])
  have analogs := ifAny_length (declaredAt m p).analogs first.analogs
    (analogsAt first m (p + 26 + 16 * first.phasors) : List (Analog F)) (by simp [analogsAt])
  have digitals := ifAny_length (declaredAt m p).digitals first.digitals
    (digitalsAt first m (p + 26 + 16 * first.phasors + 16 * first.analogs)) (by simp [digitalsAt])
  exact and_congr phasors (and_congr analogs digitals)

namespace Layout

def recordSize (own : Layout) : ℕ :=
  26 + 16 * (own.phasors + own.analogs + 16 * own.digitals) + 4 * own.phasors +
    4 * own.analogs + 4 * own.digitals + 4

def NoChannels (own : Layout) : Prop := own.phasors = 0 ∧ own.analogs = 0 ∧ own.digitals = 0

/-- The counts agree, but where there is no channel at all the digital count is free. -/
def SameCounts (own first : Layout) : Prop :=
  own.phasors = first.phasors ∧ own.analogs = first.analogs ∧
    (own.digitals = first.digitals ∨ own.NoChannels)

instance (own : Layout) : Decidable own.NoChannels := inferInstanceAs (Decidable (_ ∧ _ ∧ _))

instance (own first : Layout) : Decidable (own.SameCounts first) :=
  inferInstanceAs (Decidable (_ ∧ _ ∧ _))

theorem SameCounts.refl (l : Layout) : l.SameCounts l := ⟨rfl, rfl, .inl rfl⟩

end Layout

theorem fnomAt_of_sameCounts {own first : Layout} (h : own.SameCounts first) (p : ℕ) :
    fnomAt first own p + 4 = p + own.recordSize := by
  obtain ⟨phasors, analogs, _⟩ := h
  unfold fnomAt Layout.recordSize
  omega

theorem recordDefined_of_sameCounts {b : Memory} {own first : Layout} (h : own.SameCounts first)
    {p : ℕ} (mapped : b.Defined p (p + own.recordSize)) : RecordDefined b first own p := by
  have next := fnomAt_of_sameCounts h p
  obtain ⟨phasors, analogs, digitals⟩ := h
  unfold fnomAt at next
  unfold Layout.recordSize at mapped
  unfold RecordDefined Layout.phunits Layout.anunits Layout.digunits fnomAt
  refine ⟨mapped.mono (by omega) (by omega), ?_, ?_, ?_, mapped.mono (by omega) (by omega)⟩
  · intro any
    have same : own.digitals = first.digitals := digitals.resolve_right (fun zero => any zero.1)
    exact ⟨mapped.mono (by omega) (by omega), mapped.mono (by omega) (by omega)⟩
  · intro any
    have same : own.digitals = first.digitals := digitals.resolve_right (fun zero => any zero.2.1)
    refine ⟨mapped.mono (by omega) (by omega), fun j hj => mapped.mono (by omega) (by omega)⟩
  · intro any
    have same : own.digitals = first.digitals := digitals.resolve_right (fun zero => any zero.2.2)
    exact ⟨mapped.mono (by omega) (by omega), mapped.mono (by omega) (by omega)⟩

/-- Where the frame format puts record `i`, the first one starting at `p`. -/
def formatPos (m : ℕ → UInt8) (p : ℕ) : ℕ → ℕ
  | 0 => p
  | i + 1 => formatPos m p i + (declaredAt m (formatPos m p i)).recordSize

def SameCountsThroughout (m : ℕ → UInt8) (p n : ℕ) : Prop :=
  ∀ i < n, (declaredAt m (formatPos m p i)).SameCounts (declaredAt m p)

instance (m : ℕ → UInt8) (p n : ℕ) : Decidable (SameCountsThroughout m p n) :=
  inferInstanceAs (Decidable (∀ i < n, _))

theorem recordPos_eq_formatPos {m : ℕ → UInt8} {p n : ℕ} (h : SameCountsThroughout m p n) {i : ℕ}
    (hi : i ≤ n) : recordPos m p i = formatPos m p i := by
  induction i with
  | zero => rfl
  | succ i ih =>
    have before := ih (by omega)
    rw [recordPos, formatPos, before, fnomAt_of_sameCounts (h i (by omega))]

theorem formatPos_mono (m : ℕ → UInt8) (p : ℕ) : Monotone (formatPos m p) :=
  monotone_nat_of_le_succ (fun _ => Nat.le_add_right _ _)

theorem recordsDefined_of_sameCounts {b : Memory}
    (h : SameCountsThroughout b.byte 20 (word16 b.byte 18).toNat)
    (mapped : b.Defined 20 (formatPos b.byte 20 (word16 b.byte 18).toNat)) :
    RecordsDefined b := by
  intro i hi
  rw [recordPos_eq_formatPos h (le_of_lt hi)]
  apply recordDefined_of_sameCounts (h i hi)
  have low : 20 ≤ formatPos b.byte 20 i := formatPos_mono b.byte 20 (Nat.zero_le i)
  have high := formatPos_mono b.byte 20 (Nat.succ_le_of_lt hi)
  exact mapped.mono low high

end Khorjin
