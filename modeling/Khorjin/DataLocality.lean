import Khorjin.DataSlots

set_option autoImplicit false

/-!
# What a block of a data frame depends on

The record that a block leaves depends on the bytes of that block and, for integer
polar phasors only, on the local floats in front of it.
-/
namespace Khorjin
open ByteMemory LoopRules
variable {F D : Type} [Platform F D]

def SameBytes (m m' : ℕ → UInt8) (p q : ℕ) : Prop := ∀ k, p ≤ k → k < q → m k = m' k

theorem SameBytes.mono {m m' : ℕ → UInt8} {p q p' q' : ℕ} (h : SameBytes m m' p q) (hp : p ≤ p')
    (hq : q' ≤ q) : SameBytes m m' p' q' := fun k hk hk' => h k (by omega) (by omega)

theorem SameBytes.word16 {m m' : ℕ → UInt8} {p q r : ℕ} (h : SameBytes m m' p q) (hp : p ≤ r)
    (hq : r + 2 ≤ q) : word16 m r = word16 m' r :=
  word16_congr (fun k hk hk' => h k (by omega) (by omega))

theorem SameBytes.float32 {m m' : ℕ → UInt8} {p q r : ℕ} (h : SameBytes m m' p q) (hp : p ≤ r)
    (hq : r + 4 ≤ q) : (float32 m r : F) = float32 m' r :=
  float32_congr (fun k hk hk' => h k (by omega) (by omega))

variable {l : Layout} {m m' : ℕ → UInt8} {p : ℕ}

theorem phasorAt_congr (h : SameBytes m m' p (p + l.phasorWidth)) (t : Temps F) (ph : Phasor F) :
    phasorAt l m t p ph = phasorAt l m' t p ph := by
  unfold phasorAt
  by_cases hf : l.phasorIsFloatingPoint
  · have width : l.phasorWidth = 8 := if_pos hf
    rw [width] at h
    have first : (float32 m p : F) = float32 m' p := h.float32 (le_refl p) (by omega)
    have second : (float32 m (p + 4) : F) = float32 m' (p + 4) := h.float32 (by omega) (by omega)
    simp only [hf, if_true, first, second]
  · have width : l.phasorWidth = 4 := if_neg hf
    rw [width] at h
    have first := h.word16 (le_refl p) (by omega)
    have second := h.word16 (r := p + 2) (by omega) (by omega)
    simp only [hf, if_false, Bool.false_eq_true, first, second]

theorem frequencyAt_congr (h : SameBytes m m' p (p + l.freqWidth)) :
    (frequencyAt l m p : F) = frequencyAt l m' p := by
  unfold frequencyAt
  by_cases hf : l.freqIsFloatingPoint
  · have width : l.freqWidth = 8 := if_pos hf
    rw [width] at h
    rw [if_pos hf, if_pos hf, h.float32 (le_refl p) (by omega)]
  · have width : l.freqWidth = 4 := if_neg hf
    rw [width] at h
    rw [if_neg hf, if_neg hf, h.word16 (by omega) (by omega)]

theorem rocofAt_congr (h : SameBytes m m' p (p + l.freqWidth)) (old : F) :
    rocofAt l m old p = rocofAt l m' old p := by
  unfold rocofAt
  by_cases hf : l.freqIsFloatingPoint
  · have width : l.freqWidth = 8 := if_pos hf
    rw [width] at h
    rw [if_pos hf, if_pos hf, h.float32 (by omega) (by omega)]
  · rw [if_neg hf, if_neg hf]

theorem analogAt_congr (h : SameBytes m m' p (p + l.analogWidth)) (an : Analog F) :
    analogAt l m p an = analogAt l m' p an := by
  unfold analogAt
  by_cases hf : l.analogIsFloatingPoint
  · have width : l.analogWidth = 4 := if_pos hf
    rw [width] at h
    rw [if_pos hf, if_pos hf, h.float32 (le_refl p) (by omega)]
  · have width : l.analogWidth = 2 := if_neg hf
    rw [width] at h
    rw [if_neg hf, if_neg hf, h.word16 (le_refl p) (by omega)]

theorem slot_le {w j n : ℕ} (hj : j < n) : w * j + w ≤ w * n := by
  rw [← Nat.mul_succ]
  exact Nat.mul_le_mul_left w hj

theorem phasorTemps_congr (t : Temps F) (n : ℕ) (h : SameBytes m m' p (p + l.phasorWidth * n)) :
    phasorTemps l m t p n = phasorTemps l m' t p n := by
  cases n with
  | zero => rfl
  | succ j =>
    by_cases hf : l.phasorIsFloatingPoint
    · have width : l.phasorWidth = 8 := if_pos hf
      rw [width] at h
      have first : (float32 m (p + 8 * j) : F) = float32 m' (p + 8 * j) :=
        h.float32 (by omega) (by omega)
      have second : (float32 m (p + 8 * j + 4) : F) = float32 m' (p + 8 * j + 4) :=
        h.float32 (by omega) (by omega)
      simp only [phasorTemps, hf, if_true, first, second]
    · rw [phasorTemps_integer hf, phasorTemps_integer hf]

theorem freqTemps_congr (h : SameBytes m m' p (p + l.freqWidth)) (t : Temps F) :
    freqTemps l m t p = freqTemps l m' t p := by
  unfold freqTemps
  by_cases hf : l.freqIsFloatingPoint
  · have width : l.freqWidth = 8 := if_pos hf
    rw [width] at h
    rw [if_pos hf, if_pos hf, h.float32 (by omega) (by omega)]
  · rw [if_neg hf, if_neg hf]

theorem analogTemps_congr (t : Temps F) (n : ℕ) (h : SameBytes m m' p (p + l.analogWidth * n)) :
    analogTemps l m t p n = analogTemps l m' t p n := by
  cases n with
  | zero => rfl
  | succ j =>
    by_cases hf : l.analogIsFloatingPoint
    · have width : l.analogWidth = 4 := if_pos hf
      rw [width] at h
      have last : (float32 m (p + 4 * j) : F) = float32 m' (p + 4 * j) :=
        h.float32 (by omega) (by omega)
      simp only [analogTemps, hf, if_true, last]
    · rw [analogTemps_integer hf, analogTemps_integer hf]

theorem block_parts (l : Layout) : 2 + l.phasorWidth * l.phasors = l.freqOffset ∧
    l.freqOffset + l.freqWidth = l.analogOffset ∧
    l.analogOffset + l.analogWidth * l.analogs = l.digitalOffset ∧
    l.digitalOffset + 2 * l.digitals = l.blockSize := ⟨rfl, rfl, rfl, rfl⟩

theorem blockTemps_congr (h : SameBytes m m' p (p + l.blockSize)) (t : Temps F) :
    blockTemps l m t p = blockTemps l m' t p := by
  obtain ⟨e1, e2, e3, e4⟩ := block_parts l
  unfold blockTemps
  rw [phasorTemps_congr t _ (h.mono (by omega) (by omega)),
    freqTemps_congr (h.mono (by omega) (by omega)),
    analogTemps_congr _ _ (h.mono (by omega) (by omega))]

/-- A block is decoded from its own bytes. -/
theorem blockAt_congr {c : Configuration F} (h : SameBytes m m' p (p + c.layout.blockSize))
    (t : Temps F) : blockAt c m t p = blockAt c m' t p := by
  obtain ⟨e1, e2, e3, e4⟩ := block_parts c.layout
  have phasors : sweep (fun k => phasorAt c.layout m t (p + 2 + c.layout.phasorWidth * k))
      c.layout.phasors c.phasor = sweep (fun k => phasorAt c.layout m' t
        (p + 2 + c.layout.phasorWidth * k)) c.layout.phasors c.phasor := by
    apply sweep_congr
    intro k hk ph _
    have slot := slot_le (w := c.layout.phasorWidth) hk
    exact phasorAt_congr (h.mono (by omega) (by omega)) t ph
  have analogs : sweep (fun k => analogAt c.layout m
      (p + c.layout.analogOffset + c.layout.analogWidth * k)) c.layout.analogs c.analog =
      sweep (fun k => analogAt c.layout m'
        (p + c.layout.analogOffset + c.layout.analogWidth * k)) c.layout.analogs c.analog := by
    apply sweep_congr
    intro k hk an _
    have slot := slot_le (w := c.layout.analogWidth) hk
    exact analogAt_congr (h.mono (by omega) (by omega)) an
  have digitals : sweep (fun k (dg : Digital) => dg.storeWord
      (word16 m (p + c.layout.digitalOffset + 2 * k))) c.layout.digitals c.digital =
      sweep (fun k dg => dg.storeWord
        (word16 m' (p + c.layout.digitalOffset + 2 * k))) c.layout.digitals c.digital := by
    apply sweep_congr
    intro k hk dg _
    rw [h.word16 (by omega) (by omega)]
  unfold blockAt
  simp only [phasors, analogs, digitals]
  rw [h.word16 (le_refl p) (by omega), frequencyAt_congr (h.mono (by omega) (by omega)),
    rocofAt_congr (h.mono (by omega) (by omega))]

theorem tempsBefore_congr {ls : List Layout} (t : Temps F) {i : ℕ}
    (h : SameBytes m m' p (p + blockOffset ls i)) :
    tempsBefore ls m t p i = tempsBefore ls m' t p i := by
  induction i with
  | zero => rfl
  | succ i ih =>
    have before := ih (h.mono (le_refl p)
      (Nat.add_le_add_left (blockOffset_mono ls (Nat.le_add_right i 1)) p))
    unfold tempsBefore
    cases hl : ls[i]? with
    | none => exact before
    | some l =>
      rw [blockOffset_succ hl] at h
      simp only [before]
      exact blockTemps_congr (h.mono (by omega) (by omega)) _

theorem blockBase_mono (self : Client F) {i j : ℕ} (h : i ≤ j) :
    self.blockBase i ≤ self.blockBase j :=
  Nat.add_le_add_left (blockOffset_mono self.layouts h) 14

theorem fourteen_le_blockBase (self : Client F) (i : ℕ) : 14 ≤ self.blockBase i :=
  Nat.le_add_right 14 _

theorem block_congr {self : Client F} {i : ℕ} {c : Configuration F}
    (hc : self.configuration[i]? = some c) (t : Temps F)
    (h : SameBytes m m' 14 (self.blockBase (i + 1))) :
    blockAt c m (self.blockTemps m t i) (self.blockBase i) =
      blockAt c m' (self.blockTemps m' t i) (self.blockBase i) := by
  have next := blockBase_succ hc
  have low := fourteen_le_blockBase self i
  have temps : self.blockTemps m t i = self.blockTemps m' t i :=
    tempsBefore_congr t (h.mono (le_refl 14) (blockBase_mono self (Nat.le_add_right i 1)))
  rw [temps]
  exact blockAt_congr (h.mono low (by omega)) _

theorem storeData_configuration_congr {self : Client F} (t : Temps F)
    (h : SameBytes m m' 14 self.dataEnd) :
    (self.storeData t m).configuration = (self.storeData t m').configuration := by
  apply sweep_congr
  intro i hi c hc
  exact block_congr hc t (h.mono (le_refl 14) (blockBase_mono self hi))

end Khorjin
