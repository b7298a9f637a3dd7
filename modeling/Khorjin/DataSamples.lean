import Khorjin.DataLocality

set_option autoImplicit false

/-!
# Samples

What an application reads after a data frame, and when two blocks are decoded to
the same sample although the records and the local floats in front of the blocks
differ.
-/
namespace Khorjin
open ByteMemory LoopRules

/-- The measurement and status results of one PMU. -/
@[ext] structure PmuSample (F : Type) where
  statWord : UInt16
  dataError : UInt8
  pmuIsNOTSync : Bool
  dataSortingByArrivalorTime : Bool
  pmuIsTriggered : Bool
  configToChange : Bool
  dataModified : Bool
  pmuTimeQuality : UInt8
  unlockTime : UInt8
  triggerReason : UInt8
  phasor : List (F × F)
  frequency : F
  rocof : F
  analog : List F
  digital : List (UInt16 × (Fin 16 → Bool))
deriving DecidableEq

section
variable {F : Type}

def Phasor.sample (ph : Phasor F) : F × F := (ph.magnitude, ph.angle)

def Digital.sample (dg : Digital) : UInt16 × (Fin 16 → Bool) :=
  (dg.digitalWord, fun k => (dg.channel k).status)

def Configuration.sample (c : Configuration F) : PmuSample F where
  statWord := c.statWord
  dataError := c.dataError
  pmuIsNOTSync := c.pmuIsNOTSync
  dataSortingByArrivalorTime := c.dataSortingByArrivalorTime
  pmuIsTriggered := c.pmuIsTriggered
  configToChange := c.configToChange
  dataModified := c.dataModified
  pmuTimeQuality := c.pmuTimeQuality
  unlockTime := c.unlockTime
  triggerReason := c.triggerReason
  phasor := (c.phasor.take c.layout.phasors).map Phasor.sample
  frequency := c.frequency
  rocof := c.rocof
  analog := (c.analog.take c.layout.analogs).map Analog.value
  digital := (c.digital.take c.layout.digitals).map Digital.sample

/-- Two records agree on what a configuration frame installs for the data parser. -/
structure SameRecord (c c' : Configuration F) : Prop where
  layout : c.layout = c'.layout
  fNom : c.fNom = c'.fNom
  phasor : ∀ k < c.layout.phasors,
    c.phasor[k]?.map Phasor.conversionFactor = c'.phasor[k]?.map Phasor.conversionFactor
  analog : ∀ k < c.layout.analogs,
    c.analog[k]?.map Analog.conversionFactor = c'.analog[k]?.map Analog.conversionFactor

theorem SameRecord.refl (c : Configuration F) : SameRecord c c :=
  ⟨rfl, rfl, fun _ _ => rfl, fun _ _ => rfl⟩

structure FlagsAgree (w : UInt16) (c c' : Configuration F) : Prop where
  dataModified : w.toNat.testBit 9 ∨ c.dataModified = c'.dataModified
  configToChange : w.toNat.testBit 10 ∨ c.configToChange = c'.configToChange
  pmuIsTriggered : w.toNat.testBit 11 ∨ c.pmuIsTriggered = c'.pmuIsTriggered
  dataSortingByArrivalorTime : w.toNat.testBit 12 ∨
    c.dataSortingByArrivalorTime = c'.dataSortingByArrivalorTime
  pmuIsNOTSync : w.toNat.testBit 13 ∨ c.pmuIsNOTSync = c'.pmuIsNOTSync

def StatusAgrees (w : UInt16) (dg dg' : Digital) : Prop :=
  ∀ k : Fin 16, w.toNat.testBit k ∨ (dg.channel k).status = (dg'.channel k).status

end

/-- Integer phasors in polar form, the branch that multiplies the local floats. -/
def Layout.IntegerPolar (l : Layout) : Prop := ¬ l.phasorIsFloatingPoint ∧ l.phasorIsPolar

variable {F D : Type} [Platform F D]

def staleProduct (t : Temps F) (conversionFactor : F) : F × F :=
  (FloatArith.mul t.tempFloat_1 conversionFactor, FloatArith.mul t.tempFloat_2 conversionFactor)

/-- The conditions on two records and the local floats under which the block at `p`
    gives both records the same sample. -/
structure BlockAgrees (m : ℕ → UInt8) (p : ℕ) (t t' : Temps F) (c c' : Configuration F) :
    Prop where
  flags : FlagsAgree (word16 m p) c c'
  rocof : c.freqIsFloatingPoint ∨ c.rocof = c'.rocof
  phasor : c.layout.IntegerPolar → ∀ k < c.layout.phasors, ∀ ph, c.phasor[k]? = some ph →
    staleProduct t ph.conversionFactor = staleProduct t' ph.conversionFactor
  digital : ∀ k < c.layout.digitals, ∀ dg dg', c.digital[k]? = some dg →
    c'.digital[k]? = some dg' →
      StatusAgrees (word16 m (p + c.layout.digitalOffset + 2 * k)) dg dg'

theorem ite_true_eq_iff (P : Prop) [Decidable P] (a b : Bool) :
    (if P then true else a) = (if P then true else b) ↔ P ∨ a = b := by
  by_cases h : P <;> simp [h]

theorem shiftedBit_iff {w v : UInt16} {k : ℕ} (h : v.toNat = w.toNat >>> k) :
    v &&& 1 = 1 ↔ w.toNat.testBit k := by
  rw [lowBit_iff, h, Nat.testBit_shiftRight, Nat.add_zero]

theorem storeSTAT_flags_iff (w : UInt16) (c c' : Configuration F) :
    ((c.storeSTAT w).dataModified = (c'.storeSTAT w).dataModified ∧
      (c.storeSTAT w).configToChange = (c'.storeSTAT w).configToChange ∧
      (c.storeSTAT w).pmuIsTriggered = (c'.storeSTAT w).pmuIsTriggered ∧
      (c.storeSTAT w).dataSortingByArrivalorTime = (c'.storeSTAT w).dataSortingByArrivalorTime ∧
      (c.storeSTAT w).pmuIsNOTSync = (c'.storeSTAT w).pmuIsNOTSync) ↔ FlagsAgree w c c' := by
  obtain ⟨h9, h10, h11, h12, h13⟩ := flagWords_toNat w
  simp only [Configuration.storeSTAT, ite_true_eq_iff, shiftedBit_iff h9, shiftedBit_iff h10,
    shiftedBit_iff h11, shiftedBit_iff h12, shiftedBit_iff h13]
  constructor
  · rintro ⟨h9, h10, h11, h12, h13⟩
    exact ⟨h9, h10, h11, h12, h13⟩
  · rintro ⟨h9, h10, h11, h12, h13⟩
    exact ⟨h9, h10, h11, h12, h13⟩

theorem storeSTAT_words (w : UInt16) (c c' : Configuration F) :
    (c.storeSTAT w).statWord = (c'.storeSTAT w).statWord ∧
      (c.storeSTAT w).dataError = (c'.storeSTAT w).dataError ∧
      (c.storeSTAT w).pmuTimeQuality = (c'.storeSTAT w).pmuTimeQuality ∧
      (c.storeSTAT w).unlockTime = (c'.storeSTAT w).unlockTime ∧
      (c.storeSTAT w).triggerReason = (c'.storeSTAT w).triggerReason := by
  simp only [Configuration.storeSTAT, and_self]

theorem phasorAt_sample_eq_iff {l : Layout} {m : ℕ → UInt8} {t t' : Temps F} {p : ℕ}
    {ph ph' : Phasor F} (factor : ph.conversionFactor = ph'.conversionFactor) :
    (phasorAt l m t p ph).sample = (phasorAt l m t' p ph').sample ↔
      (l.IntegerPolar →
        staleProduct t ph.conversionFactor = staleProduct t' ph.conversionFactor) := by
  unfold Layout.IntegerPolar phasorAt
  by_cases float : l.phasorIsFloatingPoint
  · by_cases polar : l.phasorIsPolar <;> simp [float, polar, Phasor.sample]
  · by_cases polar : l.phasorIsPolar
    · simp [float, polar, Phasor.sample, staleProduct, factor]
    · simp [float, polar, Phasor.sample, factor]

theorem rocofAt_eq_iff (l : Layout) (m : ℕ → UInt8) (old old' : F) (p : ℕ) :
    rocofAt l m old p = rocofAt l m old' p ↔ l.freqIsFloatingPoint ∨ old = old' := by
  unfold rocofAt
  by_cases float : l.freqIsFloatingPoint <;> simp [float]

theorem analogAt_value_eq {an an' : Analog F}
    (factor : an.conversionFactor = an'.conversionFactor) (l : Layout) (m : ℕ → UInt8) (p : ℕ) :
    (analogAt l m p an).value = (analogAt l m p an').value := by
  unfold analogAt
  by_cases float : l.analogIsFloatingPoint <;> simp [float, factor]

theorem storeWord_sample_eq_iff (w : UInt16) (dg dg' : Digital) :
    (dg.storeWord w).sample = (dg'.storeWord w).sample ↔ StatusAgrees w dg dg' := by
  have channel : ∀ (d : Digital) (k : Fin 16), ((d.storeWord w).channel k).status =
      if w.toNat.testBit k then true else (d.channel k).status := by
    intro d k
    simp only [Digital.storeWord, markBits_channel, k.isLt, true_and]
    split_ifs <;> rfl
  simp only [Digital.sample, Prod.mk.injEq, funext_iff, channel, ite_true_eq_iff]
  exact and_iff_right rfl

theorem factor_eq {α : Type} {g : α → F} {l l' : List α} {k : ℕ} {x x' : α}
    (h : l[k]?.map g = l'[k]?.map g) (hx : l[k]? = some x) (hx' : l'[k]? = some x') :
    g x = g x' := by
  rw [hx, hx'] at h
  exact Option.some.inj h

theorem layout_blockAt (c : Configuration F) (m : ℕ → UInt8) (t : Temps F) (p : ℕ) :
    (blockAt c m t p).layout = c.layout := by
  simp only [blockAt, Configuration.layout_setDigital, Configuration.layout_setAnalog,
    Configuration.layout_setRocof, Configuration.layout_setFrequency,
    Configuration.layout_setPhasor, Configuration.layout_storeSTAT]

theorem blockAt_sample (c : Configuration F) (m : ℕ → UInt8) (t : Temps F) (p : ℕ) :
    (blockAt c m t p).sample =
      { (c.storeSTAT (word16 m p)).sample with
        phasor := ((blockAt c m t p).phasor.take c.layout.phasors).map Phasor.sample
        frequency := (blockAt c m t p).frequency
        rocof := (blockAt c m t p).rocof
        analog := ((blockAt c m t p).analog.take c.layout.analogs).map Analog.value
        digital := ((blockAt c m t p).digital.take c.layout.digitals).map Digital.sample } := by
  simp only [Configuration.sample, layout_blockAt]
  simp only [blockAt, Configuration.setPhasor, Configuration.setAnalog, Configuration.setDigital,
    Configuration.setFrequency, Configuration.setRocof]

section
variable {c c' : Configuration F} (same : SameRecord c c') (inside : c.CountsInside)
  (inside' : c'.CountsInside) (m : ℕ → UInt8) (t t' : Temps F) (p : ℕ)
include same inside inside'

theorem blockAt_phasor_samples :
    ((blockAt c m t p).phasor.take c.layout.phasors).map Phasor.sample =
      ((blockAt c' m t' p).phasor.take c'.layout.phasors).map Phasor.sample ↔
    (c.layout.IntegerPolar → ∀ k < c.layout.phasors, ∀ ph, c.phasor[k]? = some ph →
      staleProduct t ph.conversionFactor = staleProduct t' ph.conversionFactor) := by
  have length' : c.layout.phasors ≤ c'.phasor.length := same.layout ▸ inside'.1
  rw [blockAt_phasors, blockAt_phasors, ← same.layout,
    map_take_sweep_eq_iff inside.1 length']
  constructor
  · intro h polar k hk ph hph
    have hph' : c'.phasor[k]? = some c'.phasor[k] := List.getElem?_eq_getElem (by omega)
    have factor := factor_eq (same.phasor k hk) hph hph'
    exact (phasorAt_sample_eq_iff factor).1 (h k hk ph _ hph hph') polar
  · intro h k hk ph ph' hph hph'
    have factor := factor_eq (same.phasor k hk) hph hph'
    exact (phasorAt_sample_eq_iff factor).2 (fun polar => h polar k hk ph hph)

theorem blockAt_analog_samples :
    ((blockAt c m t p).analog.take c.layout.analogs).map Analog.value =
      ((blockAt c' m t' p).analog.take c'.layout.analogs).map Analog.value := by
  have length' : c.layout.analogs ≤ c'.analog.length := same.layout ▸ inside'.2.1
  rw [blockAt_analogs, blockAt_analogs, ← same.layout, map_take_sweep_eq_iff inside.2.1 length']
  intro k hk an an' han han'
  exact analogAt_value_eq (factor_eq (same.analog k hk) han han') _ _ _

theorem blockAt_digital_samples :
    ((blockAt c m t p).digital.take c.layout.digitals).map Digital.sample =
      ((blockAt c' m t' p).digital.take c'.layout.digitals).map Digital.sample ↔
    ∀ k < c.layout.digitals, ∀ dg dg', c.digital[k]? = some dg → c'.digital[k]? = some dg' →
      StatusAgrees (word16 m (p + c.layout.digitalOffset + 2 * k)) dg dg' := by
  have length' : c.layout.digitals ≤ c'.digital.length := same.layout ▸ inside'.2.2
  rw [blockAt_digitals, blockAt_digitals, ← same.layout,
    map_take_sweep_eq_iff inside.2.2 length']
  simp only [storeWord_sample_eq_iff]

omit inside inside' in
theorem blockAt_frequency : (blockAt c m t p).frequency = (blockAt c' m t' p).frequency := by
  change frequencyAt c.layout m (p + c.layout.freqOffset) =
    frequencyAt c'.layout m (p + c'.layout.freqOffset)
  rw [same.layout]

omit inside inside' in
theorem blockAt_rocof_eq_iff : (blockAt c m t p).rocof = (blockAt c' m t' p).rocof ↔
    c.freqIsFloatingPoint ∨ c.rocof = c'.rocof := by
  change rocofAt c.layout m c.rocof (p + c.layout.freqOffset) =
    rocofAt c'.layout m c'.rocof (p + c'.layout.freqOffset) ↔ _
  rw [← same.layout]
  exact rocofAt_eq_iff c.layout m c.rocof c'.rocof _

theorem blockAt_sample_eq_iff :
    (blockAt c m t p).sample = (blockAt c' m t' p).sample ↔ BlockAgrees m p t t' c c' := by
  have flags := storeSTAT_flags_iff (word16 m p) c c'
  obtain ⟨statWord, dataError, quality, unlock, reason⟩ := storeSTAT_words (word16 m p) c c'
  have rocof := blockAt_rocof_eq_iff same m t t' p
  have phasors := blockAt_phasor_samples same inside inside' m t t' p
  have analogs := blockAt_analog_samples same inside inside' m t t' p
  have digitals := blockAt_digital_samples same inside inside' m t t' p
  rw [blockAt_sample, blockAt_sample, PmuSample.ext_iff]
  dsimp only [Configuration.sample]
  constructor
  · rintro ⟨_, _, sync, sorting, triggered, change, modified, _, _, _, ph, _, ro, _, dg⟩
    exact ⟨flags.1 ⟨modified, change, triggered, sorting, sync⟩, rocof.1 ro, phasors.1 ph,
      digitals.1 dg⟩
  · rintro ⟨fl, ro, ph, dg⟩
    obtain ⟨modified, change, triggered, sorting, sync⟩ := flags.2 fl
    exact ⟨statWord, dataError, sync, sorting, triggered, change, modified, quality, unlock, reason,
      phasors.2 ph, blockAt_frequency same m t t' p, rocof.2 ro, analogs, digitals.2 dg⟩

end

end Khorjin
