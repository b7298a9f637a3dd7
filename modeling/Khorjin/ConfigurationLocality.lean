import Khorjin.DataLocality
import Khorjin.RecordWalk

set_option autoImplicit false

/-!
# What a record of a configuration frame depends on

A record with the counts of the first one is decoded from the bytes between its
own station name and CFGCNT.
-/
namespace Khorjin
open ByteMemory LoopRules
variable {F D : Type} [Platform F D]

theorem SameBytes.bytesAt {m m' : ℕ → UInt8} {p q r n : ℕ} (h : SameBytes m m' p q) (hp : p ≤ r)
    (hq : r + n ≤ q) : Memory.bytesAt m n r = Memory.bytesAt m' n r :=
  Memory.bytesAt_congr (fun k hk hk' => h k (by omega) (by omega))

theorem SameBytes.word24 {m m' : ℕ → UInt8} {p q r : ℕ} (h : SameBytes m m' p q) (hp : p ≤ r)
    (hq : r + 3 ≤ q) : word24 m r = word24 m' r :=
  word24_congr (fun k hk hk' => h k (by omega) (by omega))

theorem SameBytes.word32 {m m' : ℕ → UInt8} {p q r : ℕ} (h : SameBytes m m' p q) (hp : p ≤ r)
    (hq : r + 4 ≤ q) : word32 m r = word32 m' r :=
  word32_congr (fun k hk hk' => h k (by omega) (by omega))

variable {m m' : ℕ → UInt8} {p q : ℕ}

theorem SameBytes.nameAt {r : ℕ} (h : SameBytes m m' p q) (hp : p ≤ r) (hq : r + 16 ≤ q) :
    nameAt m r = nameAt m' r :=
  congrArg (copyName Name.zero) (h.bytesAt hp hq)

theorem SameBytes.declaredAt (h : SameBytes m m' p (p + 26)) :
    declaredAt m p = declaredAt m' p := by
  have format := h.word16 (r := p + 18) (by omega) (by omega)
  have phnmr := h.word16 (r := p + 20) (by omega) (by omega)
  have annmr := h.word16 (r := p + 22) (by omega) (by omega)
  have dgnmr := h.word16 (r := p + 24) (by omega) (by omega)
  simp only [Khorjin.declaredAt, format, phnmr, annmr, dgnmr]

theorem storeHead_congr (h : SameBytes m m' p (p + 26)) (c : Configuration F) :
    c.storeHead m p = c.storeHead m' p := by
  have name := h.bytesAt (r := p) (n := 16) (le_refl p) (by omega)
  have idCode := h.word16 (r := p + 16) (by omega) (by omega)
  have phnmr := h.word16 (r := p + 20) (by omega) (by omega)
  have annmr := h.word16 (r := p + 22) (by omega) (by omega)
  have dgnmr := h.word16 (r := p + 24) (by omega) (by omega)
  simp only [Configuration.storeHead, h.declaredAt, name, idCode, phnmr, annmr, dgnmr]

theorem storePhunit_congr (h : SameBytes m m' p (p + 4)) (floating : Bool) (ph : Phasor F) :
    ph.storePhunit floating m p = ph.storePhunit floating m' p := by
  have phasorType := h p (le_refl p) (by omega)
  have phunit := h.word24 (r := p + 1) (by omega) (by omega)
  simp only [Phasor.storePhunit, phasorType, phunit]

theorem storeName_congr {k : ℕ} (h : SameBytes m m' p (p + 16 * k)) (dg : Digital) :
    dg.storeName m p k = dg.storeName m' p k := by
  simp only [Digital.storeName, Digital.mk.injEq, and_true]
  funext i
  split_ifs with hi
  · rw [h.bytesAt (by omega) (by omega)]
  · rfl

theorem storeDigunit_congr (h : SameBytes m m' p (p + 4)) (dg : Digital) :
    dg.storeDigunit m p = dg.storeDigunit m' p := by
  have mask := h.word16 (r := p) (le_refl p) (by omega)
  have valid := h.word16 (r := p + 2) (by omega) (by omega)
  simp only [Digital.storeDigunit, mask, valid]

theorem phasorsAt_congr {l : Layout} (names : SameBytes m m' p (p + 16 * l.phasors))
    (units : SameBytes m m' (l.phunits p) (l.phunits p + 4 * l.phasors)) :
    (phasorsAt l m p : List (Phasor F)) = phasorsAt l m' p := by
  apply List.map_congr_left
  intro j hj
  have hj := List.mem_range.1 hj
  rw [names.nameAt (by omega) (by omega),
    storePhunit_congr (units.mono (by omega) (by omega))]

theorem analogsAt_congr {l : Layout} (names : SameBytes m m' p (p + 16 * l.analogs))
    (units : SameBytes m m' (l.anunits p) (l.anunits p + 4 * l.analogs)) :
    (analogsAt l m p : List (Analog F)) = analogsAt l m' p := by
  apply List.map_congr_left
  intro j hj
  have hj := List.mem_range.1 hj
  rw [names.nameAt (by omega) (by omega), Analog.storeAnunit, Analog.storeAnunit,
    units (l.anunits p + 4 * j) (by omega) (by omega)]

theorem digitalsAt_congr {l : Layout} (names : SameBytes m m' p (p + 256 * l.digitals))
    (units : SameBytes m m' (l.digunits p) (l.digunits p + 4 * l.digitals)) :
    digitalsAt l m p = digitalsAt l m' p := by
  apply List.map_congr_left
  intro j hj
  have hj := List.mem_range.1 hj
  rw [storeName_congr (names.mono (by omega) (by omega)),
    storeDigunit_congr (units.mono (by omega) (by omega))]

theorem ifAny_congr {α : Type} {n : ℕ} {l l' : List α} (h : n ≠ 0 → l = l') :
    (if n ≠ 0 then l else []) = if n ≠ 0 then l' else [] := by
  by_cases any : n ≠ 0
  · rw [if_pos any, if_pos any, h any]
  · rw [if_neg any, if_neg any]

/-- A record is decoded from its own bytes. -/
theorem recordAt_congr {first : Layout} (same : (declaredAt m p).SameCounts first)
    (h : SameBytes m m' p (p + (declaredAt m p).recordSize)) :
    (recordAt first m p : Configuration F) = recordAt first m' p := by
  have next := fnomAt_of_sameCounts same p
  obtain ⟨phasors, analogs, digitals⟩ := same
  have size : p + 26 ≤ fnomAt first (declaredAt m p) p := by
    unfold fnomAt
    omega
  have fixed : SameBytes m m' p (p + 26) := h.mono (le_refl p) (by omega)
  have own : declaredAt m p = declaredAt m' p := fixed.declaredAt
  have head : (Configuration.zero.storeHead m p : Configuration F) =
      Configuration.zero.storeHead m' p := storeHead_congr fixed _
  have fnom := h.word16 (r := fnomAt first (declaredAt m p) p) (by omega) (by omega)
  have cfgcnt := h.word16 (r := fnomAt first (declaredAt m p) p + 2) (by omega) (by omega)
  unfold Layout.recordSize at h
  have phasorTable := ifAny_congr (α := Phasor F) (fun any : (declaredAt m p).phasors ≠ 0 => by
    have digitals := digitals.resolve_right (fun absent => any absent.1)
    refine phasorsAt_congr (p := p + 26) (l := first) (h.mono (by omega) (by omega)) ?_
    unfold Layout.phunits
    exact h.mono (by omega) (by omega))
  have analogTable := ifAny_congr (α := Analog F) (fun any : (declaredAt m p).analogs ≠ 0 => by
    have digitals := digitals.resolve_right (fun absent => any absent.2.1)
    refine analogsAt_congr (p := p + 26 + 16 * first.phasors) (l := first)
      (h.mono (by omega) (by omega)) ?_
    unfold Layout.anunits
    exact h.mono (by omega) (by omega))
  have digitalTable := ifAny_congr (fun any : (declaredAt m p).digitals ≠ 0 => by
    have digitals := digitals.resolve_right (fun absent => any absent.2.2)
    refine digitalsAt_congr (p := p + 26 + 16 * first.phasors + 16 * first.analogs) (l := first)
      (h.mono (by omega) (by omega)) ?_
    unfold Layout.digunits
    exact h.mono (by omega) (by omega))
  unfold recordAt
  simp only [← own, head, phasorTable, analogTable, digitalTable, fnom, cfgcnt]

theorem formatPos_record {n i : ℕ} (hi : i < n) :
    p ≤ formatPos m p i ∧
      formatPos m p i + (declaredAt m (formatPos m p i)).recordSize ≤ formatPos m p n :=
  ⟨formatPos_mono m p (Nat.zero_le i), formatPos_mono m p (Nat.succ_le_of_lt hi)⟩

theorem declaredAt_walk {n i : ℕ} (h : SameBytes m m' p (formatPos m p n)) (hi : i < n) :
    declaredAt m (formatPos m p i) = declaredAt m' (formatPos m p i) := by
  obtain ⟨low, high⟩ := formatPos_record (m := m) (p := p) hi
  unfold Layout.recordSize at high
  exact (h.mono low (by omega)).declaredAt

theorem formatPos_congr {n i : ℕ} (h : SameBytes m m' p (formatPos m p n)) (hi : i ≤ n) :
    formatPos m p i = formatPos m' p i := by
  induction i with
  | zero => rfl
  | succ i ih =>
    rw [formatPos, formatPos, declaredAt_walk h hi, ih (by omega)]

theorem SameCountsThroughout.congr {n : ℕ} (same : SameCountsThroughout m p n)
    (h : SameBytes m m' p (formatPos m p n)) : SameCountsThroughout m' p n := by
  intro i hi
  have first := declaredAt_walk h (i := 0) (by omega)
  rw [← formatPos_congr h (le_of_lt hi), ← declaredAt_walk h hi]
  change declaredAt m p = declaredAt m' p at first
  rw [← first]
  exact same i hi

theorem configurationAt_congr {n : ℕ} (same : SameCountsThroughout m p n)
    (h : SameBytes m m' p (formatPos m p n)) :
    (configurationAt m p n : List (Configuration F)) = configurationAt m' p n := by
  apply List.map_congr_left
  intro i hi
  have hi := List.mem_range.1 hi
  have first : declaredAt m p = declaredAt m' p := declaredAt_walk h (i := 0) (by omega)
  rw [recordPos_eq_formatPos same (le_of_lt hi),
    recordPos_eq_formatPos (same.congr h) (le_of_lt hi), ← formatPos_congr h (le_of_lt hi), ← first]
  obtain ⟨low, high⟩ := formatPos_record (m := m) (p := p) hi
  exact recordAt_congr (same i hi) (h.mono low high)

end Khorjin
