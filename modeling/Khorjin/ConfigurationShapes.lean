import Khorjin.ConfigurationRoundTrip

set_option autoImplicit false

/-!
# Shapes of configurations that survive the round trip

A configuration whose counts are not uniform sends the parser to wrong places. Of
the contents with such a shape, some then come out wrong: it is enough to vary one
byte that the parser fails to look at.
-/
namespace Khorjin
open ByteMemory LoopRules
variable {F D : Type} [Platform F D]

/-- Byte `v` stands at offset `off` of `enc v`, whose other bytes do not depend on `v`. -/
def VariesAt (off : ℕ) (enc : UInt8 → List UInt8) : Prop :=
  ∃ front back, front.length = off ∧ ∀ v, enc v = front ++ v :: back

theorem VariesAt.prepend {off : ℕ} {enc : UInt8 → List UInt8} (h : VariesAt off enc)
    (l : List UInt8) : VariesAt (l.length + off) (fun v => l ++ enc v) := by
  obtain ⟨front, back, rfl, henc⟩ := h
  refine ⟨l ++ front, back, List.length_append, fun v => ?_⟩
  simp only [henc, List.append_assoc]

theorem VariesAt.append {off : ℕ} {enc : UInt8 → List UInt8} (h : VariesAt off enc)
    (l : List UInt8) : VariesAt off (fun v => enc v ++ l) := by
  obtain ⟨front, back, rfl, henc⟩ := h
  refine ⟨front, back ++ l, rfl, fun v => ?_⟩
  simp only [henc, List.append_assoc, List.cons_append]

theorem crcStep_one (c : UInt16) : crcStep c 1 = crcStep c 0 ^^^ 0x1021 := by
  have h := crcStep_xor c 0 0 1
  rwa [UInt16.xor_zero, UInt8.zero_xor, show crcStep 0 1 = 0x1021 by decide] at h

theorem crcOf_concat (l : List UInt8) (d : UInt8) :
    crcOf (fun i => (l ++ [d]).getD i 0) (l ++ [d]).length =
      crcStep (crcOf (fun i => l.getD i 0) l.length) d := by
  have front : crcOf (fun i => (l ++ [d]).getD i 0) l.length =
      crcOf (fun i => l.getD i 0) l.length := by
    apply crcOf_congr
    intro i hi
    simp only [List.getD_eq_getElem?_getD, List.getElem?_append_left hi]
  have last : (l ++ [d]).getD l.length 0 = d := by simp
  rw [List.length_append, List.length_singleton, crcOf, front, last]

theorem high_of_zero {w : UInt16} (h : (w / 256).toUInt8 = 0) : w.toNat.testBit 12 = false := by
  have e : (256 : UInt16).toNat = 256 := rfl
  have lt := w.toNat_lt
  have := congrArg UInt8.toNat h
  rw [UInt16.toNat_toUInt8, UInt16.toNat_div, e] at this
  have small : w.toNat < 256 := by
    change w.toNat / 256 % 256 = 0 at this
    omega
  exact Nat.testBit_lt_two_pow (by omega)

theorem low_of_zero {w : UInt16} (h : (w % 256).toUInt8 = 0) : w.toNat.testBit 0 = false := by
  have e : (256 : UInt16).toNat = 256 := rfl
  have := congrArg UInt8.toNat h
  rw [UInt16.toNat_toUInt8, UInt16.toNat_mod, e] at this
  have even : w.toNat % 2 = 0 := by
    change w.toNat % 256 % 256 = 0 at this
    omega
  rw [Nat.testBit_zero, even]
  rfl

/-- Neither checksum byte vanishes both for the last byte 0 and for the last byte 1. -/
theorem chk_bytes_differ (c : UInt16) :
    ¬ ((c / 256).toUInt8 = 0 ∧ ((c ^^^ 0x1021) / 256).toUInt8 = 0) ∧
      ¬ ((c % 256).toUInt8 = 0 ∧ ((c ^^^ 0x1021) % 256).toUInt8 = 0) := by
  have flip : (c ^^^ 0x1021).toNat = c.toNat ^^^ 0x1021 := UInt16.toNat_xor c 0x1021
  constructor
  · rintro ⟨h, h'⟩
    have := high_of_zero h'
    rw [flip, Nat.testBit_xor, high_of_zero h] at this
    exact absurd this (by decide)
  · rintro ⟨h, h'⟩
    have := low_of_zero h'
    rw [flip, Nat.testBit_xor, low_of_zero h] at this
    exact absurd this (by decide)

theorem appendChk_get {l : List UInt8} {d : UInt8} {crc : UInt16}
    (hcrc : crcStep (crcOf (fun i => l.getD i 0) l.length) d = crc) :
    (∀ z < l.length, (appendChk (l ++ [d])).getD z 0 = l.getD z 0) ∧
      (appendChk (l ++ [d])).getD l.length 0 = d ∧
      (appendChk (l ++ [d])).getD (l.length + 1) 0 = (crc / 256).toUInt8 ∧
      (appendChk (l ++ [d])).getD (l.length + 2) 0 = (crc % 256).toUInt8 ∧
      ∀ z, l.length + 3 ≤ z → (appendChk (l ++ [d])).getD z 0 = 0 := by
  have sealed : appendChk (l ++ [d]) = l ++ [d, (crc / 256).toUInt8, (crc % 256).toUInt8] := by
    simp only [appendChk, crcOf_concat, hcrc, List.append_assoc]
    rfl
  simp only [sealed, List.getD_eq_getElem?_getD]
  refine ⟨?_, ?_, ?_, ?_, ?_⟩
  · intro z hz
    rw [List.getElem?_append_left hz]
  · simp
  · simp
  · simp
  · intro z hz
    rw [List.getElem?_eq_none (by simpa using hz)]
    rfl

/-- Byte `z` of a frame cannot tell whether the varying byte vanishes, unless it is that
    byte. -/
theorem other_byte_does_not_follow {off z : ℕ} {enc : UInt8 → List UInt8} (h : VariesAt off enc)
    (hz : z ≠ off) : ¬ ∀ v d : UInt8, (appendChk (enc v ++ [d])).getD z 0 = 0 ↔ v = 0 := by
  obtain ⟨front, back, rfl, henc⟩ := h
  intro follows
  have length : ∀ v, (enc v).length = front.length + back.length + 1 := by
    intro v
    rw [henc, List.length_append, List.length_cons, Nat.add_assoc]
  have f00 := (follows 0 0).2 rfl
  have f01 := (follows 0 1).2 rfl
  have f10 := (follows 1 0).not.2 (by decide)
  obtain ⟨body00, _, hi00, lo00, _⟩ := appendChk_get (l := enc 0) (d := 0) rfl
  obtain ⟨_, last01, hi01, lo01, _⟩ := appendChk_get (l := enc 0) (d := 1) rfl
  obtain ⟨body10, _, _, _, behind10⟩ := appendChk_get (l := enc 1) (d := 0) rfl
  simp only [length] at body00 hi00 lo00 last01 hi01 lo01 body10 behind10
  rw [crcStep_one] at hi01 lo01
  obtain ⟨hi, lo⟩ := chk_bytes_differ (crcStep (crcOf (fun i => (enc 0).getD i 0)
    (front.length + back.length + 1)) 0)
  rcases Nat.lt_trichotomy z (front.length + back.length + 1) with before | rfl | after
  · -- a byte of the body is the same for both values
    have same : (enc 0).getD z 0 = (enc 1).getD z 0 := by
      simp only [henc, List.getD_eq_getElem?_getD]
      rcases Nat.lt_or_gt_of_ne hz with lt | gt
      · rw [List.getElem?_append_left lt, List.getElem?_append_left lt]
      · rw [List.getElem?_append_right (by omega), List.getElem?_append_right (by omega)]
        obtain ⟨k, hk⟩ : ∃ k, z - front.length = k + 1 := ⟨z - front.length - 1, by omega⟩
        rw [hk, List.getElem?_cons_succ, List.getElem?_cons_succ]
    rw [body10 z before, ← same, ← body00 z before] at f10
    exact f10 f00
  · rw [last01] at f01
    exact absurd f01 (by decide)
  · by_cases h1 : z = front.length + back.length + 1 + 1
    · subst h1
      rw [hi00] at f00
      rw [hi01] at f01
      exact hi ⟨f00, f01⟩
    · by_cases h2 : z = front.length + back.length + 1 + 2
      · subst h2
        rw [lo00] at f00
        rw [lo01] at f01
        exact lo ⟨f00, f01⟩
      · exact f10 (behind10 z (by omega))

theorem encode16_low (d : UInt8) : encode16 d.toUInt16 = [0, d] := by
  have e : (256 : UInt16).toNat = 256 := rfl
  have high : (d.toUInt16 / 256).toUInt8 = 0 := by
    have lt := d.toNat_lt
    apply UInt8.toNat_inj.1
    rw [UInt16.toNat_toUInt8, UInt16.toNat_div, UInt8.toNat_toUInt16, e]
    change d.toNat / 256 % 256 = 0
    omega
  rw [encode16, high, UInt8.toUInt8_toUInt16]

theorem encode16_high (v : UInt8) : encode16 (v.toUInt16 * 256) = [v, 0] := by
  have lt := v.toNat_lt
  have e : (256 : UInt16).toNat = 256 := rfl
  have n : (v.toUInt16 * 256).toNat = v.toNat * 256 := by
    rw [UInt16.toNat_mul, UInt8.toNat_toUInt16, e]
    exact Nat.mod_eq_of_lt (by omega)
  simp only [encode16, List.cons.injEq, and_true, ← UInt8.toNat_inj, UInt16.toNat_toUInt8,
    UInt16.toNat_div, n, e]
  refine ⟨?_, ?_⟩
  · omega
  · change v.toNat * 256 % 256 = 0
    omega

theorem byte_of_word16_high {m : ℕ → UInt8} {p : ℕ} {v : UInt8}
    (h : word16 m p = v.toUInt16 * 256) : m p = v := by
  have word := congrArg UInt16.toNat h
  have lt := v.toNat_lt
  have low := (m (p + 1)).toNat_lt
  have e : (256 : UInt16).toNat = 256 := rfl
  rw [word16_toNat, UInt16.toNat_mul, UInt8.toNat_toUInt16, e, Nat.mod_eq_of_lt (by omega)] at word
  apply UInt8.toNat_inj.1
  omega

theorem encode32_high (v : UInt8) : encode32 (v.toUInt32 * 0x1000000) = [v, 0, 0, 0] := by
  have lt := v.toNat_lt
  have e0 : (0x1000000 : UInt32).toNat = 16777216 := rfl
  have n : (v.toUInt32 * 0x1000000).toNat = v.toNat * 16777216 := by
    rw [UInt32.toNat_mul, UInt8.toNat_toUInt32, e0]
    exact Nat.mod_eq_of_lt (by omega)
  have e1 : (0x10000 : UInt32).toNat = 65536 := rfl
  have e2 : (0x100 : UInt32).toNat = 256 := rfl
  simp only [encode32, List.cons.injEq, and_true, ← UInt8.toNat_inj, UInt32.toNat_toUInt8,
    UInt32.toNat_div, n, e0, e1, e2]
  refine ⟨?_, ?_, ?_, ?_⟩
  · omega
  · change v.toNat * 16777216 / 65536 % 256 = 0
    omega
  · change v.toNat * 16777216 / 256 % 256 = 0
    omega
  · change v.toNat * 16777216 % 256 = 0
    omega

namespace PmuRecord

def withCfgcnt (r : PmuRecord) (v : UInt8) : PmuRecord := { r with cfgcnt := v.toUInt16 * 256 }

def withPhasorType (r : PmuRecord) (v : UInt8) : PmuRecord :=
  { r with
    phasors := r.phasors.modifyHead (fun ch => { ch with phunit := v.toUInt32 * 0x1000000 })
    phasors_lt := by simpa using r.phasors_lt }

def withAnalogType (r : PmuRecord) (v : UInt8) : PmuRecord :=
  { r with
    analogs := r.analogs.modifyHead (fun ch => { ch with anunit := v.toUInt32 * 0x1000000 })
    analogs_lt := by simpa using r.analogs_lt }

theorem layout_withPhasorType (r : PmuRecord) (v : UInt8) :
    (r.withPhasorType v).layout = r.layout := by
  simp [layout, withPhasorType]

theorem layout_withAnalogType (r : PmuRecord) (v : UInt8) :
    (r.withAnalogType v).layout = r.layout := by
  simp [layout, withAnalogType]

theorem withCfgcnt_varies (r : PmuRecord) :
    VariesAt (r.layout.recordSize - 2) (fun v => (r.withCfgcnt v).encode) := by
  refine ⟨r.encodeHead ++ r.phasors.flatMap (fun ch => ch.name.toList) ++
    r.analogs.flatMap (fun ch => ch.name.toList) ++ r.digitals.flatMap DigitalWord.encodeNames ++
    r.phasors.flatMap (fun ch => encode32 ch.phunit) ++
    r.analogs.flatMap (fun ch => encode32 ch.anunit) ++
    r.digitals.flatMap DigitalWord.encodeUnit ++ encode16 r.fnom, [0], ?_, fun v => ?_⟩
  · simp only [List.length_append, encodeHead_length, phasorNames_length, analogNames_length,
      digitalNames_length, phunits_length, anunits_length, digunits_length, encode16_length,
      Layout.recordSize, layout]
    omega
  · simp only [encode, withCfgcnt, encode16_high]
    rfl

theorem withPhasorType_varies {r : PmuRecord} (any : r.layout.phasors ≠ 0) :
    VariesAt (r.layout.phunits 26) (fun v => (r.withPhasorType v).encode) := by
  obtain ⟨ch, rest, hphasors⟩ := List.exists_cons_of_ne_nil (List.ne_nil_of_length_pos
    (Nat.pos_of_ne_zero any))
  refine ⟨r.encodeHead ++ r.phasors.flatMap (fun ch => ch.name.toList) ++
    r.analogs.flatMap (fun ch => ch.name.toList) ++ r.digitals.flatMap DigitalWord.encodeNames,
    [0, 0, 0] ++ rest.flatMap (fun ch => encode32 ch.phunit) ++
    r.analogs.flatMap (fun ch => encode32 ch.anunit) ++
    r.digitals.flatMap DigitalWord.encodeUnit ++ encode16 r.fnom ++ encode16 r.cfgcnt,
    ?_, fun v => ?_⟩
  · simp only [List.length_append, encodeHead_length, phasorNames_length, analogNames_length,
      digitalNames_length, Layout.phunits, layout]
    omega
  · have head : (r.withPhasorType v).encodeHead = r.encodeHead := by
      simp [encodeHead, encodeCount, withPhasorType]
    simp only [encode, head]
    simp only [withPhasorType, hphasors, List.modifyHead_cons, List.flatMap_cons, encode32_high,
      List.append_assoc, List.cons_append, List.nil_append]

theorem withAnalogType_varies {r : PmuRecord} (any : r.layout.analogs ≠ 0) :
    VariesAt (r.layout.anunits (26 + 16 * r.layout.phasors))
      (fun v => (r.withAnalogType v).encode) := by
  obtain ⟨ch, rest, hanalogs⟩ := List.exists_cons_of_ne_nil (List.ne_nil_of_length_pos
    (Nat.pos_of_ne_zero any))
  refine ⟨r.encodeHead ++ r.phasors.flatMap (fun ch => ch.name.toList) ++
    r.analogs.flatMap (fun ch => ch.name.toList) ++ r.digitals.flatMap DigitalWord.encodeNames ++
    r.phasors.flatMap (fun ch => encode32 ch.phunit),
    [0, 0, 0] ++ rest.flatMap (fun ch => encode32 ch.anunit) ++
    r.digitals.flatMap DigitalWord.encodeUnit ++ encode16 r.fnom ++ encode16 r.cfgcnt,
    ?_, fun v => ?_⟩
  · simp only [List.length_append, encodeHead_length, phasorNames_length, analogNames_length,
      digitalNames_length, phunits_length, Layout.anunits, layout]
    omega
  · have head : (r.withAnalogType v).encodeHead = r.encodeHead := by
      simp [encodeHead, encodeCount, withAnalogType]
    simp only [encode, head]
    simp only [withAnalogType, hanalogs, List.modifyHead_cons, List.flatMap_cons, encode32_high,
      List.append_assoc, List.cons_append, List.nil_append]

end PmuRecord

namespace Cfg2

def shape (f : Cfg2) : List Layout := f.records.map PmuRecord.layout

def recordStart (shape : List Layout) (i : ℕ) : ℕ :=
  20 + ((shape.take i).map Layout.recordSize).sum

/-- The configuration with another record `i` and another low byte of DATA_RATE. -/
def withRecord (f : Cfg2) (i : ℕ) (r : PmuRecord) (d : UInt8) : Cfg2 :=
  { f with
    records := f.records.set i r
    dataRate := d.toUInt16
    records_lt := by simpa using f.records_lt }

theorem partOffset_shape (f : Cfg2) (i : ℕ) :
    20 + partOffset PmuRecord.encode f.records i = recordStart f.shape i := by
  simp only [partOffset, recordStart, shape, ← List.map_take, List.map_map, record_length]
  rfl

theorem size_shape (f : Cfg2) : f.size = 4 + recordStart f.shape f.records.length := by
  rw [← partOffset_shape, partOffset_length, size]
  omega

theorem size_of_sameShape {f g : Cfg2} (h : g.shape = f.shape) : g.size = f.size := by
  have length : g.records.length = f.records.length := by
    simpa [shape] using congrArg List.length h
  rw [size_shape, size_shape, h, length]

theorem shape_withRecord {f : Cfg2} {i : ℕ} {r r' : PmuRecord} (hr : f.records[i]? = some r)
    (same : r'.layout = r.layout) (d : UInt8) : (f.withRecord i r' d).shape = f.shape := by
  obtain ⟨hi, rfl⟩ := List.getElem?_eq_some_iff.1 hr
  rw [shape, withRecord, List.map_set, same, ← List.map_set, List.set_getElem_self]
  rfl

theorem withRecord_varies {f : Cfg2} {i off : ℕ} {r : PmuRecord} {variant : UInt8 → PmuRecord}
    (hr : f.records[i]? = some r) (same : ∀ v, (variant v).layout = r.layout)
    (varies : VariesAt off (fun v => (variant v).encode)) :
    ∃ enc, VariesAt (recordStart f.shape i + off) enc ∧
      ∀ v d, (f.withRecord i (variant v) d).encode = appendChk (enc v ++ [d]) := by
  have hi := (List.getElem?_eq_some_iff.1 hr).choose
  refine ⟨fun v => (f.encodeHead ++ (f.records.take i).flatMap PmuRecord.encode) ++
    (((variant v).encode ++ (f.records.drop (i + 1)).flatMap PmuRecord.encode) ++ [0]), ?_, ?_⟩
  · have h := ((varies.append ((f.records.drop (i + 1)).flatMap PmuRecord.encode)).append
      [0]).prepend (f.encodeHead ++ (f.records.take i).flatMap PmuRecord.encode)
    have length : (f.encodeHead ++ (f.records.take i).flatMap PmuRecord.encode).length =
        recordStart f.shape i := by
      rw [List.length_append, cfgHead_length, List.length_flatMap, ← partOffset_shape]
      rfl
    rwa [length] at h
  · intro v d
    have size := size_of_sameShape (shape_withRecord hr (same v) d)
    have head : (f.withRecord i (variant v) d).encodeHead = f.encodeHead := by
      rw [encodeHead, encodeHead, size]
      simp only [withRecord, encodeCount, List.length_set]
    have rate := encode16_low d
    rw [encode, encodeBody, head]
    simp only [withRecord, List.set_eq_take_append_cons_drop, if_pos hi, List.flatMap_append,
      List.flatMap_cons, rate, List.append_assoc]
    rfl

end Cfg2

theorem roundTrips_record {g : Cfg2} (fits : g.size ≤ BUFER_LENGTH) (h : g.RoundTrips F) {i : ℕ}
    {r : PmuRecord} (hr : g.records[i]? = some r) :
    (recordAt (declaredAt g.buffer.byte 20) g.buffer.byte (recordPos g.buffer.byte 20 i) :
      Configuration F).Carries r := by
  obtain ⟨self', run, count, _, _, carries⟩ :=
    h { Client.fresh 0 0 [] [] with idcode := g.idcode } rfl
  have large : 24 ≤ g.size := Nat.le_add_right _ _
  have small := fits_lt fits
  rcases (parseConfigurationFrame_iff _ _ g.size (by omega) (by omega) _).1 run with
    ⟨_, hr'⟩ | ⟨_, hr'⟩
  · cases hr'
    have hi := (List.getElem?_eq_some_iff.1 hr).choose
    rw [List.forall₂_iff_get] at carries
    have lt : i < (word16 g.buffer.byte 18).toNat := by
      change (word16 g.buffer.byte 18).toNat = _ at count
      omega
    have each := carries.2 i (by simpa [Client.storeConfiguration, configurationAt] using lt) hi
    simpa [Client.storeConfiguration, configurationAt, (List.getElem?_eq_some_iff.1 hr).choose_spec]
      using each
  · simp at hr'

theorem layout_of_shape {f g : Cfg2} (same : g.shape = f.shape) {i : ℕ} {r r' : PmuRecord}
    (hr : f.records[i]? = some r) (hr' : g.records[i]? = some r') : r'.layout = r.layout := by
  have h := congrArg (fun l => l[i]?) same
  simpa [Cfg2.shape, hr, hr'] using h

theorem recordAt_first_phasor {first : Layout} {m : ℕ → UInt8} {p : ℕ}
    (own : (declaredAt m p).phasors ≠ 0) (any : first.phasors ≠ 0) :
    (recordAt first m p : Configuration F).phasor[0]? =
      some (Phasor.storePhunit first.phasorIsFloatingPoint m (first.phunits (p + 26))
        { Phasor.zero with channelName := nameAt m (p + 26) }) := by
  simp only [recordAt]
  rw [if_pos own, phasorsAt, List.getElem?_map, List.getElem?_range (by omega)]
  rfl

theorem recordAt_first_analog {first : Layout} {m : ℕ → UInt8} {p : ℕ}
    (own : (declaredAt m p).analogs ≠ 0) (any : first.analogs ≠ 0) :
    (recordAt first m p : Configuration F).analog[0]? =
      some (Analog.storeAnunit m (first.anunits (p + 26 + 16 * first.phasors))
        { Analog.zero with channelName := nameAt m (p + 26 + 16 * first.phasors) }) := by
  simp only [recordAt]
  rw [if_pos own, analogsAt, List.getElem?_map, List.getElem?_range (by omega)]
  rfl

theorem typeByte_high (v : UInt8) : (v.toUInt32 * 0x1000000 / 0x1000000).toUInt8 = v :=
  (List.cons.inj (encode32_high v)).1

theorem withPhasorType_first {r : PmuRecord} (any : r.layout.phasors ≠ 0) (v : UInt8) :
    ∃ ch, (r.withPhasorType v).phasors[0]? = some ch ∧ ch.phunit = v.toUInt32 * 0x1000000 := by
  obtain ⟨ch, rest, h⟩ := List.exists_cons_of_ne_nil (List.ne_nil_of_length_pos
    (Nat.pos_of_ne_zero any))
  exact ⟨{ ch with phunit := v.toUInt32 * 0x1000000 }, by simp [PmuRecord.withPhasorType, h], rfl⟩

theorem withAnalogType_first {r : PmuRecord} (any : r.layout.analogs ≠ 0) (v : UInt8) :
    ∃ ch, (r.withAnalogType v).analogs[0]? = some ch ∧ ch.anunit = v.toUInt32 * 0x1000000 := by
  obtain ⟨ch, rest, h⟩ := List.exists_cons_of_ne_nil (List.ne_nil_of_length_pos
    (Nat.pos_of_ne_zero any))
  exact ⟨{ ch with anunit := v.toUInt32 * 0x1000000 }, by simp [PmuRecord.withAnalogType, h], rfl⟩

/-! The first record that could break the shape: all records in front of record `i` of
    `f` have the counts of the first one, and all contents of this shape round-trip. -/

section
variable {f : Cfg2} {i : ℕ} {r first : PmuRecord}

theorem record_carries (fits : f.size ≤ BUFER_LENGTH) (hr : f.records[i]? = some r)
    (hfirst : f.records[0]? = some first)
    (before : ∀ k < i, ∀ r', f.records[k]? = some r' → r'.layout.SameCounts first.layout)
    {g : Cfg2} (same : g.shape = f.shape) (h : g.RoundTrips F) {r' : PmuRecord}
    (hr' : g.records[i]? = some r') :
    (recordAt first.layout g.buffer.byte (Cfg2.recordStart f.shape i) :
      Configuration F).Carries r' := by
  have gfits : g.size ≤ BUFER_LENGTH := by rwa [Cfg2.size_of_sameShape same]
  have records := (frame_parts (buffer_holds gfits)).2.1
  have hi := (List.getElem?_eq_some_iff.1 hr').choose
  have fhi := (List.getElem?_eq_some_iff.1 hr).choose
  have hfirst' : g.records[0]? = some g.records[0] := List.getElem?_eq_getElem (by omega)
  have head : declaredAt g.buffer.byte 20 = first.layout := by
    rw [← layout_of_shape same hfirst hfirst']
    exact (declaredAt_of_holds (record_of_holds records hfirst')).1
  have counts : SameCountsThroughout g.buffer.byte 20 i := by
    intro k hk
    have hk' : g.records[k]? = some g.records[k] := List.getElem?_eq_getElem (by omega)
    have hkf : f.records[k]? = some f.records[k] := List.getElem?_eq_getElem (by omega)
    rw [(declaredAt_of_holds (record_of_holds records hk')).1, head, layout_of_shape same hkf hk']
    exact before k hk _ hkf
  have start : recordPos g.buffer.byte 20 i = Cfg2.recordStart f.shape i := by
    rw [recordPos_eq_formatPos counts (le_refl i), formatPos_of_holds records (by omega),
      Cfg2.partOffset_shape, same]
  have carries := roundTrips_record (F := F) gfits h hr'
  rwa [start, head] at carries

/-- A place that is not the varying byte's own does not follow that byte. -/
theorem wrong_place (fits : f.size ≤ BUFER_LENGTH) (hr : f.records[i]? = some r) {off z : ℕ}
    {variant : UInt8 → PmuRecord} (same : ∀ v, (variant v).layout = r.layout)
    (varies : VariesAt off (fun v => (variant v).encode))
    (follows : ∀ v d, (f.withRecord i (variant v) d).buffer.byte z = 0 ↔ v = 0) :
    z = Cfg2.recordStart f.shape i + off := by
  by_contra hz
  obtain ⟨enc, hvaries, henc⟩ := Cfg2.withRecord_varies hr same varies
  apply other_byte_does_not_follow hvaries hz
  intro v d
  have length : (f.withRecord i (variant v) d).encode.length ≤ BUFER_LENGTH := by
    rwa [encode_length, Cfg2.size_of_sameShape (Cfg2.shape_withRecord hr (same v) d)]
  rw [← follows v d, Cfg2.buffer, zeroFilled_getD length, henc]

variable (fits : f.size ≤ BUFER_LENGTH) (hr : f.records[i]? = some r)
  (hfirst : f.records[0]? = some first)
  (before : ∀ k < i, ∀ r', f.records[k]? = some r' → r'.layout.SameCounts first.layout)
  (all : ∀ g : Cfg2, g.shape = f.shape → g.RoundTrips F)

include fits hr hfirst before all

theorem variant_carries {r' : PmuRecord} (same : r'.layout = r.layout) (d : UInt8) :
    (recordAt first.layout (f.withRecord i r' d).buffer.byte (Cfg2.recordStart f.shape i) :
      Configuration F).Carries r' := by
  have shape := Cfg2.shape_withRecord hr same d
  have hi := (List.getElem?_eq_some_iff.1 hr).choose
  apply record_carries fits hr hfirst before shape (all _ shape)
  exact List.getElem?_set_self hi

theorem followsCounts_of_all : r.layout.FollowsCounts first.layout := by
  have carries := record_carries fits hr hfirst before rfl (all f rfl) hr
  rw [← carries.layout]
  exact (recordAt_arraysMatch_iff _ _ _).1 carries.arraysMatch

theorem names_of_all : first.layout.phasors + first.layout.analogs =
    r.layout.phasors + r.layout.analogs := by
  have place : fnomAt first.layout r.layout (Cfg2.recordStart f.shape i) + 2 =
      Cfg2.recordStart f.shape i + (r.layout.recordSize - 2) := by
    refine wrong_place fits hr ?_ r.withCfgcnt_varies ?_
    · exact fun v => rfl
    intro v d
    have same : (r.withCfgcnt v).layout = r.layout := rfl
    have carries := variant_carries fits hr hfirst before all same d
    have own : declaredAt (f.withRecord i (r.withCfgcnt v) d).buffer.byte
        (Cfg2.recordStart f.shape i) = r.layout := carries.layout
    have word : word16 _ (fnomAt first.layout (declaredAt _ _) _ + 2) = v.toUInt16 * 256 :=
      carries.cfgCnt
    rw [own] at word
    rw [byte_of_word16_high word]
  unfold fnomAt Layout.recordSize at place
  omega

theorem phunits_of_all (counts : r.layout.FollowsCounts first.layout)
    (any : r.layout.phasors ≠ 0) : first.layout.phunits 26 = r.layout.phunits 26 := by
  have place : first.layout.phunits (Cfg2.recordStart f.shape i + 26) =
      Cfg2.recordStart f.shape i + r.layout.phunits 26 := by
    refine wrong_place fits hr ?_ (PmuRecord.withPhasorType_varies any) ?_
    · exact r.layout_withPhasorType
    intro v d
    have carries := variant_carries fits hr hfirst before all (r.layout_withPhasorType v) d
    have own := carries.layout.trans (r.layout_withPhasorType v)
    rw [layout_recordAt] at own
    obtain ⟨ch, hch, hunit⟩ := withPhasorType_first any v
    have types := congrArg (fun l => l[0]?) carries.phasorTypes
    simp only [List.getElem?_map, hch] at types
    rw [recordAt_first_phasor (by rwa [own]) (by rw [← counts.1.resolve_left any]; exact any)]
      at types
    have byte := Option.some.inj types
    rw [Phasor.storePhunit, setVorI_eq rfl, PhasorChannel.isVoltage, hunit, typeByte_high] at byte
    simpa using byte
  unfold Layout.phunits at place ⊢
  omega

theorem anunits_of_all (counts : r.layout.FollowsCounts first.layout)
    (any : r.layout.analogs ≠ 0) : first.layout.anunits (16 * first.layout.phasors) =
      r.layout.anunits (16 * r.layout.phasors) := by
  have place : first.layout.anunits
      (Cfg2.recordStart f.shape i + 26 + 16 * first.layout.phasors) =
      Cfg2.recordStart f.shape i + r.layout.anunits (26 + 16 * r.layout.phasors) := by
    refine wrong_place fits hr ?_ (PmuRecord.withAnalogType_varies any) ?_
    · exact r.layout_withAnalogType
    intro v d
    have carries := variant_carries fits hr hfirst before all (r.layout_withAnalogType v) d
    have own := carries.layout.trans (r.layout_withAnalogType v)
    rw [layout_recordAt] at own
    obtain ⟨ch, hch, hunit⟩ := withAnalogType_first any v
    have types := congrArg (fun l => l[0]?) carries.analogTypes
    simp only [List.getElem?_map, hch] at types
    rw [recordAt_first_analog (by rwa [own]) (by rw [← counts.2.1.resolve_left any]; exact any)]
      at types
    have byte := Option.some.inj types
    simp only [Analog.storeAnunit, AnalogChannel.analogType, hunit, typeByte_high] at byte
    rw [byte]
  unfold Layout.anunits at place ⊢
  omega

/-- A first record with floating-point phasors hides the factors of integer phasors. -/
theorem factorsRead_of_all (distinct : (scalePhunit 0 : F) ≠ FloatArith.ofInt 1)
    (counts : r.layout.FollowsCounts first.layout) : r.layout.FactorsRead first.layout := by
  by_contra unread
  obtain ⟨any, integer, hidden⟩ : r.layout.phasors ≠ 0 ∧ ¬ r.layout.phasorIsFloatingPoint ∧
      first.layout.phasorIsFloatingPoint := by
    simpa only [Layout.FactorsRead, not_or, not_not] using unread
  have carries := variant_carries fits hr hfirst before all (r.layout_withPhasorType 0) 0
  have own := carries.layout.trans (r.layout_withPhasorType 0)
  rw [layout_recordAt] at own
  obtain ⟨ch, hch, hunit⟩ := withPhasorType_first any 0
  have factors := congrArg (fun l => l[0]?)
    (carries.phasorFactors (by rwa [r.layout_withPhasorType]))
  simp only [List.getElem?_map, hch] at factors
  rw [recordAt_first_phasor (by rwa [own]) (by rw [← counts.1.resolve_left any]; exact any)]
    at factors
  have factor := Option.some.inj factors
  have blank : (0 : UInt8).toUInt32 * 0x1000000 % 0x1000000 = 0 := by decide
  simp only [Phasor.storePhunit, PhasorChannel.factor, hunit, hidden, if_true, blank] at factor
  exact distinct factor.symm

theorem sameCounts_of_all : r.layout.SameCounts first.layout := by
  have counts := followsCounts_of_all fits hr hfirst before all
  have names := names_of_all fits hr hfirst before all
  have phunits := phunits_of_all fits hr hfirst before all counts
  have anunits := anunits_of_all fits hr hfirst before all counts
  obtain ⟨phasors, analogs, digitals⟩ := counts
  unfold Layout.phunits at phunits
  unfold Layout.anunits at anunits
  have samePhasors : r.layout.phasors = first.layout.phasors := by omega
  have sameAnalogs : r.layout.analogs = first.layout.analogs := by omega
  refine ⟨samePhasors, sameAnalogs, ?_⟩
  by_cases absent : r.layout.phasors = 0 ∧ r.layout.analogs = 0
  · rcases digitals with zero | same
    · exact .inr ⟨absent.1, absent.2, zero⟩
    · exact .inl same
  · left
    omega

end

/-- All contents of a shape round-trip exactly if the shape is uniform. -/
theorem all_roundTrip_iff_uniform (distinct : (scalePhunit 0 : F) ≠ FloatArith.ofInt 1) (f : Cfg2)
    (fits : f.size ≤ BUFER_LENGTH) :
    (∀ g : Cfg2, g.shape = f.shape → g.RoundTrips F) ↔ f.Uniform := by
  constructor
  · intro all first hfirst
    have each : ∀ (i : ℕ) (r : PmuRecord), f.records[i]? = some r →
        r.layout.SameCounts first.layout := by
      intro i
      induction i using Nat.strong_induction_on with
      | _ i ih =>
        intro r hr
        exact sameCounts_of_all fits hr hfirst ih all
    intro r hr
    obtain ⟨i, hi⟩ := List.getElem?_of_mem hr
    have before : ∀ k < i, ∀ r', f.records[k]? = some r' → r'.layout.SameCounts first.layout :=
      fun k _ => each k
    exact ⟨each i r hi, factorsRead_of_all fits hi hfirst before all distinct
      (followsCounts_of_all fits hi hfirst before all)⟩
  · intro uniform g same
    have gfits : g.size ≤ BUFER_LENGTH := by rwa [Cfg2.size_of_sameShape same]
    apply roundTrips_of_uniform gfits
    intro first hfirst r hr
    obtain ⟨i, hi⟩ := List.getElem?_of_mem hr
    have length : g.records.length = f.records.length := by
      simpa [Cfg2.shape] using congrArg List.length same
    have lt := (List.getElem?_eq_some_iff.1 hi).choose
    have hi' : f.records[i]? = some f.records[i] := List.getElem?_eq_getElem (by omega)
    have hfirst' : f.records[0]? = some f.records[0] := List.getElem?_eq_getElem (by omega)
    rw [layout_of_shape same hi' hi, layout_of_shape same hfirst' hfirst]
    exact uniform _ hfirst' _ (List.getElem_mem _)

section
attribute [local instance] ExactRational.platform

def phasorRecord (idCode : UInt16) (phasors : List PhasorChannel)
    (phasors_lt : phasors.length < 2 ^ 16) : PmuRecord :=
  { stationName := List.Vector.replicate 16 32
    idCode
    format := 0
    phasors
    analogs := []
    digitals := []
    fnom := 1
    cfgcnt := 1
    phasors_lt
    analogs_lt := by decide
    digitals_lt := by decide }

def voltage : PhasorChannel := ⟨List.Vector.replicate 16 86, 1⟩

def sentRecords (records : List PmuRecord) (records_lt : records.length < 2 ^ 16) : Cfg2 :=
  ⟨7, 0, 0, 1000, records, 50, records_lt⟩

def sentUnequal : Cfg2 :=
  sentRecords [phasorRecord 7 [] (by decide), phasorRecord 8 [voltage] (by decide)] (by decide)

def sentEqual : Cfg2 :=
  sentRecords [phasorRecord 7 [voltage] (by decide), phasorRecord 8 [voltage] (by decide)]
    (by decide)

theorem unequal_counts_do_not_round_trip :
    sentUnequal.size = 104 ∧ ¬ sentUnequal.RoundTrips ℚ := by
  refine ⟨by decide +kernel, ?_⟩
  intro h
  have carries := roundTrips_record (F := ℚ) (by decide +kernel) h (i := 1) rfl
  exact absurd carries.arraysMatch (by decide +kernel)

theorem equal_counts_round_trip : sentEqual.RoundTrips ℚ := by
  have same : ∀ r ∈ sentEqual.records,
      r.layout = (phasorRecord 7 [voltage] (by decide)).layout := by
    decide +kernel
  have uniform : sentEqual.Uniform := by
    intro first hfirst r hr
    rw [same r hr, same first (List.mem_of_getElem? hfirst)]
    exact ⟨Layout.SameCounts.refl _, by decide +kernel⟩
  exact (all_roundTrip_iff_uniform (by decide +kernel) sentEqual (by decide +kernel)).2 uniform
    sentEqual rfl

end
end Khorjin
