import Khorjin.ByteLayout
import Khorjin.RecordWalk

set_option autoImplicit false

/-!
# The configuration frame that a PMU or PDC sends

An abstract CFG-2 configuration and its encoding in the frame layout. This is the
sender's side, which the client has no code for.
-/
namespace Khorjin
open ByteMemory LoopRules

abbrev SentName := List.Vector UInt8 16

structure PhasorChannel where
  name : SentName
  phunit : UInt32

structure AnalogChannel where
  name : SentName
  anunit : UInt32

structure DigitalWord where
  names : Fin 16 → SentName
  mask : UInt16
  valid : UInt16

structure PmuRecord where
  stationName : SentName
  idCode : UInt16
  format : UInt16
  phasors : List PhasorChannel
  analogs : List AnalogChannel
  digitals : List DigitalWord
  fnom : UInt16
  cfgcnt : UInt16
  phasors_lt : phasors.length < 2 ^ 16
  analogs_lt : analogs.length < 2 ^ 16
  digitals_lt : digitals.length < 2 ^ 16

structure Cfg2 where
  idcode : UInt16
  soc : UInt32
  fracsec : UInt32
  timeBase : UInt32
  records : List PmuRecord
  dataRate : UInt16
  records_lt : records.length < 2 ^ 16

def encode16 (w : UInt16) : List UInt8 := [(w / 256).toUInt8, w.toUInt8]

def encode32 (w : UInt32) : List UInt8 :=
  [(w / 0x1000000).toUInt8, (w / 0x10000).toUInt8, (w / 0x100).toUInt8, w.toUInt8]

def encodeCount {α : Type} (xs : List α) : List UInt8 := encode16 (UInt16.ofNat xs.length)

def DigitalWord.encodeNames (d : DigitalWord) : List UInt8 :=
  (List.ofFn d.names).flatMap (fun name => name.toList)

def DigitalWord.encodeUnit (d : DigitalWord) : List UInt8 := encode16 d.mask ++ encode16 d.valid

namespace PmuRecord

def encodeHead (r : PmuRecord) : List UInt8 :=
  r.stationName.toList ++ encode16 r.idCode ++ encode16 r.format ++ encodeCount r.phasors ++
    encodeCount r.analogs ++ encodeCount r.digitals

def encode (r : PmuRecord) : List UInt8 :=
  r.encodeHead ++ r.phasors.flatMap (fun ch => ch.name.toList) ++
    r.analogs.flatMap (fun ch => ch.name.toList) ++ r.digitals.flatMap DigitalWord.encodeNames ++
    r.phasors.flatMap (fun ch => encode32 ch.phunit) ++
    r.analogs.flatMap (fun ch => encode32 ch.anunit) ++
    r.digitals.flatMap DigitalWord.encodeUnit ++ encode16 r.fnom ++ encode16 r.cfgcnt

/-- The layout that the record's FORMAT word and counts describe. -/
def layout (r : PmuRecord) : Layout where
  phasorIsFloatingPoint := r.format &&& 0x2 == 0x2
  phasorIsPolar := r.format &&& 0x1 == 0x1
  freqIsFloatingPoint := r.format &&& 0x8 == 0x8
  analogIsFloatingPoint := r.format &&& 0x4 == 0x4
  phasors := r.phasors.length
  analogs := r.analogs.length
  digitals := r.digitals.length

end PmuRecord

namespace Cfg2

def size (f : Cfg2) : ℕ := 24 + (f.records.flatMap PmuRecord.encode).length

def encodeHead (f : Cfg2) : List UInt8 :=
  [0xAA, 0x31] ++ encode16 (UInt16.ofNat f.size) ++ encode16 f.idcode ++ encode32 f.soc ++
    encode32 f.fracsec ++ encode32 f.timeBase ++ encodeCount f.records

def encodeBody (f : Cfg2) : List UInt8 :=
  f.encodeHead ++ f.records.flatMap PmuRecord.encode ++ encode16 f.dataRate

def encode (f : Cfg2) : List UInt8 := appendChk f.encodeBody

end Cfg2

@[simp] theorem encode16_length (w : UInt16) : (encode16 w).length = 2 := rfl

@[simp] theorem encode32_length (w : UInt32) : (encode32 w).length = 4 := rfl

@[simp] theorem encodeCount_length {α : Type} (xs : List α) : (encodeCount xs).length = 2 := rfl

theorem sentName_length (name : SentName) : name.toList.length = 16 := name.toList_length

@[simp] theorem encodeNames_length (d : DigitalWord) : d.encodeNames.length = 256 := by
  rw [DigitalWord.encodeNames, flatMap_length_uniform _ sentName_length, List.length_ofFn]

@[simp] theorem encodeUnit_length (d : DigitalWord) : d.encodeUnit.length = 4 := rfl

@[simp] theorem phasorNames_length (xs : List PhasorChannel) :
    (xs.flatMap (fun ch => ch.name.toList)).length = 16 * xs.length :=
  flatMap_length_uniform _ (fun ch => sentName_length ch.name) xs

@[simp] theorem analogNames_length (xs : List AnalogChannel) :
    (xs.flatMap (fun ch => ch.name.toList)).length = 16 * xs.length :=
  flatMap_length_uniform _ (fun ch => sentName_length ch.name) xs

@[simp] theorem digitalNames_length (xs : List DigitalWord) :
    (xs.flatMap DigitalWord.encodeNames).length = 256 * xs.length :=
  flatMap_length_uniform _ encodeNames_length xs

@[simp] theorem phunits_length (xs : List PhasorChannel) :
    (xs.flatMap (fun ch => encode32 ch.phunit)).length = 4 * xs.length :=
  flatMap_length_uniform (fun ch : PhasorChannel => encode32 ch.phunit)
    (fun ch => encode32_length ch.phunit) xs

@[simp] theorem anunits_length (xs : List AnalogChannel) :
    (xs.flatMap (fun ch => encode32 ch.anunit)).length = 4 * xs.length :=
  flatMap_length_uniform (fun ch : AnalogChannel => encode32 ch.anunit)
    (fun ch => encode32_length ch.anunit) xs

@[simp] theorem digunits_length (xs : List DigitalWord) :
    (xs.flatMap DigitalWord.encodeUnit).length = 4 * xs.length :=
  flatMap_length_uniform _ encodeUnit_length xs

@[simp] theorem encodeHead_length (r : PmuRecord) : r.encodeHead.length = 26 := by
  simp [PmuRecord.encodeHead]

theorem record_length (r : PmuRecord) : r.encode.length = r.layout.recordSize := by
  simp only [PmuRecord.encode, List.length_append, encodeHead_length, phasorNames_length,
    analogNames_length, digitalNames_length, phunits_length, anunits_length, digunits_length,
    encode16_length, Layout.recordSize, PmuRecord.layout]
  omega

@[simp] theorem cfgHead_length (f : Cfg2) : f.encodeHead.length = 20 := rfl

theorem body_length (f : Cfg2) : f.encodeBody.length = f.size - 2 := by
  simp only [Cfg2.encodeBody, List.length_append, cfgHead_length, encode16_length, Cfg2.size]
  omega

theorem appendChk_length (body : List UInt8) : (appendChk body).length = body.length + 2 := by
  simp [appendChk]

theorem encode_length (f : Cfg2) : f.encode.length = f.size := by
  rw [Cfg2.encode, appendChk_length, body_length, Cfg2.size]
  omega

theorem word16_of_holds {m : ℕ → UInt8} {p : ℕ} {w : UInt16} (h : Holds m p (encode16 w)) :
    word16 m p = w := by
  simp only [encode16, holds_cons_iff] at h
  obtain ⟨h0, h1, _⟩ := h
  apply UInt16.toNat_inj.1
  rw [word16_toNat, h0, h1]
  simp only [UInt16.toNat_toUInt8, UInt16.toNat_div]
  have := w.toNat_lt
  change w.toNat / 256 % 256 * 256 + w.toNat % 256 = w.toNat
  omega

theorem word16_of_holdsCount {α : Type} {m : ℕ → UInt8} {p : ℕ} {xs : List α}
    (h : Holds m p (encodeCount xs)) (lt : xs.length < 2 ^ 16) :
    (word16 m p).toNat = xs.length := by
  rw [word16_of_holds h]
  exact Nat.mod_eq_of_lt lt

theorem word24_toNat (m : ℕ → UInt8) (p : ℕ) : (word24 m p).toNat =
    (m p).toNat * 65536 + (m (p + 1)).toNat * 256 + (m (p + 2)).toNat := by
  have h0 := (m p).toNat_lt
  have h1 := (m (p + 1)).toNat_lt
  have h2 := (m (p + 2)).toNat_lt
  simp only [word24, UInt32.toNat_add, UInt32.toNat_mul, UInt8.toNat_toUInt32]
  change (((m p).toNat * 65536 % 2 ^ 32 + (m (p + 1)).toNat * 256 % 2 ^ 32) % 2 ^ 32 +
    (m (p + 2)).toNat) % 2 ^ 32 = _
  omega

theorem word32_toNat (m : ℕ → UInt8) (p : ℕ) : (word32 m p).toNat =
    (m p).toNat * 16777216 + (m (p + 1)).toNat * 65536 + (m (p + 2)).toNat * 256 +
      (m (p + 3)).toNat := by
  have h0 := (m p).toNat_lt
  have h1 := (m (p + 1)).toNat_lt
  have h2 := (m (p + 2)).toNat_lt
  have h3 := (m (p + 3)).toNat_lt
  simp only [word32, UInt32.toNat_add, UInt32.toNat_mul, UInt8.toNat_toUInt32]
  change ((((m p).toNat * 16777216 % 2 ^ 32 + (m (p + 1)).toNat * 65536 % 2 ^ 32) % 2 ^ 32 +
    (m (p + 2)).toNat * 256 % 2 ^ 32) % 2 ^ 32 + (m (p + 3)).toNat) % 2 ^ 32 = _
  omega

theorem encode32_bytes {m : ℕ → UInt8} {p : ℕ} {w : UInt32} (h : Holds m p (encode32 w)) :
    (m p).toNat = w.toNat / 16777216 ∧ (m (p + 1)).toNat = w.toNat / 65536 % 256 ∧
      (m (p + 2)).toNat = w.toNat / 256 % 256 ∧ (m (p + 3)).toNat = w.toNat % 256 := by
  simp only [encode32, holds_cons_iff] at h
  obtain ⟨h0, h1, h2, h3, _⟩ := h
  rw [h0, h1, h2, h3]
  have lt := w.toNat_lt
  have e0 : (0x1000000 : UInt32).toNat = 16777216 := rfl
  have e1 : (0x10000 : UInt32).toNat = 65536 := rfl
  have e2 : (0x100 : UInt32).toNat = 256 := rfl
  simp only [UInt32.toNat_toUInt8, UInt32.toNat_div, e0, e1, e2, and_self, and_true]
  exact Nat.mod_eq_of_lt (by omega)

theorem word32_of_holds {m : ℕ → UInt8} {p : ℕ} {w : UInt32} (h : Holds m p (encode32 w)) :
    word32 m p = w := by
  obtain ⟨h0, h1, h2, h3⟩ := encode32_bytes h
  apply UInt32.toNat_inj.1
  rw [word32_toNat, h0, h1, h2, h3]
  have := w.toNat_lt
  omega

/-- The low 24 bits of a unit word. -/
theorem word24_of_holds {m : ℕ → UInt8} {p : ℕ} {w : UInt32} (h : Holds m p (encode32 w)) :
    word24 m (p + 1) = w % 0x1000000 := by
  obtain ⟨_, h1, h2, h3⟩ := encode32_bytes h
  apply UInt32.toNat_inj.1
  rw [word24_toNat, h1, h2, h3, UInt32.toNat_mod]
  change _ = w.toNat % 16777216
  omega

theorem record_parts {m : ℕ → UInt8} {p : ℕ} {r : PmuRecord} (h : Holds m p r.encode) :
    Holds m p r.encodeHead ∧
    Holds m (p + 26) (r.phasors.flatMap (fun ch => ch.name.toList)) ∧
    Holds m (p + 26 + 16 * r.phasors.length) (r.analogs.flatMap (fun ch => ch.name.toList)) ∧
    Holds m (p + 26 + 16 * r.phasors.length + 16 * r.analogs.length)
      (r.digitals.flatMap DigitalWord.encodeNames) ∧
    Holds m (r.layout.phunits (p + 26)) (r.phasors.flatMap (fun ch => encode32 ch.phunit)) ∧
    Holds m (r.layout.anunits (p + 26 + 16 * r.phasors.length))
      (r.analogs.flatMap (fun ch => encode32 ch.anunit)) ∧
    Holds m (r.layout.digunits (p + 26 + 16 * r.phasors.length + 16 * r.analogs.length))
      (r.digitals.flatMap DigitalWord.encodeUnit) ∧
    Holds m (fnomAt r.layout r.layout p) (encode16 r.fnom) ∧
    Holds m (fnomAt r.layout r.layout p + 2) (encode16 r.cfgcnt) := by
  simp only [PmuRecord.encode, holds_append_iff, List.length_append, encodeHead_length,
    phasorNames_length, analogNames_length, digitalNames_length, phunits_length, anunits_length,
    digunits_length, encode16_length, and_assoc] at h
  obtain ⟨head, phasorNames, analogNames, digitalNames, phunits, anunits, digunits, fnom,
    cfgcnt⟩ := h
  unfold Layout.phunits Layout.anunits Layout.digunits fnomAt PmuRecord.layout
  exact ⟨head, phasorNames, analogNames.move (by omega), digitalNames.move (by omega),
    phunits.move (by simp only []; omega), anunits.move (by simp only []; omega),
    digunits.move (by simp only []; omega), fnom.move (by simp only []; omega),
    cfgcnt.move (by simp only []; omega)⟩

end Khorjin
