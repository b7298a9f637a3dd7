import Khorjin.ConfigurationRoundTrip
import Khorjin.DataFields

set_option autoImplicit false

/-!
# The data frames that a PMU or PDC sends

An abstract data frame and its encoding. The words of a PMU have the widths that its
format says, and there are as many of them as it has channels. This is the sender's
side, which the client has no code for.
-/
namespace Khorjin
open ByteMemory LoopRules

/-- A floating-point number, by its bits, or a 16-bit integer. -/
def Word : Bool → Type
  | true => UInt32
  | false => UInt16

namespace Word

def width (floating : Bool) : ℕ := if floating then 4 else 2

def encode : {floating : Bool} → Word floating → List UInt8
  | true, w => encode32 w
  | false, w => encode16 w

/-- The word at `p`. -/
def readAt (m : ℕ → UInt8) (p : ℕ) : (floating : Bool) → Word floating
  | true => word32 m p
  | false => word16 m p

def encodePair {floating : Bool} (w : Word floating × Word floating) : List UInt8 :=
  w.1.encode ++ w.2.encode

@[simp] theorem encode_length {floating : Bool} (w : Word floating) :
    w.encode.length = width floating := by
  cases floating <;> rfl

@[simp] theorem encodePair_length {floating : Bool} (w : Word floating × Word floating) :
    (encodePair w).length = 2 * width floating := by
  rw [encodePair, List.length_append, encode_length, encode_length, Nat.two_mul]

theorem readAt_of_holds {m : ℕ → UInt8} {p : ℕ} {floating : Bool} {w : Word floating}
    (h : Holds m p w.encode) : readAt m p floating = w := by
  cases floating with
  | true => exact word32_of_holds h
  | false => exact word16_of_holds h

theorem readPair_of_holds {m : ℕ → UInt8} {p : ℕ} {floating : Bool}
    {w : Word floating × Word floating} (h : Holds m p (encodePair w)) :
    (readAt m p floating, readAt m (p + width floating) floating) = w := by
  obtain ⟨first, second⟩ := (holds_append_iff _ _ _ _).1 h
  rw [encode_length] at second
  rw [readAt_of_holds first, readAt_of_holds second]

end Word

/-- The values of one PMU. -/
structure SentPmu where
  layout : Layout
  stat : UInt16
  phasors : List.Vector
    (Word layout.phasorIsFloatingPoint × Word layout.phasorIsFloatingPoint) layout.phasors
  freq : Word layout.freqIsFloatingPoint
  dfreq : Word layout.freqIsFloatingPoint
  analogs : List.Vector (Word layout.analogIsFloatingPoint) layout.analogs
  digitals : List.Vector UInt16 layout.digitals

structure SentData where
  idcode : UInt16
  soc : UInt32
  timeQuality : UInt8
  fracsec : UInt32
  pmus : List SentPmu
  fracsec_lt : fracsec.toNat < 2 ^ 24

/-- The time-quality byte stands in front of the 24 bits of the fraction. -/
def encode24 (w : UInt32) : List UInt8 := (encode32 w).tail

namespace SentPmu

def encode (s : SentPmu) : List UInt8 :=
  encode16 s.stat ++ s.phasors.toList.flatMap Word.encodePair ++ s.freq.encode ++ s.dfreq.encode ++
    s.analogs.toList.flatMap Word.encode ++ s.digitals.toList.flatMap encode16

theorem encode_length (s : SentPmu) : s.encode.length = s.layout.blockSize := by
  rw [encode]
  simp only [List.length_append, encode16_length, Word.encode_length,
    flatMap_length_uniform _ Word.encodePair_length, flatMap_length_uniform _ Word.encode_length,
    flatMap_length_uniform _ encode16_length, List.Vector.toList_length]
  unfold Layout.blockSize Layout.digitalOffset Layout.analogOffset Layout.freqOffset
    Layout.phasorWidth Layout.freqWidth Layout.analogWidth Word.width
  split_ifs <;> omega

end SentPmu

namespace SentData

def size (f : SentData) : ℕ := 16 + (f.pmus.flatMap SentPmu.encode).length

def encodeHead (f : SentData) : List UInt8 :=
  [0xAA, 0x01] ++ encode16 (UInt16.ofNat f.size) ++ encode16 f.idcode ++ encode32 f.soc ++
    [f.timeQuality] ++ encode24 f.fracsec

def encodeBody (f : SentData) : List UInt8 := f.encodeHead ++ f.pmus.flatMap SentPmu.encode

def encode (f : SentData) : List UInt8 := appendChk f.encodeBody

@[simp] theorem encodeHead_length (f : SentData) : f.encodeHead.length = 14 := rfl

theorem encodeBody_length (f : SentData) : f.encodeBody.length = f.size - 2 := by
  rw [encodeBody, List.length_append, encodeHead_length, size]
  omega

theorem encode_length (f : SentData) : f.encode.length = f.size := by
  rw [encode, appendChk_length, encodeBody_length, size]
  omega

end SentData

theorem word24_of_encode24 {m : ℕ → UInt8} {p : ℕ} {w : UInt32} (h : Holds m (p + 1) (encode24 w))
    (lt : w.toNat < 2 ^ 24) : word24 m (p + 1) = w := by
  -- the first byte of the 32 bits does not matter
  have whole : Holds (fun i => if i = p then (w / 0x1000000).toUInt8 else m i) p (encode32 w) := by
    rw [show encode32 w = (w / 0x1000000).toUInt8 :: encode24 w from rfl, holds_cons_iff]
    refine ⟨if_pos rfl, fun i x hx => ?_⟩
    change (if p + 1 + i = p then _ else m (p + 1 + i)) = x
    rw [if_neg (by omega)]
    exact h i x hx
  have same : word24 m (p + 1) =
      word24 (fun i => if i = p then (w / 0x1000000).toUInt8 else m i) (p + 1) := by
    apply word24_congr
    intro i hi _
    exact (if_neg (by omega)).symm
  rw [same, word24_of_holds whole]
  apply UInt32.toNat_inj.1
  rw [UInt32.toNat_mod]
  exact Nat.mod_eq_of_lt lt

theorem sent_parts {m : ℕ → UInt8} {p : ℕ} {s : SentPmu} (h : Holds m p s.encode) :
    word16 m p = s.stat ∧
    Holds m (p + 2) (s.phasors.toList.flatMap Word.encodePair) ∧
    (Word.readAt m (p + s.layout.freqOffset) s.layout.freqIsFloatingPoint,
      Word.readAt m (p + s.layout.freqOffset + Word.width s.layout.freqIsFloatingPoint)
        s.layout.freqIsFloatingPoint) = (s.freq, s.dfreq) ∧
    Holds m (p + s.layout.analogOffset) (s.analogs.toList.flatMap Word.encode) ∧
    Holds m (p + s.layout.digitalOffset) (s.digitals.toList.flatMap encode16) := by
  simp only [SentPmu.encode, holds_append_iff, List.length_append, encode16_length,
    Word.encode_length, flatMap_length_uniform _ Word.encodePair_length,
    flatMap_length_uniform _ Word.encode_length, List.Vector.toList_length, and_assoc] at h
  obtain ⟨stat, phasors, freq, dfreq, analogs, digitals⟩ := h
  have pair : 2 * Word.width s.layout.phasorIsFloatingPoint = s.layout.phasorWidth := by
    unfold Word.width Layout.phasorWidth
    split_ifs <;> rfl
  have double : Word.width s.layout.freqIsFloatingPoint +
      Word.width s.layout.freqIsFloatingPoint = s.layout.freqWidth := by
    unfold Word.width Layout.freqWidth
    split_ifs <;> rfl
  have analog : Word.width s.layout.analogIsFloatingPoint = s.layout.analogWidth := rfl
  rw [pair] at freq dfreq analogs digitals
  rw [analog] at digitals
  refine ⟨word16_of_holds stat, phasors, ?_, analogs.move ?_, digitals.move ?_⟩
  · apply Word.readPair_of_holds
    rw [Word.encodePair, holds_append_iff, Word.encode_length]
    exact ⟨freq.move (by rw [Layout.freqOffset]), dfreq.move (by rw [Layout.freqOffset]; omega)⟩
  · rw [Layout.analogOffset, Layout.freqOffset]
    omega
  · rw [Layout.digitalOffset, Layout.analogOffset, Layout.freqOffset]
    omega

end Khorjin
