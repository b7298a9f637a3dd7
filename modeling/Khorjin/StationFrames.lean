import Mathlib.Algebra.Order.BigOperators.Group.List
import Khorjin.DamagedFrames
import Khorjin.SentSession

set_option autoImplicit false

/-!
# The frames of a station

A station answers requests with its configuration and sends data frames made for it. Each
frame arrives as one read, whole or damaged.
-/
namespace Khorjin
open ByteMemory LoopRules RunRules
variable {F D : Type} [Platform F D]

theorem blockSize_le_recordSize (l : Layout) : l.blockSize ≤ l.recordSize := by
  unfold Layout.blockSize Layout.digitalOffset Layout.analogOffset Layout.freqOffset
    Layout.phasorWidth Layout.freqWidth Layout.analogWidth Layout.recordSize
  split_ifs <;> omega

theorem blocks_le_size (f : Cfg2) :
    24 + ((f.records.map PmuRecord.layout).map Layout.blockSize).sum ≤ f.size := by
  have records : (f.records.flatMap PmuRecord.encode).length =
      ((f.records.map PmuRecord.layout).map Layout.recordSize).sum := by
    rw [List.length_flatMap, List.map_map]
    exact congrArg List.sum (List.map_congr_left (fun r _ => record_length r))
  have blocks : ((f.records.map PmuRecord.layout).map Layout.blockSize).sum ≤
      ((f.records.map PmuRecord.layout).map Layout.recordSize).sum :=
    List.sum_le_sum (fun l _ => blockSize_le_recordSize l)
  rw [Cfg2.size, records]
  omega

theorem SentData.MadeFor.size_le {x : SentData} {f : Cfg2} (made : x.MadeFor f) :
    x.size ≤ f.size := by
  have blocks := blocks_le_size f
  have pmus : (x.pmus.flatMap SentPmu.encode).length =
      ((x.pmus.map SentPmu.layout).map Layout.blockSize).sum := by
    rw [List.length_flatMap, List.map_map]
    exact congrArg List.sum (List.map_congr_left (fun s _ => s.encode_length))
  rw [SentData.size, pmus, made.layouts]
  omega

/-- No data frame is read beyond as many bytes as the configuration had. -/
theorem Client.Carries.dataEnd_le {self : Client F} {f : Cfg2} (carries : self.Carries f) :
    self.dataEnd ≤ f.size := by
  have blocks := blocks_le_size f
  have all : self.layouts.length = self.numPmu.toNat := by
    rw [Client.layouts, List.length_map, carries.arraysMatch.1]
  rw [Client.dataEnd, Client.blockBase, blockOffset, ← all, List.take_length, carries.layouts]
  omega

structure Station where
  configuration : Cfg2
  fits : configuration.size ≤ BUFER_LENGTH

/-- The station has the client's id code, and its PMUs share what the client takes from the
    first one only. -/
structure Station.Serves (station : Station) (idcode : UInt16) : Prop where
  idcode : station.configuration.idcode = idcode
  uniform : station.configuration.Uniform

/-- A frame of the station: the answer to a request, or values. `epoch` says how often it has
    been reconfigured before. -/
structure Posting where
  epoch : ℕ
  station : Station
  values : Option { x : SentData // x.MadeFor station.configuration }

instance (x : SentData) (f : Cfg2) : Decidable (x.MadeFor f) :=
  decidable_of_iff (x.idcode = f.idcode ∧
    x.pmus.map SentPmu.layout = f.records.map PmuRecord.layout)
    ⟨fun h => ⟨h.1, h.2⟩, fun h => ⟨h.idcode, h.layouts⟩⟩

namespace Posting

def encode (p : Posting) : List UInt8 :=
  match p.values with
  | none => p.station.configuration.encode
  | some x => x.1.encode

def sync (p : Posting) : UInt8 := if p.values.isNone then 0x31 else 0x01

theorem length_bounds (p : Posting) : 2 ≤ p.encode.length ∧ p.encode.length ≤ BUFER_LENGTH := by
  have fits := p.station.fits
  cases h : p.values with
  | none =>
    simp only [encode, h]
    exact ⟨p.station.configuration.two_le, Cfg2.length_le fits⟩
  | some x =>
    have long := sixteen_le_length x.1
    have short := x.2.size_le
    simp only [encode, h, SentData.encode_length] at long ⊢
    omega

theorem passes (p : Posting) : FramePasses p.sync p.station.configuration.idcode
    (receiveBuffer p.encode) p.encode.length := by
  have fits := p.station.fits
  cases h : p.values with
  | none =>
    simp only [encode, sync, h, Option.isNone_none, if_true, encode_length]
    exact encode_passes (buffer_holds fits) (fits_lt fits)
  | some x =>
    have passes := sent_buffer_passes (x.2.size_le.trans fits)
    rw [x.2.idcode] at passes
    simpa only [encode, sync, h, Option.isNone_some, Bool.false_eq_true, if_false] using passes

end Posting

def Fault : Type := (f : List UInt8) → { l : List UInt8 // l = f ∨ Damaged f l }

def Fault.absent : Fault := fun f => ⟨f, .inl rfl⟩

structure Packet where
  posting : Posting
  arrives : { l : List UInt8 // l = posting.encode ∨ Damaged posting.encode l }

namespace Packet

def bytes (p : Packet) : List UInt8 := p.arrives.1

def intact (p : Packet) : Bool := p.bytes == p.posting.encode

theorem passes_iff (p : Packet) (sync : UInt8) :
    FramePasses sync p.posting.station.configuration.idcode (receiveBuffer p.bytes)
      p.bytes.length ↔ p.intact = true ∧ p.posting.sync = sync := by
  have sent := p.posting.passes
  constructor
  · intro passes
    rcases p.arrives.2 with same | damaged
    · have same : p.bytes = p.posting.encode := same
      rw [same] at passes
      exact ⟨beq_iff_eq.2 same, sent.2.2.1.symm.trans passes.2.2.1⟩
    · exact absurd passes (damaged.rejected p.posting.length_bounds.1 sent)
  · rintro ⟨intact, rfl⟩
    rw [beq_iff_eq.1 intact]
    exact sent

theorem bounds (p : Packet) : 2 ≤ p.bytes.length ∧ p.bytes.length ≤ BUFER_LENGTH := by
  obtain ⟨long, short⟩ := p.posting.length_bounds
  rcases p.arrives.2 with same | damaged
  · rw [bytes, same]
    exact ⟨long, short⟩
  · exact ⟨damaged.two_le long, damaged.length_le.trans short⟩

def received (p : Packet) : Received := .ofBytes p.bytes p.bounds.1 p.bounds.2

theorem nonempty (p : Packet) : 0 < p.bytes.length := by
  have := p.bounds
  omega

def chunk (p : Packet) : Chunk := ⟨p.bytes, p.nonempty, p.bounds.2⟩

end Packet

end Khorjin
