import Mathlib.Tactic.Linarith
import Khorjin.DataHistory
import Khorjin.ExactArithmetic
import Khorjin.OutputArrays

set_option autoImplicit false

/-!
# Frequency and rate of change as integers

The second of two near-identical tests stores the rate of change as a frequency.
Arithmetic is read as exact rationals.
-/
namespace Khorjin
open ByteMemory LoopRules

/-- Deviation in millihertz from the nominal frequency. -/
def sentFrequency (c : Configuration ℚ) (m : ℕ → UInt8) (slot : ℕ) : ℚ :=
  c.fNom + signed (word16 m slot) / 1000

def sentRocof (m : ℕ → UInt8) (slot : ℕ) : ℚ := signed (word16 m (slot + 2)) / 100

structure FrequencyArrives (m : ℕ → UInt8) (slot i : ℕ) (c c' : Configuration ℚ)
    (out : OutputBuffers ℚ) : Prop where
  frequency : c'.frequency = sentFrequency c m slot
  rocof : c'.rocof = sentRocof m slot
  freqBuffer : out.freqBuffer i = sentFrequency c m slot
  rocofBuffer : out.rocofBuffer i = sentRocof m slot

section
variable [Platform ℚ ℚ] [ExactArith ℚ]

theorem blockAt_integerFrequency {c : Configuration ℚ} (integer : c.freqIsFloatingPoint = false)
    (m : ℕ → UInt8) (t : Temps ℚ) (p : ℕ) :
    (blockAt c m t p).frequency = ((word16 m (p + c.layout.freqOffset + 2)).toNat : ℚ) / 100 ∧
      (blockAt c m t p).rocof = c.rocof := by
  have integer : c.layout.freqIsFloatingPoint = false := integer
  have frequency : (frequencyAt c.layout m (p + c.layout.freqOffset) : ℚ) = _ :=
    frequencyAt_integer integer m _
  exact ⟨frequency, rocofAt_integer integer m c.rocof _⟩

/-- Both values of an integer format arrive exactly when the second word, read without its
    sign as hundredths, happens to be the frequency, and the rate of change is the one that
    the record held before. -/
theorem integer_frequency_arrives_iff {t : Temps ℚ} {self self' : Client ℚ} {b : Memory}
    {bufferSize : ℤ} (run : parseDataFrame t self b bufferSize = some (0, self')) {i : ℕ}
    {c : Configuration ℚ} (hi : i < self.numPmu.toNat) (hc : self.configuration[i]? = some c)
    (integer : c.freqIsFloatingPoint = false) (buffers : OutputBuffers ℚ) :
    ∃ c' out, self'.configuration[i]? = some c' ∧ outputDataStream self' buffers = some out ∧
      (FrequencyArrives b.byte (freqSlot self.configuration i c) i c c' out ↔
        ((word16 b.byte (freqSlot self.configuration i c + 2)).toNat : ℚ) / 100 =
            sentFrequency c b.byte (freqSlot self.configuration i c) ∧
          c.rocof = sentRocof b.byte (freqSlot self.configuration i c)) := by
  obtain ⟨out, hout, handed⟩ := outputDataStream_frequency run buffers
  have stored := (accepted_get run hi hc).2
  have slot := freqSlot_eq hc
  have values := blockAt_integerFrequency integer b.byte (self.blockTemps b.byte t i)
    (self.blockBase i)
  have hi' : i < self'.numPmu.toNat := by
    rw [accepted_numPmu run]
    exact hi
  have buffered := handed i hi' _ stored
  rw [values.1, values.2] at buffered
  refine ⟨_, out, stored, hout, ?_⟩
  rw [← slot] at values buffered
  constructor
  · intro h
    exact ⟨values.1.symm.trans h.frequency, values.2.symm.trans h.rocof⟩
  · intro h
    exact ⟨values.1.trans h.1, values.2.trans h.2, buffered.1.trans h.1, buffered.2.trans h.2⟩

structure Nominal (c : Configuration ℚ) : Prop where
  fNom : c.fNom = 50 ∨ c.fNom = 60
  rocof : c.freqIsFloatingPoint = false → c.rocof = 0

theorem recordAt_nominal (first : Layout) (m : ℕ → UInt8) (p : ℕ) :
    Nominal (recordAt first m p) := by
  constructor
  · simp only [recordAt, ExactArith.ofInt]
    split_ifs
    · exact .inr rfl
    · exact .inl rfl
  · intro _
    exact ExactArith.ofBits_zero

theorem blockAt_nominal {c : Configuration ℚ} (h : Nominal c) (m : ℕ → UInt8) (t : Temps ℚ)
    (p : ℕ) : Nominal (blockAt c m t p) := by
  constructor
  · rw [blockAt_fNom]
    exact h.fNom
  · intro integer
    have same := congrArg Layout.freqIsFloatingPoint (layout_blockAt c m t p)
    have integer : c.freqIsFloatingPoint = false := same.symm.trans integer
    exact (blockAt_integerFrequency integer m t p).2.trans (h.rocof integer)

omit [Platform ℚ ℚ] [ExactArith ℚ] in
/-- No rate of change means the word zero, and then the frequency is stored as zero. -/
theorem not_arrives_of_nominal {c : Configuration ℚ} (h : Nominal c)
    (integer : c.freqIsFloatingPoint = false) (m : ℕ → UInt8) (slot : ℕ) :
    ¬ (((word16 m (slot + 2)).toNat : ℚ) / 100 = sentFrequency c m slot ∧
      c.rocof = sentRocof m slot) := by
  rintro ⟨frequency, rocof⟩
  rw [h.rocof integer, sentRocof, eq_comm, div_eq_zero_iff] at rocof
  have zero : signed (word16 m (slot + 2)) = 0 := by simpa using rocof
  have zero : (word16 m (slot + 2)).toNat = 0 := by
    have lt := (word16 m (slot + 2)).toNat_lt
    rw [signed_eq] at zero
    split_ifs at zero <;> omega
  have least : -(2 ^ 15 : ℤ) ≤ signed (word16 m slot) := by
    rw [signed_eq]
    split_ifs <;> omega
  have least' : -(2 ^ 15 : ℚ) ≤ signed (word16 m slot) := by exact_mod_cast least
  have nominal : (50 : ℚ) ≤ c.fNom := by
    rcases h.fNom with fifty | sixty
    · rw [fifty]
    · rw [sixty]
      norm_num
  rw [zero, sentFrequency] at frequency
  norm_num at frequency
  linarith

/-- Whatever frames a client has received, an integer frequency and its rate of change never
    both arrive. -/
theorem integer_frequency_never_arrives {pmuIdCode : ℤ} {timeoutInMs : UInt32}
    {bufferSnd bufferRcv : List UInt8} {events : List (Event ℚ)} {returned : List ℤ}
    {self self' : Client ℚ} (history : RunRules.run handle
      (Client.fresh pmuIdCode timeoutInMs bufferSnd bufferRcv) events = some (returned, self))
    {t : Temps ℚ} {b : Memory} {bufferSize : ℤ}
    (run : parseDataFrame t self b bufferSize = some (0, self')) {i : ℕ} {c : Configuration ℚ}
    (hi : i < self.numPmu.toNat) (hc : self.configuration[i]? = some c)
    (integer : c.freqIsFloatingPoint = false) (buffers : OutputBuffers ℚ) :
    ∃ c' out, self'.configuration[i]? = some c' ∧ outputDataStream self' buffers = some out ∧
      ¬ FrequencyArrives b.byte (freqSlot self.configuration i c) i c c' out := by
  obtain ⟨c', out, stored, handed, arrives⟩ :=
    integer_frequency_arrives_iff run hi hc integer buffers
  have nominal : Nominal c := by
    refine run_records recordAt_nominal (fun c m t p h => blockAt_nominal h m t p) ?_ history c
      (List.mem_of_getElem? hc)
    exact fun _ h => absurd h List.not_mem_nil
  refine ⟨c', out, stored, handed, ?_⟩
  rw [arrives]
  exact not_arrives_of_nominal nominal integer b.byte _

end

section
attribute [local instance] ExactRational.platform

def receivedFiftyHertz : Received :=
  .ofBytes plainConfiguration plainConfiguration_two_le plainConfiguration_fits

def fiftyHertzClient : Client ℚ :=
  (Client.fresh 7 0 [] []).storeConfiguration receivedFiftyHertz.buffer.byte receivedFiftyHertz.size

def deviatingFrame : Memory :=
  Memory.zeroFilled BUFER_LENGTH (appendChk
    ([0xAA, 0x01, 0x00, 0x16, 0x00, 0x07, 0, 0, 0, 1, 0, 0, 0, 0] ++
      [0x00, 0x00, 0xFF, 0x38, 0x00, 0x05]))

def clearBuffers : OutputBuffers ℚ :=
  ⟨⟨0, 0, 0, 0, 0, 0, 0⟩, fun _ => 0, fun _ => 0, fun _ => 0, fun _ => 0, fun _ => 0⟩

theorem fiftyHertzClient_history : RunRules.run handle (Client.fresh 7 0 [] [])
    [.configurationFrame receivedFiftyHertz] = some ([0], fiftyHertzClient) := by
  decide +kernel

theorem fiftyHertzClient_reads_deviatingFrame :
    parseDataFrame ⟨0, 0⟩ fiftyHertzClient deviatingFrame (22 : ℕ) =
      some (0, fiftyHertzClient.storeData ⟨0, 0⟩ deviatingFrame.byte) :=
  parseDataFrame_zeroFilled _ (by decide +kernel) (by decide +kernel) (by decide) (by decide)
    (by decide +kernel)

theorem frequency_is_the_rate_of_change :
    ∃ c c' out, fiftyHertzClient.configuration[0]? = some c ∧ c.freqIsFloatingPoint = false ∧
      22 = fiftyHertzClient.expectedSize ∧
      parseDataFrame ⟨0, 0⟩ fiftyHertzClient deviatingFrame (22 : ℕ) =
        some (0, fiftyHertzClient.storeData ⟨0, 0⟩ deviatingFrame.byte) ∧
      (fiftyHertzClient.storeData ⟨0, 0⟩ deviatingFrame.byte).configuration[0]? = some c' ∧
      outputDataStream (fiftyHertzClient.storeData ⟨0, 0⟩ deviatingFrame.byte) clearBuffers =
        some out ∧
      sentFrequency c deviatingFrame.byte 16 = 249 / 5 ∧ c'.frequency = 1 / 20 ∧
      sentRocof deviatingFrame.byte 16 = 1 / 20 ∧ c'.rocof = 0 ∧
      ¬ FrequencyArrives deviatingFrame.byte 16 0 c c' out := by
  have record : fiftyHertzClient.configuration[0]?.map
      (fun c => (c.freqIsFloatingPoint, sentFrequency c deviatingFrame.byte 16)) =
        some (false, 249 / 5) := by
    decide +kernel
  have record' : (fiftyHertzClient.storeData ⟨0, 0⟩ deviatingFrame.byte).configuration[0]?.map
      (fun c => (c.frequency, c.rocof)) =
        some (1 / 20, 0) := by
    decide +kernel
  obtain ⟨c, hc, before⟩ := Option.map_eq_some_iff.1 record
  obtain ⟨c', hc', after⟩ := Option.map_eq_some_iff.1 record'
  obtain ⟨out, handed, _⟩ := outputDataStream_frequency fiftyHertzClient_reads_deviatingFrame
    clearBuffers
  obtain ⟨integer, sent⟩ := Prod.mk.inj before
  obtain ⟨frequency, rocof⟩ := Prod.mk.inj after
  refine ⟨c, c', out, hc, integer, by decide +kernel, fiftyHertzClient_reads_deviatingFrame, hc',
    handed, sent, frequency, by decide +kernel, rocof, ?_⟩
  intro h
  have same := h.frequency
  rw [frequency, sent] at same
  norm_num at same

theorem deviation_never_arrives :
    ∃ c c' out, fiftyHertzClient.configuration[0]? = some c ∧
      (fiftyHertzClient.storeData ⟨0, 0⟩ deviatingFrame.byte).configuration[0]? = some c' ∧
      outputDataStream (fiftyHertzClient.storeData ⟨0, 0⟩ deviatingFrame.byte) clearBuffers =
        some out ∧
      ¬ FrequencyArrives deviatingFrame.byte (freqSlot fiftyHertzClient.configuration 0 c) 0 c c'
        out := by
  have record : fiftyHertzClient.configuration[0]?.map Configuration.freqIsFloatingPoint =
      some false := by
    decide +kernel
  obtain ⟨c, hc, integer⟩ := Option.map_eq_some_iff.1 record
  obtain ⟨c', out, h⟩ := integer_frequency_never_arrives fiftyHertzClient_history
    fiftyHertzClient_reads_deviatingFrame (i := 0) (by decide) hc integer clearBuffers
  exact ⟨c, c', out, hc, h⟩

end
end Khorjin
