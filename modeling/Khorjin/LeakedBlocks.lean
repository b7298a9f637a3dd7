import Khorjin.ClientMemory

set_option autoImplicit false

/-!
# What a destroyed client leaves behind

An accepted frame overwrites the pointers that the frame of its kind before it has set,
and what they led to is never freed. The blocks that are lost are counted here.
-/
namespace Khorjin
open ByteMemory LoopRules RunRules BlockHeap

section
variable {F D : Type} [Platform F D]

def Configuration.arrays (c : Configuration F) : ℕ :=
  (if c.numberOfPhasors ≠ 0 then 1 else 0) + ((if c.numberOfAnalogs ≠ 0 then 1 else 0) +
    (if c.numberOfDigitals ≠ 0 then 1 else 0))

namespace Event

def records : Event F → List (Configuration F)
  | .dataFrame _ _ => []
  | .configurationFrame r => configurationAt r.buffer.byte 20 (word16 r.buffer.byte 18).toNat

/-- The blocks that an accepted frame asks for: a `ParsedTime`, and for a configuration frame
    the array of the records and theirs. -/
def blocks : Event F → ℕ
  | .dataFrame _ _ => 1
  | .configurationFrame r =>
    2 + ((Event.configurationFrame r : Event F).records.map Configuration.arrays).sum

theorem blocks_pos (e : Event F) : 0 < e.blocks := by
  cases e with
  | dataFrame r temps => exact Nat.one_pos
  | configurationFrame r =>
    rw [blocks]
    omega

end Event

def ofKind (dataFrames : Bool) (l : List (Event F)) : List (Event F) :=
  l.filter (fun e => e.isDataFrame == dataFrames)

theorem ofKind_snoc (kind : Bool) (l : List (Event F)) (e : Event F) :
    ofKind kind (l ++ [e]) =
      if e.isDataFrame = kind then ofKind kind l ++ [e] else ofKind kind l := by
  by_cases h : e.isDataFrame = kind <;> simp [ofKind, h]

/-- The accepted frames that are followed by another one of their kind. -/
def superseded (accepted : List (Event F)) : List (Event F) :=
  (ofKind true accepted).dropLast ++ (ofKind false accepted).dropLast

def blockCount (l : List (Event F)) : ℕ := (l.map Event.blocks).sum

def lastBlocks (l : List (Event F)) : ℕ := l.getLast?.elim 0 Event.blocks

theorem lastBlocks_snoc (l : List (Event F)) (e : Event F) :
    lastBlocks (l ++ [e]) = e.blocks := by
  simp [lastBlocks]

theorem blockCount_dropLast (l : List (Event F)) :
    blockCount l.dropLast + lastBlocks l = blockCount l := by
  rcases List.eq_nil_or_concat l with rfl | ⟨l, e, rfl⟩
  · rfl
  · simp [blockCount, lastBlocks]

theorem blockCount_superseded_snoc (l : List (Event F)) (e : Event F) :
    blockCount (superseded (l ++ [e])) =
      lastBlocks (ofKind e.isDataFrame l) + blockCount (superseded l) := by
  have data := blockCount_dropLast (ofKind true l)
  have other := blockCount_dropLast (ofKind false l)
  have append : ∀ x y : List (Event F), blockCount (x ++ y) = blockCount x + blockCount y := by
    intro x y
    simp [blockCount]
  simp only [superseded, append, ofKind_snoc]
  cases h : e.isDataFrame with
  | true =>
    simp only [if_true, Bool.true_eq_false, if_false, List.dropLast_concat]
    omega
  | false =>
    simp only [if_true, Bool.false_eq_true, if_false, List.dropLast_concat]
    omega

theorem superseded_eq_nil_iff (l : List (Event F)) :
    superseded l = [] ↔ (ofKind true l).length ≤ 1 ∧ (ofKind false l).length ≤ 1 := by
  have short : ∀ x : List (Event F), x.dropLast = [] ↔ x.length ≤ 1 := by
    intro x
    rw [← List.length_eq_zero_iff, List.length_dropLast]
    omega
  rw [superseded, List.append_eq_nil_iff, short, short]

theorem blockCount_eq_zero_iff (l : List (Event F)) : blockCount l = 0 ↔ l = [] := by
  cases l with
  | nil => simp [blockCount]
  | cons e l =>
    have pos := e.blocks_pos
    have sum : blockCount (e :: l) = e.blocks + blockCount l := by simp [blockCount]
    constructor
    · intro zero
      omega
    · intro h
      cases h

end

section
variable {F D α : Type} [Platform F D] [DecidableEq α]
variable {A : Allocator α Kind} {limit : ℕ}

theorem ite_array_serves (serves : A.Serves limit) (P : Prop) [Decidable P] (kind : Kind) (n : ℕ)
    (live : Finset α) (room : live.card + (if P then 1 else 0) ≤ limit) :
    ∃ p live', (if P then A.array kind n live else some (none, live)) = some (p, live') ∧
      p.toList.length = if P then 1 else 0 := by
  by_cases h : P
  · rw [if_pos h] at room
    obtain ⟨a, live', array⟩ := serves.array (Nat.lt_of_succ_le room) kind n
    exact ⟨some a, live', by rw [if_pos h, array], by rw [if_pos h]; rfl⟩
  · exact ⟨none, live, by rw [if_neg h], by rw [if_neg h]; rfl⟩

theorem recordHeap_serves (serves : A.Serves limit) (first c : Configuration F)
    (live : Finset α) (room : live.card + c.arrays ≤ limit) :
    ∃ p live', recordHeap A first c live = some (p, live') ∧ p.blocks.length = c.arrays := by
  rw [Configuration.arrays] at room
  obtain ⟨phasor, live₁, hphasor, one⟩ := ite_array_serves serves (c.numberOfPhasors ≠ 0) .phasor
    first.numberOfPhasors.toNat live (by omega)
  have card₁ := (ite_array_adds hphasor).card
  obtain ⟨analog, live₂, hanalog, two⟩ := ite_array_serves serves (c.numberOfAnalogs ≠ 0) .analog
    first.numberOfAnalogs.toNat live₁ (by omega)
  have card₂ := (ite_array_adds hanalog).card
  obtain ⟨digital, live₃, hdigital, three⟩ := ite_array_serves serves (c.numberOfDigitals ≠ 0)
    .digital first.numberOfDigitals.toNat live₂ (by omega)
  refine ⟨⟨phasor, analog, digital⟩, live₃, ?_, ?_⟩
  · simp only [recordHeap, hphasor, hanalog, hdigital, Option.bind_eq_bind, Option.bind_some]
  · rw [RecordPointers.blocks, List.length_append, List.length_append, one, two, three]
    rfl

theorem recordsHeap_serves (serves : A.Serves limit) (first : Configuration F)
    (l : List (Configuration F)) (live : Finset α)
    (room : live.card + (l.map Configuration.arrays).sum ≤ limit) :
    ∃ records live', recordsHeap A first l live = some (records, live') ∧
      (records.flatMap RecordPointers.blocks).length = (l.map Configuration.arrays).sum := by
  induction l generalizing live with
  | nil => exact ⟨[], live, rfl, rfl⟩
  | cons c rest ih =>
    rw [List.map_cons, List.sum_cons] at room
    obtain ⟨record, live₁, hrecord, one⟩ :=
      recordHeap_serves serves first c live (by omega)
    have card₁ := (recordHeap_adds hrecord).card
    obtain ⟨records, live₂, hrest, more⟩ := ih live₁ (by omega)
    refine ⟨record :: records, live₂, ?_, ?_⟩
    · simp only [recordsHeap, hrecord, hrest, Option.bind_eq_bind, Option.bind_some]
    · rw [List.flatMap_cons, List.length_append, one, more, List.map_cons, List.sum_cons]

theorem configurationHeap_serves (serves : A.Serves limit) (l : List (Configuration F))
    (live : Finset α) (room : live.card + (1 + (l.map Configuration.arrays).sum) ≤ limit) :
    ∃ a records live', configurationHeap A l live = some ((some a, records), live') ∧
      (records.flatMap RecordPointers.blocks).length = (l.map Configuration.arrays).sum := by
  obtain ⟨a, live₁, array⟩ := serves.array (by omega : live.card < limit) .configuration l.length
  have card₁ := (array_adds array).1.card
  rw [Option.toList_some, List.length_singleton] at card₁
  cases l with
  | nil =>
    refine ⟨a, [], live₁, ?_, rfl⟩
    simp only [configurationHeap, array, Option.bind_eq_bind, Option.bind_some]
  | cons first rest =>
    obtain ⟨records, live₂, hrecords, count⟩ :=
      recordsHeap_serves serves first (first :: rest) live₁ (by omega)
    refine ⟨a, records, live₂, ?_, count⟩
    simp only [configurationHeap, array, hrecords, Option.bind_eq_bind, Option.bind_some]

theorem handle_serves (serves : A.Serves limit) {s : HeapClient α F} {e : Event F} {r : ℤ}
    {self : Client F} (h : handle s.client e = some (r, self))
    (room : r = 0 → s.live.card + e.blocks ≤ limit) :
    ∃ t, s.handle A e = some (r, t) ∧ t.client = self ∧
      t.live.card = s.live.card + if r = 0 then e.blocks else 0 := by
  rcases handle_cases h with ⟨rfl, _, _, stored⟩ | ⟨rfl, _, rfl⟩
  · have room := room rfl
    have pos := e.blocks_pos
    obtain ⟨parsedTime, live₁, htime⟩ :=
      serves.record (by omega : s.live.card < limit) .parsedTime
    have card₁ := (record_adds htime).card
    rw [List.length_singleton] at card₁
    rw [if_pos rfl]
    cases e with
    | dataFrame x temps =>
      refine ⟨⟨self, { s.pointers with dataParsedTime := some parsedTime }, live₁⟩, ?_, rfl, card₁⟩
      simp [HeapClient.handle, h, htime]
    | configurationFrame x =>
      have records : self.configuration = (Event.configurationFrame x : Event F).records := by
        rw [stored]
        rfl
      rw [Event.blocks, ← records] at room ⊢
      obtain ⟨a, pointers, live₂, hconfiguration, count⟩ :=
        configurationHeap_serves serves self.configuration live₁ (by omega)
      have card₂ := (configurationHeap_adds hconfiguration).1.card
      rw [List.length_append, count, Option.toList_some, List.length_singleton] at card₂
      refine ⟨⟨self, { s.pointers with
        configParsedTime := some parsedTime
        configuration := some a
        records := pointers }, live₂⟩, ?_, rfl, ?_⟩
      · simp [HeapClient.handle, h, htime, hconfiguration]
      · change live₂.card = _
        omega
  · refine ⟨s, ?_, rfl, by simp⟩
    simp [HeapClient.handle, h]

theorem handle_lift (total : A.Total) (s : HeapClient α F) (e : Event F) (r : ℤ)
    (self : Client F) (h : handle s.client e = some (r, self)) :
    ∃ t, s.handle A e = some (r, t) ∧ t.client = self := by
  obtain ⟨t, ht, same, _⟩ := handle_serves (total.serves _) h (fun _ => le_refl _)
  exact ⟨t, ht, same⟩

/-- Which blocks a client holds and which it has lost, by the frames it has accepted. -/
structure HeapClient.Accounts (base : Finset α) (accepted : List (Event F)) (lost : List α)
    (s : HeapClient α F) : Prop where
  owned : s.Owned base lost
  lost : lost.length = blockCount (superseded accepted)
  data : s.pointers.dataParsedTime.toList.length = lastBlocks (ofKind true accepted)
  configuration : s.pointers.configParsedTime.toList.length + s.pointers.tree.length =
    lastBlocks (ofKind false accepted)
  array : s.pointers.configuration.isSome ↔ ofKind false accepted ≠ []

omit [DecidableEq α] in
theorem dropped_length {base : Finset α} {accepted : List (Event F)} {lost : List α}
    {s : HeapClient α F} (accounts : s.Accounts base accepted lost) (e : Event F) :
    (s.dropped e).length = lastBlocks (ofKind e.isDataFrame accepted) := by
  cases e with
  | dataFrame x temps => exact accounts.data
  | configurationFrame x =>
    rw [HeapClient.dropped, List.length_append]
    exact accounts.configuration

theorem handle_accounts (total : A.Total) {base : Finset α} {accepted : List (Event F)}
    {lost : List α} {s t : HeapClient α F} {e : Event F} {r : ℤ}
    (accounts : s.Accounts base accepted lost) (h : s.handle A e = some (r, t)) :
    ∃ lost, t.Accounts base (if r == 0 then accepted ++ [e] else accepted) lost := by
  have owned := handle_owned accounts.owned h
  rcases heap_cases h with ⟨rfl, client, parsedTime, live, _, installs⟩ | ⟨rfl, rfl⟩
  · rw [if_pos rfl] at owned
    have count : (s.dropped e ++ lost).length = blockCount (superseded (accepted ++ [e])) := by
      rw [List.length_append, dropped_length accounts e, accounts.lost, blockCount_superseded_snoc]
    refine ⟨s.dropped e ++ lost, ?_⟩
    rw [beq_self_eq_true, if_pos rfl]
    cases e with
    | dataFrame x temps =>
      obtain ⟨pointers, _⟩ := installs
      have kind : (Event.dataFrame x temps : Event F).isDataFrame = true := rfl
      refine ⟨owned, count, ?_, ?_, ?_⟩
      · rw [pointers, ofKind_snoc, if_pos kind, lastBlocks_snoc]
        rfl
      · rw [pointers, ofKind_snoc, kind, if_neg (by decide)]
        exact accounts.configuration
      · rw [pointers, ofKind_snoc, kind, if_neg (by decide)]
        exact accounts.array
    | configurationFrame x =>
      obtain ⟨configuration, records, hconfiguration, pointers⟩ := installs
      obtain ⟨a, records', live', known, length⟩ :=
        configurationHeap_serves (total.serves _) t.client.configuration live (le_refl _)
      rw [known] at hconfiguration
      cases hconfiguration
      have kind : (Event.configurationFrame x : Event F).isDataFrame = false := rfl
      have stored : t.client.configuration = (Event.configurationFrame x : Event F).records := by
        rw [client]
        rfl
      refine ⟨owned, count, ?_, ?_, ?_⟩
      · rw [pointers, ofKind_snoc, kind, if_neg (by decide)]
        exact accounts.data
      · rw [pointers, ofKind_snoc, if_pos kind, lastBlocks_snoc, Event.blocks, ← stored]
        simp only [Pointers.tree, List.length_append, Option.toList_some, List.length_singleton,
          length]
        omega
      · rw [pointers, ofKind_snoc, if_pos kind]
        simp
  · exact ⟨lost, accounts⟩

theorem connectHeap_accounts {base : Finset α} {pmuIdCode : ℤ} {timeoutInMs : UInt32}
    {bufferSnd bufferRcv : List UInt8} {attempts : List Bool} {s : HeapClient α F}
    (h : connectHeap A pmuIdCode timeoutInMs bufferSnd bufferRcv attempts base = some s) :
    s.Accounts base [] [] := by
  have owned := (connectHeap_owned h).1
  simp only [connectHeap, Option.bind_eq_bind, Option.bind_eq_some_iff, Option.some.injEq] at h
  obtain ⟨_, _, _, _, client, _, rfl⟩ := h
  exact ⟨owned, rfl, rfl, rfl, by simp [ofKind]⟩

/-- A destroyed client leaves behind, beside what was live before it connected, the blocks of
    all accepted frames but the last data frame and the last configuration frame, and the
    array of an empty last configuration. So nothing is leaked exactly when no frame was
    superseded and the configuration has a PMU. -/
theorem destroy_leaks_superseded (total : A.Total) {base : Finset α} {pmuIdCode : ℤ}
    {timeoutInMs : UInt32} {bufferSnd bufferRcv : List UInt8} {attempts : List Bool}
    {s : HeapClient α F} {client : Client F} {events : List (Event F)} {returned : List ℤ}
    (connected : connectHeap A pmuIdCode timeoutInMs bufferSnd bufferRcv attempts base = some s)
    (h : run handle s.client events = some (returned, client)) :
    ∃ final live', run (HeapClient.handle A) s events = some (returned, final) ∧
      final.client = client ∧ final.destroy = some live' ∧ base ⊆ live' ∧
      live'.card = base.card + blockCount (superseded (acceptedOf events returned)) +
        (if ofKind false (acceptedOf events returned) ≠ [] ∧ client.numPmu = 0 then 1 else 0) ∧
      (live' = base ↔ (ofKind true (acceptedOf events returned)).length ≤ 1 ∧
        (ofKind false (acceptedOf events returned)).length ≤ 1 ∧
        (ofKind false (acceptedOf events returned) ≠ [] → client.numPmu ≠ 0)) := by
  obtain ⟨final, run, rfl⟩ :=
    run_lift HeapClient.client (fun s e r t => handle_lift total s e r t) h
  obtain ⟨lost, accounts⟩ := run_history (· == 0)
    (fun accepted s => ∃ lost, HeapClient.Accounts base accepted lost s)
    (fun accepted s e r t ⟨lost, accounts⟩ step => handle_accounts total accounts step)
    [] ⟨[], connectHeap_accounts connected⟩ run
  change final.Accounts base (acceptedOf events returned) lost at accounts
  obtain ⟨live', freed, left⟩ := destroy_owned accounts.owned
  have unfreed : final.unfreed.length =
      if ofKind false (acceptedOf events returned) ≠ [] ∧ final.client.numPmu = 0
        then 1 else 0 := by
    have array := accounts.array
    rw [HeapClient.unfreed]
    by_cases noPmus : final.client.numPmu = 0
    · cases pointer : final.pointers.configuration with
      | none =>
        have never : ofKind false (acceptedOf events returned) = [] := by
          simpa [pointer] using array
        simp [never]
      | some a =>
        have any : ofKind false (acceptedOf events returned) ≠ [] := by
          simpa [pointer] using array
        simp [noPmus, any]
    · simp [noPmus]
  have card := left.card
  rw [List.length_append, unfreed, accounts.lost] at card
  refine ⟨final, live', run, rfl, freed, left.subset, by omega, ?_⟩
  have same : live' = base ↔ live'.card = base.card := by
    constructor
    · intro e
      rw [e]
    · intro e
      exact (Finset.eq_of_subset_of_card_le left.subset (by omega)).symm
  have nothing := blockCount_eq_zero_iff (superseded (acceptedOf events returned))
  rw [same, ← and_assoc, ← superseded_eq_nil_iff, ← nothing]
  split_ifs at card with empty
  · constructor
    · intro e
      omega
    · intro e
      exact absurd empty.2 (e.2 empty.1)
  · constructor
    · intro e
      exact ⟨by omega, fun any noPmus => empty ⟨any, noPmus⟩⟩
    · intro e
      omega

end

section
attribute [local instance] ExactRational.platform

def configuredTwice : List (Event ℚ) :=
  [.configurationFrame (.ofBytes plainConfiguration plainConfiguration_two_le
      plainConfiguration_fits),
    .configurationFrame (.ofBytes plainConfiguration plainConfiguration_two_le
      plainConfiguration_fits)]

/-- The time stamp and the array of the first configuration are lost. -/
theorem second_configuration_leaks : ∃ s final : HeapClient ℕ ℚ, ∃ live',
    connectHeap (Allocator.counting Kind) 7 1000 [] [] [true] ∅ = some s ∧
      run (HeapClient.handle (Allocator.counting Kind)) s configuredTwice = some ([0, 0], final) ∧
      final.destroy = some live' ∧ live'.card = 2 := by
  have start : (do
      let s ← connectHeap (F := ℚ) (Allocator.counting Kind) 7 1000 [] [] [true] ∅
      let (returned, client) ← run handle s.client configuredTwice
      some (returned, client.numPmu)) = some ([0, 0], 1) := by
    decide +kernel
  simp only [Option.bind_eq_bind, Option.bind_eq_some_iff, Option.some.injEq, Prod.mk.injEq]
    at start
  obtain ⟨s, connected, ⟨_, client⟩, h, rfl, one⟩ := start
  obtain ⟨final, live', run, _, freed, _, card, _⟩ :=
    destroy_leaks_superseded (counting_total Kind) connected h
  refine ⟨s, final, live', connected, run, freed, ?_⟩
  rw [card, one]
  decide +kernel

end
end Khorjin
