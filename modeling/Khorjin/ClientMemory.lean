import Khorjin.BlockHeap
import Khorjin.ClientRuns
import Khorjin.ConnectRetries

set_option autoImplicit false

/-!
# The memory of a client

The blocks that the functions of the client ask for, keep a pointer to, and free,
beside the values that `Client` keeps. Nothing is freed before
`c37_118client_destroy`.
-/
namespace Khorjin
open ByteMemory LoopRules RunRules BlockHeap

inductive Kind
  | client
  | buffer
  | socket
  | parsedTime
  | configuration
  | phasor
  | analog
  | digital
deriving DecidableEq

structure RecordPointers (α : Type) where
  phasor : Option α
  analog : Option α
  digital : Option α

structure Pointers (α : Type) where
  self : α
  bufferSnd : Option α
  bufferRcv : Option α
  socket : α
  configParsedTime : Option α
  dataParsedTime : Option α
  configuration : Option α
  records : List (RecordPointers α)

structure HeapClient (α F : Type) where
  client : Client F
  pointers : Pointers α
  live : Finset α

section
variable {F D α : Type} [Platform F D] [DecidableEq α]

/-- The client, its buffers and the socket. The buffers are not written to here. -/
def connectHeap (A : Allocator α Kind) (pmuIdCode : ℤ) (timeoutInMs : UInt32)
    (bufferSnd bufferRcv : List UInt8) (attempts : List Bool) (live : Finset α) :
    Option (HeapClient α F) := do
  let (self, live) ← A.record .client live
  let (snd, live) := A.alloc .buffer BUFER_LENGTH live
  let (rcv, live) := A.alloc .buffer BUFER_LENGTH live
  let (socket, live) ← A.record .socket live
  let client ← connect pmuIdCode timeoutInMs bufferSnd bufferRcv attempts
  some ⟨client, ⟨self, snd, rcv, socket, none, none, none, []⟩, live⟩

/-- The arrays of one pass of the loop of `prepareConfiguration`: each is asked for when the
    record itself has such channels, for as many as the first record has. -/
def recordHeap (A : Allocator α Kind) (first c : Configuration F) (live : Finset α) :
    Option (RecordPointers α × Finset α) := do
  let (phasor, live) ← (if c.numberOfPhasors ≠ 0 then
    A.array .phasor first.numberOfPhasors.toNat live else some (none, live))
  let (analog, live) ← (if c.numberOfAnalogs ≠ 0 then
    A.array .analog first.numberOfAnalogs.toNat live else some (none, live))
  let (digital, live) ← (if c.numberOfDigitals ≠ 0 then
    A.array .digital first.numberOfDigitals.toNat live else some (none, live))
  some (⟨phasor, analog, digital⟩, live)

def recordsHeap (A : Allocator α Kind) (first : Configuration F) :
    List (Configuration F) → Finset α → Option (List (RecordPointers α) × Finset α)
  | [], live => some ([], live)
  | c :: rest, live => do
    let (record, live) ← recordHeap A first c live
    let (records, live) ← recordsHeap A first rest live
    some (record :: records, live)

/-- `prepareConfiguration`, for the records that it fills in. -/
def configurationHeap (A : Allocator α Kind) (configuration : List (Configuration F))
    (live : Finset α) : Option ((Option α × List (RecordPointers α)) × Finset α) := do
  let (array, live) ← A.array .configuration configuration.length live
  match configuration with
  | [] => some ((array, []), live)
  | first :: _ =>
    let (records, live) ← recordsHeap A first configuration live
    some ((array, records), live)

/-- A buffer handed to a parser. An accepted frame has its time stamp converted into a new
    `ParsedTime`, and behind that of a configuration frame the records are set up. The
    pointers to what was there before are overwritten. -/
def HeapClient.handle (A : Allocator α Kind) (s : HeapClient α F) (e : Event F) :
    Option (ℤ × HeapClient α F) := do
  let (r, client) ← Khorjin.handle s.client e
  if r ≠ 0 then some (r, { s with client })
  else
    let (parsedTime, live) ← A.record .parsedTime s.live
    match e with
    | .dataFrame _ _ =>
      some (r, ⟨client, { s.pointers with dataParsedTime := some parsedTime }, live⟩)
    | .configurationFrame _ =>
      let ((configuration, records), live) ← configurationHeap A client.configuration live
      some (r, ⟨client, { s.pointers with
        configParsedTime := some parsedTime, configuration, records }, live⟩)

def freeRecord (p : Pointers α) (i : ℕ) (live : Finset α) : Option (Finset α) := do
  let record ← p.records[i]?
  let live ← freeMember p.configuration record.phasor live
  let live ← freeMember p.configuration record.analog live
  freeMember p.configuration record.digital live

/-- `c37_118client_destroy`: the blocks that are live behind it. A null time stamp is passed
    over, as `free` would. -/
def HeapClient.destroy (s : HeapClient α F) : Option (Finset α) := do
  let p := s.pointers
  let live ← freeMember (some p.self) (some p.socket) s.live
  let live ← freeMember (some p.self) p.bufferRcv live
  let live ← freeMember (some p.self) p.bufferSnd live
  let live ← freeMember (some p.self) p.configParsedTime live
  let live ← freeMember (some p.self) p.dataParsedTime live
  let live ←
    (if s.client.numPmu ≠ 0 then do
      let live ← forLoop (freeRecord p) s.client.numPmu.toNat live
      freeMember (some p.self) p.configuration live
    else some live)
  free (some p.self) live

end

section
variable {α : Type}

def RecordPointers.blocks (p : RecordPointers α) : List α :=
  p.phasor.toList ++ (p.analog.toList ++ p.digital.toList)

def Pointers.tree (p : Pointers α) : List α :=
  p.records.flatMap RecordPointers.blocks ++ p.configuration.toList

def Pointers.blocks (p : Pointers α) : List α :=
  p.socket :: (p.bufferRcv.toList ++ (p.bufferSnd.toList ++ (p.configParsedTime.toList ++
    (p.dataParsedTime.toList ++ (p.tree ++ [p.self])))))

end

section
variable {F D α : Type} [Platform F D] [DecidableEq α]
variable {A : Allocator α Kind} {base live live' : Finset α} {lost : List α}

/-- The client owns the blocks it points to. Of the others that are live, `base` were so
    before it connected, and to those in `lost` no pointer is left. -/
structure HeapClient.Owned (base : Finset α) (lost : List α) (s : HeapClient α F) : Prop where
  adds : Adds base (s.pointers.blocks ++ lost) s.live
  records : s.pointers.records.length = s.client.numPmu.toNat
  array : s.client.numPmu ≠ 0 → s.pointers.configuration.isSome

theorem ite_array_adds {P : Prop} [Decidable P] {kind : Kind} {n : ℕ} {p : Option α}
    (h : (if P then A.array kind n live else some (none, live)) = some (p, live')) :
    Adds live p.toList live' := by
  split_ifs at h
  · exact (array_adds h).1
  · cases h
    exact adds_nil _

theorem recordHeap_adds {first c : Configuration F} {p : RecordPointers α}
    (h : recordHeap A first c live = some (p, live')) : Adds live p.blocks live' := by
  simp only [recordHeap, Option.bind_eq_bind, Option.bind_eq_some_iff, Option.some.injEq] at h
  obtain ⟨⟨phasor, _⟩, hphasor, ⟨analog, _⟩, hanalog, ⟨digital, _⟩, hdigital, h⟩ := h
  cases h
  exact (ite_array_adds hphasor).append
    ((ite_array_adds hanalog).append (ite_array_adds hdigital))

theorem recordsHeap_adds {first : Configuration F} {l : List (Configuration F)}
    {records : List (RecordPointers α)} (h : recordsHeap A first l live = some (records, live')) :
    Adds live (records.flatMap RecordPointers.blocks) live' ∧ records.length = l.length := by
  induction l generalizing live records with
  | nil =>
    cases h
    exact ⟨adds_nil _, rfl⟩
  | cons c rest ih =>
    simp only [recordsHeap, Option.bind_eq_bind, Option.bind_eq_some_iff, Option.some.injEq] at h
    obtain ⟨⟨record, _⟩, hrecord, ⟨records, _⟩, hrest, h⟩ := h
    cases h
    obtain ⟨adds, length⟩ := ih hrest
    exact ⟨(recordHeap_adds hrecord).append adds, congrArg (· + 1) length⟩

theorem configurationHeap_adds {l : List (Configuration F)} {array : Option α}
    {records : List (RecordPointers α)}
    (h : configurationHeap A l live = some ((array, records), live')) :
    Adds live (array.toList ++ records.flatMap RecordPointers.blocks) live' ∧
      records.length = l.length ∧ (l ≠ [] → array.isSome) := by
  simp only [configurationHeap, Option.bind_eq_bind, Option.bind_eq_some_iff] at h
  obtain ⟨⟨array, _⟩, harray, h⟩ := h
  obtain ⟨adds, isSome⟩ := array_adds harray
  have nonempty : l ≠ [] → array.isSome :=
    fun ne => isSome (fun zero => ne (List.length_eq_zero_iff.1 zero))
  cases l with
  | nil =>
    cases h
    exact ⟨by simpa using adds, rfl, nonempty⟩
  | cons first rest =>
    simp only [Option.bind_eq_some_iff, Option.some.injEq] at h
    obtain ⟨⟨records, _⟩, hrecords, h⟩ := h
    cases h
    obtain ⟨more, length⟩ := recordsHeap_adds hrecords
    exact ⟨adds.append more, length, nonempty⟩

theorem connectLoop_numPmu {timeoutInMs : UInt32} {attempts : List Bool} {count : ℕ}
    {self u : Client F} (h : connectLoop timeoutInMs attempts count self = some u) :
    u.numPmu = self.numPmu := by
  induction attempts generalizing count self with
  | nil => simp [connectLoop] at h
  | cons success attempts ih =>
    cases success with
    | true =>
      cases h
      rfl
    | false =>
      simp only [connectLoop, Option.bind_eq_bind, Option.bind_eq_some_iff] at h
      obtain ⟨next, hnext, hrest⟩ := h
      rw [ih hrest, ← ((reconnect_iff timeoutInMs count self next).1 hnext).2]
      rfl

theorem connectHeap_erase {pmuIdCode : ℤ} {timeoutInMs : UInt32} {bufferSnd bufferRcv : List UInt8}
    {attempts : List Bool} {s : HeapClient α F}
    (h : connectHeap A pmuIdCode timeoutInMs bufferSnd bufferRcv attempts base = some s) :
    connect pmuIdCode timeoutInMs bufferSnd bufferRcv attempts = some s.client := by
  simp only [connectHeap, Option.bind_eq_bind, Option.bind_eq_some_iff, Option.some.injEq] at h
  obtain ⟨_, _, _, _, client, hclient, rfl⟩ := h
  exact hclient

theorem connectHeap_owned {pmuIdCode : ℤ} {timeoutInMs : UInt32} {bufferSnd bufferRcv : List UInt8}
    {attempts : List Bool} {s : HeapClient α F}
    (h : connectHeap A pmuIdCode timeoutInMs bufferSnd bufferRcv attempts base = some s) :
    s.Owned base [] ∧ s.client.numPmu = 0 := by
  simp only [connectHeap, Option.bind_eq_bind, Option.bind_eq_some_iff, Option.some.injEq] at h
  obtain ⟨⟨self, live⟩, hself, ⟨socket, live'⟩, hsocket, client, hclient, rfl⟩ := h
  have noPmus : client.numPmu = 0 := connectLoop_numPmu hclient
  have adds := ((record_adds hself).append (alloc_adds A .buffer BUFER_LENGTH live)).append
    ((alloc_adds A .buffer BUFER_LENGTH _).append (record_adds hsocket))
  refine ⟨⟨adds.perm ?_, by simp [noPmus], fun ne => absurd noPmus ne⟩, noPmus⟩
  rw [List.perm_iff_count]
  intro a
  simp only [Pointers.blocks, Pointers.tree, List.count_append, List.count_cons, List.count_nil,
    Option.toList_none, List.flatMap_nil]
  omega

def HeapClient.dropped (s : HeapClient α F) : Event F → List α
  | .dataFrame _ _ => s.pointers.dataParsedTime.toList
  | .configurationFrame _ => s.pointers.configParsedTime.toList ++ s.pointers.tree

theorem handle_erase {s t : HeapClient α F} {e : Event F} {r : ℤ} (h : s.handle A e = some (r, t)) :
    handle s.client e = some (r, t.client) := by
  simp only [HeapClient.handle, Option.bind_eq_bind, Option.bind_eq_some_iff] at h
  obtain ⟨⟨r', client⟩, step, h⟩ := h
  rw [step]
  split_ifs at h with accepted
  · cases h
    rfl
  · simp only [Option.bind_eq_some_iff] at h
    obtain ⟨⟨time, _⟩, _, h⟩ := h
    cases e with
    | dataFrame x temps =>
      cases h
      rfl
    | configurationFrame x =>
      simp only [Option.bind_eq_some_iff, Option.some.injEq] at h
      obtain ⟨⟨⟨_, _⟩, _⟩, _, h⟩ := h
      cases h
      rfl

def HeapClient.Installs (A : Allocator α Kind) (s : HeapClient α F) (t : HeapClient α F)
    (parsedTime : α) (live : Finset α) : Event F → Prop
  | .dataFrame _ _ =>
    t.pointers = { s.pointers with dataParsedTime := some parsedTime } ∧ t.live = live
  | .configurationFrame _ => ∃ configuration records,
    configurationHeap A t.client.configuration live = some ((configuration, records), t.live) ∧
      t.pointers = { s.pointers with
        configParsedTime := some parsedTime, configuration, records }

theorem heap_cases {s t : HeapClient α F} {e : Event F} {r : ℤ} (h : s.handle A e = some (r, t)) :
    (r = 0 ∧ t.client = e.store s.client ∧ ∃ parsedTime live,
      A.record .parsedTime s.live = some (parsedTime, live) ∧ s.Installs A t parsedTime live e) ∨
      (r = -1 ∧ t = s) := by
  simp only [HeapClient.handle, Option.bind_eq_bind, Option.bind_eq_some_iff] at h
  obtain ⟨⟨r', client⟩, step, h⟩ := h
  rcases handle_cases step with ⟨rfl, _, _, rfl⟩ | ⟨rfl, _, rfl⟩
  · rw [if_neg (by simp)] at h
    simp only [Option.bind_eq_some_iff] at h
    obtain ⟨⟨parsedTime, live⟩, htime, h⟩ := h
    cases e with
    | dataFrame x temps =>
      cases h
      exact .inl ⟨rfl, rfl, parsedTime, live, htime, rfl, rfl⟩
    | configurationFrame x =>
      simp only [Option.bind_eq_some_iff, Option.some.injEq] at h
      obtain ⟨⟨⟨configuration, records⟩, _⟩, hconfiguration, h⟩ := h
      cases h
      exact .inl ⟨rfl, rfl, parsedTime, live, htime, configuration, records, hconfiguration, rfl⟩
  · rw [if_pos (by simp)] at h
    cases h
    exact .inr ⟨rfl, rfl⟩

theorem stored_configuration_length (self : Client F) (r : Received) :
    ((Event.configurationFrame r).store self).configuration.length =
      ((Event.configurationFrame r : Event F).store self).numPmu.toNat := by
  simp [Event.store, Client.storeConfiguration, configurationAt]

theorem handle_owned {s t : HeapClient α F} {e : Event F} {r : ℤ} (owned : s.Owned base lost)
    (h : s.handle A e = some (r, t)) :
    t.Owned base (if r = 0 then s.dropped e ++ lost else lost) := by
  rcases heap_cases h with ⟨rfl, client, parsedTime, live, htime, installs⟩ | ⟨rfl, rfl⟩
  · have more := owned.adds.append (record_adds htime)
    rw [if_pos rfl]
    cases e with
    | dataFrame x temps =>
      obtain ⟨pointers, rfl⟩ := installs
      have numPmu : t.client.numPmu = s.client.numPmu := by
        rw [client]
        rfl
      refine ⟨more.perm ?_, ?_, ?_⟩
      · rw [pointers, List.perm_iff_count]
        intro a
        simp only [Pointers.blocks, Pointers.tree, HeapClient.dropped, List.count_append,
          List.count_cons, List.count_nil, Option.toList_some]
        omega
      · rw [pointers, numPmu]
        exact owned.records
      · rw [pointers, numPmu]
        exact owned.array
    | configurationFrame x =>
      obtain ⟨configuration, records, hconfiguration, pointers⟩ := installs
      obtain ⟨tree, length, isSome⟩ := configurationHeap_adds hconfiguration
      have numPmu := stored_configuration_length s.client x
      rw [← client] at numPmu
      refine ⟨(more.append tree).perm ?_, ?_, fun ne => ?_⟩
      · rw [pointers, List.perm_iff_count]
        intro a
        simp only [Pointers.blocks, Pointers.tree, HeapClient.dropped, List.count_append,
          List.count_cons, List.count_nil, Option.toList_some]
        omega
      · rw [pointers, ← numPmu]
        exact length
      · rw [pointers]
        apply isSome
        rintro nil
        rw [nil, List.length_nil] at numPmu
        exact (word_ne_zero_iff _).1 ne numPmu.symm
  · simpa using owned

theorem freeRecord_adds {p : Pointers α} {a : α} {j : ℕ} (array : p.configuration = some a)
    {rest : List α} (owner : a ∈ rest) (hj : j < p.records.length)
    (h : Adds base ((p.records.drop j).flatMap RecordPointers.blocks ++ rest) live) :
    ∃ live', freeRecord p j live = some live' ∧
      Adds base ((p.records.drop (j + 1)).flatMap RecordPointers.blocks ++ rest) live' := by
  rw [List.drop_eq_getElem_cons hj, List.flatMap_cons, RecordPointers.blocks, List.append_assoc,
    List.append_assoc, List.append_assoc] at h
  obtain ⟨live₁, free₁, h₁⟩ := h.freeMember (a := a) (by simp [owner])
  obtain ⟨live₂, free₂, h₂⟩ := h₁.freeMember (a := a) (by simp [owner])
  obtain ⟨live₃, free₃, h₃⟩ := h₂.freeMember (a := a) (by simp [owner])
  refine ⟨live₃, ?_, h₃⟩
  simp only [freeRecord, List.getElem?_eq_getElem hj, array, free₁, free₂, free₃,
    Option.bind_eq_bind, Option.bind_some]

theorem freeRecords_adds {p : Pointers α} {a : α} (array : p.configuration = some a)
    {rest : List α} (owner : a ∈ rest)
    (h : Adds base (p.records.flatMap RecordPointers.blocks ++ rest) live) :
    ∃ live', forLoop (freeRecord p) p.records.length live = some live' ∧ Adds base rest live' := by
  obtain ⟨live', freed, left⟩ := forLoop_total (fun j live =>
    Adds base ((p.records.drop j).flatMap RecordPointers.blocks ++ rest) live) p.records.length
    (fun j hj live => freeRecord_adds array owner hj) (by simpa using h)
  exact ⟨live', freed, by simpa using left⟩

/-- The array of the records when there are none, which the client does not free. -/
def HeapClient.unfreed (s : HeapClient α F) : List α :=
  if s.client.numPmu = 0 then s.pointers.configuration.toList else []

theorem destroy_owned {s : HeapClient α F} (owned : s.Owned base lost) :
    ∃ live', s.destroy = some live' ∧ Adds base (s.unfreed ++ lost) live' := by
  have start := owned.adds
  simp only [Pointers.blocks, List.cons_append, List.append_assoc] at start
  obtain ⟨live₁, free₁, start⟩ := Adds.freeMember (p := some s.pointers.socket)
    (a := s.pointers.self) start (by simp)
  obtain ⟨live₂, free₂, start⟩ := start.freeMember (a := s.pointers.self) (by simp)
  obtain ⟨live₃, free₃, start⟩ := start.freeMember (a := s.pointers.self) (by simp)
  obtain ⟨live₄, free₄, start⟩ := start.freeMember (a := s.pointers.self) (by simp)
  obtain ⟨live₅, free₅, start⟩ := start.freeMember (a := s.pointers.self) (by simp)
  simp only [HeapClient.destroy, free₁, free₂, free₃, free₄, free₅, Option.bind_eq_bind,
    Option.bind_some, HeapClient.unfreed]
  rw [Pointers.tree, List.append_assoc] at start
  by_cases noPmus : s.client.numPmu = 0
  · have records : s.pointers.records = [] := by
      rw [← List.length_eq_zero_iff, owned.records, noPmus]
      rfl
    have last : Adds base ((some s.pointers.self).toList ++
        (s.pointers.configuration.toList ++ lost)) live₅ := by
      apply start.perm
      rw [records, List.perm_iff_count]
      intro a
      simp only [List.flatMap_nil, List.count_append, List.count_cons, List.count_nil,
        Option.toList_some]
      omega
    obtain ⟨live₆, free₆, left⟩ := last.free
    exact ⟨live₆, by simp [noPmus, free₆], by simpa [noPmus] using left⟩
  · obtain ⟨a, array⟩ := Option.isSome_iff_exists.1 (owned.array noPmus)
    rw [← owned.records]
    obtain ⟨live₆, free₆, h₆⟩ := freeRecords_adds array (by simp [array]) start
    obtain ⟨live₇, free₇, h₇⟩ := h₆.freeMember (a := s.pointers.self) (by simp)
    obtain ⟨live₈, free₈, left⟩ := Adds.free (p := some s.pointers.self) h₇
    exact ⟨live₈, by simp [noPmus, free₆, free₇, free₈], by simpa [noPmus] using left⟩

theorem run_owned {s final : HeapClient α F} {events : List (Event F)} {returned : List ℤ}
    (owned : s.Owned base lost) (h : run (HeapClient.handle A) s events = some (returned, final)) :
    ∃ lost', final.Owned base lost' :=
  run_invariant (fun s => ∃ lost, s.Owned base lost)
    (fun _ _ _ _ _ ⟨_, owned⟩ step => ⟨_, handle_owned owned step⟩) ⟨lost, owned⟩ h

/-- Whatever has been received, the blocks that a client points to are live and no two of
    them are the same, so that no call reads a freed block. Destroying it frees each of them
    once, and nothing else; only the array of an empty configuration stays. -/
theorem destroy_after_any_run {pmuIdCode : ℤ} {timeoutInMs : UInt32}
    {bufferSnd bufferRcv : List UInt8} {attempts : List Bool} {s final : HeapClient α F}
    {events : List (Event F)} {returned : List ℤ}
    (connected : connectHeap A pmuIdCode timeoutInMs bufferSnd bufferRcv attempts base = some s)
    (h : run (HeapClient.handle A) s events = some (returned, final)) :
    connect pmuIdCode timeoutInMs bufferSnd bufferRcv attempts = some s.client ∧
      run handle s.client events = some (returned, final.client) ∧
      final.pointers.blocks.Nodup ∧
      (∀ a ∈ final.pointers.blocks, a ∈ final.live ∧ a ∉ base) ∧
      ∃ live', final.destroy = some live' ∧
        ∀ a, a ∈ live' ↔ a ∈ final.live ∧ (a ∈ final.pointers.blocks → a ∈ final.unfreed) := by
  obtain ⟨lost, owned⟩ := run_owned (connectHeap_owned connected).1 h
  obtain ⟨nodup, _, apart⟩ := List.nodup_append'.1 owned.adds.nodup
  refine ⟨connectHeap_erase connected, run_erase HeapClient.client (fun _ _ _ _ => handle_erase) h,
    nodup, fun a ha => ?_, ?_⟩
  · exact ⟨owned.adds.mem (List.mem_append_left _ ha),
      owned.adds.apart a (List.mem_append_left _ ha)⟩
  · obtain ⟨live', freed, left⟩ := destroy_owned owned
    refine ⟨live', freed, fun a => ?_⟩
    have unfreed : a ∈ final.unfreed → a ∈ final.pointers.blocks := by
      intro ha
      rw [HeapClient.unfreed] at ha
      split_ifs at ha
      · simp [Pointers.blocks, Pointers.tree, Option.mem_toList.1 ha]
      · simp at ha
    have old := fun ha => owned.adds.apart a (List.mem_append_left lost ha)
    have notLost : a ∈ final.pointers.blocks → a ∉ lost := fun ha => apart ha
    rw [left.mem_iff, owned.adds.mem_iff, List.mem_append, List.mem_append]
    tauto

end

section
attribute [local instance] ExactRational.platform

def lifetime (events : List (Event ℚ)) : Option (List ℤ × Finset ℕ) := do
  let s ← connectHeap (Allocator.counting Kind) 7 1000 [] [] [true] ∅
  let (returned, final) ← run (HeapClient.handle (Allocator.counting Kind)) s events
  some (returned, ← final.destroy)

theorem plain_client_destroyed : ∃ s final : HeapClient ℕ ℚ, ∃ live',
    connectHeap (Allocator.counting Kind) 7 1000 [] [] [true] ∅ = some s ∧
      run (HeapClient.handle (Allocator.counting Kind)) s plainEvents =
        some ([-1, 0, -1], final) ∧
      final.pointers.blocks.Nodup ∧ final.destroy = some live' ∧ live' = ∅ := by
  have life : lifetime plainEvents = some ([-1, 0, -1], ∅) := by decide +kernel
  simp only [lifetime, Option.bind_eq_bind, Option.bind_eq_some_iff, Option.some.injEq,
    Prod.mk.injEq] at life
  obtain ⟨s, connected, ⟨_, final⟩, h, live', freed, rfl, rfl⟩ := life
  exact ⟨s, final, _, connected, h, (destroy_after_any_run connected h).2.2.1, freed, rfl⟩

end
end Khorjin
