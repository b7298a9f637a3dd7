import Khorjin.LeakedBlocks

set_option autoImplicit false

/-!
# How many frames the memory lasts for

No frame gives a block back. On a heap of finitely many blocks a client ends when it has
accepted as many frames as there were blocks, whatever it is sent.
-/
namespace Khorjin
open ByteMemory LoopRules RunRules BlockHeap

section
variable {F D α : Type} [Platform F D] [DecidableEq α]
variable {A : Allocator α Kind} {limit : ℕ}

theorem acceptedOf_cons (e : Event F) (events : List (Event F)) (r : ℤ) (returned : List ℤ) :
    acceptedOf (e :: events) (r :: returned) =
      if r = 0 then e :: acceptedOf events returned else acceptedOf events returned := by
  by_cases h : r = 0 <;> simp [acceptedOf, kept, h]

theorem blockCount_cons (e : Event F) (l : List (Event F)) :
    blockCount (e :: l) = e.blocks + blockCount l := by
  simp [blockCount]

/-- With room for the blocks of the accepted frames, a run goes as it would without a heap. -/
theorem run_serves (serves : A.Serves limit) {s : HeapClient α F} {events : List (Event F)}
    {returned : List ℤ} {client : Client F}
    (h : run handle s.client events = some (returned, client))
    (room : s.live.card + blockCount (acceptedOf events returned) ≤ limit) :
    ∃ final, run (HeapClient.handle A) s events = some (returned, final) ∧ final.client = client ∧
      final.live.card = s.live.card + blockCount (acceptedOf events returned) := by
  induction events generalizing s returned with
  | nil =>
    cases h
    exact ⟨s, rfl, rfl, rfl⟩
  | cons e events ih =>
    obtain ⟨r, self, rest, step, later, rfl⟩ := (run_cons_iff _ _ _ _ _ _).1 h
    rw [acceptedOf_cons] at room ⊢
    have first : r = 0 → s.live.card + e.blocks ≤ limit := by
      intro accepted
      rw [if_pos accepted, blockCount_cons] at room
      omega
    obtain ⟨t, ht, rfl, card⟩ := handle_serves serves step first
    have total : s.live.card + blockCount (if r = 0 then e :: acceptedOf events rest
        else acceptedOf events rest) = t.live.card + blockCount (acceptedOf events rest) := by
      rw [card]
      split_ifs
      · rw [blockCount_cons]
        omega
      · rfl
    rw [total] at room ⊢
    obtain ⟨final, run, same, left⟩ := ih later room
    exact ⟨final, (run_cons_iff _ _ _ _ _ _).2 ⟨r, t, rest, ht, run, rfl⟩, same, left⟩

theorem handle_card {s t : HeapClient α F} {e : Event F} {r : ℤ} (h : s.handle A e = some (r, t)) :
    s.live.card + (if r = 0 then 1 else 0) ≤ t.live.card := by
  rcases heap_cases h with ⟨rfl, _, parsedTime, live, htime, installs⟩ | ⟨rfl, rfl⟩
  · have card := (record_adds htime).card
    rw [List.length_singleton] at card
    rw [if_pos rfl, ← card]
    cases e with
    | dataFrame x temps =>
      obtain ⟨_, rfl⟩ := installs
      exact le_refl _
    | configurationFrame x =>
      obtain ⟨_, _, hconfiguration, _⟩ := installs
      exact Finset.card_le_card (configurationHeap_adds hconfiguration).1.subset
  · simp

theorem run_card {s final : HeapClient α F} {events : List (Event F)} {returned : List ℤ}
    (h : run (HeapClient.handle A) s events = some (returned, final)) :
    s.live.card + (acceptedOf events returned).length ≤ final.live.card := by
  have counted := run_history (· == 0)
    (fun (accepted : List (Event F)) (t : HeapClient α F) =>
      s.live.card + accepted.length ≤ t.live.card)
    (fun accepted t e r u before step => ?_) [] (le_refl _) h
  · exact counted
  · have more := handle_card step
    by_cases accepted : r = 0
    · simp only [accepted, beq_self_eq_true, if_true, List.length_append, List.length_singleton]
        at more ⊢
      omega
    · simp only [accepted, beq_iff_eq, if_false] at more ⊢
      omega

theorem blockCount_of_dataFrames {l : List (Event F)} (data : ∀ e ∈ l, e.isDataFrame) :
    blockCount l = l.length := by
  induction l with
  | nil => rfl
  | cons e l ih =>
    have one : e.blocks = 1 := by
      cases e with
      | dataFrame x temps => rfl
      | configurationFrame x =>
        exact absurd (data _ List.mem_cons_self) (by simp [Event.isDataFrame])
    rw [blockCount_cons, one, ih (fun e he => data e (List.mem_cons_of_mem _ he)), List.length_cons]
    omega

/-- A heap of finitely many blocks that are all handed out before a request is refused. A run
    with room for the blocks of its accepted frames goes as without a heap. One with more
    accepted frames than there were free blocks writes through a null pointer. For data
    frames these are the only cases: the run ends with the frame behind the last free block. -/
theorem memory_ends_the_run [Fintype α] (serves : A.Serves (Fintype.card α))
    {s : HeapClient α F} {events : List (Event F)} {returned : List ℤ} {client : Client F}
    (h : run handle s.client events = some (returned, client)) :
    (s.live.card + blockCount (acceptedOf events returned) ≤ Fintype.card α →
      ∃ final, run (HeapClient.handle A) s events = some (returned, final) ∧
        final.client = client ∧
        final.live.card = s.live.card + blockCount (acceptedOf events returned)) ∧
    (Fintype.card α < s.live.card + (acceptedOf events returned).length →
      run (HeapClient.handle A) s events = none) ∧
    ((∀ e ∈ events, e.isDataFrame) → (run (HeapClient.handle A) s events = none ↔
      Fintype.card α < s.live.card + (acceptedOf events returned).length)) := by
  have enough := fun room => run_serves serves h room
  have tooMany : Fintype.card α < s.live.card + (acceptedOf events returned).length →
      run (HeapClient.handle A) s events = none := by
    intro many
    rw [Option.eq_none_iff_forall_not_mem]
    rintro ⟨returned', final⟩ hrun
    have same := run_erase HeapClient.client (fun _ _ _ _ => handle_erase) hrun
    rw [h] at same
    cases same
    have all := Finset.card_le_univ final.live
    have counted := run_card hrun
    omega
  refine ⟨enough, tooMany, fun data => ⟨fun ends => ?_, tooMany⟩⟩
  by_contra room
  have count : blockCount (acceptedOf events returned) = (acceptedOf events returned).length :=
    blockCount_of_dataFrames (fun e he => data e ((kept_sublist _ _ _).subset he))
  obtain ⟨final, hrun, _⟩ := enough (by omega)
  rw [ends] at hrun
  cases hrun

end

section
attribute [local instance] ExactRational.platform

def plainDataFrame : List UInt8 :=
  appendChk [0xAA, 0x01, 0, 22, 0, 7, 0, 0, 0, 1, 0, 0, 0, 0, 0, 0, 0, 0, 0, 0]

theorem plainDataFrame_two_le : 2 ≤ plainDataFrame.length := by decide

theorem plainDataFrame_fits : plainDataFrame.length ≤ BUFER_LENGTH := by decide

def plainDataFrameEvent : Event ℚ :=
  .dataFrame (.ofBytes plainDataFrame plainDataFrame_two_le plainDataFrame_fits) ⟨0, 0⟩

def plainConfigurationEvent : Event ℚ :=
  .configurationFrame (.ofBytes plainConfiguration plainConfiguration_two_le
    plainConfiguration_fits)

theorem second_plain_frame_ends_the_run : ∃ s₀ s : HeapClient (Fin 7) ℚ,
    connectHeap (Allocator.firstFree Kind 7) 7 1000 [] [] [true] ∅ = some s₀ ∧
      run (HeapClient.handle (Allocator.firstFree Kind 7)) s₀ [plainConfigurationEvent] =
        some ([0], s) ∧
      run handle s.client [plainDataFrameEvent, plainDataFrameEvent] ≠ none ∧
      run (HeapClient.handle (Allocator.firstFree Kind 7)) s
        [plainDataFrameEvent, plainDataFrameEvent] = none := by
  have start : (do
      let s₀ ← connectHeap (F := ℚ) (Allocator.firstFree Kind 7) 7 1000 [] [] [true] ∅
      let (r, s) ← run (HeapClient.handle (Allocator.firstFree Kind 7)) s₀
        [plainConfigurationEvent]
      let (returned, _) ← run handle s.client [plainDataFrameEvent, plainDataFrameEvent]
      some (r, s.live.card, returned)) = some ([0], 6, [0, 0]) := by
    decide +kernel
  simp only [Option.bind_eq_bind, Option.bind_eq_some_iff, Option.some.injEq, Prod.mk.injEq]
    at start
  obtain ⟨s₀, connected, ⟨_, s⟩, configured, ⟨_, client⟩, h, rfl, taken, rfl⟩ := start
  refine ⟨s₀, s, connected, configured, by simp [h], ?_⟩
  have data : ∀ e ∈ [plainDataFrameEvent, plainDataFrameEvent], e.isDataFrame := by
    intro e he
    obtain rfl | he := List.mem_cons.1 he
    · rfl
    · obtain rfl := List.mem_singleton.1 he
      rfl
  refine ((memory_ends_the_run (firstFree_serves Kind 7) h).2.2 data).2 ?_
  rw [taken]
  decide

end
end Khorjin
