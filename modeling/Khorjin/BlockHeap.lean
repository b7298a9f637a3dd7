import Mathlib.Data.Fintype.Card
import Mathlib.Data.Finset.Insert
import Mathlib.Data.Finset.Lattice.Fold
import Mathlib.Order.Lattice.Nat
import Khorjin.LoopRules

set_option autoImplicit false

/-!
# Blocks that are handed out and given back

A heap is the set of its live blocks. An allocator picks any block that is not
live, perhaps one that has been given back before, or refuses with the null
pointer. `Adds` says which blocks have been handed out and are still there.
-/
namespace BlockHeap
variable {α κ : Type}

/-- How a request for a number of records of one kind is answered. -/
structure Allocator (α κ : Type) where
  answer : Finset α → κ → ℕ → Option α
  fresh : ∀ live kind n a, answer live kind n = some a → a ∉ live

/-- The blocks `new` are live in `live'`, beside those of `live`. -/
structure Adds (live : Finset α) (new : List α) (live' : Finset α) : Prop where
  nodup : new.Nodup
  apart : ∀ a ∈ new, a ∉ live
  mem_iff : ∀ a, a ∈ live' ↔ a ∈ live ∨ a ∈ new

variable {base live live' live'' : Finset α} {new new' rest : List α}

theorem adds_nil (live : Finset α) : Adds live [] live :=
  ⟨List.nodup_nil, fun a ha => absurd ha List.not_mem_nil, fun a => by simp⟩

theorem Adds.append (h : Adds live new live') (h' : Adds live' new' live'') :
    Adds live (new ++ new') live'' := by
  refine ⟨?_, ?_, fun a => ?_⟩
  · rw [List.nodup_append']
    refine ⟨h.nodup, h'.nodup, fun a ha ha' => ?_⟩
    exact h'.apart a ha' ((h.mem_iff a).2 (.inr ha))
  · intro a ha
    rcases List.mem_append.1 ha with ha | ha
    · exact h.apart a ha
    · exact fun old => h'.apart a ha ((h.mem_iff a).2 (.inl old))
  · rw [h'.mem_iff, h.mem_iff, List.mem_append, or_assoc]

theorem Adds.perm (h : Adds live new live') (same : new.Perm new') : Adds live new' live' :=
  ⟨same.nodup_iff.1 h.nodup, fun a ha => h.apart a (same.mem_iff.2 ha),
    fun a => by rw [h.mem_iff, same.mem_iff]⟩

theorem Adds.mem (h : Adds live new live') {a : α} (ha : a ∈ new) : a ∈ live' :=
  (h.mem_iff a).2 (.inr ha)

theorem Adds.subset (h : Adds live new live') : live ⊆ live' :=
  fun a ha => (h.mem_iff a).2 (.inl ha)

variable [DecidableEq α]

def Allocator.alloc (A : Allocator α κ) (kind : κ) (n : ℕ) (live : Finset α) :
    Option α × Finset α :=
  match A.answer live kind n with
  | none => (none, live)
  | some a => (some a, insert a live)

/-- A request for one record, which is written to unchecked. -/
def Allocator.record (A : Allocator α κ) (kind : κ) (live : Finset α) : Option (α × Finset α) :=
  match A.alloc kind 1 live with
  | (none, _) => none
  | (some a, live) => some (a, live)

/-- A request for an array, whose records are written to unchecked when there are any. -/
def Allocator.array (A : Allocator α κ) (kind : κ) (n : ℕ) (live : Finset α) :
    Option (Option α × Finset α) :=
  match A.alloc kind n live with
  | (none, live) => if n = 0 then some (none, live) else none
  | (some a, live) => some (some a, live)

/-- The null pointer is ignored, and a block that is not live must not be freed. -/
def free (p : Option α) (live : Finset α) : Option (Finset α) :=
  match p with
  | none => some live
  | some a => if a ∈ live then some (live.erase a) else none

def access (p : Option α) (live : Finset α) : Option α :=
  p.bind (fun a => if a ∈ live then some a else none)

theorem Adds.card (h : Adds live new live') : live'.card = live.card + new.length := by
  have union : live' = live ∪ new.toFinset := by
    ext a
    simp [h.mem_iff a]
  have apart : Disjoint live new.toFinset := by
    rw [Finset.disjoint_left]
    exact fun a ha hn => h.apart a (List.mem_toFinset.1 hn) ha
  rw [union, Finset.card_union_of_disjoint apart, List.toFinset_card_of_nodup h.nodup]

theorem alloc_adds (A : Allocator α κ) (kind : κ) (n : ℕ) (live : Finset α) :
    Adds live (A.alloc kind n live).1.toList (A.alloc kind n live).2 := by
  cases h : A.answer live kind n with
  | none =>
    simp only [Allocator.alloc, h, Option.toList_none]
    exact adds_nil live
  | some a =>
    simp only [Allocator.alloc, h, Option.toList_some]
    refine ⟨List.nodup_singleton a, fun b hb => ?_, fun b => ?_⟩
    · rw [List.mem_singleton.1 hb]
      exact A.fresh live kind n a h
    · rw [Finset.mem_insert, List.mem_singleton, or_comm]

theorem record_adds {A : Allocator α κ} {kind : κ} {a : α}
    (h : A.record kind live = some (a, live')) : Adds live [a] live' := by
  have adds := alloc_adds A kind 1 live
  rw [Allocator.record] at h
  rcases hx : A.alloc kind 1 live with ⟨_ | b, rest⟩
  · simp [hx] at h
  · simp only [hx] at h adds
    cases h
    exact adds

theorem array_adds {A : Allocator α κ} {kind : κ} {n : ℕ} {p : Option α}
    (h : A.array kind n live = some (p, live')) :
    Adds live p.toList live' ∧ (n ≠ 0 → p.isSome) := by
  have adds := alloc_adds A kind n live
  rw [Allocator.array] at h
  rcases hx : A.alloc kind n live with ⟨_ | a, rest⟩
  · simp only [hx] at h adds
    split_ifs at h with hn
    cases h
    exact ⟨adds, fun ne => absurd hn ne⟩
  · simp only [hx] at h adds
    cases h
    exact ⟨adds, fun _ => rfl⟩

def Allocator.Total (A : Allocator α κ) : Prop := ∀ live kind n, (A.answer live kind n).isSome

def Allocator.Serves (A : Allocator α κ) (limit : ℕ) : Prop :=
  ∀ live kind n, live.card < limit → (A.answer live kind n).isSome

section
variable {A : Allocator α κ} {limit : ℕ}

omit [DecidableEq α] in
theorem Allocator.Total.serves (total : A.Total) (limit : ℕ) : A.Serves limit :=
  fun live kind n _ => total live kind n

omit [DecidableEq α] in
theorem Allocator.Serves.answer (serves : A.Serves limit) (room : live.card < limit) (kind : κ)
    (n : ℕ) : ∃ a, A.answer live kind n = some a :=
  Option.isSome_iff_exists.1 (serves live kind n room)

theorem Allocator.Serves.record (serves : A.Serves limit) (room : live.card < limit) (kind : κ) :
    ∃ a live', A.record kind live = some (a, live') := by
  obtain ⟨a, h⟩ := serves.answer room kind 1
  exact ⟨a, insert a live, by simp [Allocator.record, Allocator.alloc, h]⟩

theorem Allocator.Serves.array (serves : A.Serves limit) (room : live.card < limit) (kind : κ)
    (n : ℕ) : ∃ a live', A.array kind n live = some (some a, live') := by
  obtain ⟨a, h⟩ := serves.answer room kind n
  exact ⟨a, insert a live, by simp [Allocator.array, Allocator.alloc, h]⟩

end

theorem Adds.access (h : Adds base new live) {a : α} (ha : a ∈ new) :
    access (some a) live = some a := by
  simp [BlockHeap.access, h.mem ha]

theorem Adds.free {p : Option α} (h : Adds base (p.toList ++ rest) live) :
    ∃ live', free p live = some live' ∧ Adds base rest live' := by
  cases p with
  | none => exact ⟨live, rfl, h⟩
  | some a =>
    have live_a : a ∈ live := h.mem (List.mem_append_left _ (List.mem_singleton_self a))
    obtain ⟨notMem, nodup⟩ := List.nodup_cons.1 h.nodup
    refine ⟨live.erase a, by simp [BlockHeap.free, live_a], nodup,
      fun b hb => h.apart b (List.mem_append_right _ hb), fun b => ?_⟩
    have notOld := h.apart a (List.mem_append_left _ (List.mem_singleton_self a))
    rw [Finset.mem_erase, h.mem_iff, List.mem_append, Option.toList_some, List.mem_singleton]
    constructor
    · rintro ⟨ne, old | rfl | hb⟩
      · exact .inl old
      · exact absurd rfl ne
      · exact .inr hb
    · rintro (old | hb)
      · exact ⟨fun e => notOld (e ▸ old), .inl old⟩
      · exact ⟨fun e => notMem (e ▸ hb), .inr (.inr hb)⟩

def freeMember (owner p : Option α) (live : Finset α) : Option (Finset α) :=
  (access owner live).bind (fun _ => free p live)

theorem Adds.freeMember {a : α} {p : Option α} (h : Adds base (p.toList ++ rest) live)
    (owner : a ∈ rest) :
    ∃ live', freeMember (some a) p live = some live' ∧ Adds base rest live' := by
  obtain ⟨live', freed, left⟩ := h.free
  refine ⟨live', ?_, left⟩
  rw [BlockHeap.freeMember, h.access (List.mem_append_right _ owner), Option.bind_some, freed]

theorem sup_succ_not_mem (live : Finset ℕ) : live.sup id + 1 ∉ live := by
  intro member
  have le : live.sup id + 1 ≤ live.sup id := Finset.le_sup (f := id) member
  omega

/-- The allocator that never gives a block back out: it picks the number behind all live ones. -/
def Allocator.counting (κ : Type) : Allocator ℕ κ where
  answer live _ _ := some (live.sup id + 1)
  fresh _ _ _ _ h := Option.some.inj h ▸ sup_succ_not_mem _

theorem counting_total (κ : Type) : (Allocator.counting κ).Total := fun _ _ _ => rfl

theorem find_not_mem {n : ℕ} {live : Finset (Fin n)} {a : Fin n}
    (h : (List.finRange n).find? (fun a => a ∉ live) = some a) : a ∉ live := by
  simpa using List.find?_some h

/-- The allocator of a heap of `n` blocks: it picks the first one that is not live. -/
def Allocator.firstFree (κ : Type) (n : ℕ) : Allocator (Fin n) κ where
  answer live _ _ := (List.finRange n).find? (fun a => a ∉ live)
  fresh _ _ _ _ h := find_not_mem h

theorem firstFree_serves (κ : Type) (n : ℕ) :
    (Allocator.firstFree κ n).Serves (Fintype.card (Fin n)) := by
  intro live kind m room
  obtain ⟨a, _, ha⟩ := Finset.exists_mem_notMem_of_card_lt_card
    (show live.card < (Finset.univ : Finset (Fin n)).card from room)
  exact List.find?_isSome.2 ⟨a, List.mem_finRange a, by simpa using ha⟩

end BlockHeap
