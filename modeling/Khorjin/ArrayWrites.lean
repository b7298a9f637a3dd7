import Mathlib.Algebra.BigOperators.Intervals
import Mathlib.Data.List.GetD
import Mathlib.Logic.Function.Basic
import Khorjin.LoopRules

set_option autoImplicit false

/-!
# Values written into an array one after the other

An array is a function of its index. `writeFrom a k values` is `a` after `values`
have been written from index `k` on. Parts of several lengths that are written one
after the other begin at the sums of the lengths before them.
-/
namespace ArrayWrites
variable {α : Type}

def writeFrom (a : ℕ → α) (k : ℕ) (values : List α) : ℕ → α :=
  fun x => if k ≤ x then values.getD (x - k) (a x) else a x

@[simp] theorem writeFrom_nil (a : ℕ → α) (k : ℕ) : writeFrom a k [] = a := by
  funext x
  simp [writeFrom]

theorem writeFrom_append (a : ℕ → α) (k : ℕ) (values values' : List α) :
    writeFrom (writeFrom a k values) (k + values.length) values' =
      writeFrom a k (values ++ values') := by
  funext x
  unfold writeFrom
  by_cases hk : k ≤ x
  · rw [if_pos hk, if_pos hk]
    by_cases hx : k + values.length ≤ x
    · have old : values.getD (x - k) (a x) = a x := List.getD_eq_default _ _ (by omega)
      rw [if_pos hx, List.getD_append_right _ _ _ _ (by omega), old, Nat.sub_sub]
    · rw [if_neg hx, List.getD_append _ _ _ _ (by omega)]
  · rw [if_neg hk, if_neg hk, if_neg (by omega)]

theorem writeFrom_singleton (a : ℕ → α) (k : ℕ) (v : α) :
    writeFrom a k [v] = Function.update a k v := by
  funext x
  rw [Function.update_apply, writeFrom]
  by_cases hx : x = k
  · subst x
    simp
  · rw [if_neg hx]
    by_cases hk : k ≤ x
    · rw [if_pos hk, List.getD_eq_default]
      simp only [List.length_singleton]
      omega
    · rw [if_neg hk]

theorem update_writeFrom (a : ℕ → α) {k j : ℕ} {values : List α} (hj : k + values.length = j)
    (v : α) : Function.update (writeFrom a k values) j v = writeFrom a k (values ++ [v]) := by
  rw [← writeFrom_append, hj, writeFrom_singleton]

theorem writeFrom_get (a : ℕ → α) (k : ℕ) {values : List α} {j : ℕ} {v : α}
    (h : values[j]? = some v) : writeFrom a k values (k + j) = v := by
  rw [writeFrom, if_pos (Nat.le_add_right k j), Nat.add_sub_cancel_left, List.getD_eq_getElem?_getD,
    h]
  rfl

theorem writeFrom_behind (a : ℕ → α) {k x : ℕ} {values : List α} (h : k + values.length ≤ x) :
    writeFrom a k values x = a x := by
  rw [writeFrom, if_pos (by omega), List.getD_eq_default _ _ (by omega)]

theorem writeFrom_below (a : ℕ → α) {k x : ℕ} {values : List α} (h : x < k) :
    writeFrom a k values x = a x := by
  rw [writeFrom, if_neg (by omega)]

theorem take_succ_map {β : Type} (f : β → α) {l : List β} {j : ℕ} {x : β} (h : l[j]? = some x) :
    (l.take (j + 1)).map f = (l.take j).map f ++ [f x] := by
  rw [List.take_add_one, h, List.map_append]
  rfl

/-- Element `j` of part `i` of a list put together from parts. -/
theorem flatMap_get {β : Type} (f : β → List α) {xs : List β} {i j : ℕ} {x : β} {v : α}
    (hx : xs[i]? = some x) (hv : (f x)[j]? = some v) :
    (xs.flatMap f)[((xs.take i).flatMap f).length + j]? = some v := by
  have hj := (List.getElem?_eq_some_iff.1 hv).choose
  rw [LoopRules.flatMap_cut f hx, List.getElem?_append_right (Nat.le_add_right _ _),
    Nat.add_sub_cancel_left, List.getElem?_append_left hj, hv]

/-- Where part `i` begins, the parts having the lengths `n`. -/
def partStart (n : ℕ → ℕ) (i : ℕ) : ℕ := ∑ k ∈ Finset.range i, n k

theorem partStart_succ (n : ℕ → ℕ) (i : ℕ) : partStart n (i + 1) = partStart n i + n i :=
  Finset.sum_range_succ n i

theorem partStart_mono (n : ℕ → ℕ) : Monotone (partStart n) := by
  refine monotone_nat_of_le_succ (fun i => ?_)
  rw [partStart_succ]
  exact Nat.le_add_right _ _

theorem existsUnique_part (n : ℕ → ℕ) {i x : ℕ} (h : x < partStart n i) :
    ∃! kj : ℕ × ℕ, kj.1 < i ∧ kj.2 < n kj.1 ∧ partStart n kj.1 + kj.2 = x := by
  have found : ∃ kj : ℕ × ℕ, kj.1 < i ∧ kj.2 < n kj.1 ∧ partStart n kj.1 + kj.2 = x := by
    induction i with
    | zero => exact absurd h (Nat.not_lt_zero x)
    | succ i ih =>
      rw [partStart_succ] at h
      by_cases before : x < partStart n i
      · obtain ⟨kj, hk, hj⟩ := ih before
        exact ⟨kj, by omega, hj⟩
      · exact ⟨(i, x - partStart n i), by omega, by dsimp only; omega, by dsimp only; omega⟩
  obtain ⟨⟨k, j⟩, hk, hj, hx⟩ := found
  refine ⟨(k, j), ⟨hk, hj, hx⟩, ?_⟩
  rintro ⟨k', j'⟩ ⟨_, hj', hx'⟩
  -- the later of two parts begins behind the other one
  have same : k' = k := by
    rcases Nat.lt_trichotomy k' k with lt | rfl | gt
    · have := partStart_mono n (Nat.succ_le_of_lt lt)
      rw [Nat.succ_eq_add_one, partStart_succ] at this
      dsimp only at hx hx' hj'
      omega
    · rfl
    · have := partStart_mono n (Nat.succ_le_of_lt gt)
      rw [Nat.succ_eq_add_one, partStart_succ] at this
      dsimp only at hx hx' hj
      omega
  subst same
  dsimp only at hx hx'
  rw [Prod.mk.injEq]
  omega

section
variable {β : Type} {f : β → List α} {xs : List β} {n : ℕ → ℕ}
  (lengths : ∀ k x, xs[k]? = some x → (f x).length = n k)
include lengths

theorem take_flatMap_length {i : ℕ} (hi : i ≤ xs.length) :
    ((xs.take i).flatMap f).length = partStart n i := by
  induction i with
  | zero => rfl
  | succ i ih =>
    have hx : xs[i]? = some xs[i] := List.getElem?_eq_getElem hi
    rw [List.take_add_one, hx, List.flatMap_append, List.length_append, ih (by omega),
      partStart_succ, ← lengths i _ hx]
    simp

theorem flatMap_length : (xs.flatMap f).length = partStart n xs.length := by
  have whole := take_flatMap_length lengths (le_refl xs.length)
  rwa [List.take_length] at whole

/-- Value `j` of part `i`, the parts being written from the front of an array on. -/
theorem writeFrom_part (a : ℕ → α) {i j : ℕ} {x : β} {v : α} (hx : xs[i]? = some x)
    (hv : (f x)[j]? = some v) : writeFrom a 0 (xs.flatMap f) (partStart n i + j) = v := by
  have hi := (List.getElem?_eq_some_iff.1 hx).choose
  have place := writeFrom_get a 0 (flatMap_get f hx hv)
  rwa [take_flatMap_length lengths (le_of_lt hi), Nat.zero_add] at place

end
end ArrayWrites
