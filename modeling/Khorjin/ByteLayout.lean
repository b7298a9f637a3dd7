import Mathlib.Algebra.Ring.Nat
import Khorjin.ByteMemory

set_option autoImplicit false

/-!
# Byte strings inside a memory

`Holds m p l` says that the bytes of `m` from `p` on are those of `l`. A string
put together from parts is taken apart by the rules below.
-/
namespace ByteMemory

def Holds (m : ℕ → UInt8) (p : ℕ) (l : List UInt8) : Prop :=
  ∀ i x, l[i]? = some x → m (p + i) = x

theorem Holds.move {m : ℕ → UInt8} {p q : ℕ} {l : List UInt8} (h : Holds m p l) (e : p = q) :
    Holds m q l := e ▸ h

theorem holds_nil (m : ℕ → UInt8) (p : ℕ) : Holds m p [] := by
  intro i x h
  simp at h

theorem holds_cons_iff (m : ℕ → UInt8) (p : ℕ) (x : UInt8) (l : List UInt8) :
    Holds m p (x :: l) ↔ m p = x ∧ Holds m (p + 1) l := by
  constructor
  · intro h
    refine ⟨h 0 x rfl, ?_⟩
    intro i y hy
    have := h (i + 1) y hy
    rwa [show p + (i + 1) = p + 1 + i by omega] at this
  · rintro ⟨rfl, h⟩ i y hy
    cases i with
    | zero =>
      exact Option.some.inj hy
    | succ i =>
      rw [show p + (i + 1) = p + 1 + i by omega]
      exact h i y hy

theorem holds_append_iff (m : ℕ → UInt8) (p : ℕ) (l l' : List UInt8) :
    Holds m p (l ++ l') ↔ Holds m p l ∧ Holds m (p + l.length) l' := by
  induction l generalizing p with
  | nil => simp [holds_nil]
  | cons x l ih =>
    rw [List.cons_append, holds_cons_iff, holds_cons_iff, ih, and_assoc, List.length_cons,
      show p + 1 + l.length = p + (l.length + 1) by omega]

/-- The bytes of the string `l` can be read at `p`. -/
def Stored (b : Memory) (p : ℕ) (l : List UInt8) : Prop :=
  b.Defined p (p + l.length) ∧ Holds b.byte p l

theorem Stored.move {b : Memory} {p q : ℕ} {l : List UInt8} (h : Stored b p l) (e : p = q) :
    Stored b q l := e ▸ h

theorem stored_append_iff (b : Memory) (p : ℕ) (l l' : List UInt8) :
    Stored b p (l ++ l') ↔ Stored b p l ∧ Stored b (p + l.length) l' := by
  have range := Memory.defined_append (b := b) (p := p) (q := p + l.length)
    (r := p + l.length + l'.length) (by omega) (by omega)
  rw [Stored, Stored, Stored, holds_append_iff, List.length_append, ← Nat.add_assoc, ← range]
  tauto

theorem Stored.within {b : Memory} {p : ℕ} {l : List UInt8} (h : Stored b p l) {S : ℕ → Prop}
    [DecidablePred S] (inside : ∀ i, p ≤ i → i < p + l.length → S i) :
    Stored (b.within S) p l := by
  refine ⟨h.1.within inside, fun i x hx => ?_⟩
  have lt := (List.getElem?_eq_some_iff.1 hx).choose
  rw [Memory.within_byte b (inside (p + i) (by omega) (by omega))]
  exact h.2 i x hx

theorem stored_zeroFilled {size : ℕ} (l l' : List UInt8) (h : (l ++ l').length ≤ size) :
    Stored (Memory.zeroFilled size (l ++ l')) l.length l' := by
  refine ⟨Memory.zeroFilled_defined _ (by simpa using h), fun i x hx => ?_⟩
  have lt := (List.getElem?_eq_some_iff.1 hx).choose
  rw [List.length_append] at h
  rw [Memory.zeroFilled_byte _ (by omega), List.getD_eq_getElem?_getD,
    List.getElem?_append_right (by omega), Nat.add_sub_cancel_left, hx]
  rfl

/-- The offset of part `i` of a string put together with `f`. -/
def partOffset {α : Type} (f : α → List UInt8) (xs : List α) (i : ℕ) : ℕ :=
  ((xs.take i).map (fun x => (f x).length)).sum

theorem partOffset_succ {α : Type} (f : α → List UInt8) {xs : List α} {i : ℕ} {x : α}
    (h : xs[i]? = some x) : partOffset f xs (i + 1) = partOffset f xs i + (f x).length := by
  rw [partOffset, partOffset, List.take_add_one, h, List.map_append, List.sum_append]
  rfl

theorem partOffset_length {α : Type} (f : α → List UInt8) (xs : List α) :
    partOffset f xs xs.length = (xs.flatMap f).length := by
  rw [partOffset, List.take_length, List.length_flatMap]

theorem partOffset_uniform {α : Type} {f : α → List UInt8} {w : ℕ} (fixed : ∀ x, (f x).length = w)
    {xs : List α} {i : ℕ} (h : i ≤ xs.length) : partOffset f xs i = w * i := by
  induction i with
  | zero => rfl
  | succ i ih =>
    have hx : xs[i]? = some xs[i] := List.getElem?_eq_getElem h
    rw [partOffset_succ f hx, ih (by omega), fixed, Nat.mul_succ]

theorem holds_flatMap {α : Type} {m : ℕ → UInt8} {p i : ℕ} {f : α → List UInt8} {xs : List α}
    {x : α} (h : Holds m p (xs.flatMap f)) (hx : xs[i]? = some x) :
    Holds m (p + partOffset f xs i) (f x) := by
  rw [LoopRules.flatMap_cut f hx, holds_append_iff, holds_append_iff, List.length_flatMap] at h
  exact h.2.1

theorem holds_slot {α : Type} (f : α → List UInt8) {m : ℕ → UInt8} {p i w : ℕ} {xs : List α} {x : α}
    (fixed : ∀ x, (f x).length = w) (h : Holds m p (xs.flatMap f)) (hx : xs[i]? = some x) :
    Holds m (p + w * i) (f x) := by
  have lt := (List.getElem?_eq_some_iff.1 hx).choose
  have := holds_flatMap h hx
  rwa [partOffset_uniform fixed (by omega)] at this

theorem flatMap_length_uniform {α : Type} (f : α → List UInt8) {w : ℕ}
    (fixed : ∀ x, (f x).length = w) (xs : List α) : (xs.flatMap f).length = w * xs.length := by
  rw [← partOffset_length, partOffset_uniform fixed (le_refl _)]

theorem holds_zeroFilled {size : ℕ} {l : List UInt8} (h : l.length ≤ size) :
    Holds (Memory.zeroFilled size l).byte 0 l := by
  intro i x hx
  have lt := (List.getElem?_eq_some_iff.1 hx).choose
  rw [Nat.zero_add, Memory.zeroFilled_byte l (by omega), List.getD_eq_getElem?_getD, hx]
  rfl

theorem zeroFilled_getD {size : ℕ} {l : List UInt8} (h : l.length ≤ size) (i : ℕ) :
    (Memory.zeroFilled size l).byte i = l.getD i 0 := by
  by_cases hi : i < size
  · exact Memory.zeroFilled_byte l hi
  · have none : l[i]? = none := List.getElem?_eq_none (by omega)
    rw [List.getD_eq_getElem?_getD, none]
    simp [Memory.byte, Memory.zeroFilled, hi]

theorem bytesAt_of_holds {m : ℕ → UInt8} {n p : ℕ} {v : List.Vector UInt8 n}
    (h : Holds m p v.toList) : Memory.bytesAt m n p = v := by
  apply List.Vector.toList_injective
  rw [Memory.bytesAt_toList]
  apply List.ext_getElem?
  intro i
  rw [List.getElem?_map]
  by_cases hi : i < n
  · have lt : i < v.toList.length := by simp [hi]
    have hv : v.toList[i]? = some v.toList[i] := List.getElem?_eq_getElem lt
    rw [hv, List.getElem?_range hi, Option.map_some, h i _ hv]
  · have none : v.toList[i]? = none := List.getElem?_eq_none (by simp; omega)
    rw [none, List.getElem?_eq_none (by simp; omega)]
    rfl

end ByteMemory
