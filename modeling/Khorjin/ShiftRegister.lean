import Mathlib.Algebra.Ring.Parity

set_option autoImplicit false

/-!
# Bit-serial division

A register of `w` bits divides a stream of bits by the polynomial `x^w + g`. One
bit at a time enters at the top; the register is shifted to the left, and `g` is
added when the bit that leaves differs from the one that enters. Everything is
linear over exclusive or, so that the streams with one remainder differ by the
multiples of the polynomial.
-/
namespace ShiftRegister
variable {w : ℕ}

def feed (g r : BitVec w) (b : Bool) : BitVec w :=
  if r.msb ^^ b then (r <<< 1) ^^^ g else r <<< 1

def feedBits (g r : BitVec w) (bits : List Bool) : BitVec w := bits.foldl (feed g) r

@[simp] theorem feedBits_nil (g r : BitVec w) : feedBits g r [] = r := rfl

@[simp] theorem feedBits_cons (g r : BitVec w) (b : Bool) (bits : List Bool) :
    feedBits g r (b :: bits) = feedBits g (feed g r b) bits := rfl

theorem feedBits_append (g r : BitVec w) (bits bits' : List Bool) :
    feedBits g r (bits ++ bits') = feedBits g (feedBits g r bits) bits' := List.foldl_append

theorem xor_pairs (a b c d : BitVec w) : (a ^^^ b) ^^^ (c ^^^ d) = (a ^^^ c) ^^^ (b ^^^ d) := by
  rw [BitVec.xor_assoc, BitVec.xor_assoc, ← BitVec.xor_assoc b c, BitVec.xor_comm b c,
    BitVec.xor_assoc c b]

theorem feed_eq (g r : BitVec w) (b : Bool) :
    feed g r b = (r <<< 1) ^^^ (if r.msb ^^ b then g else 0) := by
  unfold feed
  split_ifs
  · rfl
  · exact BitVec.xor_zero.symm

theorem feed_xor (g r s : BitVec w) (b c : Bool) :
    feed g (r ^^^ s) (b ^^ c) = feed g r b ^^^ feed g s c := by
  have add : (if (r ^^^ s).msb ^^ (b ^^ c) then g else 0) =
      (if r.msb ^^ b then g else 0) ^^^ (if s.msb ^^ c then g else 0) := by
    rw [BitVec.msb_xor]
    cases r.msb <;> cases s.msb <;> cases b <;> cases c <;> simp
  rw [feed_eq, feed_eq, feed_eq, add, BitVec.shiftLeft_xor_distrib, xor_pairs]

theorem feedBits_xor (g r s : BitVec w) (bits bits' : List Bool)
    (length : bits.length = bits'.length) :
    feedBits g (r ^^^ s) (List.zipWith xor bits bits') =
      feedBits g r bits ^^^ feedBits g s bits' := by
  induction bits generalizing r s bits' with
  | nil =>
    cases bits' with
    | nil => rfl
    | cons c bits' => simp at length
  | cons b bits ih =>
    cases bits' with
    | nil => simp at length
    | cons c bits' =>
      simp only [List.zipWith_cons_cons, feedBits_cons, feed_xor]
      exact ih _ _ _ (Nat.succ_inj.1 length)

/-! A generator with a constant term: the register can be run backwards. -/

section
variable {g : BitVec w} (odd : g.getLsbD 0 = true)
include odd

theorem width_pos : 0 < w := by
  by_contra h
  obtain rfl : w = 0 := by omega
  simp at odd

theorem feed_last (r : BitVec w) (b : Bool) :
    (feed g r b).getMsbD (w - 1) = (r.msb ^^ b) := by
  have pos := width_pos odd
  have last : ∀ x : BitVec w, x.getMsbD (w - 1) = x.getLsbD 0 := by
    intro x
    rw [BitVec.getMsbD_eq_getLsbD, show w - 1 - (w - 1) = 0 by omega]
    simp [show w - 1 < w by omega]
  rw [last, feed_eq, BitVec.getLsbD_xor]
  cases r.msb ^^ b <;> simp [odd]

/-- A short stream leads to zero exactly from the register that holds its bits. -/
theorem feedBits_eq_zero_iff {bits : List Bool} (short : bits.length ≤ w) (r : BitVec w) :
    feedBits g r bits = 0 ↔ ∀ i < w, r.getMsbD i = bits.getD i false := by
  induction bits generalizing r with
  | nil =>
    constructor
    · rintro rfl i _
      simp
    · intro h
      apply BitVec.eq_of_getMsbD_eq
      intro i hi
      simpa using h i hi
  | cons b bits ih =>
    have pos := width_pos odd
    rw [List.length_cons] at short
    have behind : bits.getD (w - 1) false = false := by
      rw [List.getD_eq_getElem?_getD, List.getElem?_eq_none (by omega)]
      rfl
    rw [feedBits_cons, ih (by omega)]
    constructor
    · intro h i hi
      have last := h (w - 1) (by omega)
      rw [feed_last odd, behind] at last
      have top : r.msb = b := by simpa using last
      cases i with
      | zero =>
        rw [← BitVec.msb_eq_getMsbD_zero]
        exact top
      | succ i =>
        have bit := h i (by omega)
        rw [feed, last] at bit
        simpa [BitVec.getMsbD_shiftLeft, Nat.add_comm] using bit
    · intro h i hi
      have top : r.msb = b := by
        have first := h 0 pos
        rwa [← BitVec.msb_eq_getMsbD_zero] at first
      have shifted : feed g r b = r <<< 1 := by simp [feed, top]
      rw [shifted, BitVec.getMsbD_shiftLeft]
      by_cases hlast : i + 1 < w
      · simpa using h (i + 1) hlast
      · obtain rfl : i = w - 1 := by omega
        rw [behind]
        exact BitVec.getMsbD_of_ge _ _ (by omega)

theorem feed_zero_iff (r : BitVec w) : feed g r false = 0 ↔ r = 0 := by
  have short : [false].length ≤ w := width_pos odd
  have empty : ([] : List Bool).length ≤ w := Nat.zero_le w
  change feedBits g r [false] = 0 ↔ feedBits g r [] = 0
  rw [feedBits_eq_zero_iff odd short, feedBits_eq_zero_iff odd empty]
  refine forall_congr' (fun i => forall_congr' (fun _ => ?_))
  cases i <;> simp

theorem feedBits_zeros_iff {bits : List Bool} (zeros : ∀ b ∈ bits, b = false) (r : BitVec w) :
    feedBits g r bits = 0 ↔ r = 0 := by
  induction bits generalizing r with
  | nil => rfl
  | cons b bits ih =>
    obtain rfl := zeros b List.mem_cons_self
    rw [feedBits_cons, ih (fun c hc => zeros c (List.mem_cons_of_mem _ hc)), feed_zero_iff odd]

/-- A stream without remainder whose ones lie in a window of `w` bits has no ones. -/
theorem burst_has_remainder {bits : List Bool} {k : ℕ}
    (window : ∀ j : ℕ, bits[j]? = some true → k ≤ j ∧ j < k + w) (h : feedBits g 0 bits = 0) :
    ∀ j : ℕ, bits[j]? ≠ some true := by
  have before : ∀ b ∈ bits.take k, b = false := by
    intro b hb
    obtain ⟨j, hj⟩ := List.getElem?_of_mem hb
    cases b with
    | false => rfl
    | true =>
      rw [List.getElem?_take] at hj
      split_ifs at hj with hk
      have := (window j hj).1
      omega
  have behind : ∀ b ∈ (bits.drop k).drop w, b = false := by
    intro b hb
    obtain ⟨j, hj⟩ := List.getElem?_of_mem hb
    cases b with
    | false => rfl
    | true =>
      rw [List.getElem?_drop, List.getElem?_drop] at hj
      have := (window (k + (w + j)) hj).2
      omega
  rw [← List.take_append_drop k bits, feedBits_append, (feedBits_zeros_iff odd before 0).2 rfl,
    ← List.take_append_drop w (bits.drop k), feedBits_append,
    feedBits_zeros_iff odd behind, feedBits_eq_zero_iff odd (List.length_take_le _ _)] at h
  intro j hj
  obtain ⟨hk, hw⟩ := window j hj
  have bit := h (j - k) (by omega)
  rw [List.getD_eq_getElem?_getD, List.getElem?_take_of_lt (by omega), List.getElem?_drop,
    show k + (j - k) = j by omega, hj] at bit
  simp at bit

end

/-! A generator of odd weight: the register keeps the parity of the stream. -/

/-- The bits of a word, the most significant one first. -/
def bitsBE (x : BitVec w) : List Bool := (List.range w).map x.getMsbD

@[simp] theorem bitsBE_length (x : BitVec w) : (bitsBE x).length = w := by simp [bitsBE]

theorem bitsBE_getD (x : BitVec w) {i : ℕ} (hi : i < w) :
    (bitsBE x).getD i false = x.getMsbD i := by
  simp [bitsBE, List.getD_eq_getElem?_getD, hi]

theorem bitsBE_xor (x y : BitVec w) :
    bitsBE (x ^^^ y) = List.zipWith xor (bitsBE x) (bitsBE y) := by
  rw [bitsBE, bitsBE, bitsBE, List.zipWith_map, List.zipWith_self]
  exact List.map_congr_left (fun i _ => BitVec.getMsbD_xor)

theorem bitsBE_append {v : ℕ} (x : BitVec v) (y : BitVec w) :
    bitsBE (x ++ y) = bitsBE x ++ bitsBE y := by
  rw [bitsBE, List.range_add, List.map_append, List.map_map]
  congr 1
  · apply List.map_congr_left
    intro i hi
    have lt := List.mem_range.1 hi
    simp [BitVec.getMsbD_append, Nat.not_le.2 lt]
  · apply List.map_congr_left
    intro i _
    simp [BitVec.getMsbD_append]

theorem feedBits_bitsBE_iff {g : BitVec w} (odd : g.getLsbD 0 = true) (r x : BitVec w) :
    feedBits g r (bitsBE x) = 0 ↔ r = x := by
  rw [feedBits_eq_zero_iff odd (Nat.le_of_eq (bitsBE_length x))]
  constructor
  · intro h
    apply BitVec.eq_of_getMsbD_eq
    intro i hi
    rw [h i hi, bitsBE_getD x hi]
  · rintro rfl i hi
    exact (bitsBE_getD r hi).symm

def parity (bits : List Bool) : Bool := bits.foldr xor false

theorem parity_eq_true_iff (bits : List Bool) : parity bits = true ↔ Odd (bits.count true) := by
  induction bits with
  | nil => simp [parity]
  | cons b bits ih =>
    cases b with
    | false => simpa [parity] using ih
    | true =>
      rw [List.count_cons_self, Nat.odd_add_one, ← ih]
      simp [parity]

theorem parity_append (bits bits' : List Bool) :
    parity (bits ++ bits') = (parity bits ^^ parity bits') := by
  induction bits with
  | nil => simp [parity]
  | cons b bits ih =>
    change (b ^^ parity (bits ++ bits')) = ((b ^^ parity bits) ^^ parity bits')
    rw [ih, Bool.xor_assoc]

theorem parity_xor {bits bits' : List Bool} (length : bits.length = bits'.length) :
    parity (List.zipWith xor bits bits') = (parity bits ^^ parity bits') := by
  induction bits generalizing bits' with
  | nil =>
    cases bits' with
    | nil => rfl
    | cons c bits' => simp at length
  | cons b bits ih =>
    cases bits' with
    | nil => simp at length
    | cons c bits' =>
      change ((b ^^ c) ^^ parity (List.zipWith xor bits bits')) =
        ((b ^^ parity bits) ^^ (c ^^ parity bits'))
      rw [ih (Nat.succ_inj.1 length)]
      cases b <;> cases c <;> simp

theorem parity_shiftLeft (r : BitVec w) :
    parity (bitsBE (r <<< 1)) = (parity (bitsBE r) ^^ r.msb) := by
  cases w with
  | zero => simp [bitsBE, parity, BitVec.msb_eq_getMsbD_zero]
  | succ v =>
    have first : bitsBE r = r.msb :: (List.range v).map (fun i => r.getMsbD (i + 1)) := by
      rw [bitsBE, List.range_succ_eq_map, List.map_cons, List.map_map, BitVec.msb_eq_getMsbD_zero]
      rfl
    have shifted : bitsBE (r <<< 1) =
        (List.range v).map (fun i => r.getMsbD (i + 1)) ++ [false] := by
      rw [bitsBE, List.range_succ, List.map_append]
      congr 1
      · exact List.map_congr_left (fun i _ => by simp)
      · simp
    rw [first, shifted, parity_append]
    change (_ ^^ false) = ((r.msb ^^ _) ^^ r.msb)
    cases r.msb <;> simp [parity]

theorem parity_feed {g : BitVec w} (weight : parity (bitsBE g) = true) (r : BitVec w) (b : Bool) :
    parity (bitsBE (feed g r b)) = (parity (bitsBE r) ^^ b) := by
  unfold feed
  cases hb : r.msb ^^ b with
  | false =>
    obtain rfl : r.msb = b := by simpa using hb
    exact parity_shiftLeft r
  | true =>
    rw [if_pos rfl, bitsBE_xor, parity_xor (by simp), parity_shiftLeft, weight, Bool.xor_assoc]
    congr 1
    cases hr : r.msb <;> cases b <;> simp [hr] at hb ⊢

theorem parity_feedBits {g : BitVec w} (weight : parity (bitsBE g) = true) (r : BitVec w)
    (bits : List Bool) :
    parity (bitsBE (feedBits g r bits)) = (parity (bitsBE r) ^^ parity bits) := by
  induction bits generalizing r with
  | nil => simp [parity]
  | cons b bits ih =>
    rw [feedBits_cons, ih, parity_feed weight, Bool.xor_assoc]
    rfl

/-- A stream without remainder has an even number of ones. -/
theorem parity_of_no_remainder {g : BitVec w} (weight : parity (bitsBE g) = true)
    {bits : List Bool} (h : feedBits g 0 bits = 0) : parity bits = false := by
  have even := parity_feedBits weight 0 bits
  rw [h] at even
  cases hp : parity bits with
  | false => rfl
  | true => simp [hp] at even

/-- Two additive maps of words that agree on the powers of two are equal. -/
theorem additive_ext {v : ℕ} {f f' : BitVec w → BitVec v}
    (add : ∀ x y, f (x ^^^ y) = f x ^^^ f y) (add' : ∀ x y, f' (x ^^^ y) = f' x ^^^ f' y)
    (powers : ∀ k < w, f (BitVec.twoPow w k) = f' (BitVec.twoPow w k)) (x : BitVec w) :
    f x = f' x := by
  have below : ∀ k ≤ w, ∀ x : BitVec w, (∀ i, k ≤ i → x.getLsbD i = false) → f x = f' x := by
    intro k
    induction k with
    | zero =>
      intro _ x hx
      obtain rfl : x = 0 := BitVec.eq_of_getLsbD_eq (fun i _ => by simpa using hx i (Nat.zero_le i))
      have zero := add 0 0
      have zero' := add' 0 0
      rw [BitVec.xor_self, BitVec.xor_self] at zero zero'
      exact zero.trans zero'.symm
    | succ k ih =>
      intro hk x hx
      cases hbit : x.getLsbD k with
      | false =>
        apply ih (by omega)
        intro i hi
        rcases Nat.eq_or_lt_of_le hi with rfl | hlt
        · exact hbit
        · exact hx i hlt
      | true =>
        have rest : f (x ^^^ BitVec.twoPow w k) = f' (x ^^^ BitVec.twoPow w k) := by
          apply ih (by omega)
          intro i hi
          rw [BitVec.getLsbD_xor, BitVec.getLsbD_twoPow]
          rcases Nat.eq_or_lt_of_le hi with rfl | hlt
          · simp [hbit, show k < w by omega]
          · simp [hx i hlt, show k ≠ i by omega]
        have back : x = (x ^^^ BitVec.twoPow w k) ^^^ BitVec.twoPow w k := by
          rw [BitVec.xor_assoc, BitVec.xor_self, BitVec.xor_zero]
        rw [back, add, add', rest, powers k (by omega)]
  exact below w (le_refl w) x (fun i hi => BitVec.getLsbD_of_ge x i hi)

end ShiftRegister
