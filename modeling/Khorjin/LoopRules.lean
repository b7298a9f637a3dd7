import Mathlib.Data.List.Basic
import Mathlib.Data.Option.Basic

set_option autoImplicit false

/-!
# Counting loops over partial steps

A partial step is an `Option`, undefined when it is `none`. `forLoop body n s`
runs `body 0`, ..., `body (n - 1)` from the state `s`; it is undefined from the
first undefined iteration on. A loop that rewrites the entries of an array one
after the other is described by `sweep`.
-/
namespace LoopRules

theorem bind_iff {α β : Type} {x : Option α} {v : α} {D : Prop}
    (h : ∀ r, x = some r ↔ D ∧ v = r) (k : α → Option β) (u : β) :
    x.bind k = some u ↔ D ∧ k v = some u := by
  rw [Option.bind_eq_some_iff]
  constructor
  · rintro ⟨r, hr, hk⟩
    obtain ⟨hD, rfl⟩ := (h r).1 hr
    exact ⟨hD, hk⟩
  · rintro ⟨hD, hk⟩
    exact ⟨v, (h v).2 ⟨hD, rfl⟩, hk⟩

theorem bind_isSome {α β : Type} {x : Option α} {k : α → Option β} (hx : x.isSome)
    (hk : ∀ v, (k v).isSome) : (x.bind k).isSome := by
  obtain ⟨v, rfl⟩ := Option.isSome_iff_exists.1 hx
  exact hk v

theorem ite_iff {α : Type} {x : Option α} {v : α} {D : Prop} (P : Prop) [Decidable P]
    (h : ∀ r, x = some r ↔ D ∧ v = r) (y r : α) :
    (if P then x else some y) = some r ↔ (P → D) ∧ (if P then v else y) = r := by
  by_cases hP : P
  · simp only [hP, if_true, h, true_implies]
  · simp only [hP, if_false, false_implies, true_and, Option.some.injEq]

def forLoop {σ : Type} (body : ℕ → σ → Option σ) : ℕ → σ → Option σ
  | 0, s => some s
  | n + 1, s => (forLoop body n s).bind (body n)

@[simp] theorem forLoop_zero {σ : Type} (body : ℕ → σ → Option σ) (s : σ) :
    forLoop body 0 s = some s := rfl

theorem forLoop_succ_iff {σ : Type} (body : ℕ → σ → Option σ) (n : ℕ) (s u : σ) :
    forLoop body (n + 1) s = some u ↔ ∃ v, forLoop body n s = some v ∧ body n v = some u := by
  simp only [forLoop, Option.bind_eq_some_iff]

/-- The rule for a loop whose state after `j` iterations is known to be `after j`
    as long as the iterations' conditions `D` have held. -/
theorem forLoop_iff {σ : Type} {body : ℕ → σ → Option σ} (after : ℕ → σ) (D : ℕ → Prop) (n : ℕ)
    (step : ∀ j < n, ∀ u, body j (after j) = some u ↔ D j ∧ after (j + 1) = u) (u : σ) :
    forLoop body n (after 0) = some u ↔ (∀ j < n, D j) ∧ after n = u := by
  induction n generalizing u with
  | zero => simp
  | succ n ih =>
    have before := ih (fun j hj => step j (by omega))
    rw [forLoop_succ_iff]
    constructor
    · rintro ⟨v, hv, hu⟩
      obtain ⟨all, rfl⟩ := (before v).1 hv
      obtain ⟨last, rfl⟩ := (step n (by omega) u).1 hu
      refine ⟨fun j hj => ?_, rfl⟩
      rcases Nat.lt_or_eq_of_le (Nat.le_of_lt_succ hj) with hlt | rfl
      · exact all j hlt
      · exact last
    · rintro ⟨all, rfl⟩
      exact ⟨after n, (before _).2 ⟨fun j hj => all j (by omega), rfl⟩,
        (step n (by omega) _).2 ⟨all n (by omega), rfl⟩⟩

theorem forall_lt_and_iff (P Q : ℕ → Prop) (n : ℕ) :
    (∀ j < n, P j ∧ Q j) ↔ (∀ j < n, P j) ∧ ∀ j < n, Q j :=
  ⟨fun h => ⟨fun j hj => (h j hj).1, fun j hj => (h j hj).2⟩,
    fun h j hj => ⟨h.1 j hj, h.2 j hj⟩⟩

theorem forall_lt_iff_le (n k : ℕ) : (∀ j < n, j < k) ↔ n ≤ k := by
  constructor
  · intro h
    by_contra hk
    have := h k (by omega)
    omega
  · intro h j hj
    omega

theorem forLoop_isSome {σ : Type} {body : ℕ → σ → Option σ} {n : ℕ}
    (each : ∀ j < n, ∀ v, (body j v).isSome) (s : σ) : (forLoop body n s).isSome := by
  induction n with
  | zero => rfl
  | succ n ih =>
    obtain ⟨v, hv⟩ := Option.isSome_iff_exists.1 (ih (fun j hj => each j (by omega)))
    rw [forLoop, hv]
    exact each n (by omega) v

/-- A loop is defined when every iteration is that starts where the ones before have led. -/
theorem forLoop_total {σ : Type} {body : ℕ → σ → Option σ} (I : ℕ → σ → Prop) (n : ℕ)
    (step : ∀ j < n, ∀ s, I j s → ∃ u, body j s = some u ∧ I (j + 1) u) {s : σ} (start : I 0 s) :
    ∃ u, forLoop body n s = some u ∧ I n u := by
  induction n with
  | zero => exact ⟨s, rfl, start⟩
  | succ n ih =>
    obtain ⟨v, hv, before⟩ := ih (fun j hj => step j (by omega))
    obtain ⟨u, hu, after⟩ := step n (by omega) v before
    exact ⟨u, (forLoop_succ_iff body n s u).2 ⟨v, hv, hu⟩, after⟩

/-- The first `j` entries of `l` replaced by `f` of their index and old value. -/
def sweep {α : Type} (f : ℕ → α → α) (j : ℕ) (l : List α) : List α :=
  l.mapIdx (fun k x => if k < j then f k x else x)

@[simp] theorem sweep_length {α : Type} (f : ℕ → α → α) (j : ℕ) (l : List α) :
    (sweep f j l).length = l.length := by
  simp [sweep]

theorem sweep_get {α : Type} (f : ℕ → α → α) (j k : ℕ) (l : List α) :
    (sweep f j l)[k]? = l[k]?.map (fun x => if k < j then f k x else x) := by
  simp [sweep]

theorem sweep_get_lt {α : Type} (f : ℕ → α → α) {j k : ℕ} (l : List α) (hk : k < j) :
    (sweep f j l)[k]? = l[k]?.map (f k) := by
  simp [sweep_get, hk]

theorem sweep_get_ge {α : Type} (f : ℕ → α → α) {j k : ℕ} (l : List α) (hk : j ≤ k) :
    (sweep f j l)[k]? = l[k]? := by
  simp [sweep_get, Nat.not_lt.2 hk]

@[simp] theorem sweep_zero {α : Type} (f : ℕ → α → α) (l : List α) : sweep f 0 l = l :=
  List.ext_getElem? (fun _ => sweep_get_ge f l (Nat.zero_le _))

theorem sweep_set {α : Type} (f : ℕ → α → α) (j : ℕ) (l : List α) (x : α) (h : l[j]? = some x) :
    (sweep f j l).set j (f j x) = sweep f (j + 1) l := by
  apply List.ext_getElem?
  intro k
  rw [List.getElem?_set, sweep_get, sweep_get, sweep_length]
  obtain ⟨hj, rfl⟩ := List.getElem?_eq_some_iff.1 h
  by_cases hk : j = k
  · subst k
    simp [hj]
  · have hlt : k < j + 1 ↔ k < j := by omega
    simp [hk, hlt]

theorem sweep_congr {α : Type} {f g : ℕ → α → α} {j : ℕ} {l : List α}
    (h : ∀ k < j, ∀ x, l[k]? = some x → f k x = g k x) : sweep f j l = sweep g j l := by
  apply List.ext_getElem?
  intro k
  rw [sweep_get, sweep_get]
  cases hx : l[k]? with
  | none => rfl
  | some x =>
    by_cases hk : k < j
    · simp [hk, h k hk x hx]
    · simp [hk]

theorem sweep_cons {α : Type} (f : ℕ → α → α) (j : ℕ) (x : α) (l : List α) :
    sweep f (j + 1) (x :: l) = f 0 x :: sweep (fun k => f (k + 1)) j l := by
  simp [sweep]

theorem sweep_eq_zipWith {α β : Type} {f : ℕ → α → α} (g : α → β → α) {n : ℕ} {l : List α}
    {ys : List β} (hl : l.length = n) (hys : ys.length = n)
    (h : ∀ (j : ℕ) x y, ys[j]? = some y → f j x = g x y) : sweep f n l = List.zipWith g l ys := by
  apply List.ext_getElem?
  intro j
  rw [sweep_get, List.getElem?_zipWith]
  by_cases hj : j < n
  · obtain ⟨y, hy⟩ : ∃ y, ys[j]? = some y := ⟨_, List.getElem?_eq_getElem (by omega)⟩
    rw [List.getElem?_eq_getElem (by omega), hy]
    simp [hj, h j _ _ hy]
  · rw [List.getElem?_eq_none (by omega)]
    rfl

theorem sweep_map_of_keep {α β : Type} {f : ℕ → α → α} {g : α → β} (j : ℕ) (l : List α)
    (keep : ∀ k x, g (f k x) = g x) : (sweep f j l).map g = l.map g := by
  apply List.ext_getElem?
  intro k
  rw [List.getElem?_map, List.getElem?_map, sweep_get, Option.map_map]
  congr 1
  funext x
  simp only [Function.comp_apply]
  split_ifs
  · exact keep k x
  · rfl

theorem sweep_replicate {α : Type} (f : ℕ → α → α) (n : ℕ) (z : α) :
    sweep f n (List.replicate n z) = (List.range n).map (fun k => f k z) := by
  apply List.ext_getElem?
  intro k
  rw [sweep_get, List.getElem?_map]
  by_cases hk : k < n
  · simp [hk]
  · simp [hk]

theorem sweep_map_range {α : Type} (f : ℕ → α → α) (n : ℕ) (g : ℕ → α) :
    sweep f n ((List.range n).map g) = (List.range n).map (fun k => f k (g k)) := by
  apply List.ext_getElem?
  intro k
  rw [sweep_get, List.getElem?_map, List.getElem?_map]
  by_cases hk : k < n
  · simp [hk]
  · simp [hk]

theorem map_take_eq_iff {α β : Type} (g : α → β) (n : ℕ) (l l' : List α) :
    (l.take n).map g = (l'.take n).map g ↔ ∀ j < n, l[j]?.map g = l'[j]?.map g := by
  constructor
  · intro h j hj
    have entry := congrArg (fun xs => xs[j]?) h
    simpa [List.getElem?_take, hj] using entry
  · intro h
    apply List.ext_getElem?
    intro j
    rw [List.getElem?_map, List.getElem?_map, List.getElem?_take, List.getElem?_take]
    by_cases hj : j < n
    · simpa [hj] using h j hj
    · simp [hj]

theorem map_take_sweep_eq_iff {α β : Type} {f f' : ℕ → α → α} {g : α → β} {n : ℕ} {l l' : List α}
    (hl : n ≤ l.length) (hl' : n ≤ l'.length) :
    ((sweep f n l).take n).map g = ((sweep f' n l').take n).map g ↔
      ∀ j < n, ∀ x x', l[j]? = some x → l'[j]? = some x' → g (f j x) = g (f' j x') := by
  rw [map_take_eq_iff]
  refine forall_congr' (fun j => forall_congr' (fun hj => ?_))
  have hx : l[j]? = some l[j] := List.getElem?_eq_getElem (by omega)
  have hx' : l'[j]? = some l'[j] := List.getElem?_eq_getElem (by omega)
  rw [sweep_get_lt _ _ hj, sweep_get_lt _ _ hj, hx, hx']
  simp

theorem map_range_eq_map {α β : Type} {f : ℕ → β} {g : α → β} {n : ℕ} {xs : List α}
    (length : n = xs.length) (h : ∀ j x, xs[j]? = some x → f j = g x) :
    (List.range n).map f = xs.map g := by
  subst length
  apply List.ext_getElem?
  intro j
  rw [List.getElem?_map, List.getElem?_map]
  by_cases hj : j < xs.length
  · have hx : xs[j]? = some xs[j] := List.getElem?_eq_getElem hj
    rw [List.getElem?_range hj, hx, Option.map_some, Option.map_some, h j _ hx]
  · rw [List.getElem?_eq_none (by simpa using hj), List.getElem?_eq_none (by simpa using hj)]
    rfl

/-- A list put together from parts, cut in front of part `i` and behind it. -/
theorem flatMap_cut {α β : Type} (f : α → List β) {xs : List α} {i : ℕ} {x : α}
    (hx : xs[i]? = some x) :
    xs.flatMap f = (xs.take i).flatMap f ++ (f x ++ (xs.drop (i + 1)).flatMap f) := by
  obtain ⟨hi, rfl⟩ := List.getElem?_eq_some_iff.1 hx
  rw [← List.flatMap_cons, ← List.drop_eq_getElem_cons hi, ← List.flatMap_append,
    List.take_append_drop]

theorem map_zipWith_of_snd {α β γ δ : Type} {f : α → β → γ} {g : γ → δ} {h : β → δ} {xs : List α}
    {ys : List β} (length : xs.length = ys.length) (snd : ∀ x y, g (f x y) = h y) :
    (List.zipWith f xs ys).map g = ys.map h := by
  induction xs generalizing ys with
  | nil =>
    rw [List.length_eq_zero_iff.1 length.symm]
    rfl
  | cons x xs ih =>
    cases ys with
    | nil => simp at length
    | cons y ys => simp [snd, ih (Nat.succ.inj length)]

theorem map_of_map_eq {α β γ : Type} {f : α → β} {l l' : List α} (h : l'.map f = l.map f)
    (g : β → γ) : l'.map (fun x => g (f x)) = l.map (fun x => g (f x)) := by
  have image := congrArg (List.map g) h
  rw [List.map_map, List.map_map] at image
  exact image

theorem exists_get_of_map_eq {α β γ : Type} {f : α → γ} {g : β → γ} {xs : List α} {ys : List β}
    (h : xs.map f = ys.map g) {j : ℕ} {y : β} (hy : ys[j]? = some y) :
    ∃ x, xs[j]? = some x ∧ f x = g y := by
  have entry := congrArg (fun l => l[j]?) h
  simp only [List.getElem?_map, hy, Option.map_some] at entry
  exact Option.map_eq_some_iff.1 entry

theorem mapIdx_map_eq {α β γ : Type} (f : ℕ → β → γ) (g : α → β) (xs : List α) :
    (xs.map g).mapIdx f = xs.mapIdx (fun j x => f j (g x)) := by
  apply List.ext_getElem?
  intro j
  simp [Option.map_map, Function.comp_def]

/-- A loop that reads the entries of an array one after the other and appends what it makes
    of each; `D` is the condition that a pass puts on its entry. -/
theorem forLoop_appends_iff {α β : Type} {body : ℕ → List β → Option (List β)} {xs : List α}
    (D : α → Prop) (g : ℕ → α → List β)
    (spec : ∀ j l u, body j l = some u ↔ ∃ x, xs[j]? = some x ∧ D x ∧ l ++ g j x = u)
    (n : ℕ) (l u : List β) : forLoop body n l = some u ↔
      (n ≤ xs.length ∧ ∀ x ∈ xs.take n, D x) ∧ l ++ ((xs.take n).mapIdx g).flatten = u := by
  induction n generalizing u with
  | zero => simp
  | succ n ih =>
    simp only [forLoop_succ_iff, ih, spec]
    constructor
    · rintro ⟨_, ⟨⟨le, before⟩, rfl⟩, x, hx, hD, rfl⟩
      have lt := (List.getElem?_eq_some_iff.1 hx).choose
      have next : xs.take (n + 1) = xs.take n ++ [x] := by
        rw [List.take_add_one, hx]
        rfl
      rw [next, List.mapIdx_concat, List.flatten_concat, List.length_take, Nat.min_eq_left le,
        List.append_assoc]
      refine ⟨⟨lt, ?_⟩, rfl⟩
      intro y hy
      rcases List.mem_append.1 hy with hy | hy
      · exact before y hy
      · obtain rfl := List.mem_singleton.1 hy
        exact hD
    · rintro ⟨⟨lt, all⟩, rfl⟩
      have hx : xs[n]? = some xs[n] := List.getElem?_eq_getElem lt
      have next : xs.take (n + 1) = xs.take n ++ [xs[n]] := by
        rw [List.take_add_one, hx]
        rfl
      have le : n ≤ xs.length := Nat.le_of_lt lt
      rw [next] at all
      refine ⟨_, ⟨⟨le, fun y hy => all y (List.mem_append_left _ hy)⟩, rfl⟩, xs[n], hx,
        all _ (List.mem_append_right _ List.mem_cons_self), ?_⟩
      rw [next, List.mapIdx_concat, List.flatten_concat, List.length_take, Nat.min_eq_left le,
        List.append_assoc]

/-- One pass of a loop that rewrites entry `j` of an array and advances a cursor. -/
def arrayPass {α : Type} (step : α → ℕ → Option (α × ℕ)) (j : ℕ) (s : List α × ℕ) :
    Option (List α × ℕ) := do
  let x ← s.1[j]?
  let (x, p) ← step x s.2
  some (s.1.set j x, p)

theorem arrayLoop_iff {α : Type} {step : α → ℕ → Option (α × ℕ)} (f : ℕ → α → α) (w : ℕ)
    (D : ℕ → Prop) (spec : ∀ x p r, step x p = some r ↔ D p ∧ (f p x, p + w) = r)
    (n : ℕ) (l : List α) (p : ℕ) (u : List α × ℕ) :
    forLoop (arrayPass step) n (l, p) = some u ↔
      (n ≤ l.length ∧ ∀ j < n, D (p + w * j)) ∧
        (sweep (fun k => f (p + w * k)) n l, p + w * n) = u := by
  have pass : ∀ j < n, ∀ v,
      arrayPass step j (sweep (fun k => f (p + w * k)) j l, p + w * j) = some v ↔
        (j < l.length ∧ D (p + w * j)) ∧
          (sweep (fun k => f (p + w * k)) (j + 1) l, p + w * (j + 1)) = v := by
    intro j _ v
    have same : (sweep (fun k => f (p + w * k)) j l)[j]? = l[j]? := sweep_get_ge _ _ (Nat.le_refl j)
    simp only [arrayPass, same, Option.bind_eq_bind]
    cases hx : l[j]? with
    | none =>
      have hlen := List.getElem?_eq_none_iff.1 hx
      simp [Nat.not_lt.2 hlen]
    | some x =>
      have hlen := (List.getElem?_eq_some_iff.1 hx).choose
      have next := sweep_set (fun k => f (p + w * k)) j l x hx
      simp only [Option.bind_some, bind_iff (spec x _), Option.some.injEq, hlen, true_and, next,
        Nat.mul_succ, Nat.add_assoc]
  have loop := forLoop_iff (fun j => (sweep (fun k => f (p + w * k)) j l, p + w * j)) _ n pass u
  simp only [sweep_zero, Nat.mul_zero, Nat.add_zero] at loop
  rw [loop, forall_lt_and_iff, forall_lt_iff_le]

/-- An array that one loop fills in part and a second one, `skip` bytes behind the
    first, completes. -/
theorem twoPasses_iff {α : Type} {pass pass' : α → ℕ → Option (α × ℕ)} (f f' : ℕ → α → α)
    (w w' : ℕ) (D D' : ℕ → Prop) (spec : ∀ x p r, pass x p = some r ↔ D p ∧ (f p x, p + w) = r)
    (spec' : ∀ x p r, pass' x p = some r ↔ D' p ∧ (f' p x, p + w') = r)
    (n : ℕ) (z : α) (p skip : ℕ) (r : List α) :
    ((forLoop (arrayPass pass) n (List.replicate n z, p)).bind fun s =>
      (forLoop (arrayPass pass') n (s.1, s.2 + skip)).bind fun s' => some s'.1) = some r ↔
      ((∀ j < n, D (p + w * j)) ∧ ∀ j < n, D' (p + w * n + skip + w' * j)) ∧
        (List.range n).map (fun j => f' (p + w * n + skip + w' * j) (f (p + w * j) z)) = r := by
  simp only [bind_iff (arrayLoop_iff f w D spec n _ p),
    bind_iff (arrayLoop_iff f' w' D' spec' n _ _), Option.some.injEq, sweep_replicate,
    sweep_map_range, List.length_replicate, List.length_map, List.length_range, Nat.le_refl,
    true_and, and_assoc]

end LoopRules
