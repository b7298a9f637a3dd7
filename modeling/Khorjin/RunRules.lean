import Khorjin.LoopRules

set_option autoImplicit false

/-!
# Runs of a partial step

A step takes a state and an event and returns an outcome and the next state, or
is undefined. `run` takes a list of events one after the other.
-/
namespace RunRules
variable {σ ε ρ : Type}

def run (step : σ → ε → Option (ρ × σ)) : σ → List ε → Option (List ρ × σ)
  | s, [] => some ([], s)
  | s, e :: es => do
    let (r, t) ← step s e
    let (rs, u) ← run step t es
    some (r :: rs, u)

@[simp] theorem run_nil (step : σ → ε → Option (ρ × σ)) (s : σ) :
    run step s [] = some ([], s) := rfl

theorem run_cons_iff (step : σ → ε → Option (ρ × σ)) (s : σ) (e : ε) (es : List ε) (rs : List ρ)
    (u : σ) : run step s (e :: es) = some (rs, u) ↔
      ∃ r t rs', step s e = some (r, t) ∧ run step t es = some (rs', u) ∧ r :: rs' = rs := by
  simp only [run, Option.bind_eq_bind, Option.bind_eq_some_iff, Option.some.injEq, Prod.mk.injEq]
  constructor
  · rintro ⟨⟨r, t⟩, hstep, ⟨rs', u'⟩, hrun, rfl, rfl⟩
    exact ⟨r, t, rs', hstep, hrun, rfl⟩
  · rintro ⟨r, t, rs', hstep, hrun, rfl⟩
    exact ⟨(r, t), hstep, (rs', u), hrun, rfl, rfl⟩

theorem run_append_iff (step : σ → ε → Option (ρ × σ)) (s : σ) (es es' : List ε) (rs : List ρ)
    (u : σ) : run step s (es ++ es') = some (rs, u) ↔
      ∃ rs₁ t rs₂, run step s es = some (rs₁, t) ∧ run step t es' = some (rs₂, u) ∧
        rs₁ ++ rs₂ = rs := by
  induction es generalizing s rs with
  | nil => simp
  | cons e es ih =>
    simp only [List.cons_append, run_cons_iff, ih]
    constructor
    · rintro ⟨r, t, _, hstep, ⟨rs₁, v, rs₂, hfirst, hsecond, rfl⟩, rfl⟩
      exact ⟨r :: rs₁, v, rs₂, ⟨r, t, rs₁, hstep, hfirst, rfl⟩, hsecond, rfl⟩
    · rintro ⟨_, v, rs₂, ⟨r, t, rs₁, hstep, hfirst, rfl⟩, hsecond, rfl⟩
      exact ⟨r, t, rs₁ ++ rs₂, hstep, ⟨rs₁, v, rs₂, hfirst, hsecond, rfl⟩, rfl⟩

theorem run_invariant {step : σ → ε → Option (ρ × σ)} (I : σ → Prop) {s u : σ} {es : List ε}
    {rs : List ρ} (preserves : ∀ s, ∀ e ∈ es, ∀ r t, I s → step s e = some (r, t) → I t)
    (start : I s) (h : run step s es = some (rs, u)) : I u := by
  induction es generalizing s rs with
  | nil =>
    cases h
    exact start
  | cons e es ih =>
    obtain ⟨r, t, rs', hstep, hrun, _⟩ := (run_cons_iff step s e es rs u).1 h
    have next : I t := preserves s e List.mem_cons_self r t start hstep
    exact ih (fun s e he => preserves s e (List.mem_cons_of_mem _ he)) next hrun

theorem run_defined {step : σ → ε → Option (ρ × σ)} (I : σ → Prop) {s : σ} {es : List ε}
    (progress : ∀ s, ∀ e ∈ es, I s → ∃ r t, step s e = some (r, t) ∧ I t) (start : I s) :
    ∃ rs u, run step s es = some (rs, u) ∧ I u := by
  induction es generalizing s with
  | nil => exact ⟨[], s, rfl, start⟩
  | cons e es ih =>
    obtain ⟨r, t, hstep, next⟩ := progress s e List.mem_cons_self start
    obtain ⟨rs, u, hrun, last⟩ :=
      ih (fun s e he => progress s e (List.mem_cons_of_mem _ he)) next
    exact ⟨r :: rs, u, (run_cons_iff step s e es _ u).2 ⟨r, t, rs, hstep, hrun, rfl⟩, last⟩

/-- `P` holds of every event of a run, in the state that it meets. -/
def Along (step : σ → ε → Option (ρ × σ)) (P : σ → ε → Prop) (s : σ) (es : List ε) : Prop :=
  ∀ before e after, es = before ++ e :: after →
    ∀ rs t, run step s before = some (rs, t) → P t e

theorem along_nil (step : σ → ε → Option (ρ × σ)) (P : σ → ε → Prop) (s : σ) :
    Along step P s [] := by
  intro before e after h
  simp at h

theorem along_cons_iff (step : σ → ε → Option (ρ × σ)) (P : σ → ε → Prop) (s : σ) (e : ε)
    (es : List ε) : Along step P s (e :: es) ↔
      P s e ∧ ∀ r t, step s e = some (r, t) → Along step P t es := by
  constructor
  · intro along
    refine ⟨along [] e es rfl [] s rfl, ?_⟩
    rintro r t hstep before e' after rfl rs u hrun
    exact along (e :: before) e' after rfl (r :: rs) u
      ((run_cons_iff step s e before _ u).2 ⟨r, t, rs, hstep, hrun, rfl⟩)
  · rintro ⟨first, later⟩ before e' after split rs u hrun
    cases before with
    | nil =>
      cases hrun
      cases split
      exact first
    | cons _ before =>
      cases split
      obtain ⟨r, t, rs', hstep, hrest, _⟩ := (run_cons_iff step s e before rs u).1 hrun
      exact later r t hstep before e' after rfl rs' u hrest

theorem along_congr {step : σ → ε → Option (ρ × σ)} {P Q : σ → ε → Prop}
    (same : ∀ s e, P s e ↔ Q s e) (s : σ) (es : List ε) : Along step P s es ↔ Along step Q s es :=
  forall₄_congr fun _ _ _ _ => forall₃_congr fun _ _ _ => same _ _

/-- When `P` tells which steps are defined with an outcome in `Q`, it tells so of runs. -/
theorem run_outcomes_iff {step : σ → ε → Option (ρ × σ)} {P : σ → ε → Prop} {Q : ρ → Prop}
    (defined : ∀ s e, P s e ↔ ∃ r t, step s e = some (r, t) ∧ Q r) (s : σ) (es : List ε) :
    (∃ rs u, run step s es = some (rs, u) ∧ ∀ r ∈ rs, Q r) ↔ Along step P s es := by
  induction es generalizing s with
  | nil => simp [along_nil]
  | cons e es ih =>
    rw [along_cons_iff, defined]
    constructor
    · rintro ⟨rs, u, h, outcomes⟩
      obtain ⟨r, t, rs', hstep, hrun, rfl⟩ := (run_cons_iff step s e es rs u).1 h
      obtain ⟨first, later⟩ := List.forall_mem_cons.1 outcomes
      refine ⟨⟨r, t, hstep, first⟩, fun r' t' hstep' => ?_⟩
      rw [hstep] at hstep'
      cases hstep'
      exact (ih t).1 ⟨rs', u, hrun, later⟩
    · rintro ⟨⟨r, t, hstep, first⟩, along⟩
      obtain ⟨rs, u, hrun, later⟩ := (ih t).2 (along r t hstep)
      exact ⟨r :: rs, u, (run_cons_iff step s e es _ u).2 ⟨r, t, rs, hstep, hrun, rfl⟩,
        List.forall_mem_cons.2 ⟨first, later⟩⟩

/-- A property that some events bring about and none undoes. `I` is an invariant of the run. -/
theorem run_raised_iff {step : σ → ε → Option (ρ × σ)} (I P : σ → Prop) (Q : ε → Prop)
    {s u : σ} {es : List ε} {rs : List ρ} (start : I s)
    (raise : ∀ s e r t, I s → step s e = some (r, t) → I t ∧ (P t ↔ P s ∨ Q e))
    (h : run step s es = some (rs, u)) : P u ↔ P s ∨ ∃ e ∈ es, Q e := by
  induction es generalizing s rs with
  | nil =>
    cases h
    simp
  | cons e es ih =>
    obtain ⟨r, t, rs', hstep, hrun, _⟩ := (run_cons_iff step s e es rs u).1 h
    obtain ⟨next, raised⟩ := raise s e r t start hstep
    rw [ih next hrun, raised, or_assoc]
    simp

def kept (keep : ρ → Bool) (es : List ε) (rs : List ρ) : List ε :=
  ((es.zip rs).filter (fun x => keep x.2)).map Prod.fst

theorem kept_sublist (keep : ρ → Bool) (es : List ε) (rs : List ρ) :
    (kept keep es rs).Sublist es := by
  induction es generalizing rs with
  | nil => exact List.nil_sublist _
  | cons e es ih =>
    cases rs with
    | nil => exact List.nil_sublist _
    | cons r rs =>
      cases hr : keep r with
      | false =>
        have head : kept keep (e :: es) (r :: rs) = kept keep es rs := by simp [kept, hr]
        rw [head]
        exact (ih rs).cons e
      | true =>
        have head : kept keep (e :: es) (r :: rs) = e :: kept keep es rs := by simp [kept, hr]
        rw [head]
        exact (ih rs).cons_cons e

/-- Events that leave the state alone can be deleted from a run. -/
theorem run_kept {step : σ → ε → Option (ρ × σ)} (keep : ρ → Bool)
    (silent : ∀ s e r t, step s e = some (r, t) → keep r = false → t = s) {s u : σ}
    {es : List ε} {rs : List ρ} (h : run step s es = some (rs, u)) :
    run step s (kept keep es rs) = some (rs.filter keep, u) := by
  induction es generalizing s rs with
  | nil =>
    cases h
    rfl
  | cons e es ih =>
    obtain ⟨r, t, rs', hstep, hrun, rfl⟩ := (run_cons_iff step s e es rs u).1 h
    have tail := ih hrun
    cases hr : keep r with
    | false =>
      obtain rfl := silent s e r t hstep hr
      simpa [kept, hr] using tail
    | true =>
      have head : kept keep (e :: es) (r :: rs') = e :: kept keep es rs' := by
        simp [kept, hr]
      rw [head, run_cons_iff]
      exact ⟨r, t, _, hstep, tail, by simp [hr]⟩

theorem run_erase {τ : Type} {step : σ → ε → Option (ρ × σ)} {step' : τ → ε → Option (ρ × τ)}
    (f : σ → τ) (erases : ∀ s e r t, step s e = some (r, t) → step' (f s) e = some (r, f t))
    {s u : σ} {es : List ε} {rs : List ρ} (h : run step s es = some (rs, u)) :
    run step' (f s) es = some (rs, f u) := by
  induction es generalizing s rs with
  | nil =>
    cases h
    rfl
  | cons e es ih =>
    obtain ⟨r, t, rs', hstep, hrun, rfl⟩ := (run_cons_iff step s e es rs u).1 h
    exact (run_cons_iff step' (f s) e es _ (f u)).2
      ⟨r, f t, rs', erases s e r t hstep, ih hrun, rfl⟩

theorem run_lift {τ : Type} {step : σ → ε → Option (ρ × σ)} {step' : τ → ε → Option (ρ × τ)}
    (f : σ → τ) (lifts : ∀ s e r t', step' (f s) e = some (r, t') →
      ∃ t, step s e = some (r, t) ∧ f t = t')
    {s : σ} {u' : τ} {es : List ε} {rs : List ρ} (h : run step' (f s) es = some (rs, u')) :
    ∃ u, run step s es = some (rs, u) ∧ f u = u' := by
  induction es generalizing s rs with
  | nil =>
    cases h
    exact ⟨s, rfl, rfl⟩
  | cons e es ih =>
    obtain ⟨r, t', rs', hstep, hrun, rfl⟩ := (run_cons_iff step' (f s) e es rs u').1 h
    obtain ⟨t, ht, rfl⟩ := lifts s e r t' hstep
    obtain ⟨u, hu, rfl⟩ := ih hrun
    exact ⟨u, (run_cons_iff step s e es _ u).2 ⟨r, t, rs', ht, hu, rfl⟩, rfl⟩

/-- A property of the state and the kept events so far, which every step preserves. -/
theorem run_history {step : σ → ε → Option (ρ × σ)} (keep : ρ → Bool) (I : List ε → σ → Prop)
    (preserves : ∀ before s e r t, I before s → step s e = some (r, t) →
      I (if keep r then before ++ [e] else before) t)
    (before : List ε) {s u : σ} {es : List ε} {rs : List ρ} (start : I before s)
    (h : run step s es = some (rs, u)) : I (before ++ kept keep es rs) u := by
  induction es generalizing s rs before with
  | nil =>
    cases h
    simpa [kept] using start
  | cons e es ih =>
    obtain ⟨r, t, rs', hstep, hrun, rfl⟩ := (run_cons_iff step s e es rs u).1 h
    have later := ih _ (preserves before s e r t start hstep) hrun
    cases hr : keep r with
    | false => simpa [kept, hr] using later
    | true => simpa [kept, hr] using later

def Reaches (step : σ → ε → Option (ρ × σ)) (P : ε → Prop) (s t : σ) : Prop :=
  ∃ es rs, (∀ e ∈ es, P e) ∧ run step s es = some (rs, t)

section
variable {step : σ → ε → Option (ρ × σ)} {P : ε → Prop} {s t u : σ}

theorem Reaches.refl (step : σ → ε → Option (ρ × σ)) (P : ε → Prop) (s : σ) :
    Reaches step P s s :=
  ⟨[], [], fun _ he => absurd he List.not_mem_nil, rfl⟩

theorem Reaches.trans (first : Reaches step P s t) (second : Reaches step P t u) :
    Reaches step P s u := by
  obtain ⟨es, rs, hP, h⟩ := first
  obtain ⟨es', rs', hP', h'⟩ := second
  refine ⟨es ++ es', rs ++ rs', fun e he => ?_,
    (run_append_iff step s es es' _ u).2 ⟨rs, t, rs', h, h', rfl⟩⟩
  exact (List.mem_append.1 he).elim (hP e) (hP' e)

theorem Reaches.head {e : ε} {r : ρ} (he : P e) (first : step s e = some (r, t))
    (later : Reaches step P t u) : Reaches step P s u := by
  refine Reaches.trans ⟨[e], [r], fun x hx => ?_, ?_⟩ later
  · rw [List.mem_singleton.1 hx]
    exact he
  · exact (run_cons_iff step s e [] _ t).2 ⟨r, t, [], first, rfl, rfl⟩

end

/-- A value that some of the events write: the last one that does decides. -/
theorem foldl_last_write {α : Type} {step : σ → ε → σ} (get : σ → α) (written : ε → Option α)
    (writes : ∀ s e, get (step s e) = (written e).getD (get s)) (es : List ε) (s : σ) :
    get (es.foldl step s) = (es.reverse.findSome? written).getD (get s) := by
  induction es generalizing s with
  | nil => rfl
  | cons e es ih =>
    rw [List.foldl_cons, ih, writes, List.reverse_cons, List.findSome?_append]
    cases es.reverse.findSome? written with
    | some v => rfl
    | none => cases h : written e <;> simp [h]

/-- A value that every event writes. -/
theorem foldl_last_event {α : Type} {step : σ → ε → σ} (get : σ → α) (value : ε → α)
    (writes : ∀ s e, get (step s e) = value e) (es : List ε) (s : σ) :
    get (es.foldl step s) = (es.getLast?.map value).getD (get s) := by
  rw [foldl_last_write get (fun e => some (value e)) writes, ← List.head?_reverse]
  cases es.reverse <;> rfl

end RunRules
