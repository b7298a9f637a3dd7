import Mathlib.Data.List.Flatten

set_option autoImplicit false

/-!
# Cutting a stream

A stream is sent as consecutive frames and read as consecutive pieces. Both are
lists of lists that join to the stream.
-/
namespace Segmentation
variable {α : Type}

/-- Whatever is accepted at the beginning of `f` is `f` itself. -/
def Delimits (accepted : List α → Prop) (f : List α) : Prop :=
  ∀ c rest, accepted c → c <+: f ++ rest → c = f

theorem eq_of_all_accepted {accepted : List α → Prop} {fs cs : List (List α)}
    (frames : ∀ f ∈ fs, f ≠ []) (delimits : ∀ f ∈ fs, Delimits accepted f)
    (pieces : ∀ c ∈ cs, c ≠ []) (cut : cs.flatten = fs.flatten) (all : ∀ c ∈ cs, accepted c) :
    cs = fs := by
  induction fs generalizing cs with
  | nil =>
    cases cs with
    | nil => rfl
    | cons c cs =>
      have empty : c = [] := List.flatten_eq_nil_iff.1 cut c List.mem_cons_self
      exact absurd empty (pieces c List.mem_cons_self)
  | cons f fs ih =>
    cases cs with
    | nil =>
      have empty : f = [] := List.flatten_eq_nil_iff.1 cut.symm f List.mem_cons_self
      exact absurd empty (frames f List.mem_cons_self)
    | cons c cs =>
      rw [List.flatten_cons, List.flatten_cons] at cut
      obtain rfl : c = f := by
        apply delimits f List.mem_cons_self c fs.flatten (all c List.mem_cons_self)
        rw [← cut]
        exact List.prefix_append c cs.flatten
      rw [ih (fun g hg => frames g (List.mem_cons_of_mem _ hg))
        (fun g hg => delimits g (List.mem_cons_of_mem _ hg))
        (fun d hd => pieces d (List.mem_cons_of_mem _ hd)) (List.append_cancel_left cut)
        (fun d hd => all d (List.mem_cons_of_mem _ hd))]

theorem eq_of_sublist {cs' cs : List (List α)} (sub : cs'.Sublist cs) (pieces : ∀ c ∈ cs, c ≠ [])
    (same : cs'.flatten.length = cs.flatten.length) : cs' = cs := by
  have longer : ∀ {xs ys : List (List α)}, xs.Sublist ys →
      xs.flatten.length ≤ ys.flatten.length := fun h => h.flatten.length_le
  induction sub with
  | slnil => rfl
  | @cons _ cs c sub _ =>
    have le := longer sub
    rw [List.flatten_cons, List.length_append] at same
    have empty : c = [] := List.length_eq_zero_iff.1 (by omega)
    exact absurd empty (pieces c List.mem_cons_self)
  | cons_cons c _ ih =>
    rw [List.flatten_cons, List.flatten_cons, List.length_append, List.length_append] at same
    rw [ih (fun d hd => pieces d (List.mem_cons_of_mem _ hd)) (by omega)]

end Segmentation
