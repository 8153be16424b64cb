import Mathlib

/-! Runs of a fallible step function and the rules for what they preserve. A run
stops at the first fault, so what is reached is reached without one. -/
namespace Ramryder.Runs

variable {ε σ α β : Type*} (step : σ → α → Except ε σ)

def run : σ → List α → Except ε σ
  | s, [] => .ok s
  | s, a :: as =>
    match step s a with
    | .ok t => run t as
    | .error e => .error e

def Reaches (s t : σ) : Prop := ∃ as, run step s as = .ok t

/-- Every action of the list is allowed by `G` in the state in which it is taken. -/
def Guarded (G : σ → α → Prop) : σ → List α → Prop
  | _, [] => True
  | s, a :: as => G s a ∧ ∀ t, step s a = .ok t → Guarded G t as

/-- What an observer of the single actions has noted down when the run ends. -/
def observed (f : σ → α → Option β) : σ → List α → List β
  | _, [] => []
  | s, a :: as =>
    match step s a with
    | .ok t => (f s a).toList ++ observed f t as
    | .error _ => []

variable {step}

instance decidableGuarded {G : σ → α → Prop} [∀ s a, Decidable (G s a)] :
    ∀ (s : σ) (as : List α), Decidable (Guarded step G s as)
  | _, [] => isTrue trivial
  | s, a :: as =>
    have hrest : Decidable (∀ t, step s a = .ok t → Guarded step G t as) :=
      match step s a with
      | .ok t => @decidable_of_iff _ (Guarded step G t as) (by simp) (decidableGuarded t as)
      | .error _ => isTrue (by simp)
    inferInstanceAs (Decidable (_ ∧ _))

@[simp] theorem run_nil (s : σ) : run step s [] = .ok s := rfl

theorem run_cons_ok {s t : σ} {a : α} (as : List α) (h : step s a = .ok t) :
    run step s (a :: as) = run step t as := by
  simp [run, h]

theorem run_cons_error {s : σ} {a : α} {e : ε} (as : List α) (h : step s a = .error e) :
    run step s (a :: as) = .error e := by
  simp [run, h]

theorem run_cons_eq_ok {s t : σ} {a : α} {as : List α} :
    run step s (a :: as) = .ok t ↔ ∃ m, step s a = .ok m ∧ run step m as = .ok t := by
  cases h : step s a with
  | error e => simp [run, h]
  | ok m => simp [run, h]

theorem run_append {s t : σ} {as : List α} (h : run step s as = .ok t) (bs : List α) :
    run step s (as ++ bs) = run step t bs := by
  induction as generalizing s with
  | nil =>
    cases h
    rfl
  | cons a as ih =>
    obtain ⟨m, hm, hr⟩ := run_cons_eq_ok.mp h
    rw [List.cons_append, run_cons_ok _ hm]
    exact ih hr

theorem Reaches.refl (s : σ) : Reaches step s s := ⟨[], rfl⟩

theorem Reaches.tail {s t u : σ} {a : α} (h : Reaches step s t) (ha : step t a = .ok u) :
    Reaches step s u := by
  obtain ⟨as, has⟩ := h
  exact ⟨as ++ [a], by rw [run_append has, run_cons_ok _ ha, run_nil]⟩

/-- Invariant rule: what holds first and is kept by each step holds of every state reached. -/
theorem run_invariant {I : σ → Prop} (hstep : ∀ s a t, I s → step s a = .ok t → I t)
    {s t : σ} {as : List α} (hs : I s) (h : run step s as = .ok t) : I t := by
  induction as generalizing s with
  | nil =>
    cases h
    exact hs
  | cons a as ih =>
    obtain ⟨m, hm, hr⟩ := run_cons_eq_ok.mp h
    exact ih (hstep s a m hs hm) hr

theorem Reaches.invariant {I : σ → Prop} (hstep : ∀ s a t, I s → step s a = .ok t → I t)
    {s t : σ} (hs : I s) (h : Reaches step s t) : I t := by
  obtain ⟨as, has⟩ := h
  exact run_invariant hstep hs has

/-- The same rule when only the actions allowed by `G` keep the invariant. -/
theorem run_invariant_guarded {I : σ → Prop} {G : σ → α → Prop}
    (hstep : ∀ s a t, I s → G s a → step s a = .ok t → I t)
    {s t : σ} {as : List α} (hs : I s) (hg : Guarded step G s as)
    (h : run step s as = .ok t) : I t := by
  induction as generalizing s with
  | nil =>
    cases h
    exact hs
  | cons a as ih =>
    obtain ⟨m, hm, hr⟩ := run_cons_eq_ok.mp h
    exact ih (hstep s a m hs hg.1 hm) (hg.2 m hm) hr

/-- The same rule for an invariant that also speaks of what was noted down. -/
theorem run_observed_guarded {I : σ → List β → Prop} {G : σ → α → Prop} {f : σ → α → Option β}
    (hstep : ∀ s notes a t, I s notes → G s a → step s a = .ok t → I t (notes ++ (f s a).toList))
    {s t : σ} {as : List α} {notes : List β} (hs : I s notes) (hg : Guarded step G s as)
    (h : run step s as = .ok t) : I t (notes ++ observed step f s as) := by
  induction as generalizing s notes with
  | nil =>
    cases h
    rw [observed, List.append_nil]
    exact hs
  | cons a as ih =>
    obtain ⟨m, hm, hr⟩ := run_cons_eq_ok.mp h
    have hrest := ih (hstep s notes a m hs hg.1 hm) (hg.2 m hm) hr
    rw [observed, hm, ← List.append_assoc]
    exact hrest

/-- An invariant that allows every action guards every run. -/
theorem guarded_of_invariant {I : σ → Prop} {G : σ → α → Prop} (hG : ∀ s a, I s → G s a)
    (hstep : ∀ s a t, I s → step s a = .ok t → I t) {s : σ} (hs : I s) (as : List α) :
    Guarded step G s as := by
  induction as generalizing s with
  | nil => trivial
  | cons a as ih => exact ⟨hG s a hs, fun t ht => ih (hstep s a t hs ht)⟩

/-- Fault rule: a run can only stop with a fault that some step allows under the invariant. -/
theorem run_fault {I : σ → Prop} {P : ε → Prop}
    (hstep : ∀ s a t, I s → step s a = .ok t → I t)
    (hfault : ∀ s a e, I s → step s a = .error e → P e)
    {s : σ} {as : List α} {e : ε} (hs : I s) (h : run step s as = .error e) : P e := by
  induction as generalizing s with
  | nil => cases h
  | cons a as ih =>
    cases hm : step s a with
    | error e' =>
      rw [run_cons_error _ hm] at h
      cases h
      exact hfault s a _ hs hm
    | ok m =>
      rw [run_cons_ok _ hm] at h
      exact ih (hstep s a m hs hm) h

/-- The fault rule for runs whose actions are all allowed by `G`. -/
theorem run_fault_guarded {I : σ → Prop} {P : ε → Prop} {G : σ → α → Prop}
    (hstep : ∀ s a t, I s → G s a → step s a = .ok t → I t)
    (hfault : ∀ s a e, I s → G s a → step s a = .error e → P e)
    {s : σ} {as : List α} {e : ε} (hs : I s) (hg : Guarded step G s as)
    (h : run step s as = .error e) : P e := by
  induction as generalizing s with
  | nil => cases h
  | cons a as ih =>
    cases hm : step s a with
    | error e' =>
      rw [run_cons_error _ hm] at h
      cases h
      exact hfault s a _ hs hg.1 hm
    | ok m =>
      rw [run_cons_ok _ hm] at h
      exact ih (hstep s a m hs hg.1 hm) (hg.2 m hm) h

end Ramryder.Runs
