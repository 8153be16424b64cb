import Ramryder.Runs

/-! Two fallible machines side by side: results that are related, and runs that stay related when the
one machine answers each action of the other, or skips it. -/
namespace Ramryder.Simulation
open Runs

variable {ε ε' σ τ α β γ δ : Type*}

/-- Both computations succeed with related results, or both fail with related errors. -/
inductive Both (E : ε → ε' → Prop) (R : α → β → Prop) : Except ε α → Except ε' β → Prop
  | ok {a : α} {b : β} (h : R a b) : Both E R (.ok a) (.ok b)
  | error {e : ε} {f : ε'} (h : E e f) : Both E R (.error e) (.error f)

namespace Both

variable {E : ε → ε' → Prop} {R R' : α → β → Prop} {S : γ → δ → Prop} {x : Except ε α} {y : Except ε' β}

theorem imp (h : Both E R x y) (hR : ∀ a b, R a b → R' a b) : Both E R' x y := by
  cases h with
  | ok h => exact .ok (hR _ _ h)
  | error h => exact .error h

theorem map (h : Both E R x y) {f : α → γ} {g : β → δ} (hS : ∀ a b, R a b → S (f a) (g b)) :
    Both E S (x.map f) (y.map g) := by
  cases h with
  | ok h => exact .ok (hS _ _ h)
  | error h => exact .error h

theorem map_right (h : Both E R x y) {g : β → δ} {T : α → δ → Prop}
    (hT : ∀ a b, R a b → T a (g b)) : Both E T x (y.map g) := by
  cases h with
  | ok h => exact .ok (hT _ _ h)
  | error h => exact .error h

/-- What is seen of related results is the same. -/
theorem toOption_map (h : Both E R x y) {f : α → γ} {g : β → γ} (hf : ∀ a b, R a b → f a = g b) :
    x.toOption.map f = y.toOption.map g := by
  cases h with
  | ok h => exact congrArg some (hf _ _ h)
  | error h => rfl

theorem ok_left (h : Both E R x y) {a : α} (hx : x = .ok a) : ∃ b, y = .ok b ∧ R a b := by
  cases h with
  | ok h =>
    cases hx
    exact ⟨_, rfl, h⟩
  | error h => cases hx

theorem error_left (h : Both E R x y) {e : ε} (hx : x = .error e) : ∃ f, y = .error f ∧ E e f := by
  cases h with
  | ok h => cases hx
  | error h =>
    cases hx
    exact ⟨_, rfl, h⟩

end Both

section Bind

variable {ε ε' α β γ δ : Type} {E : ε → ε' → Prop} {R : α → β → Prop} {S : γ → δ → Prop}
  {x : Except ε α} {y : Except ε' β}

theorem Both.bind (h : Both E R x y) {f : α → Except ε γ} {g : β → Except ε' δ}
    (hS : ∀ a b, R a b → Both E S (f a) (g b)) : Both E S (x >>= f) (y >>= g) := by
  cases h with
  | ok h => exact hS _ _ h
  | error h => exact .error h

/-- A computation that the two share. -/
theorem Both.bind_same {E : ε → ε → Prop} (hE : ∀ e, E e e) {f : α → Except ε γ} {g : α → Except ε δ}
    (hS : ∀ a, x = .ok a → Both E S (f a) (g a)) : Both E S (x >>= f) (x >>= g) := by
  cases x with
  | ok a => exact hS a rfl
  | error e => exact .error (hE e)

end Bind

/-! ### Runs -/

variable {step₁ : σ → α → Except ε σ} {step₂ : τ → β → Except ε' τ} {E : ε → ε' → Prop}
  {R : σ → τ → Prop} {G : σ → α → Prop} {f : α → Option β}

/-- The second machine answers the actions that `f` gives it and is silent on the others. -/
structure Simulates (step₁ : σ → α → Except ε σ) (step₂ : τ → β → Except ε' τ) (E : ε → ε' → Prop)
    (R : σ → τ → Prop) (G : σ → α → Prop) (f : α → Option β) : Prop where
  answers : ∀ s t a b, R s t → G s a → f a = some b → Both E R (step₁ s a) (step₂ t b)
  skips : ∀ s t a, R s t → G s a → f a = none → ∃ s', step₁ s a = .ok s' ∧ R s' t

theorem Simulates.run (h : Simulates step₁ step₂ E R G f) {s : σ} {t : τ} {as : List α} (hR : R s t)
    (hg : Guarded step₁ G s as) : Both E R (run step₁ s as) (run step₂ t (as.filterMap f)) := by
  induction as generalizing s t with
  | nil => exact .ok hR
  | cons a as ih =>
    obtain ⟨ha, hrest⟩ := hg
    cases hf : f a with
    | none =>
      obtain ⟨s', hs, hR'⟩ := h.skips s t a hR ha hf
      rw [List.filterMap_cons_none hf, run_cons_ok _ hs]
      exact ih hR' (hrest s' hs)
    | some b =>
      have hboth := h.answers s t a b hR ha hf
      rw [List.filterMap_cons_some hf]
      cases hs : step₁ s a with
      | ok s' =>
        obtain ⟨t', ht, hR'⟩ := hboth.ok_left hs
        rw [run_cons_ok _ hs, run_cons_ok _ ht]
        exact ih hR' (hrest s' hs)
      | error e =>
        obtain ⟨e', ht, hE⟩ := hboth.error_left hs
        rw [run_cons_error _ hs, run_cons_error _ ht]
        exact .error hE

/-- An observer who sees the same of each answer, and nothing of what is skipped, sees the same of
the runs. -/
theorem Simulates.observed (h : Simulates step₁ step₂ E R G f) {o₁ : σ → α → Option γ}
    {o₂ : τ → β → Option γ} (hsome : ∀ s t a b, R s t → G s a → f a = some b → o₁ s a = o₂ t b)
    (hnone : ∀ s a, f a = none → o₁ s a = none) {s : σ} {t : τ} {as : List α} (hR : R s t)
    (hg : Guarded step₁ G s as) :
    observed step₁ o₁ s as = observed step₂ o₂ t (as.filterMap f) := by
  induction as generalizing s t with
  | nil => rfl
  | cons a as ih =>
    obtain ⟨ha, hrest⟩ := hg
    cases hf : f a with
    | none =>
      obtain ⟨s', hs, hR'⟩ := h.skips s t a hR ha hf
      rw [List.filterMap_cons_none hf, Runs.observed, hs]
      dsimp only
      rw [hnone s a hf, Option.toList_none, List.nil_append]
      exact ih hR' (hrest s' hs)
    | some b =>
      have hboth := h.answers s t a b hR ha hf
      rw [List.filterMap_cons_some hf, Runs.observed, Runs.observed]
      cases hs : step₁ s a with
      | ok s' =>
        obtain ⟨t', ht, hR'⟩ := hboth.ok_left hs
        rw [ht]
        dsimp only
        rw [hsome s t a b hR ha hf, ih hR' (hrest s' hs)]
      | error e =>
        obtain ⟨e', ht, _⟩ := hboth.error_left hs
        rw [ht]

end Ramryder.Simulation
