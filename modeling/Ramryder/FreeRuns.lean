import Mathlib

/-! Runs of consecutive free positions and first-fit placement. Positions are
natural numbers below a limit; `busy` says which of them are taken. -/
namespace Ramryder.FreeRuns

variable {busy : ℕ → Prop} {len limit lo : ℕ}

def FreeRun (busy : ℕ → Prop) (lo len : ℕ) : Prop := ∀ j < len, ¬ busy (lo + j)

/-- `lo` is the least start of a free run of `len` positions, and the run ends by `limit`. -/
structure FirstFit (busy : ℕ → Prop) (len limit lo : ℕ) : Prop where
  fits : lo + len ≤ limit
  free : FreeRun busy lo len
  least : ∀ i < lo, ¬ FreeRun busy i len

/-- The positions taken once `[lo, lo+len)` is taken as well. -/
def take (busy : ℕ → Prop) (lo len : ℕ) (p : ℕ) : Prop := busy p ∨ lo ≤ p ∧ p < lo + len

/-- The lengths can be placed one after another, each at its first fit. -/
def Fits (busy : ℕ → Prop) (limit : ℕ) : List ℕ → Prop
  | [] => True
  | len :: lens => ∃ lo, FirstFit busy len limit lo ∧ Fits (take busy lo len) limit lens

theorem FreeRun.not_busy {p : ℕ} (h : FreeRun busy lo len) (hlo : lo ≤ p) (hp : p < lo + len) :
    ¬ busy p := by
  have := h (p - lo) (by omega)
  rwa [show lo + (p - lo) = p by omega] at this

theorem not_freeRun_of_busy {p : ℕ} (hb : busy p) (hlo : lo ≤ p) (hp : p < lo + len) :
    ¬ FreeRun busy lo len := fun h => h.not_busy hlo hp hb

/-- A busy position rules out every start from which the run would cross it. -/
theorem skip_busy {i p : ℕ} (hb : busy p) (hp : p < i + len)
    (hi : ∀ k < i, ¬ FreeRun busy k len) : ∀ k < p + 1, ¬ FreeRun busy k len := by
  intro k hk
  by_cases hki : k < i
  · exact hi k hki
  · exact not_freeRun_of_busy hb (by omega) (by omega)

theorem FirstFit.unique {i j : ℕ} (hi : FirstFit busy len limit i)
    (hj : FirstFit busy len limit j) : i = j := by
  rcases lt_trichotomy i j with h | h | h
  · exact absurd hi.free (hj.least i h)
  · exact h
  · exact absurd hj.free (hi.least j h)

/-- First fit fails only where no free run of the length exists. -/
theorem exists_firstFit_iff :
    (∃ lo, FirstFit busy len limit lo) ↔ ∃ lo, lo + len ≤ limit ∧ FreeRun busy lo len := by
  classical
  constructor
  · rintro ⟨lo, h⟩
    exact ⟨lo, h.fits, h.free⟩
  · rintro ⟨lo, hfit, hfree⟩
    have hex : ∃ i, FreeRun busy i len := ⟨lo, hfree⟩
    have hle : Nat.find hex ≤ lo := Nat.find_min' hex hfree
    exact ⟨Nat.find hex, by omega, Nat.find_spec hex, fun i hi => Nat.find_min hex hi⟩

theorem Fits.congr {busy' : ℕ → Prop} {lens : List ℕ} (hb : ∀ p, busy p ↔ busy' p) :
    Fits busy limit lens ↔ Fits busy' limit lens := by
  have : busy = busy' := funext fun p => propext (hb p)
  rw [this]

end Ramryder.FreeRuns
