import Mathlib

/-! Meeting demands from distinct suppliers of limited capacity. A family of demands can be met
exactly when, above every level, there are as many suppliers as demands; taking both in descending
order then meets them one by one. -/
namespace Ramryder.DemandMatching

variable {α β : Type*} [LinearOrder α] (capacity : β → α)

/-- The demands, in order, are met by distinct entries of the list of suppliers. -/
def Assignable (suppliers : List β) (demands : List α) : Prop :=
  ∃ chosen, chosen.Subperm suppliers ∧ List.Forall₂ (fun d b => d ≤ capacity b) demands chosen

/-- Above every level there are as many suppliers as demands. -/
def Covered (suppliers : List β) (demands : List α) : Prop :=
  ∀ t, demands.countP (fun d => decide (t ≤ d)) ≤ suppliers.countP fun b => decide (t ≤ capacity b)

variable {capacity} {suppliers chosen : List β} {demands demands' : List α}

theorem countP_le_of_forall₂ (h : List.Forall₂ (fun d b => d ≤ capacity b) demands chosen) (t : α) :
    demands.countP (fun d => decide (t ≤ d)) ≤ chosen.countP fun b => decide (t ≤ capacity b) := by
  induction h with
  | nil => exact le_rfl
  | @cons d b ds bs hd _ ih =>
    rw [List.countP_cons, List.countP_cons]
    by_cases ht : t ≤ d
    · simpa [ht, ht.trans hd] using ih
    · simp only [ht, decide_false, Bool.false_eq_true, if_false, add_zero]
      exact ih.trans (Nat.le_add_right _ _)

theorem Assignable.covered (h : Assignable capacity suppliers demands) :
    Covered capacity suppliers demands := by
  obtain ⟨chosen, hsub, hmet⟩ := h
  exact fun t => (countP_le_of_forall₂ hmet t).trans (hsub.countP_le _)

/-- In descending order the suppliers meet the demands one by one. -/
theorem Covered.forall₂_take (h : Covered capacity suppliers demands)
    (hdemands : demands.Pairwise (· ≥ ·))
    (hsuppliers : suppliers.Pairwise fun a b => capacity a ≥ capacity b) :
    List.Forall₂ (fun d b => d ≤ capacity b) demands (suppliers.take demands.length) := by
  induction demands generalizing suppliers with
  | nil => exact .nil
  | cons d ds ih =>
    obtain ⟨hd, hds⟩ := List.pairwise_cons.mp hdemands
    have hone : 0 < suppliers.countP fun b => decide (d ≤ capacity b) := by
      refine lt_of_lt_of_le ?_ (h d)
      rw [List.countP_pos_iff]
      exact ⟨d, List.mem_cons_self, by simp⟩
    obtain ⟨b, hb, hroom⟩ := List.countP_pos_iff.mp hone
    have hroom : d ≤ capacity b := by simpa using hroom
    cases suppliers with
    | nil => cases hb
    | cons first rest =>
      obtain ⟨hfirst, hrest⟩ := List.pairwise_cons.mp hsuppliers
      have hhead : d ≤ capacity first := by
        rcases List.mem_cons.mp hb with rfl | hb
        · exact hroom
        · exact hroom.trans (hfirst b hb)
      refine .cons hhead (ih (fun t => ?_) hds hrest)
      by_cases ht : t ≤ d
      · -- both heads reach the level
        have := h t
        simpa [ht, ht.trans hhead] using this
      · -- no later demand reaches it
        have hnone : ds.countP (fun d => decide (t ≤ d)) = 0 := by
          rw [List.countP_eq_zero]
          intro e he
          have := hd e he
          simpa using lt_of_le_of_lt this (not_le.mp ht)
        rw [hnone]
        exact Nat.zero_le _

theorem Covered.perm (h : Covered capacity suppliers demands) (hperm : demands.Perm demands') :
    Covered capacity suppliers demands' := by
  intro t
  rw [← hperm.countP_eq]
  exact h t

theorem Assignable.perm (h : Assignable capacity suppliers demands)
    (hperm : demands.Perm demands') : Assignable capacity suppliers demands' := by
  obtain ⟨chosen, hsub, hmet⟩ := h
  obtain ⟨chosen', hmet', hperm'⟩ := List.perm_comp_forall₂ hperm.symm hmet
  exact ⟨chosen', hperm'.subperm.trans hsub, hmet'⟩

theorem Assignable.mono {more : List β} (h : Assignable capacity suppliers demands)
    (hsub : suppliers.Subperm more) : Assignable capacity more demands := by
  obtain ⟨chosen, hchosen, hmet⟩ := h
  exact ⟨chosen, hchosen.trans hsub, hmet⟩

theorem Assignable.length_le (h : Assignable capacity suppliers demands) :
    demands.length ≤ suppliers.length := by
  obtain ⟨chosen, hsub, hmet⟩ := h
  rw [hmet.length_eq]
  exact hsub.length_le

/-- Demands that can be met can be met by the largest suppliers alone. -/
theorem Assignable.largest (h : Assignable capacity suppliers demands) {sorted : List β}
    (hperm : sorted.Perm suppliers) (hsorted : sorted.Pairwise fun a b => capacity a ≥ capacity b)
    {n : ℕ} (hn : demands.length ≤ n) : Assignable capacity (sorted.take n) demands := by
  have hdesc := h.covered.perm (List.perm_insertionSort (· ≥ ·) demands).symm
  have hcovered : Covered capacity sorted (demands.insertionSort (· ≥ ·)) := fun t =>
    (hdesc t).trans (hperm.countP_eq _).ge
  have hmet := hcovered.forall₂_take (List.pairwise_insertionSort (· ≥ ·) demands) hsorted
  rw [List.length_insertionSort] at hmet
  have hprefix : (sorted.take demands.length).Sublist (sorted.take n) :=
    (List.take_prefix_take_left hn).sublist
  exact Assignable.perm ⟨_, hprefix.subperm, hmet⟩ (List.perm_insertionSort (· ≥ ·) demands)

end Ramryder.DemandMatching
