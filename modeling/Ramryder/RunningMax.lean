import Mathlib

/-! The greatest of the values read so far, and what each new value adds to it. -/
namespace Ramryder.RunningMax

variable {α : Type*} [LinearOrder α] [OrderBot α] {values : List α}

/-- The greatest value, the least element of the order before the first. -/
def peak (values : List α) : α := values.foldl max ⊥

@[simp] theorem peak_nil : peak ([] : List α) = ⊥ := rfl

@[simp] theorem peak_concat (values : List α) (v : α) : peak (values ++ [v]) = max (peak values) v := by
  simp [peak]

theorem peak_isGreatest (values : List α) : IsGreatest {v | v = ⊥ ∨ v ∈ values} (peak values) := by
  induction values using List.reverseRecOn with
  | nil => exact ⟨.inl rfl, by simp⟩
  | append_singleton values v ih =>
    rw [peak_concat]
    constructor
    · rcases max_choice (peak values) v with hmax | hmax
      · rw [hmax]
        exact ih.1.imp_right (List.mem_append_left _)
      · rw [hmax]
        exact .inr (List.mem_append_right _ (List.mem_singleton_self v))
    · rintro u (rfl | hu)
      · exact bot_le
      · rcases List.mem_append.mp hu with hu | hu
        · exact (ih.2 (.inr hu)).trans (le_max_left _ _)
        · exact (List.mem_singleton.mp hu).le.trans (le_max_right _ _)

theorem peak_lt {b : α} (hb : ⊥ < b) (h : ∀ v ∈ values, v < b) : peak values < b := by
  rcases (peak_isGreatest values).1 with hbot | hmem
  · rwa [hbot]
  · exact h _ hmem

section Samples

variable {α : Type*} [LinearOrder α] [OrderBot α] [AddCommMonoid α] {samples : List (α × α)}

/-- Each sample is a value and what it adds to the greatest one before it. -/
def Recorded (samples : List (α × α)) : Prop :=
  ∀ earlier v d later, samples = earlier ++ (v, d) :: later →
    peak (earlier.map Prod.fst) + d = peak (earlier.map Prod.fst ++ [v])

theorem Recorded.nil : Recorded ([] : List (α × α)) := by
  intro earlier v d later h
  simp at h

theorem Recorded.concat (h : Recorded samples) {v d : α}
    (hd : peak (samples.map Prod.fst) + d = max (peak (samples.map Prod.fst)) v) :
    Recorded (samples ++ [(v, d)]) := by
  intro earlier u e later hsplit
  rcases List.eq_nil_or_concat later with rfl | ⟨later, last, rfl⟩
  · obtain ⟨rfl, hlast⟩ := List.append_inj' hsplit rfl
    obtain ⟨rfl, rfl⟩ := Prod.mk.inj (List.singleton_inj.mp hlast)
    rw [peak_concat]
    exact hd
  · rw [List.concat_eq_append, ← List.cons_append, ← List.append_assoc] at hsplit
    exact h earlier u e later (List.append_inj' hsplit rfl).1

theorem Recorded.of_concat {v d : α} (h : Recorded (samples ++ [(v, d)])) : Recorded samples := by
  intro earlier u e later hsplit
  refine h earlier u e (later ++ [(v, d)]) ?_
  rw [hsplit, List.append_assoc]
  rfl

/-- What the samples add makes up the greatest value, where the least element is 0. -/
theorem Recorded.sum (hbot : (⊥ : α) = 0) (h : Recorded samples) :
    (samples.map Prod.snd).sum = peak (samples.map Prod.fst) := by
  induction samples using List.reverseRecOn with
  | nil => exact hbot.symm
  | append_singleton samples sample ih =>
    have hlast := h samples sample.1 sample.2 [] rfl
    rw [List.map_append, List.map_append, List.sum_append, ih h.of_concat, List.map_singleton,
      List.map_singleton, List.sum_singleton]
    exact hlast

end Samples

end Ramryder.RunningMax
