import Ramryder.CoreCount

/-! The pinning of a VM's vCPUs: the i-th thread goes to the i-th CPU the set writes. -/
namespace Ramryder.VcpuPinning
open CMachine CText Cli CoreCount CpuSet CreatePlan

variable {cpuSet : Text} {cpus : List ℤ} {rows : List (ℤ × ℤ)}

/-- The end of `get_vcpu_threads_from_qmp`: the rows of CPU index and thread id QEMU reports, in
the order of their indices. -/
def vcpuThreads (rows : List (ℤ × ℤ)) : Raises (List (ℤ × ℤ)) :=
  if rows = [] then .error (.runtimeError "Could not read vCPU thread IDs from QMP")
  else .ok (rows.insertionSort fun a b => a.1 ≤ b.1)

/-- `pin_qemu_vcpus`: the CPU and the thread of each `taskset`. -/
def pinQemuVcpus (cpuSet : Text) (rows : List (ℤ × ℤ)) : Raises (List (ℤ × ℤ)) := do
  let hostCpus ← orRaise (expandCpuList cpuSet)
  let threads ← vcpuThreads rows
  if hostCpus.length < threads.length then
    .error (.runtimeError
      s!"Not enough host CPUs for pinning: got {hostCpus.length}, need {threads.length}")
  else .ok (hostCpus.zip (threads.map Prod.snd))

/-- The threads are pinned to CPUs of their own, and every CPU of the set gets one. -/
def PinsAll (pins : List (ℤ × ℤ)) (cpus : List ℤ) : Prop :=
  (pins.map Prod.fst).Nodup ∧ cpus ⊆ pins.map Prod.fst

/-- No CPU is written again before every CPU has been written. -/
def RepeatsLast (written : List ℤ) : Prop :=
  ∀ before cpu after, written = before ++ cpu :: after → cpu ∈ before → written ⊆ before

/-! ### The first places of a list -/

section Repeats

variable {α : Type*}

theorem nodup_of_not_repeated {l : List α}
    (h : ∀ before a after, l = before ++ a :: after → a ∉ before) : l.Nodup := by
  induction l using List.reverseRecOn with
  | nil => exact List.nodup_nil
  | append_singleton l a ih =>
    have hl : l.Nodup := by
      refine ih fun before b after hsplit => h before b (after ++ [a]) ?_
      rw [hsplit, List.append_assoc, List.cons_append]
    exact List.nodup_append.mpr ⟨hl, List.nodup_singleton a, fun b hb c hc hbc =>
      h l a [] rfl (List.mem_singleton.mp hc ▸ hbc ▸ hb)⟩

theorem map_fst_zip_take {β : Type*} {l : List α} {bs : List β} (h : bs.length ≤ l.length) :
    (l.zip bs).map Prod.fst = l.take bs.length := by
  induction bs generalizing l with
  | nil => simp
  | cons b bs ih =>
    cases l with
    | nil => simp at h
    | cons a l => simp [ih (Nat.le_of_succ_le_succ h)]

variable [DecidableEq α]

theorem subset_take_of_nodup {l : List α} (h : (l.take l.dedup.length).Nodup) :
    l ⊆ l.take l.dedup.length := by
  have hle : l.dedup.length ≤ l.length := (List.dedup_sublist l).length_le
  have hperm : (l.take l.dedup.length).Perm l.dedup := by
    refine (h.subperm fun a ha => List.mem_dedup.mpr (List.mem_of_mem_take ha)).perm_of_length_le ?_
    rw [List.length_take, min_eq_left hle]
  exact fun a ha => hperm.mem_iff.mpr (List.mem_dedup.mpr ha)

end Repeats

/-- The first places of a list, as many as it has members, hold each of them once just when nothing
is repeated before everything has occurred. -/
theorem take_nodup_iff {written : List ℤ} :
    (written.take written.dedup.length).Nodup ↔ RepeatsLast written := by
  constructor
  · intro hnodup before cpu after hsplit hmem
    have hcover := subset_take_of_nodup hnodup
    have hlong : written.dedup.length ≤ before.length := by
      by_contra hshort
      have hfront : before ++ [cpu] <+: written.take written.dedup.length :=
        List.prefix_take_iff.mpr ⟨⟨after, by simp [hsplit]⟩, by
          rw [List.length_append, List.length_singleton]
          omega⟩
      have hdistinct := List.nodup_append.mp (hnodup.sublist hfront.sublist)
      exact hdistinct.2.2 cpu hmem cpu (List.mem_singleton_self cpu) rfl
    intro cpu' hcpu'
    have htake := hcover hcpu'
    rw [hsplit, List.take_append_of_le_length (by rw [← hsplit]; exact hlong)] at htake
    exact List.mem_of_mem_take htake
  · intro hrepeats
    refine nodup_of_not_repeated fun before cpu after hsplit hmem => ?_
    have hwhole : written = before ++ cpu :: (after ++ written.drop written.dedup.length) := by
      conv_lhs => rw [← List.take_append_drop written.dedup.length written, hsplit]
      simp only [List.append_assoc, List.cons_append]
    have hcover := hrepeats before cpu _ hwhole hmem
    have hcard : written.dedup.length ≤ before.length :=
      ((List.nodup_dedup written).subperm fun a ha => hcover (List.mem_dedup.mp ha)).length_le
    have hlen := congrArg List.length hsplit
    simp only [List.length_take, List.length_append, List.length_cons] at hlen
    omega

/-! ### The pinned vCPUs -/

/-- With a thread for each CPU, the threads get CPUs of their own and every CPU gets a thread just
when no CPU is written again before every CPU has been written. -/
theorem pinsAll_iff (hcpus : parseCpuSet cpuSet = some cpus) (hrows : rows.length = cpus.length) :
    ∃ written pins, expandCpuList cpuSet = some written ∧ pinQemuVcpus cpuSet rows = .ok pins ∧
      (pins.map Prod.snd).Perm (rows.map Prod.snd) ∧ (PinsAll pins cpus ↔ RepeatsLast written) := by
  obtain ⟨_, written, hwritten⟩ := parseCpuSet_accepts (by rw [hcpus]; exact Option.some_ne_none _)
  have hlen := parseCpuSet_length hcpus hwritten
  obtain ⟨hne, hsorted⟩ := parseCpuSet_expanded hcpus hwritten
  have hle : written.dedup.length ≤ written.length := (List.dedup_sublist written).length_le
  set threads := rows.insertionSort fun a b => a.1 ≤ b.1 with hthreads
  have hcount : (threads.map Prod.snd).length = written.dedup.length := by
    rw [List.length_map, hthreads, List.length_insertionSort, hrows, hlen]
  have hrowsNe : rows ≠ [] := by
    rintro rfl
    rw [List.length_nil, hlen, eq_comm, List.length_eq_zero_iff, List.dedup_eq_nil] at hrows
    exact hne hrows
  have hpin : pinQemuVcpus cpuSet rows = .ok (written.zip (threads.map Prod.snd)) := by
    rw [List.length_map] at hcount
    rw [pinQemuVcpus, hwritten, vcpuThreads, if_neg hrowsNe]
    simp only [orRaise, ok_bind]
    rw [← hthreads, if_neg (by omega)]
  have hfirst : (written.zip (threads.map Prod.snd)).map Prod.fst = written.take written.dedup.length := by
    rw [map_fst_zip_take (by omega), hcount]
  refine ⟨written, _, hwritten, hpin, ?_, ?_⟩
  · rw [List.map_snd_zip (by omega)]
    exact (List.perm_insertionSort _ rows).map Prod.snd
  · rw [PinsAll, hfirst, ← take_nodup_iff]
    refine and_iff_left_of_imp fun hnodup cpu hcpu => ?_
    rw [hsorted, List.mem_insertionSort, List.mem_dedup] at hcpu
    exact subset_take_of_nodup hnodup hcpu

/-- The item that is repeated comes last. -/
theorem pinsAll_iff_repeatedLast : ∃ written pins, expandCpuList "2-3,2".toList = some written ∧
    pinQemuVcpus "2-3,2".toList [(1, 71), (0, 70)] = .ok pins ∧
    (pins.map Prod.snd).Perm [71, 70] ∧ (PinsAll pins [2, 3] ↔ RepeatsLast written) :=
  pinsAll_iff (by rfl) (by decide)

/-- Of `0,0,1` both vCPUs are pinned to CPU 0, and none to CPU 1. -/
theorem pinsAll_fails_repeated : ∃ pins, parseCpuSet "0,0,1".toList = some [0, 1] ∧
    pinQemuVcpus "0,0,1".toList [(0, 70), (1, 71)] = .ok pins ∧ ¬ PinsAll pins [0, 1] :=
  ⟨[(0, 70), (0, 71)], by rfl, by rfl, fun h => absurd h.1 (by decide)⟩

end Ramryder.VcpuPinning
