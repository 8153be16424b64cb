import Ramryder.Lifecycle
import Ramryder.PoolCalls
import Ramryder.SegmentBounds

/-! The shutdown of the manager: a pass that stops the running VMs and a pass that
destroys the initialized ones, over the table they change. -/
namespace Ramryder.Shutdown
open CInt CMachine CText GuestAgents Lifecycle MemoryPool MemoryPoolSpec Ownership PerfCounter
  PoolCalls PoolConfig Runs SegmentBounds VmManager VmManagerSpec

variable {m m' : Manager} {pool : Pool} {i : Fin maxNumVm} {kernels : Fin maxNumVm → PerfKernel}

/-! ### The passes -/

/-- A handler is given the slot its pointer points to. -/
def vmMngrForEachVm (handler : Manager → Fin maxNumVm → Outcome Manager) (m : Manager) :
    Outcome Manager :=
  if m.count = 0 then .ok m
  else (List.finRange maxNumVm).foldlM (fun m i =>
    if !(m.vms i).initialized then .ok m else handler m i) m

def vmMngrForEachVmRunning (handler : Manager → Fin maxNumVm → Outcome Manager) (m : Manager) :
    Outcome Manager :=
  if m.count = 0 then .ok m
  else (List.finRange maxNumVm).foldlM (fun m i =>
    if !(m.vms i).initialized || !(m.vms i).running then .ok m else handler m i) m

/-- Both handlers look the VM up again by its id. -/
def vmDestroy (m : Manager) (i : Fin maxNumVm) : Outcome Manager :=
  (vmMngrInstanceDestroy m (m.vms i).vmId).map Prod.snd

def vmStop (kernels : Fin maxNumVm → PerfKernel) (m : Manager) (i : Fin maxNumVm) :
    Outcome Manager :=
  (vmMngrInstanceStop (kernels i) m (m.vms i).vmId).map Prod.snd

def handleSignal (kernels : Fin maxNumVm → PerfKernel) (m : Manager) : Outcome Manager := do
  let m ← vmMngrForEachVmRunning (vmStop kernels) m
  vmMngrForEachVm vmDestroy m

/-- Nothing is left: no VM, no agent, no allocated segment. -/
structure ShutDown (m : Manager) : Prop where
  initialized : ∀ i, (m.vms i).initialized = false
  running : ∀ i, (m.vms i).running = false
  count : m.count = 0
  agent : ∀ a, (m.agents.guestAgents a).initialized = false
  free : ∀ k < m.pool.numDevs, ∀ p, (m.pool.memDevs k).segments p = freeSegment
  unused : ∀ k < m.pool.numDevs, (m.pool.memDevs k).usedSegments = 0

/-! ### The counters under the manager -/

/-- The invariants of a reachable manager. -/
structure Kept (m : Manager) : Prop where
  owns : Owns m
  consistent : Consistent m
  accounted : ∀ k < m.pool.numDevs, Accounted (m.pool.memDevs k)

theorem kept_reachable (hp : InitialPool pool) (h : Reaches step (initialManager pool) m) :
    Kept m := by
  refine h.invariant (I := Kept) (fun s op t hs hstep => ?_)
    ⟨owns_initial hp, consistent_initial pool, fun k hk => initialDev_accounted hp hk⟩
  exact ⟨owns_step hs.owns hstep, step_consistent hs.owns hs.consistent hstep,
    accounted_step hs.owns hs.accounted hstep⟩

/-! ### The stopping pass -/

theorem stop_total (hl : Consistent m) (kernel : PerfKernel)
    (hrunning : (m.vms i).running = true) :
    ∃ m', vmMngrInstanceStop kernel m (m.vms i).vmId = .ok (0, m') ∧
      (m'.vms i).running = false ∧ ∀ j, j ≠ i → m'.vms j = m.vms j := by
  have hget := hl.ids.getInstance (hl.running i hrunning) rfl
  obtain ⟨a, ha⟩ := hl.agentId i hrunning
  have hclean : ∃ agents, guestAgentCleanup m.agents (m.vms i).vmId = .ok agents := by
    rw [ha, guestAgentCleanup, agentIndex_natCast, ok_bind]
    dsimp only
    split_ifs
    · exact ⟨_, rfl⟩
    · exact ⟨_, rfl⟩
  obtain ⟨agents, hclean⟩ := hclean
  have hfilled : ∀ j, ((m.vms i).perfEventFds j).Filled (m.vms i).numCores.toNat := fun j => by
    have := hl.fds i j
    rwa [if_pos hrunning] at this
  obtain ⟨vm, htear, _⟩ := @vmPerfCounterTeardown_filled { m.vms i with running := false }
    kernel hfilled
  refine ⟨{ m.setVm i vm with agents := agents }, ?_, ?_, fun j hj => ?_⟩
  · simp only [vmMngrInstanceStop, hget, hrunning, Bool.not_true, hclean, htear, ok_bind]
    rfl
  · rw [show ({ m.setVm i vm with agents := agents } : Manager).vms i = vm from setVm_vms_self m i vm,
      (vmPerfCounterTeardown_same htear).running]
  · exact (setVm_vms m i j vm).trans (if_neg hj)

/-- What a stop leaves of the table. -/
structure Stopped (m m' : Manager) : Prop where
  kept : Kept m'
  pool : m'.pool = m.pool
  initialized : ∀ i, (m'.vms i).initialized = (m.vms i).initialized
  running : ∀ i, (m'.vms i).running = true → (m.vms i).running = true

theorem stopPass (hm : Kept m) (is : List (Fin maxNumVm)) :
    ∃ m', is.foldlM (fun m i =>
        if !(m.vms i).initialized || !(m.vms i).running then .ok m else vmStop kernels m i) m = .ok m' ∧
      Stopped m m' ∧ ∀ i ∈ is, (m'.vms i).running = false := by
  induction is generalizing m with
  | nil => exact ⟨m, rfl, ⟨hm, rfl, fun _ => rfl, fun _ h => h⟩, by simp⟩
  | cons i is ih =>
    rw [List.foldlM_cons]
    by_cases hrunning : (m.vms i).running = true
    · have hinit := hm.consistent.running i hrunning
      obtain ⟨m₁, hstop, hoff, hother⟩ := stop_total hm.consistent (kernels i) hrunning
      have hstep : step m (.stop (m.vms i).vmId (kernels i)) = .ok m₁ := by
        rw [step, hstop]
        rfl
      have hm₁ : Kept m₁ := ⟨owns_step hm.owns hstep,
        step_consistent hm.owns hm.consistent hstep, accounted_step hm.owns hm.accounted hstep⟩
      have hsame := vmMngrInstanceStop_memSame hstop
      obtain ⟨m', hrun, hstopped, hall⟩ := ih hm₁
      refine ⟨m', ?_, ⟨hstopped.kept, hstopped.pool.trans hsame.pool,
        fun j => (hstopped.initialized j).trans (hsame.initialized j), fun j hj => ?_⟩, ?_⟩
      · simp only [hinit, hrunning, Bool.not_true, Bool.or_self, vmStop, hstop]
        exact hrun
      · have hj₁ := hstopped.running j hj
        by_cases hji : j = i
        · rw [hji]
          exact hrunning
        · rwa [hother j hji] at hj₁
      · intro j hj
        rcases List.mem_cons.mp hj with rfl | hj
        · by_contra hon
          have hj₁ := hstopped.running j (by simpa using hon)
          rw [hoff] at hj₁
          cases hj₁
        · exact hall j hj
    · rw [Bool.not_eq_true] at hrunning
      obtain ⟨m', hrun, hstopped, hall⟩ := ih hm
      refine ⟨m', ?_, hstopped, ?_⟩
      · simp only [hrunning, Bool.not_false, Bool.or_true, if_true]
        exact hrun
      · intro j hj
        rcases List.mem_cons.mp hj with rfl | hj
        · by_contra hon
          have hj₁ := hstopped.running j (by simpa using hon)
          rw [hrunning] at hj₁
          cases hj₁
        · exact hall j hj

/-! ### The destroying pass -/

theorem devicesInArray_iff : DevicesInArray pool ↔ ¬ OversizedDev pool := by
  simp only [DevicesInArray, OversizedDev, not_exists, not_and, not_lt]

theorem destroy_total (hids : UniqueIds m) (hfit : DevicesInArray m.pool)
    (hinit : (m.vms i).initialized = true) (hstopped : (m.vms i).running = false) :
    ∃ m', vmMngrInstanceDestroy m (m.vms i).vmId = .ok (0, m') ∧
      (m'.vms i).initialized = false ∧ (m'.vms i).running = false ∧
      ∀ j, j ≠ i → m'.vms j = m.vms j := by
  have hget := hids.getInstance hinit rfl
  have hrel : ∃ pool, memoryPoolReleaseVmMemory m.pool (m.vms i).vmId = .ok pool := by
    cases h : memoryPoolReleaseVmMemory m.pool (m.vms i).vmId with
    | error e =>
      obtain ⟨_, k, _, hk, hmax⟩ := releaseVmDevices_error h
      exact absurd ⟨k, by omega, hmax⟩ (devicesInArray_iff.mp hfit)
    | ok pool => exact ⟨pool, rfl⟩
  obtain ⟨pool, hrel⟩ := hrel
  have hself := setVm_vms_self m i { m.vms i with coreSet := [], initialized := false }
  refine ⟨{ m.setVm i { m.vms i with coreSet := [], initialized := false } with
    pool := pool
    count := m.count - 1 }, ?_, ?_, ?_, fun j hj => ?_⟩
  · simp only [vmMngrInstanceDestroy, hget, hstopped, hrel, ok_bind]
    rfl
  · exact congrArg VmInstance.initialized hself
  · exact (congrArg VmInstance.running hself).trans hstopped
  · exact (setVm_vms m i j _).trans (if_neg hj)

/-- What the second pass keeps while it empties the table. -/
structure Destroyed (m m' : Manager) : Prop where
  kept : Kept m'
  geometry : SameGeometry m.pool m'.pool
  running : ∀ i, (m'.vms i).running = false
  initialized : ∀ i, (m'.vms i).initialized = true → (m.vms i).initialized = true

theorem destroyPass (hm : Kept m) (hfit : DevicesInArray m.pool)
    (hstill : ∀ i, (m.vms i).running = false) (is : List (Fin maxNumVm)) :
    ∃ m', is.foldlM (fun m i =>
        if !(m.vms i).initialized then .ok m else vmDestroy m i) m = .ok m' ∧
      Destroyed m m' ∧ ∀ i ∈ is, (m'.vms i).initialized = false := by
  induction is generalizing m with
  | nil => exact ⟨m, rfl, ⟨hm, .refl _, hstill, fun _ h => h⟩, by simp⟩
  | cons i is ih =>
    rw [List.foldlM_cons]
    cases hinit : (m.vms i).initialized with
    | true =>
      obtain ⟨m₁, hdestroy, hoff, hstopped, hother⟩ :=
        destroy_total hm.consistent.ids hfit hinit (hstill i)
      have hstep : step m (.destroy (m.vms i).vmId) = .ok m₁ := by
        rw [step, hdestroy]
        rfl
      have hgeom := step_sameGeometry hm.owns hstep
      have hfit₁ : DevicesInArray m₁.pool := fun k hk => by
        rw [(hgeom.dev k).2.2.2]
        exact hfit k (hgeom.numDevs ▸ hk)
      have hstill₁ : ∀ j, (m₁.vms j).running = false := fun j => by
        by_cases hji : j = i
        · rw [hji, hstopped]
        · rw [hother j hji, hstill j]
      obtain ⟨m', hrun, hdone, hall⟩ := ih ⟨owns_step hm.owns hstep,
        step_consistent hm.owns hm.consistent hstep, accounted_step hm.owns hm.accounted hstep⟩ hfit₁ hstill₁
      refine ⟨m', ?_, ⟨hdone.kept, hgeom.trans hdone.geometry, hdone.running, fun j hj => ?_⟩, ?_⟩
      · simp only [Bool.not_true, vmDestroy, hdestroy]
        exact hrun
      · have hj₁ := hdone.initialized j hj
        by_cases hji : j = i
        · rw [hji, hinit]
        · rwa [hother j hji] at hj₁
      · intro j hj
        rcases List.mem_cons.mp hj with rfl | hj
        · by_contra hon
          have hj₁ := hdone.initialized j (by simpa using hon)
          rw [hoff] at hj₁
          cases hj₁
        · exact hall j hj
    | false =>
      obtain ⟨m', hrun, hdone, hall⟩ := ih hm hfit hstill
      refine ⟨m', ?_, hdone, ?_⟩
      · simp only [Bool.not_false, if_true]
        exact hrun
      · intro j hj
        rcases List.mem_cons.mp hj with rfl | hj
        · by_contra hon
          have hj₁ := hdone.initialized j (by simpa using hon)
          rw [hinit] at hj₁
          cases hj₁
        · exact hall j hj

/-- Over a device larger than its array the pass gets past no VM. -/
theorem destroyPass_oversized (hids : UniqueIds m) (hbig : OversizedDev m.pool)
    (hstill : ∀ i, (m.vms i).running = false) {is : List (Fin maxNumVm)}
    (h : is.foldlM (fun m i => if !(m.vms i).initialized then .ok m else vmDestroy m i) m = .ok m') :
    m' = m ∧ ∀ i ∈ is, (m.vms i).initialized = false := by
  induction is with
  | nil =>
    cases h
    exact ⟨rfl, by simp⟩
  | cons i is ih =>
    rw [List.foldlM_cons] at h
    cases hinit : (m.vms i).initialized with
    | true =>
      have hget := hids.getInstance hinit rfl
      obtain ⟨k, hk, hmax⟩ := hbig
      obtain ⟨p, hfault⟩ := @releaseVmDevices_outside (m.vms i).vmId m.pool m.pool.numDevs 0 k
        (Nat.zero_le _) (by omega) hmax
      have hdestroy : vmDestroy m i = .error (.segmentIndex p) := by
        simp only [vmDestroy, vmMngrInstanceDestroy, hget, hstill i, memoryPoolReleaseVmMemory, hfault]
        rfl
      simp only [hinit, Bool.not_true, hdestroy] at h
      cases h
    | false =>
      simp only [hinit, Bool.not_false, if_true] at h
      obtain ⟨rfl, hall⟩ := ih h
      refine ⟨rfl, fun j hj => ?_⟩
      rcases List.mem_cons.mp hj with rfl | hj
      · exact hinit
      · exact hall j hj

/-! ### Both passes -/

theorem kept_empty (hm : Kept m) (hinit : ∀ i, (m.vms i).initialized = false) : ShutDown m := by
  have hstill : ∀ i, (m.vms i).running = false := fun i => by
    by_contra hon
    have := hm.consistent.running i (by simpa using hon)
    rw [hinit i] at this
    cases this
  have hfree : ∀ k < m.pool.numDevs, ∀ p, ¬ Busy (m.pool.memDevs k) p := by
    intro k hk p hb
    obtain ⟨i, hi, _⟩ := hm.owns.owner k hk p hb
    rw [hinit i] at hi
    cases hi
  have hslots : initializedSlots m = ∅ :=
    Finset.filter_eq_empty_iff.mpr fun i _ => by simp [hinit i]
  refine ⟨hinit, hstill, ?_, fun a => ?_, fun k hk p => ?_, fun k hk => ?_⟩
  · rw [hm.consistent.count, hslots]
    rfl
  · by_contra hon
    obtain ⟨i, hi, _⟩ := (hm.consistent.agent a).mp (by simpa using hon)
    rw [hstill i] at hi
    cases hi
  · have hnotBusy := hfree k hk p
    have hid := (hm.accounted k hk).free p hnotBusy
    have hoff : ((m.pool.memDevs k).segments p).allocated = false := by simpa [Busy] using hnotBusy
    cases hseg : (m.pool.memDevs k).segments p with
    | mk allocated usedVmId =>
      rw [hseg] at hid hoff
      simp_all [freeSegment]
  · rw [(hm.accounted k hk).used, busyCount, Finset.filter_false_of_mem fun p _ => hfree k hk p]
    rfl

theorem Kept.count_zero (hm : Kept m) : m.count = 0 ↔ ∀ i, (m.vms i).initialized = false := by
  rw [hm.consistent.count]
  simp [initializedSlots, Finset.filter_eq_empty_iff]

/-- In every state a process can reach: the signal handler leaves nothing behind exactly when
there is no VM or no device is larger than its array. -/
theorem handleSignal_iff (hp : InitialPool pool) (hreach : Reaches step (initialManager pool) m)
    (kernels : Fin maxNumVm → PerfKernel) :
    (∃ m', handleSignal kernels m = .ok m' ∧ ShutDown m') ↔
      m.count = 0 ∨ DevicesInArray m.pool := by
  have hm := kept_reachable hp hreach
  by_cases hcount : m.count = 0
  · refine iff_of_true ⟨m, ?_, kept_empty hm (hm.count_zero.mp hcount)⟩ (.inl hcount)
    simp only [handleSignal, vmMngrForEachVmRunning, vmMngrForEachVm, hcount, if_true, ok_bind]
  obtain ⟨m₁, hstop, hstopped, hoff⟩ := @stopPass m kernels hm (List.finRange maxNumVm)
  have hstill : ∀ i, (m₁.vms i).running = false := fun i => hoff i (List.mem_finRange i)
  have hslots : ∀ i, (m₁.vms i).initialized = (m.vms i).initialized := hstopped.initialized
  have hcount₁ : m₁.count ≠ 0 := by
    intro hzero
    refine hcount (hm.count_zero.mpr fun i => ?_)
    rw [← hslots i]
    exact hstopped.kept.count_zero.mp hzero i
  have hsignal : handleSignal kernels m = (List.finRange maxNumVm).foldlM (fun m i =>
      if !(m.vms i).initialized then .ok m else vmDestroy m i) m₁ := by
    rw [handleSignal, vmMngrForEachVmRunning, if_neg hcount, hstop, ok_bind, vmMngrForEachVm,
      if_neg hcount₁]
  rw [hsignal, ← hstopped.pool]
  constructor
  · rintro ⟨m', hrun, hdone⟩
    right
    rw [devicesInArray_iff]
    intro hbig
    obtain ⟨rfl, _⟩ := destroyPass_oversized hstopped.kept.consistent.ids hbig hstill hrun
    exact hcount₁ hdone.count
  · rintro (hzero | hfit)
    · exact absurd hzero hcount
    · obtain ⟨m', hrun, hdone, hall⟩ := destroyPass hstopped.kept hfit hstill (List.finRange maxNumVm)
      exact ⟨m', hrun, kept_empty hdone.kept fun i => hall i (List.mem_finRange i)⟩

theorem handleSignal_iff_smallPool : ∃ m,
    run step (initialManager smallPool) [.create 3 "0".toList, .allocMem 0 3 4,
      .start 3 ⟨quietKernel, fun _ => 5⟩] = .ok m ∧
      ((∃ m', handleSignal (fun _ => quietKernel) m = .ok m' ∧ ShutDown m') ↔
        m.count = 0 ∨ DevicesInArray m.pool) := by
  obtain ⟨m, hm⟩ := exists_of_isOk (x := run step (initialManager smallPool)
    [.create 3 "0".toList, .allocMem 0 3 4, .start 3 ⟨quietKernel, fun _ => 5⟩]) (by rfl)
  exact ⟨m, hm, handleSignal_iff smallPool_initial ⟨_, hm⟩ _⟩

/-- One VM on a device of 4097 segments: the second pass leaves the array. -/
theorem handleSignal_fails_4097 : ∃ pool m,
    memoryPoolInit zeroBuffers (some (oneDevConfig "4097")) = .ok (some pool) ∧
      run step (initialManager pool) [.create 0 "0".toList] = .ok m ∧
      ¬ ∃ m', handleSignal (fun _ => quietKernel) m = .ok m' ∧ ShutDown m' := by
  obtain ⟨pool, hload, hview⟩ := exists_of_view
    (f := fun pool => (run step (initialManager pool) [.create 0 "0".toList]).toOption.map fun m =>
      (handleSignal (fun _ => quietKernel) m).toOption.isSome) (b := some false)
    (x := memoryPoolInit zeroBuffers (some (oneDevConfig "4097"))) (by decide +kernel)
  cases hrun : run step (initialManager pool) [.create 0 "0".toList] with
  | error e =>
    rw [hrun] at hview
    cases hview
  | ok m =>
    refine ⟨pool, m, hload, hrun, ?_⟩
    rintro ⟨m', hsignal, _⟩
    rw [hrun] at hview
    simp only [Except.toOption, Option.map_some, hsignal, Option.isSome_some, Option.some.injEq] at hview
    cases hview

end Ramryder.Shutdown
