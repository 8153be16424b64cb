import Ramryder.MemoryPoolSpec
import Ramryder.Runs
import Ramryder.VmManager

/-! What each call of the VM manager can do, guards included: one inversion lemma
for every call, from which all invariants are derived. -/
namespace Ramryder.VmManagerSpec
open CInt CMachine CText CoreSet GuestAgents MemoryPool MemoryPoolSpec PerfCounter VmManager

variable {m m' : Manager} {vmId : ℤ} {i : Fin maxNumVm}

@[simp] theorem setVm_pool (m : Manager) (i : Fin maxNumVm) (vm : VmInstance) :
    (m.setVm i vm).pool = m.pool := rfl

@[simp] theorem setVm_agents (m : Manager) (i : Fin maxNumVm) (vm : VmInstance) :
    (m.setVm i vm).agents = m.agents := rfl

@[simp] theorem setVm_count (m : Manager) (i : Fin maxNumVm) (vm : VmInstance) :
    (m.setVm i vm).count = m.count := rfl

theorem setVm_vms (m : Manager) (i j : Fin maxNumVm) (vm : VmInstance) :
    (m.setVm i vm).vms j = if j = i then vm else m.vms j := by
  simp [Manager.setVm, Function.update_apply]

@[simp] theorem setVm_vms_self (m : Manager) (i : Fin maxNumVm) (vm : VmInstance) :
    (m.setVm i vm).vms i = vm := by simp [setVm_vms]

theorem setVm_vms_other (m : Manager) {i j : Fin maxNumVm} (vm : VmInstance) (hj : j ≠ i) :
    (m.setVm i vm).vms j = m.vms j := by
  rw [setVm_vms, if_neg hj]

/-- A relation of every slot to the one before holds where it holds of the slot that is replaced. -/
theorem setVm_each (m : Manager) {i : Fin maxNumVm} {vm : VmInstance}
    (q : VmInstance → VmInstance → Prop) (hq : q vm (m.vms i)) (hrefl : ∀ v, q v v)
    (j : Fin maxNumVm) : q ((m.setVm i vm).vms j) (m.vms j) := by
  rw [setVm_vms]
  split_ifs with hj
  · rw [hj]
    exact hq
  · exact hrefl _

@[simp] theorem setVm_setVm (m : Manager) (i : Fin maxNumVm) (vm vm' : VmInstance) :
    (m.setVm i vm).setVm i vm' = m.setVm i vm' := by
  simp [Manager.setVm]

/-! ### Lookup -/

theorem vmMngrGetInstance_eq_some (h : vmMngrGetInstance m vmId = some i) :
    (m.vms i).initialized = true ∧ (m.vms i).vmId = vmId := by
  have := List.find?_some h
  simp only [Bool.and_eq_true, beq_iff_eq] at this
  exact ⟨this.2, this.1⟩

theorem vmMngrGetInstance_eq_none (h : vmMngrGetInstance m vmId = none) :
    (m.vms i).initialized = true → (m.vms i).vmId ≠ vmId := by
  intro hinit hid
  have := List.find?_eq_none.mp h i (List.mem_finRange i)
  simp [hinit, hid] at this

/-- No two initialized slots hold the same id. -/
def UniqueIds (m : Manager) : Prop :=
  ∀ i j, (m.vms i).initialized = true → (m.vms j).initialized = true →
    (m.vms i).vmId = (m.vms j).vmId → i = j

theorem UniqueIds.getInstance (hu : UniqueIds m) (hinit : (m.vms i).initialized = true)
    (hid : (m.vms i).vmId = vmId) : vmMngrGetInstance m vmId = some i := by
  cases h : vmMngrGetInstance m vmId with
  | none => exact absurd hid (vmMngrGetInstance_eq_none h hinit)
  | some j =>
    obtain ⟨hj, hjd⟩ := vmMngrGetInstance_eq_some h
    rw [hu i j hinit hj (hid.trans hjd.symm)]

theorem freeEntry_initialized (h : (m.vms (freeEntry m)).initialized = true) (j : Fin maxNumVm) :
    (m.vms j).initialized = true := by
  unfold freeEntry at h
  cases hf : (List.finRange maxNumVm).find? fun i => !(m.vms i).initialized with
  | none =>
    have := List.find?_eq_none.mp hf j (List.mem_finRange j)
    simpa using this
  | some k =>
    have := List.find?_some hf
    rw [hf, Option.getD_some] at h
    simp [h] at this

/-! ### What perf set-up and teardown leave alone -/

/-- Equal but for the perf data. -/
structure SameVm (vm vm' : VmInstance) : Prop where
  vmId : vm'.vmId = vm.vmId
  numCores : vm'.numCores = vm.numCores
  coreSet : vm'.coreSet = vm.coreSet
  initialized : vm'.initialized = vm.initialized
  running : vm'.running = vm.running
  memdevCounter : vm'.memdevCounter = vm.memdevCounter
  attachedDevs : vm'.attachedDevs = vm.attachedDevs

theorem SameVm.refl (vm : VmInstance) : SameVm vm vm := ⟨rfl, rfl, rfl, rfl, rfl, rfl, rfl⟩

theorem SameVm.trans {a b c : VmInstance} (h : SameVm a b) (g : SameVm b c) : SameVm a c :=
  ⟨g.vmId.trans h.vmId, g.numCores.trans h.numCores, g.coreSet.trans h.coreSet,
    g.initialized.trans h.initialized, g.running.trans h.running,
    g.memdevCounter.trans h.memdevCounter, g.attachedDevs.trans h.attachedDevs⟩

theorem setupEvents_same {kernel : PerfKernel} {coreId leaderFd : ℤ} {js : List PerfEventType}
    {vm vm' : VmInstance} (h : setupEvents kernel coreId js leaderFd vm = .ok vm') :
    SameVm vm vm' := by
  induction js generalizing leaderFd vm with
  | nil =>
    cases h
    exact .refl _
  | cons j js ih =>
    simp only [setupEvents, bind_eq_ok] at h
    obtain ⟨_, _, _, _, h⟩ := h
    have hrest := ih h
    exact ⟨hrest.vmId, hrest.numCores, hrest.coreSet, hrest.initialized, hrest.running,
      hrest.memdevCounter, hrest.attachedDevs⟩

theorem vmPerfCounterSetupCore_same {kernel : PerfKernel} {vm vm' : VmInstance} {coreId : ℤ}
    (h : vmPerfCounterSetupCore kernel vm coreId = .ok vm') : SameVm vm vm' := by
  simp only [vmPerfCounterSetupCore, bind_eq_ok] at h
  obtain ⟨_, _, _, hev, h⟩ := h
  cases h
  exact (setupEvents_same hev).trans ⟨rfl, rfl, rfl, rfl, rfl, rfl, rfl⟩

theorem vmPerfCounterSetup_same {kernel : PerfKernel} {vm vm' : VmInstance}
    (h : vmPerfCounterSetup kernel vm = .ok vm') : SameVm vm vm' := by
  obtain ⟨_, _, h⟩ := bind_eq_ok.mp h
  have hreset : ∀ fds cum delta idx, SameVm vm { vm with
      perfEventFds := fds
      cumPerfEventCounts := cum
      deltaPerfEventCounts := delta
      coreIndex := idx } := fun _ _ _ _ => ⟨rfl, rfl, rfl, rfl, rfl, rfl, rfl⟩
  refine vmMngrForEachCore_keeps (P := SameVm vm) ?_ (hreset _ _ _ _) h
  exact fun b core b' hb hcore => hb.trans (vmPerfCounterSetupCore_same hcore)

theorem teardownEvents_same {kernel : PerfKernel} {js : List PerfEventType} {vm vm' : VmInstance}
    (h : teardownEvents kernel js vm = .ok vm') : SameVm vm vm' := by
  induction js generalizing vm with
  | nil =>
    cases h
    exact .refl _
  | cons j js ih =>
    simp only [teardownEvents, bind_eq_ok] at h
    obtain ⟨_, _, _, _, h⟩ := h
    have hrest := ih h
    exact ⟨hrest.vmId, hrest.numCores, hrest.coreSet, hrest.initialized, hrest.running,
      hrest.memdevCounter, hrest.attachedDevs⟩

theorem vmPerfCounterTeardown_same {kernel : PerfKernel} {vm vm' : VmInstance}
    (h : vmPerfCounterTeardown kernel vm = .ok vm') : SameVm vm vm' := teardownEvents_same h

/-! ### Guest agents -/

theorem guestAgentInit_ok {connect : Text → ℤ} {agents agents' : GuestAgentManager} {ret : ℤ}
    (h : guestAgentInit connect agents vmId = .ok (ret, agents')) :
    ∃ a : Fin maxNumVm, vmId = a.val ∧
      ((ret = 0 ∧ agents' = agents ∧ (agents.guestAgents a).initialized = true) ∨
        (ret = -1 ∧ agents'.count = agents.count ∧
          ∀ b, (agents'.guestAgents b).initialized = (agents.guestAgents b).initialized) ∨
        (ret = 0 ∧ (agents.guestAgents a).initialized = false ∧
          ∃ agent, agent.initialized = true ∧
            agents' = { agents.setAgent a agent with count := agents.count + 1 })) := by
  obtain ⟨a, ha, h⟩ := bind_eq_ok.mp h
  refine ⟨a, agentIndex_eq_ok ha, ?_⟩
  dsimp only at h
  split at h
  · rename_i hinit
    cases h
    exact .inl ⟨rfl, rfl, hinit⟩
  split at h
  · cases h
    exact .inr (.inl ⟨rfl, rfl, fun _ => rfl⟩)
  split at h
  · rename_i hinit _ _
    cases h
    refine .inr (.inl ⟨rfl, rfl, fun b => ?_⟩)
    rw [setAgent_guestAgents]
    split_ifs with hb
    · rw [hb]
    · rfl
  · rename_i hinit _ _
    cases h
    exact .inr (.inr ⟨rfl, by simpa using hinit, _, rfl, rfl⟩)

theorem guestAgentCleanup_ok {agents agents' : GuestAgentManager}
    (h : guestAgentCleanup agents vmId = .ok agents') :
    ∃ a : Fin maxNumVm, vmId = a.val ∧
      (((agents.guestAgents a).initialized = false ∧ agents' = agents) ∨
        ((agents.guestAgents a).initialized = true ∧
          ∃ agent, agent.initialized = false ∧
            agents' = { agents.setAgent a agent with count := agents.count - 1 })) := by
  obtain ⟨a, ha, h⟩ := bind_eq_ok.mp h
  refine ⟨a, agentIndex_eq_ok ha, ?_⟩
  dsimp only at h
  split at h
  · rename_i hinit
    cases h
    exact .inr ⟨hinit, _, rfl, rfl⟩
  · rename_i hinit
    cases h
    exact .inl ⟨by simpa using hinit, rfl⟩

/-! ### The calls -/

theorem vmNumCoreUpdate_ok {vm vm' : VmInstance} {core : ℤ}
    (h : vmNumCoreUpdate vm core = .ok vm') :
    InInt (vm.numCores + 1) ∧ vm' = { vm with numCores := vm.numCores + 1 } := by
  simp only [vmNumCoreUpdate, bind_eq_ok, cInt_eq_ok] at h
  obtain ⟨_, ⟨hr, rfl⟩, h⟩ := h
  cases h
  exact ⟨hr, rfl⟩

/-- The slot `create` fills: `n` is the number of cores it counts. -/
def createdVm (vm : VmInstance) (vmId : ℤ) (coreSet : Text) (n : ℤ) : VmInstance :=
  { vm with
    vmId := vmId
    numCores := n
    memdevCounter := 0
    coreSet := coreSet.take (coreSetLen - 1)
    attachedDevs := []
    initialized := true }

theorem vmMngrInstanceCreate_ok {coreSet : Text} {ret : ℤ}
    (h : vmMngrInstanceCreate m vmId coreSet = .ok (ret, m')) :
    (ret = -1 ∧ m' = m) ∨
      (ret = 0 ∧ m.count < maxNumVm ∧ vmMngrGetInstance m vmId = none ∧
        ∃ i n, (m.vms i).initialized = false ∧
          vmMngrForEachCore (coreSet.take (coreSetLen - 1)) vmNumCoreUpdate
            { m.vms i with
              vmId := vmId
              numCores := 0
              memdevCounter := 0
              coreSet := coreSet.take (coreSetLen - 1) } =
            .ok { m.vms i with
              vmId := vmId
              numCores := n
              memdevCounter := 0
              coreSet := coreSet.take (coreSetLen - 1) } ∧
          m' = { m.setVm i (createdVm (m.vms i) vmId coreSet n) with count := m.count + 1 }) := by
  unfold vmMngrInstanceCreate at h
  split at h
  · cases h
    exact .inl ⟨rfl, rfl⟩
  split at h
  · cases h
    exact .inl ⟨rfl, rfl⟩
  rename_i hcount hexit
  simp only [bind_eq_ok, bugOn_eq_ok] at h
  obtain ⟨_, hfree, vm, hcores, h⟩ := h
  have hkeep : ∃ n, vm = { m.vms (freeEntry m) with
      vmId := vmId
      numCores := n
      memdevCounter := 0
      coreSet := coreSet.take (coreSetLen - 1) } := by
    refine vmMngrForEachCore_keeps (P := fun b => ∃ n, b = { m.vms (freeEntry m) with
      vmId := vmId
      numCores := n
      memdevCounter := 0
      coreSet := coreSet.take (coreSetLen - 1) }) ?_ ⟨0, rfl⟩ hcores
    rintro _ core b' ⟨n, rfl⟩ hb
    obtain ⟨_, rfl⟩ := vmNumCoreUpdate_ok hb
    exact ⟨n + 1, rfl⟩
  obtain ⟨n, rfl⟩ := hkeep
  cases h
  refine .inr ⟨rfl, by omega, ?_, freeEntry m, n, hfree, hcores, rfl⟩
  simpa [vmMngrCheckExit] using hexit

/-- The start of a VM that does not run: its counters are set up, and taken down again where the
agent refuses. -/
theorem vmMngrInstanceStart_idle {env : StartEnv} {ret : ℤ} (hget : vmMngrGetInstance m vmId = some i)
    (hidle : (m.vms i).running = false) (h : vmMngrInstanceStart env m vmId = .ok (ret, m')) :
    ∃ vm agents, vmPerfCounterSetup env.kernel (m.vms i) = .ok vm ∧
      guestAgentInit env.connect m.agents vmId = .ok (ret, agents) ∧
      ((ret < 0 ∧ ∃ vm', vmPerfCounterTeardown env.kernel vm = .ok vm' ∧
          m' = { m.setVm i vm' with agents := agents }) ∨
        (¬ ret < 0 ∧ m' = { m.setVm i { vm with running := true } with agents := agents })) := by
  simp only [vmMngrInstanceStart, hget, hidle, Bool.false_eq_true, if_false, bind_eq_ok] at h
  obtain ⟨_, _, vm, hsetup, ⟨r, agents⟩, hagent, h⟩ := h
  obtain ⟨a, _, hcases⟩ := guestAgentInit_ok hagent
  refine ⟨vm, agents, hsetup, ?_⟩
  dsimp only at h
  split at h
  · rename_i hneg
    obtain ⟨vm', htear, h⟩ := bind_eq_ok.mp h
    cases h
    have hr : r = -1 := by
      rcases hcases with ⟨h0, _⟩ | ⟨h1, _⟩ | ⟨h0, _⟩
      · omega
      · exact h1
      · omega
    subst hr
    exact ⟨hagent, .inl ⟨by omega, vm', htear, rfl⟩⟩
  · rename_i hpos
    cases h
    have hr : r = 0 := by
      rcases hcases with ⟨h0, _⟩ | ⟨h1, _⟩ | ⟨h0, _⟩
      · exact h0
      · omega
      · exact h0
    subst hr
    exact ⟨hagent, .inr ⟨by omega, rfl⟩⟩

theorem vmMngrInstanceStart_ok {env : StartEnv} {ret : ℤ}
    (h : vmMngrInstanceStart env m vmId = .ok (ret, m')) :
    (ret = -1 ∧ m' = m) ∨ (ret = 0 ∧ m' = m) ∨
      ∃ i vm agents, vmMngrGetInstance m vmId = some i ∧ (m.vms i).running = false ∧
        vmPerfCounterSetup env.kernel (m.vms i) = .ok vm ∧
        guestAgentInit env.connect m.agents vmId = .ok (ret, agents) ∧
        ((ret < 0 ∧ ∃ vm', vmPerfCounterTeardown env.kernel vm = .ok vm' ∧
            m' = { m.setVm i vm' with agents := agents }) ∨
          (¬ ret < 0 ∧ m' = { m.setVm i { vm with running := true } with agents := agents })) := by
  cases hget : vmMngrGetInstance m vmId with
  | none =>
    rw [vmMngrInstanceStart, hget] at h
    cases h
    exact .inl ⟨rfl, rfl⟩
  | some i =>
    cases hrun : (m.vms i).running with
    | true =>
      simp only [vmMngrInstanceStart, hget, hrun, if_true] at h
      cases h
      exact .inr (.inl ⟨rfl, rfl⟩)
    | false =>
      obtain ⟨vm, agents, hstart⟩ := vmMngrInstanceStart_idle hget hrun h
      exact .inr (.inr ⟨i, vm, agents, rfl, hrun, hstart⟩)

theorem vmMngrInstanceDestroy_ok {ret : ℤ} (h : vmMngrInstanceDestroy m vmId = .ok (ret, m')) :
    (ret = -1 ∧ m' = m) ∨
      (ret = 0 ∧ ∃ i, vmMngrGetInstance m vmId = some i ∧ (m.vms i).running = false ∧
        m' = { m.setVm i { m.vms i with coreSet := [], initialized := false } with
          pool := vmReleasedPool m.pool vmId 0 m.pool.numDevs
          count := m.count - 1 }) := by
  unfold vmMngrInstanceDestroy at h
  split at h
  · cases h
    exact .inl ⟨rfl, rfl⟩
  split at h
  · cases h
    exact .inl ⟨rfl, rfl⟩
  rename_i i hget hrun
  obtain ⟨pool, hrel, h⟩ := bind_eq_ok.mp h
  cases h
  rw [(vmMngrGetInstance_eq_some hget).2] at hrel
  have := memoryPoolReleaseVmMemory_ok hrel
  subst this
  exact .inr ⟨rfl, i, hget, by simpa using hrun, rfl⟩

theorem vmMngrInstanceStop_ok {kernel : PerfKernel} {ret : ℤ}
    (h : vmMngrInstanceStop kernel m vmId = .ok (ret, m')) :
    (ret = -1 ∧ m' = m) ∨ (ret = 0 ∧ m' = m) ∨
      (ret = 0 ∧ ∃ i vm agents, vmMngrGetInstance m vmId = some i ∧ (m.vms i).running = true ∧
        guestAgentCleanup m.agents vmId = .ok agents ∧
        vmPerfCounterTeardown kernel { m.vms i with running := false } = .ok vm ∧
        m' = { m.setVm i vm with agents := agents }) := by
  unfold vmMngrInstanceStop at h
  split at h
  · cases h
    exact .inl ⟨rfl, rfl⟩
  split at h
  · cases h
    exact .inr (.inl ⟨rfl, rfl⟩)
  rename_i i hget hrun
  simp only [bind_eq_ok] at h
  obtain ⟨agents, hclean, vm, htear, h⟩ := h
  cases h
  rw [(vmMngrGetInstance_eq_some hget).2] at hclean
  exact .inr (.inr ⟨rfl, i, vm, agents, hget, by simpa using hrun, hclean, htear, rfl⟩)

/-- The slot after a device was appended under the next index. -/
def attachedVm (vm : VmInstance) (req : MemoryRequest) : VmInstance :=
  { vm with
    memdevCounter := vm.memdevCounter + 1
    attachedDevs := vm.attachedDevs ++ [⟨vm.memdevCounter, req⟩] }

theorem vmMngrInstanceAllocMem_ok {nodeId sizeMb : ℤ} {res : Option VmMemReq}
    (hseg : 0 < m.pool.numDevs → 0 < m.pool.segmentSizeMb)
    (h : vmMngrInstanceAllocMem m nodeId vmId sizeMb = .ok (res, m')) :
    (res = none ∧ m' = m) ∨
      ∃ i req pool k lo n, vmMngrGetInstance m vmId = some i ∧
        Allocation m.pool nodeId vmId sizeMb req pool k lo n ∧
        InInt ((m.vms i).memdevCounter + 1) ∧
        res = some (vmMemReqOf ⟨(m.vms i).memdevCounter, req⟩) ∧
        m' = { m.setVm i (attachedVm (m.vms i) req) with pool := pool } := by
  unfold vmMngrInstanceAllocMem at h
  split at h
  · cases h
    exact .inl ⟨rfl, rfl⟩
  rename_i i hget
  obtain ⟨⟨req, pool⟩, halloc, h⟩ := bind_eq_ok.mp h
  rcases memoryPoolAllocateSegments_ok hseg halloc with ⟨rfl, rfl⟩ | ⟨r, k, lo, n, rfl, hal⟩
  · cases h
    exact .inl ⟨rfl, rfl⟩
  · dsimp only at h
    obtain ⟨⟨idx, m₁⟩, hidx, h⟩ := bind_eq_ok.mp h
    have hget' : vmMngrGetInstance { m with pool := pool } vmId = some i := hget
    simp only [vmMngrGetNewMemdevIdx, hget', bind_eq_ok, cInt_eq_ok] at hidx
    obtain ⟨_, ⟨hin, rfl⟩, hidx⟩ := hidx
    cases hidx
    cases h
    refine .inr ⟨i, r, pool, k, lo, n, hget, hal, hin, rfl, ?_⟩
    simp [attachedVm, Manager.setVm]

theorem vmMngrInstanceAllocMem_granted {nodeId sizeMb : ℤ} {i : Fin maxNumVm} {req : MemoryRequest}
    {pool : Pool} (hget : vmMngrGetInstance m vmId = some i)
    (halloc : memoryPoolAllocateSegments m.pool nodeId vmId sizeMb = .ok (some req, pool))
    (hin : InInt ((m.vms i).memdevCounter + 1)) : vmMngrInstanceAllocMem m nodeId vmId sizeMb =
      .ok (some (vmMemReqOf ⟨(m.vms i).memdevCounter, req⟩),
        { m.setVm i (attachedVm (m.vms i) req) with pool := pool }) := by
  have hget' : vmMngrGetInstance { m with pool := pool } vmId = some i := hget
  simp [vmMngrInstanceAllocMem, hget, halloc, vmMngrGetNewMemdevIdx, hget', cInt_eq_ok.mpr ⟨hin, rfl⟩,
    attachedVm, Manager.setVm]

theorem vmMngrInstanceFreeMem_none {memdevIdx : ℤ}
    (h : vmMngrGetInstance m vmId = none ∨
      ∃ i, vmMngrGetInstance m vmId = some i ∧ findMemoryDev (m.vms i) memdevIdx = none) :
    vmMngrInstanceFreeMem m vmId memdevIdx = .ok (-1, m) := by
  rcases h with h | ⟨i, h, hdev⟩
  · simp [vmMngrInstanceFreeMem, h]
  · simp [vmMngrInstanceFreeMem, h, hdev]

/-- The slot after the device with this index was removed. -/
def detachedVm (vm : VmInstance) (memdevIdx : ℤ) : VmInstance :=
  { vm with attachedDevs := vm.attachedDevs.eraseP fun d => d.memdevIdx == memdevIdx }

theorem vmMngrInstanceFreeMem_released {memdevIdx : ℤ} {dev : MemoryDev} {pool : Pool}
    (hget : vmMngrGetInstance m vmId = some i)
    (hdev : findMemoryDev (m.vms i) memdevIdx = some dev)
    (hrel : memoryPoolReleaseSegments m.pool dev.memoryReq.nodeId vmId dev.memoryReq.offsetMb
      dev.memoryReq.sizeMb = .ok (0, pool)) :
    vmMngrInstanceFreeMem m vmId memdevIdx =
      .ok (0, { m.setVm i (detachedVm (m.vms i) memdevIdx) with pool := pool }) := by
  simp [vmMngrInstanceFreeMem, hget, hdev, hrel, detachedVm]

/-! ### Faults -/

variable {e : Fault} {Q : Fault → Prop}

/-- The faults a call of the VM manager can end with away from the guest agents, given what holds
of an access outside a `segments` array. -/
structure VmFaults (Q : Fault → Prop) : Prop where
  bugOn : ∀ check, Q (.bugOn check)
  divisionByZero : Q .divisionByZero
  intOverflow : Q .intOverflow
  perfEventFds : Q .perfEventFds

structure CallFaults (Q : Fault → Prop) : Prop extends VmFaults Q where
  guestAgentIndex : ∀ vmId, Q (.guestAgentIndex vmId)

theorem store_fault {array : FdArray} {k : ℕ} {fd : ℤ} (h : array.store k fd = .error e) :
    e = .perfEventFds := by
  unfold FdArray.store at h
  split at h
  · split_ifs at h
    exact (Except.error.inj h).symm
  · exact (Except.error.inj h).symm

theorem close_fault {array : FdArray} {k : ℕ} (h : array.close k = .error e) :
    e = .perfEventFds := by
  unfold FdArray.close at h
  split at h
  · split at h
    · cases h
    · exact (Except.error.inj h).symm
  · exact (Except.error.inj h).symm

theorem free_fault {array : FdArray} (h : array.free = .error e) : e = .perfEventFds := by
  unfold FdArray.free at h
  split at h
  · cases h
  · exact (Except.error.inj h).symm

theorem setupEvents_fault (hQ : VmFaults Q) {kernel : PerfKernel} {coreId leaderFd : ℤ}
    {js : List PerfEventType} {vm : VmInstance}
    (h : setupEvents kernel coreId js leaderFd vm = .error e) : Q e := by
  induction js generalizing leaderFd vm with
  | nil => cases h
  | cons j js ih =>
    simp only [setupEvents, bind_eq_error] at h
    rcases h with h | ⟨_, _, h | ⟨_, _, h⟩⟩
    · rw [store_fault h]
      exact hQ.perfEventFds
    · rw [(bugOn_eq_error h).1]
      exact hQ.bugOn _
    · exact ih h

theorem vmPerfCounterSetupCore_fault (hQ : VmFaults Q) {kernel : PerfKernel} {vm : VmInstance}
    {coreId : ℤ} (h : vmPerfCounterSetupCore kernel vm coreId = .error e) : Q e := by
  simp only [vmPerfCounterSetupCore, bind_eq_error] at h
  rcases h with h | ⟨_, _, h | ⟨_, _, h⟩⟩
  · rw [(bugOn_eq_error h).1]
    exact hQ.bugOn _
  · exact setupEvents_fault hQ h
  · cases h

theorem vmPerfCounterSetup_fault (hQ : VmFaults Q) {kernel : PerfKernel} {vm : VmInstance}
    (h : vmPerfCounterSetup kernel vm = .error e) : Q e := by
  rcases bind_eq_error.mp h with h | ⟨_, _, h⟩
  · rw [(bugOn_eq_error h).1]
    exact hQ.bugOn _
  · exact vmMngrForEachCore_fault hQ.intOverflow (hQ.bugOn _)
      (fun _ _ _ hcore => vmPerfCounterSetupCore_fault hQ hcore) h

theorem teardownCores_fault {kernel : PerfKernel} {n k sum : ℕ} {array : FdArray}
    (h : teardownCores kernel n k sum array = .error e) : e = .perfEventFds := by
  induction n generalizing k sum array with
  | zero => cases h
  | succ n ih =>
    simp only [teardownCores, bind_eq_error] at h
    rcases h with h | ⟨_, _, h⟩
    · exact close_fault h
    · exact ih h

theorem teardownEvents_fault {kernel : PerfKernel} {js : List PerfEventType} {vm : VmInstance}
    (h : teardownEvents kernel js vm = .error e) : e = .perfEventFds := by
  induction js generalizing vm with
  | nil => cases h
  | cons j js ih =>
    simp only [teardownEvents, bind_eq_error] at h
    rcases h with h | ⟨_, _, h | ⟨_, _, h⟩⟩
    · exact teardownCores_fault h
    · exact free_fault h
    · exact ih h

theorem guestAgentInit_fault {connect : Text → ℤ} {agents : GuestAgentManager}
    (h : guestAgentInit connect agents vmId = .error e) : e = .guestAgentIndex vmId := by
  rcases bind_eq_error.mp h with h | ⟨a, _, h⟩
  · exact agentIndex_eq_error h
  · dsimp only at h
    split_ifs at h

theorem guestAgentCleanup_fault {agents : GuestAgentManager}
    (h : guestAgentCleanup agents vmId = .error e) : e = .guestAgentIndex vmId := by
  rcases bind_eq_error.mp h with h | ⟨a, _, h⟩
  · exact agentIndex_eq_error h
  · dsimp only at h
    split_ifs at h

theorem vmMngrInstanceCreate_fault (hQ : VmFaults Q) {coreSet : Text}
    (h : vmMngrInstanceCreate m vmId coreSet = .error e) : Q e := by
  unfold vmMngrInstanceCreate at h
  split at h
  · cases h
  split at h
  · cases h
  simp only [bind_eq_error] at h
  rcases h with h | ⟨_, _, h | ⟨_, _, h⟩⟩
  · rw [(bugOn_eq_error h).1]
    exact hQ.bugOn _
  · refine vmMngrForEachCore_fault hQ.intOverflow (hQ.bugOn _) ?_ h
    intro vm core e' hcore
    rcases bind_eq_error.mp hcore with hcore | ⟨_, _, hcore⟩
    · rw [cInt_eq_error hcore]
      exact hQ.intOverflow
    · cases hcore
  · cases h

theorem vmMngrInstanceStart_fault (hQ : CallFaults Q) {env : StartEnv}
    (h : vmMngrInstanceStart env m vmId = .error e) : Q e := by
  unfold vmMngrInstanceStart at h
  split at h
  · cases h
  split at h
  · cases h
  simp only [bind_eq_error] at h
  rcases h with h | ⟨_, _, h | ⟨vm, _, h | ⟨⟨ret, agents⟩, _, h⟩⟩⟩
  · rw [(bugOn_eq_error h).1]
    exact hQ.bugOn _
  · exact vmPerfCounterSetup_fault hQ.toVmFaults h
  · rw [guestAgentInit_fault h]
    exact hQ.guestAgentIndex vmId
  · dsimp only at h
    split at h
    · rcases bind_eq_error.mp h with h | ⟨_, _, h⟩
      · rw [teardownEvents_fault h]
        exact hQ.perfEventFds
      · cases h
    · cases h

theorem vmMngrInstanceStop_fault (hQ : CallFaults Q) {kernel : PerfKernel}
    (h : vmMngrInstanceStop kernel m vmId = .error e) : Q e := by
  unfold vmMngrInstanceStop at h
  split at h
  · cases h
  split at h
  · cases h
  simp only [bind_eq_error] at h
  rcases h with h | ⟨_, _, h | ⟨_, _, h⟩⟩
  · rw [guestAgentCleanup_fault h]
    exact hQ.guestAgentIndex _
  · rw [teardownEvents_fault h]
    exact hQ.perfEventFds
  · cases h

/-- What an access outside an array means for a pool: some device is larger than its array. -/
def OversizedDev (pool : Pool) : Prop :=
  ∃ k < pool.numDevs, (maxSegments : ℤ) < (pool.memDevs k).totalSegments

theorem vmMngrInstanceDestroy_fault (hseg : OversizedDev m.pool → ∀ p, Q (.segmentIndex p))
    (h : vmMngrInstanceDestroy m vmId = .error e) : Q e := by
  unfold vmMngrInstanceDestroy at h
  split at h
  · cases h
  split at h
  · cases h
  rcases bind_eq_error.mp h with h | ⟨_, _, h⟩
  · obtain ⟨⟨p, rfl⟩, k, _, hk, hmax⟩ := releaseVmDevices_error h
    exact hseg ⟨k, by omega, hmax⟩ p
  · cases h

theorem vmMngrInstanceAllocMem_fault (hQ : VmFaults Q)
    (hseg : OversizedDev m.pool → ∀ p, Q (.segmentIndex p)) {nodeId sizeMb : ℤ}
    (h : vmMngrInstanceAllocMem m nodeId vmId sizeMb = .error e) : Q e := by
  unfold vmMngrInstanceAllocMem at h
  split at h
  · cases h
  rename_i i hget
  rcases bind_eq_error.mp h with h | ⟨⟨req, pool⟩, _, h⟩
  · rcases memoryPoolAllocateSegments_error h with (rfl | rfl | rfl) | ⟨⟨p, rfl⟩, hbig⟩
    · exact hQ.divisionByZero
    · exact hQ.bugOn _
    · exact hQ.intOverflow
    · exact hseg hbig p
  · dsimp only at h
    split at h
    · cases h
    · rcases bind_eq_error.mp h with h | ⟨_, _, h⟩
      · have hget' : vmMngrGetInstance { m with pool := pool } vmId = some i := hget
        simp only [vmMngrGetNewMemdevIdx, hget', bind_eq_error] at h
        rcases h with h | ⟨_, _, h⟩
        · rw [cInt_eq_error h]
          exact hQ.intOverflow
        · cases h
      · cases h

theorem dumpDevs_fault {size offset : ℕ} {devs : List MemoryDev} {buffer : Text}
    (h : dumpDevs size devs buffer offset = .error e) : e = .bufferOverflow := by
  induction devs generalizing buffer offset with
  | nil => cases h
  | cons dev devs ih =>
    unfold dumpDevs at h
    rcases bind_eq_error.mp h with h | ⟨r, _, h⟩
    · exact appendf_eq_error h
    · dsimp only at h
      split at h
      · cases h
      · exact ih h

theorem dumpVms_fault {size offset : ℕ} {is : List (Fin maxNumVm)} {buffer : Text}
    (h : dumpVms m size is buffer offset = .error e) : e = .bufferOverflow := by
  induction is generalizing buffer offset with
  | nil => cases h
  | cons i is ih =>
    unfold dumpVms at h
    split at h
    · cases h
    split at h
    · exact ih h
    rcases bind_eq_error.mp h with h | ⟨r, _, h⟩
    · exact appendf_eq_error h
    · dsimp only at h
      split at h
      · cases h
      · rcases bind_eq_error.mp h with h | ⟨r, _, h⟩
        · exact dumpDevs_fault h
        · exact ih h

theorem vmMngrDumpState_fault {size : ℕ} (h : vmMngrDumpState m size = .error e) :
    e = .bufferOverflow := by
  unfold vmMngrDumpState at h
  rcases bind_eq_error.mp h with h | ⟨r, _, h⟩
  · exact appendf_eq_error h
  dsimp only at h
  split at h
  · cases h
  split at h
  · rcases bind_eq_error.mp h with h | ⟨r, _, h⟩
    · exact appendf_eq_error h
    · cases h
  · exact dumpVms_fault h

end Ramryder.VmManagerSpec
