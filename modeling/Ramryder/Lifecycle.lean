import Ramryder.Ownership

/-! The life of a VM. Slots, guest agents and perf descriptors keep flags and counters
of their own; the invariant `Consistent` says that they always agree. -/
namespace Ramryder.Lifecycle
open CInt CMachine CText CoreSet GuestAgents MemoryPool MemoryPoolSpec Ownership PerfCounter
  PoolConfig Runs VmManager VmManagerSpec

variable {m m' : Manager} {pool : Pool} {i : Fin maxNumVm} {vm vm' : VmInstance} {vmId : ℤ}

def initializedSlots (m : Manager) : Finset (Fin maxNumVm) :=
  Finset.univ.filter fun i => (m.vms i).initialized = true

def runningSlots (m : Manager) : Finset (Fin maxNumVm) :=
  Finset.univ.filter fun i => (m.vms i).running = true

/-- Every iteration over the core set visits exactly these cores. -/
def Enumerates (coreSet : Text) (cores : List ℤ) : Prop :=
  ∀ (γ : Type) (g : γ → ℤ → Outcome γ) (c : γ),
    vmMngrForEachCore coreSet g c = cores.foldlM g c

/-- The descriptors of a slot: open for every core while it runs, none otherwise. -/
def PerfFds (vm : VmInstance) : Prop :=
  ∀ j, if vm.running then (vm.perfEventFds j).Filled vm.numCores.toNat
    else (vm.perfEventFds j).Idle

structure Consistent (m : Manager) : Prop where
  count : m.count = (initializedSlots m).card
  ids : UniqueIds m
  running : ∀ i, (m.vms i).running = true → (m.vms i).initialized = true
  cores : ∀ i, (m.vms i).initialized = true →
    ∃ cores, Enumerates (m.vms i).coreSet cores ∧ (m.vms i).numCores = cores.length
  agent : ∀ a, (m.agents.guestAgents a).initialized = true ↔
    ∃ i, (m.vms i).running = true ∧ (m.vms i).vmId = a.val
  agentId : ∀ i, (m.vms i).running = true → ∃ a : Fin maxNumVm, (m.vms i).vmId = a.val
  agentCount : m.agents.count = (runningSlots m).card
  fds : ∀ i, PerfFds (m.vms i)

/-! ### Perf set-up -/

theorem perfEventTypes_complete (j : PerfEventType) : j ∈ perfEventTypes := by
  cases j <;> decide

/-- One core's turn of the event loop stores one descriptor in every array of the list. -/
theorem setupEvents_filling {kernel : PerfKernel} {coreId leaderFd : ℤ} {js : List PerfEventType}
    {k n : ℕ} (hk : k < n) (hnodup : js.Nodup) (hidx : vm.coreIndex = k)
    (hfds : ∀ j ∈ js, (vm.perfEventFds j).Filling k n) :
    (setupEvents kernel coreId js leaderFd vm ≠ .error .perfEventFds) ∧
      ∀ vm', setupEvents kernel coreId js leaderFd vm = .ok vm' → vm'.coreIndex = k ∧
        (∀ j ∈ js, (vm'.perfEventFds j).Filling (k + 1) n) ∧
        ∀ j ∉ js, vm'.perfEventFds j = vm.perfEventFds j := by
  induction js generalizing leaderFd vm with
  | nil =>
    refine ⟨nofun, fun vm' h => ?_⟩
    cases h
    exact ⟨hidx, by simp, fun _ _ => rfl⟩
  | cons j js ih =>
    obtain ⟨hj, hjs⟩ := List.nodup_cons.mp hnodup
    have hne : ∀ j' ∈ js, j' ≠ j := fun j' hj' heq => hj (heq ▸ hj')
    have hstore : ∀ fd, ∃ array', (vm.perfEventFds j).store vm.coreIndex fd = .ok array' ∧
        array'.Filling (k + 1) n := fun fd => by
      rw [hidx]
      exact (hfds j (List.mem_cons_self ..)).store hk fd
    rw [setupEvents]
    obtain ⟨array', harray, hfill⟩ := hstore (kernel.setup vm.coreIndex
      ⟨coreId, perfEventConfigArr j, perfEventConfig1Arr j, perfEventPinArr j,
        if perfEventIsLeaderArr j then -1 else leaderFd⟩)
    rw [harray, ok_bind]
    have hrest := fun lead => @ih { vm with
      perfEventFds := Function.update vm.perfEventFds j array' } lead hjs hidx (by
        intro j' hj'
        simp only [Function.update_of_ne (hne j' hj')]
        exact hfds j' (List.mem_cons_of_mem _ hj'))
    constructor
    · intro h
      rcases bind_eq_error.mp h with h | ⟨_, _, h⟩
      · cases (bugOn_eq_error h).1
      · exact (hrest _).1 h
    · intro vm' h
      obtain ⟨_, _, h⟩ := bind_eq_ok.mp h
      obtain ⟨hidx', hin, hout⟩ := (hrest _).2 vm' h
      refine ⟨hidx', ?_, ?_⟩
      · intro j' hj'
        rcases List.mem_cons.mp hj' with rfl | hj'
        · rw [hout j' hj]
          simpa only [Function.update_self] using hfill
        · exact hin j' hj'
      · intro j' hj'
        obtain ⟨hne', hj'⟩ : j' ≠ j ∧ j' ∉ js := by simpa using hj'
        rw [hout j' hj']
        exact Function.update_of_ne hne' _ _

theorem vmPerfCounterSetupCore_filling {kernel : PerfKernel} {coreId : ℤ} {k n : ℕ} (hk : k < n)
    (hidx : vm.coreIndex = k) (hfds : ∀ j, (vm.perfEventFds j).Filling k n) :
    vmPerfCounterSetupCore kernel vm coreId ≠ .error .perfEventFds ∧
      ∀ vm', vmPerfCounterSetupCore kernel vm coreId = .ok vm' →
        vm'.coreIndex = k + 1 ∧ ∀ j, (vm'.perfEventFds j).Filling (k + 1) n := by
  have hspec := fun lead => @setupEvents_filling vm kernel coreId lead perfEventTypes k n hk
    (by decide) hidx fun j _ => hfds j
  constructor
  · intro h
    rcases bind_eq_error.mp h with h | ⟨_, _, h⟩
    · cases (bugOn_eq_error h).1
    · rcases bind_eq_error.mp h with h | ⟨_, _, h⟩
      · exact (hspec _).1 h
      · cases h
  · intro vm' h
    simp only [vmPerfCounterSetupCore, bind_eq_ok] at h
    obtain ⟨_, _, vm₁, hev, h⟩ := h
    cases h
    obtain ⟨hidx', hin, _⟩ := (hspec _).2 vm₁ hev
    exact ⟨by rw [hidx'], fun j => hin j (perfEventTypes_complete j)⟩

theorem foldlM_setupCore_filling {kernel : PerfKernel} {cores : List ℤ} {k n : ℕ}
    (hn : k + cores.length = n) (hidx : vm.coreIndex = k)
    (hfds : ∀ j, (vm.perfEventFds j).Filling k n) :
    cores.foldlM (vmPerfCounterSetupCore kernel) vm ≠ .error .perfEventFds ∧
      ∀ vm', cores.foldlM (vmPerfCounterSetupCore kernel) vm = .ok vm' →
        ∀ j, (vm'.perfEventFds j).Filled n := by
  induction cores generalizing k vm with
  | nil =>
    refine ⟨nofun, fun vm' h j => ?_⟩
    cases h
    have hkn : k = n := hn
    exact (hkn ▸ hfds j).filled
  | cons core cores ih =>
    rw [List.length_cons] at hn
    obtain ⟨hsafe, hcore⟩ := @vmPerfCounterSetupCore_filling vm kernel core k n (by omega) hidx hfds
    rw [List.foldlM_cons]
    constructor
    · intro h
      rcases bind_eq_error.mp h with h | ⟨vm₁, hvm₁, h⟩
      · exact hsafe h
      · obtain ⟨hidx', hfds'⟩ := hcore vm₁ hvm₁
        exact (ih (by omega) hidx' hfds').1 h
    · intro vm' h
      obtain ⟨vm₁, hvm₁, h⟩ := bind_eq_ok.mp h
      obtain ⟨hidx', hfds'⟩ := hcore vm₁ hvm₁
      exact (ih (by omega) hidx' hfds').2 vm' h

/-- The second walk over the core set fills the blocks sized by the first one. -/
theorem vmPerfCounterSetup_filled (kernel : PerfKernel) {cores : List ℤ}
    (hcores : Enumerates vm.coreSet cores) (hnum : vm.numCores = cores.length) :
    vmPerfCounterSetup kernel vm ≠ .error .perfEventFds ∧
      ∀ vm', vmPerfCounterSetup kernel vm = .ok vm' →
        ∀ j, (vm'.perfEventFds j).Filled vm.numCores.toNat := by
  have hlen : vm.numCores.toNat = cores.length := by omega
  have hspec := @foldlM_setupCore_filling { vm with
      perfEventFds := fun _ => .alloc vm.numCores.toNat
      cumPerfEventCounts := fun _ => 0
      deltaPerfEventCounts := fun _ => 0
      coreIndex := 0 } kernel cores 0 cores.length (Nat.zero_add _) rfl
    (fun _ => hlen ▸ alloc_filling _)
  rw [vmPerfCounterSetup, hcores, hlen]
  rw [hlen] at hspec
  constructor
  · intro h
    rcases bind_eq_error.mp h with h | ⟨_, _, h⟩
    · cases (bugOn_eq_error h).1
    · exact hspec.1 h
  · intro vm' h
    obtain ⟨_, _, h⟩ := bind_eq_ok.mp h
    exact hspec.2 vm' h

/-! ### Perf teardown -/

theorem teardownCores_filled (kernel : PerfKernel) (fds : List ℤ) (done : List FdCell) {sum : ℕ}
    (hsum : sum < 2 ^ 64) : ∃ cells, teardownCores kernel fds.length done.length sum
      (.live (done ++ fds.map .opened)) =
        .ok ((sum + (fds.map kernel.read).sum) % 2 ^ 64, .live cells) := by
  induction fds generalizing done sum with
  | nil =>
    refine ⟨done, ?_⟩
    rw [List.map_nil, List.map_nil, List.sum_nil, Nat.add_zero, Nat.mod_eq_of_lt hsum, List.append_nil]
    rfl
  | cons fd fds ih =>
    rw [List.length_cons, teardownCores, close_next]
    obtain ⟨cells, h⟩ := ih (done ++ [.closed fd]) (Nat.mod_lt (sum + kernel.read fd) (by decide))
    rw [List.length_append, List.length_singleton, Nat.mod_add_mod, Nat.add_assoc] at h
    rw [List.map_cons, List.sum_cons]
    exact ⟨cells, h⟩

theorem teardownEvents_filled {kernel : PerfKernel} {js : List PerfEventType} (hnodup : js.Nodup)
    (hfds : ∀ j ∈ js, (vm.perfEventFds j).Filled vm.numCores.toNat) :
    ∃ vm', teardownEvents kernel js vm = .ok vm' ∧ (∀ j ∈ js, vm'.perfEventFds j = .freed) ∧
      ∀ j ∉ js, vm'.perfEventFds j = vm.perfEventFds j := by
  induction js generalizing vm with
  | nil => exact ⟨vm, rfl, by simp, fun _ _ => rfl⟩
  | cons j js ih =>
    obtain ⟨hj, hjs⟩ := List.nodup_cons.mp hnodup
    obtain ⟨fds, hlen, harray⟩ := hfds j (List.mem_cons_self ..)
    obtain ⟨cells, hclose⟩ := @teardownCores_filled kernel fds [] 0 (by decide)
    rw [List.nil_append, List.length_nil, hlen, ← harray] at hclose
    set sum := (0 + (fds.map kernel.read).sum) % 2 ^ 64
    obtain ⟨vm', hrest, hin, hout⟩ := @ih { vm with
      perfEventFds := Function.update vm.perfEventFds j .freed
      cumPerfEventCounts := Function.update vm.cumPerfEventCounts j
        (if sum < vm.cumPerfEventCounts j then vm.cumPerfEventCounts j else sum)
      deltaPerfEventCounts := Function.update vm.deltaPerfEventCounts j
        (sub64 (if sum < vm.cumPerfEventCounts j then vm.cumPerfEventCounts j else sum)
          (vm.cumPerfEventCounts j)) } hjs (by
        intro j' hj'
        have hne : j' ≠ j := fun heq => hj (heq ▸ hj')
        simp only [Function.update_of_ne hne]
        exact hfds j' (List.mem_cons_of_mem _ hj'))
    refine ⟨vm', ?_, ?_, ?_⟩
    · rw [teardownEvents, hclose]
      exact hrest
    · intro j' hj'
      rcases List.mem_cons.mp hj' with rfl | hj'
      · rw [hout j' hj]
        exact Function.update_self ..
      · exact hin j' hj'
    · intro j' hj'
      obtain ⟨hne, hj'⟩ : j' ≠ j ∧ j' ∉ js := by simpa using hj'
      rw [hout j' hj']
      exact Function.update_of_ne hne _ _

/-- Tearing down what a running VM holds succeeds and leaves nothing open. -/
theorem vmPerfCounterTeardown_filled {kernel : PerfKernel}
    (hfds : ∀ j, (vm.perfEventFds j).Filled vm.numCores.toNat) :
    ∃ vm', vmPerfCounterTeardown kernel vm = .ok vm' ∧ ∀ j, vm'.perfEventFds j = .freed := by
  obtain ⟨vm', h, hin, _⟩ := @teardownEvents_filled vm kernel perfEventTypes (by decide)
    fun j _ => hfds j
  exact ⟨vm', h, fun j => hin j (perfEventTypes_complete j)⟩

/-! ### Slots -/

/-- Switching one slot's flag on adds one to the number of slots with the flag. -/
theorem card_filter_switch {f g : Fin maxNumVm → Bool} (hother : ∀ j ≠ i, g j = f j)
    (hf : f i = false) (hg : g i = true) :
    (Finset.univ.filter fun j => g j = true).card =
      (Finset.univ.filter fun j => f j = true).card + 1 := by
  have hinsert : (Finset.univ.filter fun j => g j = true) =
      insert i (Finset.univ.filter fun j => f j = true) := by
    ext j
    by_cases hj : j = i
    · simp [hj, hg]
    · simp [hj, hother j hj]
  rw [hinsert, Finset.card_insert_of_notMem (by simp [hf])]

theorem initializedSlots_le (m : Manager) : (initializedSlots m).card ≤ maxNumVm := by
  have := Finset.card_le_univ (initializedSlots m)
  rwa [Fintype.card_fin] at this

/-- Below the limit the search for a free entry finds one. -/
theorem Consistent.freeEntry (hl : Consistent m) (hcount : m.count < maxNumVm) :
    (m.vms (VmManager.freeEntry m)).initialized = false := by
  by_contra hfull
  have hall := freeEntry_initialized (by simpa using hfull)
  have huniv : initializedSlots m = Finset.univ := by
    ext j
    simp [initializedSlots, hall j]
  rw [hl.count, huniv, Finset.card_univ, Fintype.card_fin] at hcount
  exact absurd hcount (lt_irrefl _)

/-- Equal but for the running flags, the descriptors and the agents. -/
structure SameVms (m m' : Manager) : Prop where
  count : m'.count = m.count
  vmId : ∀ i, (m'.vms i).vmId = (m.vms i).vmId
  initialized : ∀ i, (m'.vms i).initialized = (m.vms i).initialized
  numCores : ∀ i, (m'.vms i).numCores = (m.vms i).numCores
  coreSet : ∀ i, (m'.vms i).coreSet = (m.vms i).coreSet

theorem sameVms_setVm {agents : GuestAgentManager} (hid : vm.vmId = (m.vms i).vmId)
    (hinit : vm.initialized = (m.vms i).initialized) (hnum : vm.numCores = (m.vms i).numCores)
    (hset : vm.coreSet = (m.vms i).coreSet) :
    SameVms m { m.setVm i vm with agents := agents } where
  count := rfl
  vmId := setVm_each m (fun v w => v.vmId = w.vmId) hid fun _ => rfl
  initialized := setVm_each m (fun v w => v.initialized = w.initialized) hinit fun _ => rfl
  numCores := setVm_each m (fun v w => v.numCores = w.numCores) hnum fun _ => rfl
  coreSet := setVm_each m (fun v w => v.coreSet = w.coreSet) hset fun _ => rfl

theorem SameVms.slots (hs : SameVms m m') (hl : Consistent m) :
    m'.count = (initializedSlots m').card := by
  simpa only [hs.count, initializedSlots, hs.initialized] using hl.count

theorem SameVms.ids (hs : SameVms m m') (hl : Consistent m) : UniqueIds m' := by
  intro a b ha hb hab
  rw [hs.initialized] at ha hb
  rw [hs.vmId, hs.vmId] at hab
  exact hl.ids a b ha hb hab

theorem SameVms.cores (hs : SameVms m m') (hl : Consistent m) (a : Fin maxNumVm)
    (ha : (m'.vms a).initialized = true) :
    ∃ cores, Enumerates (m'.vms a).coreSet cores ∧ (m'.vms a).numCores = cores.length := by
  rw [hs.coreSet, hs.numCores]
  exact hl.cores a (hs.initialized a ▸ ha)

/-- Equal in all that the life of a VM consists of. -/
structure LifeSame (m m' : Manager) : Prop extends SameVms m m' where
  running : ∀ i, (m'.vms i).running = (m.vms i).running
  agentCount : m'.agents.count = m.agents.count
  agent : ∀ a, (m'.agents.guestAgents a).initialized = (m.agents.guestAgents a).initialized
  fds : ∀ i, PerfFds (m.vms i) → PerfFds (m'.vms i)

theorem Consistent.lifeSame (hl : Consistent m) (hs : LifeSame m m') : Consistent m' where
  count := hs.slots hl
  ids := hs.ids hl
  running := fun a ha => by
    rw [hs.initialized]
    exact hl.running a (hs.running a ▸ ha)
  cores := hs.cores hl
  agent := fun a => by simpa only [hs.agent, hs.running, hs.vmId] using hl.agent a
  agentId := fun a ha => by
    rw [hs.vmId]
    exact hl.agentId a (hs.running a ▸ ha)
  agentCount := by simpa only [hs.agentCount, runningSlots, hs.running] using hl.agentCount
  fds := fun a => hs.fds a (hl.fds a)

/-- Replacing one slot by one with the same life. -/
theorem lifeSame_setVm {agents : GuestAgentManager} (pool' : Pool)
    (hs : vm.vmId = (m.vms i).vmId ∧ vm.initialized = (m.vms i).initialized ∧
      vm.running = (m.vms i).running ∧ vm.numCores = (m.vms i).numCores ∧
      vm.coreSet = (m.vms i).coreSet)
    (hfds : PerfFds (m.vms i) → PerfFds vm) (hcount : agents.count = m.agents.count)
    (hflags : ∀ a, (agents.guestAgents a).initialized = (m.agents.guestAgents a).initialized) :
    LifeSame m { m.setVm i vm with pool := pool', agents := agents } := by
  obtain ⟨hid, hinit, hrun, hnum, hset⟩ := hs
  obtain ⟨_, hids, hinits, hnums, hsets⟩ := @sameVms_setVm m i vm agents hid hinit hnum hset
  exact ⟨⟨rfl, hids, hinits, hnums, hsets⟩,
    setVm_each m (fun v w => v.running = w.running) hrun fun _ => rfl, hcount, hflags,
    setVm_each m (fun v w => PerfFds w → PerfFds v) hfds fun _ => id⟩

/-! ### Create and destroy -/

theorem foldlM_numCores {cores : List ℤ} (h : cores.foldlM vmNumCoreUpdate vm = .ok vm') :
    vm'.numCores = vm.numCores + cores.length := by
  induction cores generalizing vm with
  | nil =>
    cases h
    simp
  | cons core cores ih =>
    obtain ⟨vm₁, hvm₁, h⟩ := bind_eq_ok.mp h
    obtain ⟨_, rfl⟩ := vmNumCoreUpdate_ok hvm₁
    rw [ih h, List.length_cons]
    push_cast
    ring

/-- Only slot `i` may differ. Its VM does not run, before and after, and its descriptors are the
same. -/
structure StoppedSlot (m m' : Manager) (i : Fin maxNumVm) : Prop where
  others : ∀ j, j ≠ i → m'.vms j = m.vms j
  before : (m.vms i).running = false
  after : (m'.vms i).running = false
  perfEventFds : (m'.vms i).perfEventFds = (m.vms i).perfEventFds
  agents : m'.agents = m.agents

theorem StoppedSlot.running (hs : StoppedSlot m m' i) (j : Fin maxNumVm) :
    (m'.vms j).running = (m.vms j).running := by
  by_cases hj : j = i
  · rw [hj, hs.after, hs.before]
  · rw [hs.others j hj]

/-- A VM that runs is in another slot. -/
theorem StoppedSlot.same (hs : StoppedSlot m m' i) {j : Fin maxNumVm}
    (hj : (m.vms j).running = true) : m'.vms j = m.vms j := by
  refine hs.others j ?_
  rintro rfl
  rw [hs.before] at hj
  cases hj

theorem StoppedSlot.agent (hs : StoppedSlot m m' i) (hl : Consistent m) (a : Fin maxNumVm) :
    (m'.agents.guestAgents a).initialized = true ↔
      ∃ j, (m'.vms j).running = true ∧ (m'.vms j).vmId = a.val := by
  rw [hs.agents]
  refine (hl.agent a).trans (exists_congr fun j => ?_)
  rw [hs.running]
  exact and_congr_right fun hj => by rw [hs.same hj]

theorem StoppedSlot.agentId (hs : StoppedSlot m m' i) (hl : Consistent m) (j : Fin maxNumVm)
    (hj : (m'.vms j).running = true) : ∃ a : Fin maxNumVm, (m'.vms j).vmId = a.val := by
  rw [hs.running] at hj
  rw [hs.same hj]
  exact hl.agentId j hj

theorem StoppedSlot.agentCount (hs : StoppedSlot m m' i) (hl : Consistent m) :
    m'.agents.count = (runningSlots m').card := by
  have hset : runningSlots m' = runningSlots m := by simp only [runningSlots, hs.running]
  rw [hset, hs.agents]
  exact hl.agentCount

theorem StoppedSlot.fds (hs : StoppedSlot m m' i) (hl : Consistent m) (j : Fin maxNumVm) :
    PerfFds (m'.vms j) := by
  by_cases hj : j = i
  · subst hj
    intro e
    have hidle := hl.fds j e
    rw [hs.before] at hidle
    rw [hs.after, hs.perfEventFds]
    exact hidle
  · rw [hs.others j hj]
    exact hl.fds j

theorem StoppedSlot.runningInitialized (hs : StoppedSlot m m' i) (hl : Consistent m)
    (j : Fin maxNumVm) (hj : (m'.vms j).running = true) : (m'.vms j).initialized = true := by
  rw [hs.running] at hj
  rw [hs.same hj]
  exact hl.running j hj

theorem Consistent.created (hl : Consistent m) {coreSet : Text} {n : ℤ}
    (hfree : (m.vms i).initialized = false) (hnew : vmMngrGetInstance m vmId = none)
    (hcores : vmMngrForEachCore (coreSet.take (coreSetLen - 1)) vmNumCoreUpdate
      { m.vms i with
        vmId := vmId
        numCores := 0
        memdevCounter := 0
        coreSet := coreSet.take (coreSetLen - 1) } =
      .ok { m.vms i with
        vmId := vmId
        numCores := n
        memdevCounter := 0
        coreSet := coreSet.take (coreSetLen - 1) }) :
    Consistent { m.setVm i (createdVm (m.vms i) vmId coreSet n) with count := m.count + 1 } := by
  set m₁ : Manager := { m.setVm i (createdVm (m.vms i) vmId coreSet n) with count := m.count + 1 }
  have hself : m₁.vms i = createdVm (m.vms i) vmId coreSet n := setVm_vms_self m i _
  have hother : ∀ j, j ≠ i → m₁.vms j = m.vms j := fun j => setVm_vms_other m _
  have hfresh : ∀ j, (m.vms j).initialized = true → (m.vms j).vmId ≠ vmId :=
    fun j => vmMngrGetInstance_eq_none hnew
  have hstill : (m.vms i).running = false := by
    by_contra hrun
    rw [hl.running i (by simpa using hrun)] at hfree
    cases hfree
  have hs : StoppedSlot m m₁ i := ⟨hother, hstill, by rw [hself]; exact hstill, by rw [hself]; rfl, rfl⟩
  refine {
    count := ?count
    ids := ?ids
    running := hs.runningInitialized hl
    cores := ?cores
    agent := hs.agent hl
    agentId := hs.agentId hl
    agentCount := hs.agentCount hl
    fds := hs.fds hl }
  case count =>
    have hcard : (initializedSlots m₁).card = (initializedSlots m).card + 1 :=
      card_filter_switch (fun j hj => by rw [hother j hj]) hfree (by rw [hself]; rfl)
    rw [hcard, show m₁.count = m.count + 1 from rfl, hl.count]
    push_cast
    rfl
  case ids =>
    intro a b ha hb hab
    by_cases hai : a = i <;> by_cases hbi : b = i
    · rw [hai, hbi]
    · subst hai
      rw [hself, hother b hbi] at hab
      rw [hother b hbi] at hb
      exact absurd hab.symm (hfresh b hb)
    · subst hbi
      rw [hself, hother a hai] at hab
      rw [hother a hai] at ha
      exact absurd hab (hfresh a ha)
    · rw [hother a hai] at ha hab
      rw [hother b hbi] at hb hab
      exact hl.ids a b ha hb hab
  case cores =>
    intro a ha
    by_cases hai : a = i
    · subst hai
      rw [hself]
      have hall : Enumerates _ _ := fun _ g c => vmMngrForEachCore_cores hcores g c
      rw [hall] at hcores
      have hnum := foldlM_numCores hcores
      exact ⟨_, hall, by simpa [createdVm] using hnum⟩
    · rw [hother a hai] at ha ⊢
      exact hl.cores a ha

theorem Consistent.destroyed (hl : Consistent m) (hget : vmMngrGetInstance m vmId = some i)
    (hstopped : (m.vms i).running = false) (pool' : Pool) :
    Consistent { m.setVm i { m.vms i with coreSet := [], initialized := false } with
      pool := pool'
      count := m.count - 1 } := by
  set m₁ : Manager := { m.setVm i { m.vms i with coreSet := [], initialized := false } with
    pool := pool'
    count := m.count - 1 }
  have hinit := (vmMngrGetInstance_eq_some hget).1
  have hself : m₁.vms i = { m.vms i with coreSet := [], initialized := false } :=
    setVm_vms_self m i _
  have hother : ∀ j, j ≠ i → m₁.vms j = m.vms j := fun j => setVm_vms_other m _
  have hlive : ∀ j, (m₁.vms j).initialized = true → j ≠ i := by
    rintro j hj rfl
    rw [hself] at hj
    cases hj
  have hs : StoppedSlot m m₁ i := ⟨hother, hstopped, by rw [hself]; exact hstopped, by rw [hself], rfl⟩
  refine {
    count := ?count
    ids := ?ids
    running := hs.runningInitialized hl
    cores := ?cores
    agent := hs.agent hl
    agentId := hs.agentId hl
    agentCount := hs.agentCount hl
    fds := hs.fds hl }
  case count =>
    have hcard : (initializedSlots m).card = (initializedSlots m₁).card + 1 :=
      card_filter_switch (fun j hj => by rw [hother j hj]) (by rw [hself]) hinit
    rw [show m₁.count = m.count - 1 from rfl, hl.count, hcard]
    push_cast
    ring
  case ids =>
    intro a b ha hb hab
    have hai := hlive a ha
    have hbi := hlive b hb
    rw [hother a hai] at ha hab
    rw [hother b hbi] at hb hab
    exact hl.ids a b ha hb hab
  case cores =>
    intro a ha
    have hai := hlive a ha
    rw [hother a hai] at ha ⊢
    exact hl.cores a ha

/-! ### Start and stop -/

/-- The agents a successful connection leaves. -/
theorem agentOn_initialized {agents : GuestAgentManager} {a b : Fin maxNumVm} {agent : GuestAgent}
    {count : ℤ} :
    (({ agents.setAgent a agent with count := count } : GuestAgentManager).guestAgents b).initialized
      = if b = a then agent.initialized else (agents.guestAgents b).initialized := by
  rw [show ({ agents.setAgent a agent with count := count } : GuestAgentManager).guestAgents b =
    _ from setAgent_guestAgents agents a b agent]
  split_ifs <;> rfl

/-- Where a VM starts to run, its agent is the one that is new. -/
theorem Consistent.agent_started (hl : Consistent m) (hs : SameVms m m') {a : Fin maxNumVm}
    (ha : (m.vms i).vmId = a.val)
    (hrun : ∀ j, (m'.vms j).running = true ↔ j = i ∨ (m.vms j).running = true)
    (hagent : ∀ b, (m'.agents.guestAgents b).initialized =
      if b = a then true else (m.agents.guestAgents b).initialized) (b : Fin maxNumVm) :
    (m'.agents.guestAgents b).initialized = true ↔
      ∃ j, (m'.vms j).running = true ∧ (m'.vms j).vmId = b.val := by
  rw [hagent]
  by_cases hba : b = a
  · subst hba
    rw [if_pos rfl]
    simp only [true_iff]
    exact ⟨i, (hrun i).mpr (.inl rfl), by rw [hs.vmId, ha]⟩
  · rw [if_neg hba, hl.agent b]
    constructor
    · rintro ⟨j, hj, hjb⟩
      exact ⟨j, (hrun j).mpr (.inr hj), by rw [hs.vmId, hjb]⟩
    · rintro ⟨j, hj, hjb⟩
      rw [hs.vmId] at hjb
      rcases (hrun j).mp hj with rfl | hj
      · rw [ha] at hjb
        exact absurd (Fin.ext (by omega)) hba
      · exact ⟨j, hj, hjb⟩

/-- Where a VM stops to run, its agent is the one that goes. -/
theorem Consistent.agent_stopped (hl : Consistent m) (hs : SameVms m m') {a : Fin maxNumVm}
    (hinit : (m.vms i).initialized = true) (ha : (m.vms i).vmId = a.val)
    (hrun : ∀ j, (m'.vms j).running = true ↔ j ≠ i ∧ (m.vms j).running = true)
    (hagent : ∀ b, (m'.agents.guestAgents b).initialized =
      if b = a then false else (m.agents.guestAgents b).initialized) (b : Fin maxNumVm) :
    (m'.agents.guestAgents b).initialized = true ↔
      ∃ j, (m'.vms j).running = true ∧ (m'.vms j).vmId = b.val := by
  rw [hagent]
  by_cases hba : b = a
  · subst hba
    rw [if_pos rfl]
    simp only [Bool.false_eq_true, false_iff]
    rintro ⟨j, hj, hjb⟩
    obtain ⟨hji, hj⟩ := (hrun j).mp hj
    rw [hs.vmId] at hjb
    exact hji (hl.ids j i (hl.running j hj) hinit (hjb.trans ha.symm))
  · rw [if_neg hba, hl.agent b]
    constructor
    · rintro ⟨j, hj, hjb⟩
      have hji : j ≠ i := by
        rintro rfl
        rw [ha] at hjb
        exact hba (Fin.ext (by omega))
      exact ⟨j, (hrun j).mpr ⟨hji, hj⟩, by rw [hs.vmId, hjb]⟩
    · rintro ⟨j, hj, hjb⟩
      rw [hs.vmId] at hjb
      exact ⟨j, ((hrun j).mp hj).2, hjb⟩

theorem Consistent.started (hl : Consistent m) {a : Fin maxNumVm} {agent : GuestAgent}
    (hget : vmMngrGetInstance m vmId = some i) (hstopped : (m.vms i).running = false)
    (hsame : SameVm (m.vms i) vm) (hfds : ∀ j, (vm.perfEventFds j).Filled vm.numCores.toNat)
    (ha : vmId = a.val) (hagent : agent.initialized = true) :
    Consistent { m.setVm i { vm with running := true } with
      agents := { m.agents.setAgent a agent with count := m.agents.count + 1 } } := by
  set m₁ : Manager := { m.setVm i { vm with running := true } with
    agents := { m.agents.setAgent a agent with count := m.agents.count + 1 } }
  obtain ⟨hinit, hid⟩ := vmMngrGetInstance_eq_some hget
  have hself : m₁.vms i = { vm with running := true } := setVm_vms_self m i _
  have hother : ∀ j, j ≠ i → m₁.vms j = m.vms j := fun j => setVm_vms_other m _
  have hs : SameVms m m₁ := sameVms_setVm hsame.vmId hsame.initialized hsame.numCores hsame.coreSet
  have hrun : ∀ j, (m₁.vms j).running = true ↔ j = i ∨ (m.vms j).running = true := fun j => by
    by_cases hj : j = i
    · rw [hj, hself]
      simp
    · rw [hother j hj]
      simp [hj]
  refine {
    count := hs.slots hl
    ids := hs.ids hl
    running := ?running
    cores := hs.cores hl
    agent := ?agent
    agentId := ?agentId
    agentCount := ?agentCount
    fds := ?fds }
  case running =>
    intro b hb
    rw [hs.initialized]
    rcases (hrun b).mp hb with rfl | hb
    · exact hinit
    · exact hl.running b hb
  case agent =>
    refine hl.agent_started hs (hid.trans ha) hrun fun b => ?_
    rw [show (m₁.agents.guestAgents b).initialized = _ from agentOn_initialized, hagent]
  case agentId =>
    intro b hb
    rw [hs.vmId]
    rcases (hrun b).mp hb with rfl | hb
    · exact ⟨a, hid.trans ha⟩
    · exact hl.agentId b hb
  case agentCount =>
    have hcard : (runningSlots m₁).card = (runningSlots m).card + 1 :=
      card_filter_switch (fun j hj => by rw [hother j hj]) hstopped (by rw [hself])
    rw [hcard, show m₁.agents.count = m.agents.count + 1 from rfl, hl.agentCount]
    push_cast
    rfl
  case fds =>
    intro b j
    by_cases hbi : b = i
    · subst hbi
      rw [hself, if_pos rfl]
      exact hfds j
    · rw [hother b hbi]
      exact hl.fds b j

theorem Consistent.stopped (hl : Consistent m) {a : Fin maxNumVm} {agent : GuestAgent}
    (hget : vmMngrGetInstance m vmId = some i) (hrunning : (m.vms i).running = true)
    (hsame : SameVm { m.vms i with running := false } vm) (hfds : ∀ j, vm.perfEventFds j = .freed)
    (ha : vmId = a.val) (hagent : agent.initialized = false) :
    Consistent { m.setVm i vm with
      agents := { m.agents.setAgent a agent with count := m.agents.count - 1 } } := by
  set m₁ : Manager := { m.setVm i vm with
    agents := { m.agents.setAgent a agent with count := m.agents.count - 1 } }
  obtain ⟨hinit, hid⟩ := vmMngrGetInstance_eq_some hget
  have hself : m₁.vms i = vm := setVm_vms_self m i _
  have hother : ∀ j, j ≠ i → m₁.vms j = m.vms j := fun j => setVm_vms_other m _
  have hs : SameVms m m₁ := sameVms_setVm hsame.vmId hsame.initialized hsame.numCores hsame.coreSet
  have hrun : ∀ j, (m₁.vms j).running = true ↔ j ≠ i ∧ (m.vms j).running = true := fun j => by
    by_cases hj : j = i
    · rw [hj, hself, hsame.running]
      simp
    · rw [hother j hj]
      simp [hj]
  refine {
    count := hs.slots hl
    ids := hs.ids hl
    running := ?running
    cores := hs.cores hl
    agent := ?agent
    agentId := ?agentId
    agentCount := ?agentCount
    fds := ?fds }
  case running =>
    intro b hb
    rw [hs.initialized]
    exact hl.running b ((hrun b).mp hb).2
  case agent =>
    refine hl.agent_stopped hs hinit (hid.trans ha) hrun fun b => ?_
    rw [show (m₁.agents.guestAgents b).initialized = _ from agentOn_initialized, hagent]
  case agentId =>
    intro b hb
    rw [hs.vmId]
    exact hl.agentId b ((hrun b).mp hb).2
  case agentCount =>
    have hcard : (runningSlots m).card = (runningSlots m₁).card + 1 :=
      card_filter_switch (fun j hj => by rw [hother j hj]) (by rw [hself, hsame.running]) hrunning
    rw [show m₁.agents.count = m.agents.count - 1 from rfl, hl.agentCount, hcard]
    push_cast
    ring
  case fds =>
    intro b j
    by_cases hbi : b = i
    · subst hbi
      rw [hself, hsame.running, if_neg (by simp)]
      exact .inr (hfds j)
    · rw [hother b hbi]
      exact hl.fds b j

/-- The set-up of a slot that is initialized but not running. -/
theorem Consistent.setup (hl : Consistent m) (kernel : PerfKernel)
    (hinit : (m.vms i).initialized = true) :
    vmPerfCounterSetup kernel (m.vms i) ≠ .error .perfEventFds ∧
      ∀ vm, vmPerfCounterSetup kernel (m.vms i) = .ok vm → SameVm (m.vms i) vm ∧
        ∀ j, (vm.perfEventFds j).Filled vm.numCores.toNat := by
  obtain ⟨cores, hall, hnum⟩ := hl.cores i hinit
  obtain ⟨hsafe, hfill⟩ := vmPerfCounterSetup_filled kernel hall hnum
  refine ⟨hsafe, fun vm h => ?_⟩
  have hsame := vmPerfCounterSetup_same h
  refine ⟨hsame, fun j => ?_⟩
  rw [hsame.numCores]
  exact hfill vm h j

theorem idle_of_freed (hstopped : vm.running = false) (h : ∀ j, vm.perfEventFds j = .freed) :
    PerfFds vm := by
  intro j
  rw [hstopped]
  exact .inr (h j)

theorem start_consistent (hl : Consistent m) {env : StartEnv} {ret : ℤ}
    (h : vmMngrInstanceStart env m vmId = .ok (ret, m')) : Consistent m' := by
  rcases vmMngrInstanceStart_ok h with
    ⟨_, rfl⟩ | ⟨_, rfl⟩ | ⟨i, vm, agents, hget, hstopped, hsetup, hagent, hend⟩
  · exact hl
  · exact hl
  obtain ⟨hinit, hid⟩ := vmMngrGetInstance_eq_some hget
  obtain ⟨hsame, hfds⟩ := (hl.setup _ hinit).2 vm hsetup
  obtain ⟨a, ha, hcases⟩ := guestAgentInit_ok hagent
  have hoff : (m.agents.guestAgents a).initialized = false := by
    by_contra hon
    obtain ⟨j, hj, hja⟩ := (hl.agent a).mp (by simpa using hon)
    have hji := hl.ids j i (hl.running j hj) hinit (hja.trans (ha.symm.trans hid.symm))
    rw [hji, hstopped] at hj
    cases hj
  rcases hcases with ⟨_, _, hon⟩ | ⟨hret, hcount, hflags⟩ | ⟨hret, _, agent, hon, rfl⟩
  · rw [hoff] at hon
    cases hon
  · obtain ⟨_, vm', htear, rfl⟩ : ret < 0 ∧ ∃ vm', vmPerfCounterTeardown env.kernel vm = .ok vm' ∧
        m' = { m.setVm i vm' with agents := agents } := by
      rcases hend with hend | ⟨hpos, _⟩
      · exact hend
      · omega
    obtain ⟨vm₁, hvm₁, hfreed⟩ := @vmPerfCounterTeardown_filled vm env.kernel hfds
    rw [hvm₁] at htear
    cases htear
    have ht := hsame.trans (vmPerfCounterTeardown_same hvm₁)
    refine hl.lifeSame (lifeSame_setVm m.pool
      ⟨ht.vmId, ht.initialized, ht.running, ht.numCores, ht.coreSet⟩ (fun _ => ?_) hcount hflags)
    exact idle_of_freed (ht.running.trans hstopped) hfreed
  · obtain ⟨_, rfl⟩ : ¬ ret < 0 ∧ m' = { m.setVm i { vm with running := true } with
        agents := { m.agents.setAgent a agent with count := m.agents.count + 1 } } := by
      rcases hend with ⟨hneg, _⟩ | hend
      · omega
      · exact hend
    exact hl.started hget hstopped hsame hfds ha hon

theorem stop_consistent (hl : Consistent m) {kernel : PerfKernel} {ret : ℤ}
    (h : vmMngrInstanceStop kernel m vmId = .ok (ret, m')) : Consistent m' := by
  rcases vmMngrInstanceStop_ok h with
    ⟨_, rfl⟩ | ⟨_, rfl⟩ | ⟨_, i, vm, agents, hget, hrunning, hclean, htear, rfl⟩
  · exact hl
  · exact hl
  obtain ⟨hinit, hid⟩ := vmMngrGetInstance_eq_some hget
  have hfilled : ∀ j, ((m.vms i).perfEventFds j).Filled (m.vms i).numCores.toNat := fun j => by
    have := hl.fds i j
    rwa [if_pos hrunning] at this
  obtain ⟨vm₁, hvm₁, hfreed⟩ := @vmPerfCounterTeardown_filled { m.vms i with running := false }
    kernel hfilled
  rw [hvm₁] at htear
  cases htear
  obtain ⟨a, ha, hcases⟩ := guestAgentCleanup_ok hclean
  rcases hcases with ⟨hoff, _⟩ | ⟨_, agent, hagent, rfl⟩
  · rw [(hl.agent a).mpr ⟨i, hrunning, hid.trans ha⟩] at hoff
    cases hoff
  · exact hl.stopped hget hrunning (vmPerfCounterTeardown_same hvm₁) hfreed ha hagent

/-! ### Runs -/

theorem step_consistent (ho : Owns m) (hl : Consistent m) {op : Op} (h : step m op = .ok m') :
    Consistent m' := by
  cases op with
  | create vmId coreSet =>
    obtain ⟨⟨ret, _⟩, hres, rfl⟩ := map_eq_ok.mp h
    rcases vmMngrInstanceCreate_ok hres with ⟨_, rfl⟩ | ⟨_, _, hnew, i, n, hfree, hcores, rfl⟩
    · exact hl
    · exact hl.created hfree hnew hcores
  | destroy vmId =>
    obtain ⟨⟨ret, _⟩, hres, rfl⟩ := map_eq_ok.mp h
    rcases vmMngrInstanceDestroy_ok hres with ⟨_, rfl⟩ | ⟨_, i, hget, hstopped, rfl⟩
    · exact hl
    · exact hl.destroyed hget hstopped _
  | start vmId env =>
    obtain ⟨⟨ret, _⟩, hres, rfl⟩ := map_eq_ok.mp h
    exact start_consistent hl hres
  | stop vmId kernel =>
    obtain ⟨⟨ret, _⟩, hres, rfl⟩ := map_eq_ok.mp h
    exact stop_consistent hl hres
  | allocMem nodeId vmId sizeMb =>
    obtain ⟨⟨ret, _⟩, hres, rfl⟩ := map_eq_ok.mp h
    rcases vmMngrInstanceAllocMem_ok ho.geometry.segmentSize hres with
      ⟨_, rfl⟩ | ⟨i, req, pool, k, lo, n, _, _, _, _, rfl⟩
    · exact hl
    · exact hl.lifeSame (lifeSame_setVm pool ⟨rfl, rfl, rfl, rfl, rfl⟩ id rfl fun _ => rfl)
  | freeMem vmId memdevIdx =>
    obtain ⟨⟨ret, _⟩, hres, rfl⟩ := map_eq_ok.mp h
    rcases ho.freeMem_ok hres with ⟨_, rfl⟩ | ⟨_, i, dev, k, lo, n, _, _, _, _, rfl⟩
    · exact hl
    · exact hl.lifeSame (lifeSame_setVm _ ⟨rfl, rfl, rfl, rfl, rfl⟩ id rfl fun _ => rfl)

theorem consistent_initial (pool : Pool) : Consistent (initialManager pool) := by
  have hno : ∀ i, ¬ ((initialManager pool).vms i).initialized = true := fun i h => by cases h
  have hstill : ∀ i, ¬ ((initialManager pool).vms i).running = true := fun i h => by cases h
  have hslots : initializedSlots (initialManager pool) = ∅ :=
    Finset.filter_eq_empty_iff.mpr fun i _ => hno i
  have hrunning : runningSlots (initialManager pool) = ∅ :=
    Finset.filter_eq_empty_iff.mpr fun i _ => hstill i
  have hagents : ∀ a, ((initialManager pool).agents.guestAgents a).initialized = true ↔
      ∃ i, ((initialManager pool).vms i).running = true ∧
        ((initialManager pool).vms i).vmId = a.val := by
    intro a
    constructor
    · intro h
      cases h
    · rintro ⟨i, hi, _⟩
      exact absurd hi (hstill i)
  exact ⟨by rw [hslots]; rfl, fun i _ hi => absurd hi (hno i), fun i hi => absurd hi (hstill i),
    fun i hi => absurd hi (hno i), hagents, fun i hi => absurd hi (hstill i),
    by rw [hrunning]; rfl, fun i j => .inl rfl⟩

theorem consistent_reachable (hp : InitialPool pool) (h : Reaches step (initialManager pool) m) :
    Owns m ∧ Consistent m :=
  h.invariant (I := fun m => Owns m ∧ Consistent m)
    (fun _ _ _ hi hs => ⟨owns_step hi.1 hs, step_consistent hi.1 hi.2 hs⟩)
    ⟨owns_initial hp, consistent_initial pool⟩

/-! ### The checks that cannot fail -/

theorem Consistent.create_findsSlot (hl : Consistent m) (vmId : ℤ) (coreSet : Text) :
    vmMngrInstanceCreate m vmId coreSet ≠ .error (.bugOn .freeSlotUninitialized) := by
  intro h
  unfold vmMngrInstanceCreate at h
  split at h
  · cases h
  split at h
  · cases h
  rename_i hcount _
  simp only [bind_eq_error] at h
  rcases h with h | ⟨_, _, h | ⟨_, _, h⟩⟩
  · have hfull := (bugOn_eq_error h).2
    rw [hl.freeEntry (by omega)] at hfull
    cases hfull
  · refine vmMngrForEachCore_fault (Q := fun e => e ≠ .bugOn .freeSlotUninitialized)
      (by simp) (by simp) ?_ h rfl
    intro vm core e hcore
    rcases bind_eq_error.mp hcore with hcore | ⟨_, _, hcore⟩
    · rw [cInt_eq_error hcore]
      simp
    · cases hcore
  · cases h

theorem Consistent.start_closesOnce (hl : Consistent m) (env : StartEnv) (vmId : ℤ) :
    vmMngrInstanceStart env m vmId ≠ .error .perfEventFds := by
  intro h
  unfold vmMngrInstanceStart at h
  split at h
  · cases h
  split at h
  · cases h
  rename_i i hget _
  obtain ⟨hsafe, hok⟩ := hl.setup env.kernel (vmMngrGetInstance_eq_some hget).1
  simp only [bind_eq_error] at h
  rcases h with h | ⟨_, _, h | ⟨vm, hsetup, h | ⟨⟨ret, agents⟩, _, h⟩⟩⟩
  · cases (bugOn_eq_error h).1
  · exact hsafe h
  · obtain hindex | ⟨_, _, h⟩ := bind_eq_error.mp h
    · cases agentIndex_eq_error hindex
    · dsimp only at h
      split_ifs at h
  · dsimp only at h
    split at h
    · obtain ⟨vm', htear, _⟩ := @vmPerfCounterTeardown_filled vm env.kernel (hok vm hsetup).2
      rw [htear] at h
      cases h
    · cases h

theorem Consistent.stop_closesOnce (hl : Consistent m) (kernel : PerfKernel) (vmId : ℤ) :
    vmMngrInstanceStop kernel m vmId ≠ .error .perfEventFds := by
  intro h
  unfold vmMngrInstanceStop at h
  split at h
  · cases h
  split at h
  · cases h
  rename_i i hget hrunning
  have hfilled : ∀ j, ((m.vms i).perfEventFds j).Filled (m.vms i).numCores.toNat := fun j => by
    have := hl.fds i j
    rwa [if_pos (by simpa using hrunning)] at this
  simp only [bind_eq_error] at h
  rcases h with h | ⟨agents, _, h | ⟨vm, _, h⟩⟩
  · obtain hindex | ⟨_, _, h⟩ := bind_eq_error.mp h
    · cases agentIndex_eq_error hindex
    · dsimp only at h
      split_ifs at h
  · obtain ⟨vm', htear, _⟩ := @vmPerfCounterTeardown_filled { m.vms i with running := false }
      kernel hfilled
    rw [htear] at h
    cases h
  · cases h

/-- Flags, counters and descriptors of slots and agents agree, and no check on them can fail. -/
structure ExactLifecycle (m : Manager) : Prop where
  count : m.count = (initializedSlots m).card
  count_le : m.count ≤ maxNumVm
  ids : UniqueIds m
  running : ∀ i, (m.vms i).running = true → (m.vms i).initialized = true
  agent : ∀ a : Fin maxNumVm, (m.agents.guestAgents a).initialized = true ↔
    ∃ i, (m.vms i).running = true ∧ (m.vms i).vmId = a.val
  agentCount : m.agents.count = (runningSlots m).card
  openFds : ∀ i, (m.vms i).running = true →
    ∃ n : ℕ, (m.vms i).numCores = n ∧ ∀ j, ((m.vms i).perfEventFds j).Filled n
  noFds : ∀ i, (m.vms i).running = false → ∀ j, ((m.vms i).perfEventFds j).Idle
  createFindsSlot : ∀ vmId coreSet,
    vmMngrInstanceCreate m vmId coreSet ≠ .error (.bugOn .freeSlotUninitialized)
  startClosesOnce : ∀ env vmId, vmMngrInstanceStart env m vmId ≠ .error .perfEventFds
  stopClosesOnce : ∀ kernel vmId, vmMngrInstanceStop kernel m vmId ≠ .error .perfEventFds

theorem Consistent.openFds (hl : Consistent m) (hrunning : (m.vms i).running = true) :
    ∃ n : ℕ, (m.vms i).numCores = n ∧ ∀ j, ((m.vms i).perfEventFds j).Filled n := by
  obtain ⟨cores, _, hnum⟩ := hl.cores i (hl.running i hrunning)
  refine ⟨cores.length, hnum, fun j => ?_⟩
  have hfilled := hl.fds i j
  rwa [if_pos hrunning, hnum, Int.toNat_natCast] at hfilled

/-- A kernel that hands out descriptor 7 and counts nothing. -/
def quietKernel : PerfKernel := ⟨fun _ _ => 7, fun _ => 0⟩

end Ramryder.Lifecycle
