import Ramryder.CoreCount
import Ramryder.CoreLoop
import Ramryder.GuestMonitor
import Ramryder.MemdevIndex

/-! What `create-vm` lets through for the later users of a core set: the perf counters of
`start-vm`, and the per-core arrays of the guest monitor. -/
namespace Ramryder.CoreSafety
open CInt CMachine CText CoreCount CoreLoop CoreSet GuestAgents GuestMonitor Lifecycle MemdevIndex
  Ownership PerfCounter PoolConfig ResourceManager ResourceManagerSpec Runs VmManager VmManagerSpec

variable {m m' : Manager} {pool : MemoryPool.Pool} {args t : Text} {v : ℤ} {i : Fin maxNumVm}

/-- The id and the core set a `create-vm` request asks the manager for. -/
def createArgs (args : Text) : Option (ℤ × Text) :=
  match sscanf "vid=%d coreset=%[^\n]" args with
  | [.int vid, .text coresetStr] =>
    if vid < 0 then none else (bracketed coresetStr).map fun start => (vid, start)
  | _ => none

/-- The core set whose cores are counted: that of a request which is not refused before. -/
def countedCoreSet (m : Manager) (args : Text) : Option Text :=
  match createArgs args with
  | some (vid, start) =>
    if maxNumVm ≤ m.count ∨ vmMngrCheckExit m vid = true then none
    else some (start.take (coreSetLen - 1))
  | none => none

def createSuccess (vid : ℤ) (start : Text) : Text :=
  snprintf bufferSize "Create VM %d success, coreset: [%s]" [.int vid, .text start]

/-- The VM has cores, and every walk over its core set visits cores that the arrays have. -/
structure CoresReady (vm : VmInstance) : Prop where
  numCores : 1 ≤ vm.numCores
  visited : ∃ cores, Enumerates vm.coreSet cores ∧
    ∀ core ∈ cores, 0 ≤ core ∧ core < (maxCores : ℤ)

/-- The kernel opens the events of every core there can be. -/
def OpensCores (kernel : PerfKernel) : Prop :=
  ∀ n s, 0 ≤ s.core → s.core < (maxCores : ℤ) → 0 ≤ kernel.setup n s

/-- What is reached while the VM `v` is not destroyed. -/
def ReachesSparing (v : ℤ) (m m' : Manager) : Prop :=
  ∃ ops, Guarded step (Spares v) m ops ∧ run step m ops = .ok m'

/-- No check fails while the request is handled, and a VM it creates is ready: neither its later
starts nor the monitor's turns over it go wrong. -/
structure SafeCreate (m : Manager) (args : Text) : Prop where
  noBugOn : ∀ check, rpcHandleCreateVm m args ≠ .error (.bugOn check)
  created : ∀ vid start m', createArgs args = some (vid, start) →
    rpcHandleCreateVm m args = .ok (createSuccess vid start, m') →
    ∃ i, vmMngrGetInstance m' vid = some i ∧ CoresReady (m'.vms i)
  startLater : ∀ vid start m' m'', createArgs args = some (vid, start) →
    rpcHandleCreateVm m args = .ok (createSuccess vid start, m') → ReachesSparing vid m' m'' →
    ∀ env check, OpensCores env.kernel → vmMngrInstanceStart env m'' vid ≠ .error (.bugOn check)
  monitorLater : ∀ vid start m' m'', createArgs args = some (vid, start) →
    rpcHandleCreateVm m args = .ok (createSuccess vid start, m') → ReachesSparing vid m' m'' →
    ∃ i, vmMngrGetInstance m'' vid = some i ∧ ∀ config metrics bw,
      getVmMemBw config metrics (m''.vms i).coreSet bw ≠ .error .bufferOverread

/-- A core set that is not empty; and where its cores can be counted at all, it names some, each of
which the arrays have. -/
def UsableCores (t : Text) : Prop :=
  t ≠ [] ∧ (Countable t →
    namedCores t ≠ [] ∧ ∀ core ∈ namedCores t, 0 ≤ core ∧ core < (maxCores : ℤ))

/-! ### What a run keeps of a VM's cores -/

/-- Equal in what the walks over the cores depend on. -/
structure SameCores (vm vm' : VmInstance) : Prop where
  vmId : vm'.vmId = vm.vmId
  initialized : vm'.initialized = vm.initialized
  coreSet : vm'.coreSet = vm.coreSet
  numCores : vm'.numCores = vm.numCores

theorem SameCores.refl (vm : VmInstance) : SameCores vm vm := ⟨rfl, rfl, rfl, rfl⟩

theorem SameCores.trans {a b c : VmInstance} (h : SameCores a b) (g : SameCores b c) :
    SameCores a c :=
  ⟨g.vmId.trans h.vmId, g.initialized.trans h.initialized, g.coreSet.trans h.coreSet,
    g.numCores.trans h.numCores⟩

theorem sameCores_ofSameVm {a b : VmInstance} (h : SameVm a b) : SameCores a b :=
  ⟨h.vmId, h.initialized, h.coreSet, h.numCores⟩

theorem sameCores_setVm {j : Fin maxNumVm} {vm : VmInstance} (h : SameCores (m.vms j) vm)
    (i : Fin maxNumVm) : SameCores (m.vms i) ((m.setVm j vm).vms i) := by
  rw [setVm_vms]
  split_ifs with hij
  · subst hij
    exact h
  · exact .refl _

/-- Replacing the slot of another VM. -/
theorem sameCores_other {j : Fin maxNumVm} {vm : VmInstance} (hij : i ≠ j) :
    SameCores (m.vms i) ((m.setVm j vm).vms i) := by
  rw [setVm_vms, if_neg hij]
  exact .refl _

/-- A call keeps the cores of every VM it does not destroy. -/
theorem step_sameCores (ho : Owns m) {op : Op} (hget : vmMngrGetInstance m v = some i)
    (hspares : Spares v m op) (h : step m op = .ok m') : SameCores (m.vms i) (m'.vms i) := by
  obtain ⟨hinit, hid⟩ := vmMngrGetInstance_eq_some hget
  cases op with
  | create vmId coreSet =>
    obtain ⟨⟨ret, _⟩, hres, rfl⟩ := map_eq_ok.mp h
    rcases vmMngrInstanceCreate_ok hres with ⟨_, rfl⟩ | ⟨_, _, _, j, n, hfree, _, rfl⟩
    · exact .refl _
    · have hij : i ≠ j := by
        rintro rfl
        rw [hinit] at hfree
        cases hfree
      exact sameCores_other hij
  | destroy vmId =>
    obtain ⟨⟨ret, _⟩, hres, rfl⟩ := map_eq_ok.mp h
    rcases vmMngrInstanceDestroy_ok hres with ⟨_, rfl⟩ | ⟨rfl, j, hgetj, _, rfl⟩
    · exact .refl _
    · have hij : i ≠ j := by
        rintro rfl
        exact hspares ((vmMngrGetInstance_eq_some hgetj).2.symm.trans hid) _ hres
      exact sameCores_other hij
  | start vmId env =>
    obtain ⟨⟨ret, _⟩, hres, rfl⟩ := map_eq_ok.mp h
    rcases vmMngrInstanceStart_ok hres with
      ⟨_, rfl⟩ | ⟨_, rfl⟩ | ⟨j, vm, agents, _, _, hsetup, _, ⟨_, vm', htear, rfl⟩ | ⟨_, rfl⟩⟩
    · exact .refl _
    · exact .refl _
    · exact sameCores_setVm (sameCores_ofSameVm
        ((vmPerfCounterSetup_same hsetup).trans (vmPerfCounterTeardown_same htear))) i
    · have hsame := vmPerfCounterSetup_same hsetup
      have hslot : SameCores (m.vms j) { vm with running := true } :=
        ⟨hsame.vmId, hsame.initialized, hsame.coreSet, hsame.numCores⟩
      exact sameCores_setVm hslot i
  | stop vmId kernel =>
    obtain ⟨⟨ret, _⟩, hres, rfl⟩ := map_eq_ok.mp h
    rcases vmMngrInstanceStop_ok hres with
      ⟨_, rfl⟩ | ⟨_, rfl⟩ | ⟨_, j, vm, agents, _, _, _, htear, rfl⟩
    · exact .refl _
    · exact .refl _
    · have hsame := vmPerfCounterTeardown_same htear
      exact sameCores_setVm ⟨hsame.vmId, hsame.initialized, hsame.coreSet, hsame.numCores⟩ i
  | allocMem nodeId vmId sizeMb =>
    obtain ⟨⟨ret, _⟩, hres, rfl⟩ := map_eq_ok.mp h
    rcases vmMngrInstanceAllocMem_ok ho.geometry.segmentSize hres with
      ⟨_, rfl⟩ | ⟨j, req, pool, k, lo, n, _, _, _, _, rfl⟩
    · exact .refl _
    · have hslot : SameCores (m.vms j) (attachedVm (m.vms j) req) := ⟨rfl, rfl, rfl, rfl⟩
      exact sameCores_setVm hslot i
  | freeMem vmId memdevIdx =>
    obtain ⟨⟨ret, _⟩, hres, rfl⟩ := map_eq_ok.mp h
    rcases ho.freeMem_ok hres with ⟨_, rfl⟩ | ⟨_, j, dev, k, lo, n, _, _, _, _, rfl⟩
    · exact .refl _
    · have hslot : SameCores (m.vms j) (detachedVm (m.vms j) memdevIdx) := ⟨rfl, rfl, rfl, rfl⟩
      exact sameCores_setVm hslot i

/-- The VM `v` in slot `i` of a state that can be reached. -/
structure Holds (v : ℤ) (i : Fin maxNumVm) (vm : VmInstance) (m : Manager) : Prop where
  owns : Owns m
  consistent : Consistent m
  get : vmMngrGetInstance m v = some i
  same : SameCores vm (m.vms i)

theorem Holds.step {vm : VmInstance} (hh : Holds v i vm m) {op : Op} (hspares : Spares v m op)
    (h : step m op = .ok m') : Holds v i vm m' := by
  have hsame := step_sameCores hh.owns hh.get hspares h
  obtain ⟨hinit, hid⟩ := vmMngrGetInstance_eq_some hh.get
  have hcons := step_consistent hh.owns hh.consistent h
  exact ⟨owns_step hh.owns h, hcons, hcons.ids.getInstance (hsame.initialized.trans hinit)
    (hsame.vmId.trans hid), hh.same.trans hsame⟩

theorem holds_run (ho : Owns m) (hl : Consistent m) (hget : vmMngrGetInstance m v = some i)
    (h : ReachesSparing v m m') : Holds v i (m.vms i) m' := by
  obtain ⟨ops, hguard, hrun⟩ := h
  exact run_invariant_guarded (I := Holds v i (m.vms i))
    (fun _ _ _ hh hspares hstep => hh.step hspares hstep) ⟨ho, hl, hget, .refl _⟩ hguard hrun

theorem CoresReady.same {vm vm' : VmInstance} (h : CoresReady vm) (hs : SameCores vm vm') :
    CoresReady vm' := by
  obtain ⟨hnum, cores, hcores, hrange⟩ := h
  exact ⟨by rw [hs.numCores]; exact hnum, cores, by rw [hs.coreSet]; exact hcores, hrange⟩

/-! ### Start-up of the perf counters -/

theorem setupEvents_noBugOn {kernel : PerfKernel} {coreId : ℤ} {check : Check}
    (hopens : ∀ n s, s.core = coreId → 0 ≤ kernel.setup n s) {js : List PerfEventType}
    {leaderFd : ℤ} {vm : VmInstance} :
    setupEvents kernel coreId js leaderFd vm ≠ .error (.bugOn check) := by
  induction js generalizing leaderFd vm with
  | nil => nofun
  | cons j js ih =>
    intro h
    simp only [setupEvents, bind_eq_error] at h
    rcases h with h | ⟨array, _, h | ⟨_, _, h⟩⟩
    · unfold FdArray.store at h
      split at h
      · split_ifs at h
        cases h
      · cases h
    · have hneg := (bugOn_eq_error h).2
      have hfd := hopens vm.coreIndex ⟨coreId, perfEventConfigArr j, perfEventConfig1Arr j,
        perfEventPinArr j, if perfEventIsLeaderArr j = true then -1 else leaderFd⟩ rfl
      simp only [decide_eq_true_eq] at hneg
      omega
    · exact ih h

theorem setupCore_noBugOn {kernel : PerfKernel} (hopens : OpensCores kernel) {coreId : ℤ}
    (hcore : 0 ≤ coreId ∧ coreId < (maxCores : ℤ)) {vm : VmInstance} {check : Check} :
    vmPerfCounterSetupCore kernel vm coreId ≠ .error (.bugOn check) := by
  intro h
  rcases bind_eq_error.mp h with h | ⟨_, _, h⟩
  · have hneg := (bugOn_eq_error h).2
    simp only [decide_eq_true_eq] at hneg
    omega
  · rcases bind_eq_error.mp h with h | ⟨_, _, h⟩
    · refine setupEvents_noBugOn ?_ h
      rintro n s rfl
      exact hopens n s hcore.1 hcore.2
    · cases h

theorem setup_noBugOn {kernel : PerfKernel} (hopens : OpensCores kernel) {vm : VmInstance}
    (h : CoresReady vm) {check : Check} :
    vmPerfCounterSetup kernel vm ≠ .error (.bugOn check) := by
  obtain ⟨hnum, cores, hcores, hrange⟩ := h
  have hwalk : ∀ cores : List ℤ, (∀ core ∈ cores, 0 ≤ core ∧ core < (maxCores : ℤ)) →
      ∀ vm, cores.foldlM (vmPerfCounterSetupCore kernel) vm ≠ .error (.bugOn check) := by
    intro cores
    induction cores with
    | nil => nofun
    | cons core cores ih =>
      intro hrange vm h
      rw [List.foldlM_cons] at h
      rcases bind_eq_error.mp h with h | ⟨vm₁, _, h⟩
      · exact setupCore_noBugOn hopens (hrange core List.mem_cons_self) h
      · exact ih (fun c hc => hrange c (List.mem_cons_of_mem core hc)) vm₁ h
  intro herror
  rcases bind_eq_error.mp herror with herror | ⟨_, _, herror⟩
  · have hnone := (bugOn_eq_error herror).2
    simp only [decide_eq_true_eq] at hnone
    omega
  · rw [hcores] at herror
    exact hwalk cores hrange _ herror

theorem start_noBugOn (hl : Consistent m) {env : StartEnv} (hopens : OpensCores env.kernel)
    (hready : ∀ i, vmMngrGetInstance m v = some i → CoresReady (m.vms i)) {check : Check} :
    vmMngrInstanceStart env m v ≠ .error (.bugOn check) := by
  intro h
  unfold vmMngrInstanceStart at h
  split at h
  · cases h
  split at h
  · cases h
  rename_i i hget _
  have hinit := (vmMngrGetInstance_eq_some hget).1
  simp only [bind_eq_error] at h
  rcases h with h | ⟨_, _, h | ⟨vm, hsetup, h | ⟨⟨ret, agents⟩, _, h⟩⟩⟩
  · have huninit := (bugOn_eq_error h).2
    rw [hinit] at huninit
    cases huninit
  · exact setup_noBugOn hopens (hready i hget) h
  · obtain hindex | ⟨_, _, h⟩ := bind_eq_error.mp h
    · cases agentIndex_eq_error hindex
    · dsimp only at h
      split_ifs at h
  · dsimp only at h
    split at h
    · obtain ⟨vm', htear, _⟩ :=
        @vmPerfCounterTeardown_filled vm env.kernel ((hl.setup env.kernel hinit).2 vm hsetup).2
      rw [htear] at h
      cases h
    · cases h

/-! ### The monitor's walk -/

theorem getVmMemBw_inArrays {vm : VmInstance} (h : CoresReady vm) (config : MonitorConfig)
    (metrics : CoreMetrics) (bw : VmBandwidth) :
    getVmMemBw config metrics vm.coreSet bw ≠ .error .bufferOverread := by
  obtain ⟨_, cores, hcores, hrange⟩ := h
  have hwalk : ∀ cores : List ℤ, (∀ core ∈ cores, 0 ≤ core ∧ core < (maxCores : ℤ)) →
      ∀ bw, ∃ bw', cores.foldlM (accumulateBwPerCore metrics) bw = .ok bw' := by
    intro cores
    induction cores with
    | nil => exact fun _ bw => ⟨bw, rfl⟩
    | cons core cores ih =>
      intro hrange bw
      obtain ⟨c, hc⟩ := coreIndex_of_range (hrange core List.mem_cons_self)
      rw [List.foldlM_cons, accumulateBwPerCore, hc, ok_bind, ok_bind]
      exact ih (fun c hc => hrange c (List.mem_cons_of_mem core hc)) _
  obtain ⟨bw', hbw'⟩ := hwalk cores hrange { bw with memBwLocal := 0, memBwRemote := 0 }
  intro herror
  rw [getVmMemBw, hcores, hbw', ok_bind] at herror
  split_ifs at herror
  cases herror

/-! ### The request -/

variable {vid : ℤ} {start : Text}

def createFailed (vid : ℤ) (start : Text) : Text :=
  snprintf bufferSize "Create VM %d failed, coreset: [%s]" [.int vid, .text start]

theorem rpcHandleCreateVm_args (h : createArgs args = some (vid, start)) :
    InInt vid ∧ rpcHandleCreateVm m args = vmMngrInstanceCreate m vid start >>= fun r =>
      if r.1 = 0 then .ok (createSuccess vid start, r.2) else .ok (createFailed vid start, r.2) := by
  unfold createArgs at h
  split at h
  · rename_i w coresetStr hscan
    split_ifs at h with hneg
    obtain ⟨start', hstart, heq⟩ := Option.map_eq_some_iff.mp h
    cases heq
    refine ⟨?_, ?_⟩
    · obtain ⟨items, hitems⟩ : ∃ items, directives none "vid=%d coreset=%[^\n]".toList =
          lits "vid=" ++ .int 0 :: items := ⟨_, rfl⟩
      have hfirst : ∀ (cs t : Text) {ds : List Directive} {n : ℤ} {rest : List Item},
          scan (cs.map .lit ++ .int 0 :: ds) t = .int n :: rest → InInt n := by
        intro cs
        induction cs with
        | nil =>
          intro t ds n rest h
          rw [List.map_nil, List.nil_append, scan] at h
          split at h
          · cases h
          · rename_i hint
            cases h
            exact scanInt_inInt hint
        | cons c cs ih =>
          intro t ds n rest h
          rw [List.map_cons, List.cons_append, scan] at h
          split at h
          · cases h
          · exact ih _ h
      rw [sscanf, hitems] at hscan
      exact hfirst _ _ hscan
    · rw [rpcHandleCreateVm, hscan]
      dsimp only
      rw [if_neg hneg, hstart]
      rfl
  · cases h

/-- A request without an id and a core set creates nothing. -/
theorem rpcHandleCreateVm_noArgs (h : createArgs args = none) :
    ∃ response, rpcHandleCreateVm m args = .ok (response, m) := by
  unfold createArgs at h
  split at h
  · rename_i vid coresetStr hscan
    rw [rpcHandleCreateVm, hscan]
    dsimp only
    by_cases hneg : vid < 0
    · exact ⟨_, if_pos hneg⟩
    · rw [if_neg hneg] at h ⊢
      rw [Option.map_eq_none_iff.mp h]
      exact ⟨_, rfl⟩
  · rename_i hother
    unfold rpcHandleCreateVm
    split
    · rename_i hscan
      exact absurd hscan (hother _ _)
    · exact ⟨_, rfl⟩

/-- The two answers to a request that asks for a VM are told apart behind its id. -/
theorem createSuccess_ne_failed (hvid : InInt vid) (start : Text) :
    createSuccess vid start ≠ createFailed vid start := by
  have hsuccess : sprintf "Create VM %d success, coreset: [%s]" [.int vid, .text start] =
      ("Create VM ".toList ++ decimal vid ++ [' ']) ++ 's' :: ("uccess, coreset: [".toList ++
        (start ++ [']'])) := by
    have hformat : directives none "Create VM %d success, coreset: [%s]".toList =
        lits "Create VM " ++ .int 0 :: (lits " success, coreset: [" ++ .str 0 :: lits "]") := by rfl
    rw [sprintf, hformat, render_lits, render_int, render_lits, render_str, render_end, padLeft_zero,
      padLeft_zero, List.append_assoc, List.append_assoc]
    rfl
  have hfailed : sprintf "Create VM %d failed, coreset: [%s]" [.int vid, .text start] =
      ("Create VM ".toList ++ decimal vid ++ [' ']) ++ 'f' :: ("ailed, coreset: [".toList ++
        (start ++ [']'])) := by
    have hformat : directives none "Create VM %d failed, coreset: [%s]".toList =
        lits "Create VM " ++ .int 0 :: (lits " failed, coreset: [" ++ .str 0 :: lits "]") := by rfl
    rw [sprintf, hformat, render_lits, render_int, render_lits, render_str, render_end, padLeft_zero,
      padLeft_zero, List.append_assoc, List.append_assoc]
    rfl
  have hlen := decimal_length hvid
  obtain ⟨k, hk⟩ : ∃ k, bufferSize - 1 - ("Create VM ".toList ++ decimal vid ++ [' ']).length =
      k + 1 := by
    have hfirst : "Create VM ".toList.length = 10 := rfl
    refine ⟨bufferSize - 1 - ("Create VM ".toList ++ decimal vid ++ [' ']).length - 1, ?_⟩
    rw [List.length_append, List.length_append, hfirst, List.length_singleton, bufferSize]
    omega
  intro h
  rw [createSuccess, createFailed, snprintf, snprintf, hsuccess, hfailed] at h
  generalize "Create VM ".toList ++ decimal vid ++ [' '] = shared at h hk
  rw [List.take_append, List.take_append, hk, List.take_succ_cons, List.take_succ_cons] at h
  have hchar := (List.cons.inj (List.append_cancel_left h)).1
  exact absurd hchar (by decide)

/-! ### When a request is safe -/

theorem countedCoreSet_eq (h : countedCoreSet m args = some t) :
    ∃ vid start, createArgs args = some (vid, start) ∧ t = start.take (coreSetLen - 1) ∧
      m.count < maxNumVm ∧ vmMngrCheckExit m vid = false := by
  unfold countedCoreSet at h
  split at h
  · rename_i vid start hargs
    split_ifs at h with hrefused
    rw [not_or] at hrefused
    exact ⟨vid, start, hargs, (Option.some.inj h).symm, by omega, by simpa using hrefused.2⟩
  · cases h

/-- A request that is not refused counts the cores of its core set in a free slot. -/
theorem create_counted (hl : Consistent m) (hcount : m.count < maxNumVm)
    (hnew : vmMngrCheckExit m vid = false) :
    ∃ vm : VmInstance, vm.numCores = 0 ∧
      (vmMngrInstanceCreate m vid start).map Prod.fst =
        (vmMngrForEachCore (start.take (coreSetLen - 1)) vmNumCoreUpdate vm).map fun _ => 0 := by
  refine ⟨{ m.vms (VmManager.freeEntry m) with
      vmId := vid
      numCores := 0
      memdevCounter := 0
      coreSet := start.take (coreSetLen - 1) }, rfl, ?_⟩
  have hfree : bugOn .freeSlotUninitialized (m.vms (VmManager.freeEntry m)).initialized = .ok () := by
    rw [hl.freeEntry hcount]
    rfl
  rw [vmMngrInstanceCreate, if_neg (by omega), if_neg (by simp [hnew])]
  dsimp only
  rw [hfree, ok_bind]
  cases vmMngrForEachCore (start.take (coreSetLen - 1)) vmNumCoreUpdate _ with
  | error e => rfl
  | ok vm => rfl

/-- Only a counter that leaves the `int` range stops the count of a text that is not empty. -/
theorem counting_fault {vm : VmInstance} {e : Fault} (hne : t ≠ [])
    (h : vmMngrForEachCore t vmNumCoreUpdate vm = .error e) : e = .intOverflow := by
  rcases bind_eq_error.mp h with h | ⟨_, _, h⟩
  · have hempty := (bugOn_eq_error h).2
    simp only [decide_eq_true_eq] at hempty
    exact absurd hempty hne
  · refine forEachToken_fault (Q := fun e => e = .intOverflow) rfl ?_ h
    intro vm core e he
    rcases bind_eq_error.mp he with he | ⟨_, _, he⟩
    · exact cInt_eq_error he
    · cases he

theorem rpcHandleCreateVm_success (hargs : createArgs args = some (vid, start))
    (h : rpcHandleCreateVm m args = .ok (createSuccess vid start, m')) :
    vmMngrInstanceCreate m vid start = .ok (0, m') := by
  obtain ⟨hvid, heq⟩ := @rpcHandleCreateVm_args m args vid start hargs
  rw [heq] at h
  obtain ⟨⟨ret, m₁⟩, hcreate, h⟩ := bind_eq_ok.mp h
  dsimp only at h
  split_ifs at h with hret
  · cases h
    rw [hcreate, hret]
  · exact absurd (congrArg Prod.fst (Except.ok.inj h)).symm (createSuccess_ne_failed hvid start)

/-- The VM of a successful request, with the cores that its text names. -/
theorem create_slot (ho : Owns m) (hl : Consistent m)
    (hcreate : vmMngrInstanceCreate m vid start = .ok (0, m')) :
    Owns m' ∧ Consistent m' ∧ Countable (start.take (coreSetLen - 1)) ∧
      ∃ i, vmMngrGetInstance m' vid = some i ∧
        Enumerates (m'.vms i).coreSet (namedCores (start.take (coreSetLen - 1))) ∧
        (m'.vms i).numCores = (namedCores (start.take (coreSetLen - 1))).length := by
  have hstep : step m (.create vid start) = .ok m' := by
    rw [step, hcreate]
    rfl
  have hcons := step_consistent ho hl hstep
  obtain ⟨i, hget, _, hvisits, hnum⟩ := created_cores hcons.ids hcreate
  refine ⟨owns_step ho hstep, hcons, ?_, i, hget, hvisits, ?_⟩
  · rcases vmMngrInstanceCreate_ok hcreate with ⟨hneg, _⟩ | ⟨_, _, _, j, n, _, hcores, _⟩
    · exact absurd hneg (by decide)
    · exact countable_of_ok rfl hcores
  · rw [hnum, CoreCount.namedCores_length]

theorem SafeCreate.usable (hl : Consistent m) (ho : Owns m) (hsafe : SafeCreate m args)
    (ht : countedCoreSet m args = some t) : UsableCores t := by
  obtain ⟨vid, start, hargs, rfl, hcount, hnew⟩ := countedCoreSet_eq ht
  obtain ⟨vm, hvm, hcounted⟩ := @create_counted m vid start hl hcount hnew
  have heq := (@rpcHandleCreateVm_args m args vid start hargs).2
  have hne : start.take (coreSetLen - 1) ≠ [] := by
    intro hempty
    rw [hempty] at hcounted
    have hfault : vmMngrInstanceCreate m vid start = .error (.bugOn .coreSetNonEmpty) :=
      map_eq_error.mp (hcounted.trans (by rfl))
    rw [hfault, error_bind] at heq
    exact hsafe.noBugOn _ heq
  refine ⟨hne, fun hcountable => ?_⟩
  have hcores : (vmMngrForEachCore (start.take (coreSetLen - 1)) vmNumCoreUpdate vm).map
      VmInstance.numCores = .ok (coreTotal (start.take (coreSetLen - 1)) : ℤ) :=
    hcountable.numCores hne vm hvm
  obtain ⟨vm', hvm', _⟩ := map_eq_ok.mp hcores
  rw [hvm'] at hcounted
  obtain ⟨⟨ret, m'⟩, hcreate, hret⟩ := map_eq_ok.mp hcounted
  dsimp only at hret
  subst hret
  rw [hcreate, ok_bind, if_pos rfl] at heq
  obtain ⟨i, hget, hnum, cores, hcores, hrange⟩ := hsafe.created vid start m' hargs heq
  obtain ⟨_, _, _, j, hget', hvisits, hlen⟩ := create_slot ho hl hcreate
  obtain rfl := Option.some.inj (hget.symm.trans hget')
  obtain rfl := Enumerates.unique hcores hvisits
  refine ⟨?_, hrange⟩
  intro hnone
  rw [hlen, hnone] at hnum
  exact absurd hnum (by decide)

/-- With a usable core set no check fails. -/
theorem create_noBugOn (hl : Consistent m)
    (husable : ∀ t, countedCoreSet m args = some t → UsableCores t) {check : Check} :
    rpcHandleCreateVm m args ≠ .error (.bugOn check) := by
  intro h
  cases hargs : createArgs args with
  | none =>
    obtain ⟨response, hok⟩ := @rpcHandleCreateVm_noArgs m args hargs
    rw [hok] at h
    cases h
  | some asked =>
    obtain ⟨vid, start⟩ := asked
    rw [(@rpcHandleCreateVm_args m args vid start hargs).2] at h
    rcases bind_eq_error.mp h with h | ⟨⟨ret, m₁⟩, _, h⟩
    · have hcreate := h
      unfold vmMngrInstanceCreate at h
      split at h
      · cases h
      split at h
      · cases h
      rename_i hcount hnew
      have hcounted : countedCoreSet m args = some (start.take (coreSetLen - 1)) := by
        rw [countedCoreSet, hargs]
        dsimp only
        rw [if_neg (not_or.mpr ⟨hcount, hnew⟩)]
      obtain ⟨vm, _, hmap⟩ := @create_counted m vid start hl (by omega) (by simpa using hnew)
      rw [hcreate] at hmap
      have hfault := counting_fault (husable _ hcounted).1 (map_eq_error.mp hmap.symm)
      cases hfault
    · dsimp only at h
      split_ifs at h

/-- A VM created with a usable core set is ready. -/
theorem created_ready (ho : Owns m) (hl : Consistent m)
    (husable : ∀ t, countedCoreSet m args = some t → UsableCores t)
    (hargs : createArgs args = some (vid, start))
    (h : rpcHandleCreateVm m args = .ok (createSuccess vid start, m')) :
    Owns m' ∧ Consistent m' ∧
      ∃ i, vmMngrGetInstance m' vid = some i ∧ CoresReady (m'.vms i) := by
  have hcreate := rpcHandleCreateVm_success hargs h
  obtain ⟨ho', hl', hcountable, i, hget, hvisits, hnum⟩ := create_slot ho hl hcreate
  have hcounted : countedCoreSet m args = some (start.take (coreSetLen - 1)) := by
    rcases vmMngrInstanceCreate_ok hcreate with ⟨hneg, _⟩ | ⟨_, hcount, hnone, _⟩
    · exact absurd hneg (by decide)
    · rw [countedCoreSet, hargs]
      dsimp only
      rw [if_neg (by simp [vmMngrCheckExit, hnone, hcount])]
  obtain ⟨hsome, hrange⟩ := (husable _ hcounted).2 hcountable
  refine ⟨ho', hl', i, hget, ?_, _, hvisits, hrange⟩
  rw [hnum]
  exact_mod_cast List.length_pos_of_ne_nil hsome

/-- A VM that is ready stays so until it is destroyed. -/
theorem ready_later (ho : Owns m) (hl : Consistent m) (hget : vmMngrGetInstance m v = some i)
    (hready : CoresReady (m.vms i)) (hrun : ReachesSparing v m m') :
    Consistent m' ∧ vmMngrGetInstance m' v = some i ∧ CoresReady (m'.vms i) := by
  have hheld := holds_run ho hl hget hrun
  exact ⟨hheld.consistent, hheld.get, hready.same hheld.same⟩

/-- A request is safe just when it is refused before its cores are counted, or its core set is
usable. -/
theorem safeCreate_iff (hp : InitialPool pool) (hreach : Reaches step (initialManager pool) m)
    (args : Text) :
    SafeCreate m args ↔ ∀ t, countedCoreSet m args = some t → UsableCores t := by
  obtain ⟨ho, hl⟩ := consistent_reachable hp hreach
  constructor
  · exact fun hsafe t ht => hsafe.usable hl ho ht
  · intro husable
    refine ⟨fun check => create_noBugOn hl husable, ?_, ?_, ?_⟩
    · intro vid start m' hargs h
      exact (created_ready ho hl husable hargs h).2.2
    · intro vid start m' m'' hargs h hrun env check hopens
      obtain ⟨ho', hl', i, hget, hready⟩ := created_ready ho hl husable hargs h
      obtain ⟨hl'', hget'', hready''⟩ := ready_later ho' hl' hget hready hrun
      refine start_noBugOn hl'' hopens ?_
      intro j hj
      obtain rfl := Option.some.inj (hget''.symm.trans hj)
      exact hready''
    · intro vid start m' m'' hargs h hrun
      obtain ⟨ho', hl', i, hget, hready⟩ := created_ready ho hl husable hargs h
      obtain ⟨_, hget'', hready''⟩ := ready_later ho' hl' hget hready hrun
      exact ⟨i, hget'', getVmMemBw_inArrays hready''⟩

theorem safeCreate_iff_smallPool :
    SafeCreate (initialManager smallPool) "vid=3 coreset=[0-1,4]".toList ↔
      ∀ t, countedCoreSet (initialManager smallPool) "vid=3 coreset=[0-1,4]".toList = some t →
        UsableCores t :=
  safeCreate_iff smallPool_initial (.refl _) _

/-- An empty core set fails the check of `vm_mngr_for_each_core`. -/
theorem safeCreate_fails_empty : ¬ SafeCreate (initialManager smallPool) "vid=3 coreset=[]".toList := by
  intro h
  have hfault : rpcHandleCreateVm (initialManager smallPool) "vid=3 coreset=[]".toList =
      .error (.bugOn .coreSetNonEmpty) := by rfl
  exact h.noBugOn _ hfault

end Ramryder.CoreSafety
