import Ramryder.MonitorLoop
import Ramryder.RequestOrder
import Ramryder.Simulation

/-! Requests that ask no guest agent are answered as if the monitor did not run: its turns change the perf
counts of the VMs, their bandwidth and their metrics, and no request reads these. -/
namespace Ramryder.MonitorTransparency
open AgentIndex ByteBuffer CInt CMachine CText CoreSet GuestAgents GuestMonitor Lifecycle MemoryPool MonitorLoop
  Ownership PerfCounter PoolConfig RequestHistory ResourceManager ResourceManagerSpec Runs Shutdown Simulation
  VmManager VmManagerSpec

variable {β γ : Type}

/-- What the client of a request gets. -/
def serverResponse (s : Server) (turn : ServerEnv × Text) : Option Text :=
  (rpcServe turn.1 s turn.2).toOption.map Prod.fst

def processResponse {F : Type} (p : Process F) (turn : Turn) : Option Text :=
  turn.served.bind (serverResponse p.server)

/-! ### Managers that differ in their counts -/

/-- The slot with other counts. -/
def withCounts (vm : VmInstance) (cum delta : PerfEventType → ℕ) : VmInstance :=
  { vm with cumPerfEventCounts := cum, deltaPerfEventCounts := delta }

def SameSlot (vm vm' : VmInstance) : Prop := ∃ cum delta, vm' = withCounts vm cum delta

/-- The managers differ at most in the perf counts of their VMs. -/
structure SameButCounts (m m' : Manager) : Prop where
  count : m'.count = m.count
  pool : m'.pool = m.pool
  agents : m'.agents = m.agents
  slots : ∀ i, SameSlot (m.vms i) (m'.vms i)

theorem SameSlot.refl (vm : VmInstance) : SameSlot vm vm := ⟨_, _, rfl⟩

theorem SameSlot.symm {a b : VmInstance} (h : SameSlot a b) : SameSlot b a := by
  obtain ⟨cum, delta, rfl⟩ := h
  exact ⟨a.cumPerfEventCounts, a.deltaPerfEventCounts, rfl⟩

theorem SameSlot.trans {a b c : VmInstance} (h : SameSlot a b) (h' : SameSlot b c) : SameSlot a c := by
  obtain ⟨cum, delta, rfl⟩ := h
  obtain ⟨cum, delta, rfl⟩ := h'
  exact ⟨cum, delta, rfl⟩

namespace SameButCounts

variable {m m' m'' : Manager} {i : Fin maxNumVm} {vm vm' : VmInstance}

theorem refl (m : Manager) : SameButCounts m m := ⟨rfl, rfl, rfl, fun _ => .refl _⟩

theorem symm (h : SameButCounts m m') : SameButCounts m' m :=
  ⟨h.count.symm, h.pool.symm, h.agents.symm, fun i => (h.slots i).symm⟩

theorem trans (h : SameButCounts m m') (h' : SameButCounts m' m'') : SameButCounts m m'' :=
  ⟨h'.count.trans h.count, h'.pool.trans h.pool, h'.agents.trans h.agents,
    fun i => (h.slots i).trans (h'.slots i)⟩

theorem getInstance (h : SameButCounts m m') (vmId : ℤ) :
    vmMngrGetInstance m' vmId = vmMngrGetInstance m vmId := by
  refine RequestOrder.getInstance_congr (fun i => ?_) (fun i => ?_) vmId
  · obtain ⟨cum, delta, hi⟩ := h.slots i
    rw [hi]
    rfl
  · obtain ⟨cum, delta, hi⟩ := h.slots i
    rw [hi]
    rfl

theorem setVm (h : SameButCounts m m') (i : Fin maxNumVm) (hvm : SameSlot vm vm') :
    SameButCounts (m.setVm i vm) (m'.setVm i vm') := by
  refine ⟨h.count, h.pool, h.agents, fun j => ?_⟩
  rw [setVm_vms, setVm_vms]
  split_ifs
  · exact hvm
  · exact h.slots j

theorem withPool (h : SameButCounts m m') (pool : Pool) :
    SameButCounts { m with pool := pool } { m' with pool := pool } :=
  ⟨h.count, rfl, h.agents, h.slots⟩

theorem withAgents (h : SameButCounts m m') (agents : GuestAgentManager) :
    SameButCounts { m with agents := agents } { m' with agents := agents } :=
  ⟨h.count, h.pool, rfl, h.slots⟩

theorem withCount (h : SameButCounts m m') (count : ℤ) :
    SameButCounts { m with count := count } { m' with count := count } :=
  ⟨rfl, h.pool, h.agents, h.slots⟩

end SameButCounts

/-- Both calls answer alike and leave managers that differ in counts only, or stop with one fault. -/
def Alike (x y : Outcome (β × Manager)) : Prop :=
  Both Eq (fun p q => p.1 = q.1 ∧ SameButCounts p.2 q.2) x y

section Calls

variable {m m' : Manager} {kernel : PerfKernel} {vm vm' : VmInstance}

theorem alike_ok (r : β) (h : SameButCounts m m') : Alike (.ok (r, m)) (.ok (r, m')) := Both.ok ⟨rfl, h⟩

/-- The counts are reset. -/
theorem vmPerfCounterSetup_same (h : SameSlot vm vm') :
    vmPerfCounterSetup kernel vm' = vmPerfCounterSetup kernel vm := by
  obtain ⟨cum, delta, rfl⟩ := h
  rfl

theorem teardownEvents_same {js : List PerfEventType} (h : SameSlot vm vm') :
    Both Eq SameSlot (teardownEvents kernel js vm) (teardownEvents kernel js vm') := by
  induction js generalizing vm vm' with
  | nil => exact .ok h
  | cons j js ih =>
    obtain ⟨cum, delta, rfl⟩ := h
    refine Both.bind_same (fun _ => rfl) fun r _ => ?_
    refine Both.bind_same (fun _ => rfl) fun array _ => ?_
    exact ih ⟨_, _, rfl⟩

theorem vmNumCoreUpdate_same (h : SameSlot vm vm') (coreSet : Text) :
    Both Eq SameSlot (vmMngrForEachCore coreSet vmNumCoreUpdate vm)
      (vmMngrForEachCore coreSet vmNumCoreUpdate vm') := by
  obtain ⟨cum, delta, rfl⟩ := h
  rw [vmMngrForEachCore_map (f := (withCounts · cum delta)) (fun vm core => ?_) coreSet vm]
  · cases vmMngrForEachCore coreSet vmNumCoreUpdate vm with
    | ok vm => exact .ok ⟨cum, delta, rfl⟩
    | error e => exact .error rfl
  · simp only [vmNumCoreUpdate, withCounts]
    cases cInt (vm.numCores + 1) <;> rfl

theorem freeEntry_same (h : SameButCounts m m') : freeEntry m' = freeEntry m := by
  unfold freeEntry
  refine congrArg (Option.getD · _) (congrArg (List.find? · _) (funext fun i => ?_))
  obtain ⟨cum, delta, hi⟩ := h.slots i
  rw [hi]
  rfl

theorem vmMngrInstanceCreate_alike (h : SameButCounts m m') (vmId : ℤ) (coreSet : Text) :
    Alike (vmMngrInstanceCreate m vmId coreSet) (vmMngrInstanceCreate m' vmId coreSet) := by
  have hexit : vmMngrCheckExit m' vmId = vmMngrCheckExit m vmId := by
    rw [vmMngrCheckExit, vmMngrCheckExit, h.getInstance]
  obtain ⟨cum, delta, hi⟩ := h.slots (freeEntry m)
  unfold vmMngrInstanceCreate
  rw [freeEntry_same h, hexit, h.count]
  dsimp only
  rw [hi]
  by_cases hfull : (maxNumVm : ℤ) ≤ m.count
  · rw [if_pos hfull, if_pos hfull]
    exact alike_ok _ h
  by_cases hex : vmMngrCheckExit m vmId = true
  · rw [if_neg hfull, if_neg hfull, if_pos hex, if_pos hex]
    exact alike_ok _ h
  rw [if_neg hfull, if_neg hfull, if_neg hex, if_neg hex]
  refine Both.bind_same (fun _ => rfl) fun _ _ => ?_
  refine Both.bind (vmNumCoreUpdate_same ⟨cum, delta, rfl⟩ _) fun vm vm' hvm => ?_
  obtain ⟨cum, delta, rfl⟩ := hvm
  exact alike_ok 0 ((h.setVm _ ⟨cum, delta, rfl⟩).withCount _)

theorem vmMngrInstanceDestroy_alike (h : SameButCounts m m') (vmId : ℤ) :
    Alike (vmMngrInstanceDestroy m vmId) (vmMngrInstanceDestroy m' vmId) := by
  unfold vmMngrInstanceDestroy
  rw [h.getInstance]
  cases vmMngrGetInstance m vmId with
  | none => exact alike_ok _ h
  | some i =>
    obtain ⟨cum, delta, hi⟩ := h.slots i
    dsimp only
    rw [hi, h.pool, h.count]
    by_cases hrun : (m.vms i).running = true
    · rw [if_pos hrun, if_pos (by exact hrun)]
      exact alike_ok _ h
    · rw [if_neg hrun, if_neg (by exact hrun)]
      refine Both.bind_same (fun _ => rfl) fun pool _ => ?_
      exact alike_ok 0 (((h.setVm i ⟨cum, delta, rfl⟩).withPool pool).withCount _)

theorem vmMngrInstanceStart_alike (h : SameButCounts m m') (env : StartEnv) (vmId : ℤ) :
    Alike (vmMngrInstanceStart env m vmId) (vmMngrInstanceStart env m' vmId) := by
  unfold vmMngrInstanceStart
  rw [h.getInstance]
  cases vmMngrGetInstance m vmId with
  | none => exact alike_ok _ h
  | some i =>
    obtain ⟨cum, delta, hi⟩ := h.slots i
    dsimp only
    rw [h.agents, vmPerfCounterSetup_same ⟨cum, delta, hi⟩, hi]
    by_cases hrun : (m.vms i).running = true
    · rw [if_pos hrun, if_pos (by exact hrun)]
      exact alike_ok _ h
    · rw [if_neg hrun, if_neg (by exact hrun)]
      refine Both.bind_same (fun _ => rfl) fun _ _ => ?_
      refine Both.bind_same (fun _ => rfl) fun vm _ => ?_
      refine Both.bind_same (fun _ => rfl) fun r _ => ?_
      obtain ⟨ret, agents⟩ := r
      dsimp only
      by_cases hret : ret < 0
      · rw [if_pos hret, if_pos hret]
        refine Both.bind_same (fun _ => rfl) fun vm _ => ?_
        exact alike_ok _ ((h.setVm i (.refl vm)).withAgents agents)
      · rw [if_neg hret, if_neg hret]
        exact alike_ok _ ((h.setVm i (.refl _)).withAgents agents)

theorem vmMngrInstanceStop_alike (h : SameButCounts m m') (kernel : PerfKernel) (vmId : ℤ) :
    Alike (vmMngrInstanceStop kernel m vmId) (vmMngrInstanceStop kernel m' vmId) := by
  unfold vmMngrInstanceStop
  rw [h.getInstance]
  cases vmMngrGetInstance m vmId with
  | none => exact alike_ok _ h
  | some i =>
    obtain ⟨cum, delta, hi⟩ := h.slots i
    dsimp only
    rw [hi, h.agents]
    by_cases hrun : (!(m.vms i).running) = true
    · rw [if_pos hrun, if_pos (by exact hrun)]
      exact alike_ok _ h
    · rw [if_neg hrun, if_neg (by exact hrun)]
      refine Both.bind_same (fun _ => rfl) fun agents _ => ?_
      refine Both.bind (teardownEvents_same ⟨cum, delta, rfl⟩) fun vm vm' hvm => ?_
      exact alike_ok 0 ((h.setVm i hvm).withAgents agents)

theorem vmMngrGetNewMemdevIdx_alike (h : SameButCounts m m') (vmId : ℤ) :
    Alike (vmMngrGetNewMemdevIdx m vmId) (vmMngrGetNewMemdevIdx m' vmId) := by
  unfold vmMngrGetNewMemdevIdx
  rw [h.getInstance]
  cases vmMngrGetInstance m vmId with
  | none => exact alike_ok _ h
  | some i =>
    obtain ⟨cum, delta, hi⟩ := h.slots i
    dsimp only
    rw [hi]
    refine Both.bind_same (fun _ => rfl) fun counter _ => ?_
    exact alike_ok _ (h.setVm i ⟨cum, delta, rfl⟩)

theorem vmMngrInstanceAllocMem_alike (h : SameButCounts m m') (nodeId vmId sizeMb : ℤ) :
    Alike (vmMngrInstanceAllocMem m nodeId vmId sizeMb)
      (vmMngrInstanceAllocMem m' nodeId vmId sizeMb) := by
  unfold vmMngrInstanceAllocMem
  rw [h.getInstance, h.pool]
  cases vmMngrGetInstance m vmId with
  | none => exact alike_ok _ h
  | some i =>
    refine Both.bind_same (fun _ => rfl) fun r _ => ?_
    obtain ⟨req, pool⟩ := r
    cases req with
    | none => exact alike_ok _ (h.withPool pool)
    | some req =>
      refine Both.bind (vmMngrGetNewMemdevIdx_alike (h.withPool pool) vmId) fun p q hpq => ?_
      obtain ⟨idx, m₁⟩ := p
      obtain ⟨idx', m₁'⟩ := q
      obtain ⟨hidx, h₁⟩ := hpq
      obtain rfl : idx = idx' := hidx
      obtain ⟨cum, delta, hi⟩ := h₁.slots i
      dsimp only at hi ⊢
      rw [hi]
      exact alike_ok _ (h₁.setVm i ⟨cum, delta, rfl⟩)

theorem vmMngrInstanceFreeMem_alike (h : SameButCounts m m') (vmId memdevIdx : ℤ) :
    Alike (vmMngrInstanceFreeMem m vmId memdevIdx) (vmMngrInstanceFreeMem m' vmId memdevIdx) := by
  unfold vmMngrInstanceFreeMem
  rw [h.getInstance, h.pool]
  cases vmMngrGetInstance m vmId with
  | none => exact alike_ok _ h
  | some i =>
    obtain ⟨cum, delta, hi⟩ := h.slots i
    have hfind : findMemoryDev (m'.vms i) memdevIdx = findMemoryDev (m.vms i) memdevIdx := by
      rw [hi]
      rfl
    dsimp only
    rw [hfind, hi]
    cases findMemoryDev (m.vms i) memdevIdx with
    | none => exact alike_ok _ h
    | some dev =>
      refine Both.bind_same (fun _ => rfl) fun r _ => ?_
      obtain ⟨ret, pool⟩ := r
      dsimp only
      by_cases hret : ret < 0
      · rw [if_pos hret, if_pos hret]
        exact alike_ok _ (h.withPool pool)
      · rw [if_neg hret, if_neg hret]
        exact alike_ok 0 ((h.setVm i ⟨cum, delta, rfl⟩).withPool pool)

theorem vmMngrInstanceGetMem_same (h : SameButCounts m m') (vmId memdevIdx : ℤ) :
    vmMngrInstanceGetMem m' vmId memdevIdx = vmMngrInstanceGetMem m vmId memdevIdx := by
  unfold vmMngrInstanceGetMem
  rw [h.getInstance]
  cases vmMngrGetInstance m vmId with
  | none => rfl
  | some i =>
    obtain ⟨cum, delta, hi⟩ := h.slots i
    change (findMemoryDev (m'.vms i) memdevIdx >>= _) = _
    rw [hi]
    rfl

theorem dumpVms_same (h : SameButCounts m m') (bufferSize : ℕ) (slots : List (Fin maxNumVm))
    (buffer : Text) (offset : ℕ) :
    dumpVms m' bufferSize slots buffer offset = dumpVms m bufferSize slots buffer offset := by
  induction slots generalizing buffer offset with
  | nil => rfl
  | cons i slots ih =>
    obtain ⟨cum, delta, hi⟩ := h.slots i
    simp only [dumpVms, hi, ih]
    rfl

theorem vmMngrDumpState_same (h : SameButCounts m m') (bufferSize : ℕ) :
    vmMngrDumpState m' bufferSize = vmMngrDumpState m bufferSize := by
  simp only [vmMngrDumpState, h.count, dumpVms_same h]

/-! ### Handlers -/

theorem Alike.bind {x y : Outcome (β × Manager)} {f g : β × Manager → Outcome (γ × Manager)}
    (h : Alike x y) (hf : ∀ r m m', SameButCounts m m' → Alike (f (r, m)) (g (r, m'))) :
    Alike (x >>= f) (y >>= g) := by
  refine Both.bind h fun p q hpq => ?_
  obtain ⟨r, m⟩ := p
  obtain ⟨r', m'⟩ := q
  obtain ⟨hr, hm⟩ := hpq
  obtain rfl : r = r' := hr
  exact hf r m m' hm

theorem rpcHandleAllocMem_alike (h : SameButCounts m m') (args : Text) :
    Alike (rpcHandleAllocMem m args) (rpcHandleAllocMem m' args) := by
  unfold rpcHandleAllocMem
  split
  · split_ifs with hbad
    · exact alike_ok _ h
    · refine (vmMngrInstanceAllocMem_alike h _ _ _).bind fun req m m' h => ?_
      cases req with
      | none => exact alike_ok _ h
      | some req => exact alike_ok _ h
  · exact alike_ok _ h

theorem rpcHandleFreeMem_alike (h : SameButCounts m m') (args : Text) :
    Alike (rpcHandleFreeMem m args) (rpcHandleFreeMem m' args) := by
  unfold rpcHandleFreeMem
  split
  · split_ifs with hbad
    · exact alike_ok _ h
    · refine (vmMngrInstanceFreeMem_alike h _ _).bind fun ret m m' h => ?_
      dsimp only
      split_ifs
      · exact alike_ok _ h
      · exact alike_ok _ h
  · exact alike_ok _ h

theorem rpcHandleCreateVm_alike (h : SameButCounts m m') (args : Text) :
    Alike (rpcHandleCreateVm m args) (rpcHandleCreateVm m' args) := by
  unfold rpcHandleCreateVm
  split
  · split_ifs with hbad
    · exact alike_ok _ h
    · split
      · exact alike_ok _ h
      · refine (vmMngrInstanceCreate_alike h _ _).bind fun ret m m' h => ?_
        dsimp only
        split_ifs
        · exact alike_ok _ h
        · exact alike_ok _ h
  · exact alike_ok _ h

theorem rpcHandleVm_alike {call call' : ℤ → Outcome (ℤ × Manager)} (h : SameButCounts m m')
    (hcall : ∀ vmId, Alike (call vmId) (call' vmId)) (success failed : String) (args : Text) :
    Alike (rpcHandleVm call success failed m args) (rpcHandleVm call' success failed m' args) := by
  unfold rpcHandleVm
  split
  · split_ifs with hbad
    · exact alike_ok _ h
    · refine (hcall _).bind fun ret m m' h => ?_
      dsimp only
      split_ifs
      · exact alike_ok _ h
      · exact alike_ok _ h
  · exact alike_ok _ h

theorem rpcHandleAttachMem_same (h : SameButCounts m m') (qmp : QemuAgent.Qmp) (args : Text) :
    rpcHandleAttachMem qmp m' args = rpcHandleAttachMem qmp m args := by
  simp only [rpcHandleAttachMem, vmMngrInstanceGetMem_same h]

theorem rpcHandleDetachMem_same (h : SameButCounts m m') (qmp : QemuAgent.Qmp) (args : Text) :
    rpcHandleDetachMem qmp m' args = rpcHandleDetachMem qmp m args := by
  simp only [rpcHandleDetachMem, vmMngrInstanceGetMem_same h]

theorem Alike.some {x y : Outcome (Text × Manager)} (h : Alike x y) :
    Alike (x.map fun r => (some r.1, r.2)) (y.map fun r => (some r.1, r.2)) :=
  h.map fun _ _ hr => ⟨congrArg Option.some hr.1, hr.2⟩

theorem alike_map (x : Outcome γ) (f : γ → β) (h : SameButCounts m m') :
    Alike (x.map fun r => (f r, m)) (x.map fun r => (f r, m')) := by
  cases x with
  | ok r => exact alike_ok _ h
  | error e => exact .error rfl

theorem rpcHandle_alike (h : SameButCounts m m') (env : ServerEnv) (args : Text) (command : Command) :
    Alike (rpcHandle env m args command) (rpcHandle env m' args command) := by
  cases command with
  | getMemInfo =>
    have hsame : rpcHandleGetMemInfo env m' args = rpcHandleGetMemInfo env m args := by
      simp only [rpcHandleGetMemInfo, h.agents]
    rw [rpcHandle, rpcHandle, hsame]
    exact alike_map _ id h
  | getMemPool =>
    rw [rpcHandle, rpcHandle, rpcHandleGetMemPool, rpcHandleGetMemPool, h.pool]
    exact alike_map _ Option.some h
  | getVms =>
    rw [rpcHandle, rpcHandle, rpcHandleGetVms, rpcHandleGetVms, vmMngrDumpState_same h]
    exact alike_map _ Option.some h
  | getNumNodes =>
    rw [rpcHandle, rpcHandle, rpcHandleGetNumNodes, rpcHandleGetNumNodes, h.pool]
    exact alike_ok _ h
  | getNodeInfo =>
    have hsame : rpcHandleGetNodeInfo m' args = rpcHandleGetNodeInfo m args := by
      simp only [rpcHandleGetNodeInfo, h.pool]
    rw [rpcHandle, rpcHandle, hsame]
    exact alike_ok _ h
  | allocMem => exact (rpcHandleAllocMem_alike h args).some
  | freeMem => exact (rpcHandleFreeMem_alike h args).some
  | attachMem =>
    rw [rpcHandle, rpcHandle, rpcHandleAttachMem_same h]
    exact alike_ok _ h
  | detachMem =>
    rw [rpcHandle, rpcHandle, rpcHandleDetachMem_same h]
    exact alike_ok _ h
  | createVm => exact (rpcHandleCreateVm_alike h args).some
  | destroyVm => exact (rpcHandleVm_alike h (vmMngrInstanceDestroy_alike h) _ _ args).some
  | startVm => exact (rpcHandleVm_alike h (vmMngrInstanceStart_alike h env.start) _ _ args).some
  | stopVm => exact (rpcHandleVm_alike h (vmMngrInstanceStop_alike h env.start.kernel) _ _ args).some

theorem respond_alike (h : SameButCounts m m') (env : ServerEnv) (cmd args : Text) :
    Alike (respond env m cmd args) (respond env m' cmd args) := by
  unfold respond
  cases commandOf cmd with
  | none => exact alike_ok _ h
  | some command =>
    exact (rpcHandle_alike h env args command).bind fun response m m' h => alike_ok _ h

/-- The servers differ at most in the perf counts of their VMs. -/
def SameServer (s s' : Server) : Prop := SameButCounts s.mngr s'.mngr ∧ s'.args = s.args

/-- A request is answered alike by servers that differ in counts only. -/
theorem rpcServe_alike {s s' : Server} (h : SameServer s s') (env : ServerEnv) (request : Text) :
    Both Eq (fun p q => p.1 = q.1 ∧ SameServer p.2 q.2) (rpcServe env s request)
      (rpcServe env s' request) := by
  obtain ⟨m, args⟩ := s
  obtain ⟨m', args'⟩ := s'
  obtain ⟨hm, hargs⟩ := h
  obtain rfl : args' = args := hargs
  unfold rpcServe
  dsimp only
  split_ifs with hlen
  · exact .error rfl
  · split
    · exact .ok ⟨rfl, hm, rfl⟩
    · refine Both.bind (respond_alike hm env _ _) fun p q hpq => ?_
      exact .ok ⟨hpq.1, hpq.2, rfl⟩

end Calls

/-! ### Requests that ask no guest -/

/-- A guest agent is asked for the request. -/
def asksAgent (s : Server) (request : Text) : Bool :=
  match servedCommand s request with
  | some (.getMemInfo, args) => asksGuest args
  | _ => false

theorem rpcServe_unasked {s : Server} {request : Text} (h : asksAgent s request = false) (env : ServerEnv)
    (guest : ℤ → Text) (heap : Buffer bufferSize) :
    rpcServe { env with guest := guest, heap := heap } s request = rpcServe env s request := by
  unfold rpcServe
  dsimp only
  rw [← received]
  split_ifs with hfull
  · rfl
  · have hfits : (received request).length < bufferSize := lt_of_le_of_ne (received_le request) hfull
    rcases hscan : scanRequest (received request) with ⟨_ | cmd, newArgs⟩
    · rfl
    · have hunasked : commandOf cmd = some .getMemInfo → asksGuest (newArgs.getD s.args) = false := by
        intro hget
        simpa [asksAgent, servedCommand, if_pos hfits, hscan, hget] using h
      dsimp only
      rw [respond_unasked hunasked env s.mngr guest heap]

/-! ### Runs -/

variable {F : Type} [Doubles F] {mon : Monitor} {m m' : Manager} {p p' : Process F} {s : Server} {pool : Pool}
  {args : Text} {bandwidth : Fin maxNumVm → VmBandwidth} {metrics : Fin maxNumVm → VmMetrics F}
  {guest : ServerEnv → ℤ → Text} {heap : ServerEnv → Buffer bufferSize} {turns : List Turn}

theorem updateEvents_same {kernel : PerfKernel} {js : List PerfEventType} {vm vm' : VmInstance}
    (h : updateEvents kernel js vm = .ok vm') : SameSlot vm vm' := by
  induction js generalizing vm with
  | nil =>
    cases h
    exact .refl _
  | cons j js ih =>
    obtain ⟨sum, _, h⟩ := bind_eq_ok.mp h
    exact SameSlot.trans ⟨_, _, rfl⟩ (ih h)

theorem updateVms_same {kernel : PerfKernel} {slots : List (Fin maxNumVm)}
    (h : updateVms kernel slots m = .ok m') : SameButCounts m m' := by
  induction slots generalizing m with
  | nil =>
    cases h
    exact .refl _
  | cons i slots ih =>
    rw [updateVms] at h
    split_ifs at h
    · obtain ⟨vm, hvm, h⟩ := bind_eq_ok.mp h
      have hset : SameButCounts m (m.setVm i vm) := by
        refine ⟨rfl, rfl, rfl, fun j => ?_⟩
        rw [setVm_vms]
        split_ifs with hj
        · rw [hj]
          exact updateEvents_same hvm
        · exact .refl _
      exact hset.trans (ih h)
    · exact ih h

theorem vmMngrUpdatePerfCounters_same {kernel : PerfKernel}
    (h : vmMngrUpdatePerfCounters kernel m = .ok m') : SameButCounts m m' := by
  unfold vmMngrUpdatePerfCounters at h
  split_ifs at h
  · cases h
    exact .refl m
  · exact updateVms_same h

theorem monitorTurn_same {env : MonitorEnv} {uploads : Uploads}
    (h : monitorTurn mon env p = .ok (p', uploads)) : SameServer p.server p'.server := by
  obtain ⟨_, _, h⟩ := bind_eq_ok.mp h
  obtain ⟨⟨bandwidth, _⟩, _, h⟩ := bind_eq_ok.mp h
  obtain ⟨m, hm, h⟩ := bind_eq_ok.mp h
  obtain ⟨_, _, h⟩ := bind_eq_ok.mp h
  cases h
  exact ⟨vmMngrUpdatePerfCounters_same hm, rfl⟩

/-- No turn of the monitor stops the process, and no request asks a guest agent: the monitor reads from the
same streams. -/
def Apart (mon : Monitor) (p : Process F) : Turn → Prop
  | .request _ text => asksAgent p.server text = false
  | .monitor env => Measured mon env p.server.mngr

instance decidableApart (mon : Monitor) (p : Process F) : ∀ turn, Decidable (Apart mon p turn)
  | .request _ text => inferInstanceAs (Decidable (asksAgent p.server text = false))
  | .monitor env => decidableMeasured mon env p.server.mngr

/-- The request of a turn, where the guests reply and the blocks hold something else. -/
def Turn.alone (guest : ServerEnv → ℤ → Text) (heap : ServerEnv → Buffer bufferSize) :
    Turn → Option (ServerEnv × Text)
  | .request env text => some ({ env with guest := guest env, heap := heap env }, text)
  | .monitor _ => none

/-- The process beside a server that only gets the requests. -/
def Beside (p : Process F) (s : Server) : Prop := SameServer p.server s ∧ Kept p.server.mngr

omit [Doubles F] in
theorem Beside.serve (hbeside : Beside p s) {text : Text} (hunasked : asksAgent p.server text = false)
    (env : ServerEnv) :
    Both Eq (fun q r => q.1 = r.1 ∧ SameServer q.2 r.2) (rpcServe env p.server text)
      (rpcServe { env with guest := guest env, heap := heap env } s text) := by
  have hasks : asksAgent s text = asksAgent p.server text := by
    rw [asksAgent, asksAgent, servedCommand, servedCommand, hbeside.1.2]
  rw [rpcServe_unasked (hasks.trans hunasked)]
  exact rpcServe_alike hbeside.1 env text

theorem process_simulates :
    Simulates (processStep mon) serverStep Eq Beside (Apart (F := F) mon) (Turn.alone guest heap) where
  answers p s turn request hbeside hapart hserved := by
    cases turn with
    | monitor env => cases hserved
    | request env text =>
      cases hserved
      have hstep : Both Eq (fun t t' => SameServer t t') (serverStep p.server (env, text))
          (serverStep s ({ env with guest := guest env, heap := heap env }, text)) :=
        (hbeside.serve hapart env).map fun _ _ h => h.2
      cases hserve : serverStep p.server (env, text) with
      | ok t =>
        obtain ⟨t', ht', hsame⟩ := hstep.ok_left hserve
        rw [processStep, hserve, ht']
        exact .ok ⟨hsame, serverStep_kept hbeside.2 hserve⟩
      | error e =>
        obtain ⟨e', he', heq⟩ := hstep.error_left hserve
        rw [processStep, hserve, he']
        exact .error heq
  skips p s turn hbeside hapart hserved := by
    cases turn with
    | request env text => cases hserved
    | monitor env =>
      obtain ⟨p', uploads, hturn, _⟩ := monitorTurn_done hbeside.2.consistent hapart
      have hstep : processStep mon p (.monitor env) = .ok p' := by rw [processStep, hturn]; rfl
      obtain ⟨hmngr, hargs⟩ := monitorTurn_same hturn
      exact ⟨p', hstep, ⟨hmngr.symm.trans hbeside.1.1, hbeside.1.2.trans hargs.symm⟩,
        processStep_kept hbeside.2 hstep⟩

/-- The monitor counts between the requests. -/
def countedTurns : List Turn :=
  startedTurns ++ [.monitor (flatEnv 10 3), .request answeringEnv "get-vms".toList,
    .monitor (flatEnv 7 0), .request answeringEnv "stop-vm vid=3".toList]

end Ramryder.MonitorTransparency
