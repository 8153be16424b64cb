import Ramryder.RequestHistory
import Ramryder.Shutdown

/-! The indexes into the table of guest agents: an agent is looked up by the VM id itself, which
the client chooses, while the table only bounds how many VMs there are. -/
namespace Ramryder.AgentIndex
open CMachine CText GuestAgents Lifecycle MemoryPool MemoryPoolSpec Ownership PerfCounter PoolCalls
  PoolConfig RequestHistory ResourceManager ResourceManagerSpec Runs Shutdown VmManager VmManagerSpec

variable {env : ServerEnv} {m m' : Manager} {s t : Server} {pool : Pool} {e : Fault} {args : Text}

/-- An id that indexes the table. -/
def InTable (vid : ℤ) : Prop := 0 ≤ vid ∧ vid < (maxNumVm : ℤ)

/-- The command a turn of the server loop serves, with the arguments that are in its buffer. -/
def servedCommand (s : Server) (request : Text) : Option (Command × Text) :=
  if (received request).length < bufferSize then
    match scanRequest (received request) with
    | (some cmd, newArgs) => (commandOf cmd).map fun command => (command, newArgs.getD s.args)
    | (none, _) => none
  else none

/-- There is a VM with this id, and it does not run. -/
def IsStopped (m : Manager) (vid : ℤ) : Prop :=
  ∃ i, vmMngrGetInstance m vid = some i ∧ (m.vms i).running = false

/-- A request that has the agent of `vid` looked up. -/
def LooksUp (m : Manager) (vid : ℤ) (args : Text) : Command → Prop
  | .getMemInfo => sscanf "vid=%d" args = [.int vid]
  | .startVm => sscanf "vid=%d" args = [.int vid] ∧ 0 ≤ vid ∧ IsStopped m vid
  | _ => False

/-- The request looks no agent up outside the table. -/
def NamesAgent (s : Server) (turn : ServerEnv × Text) : Prop :=
  ∀ command args vid, servedCommand s turn.2 = some (command, args) →
    LooksUp s.mngr vid args command → InTable vid

/-- The uses of the table that no request makes: a stop of any VM, a turn of the monitor over a
running VM, and the shutdown. -/
structure UsesInTable (m : Manager) : Prop where
  stop : ∀ kernel vmId v, vmMngrInstanceStop kernel m vmId ≠ .error (.guestAgentIndex v)
  monitor : ∀ i, (m.vms i).running = true → ∀ reply heap,
    ∃ r, guestAgentGetMeminfo reply heap m.agents (m.vms i).vmId = .ok r
  shutdown : ∀ kernels v, handleSignal kernels m ≠ .error (.guestAgentIndex v)

/-! ### Calls of the manager -/

def OffTable (e : Fault) : Prop := ∀ v, e ≠ .guestAgentIndex v

theorem offTable_vmFaults : VmFaults OffTable where
  bugOn _ _ := by simp
  divisionByZero _ := by simp
  intOverflow _ := by simp
  perfEventFds _ := by simp

theorem offTable_segmentIndex (p : ℤ) : OffTable (.segmentIndex p) := fun _ => by simp

theorem agentIndex_inTable {vid : ℤ} (h : InTable vid) : ∃ a, agentIndex vid = .ok a :=
  ⟨_, dif_pos h⟩

/-- A VM that runs has an agent, so its id indexes the table. -/
theorem running_inTable (hl : Consistent m) {i : Fin maxNumVm}
    (hrunning : (m.vms i).running = true) : InTable (m.vms i).vmId := by
  obtain ⟨a, ha⟩ := hl.agentId i hrunning
  rw [ha]
  exact ⟨Int.natCast_nonneg _, by exact_mod_cast a.isLt⟩

theorem guestAgentInit_inTable {connect : Text → ℤ} {agents : GuestAgentManager} {vid : ℤ}
    (hvid : InTable vid) (h : guestAgentInit connect agents vid = .error e) : OffTable e := by
  obtain ⟨a, ha⟩ := agentIndex_inTable hvid
  rw [guestAgentInit, ha, ok_bind] at h
  dsimp only at h
  split_ifs at h

theorem guestAgentCleanup_inTable {agents : GuestAgentManager} {vid : ℤ} (hvid : InTable vid)
    (h : guestAgentCleanup agents vid = .error e) : OffTable e := by
  obtain ⟨a, ha⟩ := agentIndex_inTable hvid
  rw [guestAgentCleanup, ha, ok_bind] at h
  dsimp only at h
  split_ifs at h

theorem stop_offTable (hl : Consistent m) {kernel : PerfKernel} {vmId : ℤ}
    (h : vmMngrInstanceStop kernel m vmId = .error e) : OffTable e := by
  unfold vmMngrInstanceStop at h
  split at h
  · cases h
  split at h
  · cases h
  rename_i i _ hrunning
  simp only [bind_eq_error] at h
  rcases h with h | ⟨_, _, h | ⟨_, _, h⟩⟩
  · exact guestAgentCleanup_inTable (running_inTable hl (by simpa using hrunning)) h
  · rw [teardownEvents_fault h]
    exact offTable_vmFaults.perfEventFds
  · cases h

/-- A start looks the agent up only if the VM is there and does not run. -/
theorem start_offTable {senv : StartEnv} {vmId : ℤ} (hvid : IsStopped m vmId → InTable vmId)
    (h : vmMngrInstanceStart senv m vmId = .error e) : OffTable e := by
  unfold vmMngrInstanceStart at h
  split at h
  · cases h
  split at h
  · cases h
  rename_i i hget hrunning
  simp only [bind_eq_error] at h
  rcases h with h | ⟨_, _, h | ⟨vm, _, h | ⟨⟨ret, agents⟩, _, h⟩⟩⟩
  · rw [(bugOn_eq_error h).1]
    exact offTable_vmFaults.bugOn _
  · exact vmPerfCounterSetup_fault offTable_vmFaults h
  · exact guestAgentInit_inTable (hvid ⟨i, hget, by simpa using hrunning⟩) h
  · dsimp only at h
    split at h
    · rcases bind_eq_error.mp h with h | ⟨_, _, h⟩
      · rw [teardownEvents_fault h]
        exact offTable_vmFaults.perfEventFds
      · cases h
    · cases h

theorem handleSignal_offTable (hm : Kept m) {kernels : Fin maxNumVm → PerfKernel}
    (h : handleSignal kernels m = .error e) : OffTable e := by
  obtain ⟨m₁, hstop⟩ : ∃ m₁, vmMngrForEachVmRunning (vmStop kernels) m = .ok m₁ := by
    unfold vmMngrForEachVmRunning
    split_ifs
    · exact ⟨m, rfl⟩
    · obtain ⟨m₁, hrun, _⟩ := @stopPass m kernels hm (List.finRange maxNumVm)
      exact ⟨m₁, hrun⟩
  have hpass : ∀ (is : List (Fin maxNumVm)) (m : Manager), is.foldlM (fun m i =>
      if !(m.vms i).initialized then .ok m else vmDestroy m i) m = .error e → OffTable e := by
    intro is
    induction is with
    | nil =>
      intro m h
      cases h
    | cons i is ih =>
      intro m h
      rw [List.foldlM_cons] at h
      rcases bind_eq_error.mp h with h | ⟨m₂, _, h⟩
      · split at h
        · cases h
        · exact vmMngrInstanceDestroy_fault (fun _ => offTable_segmentIndex) (map_eq_error.mp h)
      · exact ih m₂ h
  rw [handleSignal, hstop, ok_bind, vmMngrForEachVm] at h
  split_ifs at h
  exact hpass _ _ h

/-! ### Requests -/

theorem rpcHandleVm_offTable {call : ℤ → Outcome (ℤ × Manager)} {success failed : String}
    (hcall : ∀ vid e, sscanf "vid=%d" args = [.int vid] → 0 ≤ vid → call vid = .error e → OffTable e)
    (h : rpcHandleVm call success failed m args = .error e) : OffTable e := by
  unfold rpcHandleVm at h
  split at h
  · rename_i vid hscan
    split_ifs at h with hneg
    rcases bind_eq_error.mp h with h | ⟨⟨ret, m₁⟩, _, h⟩
    · exact hcall vid _ hscan (by omega) h
    · dsimp only at h
      split_ifs at h
  · cases h

theorem rpcHandleGetMemInfo_offTable (hvid : ∀ vid, sscanf "vid=%d" args = [.int vid] → InTable vid)
    (h : rpcHandleGetMemInfo env m args = .error e) : OffTable e := by
  unfold rpcHandleGetMemInfo at h
  split at h
  · rename_i vid hscan
    obtain ⟨a, ha⟩ := agentIndex_inTable (hvid vid hscan)
    obtain ⟨r, hr⟩ := guestAgentGetMeminfo_total ha env.guest env.heap m.agents
    rw [hr, ok_bind] at h
    cases r with
    | none => cases h
    | some response =>
      have hread := map_eq_error.mp h
      unfold ByteBuffer.asString at hread
      split_ifs at hread
      cases hread
      exact fun v => by simp
  · cases h

theorem rpcHandleAllocMem_offTable (h : rpcHandleAllocMem m args = .error e) : OffTable e := by
  unfold rpcHandleAllocMem at h
  split at h
  · split_ifs at h
    rcases bind_eq_error.mp h with h | ⟨⟨req, m₁⟩, _, h⟩
    · exact vmMngrInstanceAllocMem_fault offTable_vmFaults (fun _ => offTable_segmentIndex) h
    · cases req with
      | none => cases h
      | some req => cases h
  · cases h

theorem rpcHandleCreateVm_offTable (h : rpcHandleCreateVm m args = .error e) : OffTable e := by
  unfold rpcHandleCreateVm at h
  split at h
  · split_ifs at h
    split at h
    · cases h
    · rcases bind_eq_error.mp h with h | ⟨⟨ret, m₁⟩, _, h⟩
      · exact vmMngrInstanceCreate_fault offTable_vmFaults h
      · dsimp only at h
        split_ifs at h
  · cases h

theorem rpcHandle_offTable (hm : Kept m) {command : Command}
    (hvid : ∀ vid, LooksUp m vid args command → InTable vid)
    (h : rpcHandle env m args command = .error e) : OffTable e := by
  cases command with
  | getMemInfo => exact rpcHandleGetMemInfo_offTable hvid (map_eq_error.mp h)
  | getMemPool =>
    obtain ⟨t, ht⟩ := @memoryPoolGetUsage_total m.pool bufferSize (by decide)
    rw [rpcHandle, rpcHandleGetMemPool, ht] at h
    cases h
  | getVms =>
    rw [vmMngrDumpState_fault (map_eq_error.mp h)]
    exact fun _ => by simp
  | getNumNodes => cases h
  | getNodeInfo => cases h
  | allocMem => exact rpcHandleAllocMem_offTable (map_eq_error.mp h)
  | freeMem =>
    obtain ⟨r, hr⟩ := rpcHandleFreeMem_total hm.owns args
    rw [rpcHandle, hr] at h
    cases h
  | attachMem => cases h
  | detachMem => cases h
  | createVm => exact rpcHandleCreateVm_offTable (map_eq_error.mp h)
  | destroyVm =>
    exact rpcHandleVm_offTable
      (fun _ _ _ _ => vmMngrInstanceDestroy_fault fun _ => offTable_segmentIndex)
      (map_eq_error.mp h)
  | startVm =>
    refine rpcHandleVm_offTable (fun vid e hscan hpos hcall => ?_) (map_eq_error.mp h)
    exact start_offTable (fun hstopped => hvid vid ⟨hscan, hpos, hstopped⟩) hcall
  | stopVm =>
    exact rpcHandleVm_offTable (fun _ _ _ _ hcall => stop_offTable hm.consistent hcall)
      (map_eq_error.mp h)

/-- A turn that looks no agent up outside the table does not stop there. -/
theorem serverStep_offTable (hm : Kept s.mngr) {turn : ServerEnv × Text} (hnames : NamesAgent s turn)
    (h : serverStep s turn = .error e) : OffTable e := by
  obtain ⟨env, request⟩ := turn
  have hserve := map_eq_error.mp h
  unfold rpcServe at hserve
  dsimp only at hserve
  rw [← received] at hserve
  split at hserve
  · cases hserve
    exact fun _ => by simp
  rename_i hfull
  have hfits : (received request).length < bufferSize :=
    lt_of_le_of_ne (received_le request) hfull
  split at hserve
  · cases hserve
  rename_i cmd newArgs hscan
  rcases bind_eq_error.mp hserve with hrespond | ⟨_, _, hserve⟩
  · unfold respond at hrespond
    split at hrespond
    · cases hrespond
    rename_i command hcommand
    have hserved : servedCommand s request = some (command, newArgs.getD s.args) := by
      rw [servedCommand, if_pos hfits, hscan]
      dsimp only
      rw [hcommand]
      rfl
    rcases bind_eq_error.mp hrespond with hhandle | ⟨_, _, hrespond⟩
    · exact rpcHandle_offTable hm (fun vid hlooks => hnames _ _ vid hserved hlooks) hhandle
    · cases hrespond
  · cases hserve

/-! ### Runs -/

theorem serverStep_kept (hm : Kept s.mngr) {turn : ServerEnv × Text}
    (h : serverStep s turn = .ok t) : Kept t.mngr := by
  obtain ⟨⟨r, _⟩, hserve, rfl⟩ := map_eq_ok.mp h
  rcases (rpcServe_ok hm.owns hserve).call with hsame | ⟨op, hop⟩
  · exact hsame ▸ hm
  · exact ⟨owns_step hm.owns hop, step_consistent hm.owns hm.consistent hop,
      accounted_step hm.owns hm.accounted hop⟩

theorem usesInTable (hm : Kept m) : UsesInTable m where
  stop _ _ v h := stop_offTable hm.consistent h v rfl
  monitor _ hrunning reply heap := by
    obtain ⟨a, ha⟩ := agentIndex_inTable (running_inTable hm.consistent hrunning)
    exact guestAgentGetMeminfo_total ha reply heap m.agents
  shutdown _ v h := handleSignal_offTable hm h v rfl

/-- In a run whose requests look no agent up outside the table, no turn indexes outside it; nor do
the stops, the monitor and the shutdown in any state reached, whatever came before. -/
theorem agentIndex_inRange (hp : InitialPool pool) {turns : List (ServerEnv × Text)}
    (hnames : Guarded serverStep NamesAgent (initialServer pool args) turns) :
    (∀ v, run serverStep (initialServer pool args) turns ≠ .error (.guestAgentIndex v)) ∧
      ∀ s, run serverStep (initialServer pool args) turns = .ok s → UsesInTable s.mngr := by
  have hfirst : Kept (initialServer pool args).mngr := kept_reachable hp (.refl _)
  constructor
  · intro v h
    have hoff : OffTable (.guestAgentIndex v) :=
      run_fault_guarded (I := fun s : Server => Kept s.mngr)
        (fun _ _ _ hm _ hstep => serverStep_kept hm hstep)
        (fun _ _ _ hm hnames hstep => serverStep_offTable hm hnames hstep) hfirst hnames h
    exact hoff v rfl
  · intro s h
    exact usesInTable (run_invariant (I := fun s : Server => Kept s.mngr)
      (fun _ _ _ hm hstep => serverStep_kept hm hstep) hfirst h)

theorem agentIndex_inRange_smallPool :
    let turns := [(silentEnv, "get-mem-info vid=3".toList)]
    (∀ v, run serverStep (initialServer smallPool []) turns ≠ .error (.guestAgentIndex v)) ∧
      ∀ s, run serverStep (initialServer smallPool []) turns = .ok s → UsesInTable s.mngr := by
  refine agentIndex_inRange smallPool_initial ⟨?_, fun t _ => trivial⟩
  have hserved : servedCommand (initialServer smallPool []) "get-mem-info vid=3".toList =
      some (.getMemInfo, "vid=3".toList) := by rfl
  intro command args vid hcommand hlooks
  rw [hserved] at hcommand
  cases hcommand
  have hscan : sscanf "vid=%d" "vid=3".toList = [.int 3] := by decide
  have hvid : [Item.int 3] = [.int vid] := hscan.symm.trans hlooks
  cases hvid
  exact ⟨by decide, by decide⟩

/-- A VM can have the id 16, and its start indexes the table behind its end. -/
theorem agentIndex_fails_sixteen :
    run serverStep (initialServer smallPool [])
      [(silentEnv, "create-vm vid=16 coreset=[0]".toList), (silentEnv, "start-vm vid=16".toList)] =
        .error (.guestAgentIndex 16) := by
  have heval : (run serverStep (initialServer smallPool [])
      [(silentEnv, "create-vm vid=16 coreset=[0]".toList),
        (silentEnv, "start-vm vid=16".toList)]).map (fun _ => ()) =
      .error (.guestAgentIndex 16) := by decide +kernel
  exact map_eq_error.mp heval

end Ramryder.AgentIndex
