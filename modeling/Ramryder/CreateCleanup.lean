import Ramryder.AttachRollback
import Ramryder.CreateSteps

/-! What is left of a run of `create-vm` that does not leave QEMU running. One `destroy-vm` undoes
any number of allocations; it is sent by the `finally` block, which the choice of the port is not
under. -/
namespace Ramryder.CreateCleanup
open AttachRollback CMachine CScan CText Cli ClientRequests CreatePlan CreateRequests CreateSteps Deliveries GuestAgents
  Lifecycle MemoryPool MemoryPoolSpec Ownership PoolCalls PoolConfig PoolImage PyText QemuCommand ResourceManager ResourceManagerSpec Runs
  Shutdown VmDump VmManager VmManagerSpec

variable {m m₀ m' : Manager} {v : ℤ} {i : Fin maxNumVm} {pool : Pool}

/-- The pool and the VMs are as before. What the last VM left in a free slot does not count. -/
structure Restored (m m' : Manager) : Prop where
  pool : m'.pool = m.pool
  count : m'.count = m.count
  initialized : ∀ j, (m'.vms j).initialized = (m.vms j).initialized
  vms : ∀ j, (m.vms j).initialized = true → m'.vms j = m.vms j
  agents : m'.agents = m.agents

/-- The state `m₀` with the stopped VM `v` added in slot `i`, and nothing else but memory of `v`. -/
structure Added (v : ℤ) (i : Fin maxNumVm) (m₀ m : Manager) : Prop where
  kept : Kept m
  frame : PoolFrame m₀.pool m.pool
  fresh : (m₀.vms i).initialized = false
  initialized : (m.vms i).initialized = true
  vmId : (m.vms i).vmId = v
  stopped : (m.vms i).running = false
  others : ∀ j, j ≠ i → m.vms j = m₀.vms j
  count : m.count = m₀.count + 1
  agents : m.agents = m₀.agents

theorem Added.getInstance (h : Added v i m₀ m) : vmMngrGetInstance m v = some i :=
  h.kept.owns.ids.getInstance h.initialized h.vmId

theorem added_created (hm : Kept m₀) {coreset : Text}
    (h : vmMngrInstanceCreate m₀ v coreset = .ok (0, m)) : ∃ i, Added v i m₀ m ∧
      (m.vms i).attachedDevs = [] ∧ (m.vms i).memdevCounter = 0 := by
  have hstep : step m₀ (.create v coreset) = .ok m := by
    rw [step, h]
    rfl
  rcases vmMngrInstanceCreate_ok h with ⟨hneg, _⟩ | ⟨_, _, _, i, n, hfree, _, hm'⟩
  · exact absurd hneg (by decide)
  have hself : m.vms i = createdVm (m₀.vms i) v coreset n := by
    rw [hm']
    exact setVm_vms_self m₀ i _
  have hstopped : (m₀.vms i).running = false := by
    by_contra hrun
    rw [hm.consistent.running i (by simpa using hrun)] at hfree
    cases hfree
  refine ⟨i, ⟨Kept.step hm hstep, step_poolFrame hm.owns hstep, hfree, ?_, ?_, ?_, ?_, ?_, ?_⟩,
    by rw [hself]; rfl, by rw [hself]; rfl⟩
  · rw [hself]
    rfl
  · rw [hself]
    rfl
  · rw [hself]
    exact hstopped
  · intro j hj
    rw [hm']
    exact (setVm_vms m₀ i j _).trans (if_neg hj)
  · rw [hm']
  · rw [hm']
    rfl

theorem Added.allocMem (h : Added v i m₀ m) {nid sizeMb : ℤ} {res : Option VmMemReq}
    (halloc : vmMngrInstanceAllocMem m nid v sizeMb = .ok (res, m')) : Added v i m₀ m' := by
  have hstep : step m (.allocMem nid v sizeMb) = .ok m' := by
    rw [step, halloc]
    rfl
  rcases vmMngrInstanceAllocMem_ok h.kept.owns.geometry.segmentSize halloc with
    ⟨_, rfl⟩ | ⟨j, req, pool, k, lo, n, hget, _, _, _, hm'⟩
  · exact h
  obtain rfl : j = i := Option.some.inj (hget.symm.trans h.getInstance)
  have hself : m'.vms j = attachedVm (m.vms j) req := by
    rw [hm']
    exact setVm_vms_self m j _
  refine ⟨Kept.step h.kept hstep, h.frame.trans (step_poolFrame h.kept.owns hstep), h.fresh, ?_, ?_,
    ?_, ?_, ?_, ?_⟩
  · rw [hself]
    exact h.initialized
  · rw [hself]
    exact h.vmId
  · rw [hself]
    exact h.stopped
  · intro q hq
    rw [hm', ← h.others q hq]
    exact (setVm_vms m j q _).trans (if_neg hq)
  · rw [hm']
    exact h.count
  · rw [hm']
    exact h.agents

theorem Added.devicesInArray (h : Added v i m₀ m) :
    DevicesInArray m.pool ↔ DevicesInArray m₀.pool := by
  have htotal : ∀ k, (m.pool.memDevs k).totalSegments = (m₀.pool.memDevs k).totalSegments := by
    intro k
    rw [h.frame.dev k]
  simp only [DevicesInArray, htotal, h.frame.numDevs]

/-- The destruction of the added VM restores the state. -/
theorem Added.destroy (h : Added v i m₀ m) (hm : Kept m₀) (hfit : DevicesInArray m₀.pool) :
    ∃ m', vmMngrInstanceDestroy m v = .ok (0, m') ∧ Restored m₀ m' := by
  obtain ⟨m', hdestroy, _⟩ := destroy_total h.kept.owns.ids (h.devicesInArray.mpr hfit) h.initialized
    h.stopped
  rw [h.vmId] at hdestroy
  have hstep : step m (.destroy v) = .ok m' := by
    rw [step, hdestroy]
    rfl
  rcases vmMngrInstanceDestroy_ok hdestroy with ⟨hneg, _⟩ | ⟨_, j, hget, _, hm'⟩
  · exact absurd hneg (by decide)
  obtain rfl : j = i := Option.some.inj (hget.symm.trans h.getInstance)
  have hself : (m'.vms j).initialized = false := by
    rw [hm']
    exact congrArg VmInstance.initialized (setVm_vms_self m j _)
  have hother : ∀ q, q ≠ j → m'.vms q = m₀.vms q := by
    intro q hq
    rw [hm', ← h.others q hq]
    exact (setVm_vms m j q _).trans (if_neg hq)
  have hlive : ∀ q, (m₀.vms q).initialized = true → m'.vms q = m₀.vms q := by
    intro q hq
    refine hother q ?_
    rintro rfl
    rw [h.fresh] at hq
    cases hq
  have hinit : ∀ q, (m'.vms q).initialized = (m₀.vms q).initialized := by
    intro q
    by_cases hq : q = j
    · rw [hq, hself, h.fresh]
    · rw [hother q hq]
  have hlists : SameLists m₀ m' :=
    ⟨hinit, fun q hq => by rw [hlive q hq], fun q hq => by rw [hlive q hq]⟩
  refine ⟨m', hdestroy, ?_, ?_, hinit, hlive, ?_⟩
  · exact hlists.pool_eq hm (Kept.step h.kept hstep)
      (h.frame.trans (step_poolFrame h.kept.owns hstep))
  · rw [hm']
    dsimp only
    rw [h.count]
    omega
  · rw [hm', ← h.agents]
    rfl

theorem Added.destroy_outside (h : Added v i m₀ m) (hfit : ¬ DevicesInArray m₀.pool) :
    ∃ e, vmMngrInstanceDestroy m v = .error e := by
  rw [← h.devicesInArray, devicesInArray_iff, not_not] at hfit
  obtain ⟨k, hk, hmax⟩ := hfit
  obtain ⟨p, hfault⟩ := @releaseVmDevices_outside (m.vms i).vmId m.pool m.pool.numDevs
    0 k (Nat.zero_le _) (by omega) hmax
  refine ⟨.segmentIndex p, ?_⟩
  simp only [vmMngrInstanceDestroy, h.getInstance, h.stopped, memoryPoolReleaseVmMemory, hfault]
  rfl

theorem Added.not_restored (h : Added v i m₀ m) : ¬ Restored m₀ m := by
  intro hr
  have := (hr.initialized i).symm.trans h.initialized
  rw [h.fresh] at this
  cases this

/-! ### The requests of a run -/

variable {w : RunWorld} {args : CreateArgs} {requested : Option ℤ} {s s₁ s₂ s' : Server}
  {job : CreateJob} {plan : MemoryPlan} {vmid : ℤ} {call : ClientCall}

theorem askAll_keeps {I : Manager → Prop} {delivery : ℕ → Delivery} {use : Text → Raises Text}
    {calls : List ClientCall} {outs : List Text} {r : Raises (List Text)}
    (hcalls : ∀ call ∈ calls, ∀ env s response s', I s.mngr →
      rpcServe env s call.request = .ok (response, s') → I s'.mngr)
    (hs : I s.mngr) (h : askAll delivery use calls outs s = .ok (r, s')) : I s'.mngr := by
  induction calls generalizing outs s with
  | nil =>
    cases h
    exact hs
  | cons call calls ih =>
    obtain ⟨⟨answer, t⟩, hask, h⟩ := bind_eq_ok.mp h
    have ht : I t.mngr := ask_keeps hs
      (fun env response s' hserve => hcalls call List.mem_cons_self env s response s' hs hserve) hask
    dsimp only at h
    split at h
    · cases h
      exact ht
    · exact ih (fun c hc => hcalls c (List.mem_cons_of_mem _ hc)) ht h

theorem buildRequests_added {answers : Raises (List Text × List Text)} (hvid : NonNegInt v)
    (hadded : Added v i m₀ s.mngr) (h : buildRequests w v plan s = .ok (answers, s')) :
    Added v i m₀ s'.mngr := by
  obtain ⟨⟨allocOuts, t⟩, halloc, h⟩ := bind_eq_ok.mp h
  have ht : Added v i m₀ t.mngr := by
    refine askAll_keeps (I := Added v i m₀) (fun call hcall env s response s' hs hserve => ?_)
      hadded halloc
    obtain ⟨a, _, rfl⟩ := List.mem_map.mp hcall
    rcases served_allocMem_read hs.kept.owns hserve with ⟨hsame, _⟩ | ⟨req, _, hcall, _⟩
    · rw [hsame]
      exact hs
    · rw [readBack_of_inInt hvid.inInt] at hcall
      exact hs.allocMem hcall
  dsimp only at h
  split at h
  · cases h
    exact ht
  · obtain ⟨⟨nodeOuts, u⟩, hnode, h⟩ := bind_eq_ok.mp h
    cases h
    refine askAll_keeps (I := Added v i m₀) (fun call hcall env s response s' hs hserve => ?_) ht hnode
    obtain ⟨nid, _, rfl⟩ := List.mem_map.mp hcall
    rw [served_getNodeInfo hserve]
    exact hs

/-- A run whose VM was created: the plan is made of the pool's own table, and the VM was added to an
unchanged manager. -/
structure Created (args : CreateArgs) (s s₁ : Server) (job : CreateJob) (plan : MemoryPlan)
    (vmid : ℤ) : Prop where
  checked : createJob args = .ok job
  planned : ∃ response, rpcHandleGetMemPool s.mngr = .ok response ∧
    buildMemoryPlan job.cfg (clientText response) = .ok plan
  nonNeg : NonNegInt vmid
  added : ∃ i, Added vmid i s.mngr s₁.mngr ∧ (s₁.mngr.vms i).attachedDevs = [] ∧
    (s₁.mngr.vms i).memdevCounter = 0

theorem buildMemoryPlan_ne_nil {cfg : VmConfig} {out : Text} (h : buildMemoryPlan cfg out = .ok plan) :
    out ≠ [] := by
  rintro rfl
  have hnone : getMemPoolNodes [] = none := rfl
  rw [buildMemoryPlan, hnone] at h
  cases h

/-- Without a list of VMs the id is 0. -/
theorem ask_selectVmid {d : Delivery} {out : Text} (hc : Consistent s.mngr)
    (h : ask d s .getVms = .ok (.ok out, s')) : NonNegInt (selectVmid (getUsedVmIds out)) := by
  by_cases hnone : out = []
  · rw [hnone]
    exact ⟨by decide, by decide⟩
  · obtain ⟨env, response, hserve, rfl⟩ := ask_answered h hnone
    exact selectVmid_nonNegInt (rpcHandleGetVms_length hc (served_getVms hserve).2)

/-- The requests of a run up to the one that creates the VM: only that one changes the manager. -/
theorem untilCreated_create (hm : Kept s.mngr)
    (h : untilCreated w args s = .ok (.ok (job, plan, vmid), s₁)) :
    createJob args = .ok job ∧
      (∃ response, rpcHandleGetMemPool s.mngr = .ok response ∧
        buildMemoryPlan job.cfg (clientText response) = .ok plan) ∧
      NonNegInt vmid ∧ ∃ coreset, vmMngrInstanceCreate s.mngr vmid coreset = .ok (0, s₁.mngr) := by
  unfold untilCreated at h
  split at h
  · cases h
  rename_i job' hjob
  obtain ⟨⟨table, t⟩, hpool, h⟩ := bind_eq_ok.mp h
  dsimp only at h
  split at h
  · cases h
  rename_i plan' hplan
  obtain ⟨out, rfl, hplan⟩ := bind_eq_ok.mp hplan
  obtain ⟨env₀, answer₀, hserve₀, rfl⟩ := ask_answered hpool (buildMemoryPlan_ne_nil hplan)
  obtain ⟨ht, hresponse₀⟩ := served_getMemPool hserve₀
  obtain ⟨⟨vms, u⟩, hvms, h⟩ := bind_eq_ok.mp h
  dsimp only at h
  split at h
  · cases h
  rename_i out
  have hu := ask_getVms hvms
  have hvid := ask_selectVmid (ht ▸ hm.consistent) hvms
  obtain ⟨⟨created, x⟩, hcreate, h⟩ := bind_eq_ok.mp h
  dsimp only at h
  split at h
  · cases h
  split at h
  · rename_i hsuccess
    cases h
    obtain ⟨env', answer, hserve', rfl⟩ := ask_answered hcreate (ne_nil_of_success hsuccess)
    obtain ⟨cpus, hcpus⟩ := (createJob_ok hjob).cpuSet
    rcases served_createVm hvid hcpus hserve' with ⟨_, hfailed⟩ | ⟨_, hcall⟩
    · exact absurd hsuccess hfailed
    · rw [hu, ht] at hcall
      exact ⟨hjob, ⟨_, hresponse₀, hplan⟩, hvid, _, hcall⟩
  · cases h

theorem untilCreated_ok (hm : Kept s.mngr)
    (h : untilCreated w args s = .ok (.ok (job, plan, vmid), s₁)) :
    Created args s s₁ job plan vmid := by
  obtain ⟨hjob, hplan, hvid, coreset, hcall⟩ := untilCreated_create hm h
  exact ⟨hjob, hplan, hvid, added_created hm hcall⟩

/-! ### How a run ends -/

/-- A port is requested, or one of those that are tried is not in use. -/
def PortFound (w : PortWorld) (requested : Option ℤ) (vmid : ℤ) : Prop :=
  requested.isSome ∨ w.inUse 0 (basePort + vmid) = false ∨
    ∃ n < 128, w.inUse (n + 1) (basePort + vmid + w.random n) = false

theorem candidatePort_ok {w : PortWorld} {port : ℤ} {n k : ℕ} :
    (∃ p, candidatePort w port n k = .ok p) ↔
      ∃ j, k ≤ j ∧ j < k + n ∧ w.inUse (j + 1) (port + w.random j) = false := by
  induction n generalizing k with
  | zero =>
    constructor
    · rintro ⟨_, h⟩
      cases h
    · rintro ⟨j, hlow, hhigh, _⟩
      omega
  | succ n ih =>
    rw [candidatePort]
    by_cases huse : w.inUse (k + 1) (port + w.random k) = true
    · simp only [huse, if_true, ih]
      constructor
      · rintro ⟨j, hlow, hhigh, hfree⟩
        exact ⟨j, by omega, by omega, hfree⟩
      · rintro ⟨j, hlow, hhigh, hfree⟩
        have hne : j ≠ k := by
          rintro rfl
          rw [huse] at hfree
          cases hfree
        exact ⟨j, by omega, by omega, hfree⟩
    · simp only [huse, Bool.false_eq_true, if_false]
      exact iff_of_true ⟨_, rfl⟩ ⟨k, le_rfl, by omega, by simpa using huse⟩

theorem selectHostfwdPort_ok {w : PortWorld} :
    (∃ p, selectHostfwdPort w requested vmid = .ok p) ↔ PortFound w requested vmid := by
  cases requested with
  | some port => exact iff_of_true ⟨port, rfl⟩ (.inl rfl)
  | none =>
    simp only [selectHostfwdPort, PortFound, Option.isSome_none, Bool.false_eq_true, false_or]
    by_cases huse : w.inUse 0 (basePort + vmid) = true
    · simp only [huse, if_true, candidatePort_ok, Bool.true_eq_false, false_or, Nat.zero_le, true_and,
        Nat.zero_add]
    · simp only [huse, Bool.false_eq_true, if_false]
      exact iff_of_true ⟨_, rfl⟩ (.inl (by simp))

/-- The command of a run, once its requests are answered. -/
def runCommand (qemuBin : Text) (w : RunWorld) (job : CreateJob) (plan : MemoryPlan)
    (requested : Option ℤ) (vmid : ℤ) (answers : Raises (List Text × List Text)) :
    Raises (List Text) := do
  let port ← selectHostfwdPort w.ports requested vmid
  let answers ← answers
  buildQemuCmd qemuBin (withPort job port) vmid plan answers.1 answers.2

/-- QEMU is launched and passes the check after a second. -/
def PassesCheck (w : RunWorld) (job : CreateJob) (cmd : Raises (List Text)) : Prop :=
  job.cfg.dryRun = false ∧ (∃ words, cmd = .ok words) ∧ ∃ ready left, w.launch = .started ready left

theorem launchQemu_started {launch : Launch} {dryRun : Bool} {port : ℤ} {cmd : Raises (List Text)}
    (hdry : dryRun = false) : (launchQemu launch dryRun vmid port cmd).2 = true ↔
      (∃ words, cmd = .ok words) ∧ ∃ ready left, launch = .started ready left := by
  subst hdry
  cases cmd with
  | error e => simp [launchQemu]
  | ok words =>
    cases launch with
    | logFailed | startFailed => simp [launchQemu]
    | exitedEarly code => simp [launchQemu]
    | started ready left => cases ready <;> simp [launchQemu]

/-- A run that has a port: the `finally` block destroys the VM unless QEMU has passed the check. -/
theorem afterCreate_cases {qemuBin : Text} {port : ℤ} {answers : Raises (List Text × List Text)}
    (hport : selectHostfwdPort w.ports requested vmid = .ok port)
    (hbuild : buildRequests w vmid plan s₁ = .ok (answers, s₂)) :
    let cmd := runCommand qemuBin w job plan requested vmid answers
    (PassesCheck w job cmd ∧ ∃ result, afterCreate qemuBin w job plan requested vmid s₁ =
        .ok (⟨result, w.launch.left⟩, s₂)) ∨
      (¬ PassesCheck w job cmd ∧ ∃ result, afterCreate qemuBin w job plan requested vmid s₁ =
        (ask w.onDestroy s₂ (.destroyVm vmid)).map fun r => (⟨result, false⟩, r.2)) := by
  intro cmd
  have hcmd : cmd = answers.bind fun a =>
      buildQemuCmd qemuBin (withPort job port) vmid plan a.1 a.2 := by
    simp only [cmd, runCommand, hport]
    rfl
  set ended := launchQemu w.launch job.cfg.dryRun vmid port cmd with hended
  have hafter : afterCreate qemuBin w job plan requested vmid s₁ =
      if job.cfg.dryRun || !ended.2 then
        (ask w.onDestroy s₂ (.destroyVm vmid)).map fun r => (⟨ended.1, false⟩, r.2)
      else .ok (⟨ended.1, w.launch.left⟩, s₂) := by
    unfold afterCreate
    rw [hport]
    simp only [hbuild, ok_bind, ← hcmd, ← hended]
    rfl
  have hpass : PassesCheck w job cmd ↔ (job.cfg.dryRun || !ended.2) = false := by
    rw [Bool.or_eq_false_iff, Bool.not_eq_false', PassesCheck, hended]
    exact and_congr_right fun hdry => (launchQemu_started hdry).symm
  by_cases hfinal : (job.cfg.dryRun || !ended.2) = true
  · refine .inr ⟨fun h => ?_, ended.1, by rw [hafter, if_pos hfinal]⟩
    rw [hpass, hfinal] at h
    cases h
  · exact .inl ⟨hpass.mpr (by simpa using hfinal), ended.1, by rw [hafter, if_neg hfinal]⟩

/-- What becomes of the added VM when its destruction is sent. -/
theorem ask_destroy {d : Delivery} (hvid : NonNegInt v) (hadded : Added v i m₀ s.mngr) (hm : Kept m₀) :
    (∃ r, ask d s (.destroyVm v) = .ok r ∧ Restored m₀ r.2.mngr) ↔
      d.served.isSome = true ∧ DevicesInArray m₀.pool := by
  unfold ask
  cases d.served with
  | none =>
    refine iff_of_false ?_ fun h => by cases h.1
    rintro ⟨r, h, hrestored⟩
    cases h
    exact hadded.not_restored hrestored
  | some env =>
    obtain ⟨answer, a, hserve⟩ := rpcServe_destroyVm hvid env s
    rw [and_iff_right (by simp)]
    dsimp only
    rw [hserve]
    constructor
    · rintro ⟨r, hask, _⟩
      obtain ⟨_, hserved, _⟩ := bind_eq_ok.mp hask
      obtain ⟨_, hdestroy, _⟩ := map_eq_ok.mp hserved
      by_contra hfit
      obtain ⟨e, hfault⟩ := hadded.destroy_outside hfit
      rw [hfault] at hdestroy
      cases hdestroy
    · intro hfit
      obtain ⟨m', hdestroy, hrestored⟩ := hadded.destroy hm hfit
      rw [hdestroy]
      exact ⟨_, rfl, hrestored⟩

/-- After a run that does not leave QEMU running, the VM is gone and the manager as before just when
a port is found, QEMU does not end between the check and the end of the run, the request to destroy
the VM is served, and no device has more segments than the manager's arrays. -/
theorem restored_iff {qemuBin stack : Text} {answers : Raises (List Text × List Text)}
    (hp : InitialPool pool) (hreach : Reaches serverStep (initialServer pool stack) s)
    (hcreated : untilCreated w args s = .ok (.ok (job, plan, vmid), s₁))
    (hbuild : PortFound w.ports requested vmid →
      buildRequests w vmid plan s₁ = .ok (answers, s₂)) :
    (∃ e s', handleCreateVm qemuBin w args requested s = .ok (e, s') ∧
      (e.qemuLeft = false → Restored s.mngr s'.mngr)) ↔
      PortFound w.ports requested vmid ∧
        (PassesCheck w job (runCommand qemuBin w job plan requested vmid answers) →
          w.launch.left = true) ∧
        (¬ PassesCheck w job (runCommand qemuBin w job plan requested vmid answers) →
          w.onDestroy.served.isSome = true ∧ DevicesInArray s.mngr.pool) := by
  have hm := kept_reachable hp (server_refines hp hreach)
  have hcreated' := untilCreated_ok hm hcreated
  have hvid := hcreated'.nonNeg
  obtain ⟨i, hadded, _⟩ := hcreated'.added
  have hrun : handleCreateVm qemuBin w args requested s =
      afterCreate qemuBin w job plan requested vmid s₁ := by
    rw [handleCreateVm, hcreated]
    rfl
  rw [hrun]
  cases hport : selectHostfwdPort w.ports requested vmid with
  | error e =>
    have hnone : ¬ PortFound w.ports requested vmid := by
      rw [← selectHostfwdPort_ok, hport]
      rintro ⟨_, h⟩
      cases h
    refine iff_of_false ?_ fun h => hnone h.1
    rintro ⟨_, _, h, hrestored⟩
    rw [afterCreate, hport] at h
    cases h
    exact hadded.not_restored (hrestored rfl)
  | ok port =>
    have hfound := selectHostfwdPort_ok.mp ⟨port, hport⟩
    have hbuild := hbuild hfound
    have hadded₂ := buildRequests_added hvid hadded hbuild
    rw [and_iff_right hfound]
    rcases @afterCreate_cases w requested s₁ s₂ job plan vmid qemuBin port answers hport hbuild with
      ⟨hpass, result, hafter⟩ | ⟨hfail, result, hafter⟩
    · rw [hafter, forall_prop_of_true hpass, and_iff_left fun hno => absurd hpass hno]
      constructor
      · rintro ⟨_, _, h, hrestored⟩
        cases h
        by_contra hgone
        exact hadded₂.not_restored (hrestored (by simpa using hgone))
      · intro hleft
        refine ⟨_, _, rfl, fun hgone => ?_⟩
        rw [hleft] at hgone
        cases hgone
    · rw [hafter, forall_prop_of_true hfail, and_iff_right fun hyes => absurd hyes hfail,
        ← ask_destroy hvid hadded₂ hm]
      constructor
      · rintro ⟨_, _, h, hrestored⟩
        obtain ⟨r, hask, hres⟩ := map_eq_ok.mp h
        cases hres
        exact ⟨r, hask, hrestored rfl⟩
      · rintro ⟨r, hask, hrestored⟩
        exact ⟨_, _, by rw [hask]; rfl, fun _ => hrestored⟩

/-! ### A run without a port -/

/-- A world in which every request is answered, every port is in use and QEMU does not start. -/
def busyWorld : RunWorld where
  onPool := .answered silentEnv
  onVms := .answered silentEnv
  onCreate := .answered silentEnv
  onAlloc := fun _ => .answered silentEnv
  onNode := fun _ => .answered silentEnv
  onDestroy := .answered silentEnv
  ports := ⟨fun _ _ => true, fun _ => 1⟩
  launch := .exitedEarly 1

def oneSegmentArgs : CreateArgs := ⟨"0".toList, "4M".toList, 1, none, none, "img".toList, 0, false⟩

/-- What is computed of a run up to the creation of its VM is true of that run. -/
theorem exists_created {args : CreateArgs} {α : Type} {f : MemoryPlan → ℤ → Server → α} {a : α}
    (h : ((untilCreated busyWorld args (initialServer smallPool [])).toOption.bind fun r =>
      r.1.toOption.map fun c => f c.2.1 c.2.2 r.2) = some a) :
    ∃ job plan vmid s₁, untilCreated busyWorld args (initialServer smallPool []) =
      .ok (.ok (job, plan, vmid), s₁) ∧ f plan vmid s₁ = a := by
  obtain ⟨⟨created, s₁⟩, huntil, hview⟩ := of_toOption_bind h
  cases created with
  | error e => cases hview
  | ok c => exact ⟨c.1, c.2.1, c.2.2, s₁, huntil, Option.some.inj hview⟩

/-- With a requested port the ports in use do not matter. -/
theorem restored_iff_requested : ∃ job plan vmid answers,
    (∃ e s', handleCreateVm "qemu".toList busyWorld oneSegmentArgs (some 2222)
        (initialServer smallPool []) = .ok (e, s') ∧
      (e.qemuLeft = false → Restored (initialManager smallPool) s'.mngr)) ↔
      PortFound busyWorld.ports (some 2222) vmid ∧
        (PassesCheck busyWorld job
          (runCommand "qemu".toList busyWorld job plan (some 2222) vmid answers) →
            busyWorld.launch.left = true) ∧
        (¬ PassesCheck busyWorld job
          (runCommand "qemu".toList busyWorld job plan (some 2222) vmid answers) →
            busyWorld.onDestroy.served.isSome = true ∧ DevicesInArray smallPool) := by
  have heval : ((untilCreated busyWorld oneSegmentArgs (initialServer smallPool [])).toOption.bind
      fun r => r.1.toOption.bind fun created =>
        (buildRequests busyWorld created.2.2 created.2.1 r.2).toOption.map fun _ => ()) = some () := by
    decide +kernel
  obtain ⟨⟨created, s₁⟩, huntil, hview⟩ := of_toOption_bind heval
  obtain ⟨⟨job, plan, vmid⟩, hcreated, hview⟩ := Option.bind_eq_some_iff.mp hview
  obtain ⟨⟨answers, s₂⟩, hbuild, _⟩ := Option.map_eq_some_iff.mp hview
  cases created with
  | error e => cases hcreated
  | ok created' =>
    obtain rfl : created' = (job, plan, vmid) := Option.some.inj hcreated
    exact ⟨job, plan, vmid, answers, restored_iff smallPool_initial (.refl _) huntil
      fun _ => ok_of_toOption hbuild⟩

/-- Where no port is found, the VM that was created stays. -/
theorem restored_fails_busy : ∃ created s₁ e s',
    untilCreated busyWorld oneSegmentArgs (initialServer smallPool []) = .ok (.ok created, s₁) ∧
      handleCreateVm "qemu".toList busyWorld oneSegmentArgs none (initialServer smallPool []) =
        .ok (e, s') ∧
      e.qemuLeft = false ∧ ¬ Restored (initialManager smallPool) s'.mngr := by
  obtain ⟨job, plan, vmid, s₁, huntil, _⟩ := @exists_created oneSegmentArgs _ (fun _ _ _ => ()) ()
    (by decide +kernel)
  have heval : (handleCreateVm "qemu".toList busyWorld oneSegmentArgs none
      (initialServer smallPool [])).map (fun r : RunEnd × Server =>
        (r.1.qemuLeft, r.2.mngr.count)) = .ok (false, 1) := by
    decide +kernel
  obtain ⟨⟨e, s'⟩, hrun, hend⟩ := map_eq_ok.mp heval
  obtain ⟨hleft, hcount⟩ := Prod.mk.inj hend
  refine ⟨(job, plan, vmid), s₁, e, s', huntil, hrun, hleft, fun hrestored => ?_⟩
  have hzero := hcount.symm.trans hrestored.count
  exact absurd hzero (by decide)

end Ramryder.CreateCleanup
