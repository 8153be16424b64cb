import Ramryder.Ownership
import Ramryder.ResourceManager

/-! What one request can do: every handler makes at most one call of the VM manager,
and a request that does not report success leaves everything visible as it was. -/
namespace Ramryder.ResourceManagerSpec
open CInt CMachine CText GuestAgents MemoryPool MemoryPoolSpec Ownership PoolConfig QemuAgent
  ResourceManager Runs VmManager VmManagerSpec

variable {m m' : Manager} {env : ServerEnv} {args response : Text} {pool : Pool}

/-- The pool, the VM table and the set of initialized agents are the same. -/
structure SameView (m m' : Manager) : Prop where
  pool : m'.pool = m.pool
  count : m'.count = m.count
  vmId : ∀ i, (m'.vms i).vmId = (m.vms i).vmId
  coreSet : ∀ i, (m'.vms i).coreSet = (m.vms i).coreSet
  numCores : ∀ i, (m'.vms i).numCores = (m.vms i).numCores
  initialized : ∀ i, (m'.vms i).initialized = (m.vms i).initialized
  running : ∀ i, (m'.vms i).running = (m.vms i).running
  attachedDevs : ∀ i, (m'.vms i).attachedDevs = (m.vms i).attachedDevs
  memdevCounter : ∀ i, (m'.vms i).memdevCounter = (m.vms i).memdevCounter
  agent : ∀ a, (m'.agents.guestAgents a).initialized = (m.agents.guestAgents a).initialized

theorem SameView.refl (m : Manager) : SameView m m :=
  ⟨rfl, rfl, fun _ => rfl, fun _ => rfl, fun _ => rfl, fun _ => rfl, fun _ => rfl, fun _ => rfl,
    fun _ => rfl, fun _ => rfl⟩

theorem sameView_setVm {i : Fin maxNumVm} {vm : VmInstance} {agents : GuestAgentManager}
    (hs : SameVm (m.vms i) vm)
    (hagents : ∀ a, (agents.guestAgents a).initialized = (m.agents.guestAgents a).initialized) :
    SameView m { m.setVm i vm with agents := agents } := by
  have hslot : ∀ j, ({ m.setVm i vm with agents := agents } : Manager).vms j =
      if j = i then vm else m.vms j := fun j => setVm_vms m i j vm
  refine ⟨rfl, rfl, fun j => ?_, fun j => ?_, fun j => ?_, fun j => ?_, fun j => ?_, fun j => ?_,
    fun j => ?_, hagents⟩
  all_goals
    rw [hslot]
    split_ifs with hj
  · exact hj ▸ hs.vmId
  · rfl
  · exact hj ▸ hs.coreSet
  · rfl
  · exact hj ▸ hs.numCores
  · rfl
  · exact hj ▸ hs.initialized
  · rfl
  · exact hj ▸ hs.running
  · rfl
  · exact hj ▸ hs.attachedDevs
  · rfl
  · exact hj ▸ hs.memdevCounter
  · rfl

/-- A start that fails took back all it did but the perf counts. -/
theorem start_failed {env : StartEnv} {vmId ret : ℤ}
    (h : vmMngrInstanceStart env m vmId = .ok (ret, m')) (hret : ret ≠ 0) : SameView m m' := by
  rcases vmMngrInstanceStart_ok h with
    ⟨_, rfl⟩ | ⟨_, rfl⟩ | ⟨i, vm, agents, _, _, hsetup, hagent, hend⟩
  · exact .refl _
  · exact .refl _
  obtain ⟨a, _, hcases⟩ := guestAgentInit_ok hagent
  rcases hcases with ⟨h0, _⟩ | ⟨_, _, hflags⟩ | ⟨h0, _⟩
  · exact absurd h0 hret
  · rcases hend with ⟨_, vm', htear, rfl⟩ | ⟨hpos, _⟩
    · exact sameView_setVm
        ((vmPerfCounterSetup_same hsetup).trans (vmPerfCounterTeardown_same htear)) hflags
    · omega
  · exact absurd h0 hret

/-- The responses that report success. -/
inductive SuccessResponse : Text → Prop
  | alloc (req : VmMemReq) : SuccessResponse (allocMemResponse req)
  | free : SuccessResponse (snprintf bufferSize "Release success" [])
  | attach : SuccessResponse (snprintf bufferSize "Hotplug memory success" [])
  | detach : SuccessResponse (snprintf bufferSize "Hotunplug memory success" [])
  | create (vid : ℤ) (coreset : Text) : SuccessResponse
      (snprintf bufferSize "Create VM %d success, coreset: [%s]" [.int vid, .text coreset])
  | destroy (vid : ℤ) : SuccessResponse (snprintf bufferSize "Destroy VM %d success" [.int vid])
  | start (vid : ℤ) : SuccessResponse (snprintf bufferSize "Start VM %d success" [.int vid])
  | stop (vid : ℤ) : SuccessResponse (snprintf bufferSize "Stop VM %d success" [.int vid])

/-- What a handler did: one call of the VM manager, whose failure changes nothing visible. -/
structure OneCall (m m' : Manager) (response : Text) : Prop where
  call : m' = m ∨ ∃ op, step m op = .ok m'
  view : SameView m m' ∨ SuccessResponse response

theorem oneCall_unchanged (m : Manager) (response : Text) : OneCall m m response :=
  ⟨.inl rfl, .inl (.refl m)⟩

theorem rpcHandleAllocMem_ok (ho : Owns m) (h : rpcHandleAllocMem m args = .ok (response, m')) :
    OneCall m m' response := by
  unfold rpcHandleAllocMem at h
  split at h
  · rename_i nid vid sizeMb _
    split at h
    · cases h
      exact oneCall_unchanged _ _
    · obtain ⟨⟨req, m₁⟩, halloc, h⟩ := bind_eq_ok.mp h
      have hstep : step m (.allocMem nid vid sizeMb) = .ok m₁ := by
        rw [step, halloc]
        rfl
      cases req with
      | none =>
        cases h
        rcases vmMngrInstanceAllocMem_ok ho.geometry.segmentSize halloc with
          ⟨_, rfl⟩ | ⟨_, _, _, _, _, _, _, _, _, hreq, _⟩
        · exact oneCall_unchanged _ _
        · cases hreq
      | some req =>
        cases h
        exact ⟨.inr ⟨_, hstep⟩, .inr (.alloc req)⟩
  · cases h
    exact oneCall_unchanged _ _

theorem rpcHandleFreeMem_ok (ho : Owns m) (h : rpcHandleFreeMem m args = .ok (response, m')) :
    OneCall m m' response := by
  unfold rpcHandleFreeMem at h
  split at h
  · rename_i vid memid _
    split at h
    · cases h
      exact oneCall_unchanged _ _
    · obtain ⟨⟨ret, m₁⟩, hfree, h⟩ := bind_eq_ok.mp h
      have hstep : step m (.freeMem vid memid) = .ok m₁ := by
        rw [step, hfree]
        rfl
      dsimp only at h
      split at h
      · cases h
        exact ⟨.inr ⟨_, hstep⟩, .inr .free⟩
      · cases h
        rcases ho.freeMem_ok hfree with ⟨_, rfl⟩ | ⟨hret, _⟩
        · exact oneCall_unchanged _ _
        · contradiction
  · cases h
    exact oneCall_unchanged _ _

theorem rpcHandleCreateVm_ok (h : rpcHandleCreateVm m args = .ok (response, m')) :
    OneCall m m' response := by
  unfold rpcHandleCreateVm at h
  split at h
  · rename_i vid coresetStr _
    split at h
    · cases h
      exact oneCall_unchanged _ _
    split at h
    · cases h
      exact oneCall_unchanged _ _
    · rename_i start _
      obtain ⟨⟨ret, m₁⟩, hcreate, h⟩ := bind_eq_ok.mp h
      have hstep : step m (.create vid start) = .ok m₁ := by
        rw [step, hcreate]
        rfl
      dsimp only at h
      split at h
      · cases h
        exact ⟨.inr ⟨_, hstep⟩, .inr (.create vid start)⟩
      · cases h
        rcases vmMngrInstanceCreate_ok hcreate with ⟨_, rfl⟩ | ⟨hret, _⟩
        · exact oneCall_unchanged _ _
        · contradiction
  · cases h
    exact oneCall_unchanged _ _

/-- The three handlers that only name a VM, given what their call can do. -/
theorem rpcHandleVm_ok {call : ℤ → Outcome (ℤ × Manager)} {success failed : String}
    (hstep : ∀ vid ret m', call vid = .ok (ret, m') → ∃ op, step m op = .ok m')
    (hfail : ∀ vid ret m', call vid = .ok (ret, m') → ret ≠ 0 → SameView m m')
    (hsuccess : ∀ vid, SuccessResponse (snprintf bufferSize success [.int vid]))
    (h : rpcHandleVm call success failed m args = .ok (response, m')) : OneCall m m' response := by
  unfold rpcHandleVm at h
  split at h
  · rename_i vid _
    split at h
    · cases h
      exact oneCall_unchanged _ _
    · obtain ⟨⟨ret, m₁⟩, hcall, h⟩ := bind_eq_ok.mp h
      dsimp only at h
      split at h
      · cases h
        exact ⟨.inr (hstep vid ret _ hcall), .inr (hsuccess vid)⟩
      · rename_i hret
        cases h
        exact ⟨.inr (hstep vid ret _ hcall), .inl (hfail vid ret _ hcall hret)⟩
  · cases h
    exact oneCall_unchanged _ _

theorem rpcHandleDestroyVm_ok (h : rpcHandleDestroyVm m args = .ok (response, m')) :
    OneCall m m' response := by
  refine rpcHandleVm_ok (fun vid ret m₁ hcall => ⟨.destroy vid, ?_⟩) ?_ .destroy h
  · rw [step, hcall]
    rfl
  · intro vid ret m₁ hcall hret
    rcases vmMngrInstanceDestroy_ok hcall with ⟨_, rfl⟩ | ⟨h0, _⟩
    · exact .refl _
    · exact absurd h0 hret

theorem rpcHandleStartVm_ok {start : StartEnv}
    (h : rpcHandleStartVm start m args = .ok (response, m')) : OneCall m m' response := by
  refine rpcHandleVm_ok (fun vid ret m₁ hcall => ⟨.start vid start, ?_⟩)
    (fun vid ret m₁ hcall hret => start_failed hcall hret) .start h
  rw [step, hcall]
  rfl

theorem rpcHandleStopVm_ok {start : StartEnv}
    (h : rpcHandleStopVm start m args = .ok (response, m')) : OneCall m m' response := by
  refine rpcHandleVm_ok (fun vid ret m₁ hcall => ⟨.stop vid start.kernel, ?_⟩) ?_ .stop h
  · rw [step, hcall]
    rfl
  · intro vid ret m₁ hcall hret
    rcases vmMngrInstanceStop_ok hcall with ⟨_, rfl⟩ | ⟨h0, _⟩ | ⟨h0, _⟩
    · exact .refl _
    · exact absurd h0 hret
    · exact absurd h0 hret

theorem rpcHandle_ok (ho : Owns m) {command : Command} {r : Option Text}
    (h : rpcHandle env m args command = .ok (r, m')) :
    ∀ nullText, OneCall m m' (r.getD nullText) := by
  intro nullText
  have hquery : ∀ {α : Type} {x : Outcome α} {f : α → Option Text},
      (x.map fun a => (f a, m)) = .ok (r, m') → OneCall m m' (r.getD nullText) := by
    intro α x f hx
    obtain ⟨a, _, ha⟩ := map_eq_ok.mp hx
    cases ha
    exact oneCall_unchanged _ _
  have hcall : ∀ {x : Outcome (Text × Manager)},
      (∀ response m', x = .ok (response, m') → OneCall m m' response) →
      (x.map fun a => (some a.1, a.2)) = .ok (r, m') → OneCall m m' (r.getD nullText) := by
    intro x hx h
    obtain ⟨⟨response, m₁⟩, hres, ha⟩ := map_eq_ok.mp h
    cases ha
    exact hx _ _ hres
  cases command with
  | getMemInfo => exact hquery h
  | getMemPool => exact hquery h
  | getVms => exact hquery h
  | getNumNodes =>
    cases h
    exact oneCall_unchanged _ _
  | getNodeInfo =>
    cases h
    exact oneCall_unchanged _ _
  | allocMem => exact hcall (fun _ _ => rpcHandleAllocMem_ok ho) h
  | freeMem => exact hcall (fun _ _ => rpcHandleFreeMem_ok ho) h
  | attachMem =>
    cases h
    exact oneCall_unchanged _ _
  | detachMem =>
    cases h
    exact oneCall_unchanged _ _
  | createVm => exact hcall (fun _ _ => rpcHandleCreateVm_ok) h
  | destroyVm => exact hcall (fun _ _ => rpcHandleDestroyVm_ok) h
  | startVm => exact hcall (fun _ _ => rpcHandleStartVm_ok) h
  | stopVm => exact hcall (fun _ _ => rpcHandleStopVm_ok) h

theorem respond_ok (ho : Owns m) {cmd : Text} (h : respond env m cmd args = .ok (response, m')) :
    OneCall m m' response := by
  unfold respond at h
  split at h
  · cases h
    exact oneCall_unchanged _ _
  · obtain ⟨⟨r, m₁⟩, hres, h⟩ := bind_eq_ok.mp h
    cases h
    exact rpcHandle_ok ho hres _

theorem rpcServe_ok {s s' : Server} {request : Text} (ho : Owns s.mngr)
    (h : rpcServe env s request = .ok (response, s')) : OneCall s.mngr s'.mngr response := by
  unfold rpcServe at h
  dsimp only at h
  split at h
  · cases h
  split at h
  · cases h
    exact oneCall_unchanged _ _
  · obtain ⟨⟨r, m₁⟩, hres, h⟩ := bind_eq_ok.mp h
    cases h
    exact respond_ok ho hres

/-! ### Runs of requests -/

/-- A turn of the server loop, with what the turn meets outside the process. -/
def serverStep (s : Server) (turn : ServerEnv × Text) : Outcome Server :=
  (rpcServe turn.1 s turn.2).map Prod.snd

/-- The server loop as it is entered; `args` holds whatever was on the stack. -/
def initialServer (pool : Pool) (args : Text) : Server := ⟨initialManager pool, args⟩

/-- The server refines the VM manager: whatever requests reach, calls reach. -/
theorem server_refines {s : Server} (hp : InitialPool pool)
    (h : Reaches serverStep (initialServer pool args) s) :
    Reaches step (initialManager pool) s.mngr := by
  refine h.invariant (I := fun s => Reaches step (initialManager pool) s.mngr) ?_ (.refl _)
  intro s turn t hs hstep
  obtain ⟨⟨r, _⟩, hserve, rfl⟩ := map_eq_ok.mp hstep
  rcases (rpcServe_ok (owns_reachable hp hs) hserve).call with hsame | ⟨op, hop⟩
  · exact hsame ▸ hs
  · exact hs.tail hop

/-- A request whose response does not report success changed nothing visible. -/
theorem failed_request_sameView {s s' : Server} {request : Text} (hp : InitialPool pool)
    (hreach : Reaches step (initialManager pool) s.mngr)
    (h : rpcServe env s request = .ok (response, s')) (hfail : ¬ SuccessResponse response) :
    SameView s.mngr s'.mngr :=
  (rpcServe_ok (owns_reachable hp hreach) h).view.resolve_right hfail

/-- Nothing outside the process answers. -/
def silentEnv : ServerEnv where
  qmp := fun _ _ => .failed
  guest := fun _ => []
  start := ⟨⟨fun _ _ => 7, fun _ => 0⟩, fun _ => -1⟩

/-- Here the guest agents can be connected to. -/
def connectingEnv : ServerEnv := { silentEnv with start := { silentEnv.start with connect := fun _ => 5 } }

theorem successResponse_head (h : SuccessResponse response) : response.head? ≠ some 'A' := by
  cases h with
  | alloc req => exact fun h => by cases h
  | free => exact fun h => by cases h
  | attach => exact fun h => by cases h
  | detach => exact fun h => by cases h
  | create vid coreset => exact fun h => by cases h
  | destroy vid => exact fun h => by cases h
  | start vid => exact fun h => by cases h
  | stop vid => exact fun h => by cases h

theorem failed_request_sameView_alloc : ∃ m s',
    run step (initialManager smallPool) [.create 3 "0".toList] = .ok m ∧
      rpcServe silentEnv ⟨m, []⟩ "alloc-mem nid=0 vid=3 size=12".toList =
        .ok ("Allocate failed".toList, s') ∧ SameView m s'.mngr := by
  have heval : ((run step (initialManager smallPool) [.create 3 "0".toList]) >>= fun m =>
      rpcServe silentEnv ⟨m, []⟩ "alloc-mem nid=0 vid=3 size=12".toList).map Prod.fst =
      .ok "Allocate failed".toList := by rfl
  obtain ⟨⟨response, s'⟩, hres, rfl⟩ := map_eq_ok.mp heval
  obtain ⟨m, hm, hserve⟩ := bind_eq_ok.mp hres
  have hfail : ¬ SuccessResponse "Allocate failed".toList :=
    fun h => successResponse_head h (by decide)
  exact ⟨m, s', hm, hserve, failed_request_sameView smallPool_initial ⟨_, hm⟩ hserve hfail⟩

end Ramryder.ResourceManagerSpec
