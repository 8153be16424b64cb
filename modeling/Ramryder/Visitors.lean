import Ramryder.AttachRollback
import Ramryder.RequestCalls

/-! VMs that come and go. A request touches the record, the agent and the memory of no VM but the one it
names, and what came after a state and is gone again has left no trace in it. -/
namespace Ramryder.Visitors
open AttachRollback CMachine CText GuestAgents Lifecycle MemoryPool MemoryPoolSpec
  Ownership PoolConfig PoolImage RequestCalls ResourceManager ResourceManagerSpec Runs Shutdown VmManager VmManagerSpec

variable {visitor : ℤ → Prop} {m m' m'' : Manager} {s s' : Server} {env : ServerEnv} {args response : Text}
  {v ret : ℤ}

/-! ### What a call touches -/

def opVm : Op → ℤ
  | .create vmId _ | .destroy vmId | .start vmId _ | .stop vmId _ | .allocMem _ vmId _ | .freeMem vmId _ => vmId

/-- The slot holds a VM that is no visitor. -/
def Resident (visitor : ℤ → Prop) (vm : VmInstance) : Prop := vm.initialized = true ∧ ¬ visitor vm.vmId

/-- The two states differ in visitors only. -/
structure Aside (visitor : ℤ → Prop) (m m' : Manager) : Prop where
  vms : ∀ i, Resident visitor (m.vms i) ∨ Resident visitor (m'.vms i) → m'.vms i = m.vms i
  agents : ∀ a : Fin maxNumVm, ¬ visitor a.val → m'.agents.guestAgents a = m.agents.guestAgents a

theorem Aside.refl (m : Manager) : Aside visitor m m := ⟨fun _ _ => rfl, fun _ _ => rfl⟩

theorem Aside.trans (h : Aside visitor m m') (h' : Aside visitor m' m'') : Aside visitor m m'' := by
  refine ⟨fun i hi => ?_, fun a ha => (h'.agents a ha).trans (h.agents a ha)⟩
  rcases hi with hi | hi
  · have hfirst := h.vms i (.inl hi)
    exact (h'.vms i (.inl (hfirst ▸ hi))).trans hfirst
  · have hsecond := h'.vms i (.inr hi)
    exact hsecond.trans (h.vms i (.inr (hsecond ▸ hi)))

theorem not_resident {vm : VmInstance} (hid : vm.vmId = v) (hv : visitor v) : ¬ Resident visitor vm :=
  fun h => h.2 (hid ▸ hv)

/-- One slot has changed, and holds no resident. -/
theorem aside_setVm {i : Fin maxNumVm} {vm : VmInstance} (hvms : m'.vms = (m.setVm i vm).vms)
    (hbefore : ¬ Resident visitor (m.vms i)) (hafter : ¬ Resident visitor vm)
    (hagents : ∀ a : Fin maxNumVm, ¬ visitor a.val → m'.agents.guestAgents a = m.agents.guestAgents a) :
    Aside visitor m m' := by
  refine ⟨fun j hj => ?_, hagents⟩
  have hslot : m'.vms j = if j = i then vm else m.vms j := by rw [hvms, setVm_vms]
  by_cases hji : j = i
  · subst hji
    rw [if_pos rfl] at hslot
    rw [hslot] at hj
    exact absurd hj (not_or.mpr ⟨hbefore, hafter⟩)
  · rw [hslot, if_neg hji]

theorem guestAgentInit_others {connect : Text → ℤ} {agents agents' : GuestAgentManager}
    (h : guestAgentInit connect agents v = .ok (ret, agents')) {a : Fin maxNumVm} (ha : (a.val : ℤ) ≠ v) :
    agents'.guestAgents a = agents.guestAgents a := by
  obtain ⟨b, hb, h⟩ := bind_eq_ok.mp h
  have hne : a ≠ b := by
    rintro rfl
    exact ha (agentIndex_eq_ok hb).symm
  dsimp only at h
  split at h
  · cases h
    rfl
  split at h
  · cases h
    rfl
  split at h
  · cases h
    rw [setAgent_guestAgents, if_neg hne]
  · cases h
    exact (setAgent_guestAgents agents b a _).trans (if_neg hne)

theorem guestAgentCleanup_others {agents agents' : GuestAgentManager}
    (h : guestAgentCleanup agents v = .ok agents') {a : Fin maxNumVm} (ha : (a.val : ℤ) ≠ v) :
    agents'.guestAgents a = agents.guestAgents a := by
  obtain ⟨b, hb, h⟩ := bind_eq_ok.mp h
  have hne : a ≠ b := by
    rintro rfl
    exact ha (agentIndex_eq_ok hb).symm
  dsimp only at h
  split at h
  · cases h
    exact (setAgent_guestAgents agents b a _).trans (if_neg hne)
  · cases h
    rfl

/-- Step lemma: a call for a visitor touches visitors only. -/
theorem step_aside (ho : Owns m) {op : Op} (hv : visitor (opVm op)) (h : step m op = .ok m') :
    Aside visitor m m' := by
  have hagent : ∀ a : Fin maxNumVm, ¬ visitor a.val → (a.val : ℤ) ≠ opVm op := by
    rintro a ha heq
    exact ha (heq ▸ hv)
  cases op with
  | create vmId coreSet =>
    obtain ⟨⟨ret, _⟩, hres, rfl⟩ := map_eq_ok.mp h
    rcases vmMngrInstanceCreate_ok hres with ⟨_, rfl⟩ | ⟨_, _, _, i, n, hfree, _, rfl⟩
    · exact .refl _
    · refine aside_setVm rfl (fun hi => ?_) (not_resident rfl hv) fun _ _ => rfl
      rw [hi.1] at hfree
      cases hfree
  | destroy vmId =>
    obtain ⟨⟨ret, _⟩, hres, rfl⟩ := map_eq_ok.mp h
    rcases vmMngrInstanceDestroy_ok hres with ⟨_, rfl⟩ | ⟨_, i, hget, _, rfl⟩
    · exact .refl _
    · have hid := (vmMngrGetInstance_eq_some hget).2
      exact aside_setVm rfl (not_resident hid hv) (not_resident hid hv) fun _ _ => rfl
  | start vmId env =>
    obtain ⟨⟨ret, _⟩, hres, rfl⟩ := map_eq_ok.mp h
    rcases vmMngrInstanceStart_ok hres with
      ⟨_, rfl⟩ | ⟨_, rfl⟩ | ⟨i, vm, agents, hget, _, hsetup, hinit, hend⟩
    · exact .refl _
    · exact .refl _
    have hid := (vmMngrGetInstance_eq_some hget).2
    have hvm := vmPerfCounterSetup_same hsetup
    have hagents := fun a ha => guestAgentInit_others hinit (hagent a ha)
    rcases hend with ⟨_, vm', htear, rfl⟩ | ⟨_, rfl⟩
    · have hvm' := hvm.trans (vmPerfCounterTeardown_same htear)
      exact aside_setVm rfl (not_resident hid hv) (not_resident (hvm'.vmId.trans hid) hv) hagents
    · exact aside_setVm rfl (not_resident hid hv) (not_resident (hvm.vmId.trans hid) hv) hagents
  | stop vmId kernel =>
    obtain ⟨⟨ret, _⟩, hres, rfl⟩ := map_eq_ok.mp h
    rcases vmMngrInstanceStop_ok hres with
      ⟨_, rfl⟩ | ⟨_, rfl⟩ | ⟨_, i, vm, agents, hget, _, hclean, htear, rfl⟩
    · exact .refl _
    · exact .refl _
    · have hid := (vmMngrGetInstance_eq_some hget).2
      have hvm := vmPerfCounterTeardown_same htear
      exact aside_setVm rfl (not_resident hid hv) (not_resident (hvm.vmId.trans hid) hv)
        fun a ha => guestAgentCleanup_others hclean (hagent a ha)
  | allocMem nodeId vmId sizeMb =>
    obtain ⟨⟨ret, _⟩, hres, rfl⟩ := map_eq_ok.mp h
    rcases vmMngrInstanceAllocMem_ok ho.geometry.segmentSize hres with
      ⟨_, rfl⟩ | ⟨i, req, pool, k, lo, n, hget, _, _, _, rfl⟩
    · exact .refl _
    · have hid := (vmMngrGetInstance_eq_some hget).2
      exact aside_setVm rfl (not_resident hid hv) (not_resident hid hv) fun _ _ => rfl
  | freeMem vmId memdevIdx =>
    obtain ⟨⟨ret, _⟩, hres, rfl⟩ := map_eq_ok.mp h
    rcases ho.freeMem_ok hres with ⟨_, rfl⟩ | ⟨_, i, dev, k, lo, n, hget, _, _, _, rfl⟩
    · exact .refl _
    · have hid := (vmMngrGetInstance_eq_some hget).2
      exact aside_setVm rfl (not_resident hid hv) (not_resident hid hv) fun _ _ => rfl

/-! ### What a request touches -/

/-- The VM that a command names to the manager. -/
def namedVm (args : Text) : Command → Option ℤ
  | .allocMem =>
    match sscanf "nid=%d vid=%d size=%d" args with
    | [.int _, .int vid, .int _] => some vid
    | _ => none
  | .freeMem =>
    match sscanf "vid=%d memid=%d" args with
    | [.int vid, .int _] => some vid
    | _ => none
  | .createVm =>
    match sscanf "vid=%d coreset=%[^\n]" args with
    | [.int vid, .text _] => some vid
    | _ => none
  | .destroyVm | .startVm | .stopVm =>
    match sscanf "vid=%d" args with
    | [.int vid] => some vid
    | _ => none
  | _ => none

theorem namedVm_of_calls {command : Command} {op : Op} (h : Calls args command op) :
    namedVm args command = some (opVm op) := by
  cases h with
  | alloc hscan => rw [namedVm, hscan, opVm]
  | free hscan => rw [namedVm, hscan, opVm]
  | create start hscan => rw [namedVm, hscan, opVm]
  | destroy hscan => rw [namedVm, hscan, opVm]
  | start env hscan => rw [namedVm, hscan, opVm]
  | stop kernel hscan => rw [namedVm, hscan, opVm]

/-- The request is about no VM but visitors. -/
def Concerns (visitor : ℤ → Prop) (s : Server) (turn : ServerEnv × Text) : Prop :=
  ∀ command ∈ (commandRead turn.2).toList, ∀ vid ∈ (namedVm (argsRead s turn.2) command).toList, visitor vid

instance decidableConcerns [DecidablePred visitor] (s : Server) (turn : ServerEnv × Text) :
    Decidable (Concerns visitor s turn) :=
  inferInstanceAs (Decidable (∀ command ∈ (commandRead turn.2).toList, _))

/-! ### Runs -/

/-- The invariant of a run for visitors that began in `m₀`. -/
structure Visited (visitor : ℤ → Prop) (m₀ m : Manager) : Prop where
  kept : Kept m
  frame : PoolFrame m₀.pool m.pool
  aside : Aside visitor m₀ m

variable {m₀ : Manager} {turn : ServerEnv × Text} {turns : List (ServerEnv × Text)} {pool : Pool} {stack : Text}

theorem Visited.refl (hm : Kept m) : Visited visitor m m := ⟨hm, .refl _, .refl _⟩

theorem Visited.step (h : Visited visitor m₀ m) {op : Op} (hv : visitor (opVm op))
    (hop : VmManager.step m op = .ok m') : Visited visitor m₀ m' :=
  ⟨Kept.step h.kept hop, h.frame.trans (step_poolFrame h.kept.owns hop),
    h.aside.trans (step_aside h.kept.owns hv hop)⟩

/-- Step lemma. -/
theorem serverStep_visited (h : Visited visitor m₀ s.mngr) (hconcerns : Concerns visitor s turn)
    (hstep : serverStep s turn = .ok s') : Visited visitor m₀ s'.mngr := by
  obtain ⟨⟨response, _⟩, hserve, rfl⟩ := map_eq_ok.mp hstep
  obtain ⟨hargs, hm | ⟨command, op, hcommand, hcalls, hop⟩⟩ := rpcServe_calls hserve
  · exact hm.symm ▸ h
  · rw [hargs] at hcalls
    have hvisitor : visitor (opVm op) := hconcerns command (by simp [hcommand]) _
      (by simp [namedVm_of_calls hcalls])
    exact h.step hvisitor hop

/-- Nobody but visitors has gained or lost memory. -/
theorem Visited.owned (h : Visited visitor m₀ m) (ho : Owns m₀) (hv : ¬ visitor v) {k : ℕ}
    (hk : k < m₀.pool.numDevs) (p : ℕ) : Owned (m.pool.memDevs k) v p ↔ Owned (m₀.pool.memDevs k) v p := by
  have hcover : ∀ i, m.vms i = m₀.vms i → coverCount m i k p = coverCount m₀ i k p := by
    intro i hi
    rw [coverCount, coverCount, hi, h.frame.segmentSizeMb]
  rw [h.kept.owns.owned_iff (h.frame.numDevs ▸ hk), ho.owned_iff hk]
  constructor
  · rintro ⟨i, hi, rfl, hcount⟩
    have hsame := h.aside.vms i (.inr ⟨hi, hv⟩)
    exact ⟨i, hsame ▸ hi, by rw [hsame], (hcover i hsame) ▸ hcount⟩
  · rintro ⟨i, hi, rfl, hcount⟩
    have hsame := h.aside.vms i (.inl ⟨hi, hv⟩)
    exact ⟨i, by rw [hsame]; exact hi, by rw [hsame], (hcover i hsame).trans hcount⟩

/-- No visitor is registered. -/
def Absent (visitor : ℤ → Prop) (m : Manager) : Prop := ∀ i, (m.vms i).initialized = true → ¬ visitor (m.vms i).vmId

/-- The pool, the VMs and the agents are as before. What a VM left in a free slot, or an agent in a closed
one, does not count. -/
structure Undone (m m' : Manager) : Prop where
  pool : m'.pool = m.pool
  count : m'.count = m.count
  initialized : ∀ i, (m'.vms i).initialized = (m.vms i).initialized
  vms : ∀ i, (m.vms i).initialized = true → m'.vms i = m.vms i
  agentCount : m'.agents.count = m.agents.count
  connected : ∀ a, (m'.agents.guestAgents a).initialized = (m.agents.guestAgents a).initialized
  agents : ∀ a, (m.agents.guestAgents a).initialized = true → m'.agents.guestAgents a = m.agents.guestAgents a

theorem Absent.agent (h : Absent visitor m) (hl : Consistent m) {a : Fin maxNumVm}
    (ha : (m.agents.guestAgents a).initialized = true) : ¬ visitor a.val := by
  obtain ⟨i, hrun, hid⟩ := (hl.agent a).mp ha
  rw [← hid]
  exact h i (hl.running i hrun)

theorem Visited.undone (h : Visited visitor m₀ m) (hm : Kept m₀) (hbefore : Absent visitor m₀)
    (hafter : Absent visitor m) : Undone m₀ m := by
  have hsame : ∀ i, (m₀.vms i).initialized = true → m.vms i = m₀.vms i :=
    fun i hi => h.aside.vms i (.inl ⟨hi, hbefore i hi⟩)
  have hsame' : ∀ i, (m.vms i).initialized = true → m.vms i = m₀.vms i :=
    fun i hi => h.aside.vms i (.inr ⟨hi, hafter i hi⟩)
  have hinit : ∀ i, (m.vms i).initialized = (m₀.vms i).initialized := fun i =>
    Bool.eq_iff_iff.mpr ⟨fun hi => hsame' i hi ▸ hi, fun hi => (hsame i hi).symm ▸ hi⟩
  have hrun : ∀ i, (m.vms i).running = (m₀.vms i).running := fun i => Bool.eq_iff_iff.mpr
    ⟨fun hi => hsame' i (h.kept.consistent.running i hi) ▸ hi,
      fun hi => (hsame i (hm.consistent.running i hi)).symm ▸ hi⟩
  have hlists : SameLists m₀ m :=
    ⟨hinit, fun i hi => by rw [hsame i hi], fun i hi => by rw [hsame i hi]⟩
  have hslots : initializedSlots m = initializedSlots m₀ := by simp only [initializedSlots, hinit]
  have hrunning : runningSlots m = runningSlots m₀ := by simp only [runningSlots, hrun]
  have hagent : ∀ a, (m₀.agents.guestAgents a).initialized = true →
      m.agents.guestAgents a = m₀.agents.guestAgents a :=
    fun a ha => h.aside.agents a (hbefore.agent hm.consistent ha)
  have hagent' : ∀ a, (m.agents.guestAgents a).initialized = true →
      m.agents.guestAgents a = m₀.agents.guestAgents a :=
    fun a ha => h.aside.agents a (hafter.agent h.kept.consistent ha)
  refine ⟨hlists.pool_eq hm h.kept h.frame, ?_, hinit, hsame, ?_, fun a => ?_, hagent⟩
  · rw [h.kept.consistent.count, hm.consistent.count, hslots]
  · rw [h.kept.consistent.agentCount, hm.consistent.agentCount, hrunning]
  · exact Bool.eq_iff_iff.mpr ⟨fun ha => hagent' a ha ▸ ha, fun ha => (hagent a ha).symm ▸ ha⟩

/-- In every run of requests that concern visitors only, from any state that requests reach: the other VMs
keep their records, their agents and their memory; and when no visitor was there before and none is there
afterwards, however many came and went, the state is as before. -/
theorem visitors_leaveNoTrace (hp : InitialPool pool) (hreach : Reaches serverStep (initialServer pool stack) s)
    (hconcerns : Guarded serverStep (Concerns visitor) s turns) (hrun : run serverStep s turns = .ok s') :
    Aside visitor s.mngr s'.mngr ∧
      (∀ v, ¬ visitor v → ∀ k < s.mngr.pool.numDevs, ∀ p,
        (Owned (s'.mngr.pool.memDevs k) v p ↔ Owned (s.mngr.pool.memDevs k) v p)) ∧
      (Absent visitor s.mngr → Absent visitor s'.mngr → Undone s.mngr s'.mngr) := by
  have hm : Kept s.mngr := kept_reachable hp (server_refines hp hreach)
  have hvisited : Visited visitor s.mngr s'.mngr :=
    run_invariant_guarded (I := fun t : Server => Visited visitor s.mngr t.mngr)
      (fun _ _ _ => serverStep_visited) (.refl hm) hconcerns hrun
  exact ⟨hvisited.aside, fun v hv k hk p => hvisited.owned hm.owns hv hk p, hvisited.undone hm⟩

/-- VM 0 has half of the memory. -/
def halfUsed : List (ServerEnv × Text) :=
  [(silentEnv, "create-vm vid=0 coreset=[0]".toList), (silentEnv, "alloc-mem nid=0 vid=0 size=4".toList)]

/-- VM 5 comes, and VM 6 takes over its memory. -/
def twoVisitors : List (ServerEnv × Text) :=
  [(silentEnv, "create-vm vid=5 coreset=[1]".toList), (silentEnv, "alloc-mem nid=0 vid=5 size=4".toList),
    (silentEnv, "create-vm vid=6 coreset=[2]".toList), (silentEnv, "get-vms".toList),
    (silentEnv, "destroy-vm vid=5".toList), (silentEnv, "alloc-mem nid=0 vid=6 size=4".toList),
    (silentEnv, "destroy-vm vid=6".toList)]

theorem visitors_leaveNoTrace_twoVisitors : ∃ s s', run serverStep (initialServer smallPool []) halfUsed = .ok s ∧
    run serverStep s twoVisitors = .ok s' ∧ s.mngr.count = 1 ∧ Undone s.mngr s'.mngr := by
  have heval : (run serverStep (initialServer smallPool []) halfUsed >>= fun s =>
      (run serverStep s twoVisitors).map fun s' => (s.mngr.count,
        decide (Guarded serverStep (Concerns (0 < ·)) s twoVisitors ∧
          (∀ i, (s.mngr.vms i).initialized = true → ¬ 0 < (s.mngr.vms i).vmId) ∧
          ∀ i, (s'.mngr.vms i).initialized = true → ¬ 0 < (s'.mngr.vms i).vmId))) = .ok (1, true) := by
    decide +kernel
  obtain ⟨s, hs, hview⟩ := bind_eq_ok.mp heval
  obtain ⟨s', hs', hview⟩ := map_eq_ok.mp hview
  obtain ⟨hcount, hview⟩ := Prod.mk.inj hview
  obtain ⟨hconcerns, hbefore, hafter⟩ := of_decide_eq_true hview
  obtain ⟨_, _, hundone⟩ := visitors_leaveNoTrace smallPool_initial ⟨_, hs⟩ hconcerns hs'
  exact ⟨s, s', hs, hs', hcount, hundone hbefore hafter⟩

end Ramryder.Visitors
