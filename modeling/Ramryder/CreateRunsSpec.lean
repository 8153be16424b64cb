import Ramryder.CreatePlanSpec
import Ramryder.CreateRequests
import Ramryder.ResourceManagerSpec

/-! What interleaved runs of `create-vm` leave behind. The invariant `RunsInv` says which VM
each run holds, and that everything no run holds is as it was before the first run. -/
namespace Ramryder.CreateRunsSpec
open CInt CMachine CText Cli ClientRequests CreatePlan CreatePlanSpec CreateRequests CreateRuns GuestAgents Lifecycle
  MemoryPool MemoryPoolSpec Ownership PoolCalls PoolConfig QemuCommand ResourceManager ResourceManagerSpec Runs
  SegmentBounds VmDump VmManager VmManagerSpec

/-! ### Free segments -/

/-- A segment that is not allocated carries no id. -/
theorem free_reachable {pool : Pool} {m : Manager} (hp : InitialPool pool)
    (h : Reaches step (initialManager pool) m) {k : ℕ} (hk : k < m.pool.numDevs) {p : ℕ}
    (hfree : ¬ Busy (m.pool.memDevs k) p) : (m.pool.memDevs k).segments p = freeSegment := by
  have hid := (accounted_reachable hp h k hk).free p hfree
  have hbit : ((m.pool.memDevs k).segments p).allocated = false := by simpa [Busy] using hfree
  cases hseg : (m.pool.memDevs k).segments p with
  | mk allocated usedVmId =>
    rw [hseg] at hid hbit
    rw [show allocated = false from hbit, show usedVmId = -1 from hid]
    rfl

/-! ### What a run holds -/

/-- The id of the VM a run has created and not destroyed. -/
def held : Phase → Option ℤ
  | .planning _ | .selecting _ _ | .creating _ _ _ => none
  | .building b => some b.vmid
  | .cleaning vmid => some vmid
  | .ended launched => launched.map Prod.fst

/-- The allocations its VM must have, where the run still counts on them. -/
def owed : Phase → Option (List (ℤ × ℤ))
  | .building b => some (b.plan.allocations.take b.allocOuts.length)
  | .ended launched => launched.map fun l => l.2.allocations
  | .planning _ | .selecting _ _ | .creating _ _ _ | .cleaning _ => none

/-- What the checks and the selection of the id leave. -/
def Checked : Phase → Prop
  | .planning job | .selecting job _ => ∃ cpus, parseCpuSet job.cfg.cpuSet = some cpus
  | .creating job _ vmid => (∃ cpus, parseCpuSet job.cfg.cpuSet = some cpus) ∧ NonNegInt vmid
  | .building b => NonNegInt b.vmid
  | .cleaning vmid => NonNegInt vmid
  | .ended _ => True

/-- The nodes and sizes of the devices of a VM, in the order in which they were allocated. -/
def allocations (vm : VmInstance) : List (ℤ × ℤ) :=
  vm.attachedDevs.map fun dev => (dev.memoryReq.nodeId, dev.memoryReq.sizeMb)

variable {ι : Type} [DecidableEq ι] {pool : Pool} {m₀ m m' : Manager} {w w' : World ι}

/-- The slot of a VM a run holds: free before the runs, not started, with the devices owed. -/
structure HeldSlot (m₀ m : Manager) (phase : Phase) (v : ℤ) (i : Fin maxNumVm) : Prop where
  free : (m₀.vms i).initialized = false
  initialized : (m.vms i).initialized = true
  vmId : (m.vms i).vmId = v
  stopped : (m.vms i).running = false
  devices : ∀ l, owed phase = some l → allocations (m.vms i) = l

/-- Where the runs stand that began at `m₀`. -/
structure RunsInv (pool : Pool) (m₀ : Manager) (w : World ι) : Prop where
  reach : Reaches step (initialManager pool) w.server.mngr
  geometry : SameGeometry m₀.pool w.server.mngr.pool
  checked : ∀ r, Checked (w.phases r)
  kept : ∀ i, (m₀.vms i).initialized = true → w.server.mngr.vms i = m₀.vms i
  created : ∀ i, (w.server.mngr.vms i).initialized = true → (m₀.vms i).initialized = false →
    ∃ r, held (w.phases r) = some (w.server.mngr.vms i).vmId
  slot : ∀ r v, held (w.phases r) = some v → ∃ i, HeldSlot m₀ w.server.mngr (w.phases r) v i
  distinct : ∀ r r' v, held (w.phases r) = some v → held (w.phases r') = some v → r = r'
  others : ∀ k < m₀.pool.numDevs, ∀ p,
    (∀ r v, held (w.phases r) = some v → ¬ Owned (w.server.mngr.pool.memDevs k) v p) →
      (w.server.mngr.pool.memDevs k).segments p = (m₀.pool.memDevs k).segments p
  taken : ∀ k < m₀.pool.numDevs, ∀ p r v, held (w.phases r) = some v →
    Owned (w.server.mngr.pool.memDevs k) v p → (m₀.pool.memDevs k).segments p = freeSegment

/-- Every VM but the one with id `v` is as it was, and owns the segments it owned. -/
def KeepsOthers (v : Option ℤ) (m m' : Manager) : Prop :=
  ∀ i, (m.vms i).initialized = true → v ≠ some (m.vms i).vmId →
    m'.vms i = m.vms i ∧ ∀ k < m.pool.numDevs, ∀ p,
      Owned (m'.pool.memDevs k) (m.vms i).vmId p ↔ Owned (m.pool.memDevs k) (m.vms i).vmId p

theorem KeepsOthers.refl (v : Option ℤ) (m : Manager) : KeepsOthers v m m :=
  fun _ _ _ => ⟨rfl, fun _ _ _ => Iff.rfl⟩

@[simp] theorem setPhase_server (w : World ι) (server : Server) (r : ι) (phase : Phase) :
    (w.setPhase server r phase).server = server := rfl

theorem setPhase_phases (w : World ι) (server : Server) (r r' : ι) (phase : Phase) :
    (w.setPhase server r phase).phases r' = if r' = r then phase else w.phases r' := by
  simp [World.setPhase, Function.update_apply]

variable {r : ι} {phase : Phase} {server : Server}

theorem setPhase_self (w : World ι) (server : Server) (r : ι) (phase : Phase) :
    (w.setPhase server r phase).phases r = phase := by
  rw [setPhase_phases, if_pos rfl]

theorem setPhase_other {r' : ι} (w : World ι) (server : Server) (phase : Phase) (hr : r' ≠ r) :
    (w.setPhase server r phase).phases r' = w.phases r' := by
  rw [setPhase_phases, if_neg hr]

theorem RunsInv.checked_setPhase (hi : RunsInv pool m₀ w) (hc : Checked phase) (server : Server)
    (r' : ι) : Checked ((w.setPhase server r phase).phases r') := by
  rw [setPhase_phases]
  split_ifs
  · exact hc
  · exact hi.checked r'

/-! ### A turn that leaves the manager alone -/

theorem RunsInv.silent (hi : RunsInv pool m₀ w) (hs : server.mngr = w.server.mngr)
    (hheld : held phase = held (w.phases r))
    (howed : ∀ l, owed phase = some l → owed (w.phases r) = some l) (hc : Checked phase) :
    RunsInv pool m₀ (w.setPhase server r phase) := by
  have hsame : ∀ r', held ((w.setPhase server r phase).phases r') = held (w.phases r') := by
    intro r'
    rw [setPhase_phases]
    split_ifs with hr
    · rw [hr, hheld]
    · rfl
  refine {
    reach := by simpa only [setPhase_server, hs] using hi.reach
    geometry := by simpa only [setPhase_server, hs] using hi.geometry
    checked := hi.checked_setPhase hc server
    kept := by simpa only [setPhase_server, hs] using hi.kept
    created := by simpa only [setPhase_server, hs, hsame] using hi.created
    slot := ?slot
    distinct := by simpa only [hsame] using hi.distinct
    others := by simpa only [setPhase_server, hs, hsame] using hi.others
    taken := by simpa only [setPhase_server, hs, hsame] using hi.taken }
  case slot =>
    simp only [setPhase_server, hs, hsame]
    intro r' v hv
    obtain ⟨i, hslot⟩ := hi.slot r' v hv
    refine ⟨i, hslot.free, hslot.initialized, hslot.vmId, hslot.stopped, fun l hl => ?_⟩
    rw [setPhase_phases] at hl
    split_ifs at hl with hr
    · exact hslot.devices l (hr ▸ howed l hl)
    · exact hslot.devices l hl

/-! ### A call that changes one slot -/

theorem held_setPhase {v vid : ℤ} {r' : ι} (hheld : held phase = some vid)
    (hv : held ((w.setPhase server r phase).phases r') = some v) :
    (r' = r ∧ v = vid) ∨ (r' ≠ r ∧ held (w.phases r') = some v) := by
  rw [setPhase_phases] at hv
  split_ifs at hv with hr
  · rw [hheld] at hv
    exact .inl ⟨hr, (Option.some.inj hv).symm⟩
  · exact .inr ⟨hr, hv⟩

theorem HeldSlot.congr {v : ℤ} {i : Fin maxNumVm} (h : HeldSlot m₀ m phase v i)
    (hvm : m'.vms i = m.vms i) : HeldSlot m₀ m' phase v i where
  free := h.free
  initialized := by rw [hvm, h.initialized]
  vmId := by rw [hvm, h.vmId]
  stopped := by rw [hvm, h.stopped]
  devices := fun l hl => by rw [hvm, h.devices l hl]

omit [DecidableEq ι] in
/-- A VM from before the runs is not in a slot that was free then. -/
theorem RunsInv.kept_other (hi : RunsInv pool m₀ w) {i : Fin maxNumVm}
    (hother : ∀ j, j ≠ i → m'.vms j = w.server.mngr.vms j) (hfree : (m₀.vms i).initialized = false)
    (j : Fin maxNumVm) (hj : (m₀.vms j).initialized = true) : m'.vms j = m₀.vms j := by
  have hne : j ≠ i := by
    rintro rfl
    rw [hfree] at hj
    cases hj
  rw [hother j hne, hi.kept j hj]

omit [DecidableEq ι] in
/-- The slot of a held VM is the one the server finds. -/
theorem RunsInv.getInstance (hi : RunsInv pool m₀ w) (hp : InitialPool pool) {v : ℤ}
    (hv : held (w.phases r) = some v) : ∃ i, HeldSlot m₀ w.server.mngr (w.phases r) v i ∧
      vmMngrGetInstance w.server.mngr v = some i := by
  obtain ⟨i, hslot⟩ := hi.slot r v hv
  exact ⟨i, hslot, (owns_reachable hp hi.reach).ids.getInstance hslot.initialized hslot.vmId⟩

omit [DecidableEq ι] in
/-- Held VMs in one slot are held by one run. -/
theorem RunsInv.slot_inj (hi : RunsInv pool m₀ w) {r' : ι} {v v' : ℤ} {i : Fin maxNumVm}
    (hv : held (w.phases r) = some v) (hv' : held (w.phases r') = some v')
    (hid : (w.server.mngr.vms i).vmId = v) (hid' : (w.server.mngr.vms i).vmId = v') : r' = r :=
  hi.distinct r' r v (hid ▸ hid' ▸ hv') hv

/-- The VM of another run is in another slot, and is as it was. -/
theorem RunsInv.slot_other (hi : RunsInv pool m₀ w) {r' : ι} {v vid : ℤ} {i : Fin maxNumVm}
    (hslot : HeldSlot m₀ w.server.mngr (w.phases r) vid i) (hold : held (w.phases r) = some vid)
    (hother : ∀ j, j ≠ i → server.mngr.vms j = w.server.mngr.vms j) (hr : r' ≠ r)
    (hv : held (w.phases r') = some v) :
    ∃ q, HeldSlot m₀ server.mngr ((w.setPhase server r phase).phases r') v q := by
  obtain ⟨q, hq⟩ := hi.slot r' v hv
  have hne : q ≠ i := by
    rintro rfl
    exact hr (hi.slot_inj hold hv hslot.vmId hq.vmId)
  rw [setPhase_other w server phase hr]
  exact ⟨q, hq.congr (hother q hne)⟩

/-! ### A turn that creates a VM -/

/-- A VM is created in a slot that was free. -/
structure Creation (m m' : Manager) (vid : ℤ) (i : Fin maxNumVm) : Prop where
  free : (m.vms i).initialized = false
  unnamed : vmMngrGetInstance m vid = none
  pool : m'.pool = m.pool
  others : ∀ j, j ≠ i → m'.vms j = m.vms j
  initialized : (m'.vms i).initialized = true
  vmId : (m'.vms i).vmId = vid
  running : (m'.vms i).running = (m.vms i).running
  attachedDevs : (m'.vms i).attachedDevs = []

theorem vmMngrInstanceCreate_creation {vid : ℤ} {start : Text}
    (h : vmMngrInstanceCreate m vid start = .ok (0, m')) : ∃ i, Creation m m' vid i := by
  rcases vmMngrInstanceCreate_ok h with ⟨h, _⟩ | ⟨_, _, hnew, i, n, hfree, _, rfl⟩
  · exact absurd h (by decide)
  have hself : ({ m.setVm i (VmManagerSpec.createdVm (m.vms i) vid start n) with
      count := m.count + 1 } : Manager).vms i = VmManagerSpec.createdVm (m.vms i) vid start n :=
    setVm_vms_self m i _
  refine ⟨i, hfree, hnew, rfl, fun j hj => setVm_vms_other m _ hj, ?_, ?_, ?_, ?_⟩
  all_goals
    rw [hself]
    rfl

theorem Creation.live_ne {vid : ℤ} {i j : Fin maxNumVm} (hcr : Creation m m' vid i)
    (hj : (m.vms j).initialized = true) : j ≠ i := by
  rintro rfl
  rw [hcr.free] at hj
  cases hj

theorem Creation.keepsOthers {vid : ℤ} {i : Fin maxNumVm} (hcr : Creation m m' vid i) :
    KeepsOthers none m m' :=
  fun j hj _ => ⟨hcr.others j (hcr.live_ne hj), fun k _ p => by rw [hcr.pool]⟩

omit [DecidableEq ι] in
theorem RunsInv.unheld (hi : RunsInv pool m₀ w) {vid : ℤ}
    (hnew : vmMngrGetInstance w.server.mngr vid = none) (r : ι) : held (w.phases r) ≠ some vid := by
  intro hv
  obtain ⟨j, hslot⟩ := hi.slot r vid hv
  exact vmMngrGetInstance_eq_none hnew hslot.initialized hslot.vmId

theorem RunsInv.createdVm (hi : RunsInv pool m₀ w) (hp : InitialPool pool) {vid : ℤ} {start : Text}
    (hcreate : vmMngrInstanceCreate w.server.mngr vid start = .ok (0, server.mngr))
    (hnone : held (w.phases r) = none) (hheld : held phase = some vid)
    (howed : ∀ l, owed phase = some l → l = []) (hc : Checked phase) :
    RunsInv pool m₀ (w.setPhase server r phase) ∧
      KeepsOthers none w.server.mngr server.mngr := by
  obtain ⟨ho, hl⟩ := consistent_reachable hp hi.reach
  have hstep : step w.server.mngr (.create vid start) = .ok server.mngr := by
    rw [step, hcreate]
    rfl
  obtain ⟨i, hcr⟩ := vmMngrInstanceCreate_creation hcreate
  have hfree : (m₀.vms i).initialized = false := by
    by_contra hinit
    have hinit : (m₀.vms i).initialized = true := by simpa using hinit
    exact hcr.live_ne (hi.kept i hinit ▸ hinit) rfl
  have hstopped : (w.server.mngr.vms i).running = false := by
    by_contra hrun
    exact hcr.live_ne (hl.running i (by simpa using hrun)) rfl
  have hne : ∀ r' v, held (w.phases r') = some v → r' ≠ r := by
    rintro r' v hv rfl
    rw [hnone] at hv
    cases hv
  refine ⟨{
    reach := hi.reach.tail hstep
    geometry := hcr.pool ▸ hi.geometry
    checked := hi.checked_setPhase hc server
    kept := hi.kept_other hcr.others hfree
    created := ?created
    slot := ?slot
    distinct := ?distinct
    others := ?others
    taken := ?taken }, hcr.keepsOthers⟩
  case created =>
    intro j hj hfresh
    rw [setPhase_server] at hj ⊢
    by_cases hji : j = i
    · refine ⟨r, ?_⟩
      rw [setPhase_self, hheld, hji, hcr.vmId]
    · rw [hcr.others j hji] at hj ⊢
      obtain ⟨r', hr'⟩ := hi.created j hj hfresh
      exact ⟨r', by rwa [setPhase_other w server phase (hne r' _ hr')]⟩
  case slot =>
    intro r' v hv
    rw [setPhase_server]
    rcases held_setPhase hheld hv with ⟨rfl, rfl⟩ | ⟨hr, hv⟩
    · refine ⟨i, hfree, hcr.initialized, hcr.vmId, hcr.running.trans hstopped, fun l hl => ?_⟩
      rw [setPhase_self] at hl
      rw [howed l hl, allocations, hcr.attachedDevs, List.map_nil]
    · obtain ⟨j, hslot⟩ := hi.slot r' v hv
      rw [setPhase_other w server phase hr]
      exact ⟨j, hslot.congr (hcr.others j (hcr.live_ne hslot.initialized))⟩
  case distinct =>
    intro r₁ r₂ v h₁ h₂
    rcases held_setPhase hheld h₁ with ⟨hr₁, hv⟩ | ⟨_, g₁⟩
    · rcases held_setPhase hheld h₂ with ⟨hr₂, _⟩ | ⟨_, g₂⟩
      · rw [hr₁, hr₂]
      · exact absurd g₂ (hv ▸ hi.unheld hcr.unnamed r₂)
    · rcases held_setPhase hheld h₂ with ⟨_, hv⟩ | ⟨_, g₂⟩
      · exact absurd g₁ (hv ▸ hi.unheld hcr.unnamed r₁)
      · exact hi.distinct r₁ r₂ v g₁ g₂
  case others =>
    intro k hk p hno
    rw [setPhase_server, hcr.pool] at hno ⊢
    refine hi.others k hk p fun r' v hv => ?_
    exact hno r' v (by rwa [setPhase_other w server phase (hne r' v hv)])
  case taken =>
    intro k hk p r' v hv hown
    rw [setPhase_server, hcr.pool] at hown
    rcases held_setPhase hheld hv with ⟨rfl, rfl⟩ | ⟨_, hv⟩
    · -- no segment carries the id of a VM that was not there
      obtain ⟨j, hj, hjown⟩ := ho.owner k (hi.geometry.numDevs ▸ hk) p hown.1
      exact absurd (hjown.2.symm.trans hown.2) (vmMngrGetInstance_eq_none hcr.unnamed hj)
    · exact hi.taken k hk p r' v hv hown

/-! ### A turn that allocates memory -/

/-- Segments that were free are handed out to a VM, as one device more of its list. -/
structure Handout (m m' : Manager) (vid nid sizeMb : ℤ) (i : Fin maxNumVm) (k lo n : ℕ) : Prop
    extends Relisted m m' i where
  id : (m.vms i).vmId = vid
  same : ∀ j, j ≠ i → m'.vms j = m.vms j
  running : (m'.vms i).running = (m.vms i).running
  allocations : allocations (m'.vms i) = allocations (m.vms i) ++ [(nid, sizeMb)]
  free : ∀ p, lo ≤ p → p < lo + n → ¬ Busy (m.pool.memDevs k) p
  owned : ∀ q p v, Owned (m'.pool.memDevs q) v p ↔
    if q = k ∧ lo ≤ p ∧ p < lo + n then vid = v else Owned (m.pool.memDevs q) v p
  segments : ∀ q p, ¬ (q = k ∧ lo ≤ p ∧ p < lo + n) →
    (m'.pool.memDevs q).segments p = (m.pool.memDevs q).segments p

theorem vmMngrInstanceAllocMem_handout (ho : Owns m) {vid nid sizeMb : ℤ} {res : VmMemReq}
    (h : vmMngrInstanceAllocMem m nid vid sizeMb = .ok (some res, m')) :
    ∃ i k lo n, vmMngrGetInstance m vid = some i ∧ Handout m m' vid nid sizeMb i k lo n := by
  rcases vmMngrInstanceAllocMem_ok ho.geometry.segmentSize h with
    ⟨h, _⟩ | ⟨i, req, pool', k, lo, n, hget, hal, _, _, rfl⟩
  · cases h
  have hself : ({ m.setVm i (attachedVm (m.vms i) req) with pool := pool' } : Manager).vms i =
      attachedVm (m.vms i) req := setVm_vms_self m i _
  refine ⟨i, k, lo, n, hget, {
    toRelisted := relisted_setVm (allocation_sameGeometry hal) rfl rfl (by simp [attachedVm])
    id := (vmMngrGetInstance_eq_some hget).2
    same := fun j hj => setVm_vms_other m _ hj
    running := by rw [hself]; rfl
    allocations := ?allocations
    free := fun p hlo hhi => hal.fit.free.not_busy hlo hhi
    owned := fun q p v => allocation_owned hal
    segments := ?segments }⟩
  case allocations =>
    have hreq : (req.nodeId, req.sizeMb) = (nid, sizeMb) := by
      rw [hal.request, hal.size]
    rw [hself, CreateRunsSpec.allocations, attachedVm, List.map_append, List.map_singleton, hreq]
    rfl
  case segments =>
    intro q p hout
    dsimp only
    rw [hal.after, setDev_memDevs]
    split_ifs with hq
    · rw [allocated, setRange_segments, if_neg fun hin => hout ⟨hq, hin⟩, hq]
    · rfl

theorem Handout.keepsOthers {vid nid sizeMb : ℤ} {i : Fin maxNumVm} {k lo n : ℕ}
    (hh : Handout m m' vid nid sizeMb i k lo n) : KeepsOthers (some vid) m m' := by
  intro q _ hne
  have hqi : q ≠ i := by
    rintro rfl
    exact hne (congrArg some hh.id.symm)
  refine ⟨hh.same q hqi, fun q' _ p => ?_⟩
  rw [hh.owned]
  by_cases hin : q' = k ∧ lo ≤ p ∧ p < lo + n
  · rw [if_pos hin]
    obtain ⟨rfl, hlo, hhi⟩ := hin
    exact iff_of_false (fun heq => hne (congrArg some heq)) fun hown => hh.free p hlo hhi hown.1
  · rw [if_neg hin]

theorem RunsInv.allocatedMem (hi : RunsInv pool m₀ w) (hp : InitialPool pool)
    {vid nid sizeMb : ℤ} {res : VmMemReq}
    (halloc : vmMngrInstanceAllocMem w.server.mngr nid vid sizeMb = .ok (some res, server.mngr))
    (hold : held (w.phases r) = some vid) (hheld : held phase = some vid)
    (howed : ∀ l, owed phase = some l →
      ∃ l₀, owed (w.phases r) = some l₀ ∧ l = l₀ ++ [(nid, sizeMb)])
    (hc : Checked phase) :
    RunsInv pool m₀ (w.setPhase server r phase) ∧
      KeepsOthers (some vid) w.server.mngr server.mngr := by
  have ho := owns_reachable hp hi.reach
  have hstep : step w.server.mngr (.allocMem nid vid sizeMb) = .ok server.mngr := by
    rw [step, halloc]
    rfl
  obtain ⟨i, k, lo, n, hget, hh⟩ := vmMngrInstanceAllocMem_handout ho halloc
  obtain ⟨j, hslot, hgetj⟩ := hi.getInstance hp hold
  obtain rfl : j = i := Option.some.inj (hgetj.symm.trans hget)
  have hheldSame : ∀ r', held ((w.setPhase server r phase).phases r') = held (w.phases r') := by
    intro r'
    rw [setPhase_phases]
    split_ifs with hr
    · rw [hr, hheld, hold]
    · rfl
  refine ⟨{
    reach := hi.reach.tail hstep
    geometry := hi.geometry.trans hh.geometry
    checked := hi.checked_setPhase hc server
    kept := hi.kept_other hh.same hslot.free
    created := ?created
    slot := ?slot
    distinct := by simpa only [hheldSame] using hi.distinct
    others := ?others
    taken := ?taken }, hh.keepsOthers⟩
  case created =>
    intro q hq hfresh
    rw [setPhase_server] at hq ⊢
    rw [hh.initialized] at hq
    simp only [hh.vmId, hheldSame]
    exact hi.created q hq hfresh
  case slot =>
    intro r' v hv
    rw [hheldSame] at hv
    by_cases hr : r' = r
    · subst hr
      obtain rfl : vid = v := Option.some.inj (hold.symm.trans hv)
      refine ⟨j, hslot.free, (hh.initialized j).trans hslot.initialized,
        (hh.vmId j).trans hslot.vmId, hh.running.trans hslot.stopped, fun l hl => ?_⟩
      rw [setPhase_self] at hl
      obtain ⟨l₀, hl₀, rfl⟩ := howed l hl
      rw [setPhase_server, hh.allocations, hslot.devices l₀ hl₀]
    · exact hi.slot_other hslot hold hh.same hr hv
  case others =>
    intro q hq p hno
    rw [setPhase_server] at hno ⊢
    simp only [hheldSame] at hno
    by_cases hin : q = k ∧ lo ≤ p ∧ p < lo + n
    · refine absurd ?_ (hno r vid hold)
      rw [hh.owned, if_pos hin]
    · rw [hh.segments q p hin]
      refine hi.others q hq p fun r' v hv hown => hno r' v hv ?_
      rwa [hh.owned, if_neg hin]
  case taken =>
    intro q hq p r' v hv hown
    rw [setPhase_server, hh.owned] at hown
    rw [hheldSame] at hv
    by_cases hin : q = k ∧ lo ≤ p ∧ p < lo + n
    · -- the segment was free, so no run held it and it is as it was
      obtain ⟨rfl, hlo, hhi⟩ := hin
      have hfree := hh.free p hlo hhi
      rw [← hi.others q hq p fun r' v _ hown => hfree hown.1]
      exact free_reachable hp hi.reach (hi.geometry.numDevs ▸ hq) hfree
    · rw [if_neg hin] at hown
      exact hi.taken q hq p r' v hv hown

/-! ### A turn that destroys a VM -/

theorem vmMngrInstanceDestroy_stopped {vid ret : ℤ} {i : Fin maxNumVm}
    (hget : vmMngrGetInstance m vid = some i) (hstopped : (m.vms i).running = false)
    (h : vmMngrInstanceDestroy m vid = .ok (ret, m')) : ret = 0 := by
  simp only [vmMngrInstanceDestroy, hget, hstopped] at h
  obtain ⟨pool', _, h⟩ := bind_eq_ok.mp h
  cases h
  rfl

/-- A VM is destroyed, and what it owned is free. -/
structure Destruction (m m' : Manager) (vid : ℤ) (i : Fin maxNumVm) : Prop where
  vmId : (m.vms i).vmId = vid
  gone : (m'.vms i).initialized = false
  others : ∀ j, j ≠ i → m'.vms j = m.vms j
  geometry : SameGeometry m.pool m'.pool
  owned : ∀ k < m.pool.numDevs, ∀ p v, Owned (m'.pool.memDevs k) v p ↔
    Owned (m.pool.memDevs k) v p ∧ v ≠ vid
  segments : ∀ k < m.pool.numDevs, ∀ p, (m'.pool.memDevs k).segments p =
    if Owned (m.pool.memDevs k) vid p then freeSegment else (m.pool.memDevs k).segments p

theorem vmMngrInstanceDestroy_destruction (ho : Owns m) {vid : ℤ}
    (h : vmMngrInstanceDestroy m vid = .ok (0, m')) :
    ∃ i, vmMngrGetInstance m vid = some i ∧ Destruction m m' vid i := by
  rcases vmMngrInstanceDestroy_ok h with ⟨h, _⟩ | ⟨_, i, hget, _, rfl⟩
  · exact absurd h (by decide)
  refine ⟨i, hget, (vmMngrGetInstance_eq_some hget).2, ?_, fun j hj => setVm_vms_other m _ hj,
    vmReleasedPool_sameGeometry _ _ _ _,
    fun k hk p v => vmReleasedPool_owned hk fun hb => (ho.limit hk hb).1, fun k hk p => ?_⟩
  · exact congrArg VmInstance.initialized (setVm_vms_self m i _)
  · have hdev : (vmReleasedPool m.pool vid 0 m.pool.numDevs).memDevs k =
        vmReleased (m.pool.memDevs k) vid 0 (m.pool.memDevs k).totalSegments.toNat := by
      simp [vmReleasedPool, hk]
    dsimp only
    rw [hdev, vmReleased_segments]
    by_cases hown : Owned (m.pool.memDevs k) vid p
    · have hlt := (ho.limit hk hown.1).1
      rw [if_pos hown, if_pos ⟨⟨Nat.zero_le _, by omega⟩, hown⟩]
    · rw [if_neg hown, if_neg fun h => hown h.2]

theorem Destruction.keepsOthers {vid : ℤ} {i : Fin maxNumVm} (hd : Destruction m m' vid i) :
    KeepsOthers (some vid) m m' := by
  intro q _ hne
  have hqi : q ≠ i := by
    rintro rfl
    exact hne (congrArg some hd.vmId.symm)
  refine ⟨hd.others q hqi, fun k hk p => ?_⟩
  rw [hd.owned k hk p]
  exact and_iff_left fun heq => hne (congrArg some heq.symm)

theorem RunsInv.destroyedVm (hi : RunsInv pool m₀ w) (hp : InitialPool pool) {vid ret : ℤ}
    (hdestroy : vmMngrInstanceDestroy w.server.mngr vid = .ok (ret, server.mngr))
    (hold : held (w.phases r) = some vid) (hheld : held phase = none) (hc : Checked phase) :
    RunsInv pool m₀ (w.setPhase server r phase) ∧
      KeepsOthers (some vid) w.server.mngr server.mngr := by
  have ho := owns_reachable hp hi.reach
  have hstep : step w.server.mngr (.destroy vid) = .ok server.mngr := by
    rw [step, hdestroy]
    rfl
  obtain ⟨i, hslot, hget⟩ := hi.getInstance hp hold
  obtain rfl := vmMngrInstanceDestroy_stopped hget hslot.stopped hdestroy
  obtain ⟨j, hgetj, hd⟩ := vmMngrInstanceDestroy_destruction ho hdestroy
  obtain rfl : i = j := Option.some.inj (hget.symm.trans hgetj)
  have hwas : ∀ r' v, held ((w.setPhase server r phase).phases r') = some v →
      r' ≠ r ∧ held (w.phases r') = some v := by
    intro r' v hv
    rw [setPhase_phases] at hv
    split_ifs at hv with hr
    · rw [hheld] at hv
      cases hv
    · exact ⟨hr, hv⟩
  refine ⟨{
    reach := hi.reach.tail hstep
    geometry := hi.geometry.trans hd.geometry
    checked := hi.checked_setPhase hc server
    kept := hi.kept_other hd.others hslot.free
    created := ?created
    slot := ?slot
    distinct := ?distinct
    others := ?others
    taken := ?taken }, hd.keepsOthers⟩
  case created =>
    intro q hq hfresh
    rw [setPhase_server] at hq ⊢
    have hne : q ≠ i := by
      rintro rfl
      rw [hd.gone] at hq
      cases hq
    rw [hd.others q hne] at hq ⊢
    obtain ⟨r', hr'⟩ := hi.created q hq hfresh
    have hr : r' ≠ r := by
      rintro rfl
      have hid : vid = (w.server.mngr.vms q).vmId := Option.some.inj (hold.symm.trans hr')
      exact hne (ho.ids q i hq hslot.initialized (hid.symm.trans hslot.vmId.symm))
    exact ⟨r', by rwa [setPhase_other w server phase hr]⟩
  case slot =>
    intro r' v hv
    obtain ⟨hr, hv⟩ := hwas r' v hv
    exact hi.slot_other hslot hold hd.others hr hv
  case distinct =>
    exact fun r₁ r₂ v h₁ h₂ => hi.distinct r₁ r₂ v (hwas r₁ v h₁).2 (hwas r₂ v h₂).2
  case others =>
    intro k hk p hno
    have hk' := hi.geometry.numDevs ▸ hk
    rw [setPhase_server] at hno ⊢
    rw [hd.segments k hk' p]
    by_cases hown : Owned (w.server.mngr.pool.memDevs k) vid p
    · rw [if_pos hown, hi.taken k hk p r vid hold hown]
    · rw [if_neg hown]
      refine hi.others k hk p fun r' v hv hvown => ?_
      by_cases hr : r' = r
      · rw [hr, hold] at hv
        exact hown (Option.some.inj hv ▸ hvown)
      · refine hno r' v (by rwa [setPhase_other w server phase hr])
          ((hd.owned k hk' p v).mpr ⟨hvown, ?_⟩)
        rintro rfl
        exact hr (hi.distinct r' r v hv hold)
  case taken =>
    intro k hk p r' v hv hown
    exact hi.taken k hk p r' v (hwas r' v hv).2
      ((hd.owned k (hi.geometry.numDevs ▸ hk) p v).mp hown).1

/-! ### Every turn -/

variable {qemuBin : Text} {t : Turn ι}

/-- A request whose numbers `%d` reads back. -/
def Fits : ClientCall → Prop
  | .allocMem nid _ sizeMb => InInt nid ∧ InInt sizeMb
  | _ => True

/-- The turn sends no node id and no size that does not fit an `int`. -/
def Fitting (w : World ι) (t : Turn ι) : Prop :=
  ∀ call, (w.phases t.run).request = some call → Fits call

/-- What the turn of run `r` leaves of the VMs that are not its own. -/
structure TurnSafe (r : ι) (w w' : World ι) : Prop where
  others : KeepsOthers (held (w.phases r)) w.server.mngr w'.server.mngr
  apart : ∀ r' v, r' ≠ r → held (w.phases r') = some v → held (w.phases r) ≠ some v

theorem turn_ok (h : turn qemuBin w t = .ok w') :
    (∃ call response server, (w.phases t.run).request = some call ∧
      rpcServe t.env w.server call.request = .ok (response, server) ∧
      w' = w.setPhase server t.run ((w.phases t.run).receive (clientText response))) ∨
    ((w.phases t.run).request = none ∧
      w' = w.setPhase w.server t.run ((w.phases t.run).launch qemuBin t.started)) := by
  unfold turn at h
  dsimp only at h
  split at h
  · rename_i call hcall
    obtain ⟨⟨response, server⟩, hserve, h⟩ := bind_eq_ok.mp h
    cases h
    exact .inl ⟨call, response, server, hcall, hserve, rfl⟩
  · rename_i hnone
    cases h
    exact .inr ⟨hnone, rfl⟩

/-- A silent turn, with what it leaves of the other VMs. -/
theorem RunsInv.silent_turn (hi : RunsInv pool m₀ w) (hs : server.mngr = w.server.mngr)
    (hheld : held phase = held (w.phases r))
    (howed : ∀ l, owed phase = some l → owed (w.phases r) = some l) (hc : Checked phase) :
    RunsInv pool m₀ (w.setPhase server r phase) ∧
      KeepsOthers (held (w.phases r)) w.server.mngr server.mngr := by
  refine ⟨hi.silent hs hheld howed hc, ?_⟩
  rw [hs]
  exact .refl _ _

theorem take_nextAlloc {b : Building} {a : ℤ × ℤ} (h : b.nextAlloc = some a) :
    b.plan.allocations.take (b.allocOuts.length + 1) =
      b.plan.allocations.take b.allocOuts.length ++ [a] := by
  rw [List.take_add_one, show b.plan.allocations[b.allocOuts.length]? = some a from h]
  rfl

theorem RunsInv.building_turn (hi : RunsInv pool m₀ w) (hp : InitialPool pool) {b : Building}
    {call : ClientCall} {response : Text} (hphase : w.phases r = .building b)
    (hcall : (Phase.building b).request = some call) (hfits : Fits call) {env : ServerEnv}
    (hserve : rpcServe env w.server call.request = .ok (response, server)) :
    RunsInv pool m₀ (w.setPhase server r (b.receive (clientText response))) ∧
      KeepsOthers (some b.vmid) w.server.mngr server.mngr := by
  have ho := owns_reachable hp hi.reach
  have hheld : held (w.phases r) = some b.vmid := by
    rw [hphase]
    rfl
  have howed : owed (w.phases r) = some (b.plan.allocations.take b.allocOuts.length) := by
    rw [hphase]
    rfl
  have hvid : NonNegInt b.vmid := by
    have hc := hi.checked r
    rwa [hphase] at hc
  -- the run cleans up after an answer it cannot use
  have hcleaning : server.mngr = w.server.mngr →
      RunsInv pool m₀ (w.setPhase server r (.cleaning b.vmid)) ∧
        KeepsOthers (some b.vmid) w.server.mngr server.mngr := fun hs =>
    hheld ▸ hi.silent_turn hs hheld.symm nofun hvid
  unfold Building.receive
  unfold Phase.request at hcall
  dsimp only at hcall
  cases halloc : b.nextAlloc with
  | some a =>
    obtain ⟨nid, sizeMb⟩ := a
    rw [halloc] at hcall
    cases hcall
    rcases served_allocMem ho hfits.1 hvid.inInt hfits.2 hserve with ⟨hs, hid⟩ | ⟨req, hs⟩
    · cases hmem : allocMemId (clientText response) with
      | ok memId =>
        rw [hmem] at hid
        cases hid
      | error e =>
        dsimp only
        exact hcleaning hs
    · cases hmem : allocMemId (clientText response) with
      | ok memId =>
        dsimp only
        refine hi.allocatedMem hp hs hheld rfl (fun l hl => ⟨_, howed, ?_⟩) hvid
        have hl : some (b.plan.allocations.take (b.allocOuts ++ [clientText response]).length) =
            some l := hl
        rw [List.length_append, List.length_singleton, take_nextAlloc halloc] at hl
        exact (Option.some.inj hl).symm
      | error e =>
        dsimp only
        exact hi.allocatedMem hp hs hheld rfl nofun hvid
  | none =>
    rw [halloc] at hcall
    obtain ⟨nid, _, rfl⟩ := Option.map_eq_some_iff.mp hcall
    have hs := served_getNodeInfo hserve
    cases nodeInfoOut (clientText response) with
    | ok info =>
      dsimp only
      rw [← hheld]
      exact hi.silent_turn hs hheld.symm (fun l hl => howed.trans hl) hvid
    | error e =>
      dsimp only
      exact hcleaning hs

theorem launch_cases (qemuBin : Text) (started : Bool) (phase : Phase) :
    phase.launch qemuBin started = phase ∨ ∃ b, phase = .building b ∧
      (phase.launch qemuBin started = .cleaning b.vmid ∨
        phase.launch qemuBin started = .ended (some (b.vmid, b.plan))) := by
  cases phase with
  | building b =>
    refine .inr ⟨b, rfl, ?_⟩
    unfold Phase.launch
    dsimp only
    cases buildQemuCmd qemuBin b.job b.vmid b.plan b.allocOuts b.nodeOuts with
    | error e => exact .inl rfl
    | ok command =>
      dsimp only
      split_ifs
      · exact .inr rfl
      · exact .inl rfl
  | planning job => exact .inl rfl
  | selecting job plan => exact .inl rfl
  | creating job plan vmid => exact .inl rfl
  | cleaning vmid => exact .inl rfl
  | ended launched => exact .inl rfl

theorem nextAlloc_none {b : Building} (h : (Phase.building b).request = none) :
    b.nextAlloc = none := by
  unfold Phase.request at h
  dsimp only at h
  cases halloc : b.nextAlloc with
  | none => rfl
  | some a =>
    rw [halloc] at h
    cases h

theorem RunsInv.launch_turn (hi : RunsInv pool m₀ w) (hnone : (w.phases r).request = none)
    (started : Bool) :
    RunsInv pool m₀ (w.setPhase w.server r ((w.phases r).launch qemuBin started)) ∧
      KeepsOthers (held (w.phases r)) w.server.mngr w.server.mngr := by
  have hc := hi.checked r
  rcases launch_cases qemuBin started (w.phases r) with hsame | ⟨b, hphase, hend⟩
  · rw [hsame]
    exact hi.silent_turn rfl rfl (fun _ hl => hl) hc
  · have hheld : held (w.phases r) = some b.vmid := by
      rw [hphase]
      rfl
    have hall : owed (w.phases r) = some b.plan.allocations := by
      have hdone := nextAlloc_none (hphase ▸ hnone)
      rw [hphase, owed, List.take_of_length_le (List.getElem?_eq_none_iff.mp hdone)]
    rcases hend with hend | hend
    · rw [hphase] at hc
      rw [hend]
      exact hi.silent_turn rfl hheld.symm nofun hc
    · rw [hend]
      exact hi.silent_turn rfl hheld.symm (fun l hl => hall.trans hl) trivial

/-- The step lemma: one turn keeps the invariant and the VMs of all other runs. -/
theorem runsInv_turn (hi : RunsInv pool m₀ w) (hp : InitialPool pool) (hfits : Fitting w t)
    (h : turn qemuBin w t = .ok w') :
    RunsInv pool m₀ w' ∧
      KeepsOthers (held (w.phases t.run)) w.server.mngr w'.server.mngr := by
  obtain ⟨ho, hl⟩ := consistent_reachable hp hi.reach
  have hc := hi.checked t.run
  rcases turn_ok h with ⟨call, response, server, hcall, hserve, rfl⟩ | ⟨hnone, rfl⟩
  · have hcallFits := hfits call hcall
    rw [setPhase_server]
    cases hphase : w.phases t.run with
    | planning job =>
      rw [hphase] at hcall hc
      cases hcall
      obtain ⟨hs, _⟩ := served_getMemPool hserve
      unfold Phase.receive
      dsimp only
      rw [← hphase]
      cases buildMemoryPlan job.cfg (clientText response) with
      | error e => exact hi.silent_turn hs (by rw [hphase]; rfl) nofun trivial
      | ok plan => exact hi.silent_turn hs (by rw [hphase]; rfl) nofun hc
    | selecting job plan =>
      rw [hphase] at hcall hc
      cases hcall
      obtain ⟨hs, hresponse⟩ := served_getVms hserve
      unfold Phase.receive
      dsimp only
      rw [← hphase]
      exact hi.silent_turn hs (by rw [hphase]; rfl) nofun
        ⟨hc, selectVmid_nonNegInt (rpcHandleGetVms_length hl hresponse)⟩
    | creating job plan vmid =>
      rw [hphase] at hcall hc
      cases hcall
      obtain ⟨⟨cpus, hcpus⟩, hvid⟩ := hc
      unfold Phase.receive
      dsimp only
      rcases served_createVm hvid hcpus hserve with ⟨hs, hfailed⟩ | ⟨hsuccess, hcreate⟩
      · rw [if_neg hfailed, ← hphase]
        exact hi.silent_turn hs (by rw [hphase]; rfl) nofun trivial
      · rw [if_pos hsuccess]
        exact hi.createdVm hp hcreate (by rw [hphase]; rfl) rfl
          (fun l hl => (Option.some.inj hl).symm.trans List.take_zero) hvid
    | building b =>
      rw [hphase] at hcall
      exact hi.building_turn hp hphase hcall hcallFits hserve
    | cleaning vmid =>
      rw [hphase] at hcall hc
      cases hcall
      obtain ⟨ret, hdestroy⟩ := served_destroyVm hc hserve
      exact hi.destroyedVm hp hdestroy (by rw [hphase]; rfl) rfl trivial
    | ended launched =>
      rw [hphase] at hcall
      cases hcall
  · exact hi.launch_turn hnone t.started

/-! ### Every run -/

omit [DecidableEq ι] in
theorem runsInv_start (hreach : Reaches step (initialManager pool) m₀) {s : Server} (hs : s.mngr = m₀)
    (args : ι → CreateArgs) : RunsInv pool m₀ (startWorld s args) := by
  have hheld : ∀ r, held ((startWorld s args).phases r) = none := by
    intro r
    change held (startPhase (args r)) = none
    unfold startPhase
    cases createJob (args r) <;> rfl
  have hchecked : ∀ r, Checked ((startWorld s args).phases r) := by
    intro r
    change Checked (startPhase (args r))
    unfold startPhase
    cases hjob : createJob (args r) with
    | error e => exact trivial
    | ok job => exact (createJob_ok hjob).cpuSet
  subst hs
  refine ⟨hreach, .refl _, hchecked, fun _ _ => rfl, fun i hi hfree => ?_, fun r v hv => ?_,
    fun r r' v hv => ?_, fun _ _ _ _ => rfl, fun k hk p r v hv => ?_⟩
  · have hi : (s.mngr.vms i).initialized = true := hi
    rw [hfree] at hi
    cases hi
  all_goals
    rw [hheld] at hv
    cases hv

/-- What the runs leave when all have ended: the VMs there were, and one for each QEMU that was
launched, with the memory its run planned; every other segment as it was. -/
structure RunsExact (m₀ : Manager) (w : World ι) : Prop where
  kept : ∀ i, (m₀.vms i).initialized = true → w.server.mngr.vms i = m₀.vms i
  registered : ∀ i, (w.server.mngr.vms i).initialized = true → (m₀.vms i).initialized = true ∨
    ∃ r plan, w.phases r = .ended (some ((w.server.mngr.vms i).vmId, plan))
  launched : ∀ r v plan, w.phases r = .ended (some (v, plan)) → ∃ i,
    (m₀.vms i).initialized = false ∧ (w.server.mngr.vms i).initialized = true ∧
      (w.server.mngr.vms i).vmId = v ∧ allocations (w.server.mngr.vms i) = plan.allocations ∧
      ∀ k < w.server.mngr.pool.numDevs, ∀ p, Owned (w.server.mngr.pool.memDevs k) v p ↔
        ∃ dev ∈ (w.server.mngr.vms i).attachedDevs, Covers w.server.mngr.pool.segmentSizeMb k p dev
  distinct : ∀ r r' v plan plan', w.phases r = .ended (some (v, plan)) →
    w.phases r' = .ended (some (v, plan')) → r = r'
  unique : ∀ i j, (w.server.mngr.vms i).initialized = true →
    (w.server.mngr.vms j).initialized = true →
    (w.server.mngr.vms i).vmId = (w.server.mngr.vms j).vmId → i = j
  others : ∀ k < m₀.pool.numDevs, ∀ p,
    (∀ r v plan, w.phases r = .ended (some (v, plan)) →
      ¬ Owned (w.server.mngr.pool.memDevs k) v p) →
    (w.server.mngr.pool.memDevs k).segments p = (m₀.pool.memDevs k).segments p

omit [DecidableEq ι] in
theorem RunsInv.exact (hi : RunsInv pool m₀ w) (hp : InitialPool pool)
    (hend : ∀ r, ∃ launched, w.phases r = .ended launched) : RunsExact m₀ w := by
  have ho := owns_reachable hp hi.reach
  have hlaunched : ∀ r v, held (w.phases r) = some v →
      ∃ plan, w.phases r = .ended (some (v, plan)) := by
    intro r v hv
    obtain ⟨launched, hphase⟩ := hend r
    rw [hphase] at hv
    obtain ⟨⟨v', plan⟩, rfl, rfl⟩ := Option.map_eq_some_iff.mp hv
    exact ⟨plan, hphase⟩
  have hheld : ∀ r v plan, w.phases r = .ended (some (v, plan)) → held (w.phases r) = some v := by
    intro r v plan hphase
    rw [hphase]
    rfl
  refine ⟨hi.kept, fun i hinit => ?_, fun r v plan hphase => ?_, fun r r' v plan plan' h h' => ?_,
    ho.ids, fun k hk p hno => ?_⟩
  · by_cases hfree : (m₀.vms i).initialized = true
    · exact .inl hfree
    · obtain ⟨r, hr⟩ := hi.created i hinit (by simpa using hfree)
      exact .inr ⟨r, hlaunched r _ hr⟩
  · obtain ⟨i, hslot⟩ := hi.slot r v (hheld r v plan hphase)
    have hdevices : allocations (w.server.mngr.vms i) = plan.allocations :=
      hslot.devices _ (by rw [hphase]; rfl)
    refine ⟨i, hslot.free, hslot.initialized, hslot.vmId, hdevices, fun k hk p => ?_⟩
    rw [← hslot.vmId]
    constructor
    · intro hown
      obtain ⟨dev, hdev, hcovers⟩ := ho.covered hslot.initialized hk hown
      exact ⟨dev, hdev.2, hcovers⟩
    · rintro ⟨dev, hdev, hcovers⟩
      exact ho.owned_of_covers ⟨hslot.initialized, hdev⟩ hk hcovers
  · exact hi.distinct r r' v (hheld r v plan h) (hheld r' v plan' h')
  · refine hi.others k hk p fun r v hv => ?_
    obtain ⟨plan, hphase⟩ := hlaunched r v hv
    exact hno r v plan hphase

theorem runsInv_run {s : Server} {stack : Text} (hp : InitialPool pool)
    (hs : Reaches serverStep (initialServer pool stack) s) {args : ι → CreateArgs}
    {turns : List (Turn ι)} (hfits : Guarded (turn qemuBin) Fitting (startWorld s args) turns)
    (h : run (turn qemuBin) (startWorld s args) turns = .ok w) : RunsInv pool s.mngr w :=
  run_invariant_guarded (I := RunsInv pool s.mngr)
    (fun _ _ _ hi hf ht => (runsInv_turn hi hp hf ht).1)
    (runsInv_start (server_refines hp hs) rfl args) hfits h

/-- Runs of `create-vm` whose requests fit leave exactly what they should, and no turn of a run
touches a VM that is not its own. -/
theorem createRuns_exact {s : Server} {stack : Text} (hp : InitialPool pool)
    (hs : Reaches serverStep (initialServer pool stack) s) {args : ι → CreateArgs}
    {turns : List (Turn ι)} (hfits : Guarded (turn qemuBin) Fitting (startWorld s args) turns)
    (h : run (turn qemuBin) (startWorld s args) turns = .ok w) :
    (∀ t w', Fitting w t → turn qemuBin w t = .ok w' → TurnSafe t.run w w') ∧
      ((∀ r, ∃ launched, w.phases r = .ended launched) → RunsExact s.mngr w) := by
  have hi := runsInv_run hp hs hfits h
  refine ⟨fun t w' hf ht => ⟨(runsInv_turn hi hp hf ht).2, fun r' v hr hv hv' => ?_⟩,
    hi.exact hp⟩
  exact hr (hi.distinct r' t.run v hv hv')

/-! ### Runs whose requests fit -/

/-- What the plan of a run keeps within an `int`, or what it will make the plan of. -/
def PlanFits : Phase → Prop
  | .planning job => ∃ args, JobOf args job
  | .selecting _ plan | .creating _ plan _ => ∀ e ∈ plan.allocations, InInt e.1 ∧ InInt e.2
  | .building b => ∀ e ∈ b.plan.allocations, InInt e.1 ∧ InInt e.2
  | .cleaning _ | .ended _ => True

theorem PlanFits.request {call : ClientCall} (h : PlanFits phase)
    (hcall : phase.request = some call) : Fits call := by
  cases phase with
  | building b =>
    unfold Phase.request at hcall
    dsimp only at hcall
    cases halloc : b.nextAlloc with
    | some a =>
      rw [halloc] at hcall
      cases hcall
      exact h a (List.mem_of_getElem? halloc)
    | none =>
      rw [halloc] at hcall
      obtain ⟨nid, _, rfl⟩ := Option.map_eq_some_iff.mp hcall
      trivial
  | planning job | selecting job plan | creating job plan vmid | cleaning vmid =>
    cases hcall
    trivial
  | ended launched => cases hcall

theorem PlanFits.launch (h : PlanFits phase) (started : Bool) :
    PlanFits (phase.launch qemuBin started) := by
  rcases launch_cases qemuBin started phase with hsame | ⟨b, _, hend | hend⟩
  · rwa [hsame]
  · rw [hend]
    trivial
  · rw [hend]
    trivial

omit [DecidableEq ι] in
theorem RunsInv.planFits_receive (hi : RunsInv pool m₀ w) (hp : InitialPool pool)
    (hbar : BarFree m₀.pool) {call : ClientCall} {response : Text} {env : ServerEnv}
    (hfits : PlanFits (w.phases r)) (hcall : (w.phases r).request = some call)
    (hserve : rpcServe env w.server call.request = .ok (response, server)) :
    PlanFits ((w.phases r).receive (clientText response)) := by
  cases hphase : w.phases r with
  | planning job =>
    rw [hphase] at hcall hfits
    cases hcall
    obtain ⟨args, hjob⟩ := hfits
    have hbarNow : BarFree w.server.mngr.pool := by
      intro k hk
      rw [(hi.geometry.dev k).1]
      exact hbar k (hi.geometry.numDevs ▸ hk)
    unfold Phase.receive
    dsimp only
    cases hplan : buildMemoryPlan job.cfg (clientText response) with
    | error e => trivial
    | ok plan =>
      exact buildMemoryPlan_fits hjob (owns_reachable hp hi.reach).geometry
        (accounted_reachable hp hi.reach) hbarNow (served_getMemPool hserve).2 hplan
  | selecting job plan =>
    rw [hphase] at hfits
    exact hfits
  | creating job plan vmid =>
    rw [hphase] at hfits
    unfold Phase.receive
    dsimp only
    split_ifs
    · exact hfits
    · trivial
  | building b =>
    rw [hphase] at hfits
    unfold Phase.receive Building.receive
    dsimp only
    cases b.nextAlloc with
    | some a =>
      cases allocMemId (clientText response) with
      | ok memId => exact hfits
      | error e => trivial
    | none =>
      cases nodeInfoOut (clientText response) with
      | ok info => exact hfits
      | error e => trivial
  | cleaning vmid => trivial
  | ended launched => trivial

/-- Where no device path has a bar, every request of every run fits. -/
theorem fitting_run {s : Server} {stack : Text} (hp : InitialPool pool)
    (hs : Reaches serverStep (initialServer pool stack) s) (hbar : BarFree s.mngr.pool)
    (args : ι → CreateArgs) (turns : List (Turn ι)) :
    Guarded (turn qemuBin) Fitting (startWorld s args) turns := by
  have hstart : ∀ r, PlanFits ((startWorld s args).phases r) := by
    intro r
    change PlanFits (startPhase (args r))
    unfold startPhase
    cases hjob : createJob (args r) with
    | error e => exact trivial
    | ok job => exact ⟨args r, createJob_ok hjob⟩
  have hfitting : ∀ (w : World ι) t, (∀ r, PlanFits (w.phases r)) → Fitting w t :=
    fun w t hall _ hcall => (hall t.run).request hcall
  refine guarded_of_invariant
    (I := fun w => RunsInv pool s.mngr w ∧ ∀ r, PlanFits (w.phases r))
    (fun w t hw => hfitting w t hw.2) ?_ ⟨runsInv_start (server_refines hp hs) rfl args, hstart⟩ turns
  rintro w t w' ⟨hi, hall⟩ ht
  refine ⟨(runsInv_turn hi hp (hfitting w t hall) ht).1, fun r => ?_⟩
  have hown : ∀ server phase, PlanFits phase → PlanFits ((w.setPhase server t.run phase).phases r) := by
    intro server phase hphase
    rw [setPhase_phases]
    split_ifs
    · exact hphase
    · exact hall r
  rcases turn_ok ht with ⟨call, response, server, hcall, hserve, rfl⟩ | ⟨_, rfl⟩
  · exact hown _ _ (hi.planFits_receive hp hbar (hall t.run) hcall hserve)
  · exact hown _ _ ((hall t.run).launch t.started)

/-! ### Two runs on one device -/

/-- One vCPU and 4 MB on one channel. -/
def smallArgs : CreateArgs := ⟨"0".toList, "4M".toList, 1, none, none, "img".toList, 22, false⟩

/-- Both runs plan the same segment and select the same id; the second is refused the id. -/
def contest : List (Turn Bool) :=
  [false, true, false, true, false, true, false, false, false].map fun r => ⟨r, silentEnv, true⟩

theorem createRuns_exact_contest : ∃ w : World Bool,
    run (turn "qemu".toList) (startWorld (initialServer smallPool []) fun _ => smallArgs) contest =
      .ok w ∧
      (∀ t w', Fitting w t → turn "qemu".toList w t = .ok w' → TurnSafe t.run w w') ∧
      ((∀ r, ∃ launched, w.phases r = .ended launched) → RunsExact (initialManager smallPool) w) := by
  obtain ⟨w, hw⟩ := exists_of_isOk (x := run (turn "qemu".toList)
    (startWorld (initialServer smallPool []) fun _ => smallArgs) contest) (by decide +kernel)
  exact ⟨w, hw, createRuns_exact smallPool_initial (.refl _)
    (fitting_run smallPool_initial (.refl _) (by unfold BarFree; decide) _ _) hw⟩

/-- What a run that has ended leaves behind. -/
def result : Phase → Option (Option (ℤ × MemoryPlan))
  | .ended launched => some launched
  | _ => none

theorem result_eq_some {launched : Option (ℤ × MemoryPlan)} (h : result phase = some launched) :
    phase = .ended launched := by
  cases phase with
  | ended l =>
    cases h
    rfl
  | planning job | selecting job plan | creating job plan vmid | building b | cleaning vmid => cases h

/-- The path makes the row of the only device say that it has 2^32 segments of 1 MB free. -/
def barConfig : Text :=
  "segment_size_mb 128\ndev path=a|1|4294967424|0|1|0|0| size_mb=256 tier_id=0 dax_id=0\n".toList

def hugeArgs : CreateArgs := ⟨"0".toList, "4294967424M".toList, 1, none, none, "img".toList, 22, false⟩

/-- `%d` keeps the low 32 bits of the size, so the VM starts with less than its plan. -/
theorem createRuns_exact_fails_bar : ∃ pool, ∃ w : World Unit,
    memoryPoolInit zeroBuffers (some barConfig) = .ok (some pool) ∧
      run (turn "qemu".toList) (startWorld (initialServer pool []) fun _ => hugeArgs)
        (List.replicate 6 ⟨(), silentEnv, true⟩) = .ok w ∧
      (∀ r, ∃ launched, w.phases r = .ended launched) ∧ ¬ RunsExact (initialManager pool) w := by
  obtain ⟨pool, hload, hview⟩ := exists_of_view
    (f := fun pool => (run (turn "qemu".toList)
      (startWorld (initialServer pool []) fun _ : Unit => hugeArgs)
      (List.replicate 6 ⟨(), silentEnv, true⟩)).toOption.map fun w : World Unit =>
        (result (w.phases ()), decide (∀ i, allocations (w.server.mngr.vms i) ≠ [(0, 4294967424)])))
    (b := some (some (some (0, ⟨[0], [(0, 4294967424)]⟩)), true))
    (x := memoryPoolInit zeroBuffers (some barConfig)) (by decide +kernel)
  cases hrun : run (turn "qemu".toList) (startWorld (initialServer pool []) fun _ : Unit => hugeArgs)
      (List.replicate 6 ⟨(), silentEnv, true⟩) with
  | error e =>
    rw [hrun] at hview
    cases hview
  | ok w =>
    rw [hrun] at hview
    simp only [Except.toOption, Option.map_some, Option.some.injEq, Prod.mk.injEq,
      decide_eq_true_eq] at hview
    have hended := result_eq_some hview.1
    refine ⟨pool, w, hload, hrun, fun r => ⟨_, hended⟩, fun hexact => ?_⟩
    obtain ⟨i, _, _, _, hdevices, _⟩ := hexact.launched () 0 _ hended
    exact hview.2 i hdevices

end Ramryder.CreateRunsSpec
