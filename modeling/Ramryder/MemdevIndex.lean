import Ramryder.HotplugRange

/-! The indexes a VM's memory devices are known by: drawn from a counter that lives as long as the
VM, and never given out twice. -/
namespace Ramryder.MemdevIndex
open CInt CMachine CText GuestAgents HotplugRange MemoryPool MemoryPoolSpec Ownership PoolConfig
  QemuAgent ResourceManager Runs VmManager VmManagerSpec

variable {m m' : Manager} {pool : Pool} {i : Fin maxNumVm} {v : ℤ}

/-- What becomes of an index of the VM. -/
inductive MemdevEvent
  | allocated (idx : ℤ)
  | freed (idx : ℤ)
  deriving DecidableEq, Repr

/-- The index a call gives to the VM `v` or takes from it; a failed call does neither. -/
def memdevEvent (v : ℤ) (m : Manager) : Op → Option MemdevEvent
  | .allocMem nodeId vmId sizeMb =>
    match vmMngrInstanceAllocMem m nodeId vmId sizeMb with
    | .ok (some req, _) => if vmId = v then some (.allocated req.memdevIdx) else none
    | _ => none
  | .freeMem vmId memdevIdx =>
    match vmMngrInstanceFreeMem m vmId memdevIdx with
    | .ok (0, _) => if vmId = v then some (.freed memdevIdx) else none
    | _ => none
  | _ => none

def allocatedIdxs (events : List MemdevEvent) : List ℤ :=
  events.filterMap fun
    | .allocated idx => some idx
    | .freed _ => none

def freedIdxs (events : List MemdevEvent) : List ℤ :=
  events.filterMap fun
    | .allocated _ => none
    | .freed idx => some idx

theorem allocatedIdxs_allocated (events : List MemdevEvent) (idx : ℤ) :
    allocatedIdxs (events ++ [.allocated idx]) = allocatedIdxs events ++ [idx] := by
  simp [allocatedIdxs]

theorem allocatedIdxs_freed (events : List MemdevEvent) (idx : ℤ) :
    allocatedIdxs (events ++ [.freed idx]) = allocatedIdxs events := by
  simp [allocatedIdxs]

theorem freedIdxs_allocated (events : List MemdevEvent) (idx : ℤ) :
    freedIdxs (events ++ [.allocated idx]) = freedIdxs events := by
  simp [freedIdxs]

theorem freedIdxs_freed (events : List MemdevEvent) (idx : ℤ) :
    freedIdxs (events ++ [.freed idx]) = freedIdxs events ++ [idx] := by
  simp [freedIdxs]

/-- The call does not destroy the VM `v`. -/
def Spares (v : ℤ) (m : Manager) : Op → Prop
  | .destroy vmId => vmId = v → ∀ m', vmMngrInstanceDestroy m vmId ≠ .ok (0, m')
  | _ => True

/-- The VM in slot `i` after these events: its counter is the number of indexes given out, and its
list holds those not taken back. -/
structure Numbered (v : ℤ) (i : Fin maxNumVm) (m : Manager) (events : List MemdevEvent) : Prop where
  owns : Owns m
  vmId : (m.vms i).vmId = v
  initialized : (m.vms i).initialized = true
  counter : (m.vms i).memdevCounter = (allocatedIdxs events).length
  inInt : InInt (m.vms i).memdevCounter
  numbered : allocatedIdxs events =
    (List.range (allocatedIdxs events).length).map Nat.cast
  attached : ∀ idx, idx ∈ (m.vms i).attachedDevs.map MemoryDev.memdevIdx ↔
    idx ∈ allocatedIdxs events ∧ idx ∉ freedIdxs events
  freed : (freedIdxs events).Nodup ∧
    freedIdxs events ⊆ allocatedIdxs events

variable {events : List MemdevEvent}

theorem Numbered.getInstance (h : Numbered v i m events) : vmMngrGetInstance m v = some i :=
  h.owns.ids.getInstance h.initialized h.vmId

theorem Numbered.lt_counter (h : Numbered v i m events) {idx : ℤ}
    (hidx : idx ∈ allocatedIdxs events) : 0 ≤ idx ∧ idx < (m.vms i).memdevCounter := by
  rw [h.numbered] at hidx
  obtain ⟨k, hk, rfl⟩ := List.mem_map.mp hidx
  rw [h.counter]
  exact ⟨Int.natCast_nonneg k, by exact_mod_cast List.mem_range.mp hk⟩

theorem Numbered.slot_eq (h : Numbered v i m events) {j : Fin maxNumVm}
    (hget : vmMngrGetInstance m v = some j) : j = i :=
  Option.some.inj (hget.symm.trans h.getInstance)

/-- A call that leaves the memory of the slot alone. -/
theorem Numbered.frame (h : Numbered v i m events) (ho : Owns m')
    (hid : (m'.vms i).vmId = (m.vms i).vmId)
    (hinit : (m'.vms i).initialized = (m.vms i).initialized)
    (hcounter : (m'.vms i).memdevCounter = (m.vms i).memdevCounter)
    (hdevs : (m'.vms i).attachedDevs = (m.vms i).attachedDevs) : Numbered v i m' events :=
  ⟨ho, hid.trans h.vmId, hinit.trans h.initialized, hcounter.trans h.counter,
    hcounter.symm ▸ h.inInt, h.numbered, fun idx => by rw [hdevs, h.attached], h.freed⟩

theorem Numbered.frame_slot (h : Numbered v i m events) (ho : Owns m')
    (hslot : m'.vms i = m.vms i) : Numbered v i m' events :=
  h.frame ho (by rw [hslot]) (by rw [hslot]) (by rw [hslot]) (by rw [hslot])

theorem Numbered.memSame (h : Numbered v i m events) (hs : MemSame m m') :
    Numbered v i m' events :=
  h.frame (h.owns.memSame hs) (hs.vmId i) (hs.initialized i) (hs.memdevCounter i)
    (hs.attachedDevs i)

theorem Numbered.created (ho : Owns m') (hid : (m'.vms i).vmId = v)
    (hinit : (m'.vms i).initialized = true) (hcounter : (m'.vms i).memdevCounter = 0)
    (hdevs : (m'.vms i).attachedDevs = []) : Numbered v i m' [] :=
  ⟨ho, hid, hinit, hcounter, hcounter.symm ▸ by decide, rfl, by simp [hdevs, allocatedIdxs],
    by simp [freedIdxs]⟩

/-- The next index is the number of those given out before it. -/
theorem Numbered.allocated (h : Numbered v i m events) (ho : Owns m') {req : MemoryRequest}
    (hin : InInt ((m.vms i).memdevCounter + 1))
    (hslot : m'.vms i = attachedVm (m.vms i) req) :
    Numbered v i m' (events ++ [.allocated (m.vms i).memdevCounter]) := by
  have halloc := allocatedIdxs_allocated events (m.vms i).memdevCounter
  have hfreed := freedIdxs_allocated events (m.vms i).memdevCounter
  have hnew : (m.vms i).memdevCounter ∉ freedIdxs events := fun hmem =>
    lt_irrefl _ (h.lt_counter (h.freed.2 hmem)).2
  refine {
    owns := ho
    vmId := by rw [hslot]; exact h.vmId
    initialized := by rw [hslot]; exact h.initialized
    counter := ?counter
    inInt := by rw [hslot]; exact hin
    numbered := ?numbered
    attached := fun idx => ?attached
    freed := ?freed }
  case counter =>
    rw [hslot, halloc, attachedVm, List.length_append, h.counter]
    simp
  case numbered =>
    rw [halloc, List.length_append, List.length_singleton, List.range_succ, List.map_append,
      ← h.numbered, h.counter]
    rfl
  case attached =>
    rw [halloc, hfreed, hslot, attachedVm, List.map_append, List.mem_append, List.mem_append,
      h.attached]
    simp only [List.map_cons, List.map_nil, List.mem_singleton]
    constructor
    · rintro (⟨hold, hkept⟩ | rfl)
      · exact ⟨.inl hold, hkept⟩
      · exact ⟨.inr rfl, hnew⟩
    · rintro ⟨hold | rfl, hkept⟩
      · exact .inl ⟨hold, hkept⟩
      · exact .inr rfl
  case freed =>
    rw [halloc, hfreed]
    exact ⟨h.freed.1, fun idx hidx => List.mem_append_left _ (h.freed.2 hidx)⟩

/-- A listed index leaves the list and joins those taken back. -/
theorem Numbered.freedDev (h : Numbered v i m events) (ho : Owns m') {dev : MemoryDev}
    (hd : LiveDev m i dev) (hslot : m'.vms i = detachedVm (m.vms i) dev.memdevIdx) :
    Numbered v i m' (events ++ [.freed dev.memdevIdx]) := by
  have halloc := allocatedIdxs_freed events dev.memdevIdx
  have hfreed := freedIdxs_freed events dev.memdevIdx
  have hlisted := (h.attached dev.memdevIdx).mp (List.mem_map_of_mem hd.2)
  obtain ⟨l₁, l₂, hsplit, herase⟩ := h.owns.detached_split hd
  have hnodup := h.owns.distinct i hd.1
  rw [hsplit, List.map_append, List.map_cons, List.nodup_middle, ← List.map_append] at hnodup
  have hgone := (List.nodup_cons.mp hnodup).1
  refine {
    owns := ho
    vmId := by rw [hslot]; exact h.vmId
    initialized := by rw [hslot]; exact h.initialized
    counter := by rw [hslot, halloc]; exact h.counter
    inInt := by rw [hslot]; exact h.inInt
    numbered := by rw [halloc]; exact h.numbered
    attached := fun idx => ?attached
    freed := ?freed }
  case attached =>
    have hbefore := h.attached idx
    rw [hsplit, List.map_append, List.map_cons, List.mem_append, List.mem_cons] at hbefore
    rw [List.map_append, List.mem_append] at hgone
    rw [halloc, hfreed, hslot, herase, List.map_append, List.mem_append, List.mem_append,
      List.mem_singleton]
    constructor
    · intro hmem
      obtain ⟨hall, hkept⟩ := hbefore.mp (by tauto)
      refine ⟨hall, ?_⟩
      rintro (hf | rfl)
      · exact hkept hf
      · exact hgone hmem
    · rintro ⟨hall, hkept⟩
      rw [not_or] at hkept
      have := hbefore.mpr ⟨hall, hkept.1⟩
      tauto
  case freed =>
    rw [halloc, hfreed]
    refine ⟨List.nodup_append.mpr ⟨h.freed.1, List.nodup_singleton _, ?_⟩, fun idx hidx => ?_⟩
    · intro a ha b hb
      rw [List.mem_singleton.mp hb]
      rintro rfl
      exact hlisted.2 ha
    · rcases List.mem_append.mp hidx with hold | hnew
      · exact h.freed.2 hold
      · rw [List.mem_singleton.mp hnew]
        exact hlisted.1

/-- Step lemma: every call but the destruction of the VM adds its event. -/
theorem numbered_step (h : Numbered v i m events) {op : Op} (hspares : Spares v m op)
    (hstep : step m op = .ok m') : Numbered v i m' (events ++ (memdevEvent v m op).toList) := by
  have ho' := owns_step h.owns hstep
  have hnone : ∀ {n}, Numbered v i n events → Numbered v i n (events ++ Option.toList none) :=
    fun hn => by rwa [Option.toList_none, List.append_nil]
  cases op with
  | create vmId coreSet =>
    obtain ⟨⟨ret, _⟩, hres, rfl⟩ := map_eq_ok.mp hstep
    refine hnone ?_
    rcases vmMngrInstanceCreate_ok hres with ⟨_, rfl⟩ | ⟨_, _, _, j, n, hfree, _, rfl⟩
    · exact h
    · refine h.frame_slot ho' ((setVm_vms m j i _).trans (if_neg ?_))
      rintro rfl
      rw [h.initialized] at hfree
      cases hfree
  | destroy vmId =>
    obtain ⟨⟨ret, _⟩, hres, rfl⟩ := map_eq_ok.mp hstep
    refine hnone ?_
    rcases vmMngrInstanceDestroy_ok hres with ⟨_, rfl⟩ | ⟨rfl, j, hget, _, rfl⟩
    · exact h
    · refine h.frame_slot ho' ((setVm_vms m j i _).trans (if_neg ?_))
      rintro rfl
      exact hspares ((vmMngrGetInstance_eq_some hget).2.symm.trans h.vmId) _ hres
  | start vmId env =>
    obtain ⟨⟨ret, _⟩, hres, rfl⟩ := map_eq_ok.mp hstep
    exact hnone (h.memSame (vmMngrInstanceStart_memSame hres))
  | stop vmId kernel =>
    obtain ⟨⟨ret, _⟩, hres, rfl⟩ := map_eq_ok.mp hstep
    exact hnone (h.memSame (vmMngrInstanceStop_memSame hres))
  | allocMem nodeId vmId sizeMb =>
    obtain ⟨⟨res, _⟩, hres, rfl⟩ := map_eq_ok.mp hstep
    rw [memdevEvent, hres]
    rcases vmMngrInstanceAllocMem_ok h.owns.geometry.segmentSize hres with
      ⟨rfl, rfl⟩ | ⟨j, req, pool, k, lo, n, hget, _, hin, rfl, rfl⟩
    · exact hnone h
    · by_cases hv : vmId = v
      · subst hv
        obtain rfl := h.slot_eq hget
        dsimp only
        rw [if_pos rfl]
        exact h.allocated ho' hin (setVm_vms_self m j _)
      · dsimp only
        rw [if_neg hv]
        refine hnone (h.frame_slot ho' ((setVm_vms m j i _).trans (if_neg ?_)))
        rintro rfl
        exact hv ((vmMngrGetInstance_eq_some hget).2.symm.trans h.vmId)
  | freeMem vmId memdevIdx =>
    obtain ⟨⟨ret, _⟩, hres, rfl⟩ := map_eq_ok.mp hstep
    rw [memdevEvent, hres]
    rcases h.owns.freeMem_ok hres with ⟨rfl, rfl⟩ | ⟨rfl, j, dev, k, lo, n, hget, hd, rfl, _, rfl⟩
    · exact hnone h
    · by_cases hv : vmId = v
      · subst hv
        obtain rfl := h.slot_eq hget
        dsimp only
        rw [if_pos rfl]
        exact h.freedDev ho' hd (setVm_vms_self m j _)
      · dsimp only
        rw [if_neg hv]
        refine hnone (h.frame_slot ho' ((setVm_vms m j i _).trans (if_neg ?_)))
        rintro rfl
        exact hv ((vmMngrGetInstance_eq_some hget).2.symm.trans h.vmId)

/-- Run lemma: the events of a run that spares the VM. -/
theorem numbered_run (h : Numbered v i m []) {ops : List Op} (hspares : Guarded step (Spares v) m ops)
    (hrun : run step m ops = .ok m') :
    Numbered v i m' (observed step (memdevEvent v) m ops) :=
  run_observed_guarded (I := Numbered v i) (fun _ _ _ _ hn hg hs => numbered_step hn hg hs) h
    hspares hrun

/-! ### The ids of the devices in QEMU -/

theorem dimmId_eq {memid : ℤ} (h : InInt memid) : dimmId memid = "dimm".toList ++ decimal memid := by
  have hformat : directives none "dimm%d".toList = lits "dimm" ++ .int 0 :: lits "" := by decide
  have hlen := decimal_length h
  rw [dimmId, snprintf, sprintf, hformat, render_lits, render_int, render_end, padLeft_zero]
  rw [show "".toList = [] from rfl, List.append_nil]
  refine List.take_of_length_le ?_
  simp [stringIdLen]
  omega

/-- Different indexes have different ids, and an object is never called like a device. -/
structure SeparateIds (a b : ℤ) : Prop where
  memdev : memdevId a = memdevId b → a = b
  dimm : dimmId a = dimmId b → a = b
  apart : memdevId a ≠ dimmId b

theorem separateIds {a b : ℤ} (ha : InInt a) (hb : InInt b) : SeparateIds a b := by
  refine ⟨fun h => ?_, fun h => ?_, fun h => ?_⟩
  · rw [memdevId_eq ha, memdevId_eq hb] at h
    exact decimal_injective (List.append_cancel_left h)
  · rw [dimmId_eq ha, dimmId_eq hb] at h
    exact decimal_injective (List.append_cancel_left h)
  · rw [memdevId_eq ha, dimmId_eq hb] at h
    exact absurd (List.cons.inj h).1 (by decide)

/-- What the history of a VM says of its indexes, and of the next call. -/
structure FreshIndexes (v : ℤ) (m : Manager) (events : List MemdevEvent) : Prop where
  numbered : allocatedIdxs events = (List.range (allocatedIdxs events).length).map Nat.cast
  next : ∀ nodeId sizeMb req pool,
    memoryPoolAllocateSegments m.pool nodeId v sizeMb = .ok (some req, pool) →
    ((allocatedIdxs events).length : ℤ) < intMax → ∃ m', vmMngrInstanceAllocMem m nodeId v sizeMb =
      .ok (some (vmMemReqOf ⟨(allocatedIdxs events).length, req⟩), m')
  attached : ∃ i, vmMngrGetInstance m v = some i ∧
    ((m.vms i).attachedDevs.map MemoryDev.memdevIdx).Nodup ∧
    ∀ idx, idx ∈ (m.vms i).attachedDevs.map MemoryDev.memdevIdx ↔
      idx ∈ allocatedIdxs events ∧ idx ∉ freedIdxs events
  freedOnce : (freedIdxs events).Nodup
  freed : ∀ idx ∈ freedIdxs events,
    vmMngrInstanceFreeMem m v idx = .ok (-1, m) ∧ vmMngrInstanceGetMem m v idx = none
  ids : ∀ a ∈ allocatedIdxs events, ∀ b ∈ allocatedIdxs events, SeparateIds a b

theorem Numbered.next (h : Numbered v i m events) {nodeId sizeMb : ℤ} {req : MemoryRequest}
    {pool : Pool} (halloc : memoryPoolAllocateSegments m.pool nodeId v sizeMb = .ok (some req, pool))
    (hmax : ((allocatedIdxs events).length : ℤ) < intMax) :
    ∃ m', vmMngrInstanceAllocMem m nodeId v sizeMb =
      .ok (some (vmMemReqOf ⟨(allocatedIdxs events).length, req⟩), m') := by
  have hin : InInt ((m.vms i).memdevCounter + 1) := by
    rw [h.counter]
    simp only [InInt, intMin, intMax] at hmax ⊢
    omega
  have hgranted := vmMngrInstanceAllocMem_granted h.getInstance halloc hin
  rw [h.counter] at hgranted
  exact ⟨_, hgranted⟩

theorem Numbered.absent (h : Numbered v i m events) {idx : ℤ} (hidx : idx ∈ freedIdxs events) :
    findMemoryDev (m.vms i) idx = none := by
  refine List.find?_eq_none.mpr fun dev hdev heq => ?_
  have hlisted := (h.attached dev.memdevIdx).mp (List.mem_map_of_mem hdev)
  rw [beq_iff_eq.mp heq] at hlisted
  exact hlisted.2 hidx

theorem Numbered.freshIndexes (h : Numbered v i m events) : FreshIndexes v m events where
  numbered := h.numbered
  next := fun _ _ _ _ halloc hmax => h.next halloc hmax
  attached := ⟨i, h.getInstance, h.owns.distinct i h.initialized, h.attached⟩
  freedOnce := h.freed.1
  freed := fun idx hidx => by
    refine ⟨vmMngrInstanceFreeMem_none (.inr ⟨i, h.getInstance, h.absent hidx⟩), ?_⟩
    simp [vmMngrInstanceGetMem, h.getInstance, h.absent hidx]
  ids := fun a ha b hb => by
    have hin := h.inInt
    have hbounds := And.intro (h.lt_counter ha) (h.lt_counter hb)
    refine separateIds ?_ ?_ <;> simp only [InInt, intMin] at hin ⊢ <;> omega

/-- The run rule of a new VM: however its calls and those for other VMs succeed and fail, the k-th
index given out is k, and none comes back. -/
theorem created_freshIndexes {m₀ m₁ : Manager} {coreSet : Text} {ops : List Op}
    (hp : InitialPool pool) (hreach : Reaches step (initialManager pool) m₀)
    (hcreate : vmMngrInstanceCreate m₀ v coreSet = .ok (0, m₁))
    (hspares : Guarded step (Spares v) m₁ ops) (hrun : run step m₁ ops = .ok m) :
    FreshIndexes v m (observed step (memdevEvent v) m₁ ops) := by
  have hstep : step m₀ (.create v coreSet) = .ok m₁ := by
    rw [step, hcreate]
    rfl
  have ho := owns_step (owns_reachable hp hreach) hstep
  rcases vmMngrInstanceCreate_ok hcreate with ⟨hneg, _⟩ | ⟨_, _, _, i, n, _, _, rfl⟩
  · exact absurd hneg (by decide)
  · have hslot : ({ m₀.setVm i (createdVm (m₀.vms i) v coreSet n) with
        count := m₀.count + 1 } : Manager).vms i = createdVm (m₀.vms i) v coreSet n :=
      setVm_vms_self m₀ i _
    have hfirst := Numbered.created (i := i) (v := v) ho (by rw [hslot]; rfl) (by rw [hslot]; rfl)
      (by rw [hslot]; rfl) (by rw [hslot]; rfl)
    exact (numbered_run hfirst hspares hrun).freshIndexes

def allocAndFree : List Op :=
  [.allocMem 0 3 4, .allocMem 0 3 8, .allocMem 0 3 4, .freeMem 3 0, .allocMem 0 3 4]

/-- The second allocation fails, and the last one follows a free. -/
theorem created_freshIndexes_smallPool : ∃ m₁ m events,
    vmMngrInstanceCreate (initialManager smallPool) 3 "0".toList = .ok (0, m₁) ∧
      run step m₁ allocAndFree = .ok m ∧ allocatedIdxs events = [0, 1, 2] ∧
      freedIdxs events = [0] ∧ FreshIndexes 3 m events := by
  have heval : (vmMngrInstanceCreate (initialManager smallPool) 3 "0".toList).map (fun r =>
      (r.1, (run step r.2 allocAndFree).isOk, observed step (memdevEvent 3) r.2 allocAndFree)) =
      .ok (0, true, [.allocated 0, .allocated 1, .freed 0, .allocated 2]) := by
    rfl
  obtain ⟨⟨ret, m₁⟩, hcreate, hview⟩ := map_eq_ok.mp heval
  obtain ⟨hret, hok, hevents⟩ : ret = 0 ∧ _ ∧ _ := by simpa only [Prod.mk.injEq] using hview
  subst hret
  cases hrun : run step m₁ allocAndFree with
  | error e =>
    rw [hrun] at hok
    cases hok
  | ok m =>
    have hfresh := created_freshIndexes (m := m) smallPool_initial (.refl _) hcreate
      (by simp [allocAndFree, Guarded, Spares]) hrun
    exact ⟨m₁, m, _, hcreate, hrun, by rw [hevents]; rfl, by rw [hevents]; rfl, hfresh⟩

end Ramryder.MemdevIndex
