import Ramryder.AttachRuns
import Ramryder.PoolImage

/-! What is left when `attach-mem` of the admin CLI rolls back. It frees everything it has allocated,
and unplugs nothing. -/
namespace Ramryder.AttachRollback
open AttachRuns CInt CMachine CScan CText Cli ClientRequests CreatePlan CreateRequests Deliveries DeviceIdentity
  GuestAgents Lifecycle MemoryPool MemoryPoolSpec Ownership PluggedMemory PoolConfig PoolImage PyText ResourceManager
  ResourceManagerSpec Runs SegmentBounds Shutdown VmManager VmManagerSpec

variable {m m₀ m' : Manager} {pool : Pool} {v : ℤ} {devs : List MemoryDev}

theorem Kept.step (hm : Kept m) {op : Op} (h : VmManager.step m op = .ok m') : Kept m' :=
  ⟨owns_step hm.owns h, step_consistent hm.owns hm.consistent h,
    PoolCalls.accounted_step hm.owns hm.accounted h⟩

/-! ### Between the first allocation and the last free -/

/-- The state `m₀` with these devices added to the VM `v`. -/
structure Grown (v : ℤ) (m₀ m : Manager) (devs : List MemoryDev) : Prop where
  kept : Kept m
  frame : PoolFrame m₀.pool m.pool
  initialized : ∀ j, (m.vms j).initialized = (m₀.vms j).initialized
  vmId : ∀ j, (m₀.vms j).initialized = true → (m.vms j).vmId = (m₀.vms j).vmId
  attachedDevs : ∀ j, (m₀.vms j).initialized = true → (m.vms j).attachedDevs =
    (m₀.vms j).attachedDevs ++ if (m₀.vms j).vmId = v then devs else []
  someone : devs ≠ [] → ∃ i, vmMngrGetInstance m v = some i
  inInt : ∀ dev ∈ devs, 0 ≤ dev.memdevIdx ∧ InInt dev.memdevIdx

theorem Grown.start (hm : Kept m₀) : Grown v m₀ m₀ [] :=
  ⟨hm, .refl _, fun _ => rfl, fun _ _ => rfl, fun _ _ => by simp, fun h => absurd rfl h, by simp⟩

theorem Grown.sameLists (h : Grown v m₀ m []) : SameLists m₀ m :=
  ⟨h.initialized, h.vmId, fun j hj => by rw [h.attachedDevs j hj, ite_self, List.append_nil]⟩

theorem Grown.getInstance (h : Grown v m₀ m devs) {i : Fin maxNumVm}
    (hget : vmMngrGetInstance m v = some i) :
    (m₀.vms i).initialized = true ∧ (m₀.vms i).vmId = v := by
  obtain ⟨hinit, hid⟩ := vmMngrGetInstance_eq_some hget
  have hinit₀ := (h.initialized i).symm.trans hinit
  exact ⟨hinit₀, (h.vmId i hinit₀).symm.trans hid⟩

/-- Only one VM has the id `v`. -/
theorem Grown.other (h : Grown v m₀ m devs) {i j : Fin maxNumVm}
    (hget : vmMngrGetInstance m v = some i) (hj : (m₀.vms j).initialized = true) (hne : j ≠ i) :
    (m₀.vms j).vmId ≠ v := by
  intro hid
  obtain ⟨hinit, hvid⟩ := vmMngrGetInstance_eq_some hget
  exact hne (h.kept.owns.ids j i ((h.initialized j).trans hj) hinit
    (((h.vmId j hj).trans hid).trans hvid.symm))

/-- The VM has the added devices after those of before. -/
theorem Grown.listed (h : Grown v m₀ m devs) {i : Fin maxNumVm} (hget : vmMngrGetInstance m v = some i) :
    (m.vms i).attachedDevs = (m₀.vms i).attachedDevs ++ devs := by
  obtain ⟨hinit₀, hid₀⟩ := h.getInstance hget
  rw [h.attachedDevs i hinit₀, if_pos hid₀]

theorem Grown.liveDev (h : Grown v m₀ m devs) {i : Fin maxNumVm} (hget : vmMngrGetInstance m v = some i)
    {dev : MemoryDev} (hdev : dev ∈ devs) : LiveDev m i dev :=
  ⟨(vmMngrGetInstance_eq_some hget).1, by rw [h.listed hget]; exact List.mem_append_right _ hdev⟩

/-- No two of the added devices share an index. -/
theorem Grown.nodup (h : Grown v m₀ m devs) : (devs.map MemoryDev.memdevIdx).Nodup := by
  by_cases hne : devs = []
  · rw [hne]
    exact List.nodup_nil
  · obtain ⟨i, hget⟩ := h.someone hne
    have hnodup := h.kept.owns.distinct i (vmMngrGetInstance_eq_some hget).1
    rw [h.listed hget, List.map_append] at hnodup
    exact hnodup.of_append_right

theorem Grown.getMem (h : Grown v m₀ m devs) {dev : MemoryDev} (hdev : dev ∈ devs) :
    vmMngrInstanceGetMem m v dev.memdevIdx = some dev.memoryReq := by
  obtain ⟨i, hget⟩ := h.someone (List.ne_nil_of_mem hdev)
  simp [vmMngrInstanceGetMem, hget, h.kept.owns.findMemoryDev (h.liveDev hget hdev)]

/-- The lists are those of before just when nothing is added. -/
theorem Grown.sameLists_iff (h : Grown v m₀ m devs) : SameLists m₀ m ↔ devs = [] := by
  refine ⟨fun hsame => ?_, fun hnil => (hnil ▸ h).sameLists⟩
  by_contra hne
  obtain ⟨i, hget⟩ := h.someone hne
  have hlist := h.listed hget
  rw [hsame.attachedDevs i (h.getInstance hget).1, List.self_eq_append_right] at hlist
  exact hne hlist

/-- Only the VM `v` has other devices now. -/
theorem Grown.changed {devs' : List MemoryDev} {i : Fin maxNumVm} (h : Grown v m₀ m devs) (vm : VmInstance)
    (hget : vmMngrGetInstance m v = some i) (hkept : Kept m') (hframe : PoolFrame m₀.pool m'.pool)
    (hvms : m'.vms = (m.setVm i vm).vms) (hinit : vm.initialized = true) (hid : vm.vmId = v)
    (hlist : vm.attachedDevs = (m₀.vms i).attachedDevs ++ devs')
    (hin : ∀ dev ∈ devs', 0 ≤ dev.memdevIdx ∧ InInt dev.memdevIdx) : Grown v m₀ m' devs' := by
  obtain ⟨hinit₀, hid₀⟩ := h.getInstance hget
  have hself : m'.vms i = vm := by rw [hvms, setVm_vms_self]
  have hother : ∀ j, j ≠ i → m'.vms j = m.vms j := fun j hj => by rw [hvms, setVm_vms, if_neg hj]
  refine ⟨hkept, hframe, fun j => ?_, fun j hj => ?_, fun j hj => ?_, fun _ => ⟨i, ?_⟩, hin⟩
  · by_cases hji : j = i
    · rw [hji, hself, hinit, hinit₀]
    · rw [hother j hji, h.initialized j]
  · by_cases hji : j = i
    · rw [hji, hself, hid, hid₀]
    · rw [hother j hji, h.vmId j hj]
  · by_cases hji : j = i
    · rw [hji, hself, hlist, if_pos hid₀]
    · rw [hother j hji, h.attachedDevs j hj, if_neg (h.other hget hj hji), if_neg (h.other hget hj hji)]
  · exact hkept.owns.ids.getInstance (by rw [hself, hinit]) (by rw [hself, hid])

/-- Where a device is, and how large it is. -/
def placed (dev : MemoryDev) : ℤ × ℤ := (dev.memoryReq.nodeId, dev.memoryReq.sizeMb)

theorem Grown.alloc (h : Grown v m₀ m devs) {nodeId sizeMb : ℤ} {req : VmMemReq}
    (halloc : vmMngrInstanceAllocMem m nodeId v sizeMb = .ok (some req, m')) :
    ∃ dev, Grown v m₀ m' (devs ++ [dev]) ∧ req = vmMemReqOf dev ∧ placed dev = (nodeId, sizeMb) := by
  have hstep : step m (.allocMem nodeId v sizeMb) = .ok m' := by
    rw [step, halloc]
    rfl
  have hkept := Kept.step h.kept hstep
  have hframe := h.frame.trans (step_poolFrame h.kept.owns hstep)
  rcases vmMngrInstanceAllocMem_ok h.kept.owns.geometry.segmentSize halloc with
    ⟨hnone, _⟩ | ⟨i, r, pool, k, lo, n, hget, hal, hin, hres, rfl⟩
  · cases hnone
  · obtain ⟨hinit, hid⟩ := vmMngrGetInstance_eq_some hget
    refine ⟨⟨(m.vms i).memdevCounter, r⟩, h.changed _ hget hkept hframe rfl hinit hid ?_ fun dev hdev => ?_,
      Option.some.inj hres, ?_⟩
    · rw [attachedVm, h.listed hget, List.append_assoc]
    · rcases List.mem_append.mp hdev with hdev | hdev
      · exact h.inInt dev hdev
      · rw [List.mem_singleton.mp hdev]
        have hcounter := h.kept.owns.counter i hinit
        simp only [InInt, intMin, intMax] at hin ⊢
        omega
    · rw [placed, hal.request, hal.size]

theorem eraseP_memdevIdx {dev : MemoryDev} (hnodup : (devs.map MemoryDev.memdevIdx).Nodup)
    (hdev : dev ∈ devs) : devs.eraseP (fun d => d.memdevIdx == dev.memdevIdx) = devs.erase dev := by
  induction devs with
  | nil => cases hdev
  | cons d devs ih =>
    obtain ⟨hd, hnodup⟩ := List.nodup_cons.mp hnodup
    rcases List.mem_cons.mp hdev with rfl | hmem
    · rw [List.eraseP_cons_of_pos (by simp), List.erase_cons_head]
    · have hne : d.memdevIdx ≠ dev.memdevIdx := fun heq => hd (heq ▸ List.mem_map_of_mem hmem)
      have hne' : (d == dev) = false := beq_eq_false_iff_ne.mpr fun heq => hne (heq ▸ rfl)
      rw [List.eraseP_cons_of_neg (by simpa using hne), List.erase_cons_tail (by simp [hne']),
        ih hnodup hmem]

/-- Freeing one of the added devices. -/
theorem Grown.free_of_mem {dev : MemoryDev} (h : Grown v m₀ m devs) (hdev : dev ∈ devs) :
    ∃ m', vmMngrInstanceFreeMem m v dev.memdevIdx = .ok (0, m') ∧
      Grown v m₀ m' (devs.erase dev) := by
  obtain ⟨i, hget⟩ := h.someone (List.ne_nil_of_mem hdev)
  obtain ⟨hinit, hid⟩ := vmMngrGetInstance_eq_some hget
  have hd : LiveDev m i dev := h.liveDev hget hdev
  obtain ⟨k, lo, n, hr⟩ := h.kept.owns.range i dev hd
  have hfree := h.kept.owns.freeMem hd hr
  rw [hid] at hfree
  set m₁ : Manager := { m.setVm i (detachedVm (m.vms i) dev.memdevIdx) with
    pool := m.pool.setDev k (released (m.pool.memDevs k) lo n) }
  have hstep : step m (.freeMem v dev.memdevIdx) = .ok m₁ := congrArg (Except.map Prod.snd) hfree
  refine ⟨m₁, hfree, h.changed _ hget (Kept.step h.kept hstep) (h.frame.trans (step_poolFrame h.kept.owns hstep))
    rfl hinit hid ?_ fun d hdm => h.inInt d (List.mem_of_mem_erase hdm)⟩
  have hnodup := h.kept.owns.distinct i hinit
  rw [h.listed hget, List.map_append, List.nodup_append] at hnodup
  have hbefore : ∀ d ∈ (m₀.vms i).attachedDevs, ¬ (d.memdevIdx == dev.memdevIdx) = true :=
    fun d hdm heq => hnodup.2.2 _ (List.mem_map_of_mem hdm) _ (List.mem_map_of_mem hdev) (beq_iff_eq.mp heq)
  rw [detachedVm, h.listed hget, List.eraseP_append_right _ hbefore, eraseP_memdevIdx hnodup.2.1 hdev]

/-- The next channel's memory is a device more. -/
theorem Grown.grant {vmid : ℤ} {ch : Channel} {req : VmMemReq} (h : Grown (readBack vmid) m₀ m devs)
    (hgrant : grant vmid ch m = some (req, m')) :
    0 ≤ readBack vmid ∧ ∃ dev, Grown (readBack vmid) m₀ m' (devs ++ [dev]) ∧ req = vmMemReqOf dev ∧
      placed dev = (readBack ch.nodeId, readBack ch.sizeMb) := by
  obtain ⟨env, _, hgranted⟩ := Option.bind_eq_some_iff.mp hgrant
  obtain ⟨hv, halloc⟩ := granted_eq_some hgranted
  exact ⟨hv, h.alloc halloc⟩

/-! ### The loop -/

/-- Where the loop stands when it has allocated these devices. -/
structure LoopState (v : ℤ) (m₀ : Manager) (st : AttachState) (devs : List MemoryDev) : Prop where
  grown : Grown v m₀ st.server.mngr devs
  nonneg : devs ≠ [] → 0 ≤ v
  memids : st.memids = devs.map MemoryDev.memdevIdx
  plugged : ∀ b ∈ st.plugged, b.vid = v ∧ b.dev ∈ devs

/-- Where it stops: of the device of an `alloc-mem` whose answer was not read it knows nothing. -/
structure LoopEnd (v : ℤ) (m₀ : Manager) (st : AttachState) (devs lost : List MemoryDev) : Prop where
  grown : Grown v m₀ st.server.mngr (devs ++ lost)
  nonneg : devs ≠ [] → 0 ≤ v
  memids : st.memids = devs.map MemoryDev.memdevIdx
  plugged : ∀ b ∈ st.plugged, b.vid = v ∧ b.dev ∈ devs

variable {vmid : ℤ} {ch : Channel} {chs : List Channel} {st st' : AttachState} {result : Raises Unit}
  {lost : List MemoryDev}

theorem LoopState.start {s : Server} (hm : Kept s.mngr) : LoopState v s.mngr ⟨s, [], []⟩ [] :=
  ⟨.start hm, fun h => absurd rfl h, rfl, by simp⟩

theorem LoopState.stop (h : LoopState v m₀ st devs) : LoopEnd v m₀ st devs [] :=
  ⟨by rw [List.append_nil]; exact h.grown, h.nonneg, h.memids, h.plugged⟩

/-- What a channel plugs in: the device that it has allocated, with its range. -/
def plugs (vmid : ℤ) (ch : Channel) (m : Manager) (memid : ℤ) : Option Backing :=
  ch.onAttach.plugsIn m memid (readBack vmid) (readBack ch.nodeId)

theorem plugs_backing {dev : MemoryDev} {b : Backing} (h : Grown (readBack vmid) m₀ m devs) (hdev : dev ∈ devs)
    (hb : plugs vmid ch m dev.memdevIdx = some b) : b = ⟨readBack vmid, dev.memdevIdx, dev.memoryReq⟩ := by
  obtain ⟨env, _, hb⟩ := Option.bind_eq_some_iff.mp hb
  obtain ⟨req, hreq, rfl⟩ := plugsIn_eq_some hb
  rw [h.getMem hdev] at hreq
  rw [Option.some.inj hreq]

/-- What a turn of the loop can do: nothing is added; or a device of which the run learns nothing; or a device
that it then plugs in or not. -/
inductive TurnEnd (vmid : ℤ) (m₀ : Manager) (ch : Channel) (st : AttachState) (devs : List MemoryDev) :
    Raises Unit → AttachState → Prop
  | refused {e : CliError} {server : Server} (hgrant : grant vmid ch st.server.mngr = none)
      (hm : server.mngr = st.server.mngr) :
    TurnEnd vmid m₀ ch st devs (.error e) ⟨server, st.plugged, st.memids⟩
  | unread {e : CliError} {server : Server} {dev : MemoryDev}
      (hgrant : grant vmid ch st.server.mngr = some (vmMemReqOf dev, server.mngr))
      (hgrown : Grown (readBack vmid) m₀ server.mngr (devs ++ [dev])) (hunread : ch.onAlloc.unread = true) :
    TurnEnd vmid m₀ ch st devs (.error e) ⟨server, st.plugged, st.memids⟩
  | added {result : Raises Unit} {server : Server} {dev : MemoryDev}
      (hgrant : grant vmid ch st.server.mngr = some (vmMemReqOf dev, server.mngr))
      (hgrown : Grown (readBack vmid) m₀ server.mngr (devs ++ [dev]))
      (hplaced : placed dev = (readBack ch.nodeId, readBack ch.sizeMb)) (hread : ch.onAlloc.unread = false)
      (hok : result = .ok () → (plugs vmid ch server.mngr dev.memdevIdx).isSome = true) :
    TurnEnd vmid m₀ ch st devs result ⟨server, (plugs vmid ch server.mngr dev.memdevIdx).toList ++ st.plugged,
      st.memids ++ [dev.memdevIdx]⟩

theorem attachChannel_cases (h : Grown (readBack vmid) m₀ st.server.mngr devs)
    (hturn : attachChannel vmid ch st = .ok (result, st')) : TurnEnd vmid m₀ ch st devs result st' := by
  obtain ⟨⟨answer, server⟩, hask, hrest⟩ := bind_eq_ok.mp hturn
  rcases ask_allocMem h.kept.owns hask with ⟨hgrant, hm, e, hread⟩ |
    ⟨req, hgrant, ⟨hunread, e, hread⟩ | ⟨hread, hmemid⟩⟩
  · simp only [hread] at hrest
    cases hrest
    exact .refused hgrant hm
  · obtain ⟨_, dev, hgrown, rfl, _⟩ := h.grant hgrant
    simp only [hread] at hrest
    cases hrest
    exact .unread hgrant hgrown hunread
  · obtain ⟨_, dev, hgrown, rfl, hplaced⟩ := h.grant hgrant
    have hin : InInt dev.memdevIdx := (hgrown.inInt dev (by simp)).2
    simp only [hmemid hin] at hrest
    obtain ⟨⟨attached, site⟩, hattach, hend⟩ := bind_eq_ok.mp hrest
    obtain ⟨hm, hplugged, hok⟩ := ask_attachMem hin hattach
    dsimp only at hm hplugged hok
    cases hend
    rw [hplugged]
    rw [← hm] at hgrant hgrown hok ⊢
    exact .added hgrant hgrown hplaced hread hok

theorem LoopState.refuse {server : Server} (h : LoopState v m₀ st devs) (hm : server.mngr = st.server.mngr) :
    LoopState v m₀ ⟨server, st.plugged, st.memids⟩ devs :=
  ⟨by rw [hm]; exact h.grown, h.nonneg, h.memids, h.plugged⟩

theorem LoopState.lose {server : Server} {dev : MemoryDev} (h : LoopState v m₀ st devs)
    (hgrown : Grown v m₀ server.mngr (devs ++ [dev])) :
    LoopEnd v m₀ ⟨server, st.plugged, st.memids⟩ devs [dev] :=
  ⟨hgrown, h.nonneg, h.memids, h.plugged⟩

theorem LoopState.add {server : Server} {dev : MemoryDev} (h : LoopState (readBack vmid) m₀ st devs)
    (hgrant : grant vmid ch st.server.mngr = some (vmMemReqOf dev, server.mngr))
    (hgrown : Grown (readBack vmid) m₀ server.mngr (devs ++ [dev])) :
    LoopState (readBack vmid) m₀ ⟨server, (plugs vmid ch server.mngr dev.memdevIdx).toList ++ st.plugged,
      st.memids ++ [dev.memdevIdx]⟩ (devs ++ [dev]) := by
  refine ⟨hgrown, fun _ => (h.grown.grant hgrant).1, by simp [h.memids], fun b hb => ?_⟩
  rcases List.mem_append.mp hb with hb | hb
  · rw [plugs_backing hgrown (by simp) (Option.mem_toList.mp hb)]
    exact ⟨rfl, by simp [Backing.dev]⟩
  · exact ⟨(h.plugged b hb).1, List.mem_append_left _ (h.plugged b hb).2⟩

/-- Step lemma of the loop. -/
theorem TurnEnd.loop (h : LoopState (readBack vmid) m₀ st devs)
    (hturn : TurnEnd vmid m₀ ch st devs result st') :
    (∃ devs', LoopState (readBack vmid) m₀ st' devs' ∧ (result = .ok () → st'.plugged ≠ []) ∧
        (st.plugged ≠ [] → st'.plugged ≠ [])) ∨
      ∃ dev e, result = .error e ∧ ch.onAlloc.unread = true ∧ st'.plugged = st.plugged ∧
        LoopEnd (readBack vmid) m₀ st' devs [dev] := by
  cases hturn with
  | refused hgrant hm =>
    exact .inl ⟨devs, h.refuse hm, by nofun, id⟩
  | unread hgrant hgrown hunread =>
    exact .inr ⟨_, _, rfl, hunread, rfl, h.lose hgrown⟩
  | added hgrant hgrown hplaced hread hok =>
    rename_i server dev
    refine .inl ⟨devs ++ [dev], h.add hgrant hgrown, fun hres => ?_, fun hne => ?_⟩
    · obtain ⟨b, hb⟩ := Option.isSome_iff_exists.mp (hok hres)
      simp [hb]
    · simp [hne]

/-- Run lemma: where a loop stops, whatever it began with. -/
theorem attachChannels_spec (h : LoopState (readBack vmid) m₀ st devs)
    (hrun : attachChannels vmid chs st = .ok (result, st')) :
    ∃ devs' lost, LoopEnd (readBack vmid) m₀ st' devs' lost ∧ (st.plugged ≠ [] → st'.plugged ≠ []) ∧
      (lost = [] ∨ ∃ dev, lost = [dev] ∧ ∃ ch ∈ chs, ch.onAlloc.unread = true) := by
  induction chs generalizing st devs with
  | nil =>
    cases hrun
    exact ⟨devs, [], h.stop, id, .inl rfl⟩
  | cons ch chs ih =>
    obtain ⟨⟨res, st₁⟩, hturn, hrest⟩ := bind_eq_ok.mp hrun
    rcases (attachChannel_cases h.grown hturn).loop h with
      ⟨devs₁, h₁, _, hgrow⟩ | ⟨dev, e, rfl, hunread, hsame, hend⟩
    · cases res with
      | error e =>
        cases hrest
        exact ⟨devs₁, [], h₁.stop, hgrow, .inl rfl⟩
      | ok u =>
        obtain ⟨devs', lost, hend, hkept, hlost⟩ := ih h₁ hrest
        exact ⟨devs', lost, hend, fun hne => hkept (hgrow hne), hlost.imp_right fun ⟨dev, hdev, ch', hch, hunread⟩ =>
          ⟨dev, hdev, ch', List.mem_cons_of_mem _ hch, hunread⟩⟩
    · cases hrest
      exact ⟨devs, [dev], hend, fun hne => by rwa [hsame], .inr ⟨dev, rfl, ch, List.mem_cons_self, hunread⟩⟩

/-! ### The rollback -/

/-- The devices whose `free-mem` is not served. -/
def unfreed (onFree : ℤ → Delivery) (devs : List MemoryDev) : List MemoryDev :=
  devs.filter fun dev => (onFree dev.memdevIdx).served.isNone

variable {onFree : ℤ → Delivery}

theorem unfreed_eq_nil : unfreed onFree devs = [] ↔ ∀ dev ∈ devs, (onFree dev.memdevIdx).served.isSome = true := by
  simp [unfreed, List.filter_eq_nil_iff, Option.isSome_iff_ne_none]

/-- The rollback frees one device after the other, where its requests are served. -/
theorem freeMemids_spec {s s' : Server} (kept : List MemoryDev)
    (h : Grown (readBack vmid) m₀ s.mngr (kept ++ (devs ++ lost))) (hv : devs ≠ [] → 0 ≤ readBack vmid)
    (hrun : freeMemids onFree vmid (devs.map MemoryDev.memdevIdx) s = .ok s') :
    Grown (readBack vmid) m₀ s'.mngr (kept ++ (unfreed onFree devs ++ lost)) := by
  induction devs generalizing s kept with
  | nil =>
    cases hrun
    exact h
  | cons dev devs ih =>
    obtain ⟨⟨answer, s₁⟩, hask, hrest⟩ := bind_eq_ok.mp hrun
    rcases ask_cases hask with ⟨hserved, rfl, _⟩ | ⟨env, response, hserved, hserve, _⟩
    · have hleft : unfreed onFree (dev :: devs) = dev :: unfreed onFree devs :=
        List.filter_cons_of_pos (by simp [hserved])
      rw [hleft, List.cons_append, List.append_cons]
      refine ih _ ?_ (fun _ => hv (by simp)) hrest
      rwa [← List.append_cons, ← List.cons_append]
    · have hleft : unfreed onFree (dev :: devs) = unfreed onFree devs :=
        List.filter_cons_of_neg (by simp [hserved])
      obtain ⟨m₁, hfree, hgrown⟩ := h.free_of_mem (by simp : dev ∈ kept ++ (dev :: devs ++ lost))
      have hnew : dev ∉ kept := by
        have hnodup := h.nodup.of_map
        rw [List.nodup_append] at hnodup
        exact fun hdev => hnodup.2.2 dev hdev dev (by simp) rfl
      rw [List.erase_append_right _ hnew, List.cons_append, List.erase_cons_head] at hgrown
      have hin := h.inInt dev (by simp)
      have hm : m₁ = s₁.mngr := by
        rcases served_freeMem hserve with ⟨hneg, _⟩ | ⟨ret, hcall⟩
        · have hnonneg := hv (by simp)
          rw [readBack_of_inInt hin.2] at hneg
          omega
        · rw [readBack_of_inInt hin.2, hfree] at hcall
          exact congrArg Prod.snd (Except.ok.inj hcall)
      rw [hleft]
      exact ih _ (hm ▸ hgrown) (fun _ => hv (by simp)) hrest

/-- The rollback of a loop that has stopped. -/
theorem LoopEnd.freed {server : Server} (h : LoopEnd (readBack vmid) m₀ st devs lost)
    (hfree : freeMemids onFree vmid st.memids st.server = .ok server) :
    Grown (readBack vmid) m₀ server.mngr (unfreed onFree devs ++ lost) := by
  rw [h.memids] at hfree
  exact freeMemids_spec [] h.grown h.nonneg hfree

/-! ### The whole run -/

/-- What a run that raises leaves to the VM: what it does not get to free, and what it knows nothing of. -/
theorem handleAttach_left {plan : List Channel} {s : Server} {e : CliError} (hm : Kept s.mngr)
    (h : handleAttach onFree vmid plan s = .ok (.error e, st)) :
    ∃ devs lost, Grown (readBack vmid) s.mngr st.server.mngr (unfreed onFree devs ++ lost) ∧
      (lost = [] ∨ ∃ dev, lost = [dev] ∧ ∃ ch ∈ plan, ch.onAlloc.unread = true) := by
  obtain ⟨⟨result, st₁⟩, hrun, hrest⟩ := bind_eq_ok.mp h
  obtain ⟨devs, lost, hstop, _, hlost⟩ := attachChannels_spec (.start hm) hrun
  cases result with
  | ok u => cases hrest
  | error e' =>
    obtain ⟨server, hfree, hend⟩ := bind_eq_ok.mp hrest
    cases hend
    exact ⟨devs, lost, hstop.freed hfree, hlost⟩

/-- The pool and the device lists are as they were in `m₀`, and no device is plugged in whose
segments went back to the pool. -/
structure RolledBack (m₀ : Manager) (st : AttachState) : Prop where
  pool : st.server.mngr.pool = m₀.pool
  lists : SameLists m₀ st.server.mngr
  plugged : PluggedOwned ⟨st.server.mngr, st.plugged⟩

/-- The segments of an added device belong to nobody before it is added. -/
theorem Grown.fresh_segments (h : Grown v m₀ m devs) (hm₀ : Kept m₀) {dev : MemoryDev}
    (hdev : dev ∈ devs) : ∃ k < m₀.pool.numDevs, ∃ p, Covers m₀.pool.segmentSizeMb k p dev ∧
      ¬ Owned (m₀.pool.memDevs k) v p := by
  obtain ⟨i, hget⟩ := h.someone (List.ne_nil_of_mem hdev)
  obtain ⟨hinit₀, hid₀⟩ := h.getInstance hget
  obtain ⟨hinit, hid⟩ := vmMngrGetInstance_eq_some hget
  have hlist : (m.vms i).attachedDevs = (m₀.vms i).attachedDevs ++ devs := by
    rw [h.attachedDevs i hinit₀, if_pos hid₀]
  have hd : LiveDev m i dev := ⟨hinit, by rw [hlist]; exact List.mem_append_right _ hdev⟩
  obtain ⟨k, lo, n, hr⟩ := h.kept.owns.range i dev hd
  have hcovers : Covers m.pool.segmentSizeMb k lo dev :=
    (hr.covers_iff h.kept.owns.geometry k lo).mpr ⟨rfl, le_rfl, by have := hr.positive; omega⟩
  refine ⟨k, h.frame.numDevs ▸ hr.device, lo, h.frame.segmentSizeMb ▸ hcovers, fun hown => ?_⟩
  obtain ⟨j, hj, hjv, hcount⟩ :=
    (hm₀.owns.owned_iff (h.frame.numDevs ▸ hr.device) lo v).mp hown
  obtain rfl : j = i := by
    by_contra hne
    exact h.other hget hj hne hjv
  obtain ⟨old, hold, hcov⟩ := List.countP_pos_iff.mp (show 0 < coverCount m₀ j k lo by omega)
  have hlive : LiveDev m j old := ⟨hinit, by rw [hlist]; exact List.mem_append_left _ hold⟩
  have hne : dev.memdevIdx ≠ old.memdevIdx := by
    have hnodup := h.kept.owns.distinct j hinit
    rw [hlist, List.map_append, List.nodup_append] at hnodup
    exact fun heq => hnodup.2.2 _ (List.mem_map_of_mem hold) _ (List.mem_map_of_mem hdev) heq.symm
  refine h.kept.owns.disjoint hd hlive (.inr hne) k lo ⟨hcovers, ?_⟩
  rw [h.frame.segmentSizeMb]
  simpa using hcov

/-- A rollback is complete where nothing is plugged in and no device is left. -/
theorem LoopEnd.rolledBack {s : Server} (h : LoopEnd (readBack vmid) m₀ st devs lost) (hm₀ : Kept m₀)
    {left : List MemoryDev} (hend : Grown (readBack vmid) m₀ s.mngr left) :
    RolledBack m₀ ⟨s, st.plugged, st.memids⟩ ↔ st.plugged = [] ∧ left = [] := by
  constructor
  · intro hback
    have hnone := hend.sameLists_iff.mp hback.lists
    have hpool : s.mngr.pool = m₀.pool := hback.pool
    refine ⟨?_, hnone⟩
    by_contra hne
    obtain ⟨b, hb⟩ := List.exists_mem_of_ne_nil _ hne
    obtain ⟨hvid, hdev⟩ := h.plugged b hb
    obtain ⟨k, hk, p, hcovers, hfree⟩ := h.grown.fresh_segments hm₀ (List.mem_append_left lost hdev)
    have hown := hback.plugged b hb k (by rwa [hpool]) p (by rwa [hpool])
    rw [hpool, hvid] at hown
    exact hfree hown
  · rintro ⟨hnil, rfl⟩
    have hlists := hend.sameLists
    refine ⟨hlists.pool_eq hm₀ hend.kept hend.frame, hlists, fun b hb => ?_⟩
    rw [hnil] at hb
    cases hb

/-- The first channel leaves nothing that one `free-mem` does not undo: nothing is allocated for it, or its
`alloc-mem` is answered, QEMU does not plug the device in, and its `free-mem` is served. -/
def FirstUndone (vmid : ℤ) (onFree : ℤ → Delivery) (m : Manager) : List Channel → Prop
  | [] => True
  | ch :: _ => ∀ g ∈ grant vmid ch m, ch.onAlloc.unread = false ∧ plugs vmid ch g.2 g.1.memdevIdx = none ∧
      (onFree g.1.memdevIdx).served.isSome = true

/-- For every plan and whatever becomes of its requests: the rollback of a run that raises is complete just
where the first channel leaves nothing that it does not undo. -/
theorem rolledBack_iff {plan : List Channel} {s : Server} {e : CliError} (hp : InitialPool pool)
    (hreach : Reaches step (initialManager pool) s.mngr)
    (hraise : handleAttach onFree vmid plan s = .ok (.error e, st)) :
    RolledBack s.mngr st ↔ FirstUndone vmid onFree s.mngr plan := by
  have hm := kept_reachable hp hreach
  obtain ⟨⟨result, st₁⟩, hrun, hrest⟩ := bind_eq_ok.mp hraise
  cases result with
  | ok u =>
    obtain ⟨⟩ := u
    cases hrest
  | error e' =>
    obtain ⟨server, hfree, hend⟩ := bind_eq_ok.mp hrest
    cases hend
    cases plan with
    | nil => cases hrun
    | cons ch plan =>
      obtain ⟨⟨res, st₂⟩, hturn, hrest⟩ := bind_eq_ok.mp hrun
      have hcases := attachChannel_cases (LoopState.start (v := readBack vmid) hm).grown hturn
      have hstart : LoopState (readBack vmid) s.mngr ⟨s, [], []⟩ [] := .start hm
      cases hcases with
      | refused hgrant hsame =>
        cases hrest
        have hstop := (hstart.refuse hsame).stop
        rw [hstop.rolledBack hm (hstop.freed hfree)]
        refine iff_of_true ⟨rfl, rfl⟩ fun g hg => ?_
        rw [hgrant] at hg
        cases hg
      | unread hgrant hgrown hunread =>
        cases hrest
        have hstop := hstart.lose hgrown
        rw [hstop.rolledBack hm (hstop.freed hfree)]
        refine iff_of_false (fun h => by cases h.2) fun hundone => ?_
        rw [(hundone _ hgrant).1] at hunread
        cases hunread
      | added hgrant hgrown hplaced hread hok =>
        rename_i server₂ dev
        have hadded := hstart.add hgrant hgrown
        have hundone : FirstUndone vmid onFree s.mngr (ch :: plan) ↔
            plugs vmid ch server₂.mngr dev.memdevIdx = none ∧ (onFree dev.memdevIdx).served.isSome = true := by
          simp only [FirstUndone, hgrant, Option.mem_some_iff, forall_eq', hread, true_and]
          rfl
        rw [hundone]
        cases res with
        | ok u =>
          obtain ⟨b, hb⟩ := Option.isSome_iff_exists.mp (hok rfl)
          obtain ⟨devs', lost, hstop, hkept, _⟩ := attachChannels_spec hadded hrest
          rw [hstop.rolledBack hm (hstop.freed hfree)]
          refine iff_of_false (fun h => hkept (by simp [hb]) h.1) fun h => ?_
          rw [hb] at h
          cases h.1
        | error e'' =>
          cases hrest
          have hstop := hadded.stop
          rw [hstop.rolledBack hm (hstop.freed hfree)]
          refine and_congr ?_ ?_
          · rw [List.append_nil, Option.toList_eq_nil_iff]
          · rw [List.append_nil, List.nil_append, unfreed_eq_nil]
            simp

/-- A QEMU that plugs in the first device and refuses the second. -/
def refusingPlan : List Channel :=
  [⟨0, 4, .answered silentEnv, .answered { silentEnv with qmp := willingQmp }⟩,
    ⟨1, 4, .answered silentEnv, .answered silentEnv⟩]

def freesAnswered : ℤ → Delivery := fun _ => .answered silentEnv

def twoChannelVm : List Op := [.create 0 "0".toList, .allocMem 0 0 4, .allocMem 1 0 4]

theorem refused_run : ∃ pool m e st,
    memoryPoolInit zeroBuffers (some (twoDevConfig "/dev/dax0.0" "/dev/dax1.0")) = .ok (some pool) ∧
      run step (initialManager pool) twoChannelVm = .ok m ∧
      handleAttach freesAnswered 0 refusingPlan ⟨m, []⟩ = .ok (.error e, st) ∧
      st.plugged = [⟨0, 2, ⟨0, "/dev/dax0.0".toList, 4, 4, 4⟩⟩] ∧
      st.server.mngr.pool.numDevs = 2 ∧ st.server.mngr.pool.segmentSizeMb = 4 ∧
      (st.server.mngr.pool.memDevs 0).segments 1 = freeSegment := by
  obtain ⟨pool, hload, hview⟩ := exists_of_view
    (f := fun pool => (run step (initialManager pool) twoChannelVm).toOption.bind fun m : Manager =>
      (handleAttach freesAnswered 0 refusingPlan ⟨m, []⟩).toOption.map
        fun r : Raises Unit × AttachState => decide (r.1.isOk = false ∧
          r.2.plugged = [⟨0, 2, ⟨0, "/dev/dax0.0".toList, 4, 4, 4⟩⟩] ∧
          r.2.server.mngr.pool.numDevs = 2 ∧ r.2.server.mngr.pool.segmentSizeMb = 4 ∧
          (r.2.server.mngr.pool.memDevs 0).segments 1 = freeSegment))
    (b := some true)
    (x := memoryPoolInit zeroBuffers (some (twoDevConfig "/dev/dax0.0" "/dev/dax1.0")))
    (by decide +kernel)
  obtain ⟨m, hrun, hview⟩ := of_toOption_bind hview
  obtain ⟨r, hattach, hview⟩ := Option.map_eq_some_iff.mp hview
  obtain ⟨result, st⟩ := r
  have hattach := ok_of_toOption hattach
  obtain ⟨hraised, hplugged, hdevs, hseg, hfree⟩ := of_decide_eq_true hview
  cases result with
  | ok u => cases hraised
  | error e => exact ⟨pool, m, e, st, hload, hrun, hattach, hplugged, hdevs, hseg, hfree⟩

theorem rolledBack_iff_refused : ∃ m e st,
    handleAttach freesAnswered 0 refusingPlan ⟨m, []⟩ = .ok (.error e, st) ∧
      (RolledBack m st ↔ FirstUndone 0 freesAnswered m refusingPlan) := by
  obtain ⟨pool, m, e, st, hload, hrun, hattach, _⟩ := refused_run
  exact ⟨m, e, st, hattach, rolledBack_iff (s := ⟨m, []⟩) (memoryPoolInit_initial hload)
    ⟨_, hrun⟩ hattach⟩

/-- The first device stays plugged in with its segments free. -/
theorem rolledBack_fails_refused : ∃ pool m e st,
    memoryPoolInit zeroBuffers (some (twoDevConfig "/dev/dax0.0" "/dev/dax1.0")) = .ok (some pool) ∧
      run step (initialManager pool) twoChannelVm = .ok m ∧
      handleAttach freesAnswered 0 refusingPlan ⟨m, []⟩ = .ok (.error e, st) ∧ ¬ RolledBack m st := by
  obtain ⟨pool, m, e, st, hload, hrun, hattach, hplugged, hdevs, hseg, hfree⟩ := refused_run
  refine ⟨pool, m, e, st, hload, hrun, hattach, fun hback => ?_⟩
  have hown := hback.plugged ⟨0, 2, ⟨0, "/dev/dax0.0".toList, 4, 4, 4⟩⟩ (by simp [hplugged]) 0
    (by dsimp only; omega) 1 (by dsimp only; rw [hseg]; decide)
  rw [Owned, hfree] at hown
  cases hown.1

end Ramryder.AttachRollback
