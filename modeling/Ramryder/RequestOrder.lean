import Ramryder.ResourceManagerSpec

/-! Requests that change the memory of different VMs on different nodes, in both orders:
each request changes one slot and one device, and reads no other. -/
namespace Ramryder.RequestOrder
open CInt CMachine CText GuestAgents MemoryPool MemoryPoolSpec Ownership PoolConfig
  ResourceManager ResourceManagerSpec Runs VmManager VmManagerSpec

variable {m m' : Manager} {pool : Pool} {nodeId vmId : ℤ} {α β γ : Type}

theorem map_bind {x : Outcome α} {f : α → Outcome β} {g : β → γ} :
    (x >>= f).map g = x >>= fun a => (f a).map g := by
  cases x with
  | error e => rfl
  | ok a => rfl

theorem map_ok (a : α) (g : α → β) : (Except.ok a : Outcome α).map g = .ok (g a) := rfl

/-! ### Changes of one slot and one device -/

/-- What a request writes: one device and one slot. -/
structure Change where
  device : ℕ
  dev : MemoryDaxDev
  slot : Fin maxNumVm
  vm : VmInstance

def Change.apply (c : Change) (m : Manager) : Manager :=
  { m.setVm c.slot c.vm with pool := m.pool.setDev c.device c.dev }

/-- What the lookups go by stays as it is. -/
structure Change.Keeps (c : Change) (m : Manager) : Prop where
  nodeId : c.dev.nodeId = (m.pool.memDevs c.device).nodeId
  vmId : c.vm.vmId = (m.vms c.slot).vmId
  initialized : c.vm.initialized = (m.vms c.slot).initialized

theorem apply_vms (c : Change) (m : Manager) (j : Fin maxNumVm) :
    (c.apply m).vms j = if j = c.slot then c.vm else m.vms j := setVm_vms m c.slot j c.vm

theorem apply_comm {c c' : Change} (hdevice : c.device ≠ c'.device) (hslot : c.slot ≠ c'.slot)
    (m : Manager) : c.apply (c'.apply m) = c'.apply (c.apply m) := by
  simp only [Change.apply, Manager.setVm, Pool.setDev, Manager.mk.injEq, Pool.mk.injEq, true_and,
    and_true]
  exact ⟨Function.update_comm hslot.symm _ _ _, Function.update_comm hdevice.symm _ _ _⟩

theorem getInstance_congr {m' : Manager} (hid : ∀ i, (m'.vms i).vmId = (m.vms i).vmId)
    (hinit : ∀ i, (m'.vms i).initialized = (m.vms i).initialized) (vmId : ℤ) :
    vmMngrGetInstance m' vmId = vmMngrGetInstance m vmId := by
  simp only [vmMngrGetInstance, hid, hinit]

theorem Change.Keeps.getInstance {c : Change} (hk : c.Keeps m) (vmId : ℤ) :
    vmMngrGetInstance (c.apply m) vmId = vmMngrGetInstance m vmId := by
  refine getInstance_congr (fun i => ?_) (fun i => ?_) vmId
  · rw [apply_vms]
    split_ifs with hi
    · rw [hi, hk.vmId]
    · rfl
  · rw [apply_vms]
    split_ifs with hi
    · rw [hi, hk.initialized]
    · rfl

/-! ### The pool under a change of another device -/

theorem findMemDev_setDev {l : ℕ} {d : MemoryDaxDev} (hd : d.nodeId = (pool.memDevs l).nodeId)
    (nodeId : ℤ) : findMemDev (pool.setDev l d) nodeId = findMemDev pool nodeId := by
  have hnode : ∀ i, ((pool.setDev l d).memDevs i).nodeId = (pool.memDevs i).nodeId := fun i => by
    rw [setDev_memDevs]
    split_ifs with hi
    · rw [hi, hd]
    · rfl
  simp only [findMemDev, hnode, setDev_numDevs]

theorem setDev_comm {k l : ℕ} (hkl : k ≠ l) (pool : Pool) (d d' : MemoryDaxDev) :
    (pool.setDev k d).setDev l d' = (pool.setDev l d').setDev k d := by
  simp only [Pool.setDev, Pool.mk.injEq, and_true]
  exact Function.update_comm hkl _ _ _

theorem memoryPoolAllocateSegments_frame {l : ℕ} {d : MemoryDaxDev}
    (hd : d.nodeId = (pool.memDevs l).nodeId) (hne : (pool.memDevs l).nodeId ≠ nodeId)
    (vmId sizeMb : ℤ) :
    memoryPoolAllocateSegments (pool.setDev l d) nodeId vmId sizeMb =
      (memoryPoolAllocateSegments pool nodeId vmId sizeMb).map fun r => (r.1, r.2.setDev l d) := by
  simp only [memoryPoolAllocateSegments, setDev_segmentSizeMb, findMemDev_setDev hd, map_bind]
  congr 1
  funext al
  cases al with
  | false => rfl
  | true =>
    cases hfind : findMemDev pool nodeId with
    | none => rfl
    | some k =>
      have hk : k ≠ l := by
        rintro rfl
        exact hne (findMemDev_eq_some hfind).2
      simp only [Bool.not_true, Bool.false_eq_true, if_false, map_bind, setDev_memDevs, if_neg hk]
      congr 1
      funext r
      split_ifs
      · rw [map_ok, setDev_comm hk.symm]
      · simp only [map_bind, map_ok, setDev_comm hk.symm]

theorem memoryPoolReleaseSegments_frame {l : ℕ} {d : MemoryDaxDev}
    (hd : d.nodeId = (pool.memDevs l).nodeId) (hne : (pool.memDevs l).nodeId ≠ nodeId)
    (vmId offsetMb sizeMb : ℤ) :
    memoryPoolReleaseSegments (pool.setDev l d) nodeId vmId offsetMb sizeMb =
      (memoryPoolReleaseSegments pool nodeId vmId offsetMb sizeMb).map fun r =>
        (r.1, r.2.setDev l d) := by
  simp only [memoryPoolReleaseSegments, setDev_segmentSizeMb, findMemDev_setDev hd, map_bind]
  congr 1
  funext size
  cases size with
  | false => rfl
  | true =>
    simp only [Bool.not_true, Bool.false_eq_true, if_false, map_bind]
    congr 1
    funext offset
    cases offset with
    | false => rfl
    | true =>
      cases hfind : findMemDev pool nodeId with
      | none => rfl
      | some k =>
        have hk : k ≠ l := by
          rintro rfl
          exact hne (findMemDev_eq_some hfind).2
        simp only [Bool.not_true, Bool.false_eq_true, if_false, map_bind, setDev_memDevs, if_neg hk]
        congr 1
        funext r
        rw [map_ok, setDev_comm hk.symm]

/-! ### The calls under a change of another slot and device -/

/-- The change is of another VM's slot and of another node's device. -/
structure Change.Elsewhere (c : Change) (m : Manager) (vmId nodeId : ℤ) : Prop where
  keeps : c.Keeps m
  slot : ∀ i, vmMngrGetInstance m vmId = some i → i ≠ c.slot
  device : (m.pool.memDevs c.device).nodeId ≠ nodeId

theorem apply_setVm {c : Change} {i : Fin maxNumVm} (hi : i ≠ c.slot) (m : Manager) (pool : Pool)
    (vm : VmInstance) :
    { (c.apply m).setVm i vm with pool := pool.setDev c.device c.dev } =
      c.apply { m.setVm i vm with pool := pool } := by
  simp only [Change.apply, Manager.setVm, Manager.mk.injEq, true_and, and_true]
  exact Function.update_comm hi.symm _ _ _

theorem vmMngrInstanceAllocMem_frame {c : Change} (hc : c.Elsewhere m vmId nodeId) (sizeMb : ℤ) :
    vmMngrInstanceAllocMem (c.apply m) nodeId vmId sizeMb =
      (vmMngrInstanceAllocMem m nodeId vmId sizeMb).map fun r => (r.1, c.apply r.2) := by
  simp only [vmMngrInstanceAllocMem, hc.keeps.getInstance]
  cases hget : vmMngrGetInstance m vmId with
  | none => rfl
  | some i =>
    have hi := hc.slot i hget
    have hpool : (c.apply m).pool = m.pool.setDev c.device c.dev := rfl
    simp only [hpool, memoryPoolAllocateSegments_frame hc.keeps.nodeId hc.device]
    cases halloc : memoryPoolAllocateSegments m.pool nodeId vmId sizeMb with
    | error e => rfl
    | ok r =>
      obtain ⟨req, pool⟩ := r
      cases req with
      | none => rfl
      | some req =>
        have hvm : (c.apply m).vms i = m.vms i := (apply_vms c m i).trans (if_neg hi)
        have hself : ∀ p, vmMngrGetInstance { m with pool := p } vmId = some i := fun _ => hget
        have happlied : ∀ p, vmMngrGetInstance { c.apply m with pool := p } vmId = some i :=
          fun _ => (hc.keeps.getInstance vmId).trans hget
        simp only [map_ok, ok_bind, vmMngrGetNewMemdevIdx, hself, happlied, hvm, map_bind, bind_assoc]
        congr 1
        funext counter
        simp only [setVm_vms_self, setVm_setVm]
        rw [Except.ok.injEq, Prod.mk.injEq]
        exact ⟨rfl, apply_setVm hi m pool _⟩

theorem vmMngrInstanceFreeMem_frame {c : Change} {memdevIdx : ℤ} (hc : c.Elsewhere m vmId nodeId)
    (hnode : ∀ i dev, vmMngrGetInstance m vmId = some i →
      findMemoryDev (m.vms i) memdevIdx = some dev → dev.memoryReq.nodeId = nodeId) :
    vmMngrInstanceFreeMem (c.apply m) vmId memdevIdx =
      (vmMngrInstanceFreeMem m vmId memdevIdx).map fun r => (r.1, c.apply r.2) := by
  simp only [vmMngrInstanceFreeMem, hc.keeps.getInstance]
  cases hget : vmMngrGetInstance m vmId with
  | none => rfl
  | some i =>
    have hi := hc.slot i hget
    have hvm : (c.apply m).vms i = m.vms i := (apply_vms c m i).trans (if_neg hi)
    have hpool : (c.apply m).pool = m.pool.setDev c.device c.dev := rfl
    simp only [hvm, hpool]
    cases hdev : findMemoryDev (m.vms i) memdevIdx with
    | none => rfl
    | some dev =>
      have hne : (m.pool.memDevs c.device).nodeId ≠ dev.memoryReq.nodeId := by
        rw [hnode i dev hget hdev]
        exact hc.device
      simp only [memoryPoolReleaseSegments_frame hc.keeps.nodeId hne]
      cases hrel : memoryPoolReleaseSegments m.pool dev.memoryReq.nodeId vmId
          dev.memoryReq.offsetMb dev.memoryReq.sizeMb with
      | error e => rfl
      | ok r =>
        simp only [map_ok, ok_bind]
        split_ifs
        · rfl
        · rw [map_ok, Except.ok.injEq, Prod.mk.injEq]
          exact ⟨rfl, apply_setVm hi m r.2 _⟩

/-! ### Requests -/

/-- An `alloc-mem` for the VM on the node, or a `free-mem` of a device of the VM that lies, if
there is such a device, on the node. -/
inductive About (m : Manager) (vmId nodeId : ℤ) : Command × Text → Prop
  | alloc {args : Text} {sizeMb : ℤ}
      (hargs : sscanf "nid=%d vid=%d size=%d" args = [.int nodeId, .int vmId, .int sizeMb]) :
      About m vmId nodeId (.allocMem, args)
  | free {args : Text} {memdevIdx : ℤ}
      (hargs : sscanf "vid=%d memid=%d" args = [.int vmId, .int memdevIdx])
      (hnode : ∀ i dev, LiveDev m i dev → (m.vms i).vmId = vmId → dev.memdevIdx = memdevIdx →
        dev.memoryReq.nodeId = nodeId) :
      About m vmId nodeId (.freeMem, args)

/-- A request that names the device to free. -/
def Frees (vmId memdevIdx : ℤ) (r : Command × Text) : Prop :=
  r.1 = .freeMem ∧ sscanf "vid=%d memid=%d" r.2 = [.int vmId, .int memdevIdx]

def serve (env : ServerEnv) (m : Manager) (r : Command × Text) :
    Outcome (Option Text × Manager) := rpcHandle env m r.2 r.1

/-- Both responses and the manager after both requests. -/
def serveTwo (env : ServerEnv) (m : Manager) (r₁ r₂ : Command × Text) :
    Outcome (Option Text × Option Text × Manager) := do
  let (first, m) ← serve env m r₁
  let (second, m) ← serve env m r₂
  .ok (first, second, m)

theorem serve_alloc {env : ServerEnv} {args : Text} {nid vid sizeMb : ℤ}
    (hargs : sscanf "nid=%d vid=%d size=%d" args = [.int nid, .int vid, .int sizeMb]) :
    serve env m (.allocMem, args) =
      if nid < 0 ∨ vid < 0 ∨ sizeMb ≤ 0 then .ok (some invalidArgs, m)
      else (vmMngrInstanceAllocMem m nid vid sizeMb).map fun r =>
        (some (match r.1 with
          | some req => allocMemResponse req
          | none => snprintf bufferSize "Allocate failed" []), r.2) := by
  simp only [serve, rpcHandle, rpcHandleAllocMem, hargs]
  split_ifs
  · rfl
  · cases vmMngrInstanceAllocMem m nid vid sizeMb with
    | error e => rfl
    | ok r =>
      obtain ⟨req, m'⟩ := r
      cases req with
      | none => rfl
      | some req => rfl

theorem serve_free {env : ServerEnv} {args : Text} {vid memid : ℤ}
    (hargs : sscanf "vid=%d memid=%d" args = [.int vid, .int memid]) :
    serve env m (.freeMem, args) =
      if vid < 0 ∨ memid < 0 then .ok (some invalidArgs, m)
      else (vmMngrInstanceFreeMem m vid memid).map fun r =>
        (some (if r.1 = 0 then snprintf bufferSize "Release success" []
          else snprintf bufferSize "Release failed" []), r.2) := by
  simp only [serve, rpcHandle, rpcHandleFreeMem, hargs]
  split_ifs
  · rfl
  · cases vmMngrInstanceFreeMem m vid memid with
    | error e => rfl
    | ok r =>
      simp only [ok_bind, map_ok]
      split_ifs
      · rfl
      · rfl

/-- A request does not see a change elsewhere, and leaves it there. -/
theorem serve_frame {env : ServerEnv} {c : Change} {r : Command × Text} (h : About m vmId nodeId r)
    (hc : c.Elsewhere m vmId nodeId) :
    serve env (c.apply m) r = (serve env m r).map fun s => (s.1, c.apply s.2) := by
  cases h with
  | alloc hargs =>
    rw [serve_alloc hargs, serve_alloc hargs, vmMngrInstanceAllocMem_frame hc]
    split_ifs
    · rfl
    · cases vmMngrInstanceAllocMem m nodeId vmId _ with
      | error e => rfl
      | ok r => rfl
  | @free args memdevIdx hargs hnode =>
    have hfound : ∀ i dev, vmMngrGetInstance m vmId = some i →
        findMemoryDev (m.vms i) memdevIdx = some dev → dev.memoryReq.nodeId = nodeId := by
      intro i dev hget hdev
      obtain ⟨hinit, hid⟩ := vmMngrGetInstance_eq_some hget
      exact hnode i dev ⟨hinit, List.mem_of_find?_eq_some hdev⟩ hid
        (by simpa using List.find?_some hdev)
    rw [serve_free hargs, serve_free hargs, vmMngrInstanceFreeMem_frame hc hfound]
    split_ifs
    · rfl
    · cases vmMngrInstanceFreeMem m vmId memdevIdx with
      | error e => rfl
      | ok r => rfl

/-- What a request does is a change of its VM's slot and its node's device, or nothing. -/
theorem serve_change (ho : Owns m) {env : ServerEnv} {r : Command × Text} {a : Option Text}
    (h : About m vmId nodeId r) (hs : serve env m r = .ok (a, m')) :
    m' = m ∨ ∃ c : Change, c.Keeps m ∧ vmMngrGetInstance m vmId = some c.slot ∧
      (m.pool.memDevs c.device).nodeId = nodeId ∧ m' = c.apply m := by
  cases h with
  | @alloc args sizeMb hargs =>
    rw [serve_alloc hargs] at hs
    split_ifs at hs
    · cases hs
      exact .inl rfl
    · obtain ⟨⟨res, m₁⟩, hres, hs⟩ := map_eq_ok.mp hs
      cases hs
      rcases vmMngrInstanceAllocMem_ok ho.geometry.segmentSize hres with
        ⟨_, rfl⟩ | ⟨i, req, pool, k, lo, n, hget, hal, _, _, rfl⟩
      · exact .inl rfl
      · right
        refine ⟨⟨k, allocated (m.pool.memDevs k) vmId lo n, i, attachedVm (m.vms i) req⟩,
          ⟨rfl, rfl, rfl⟩, hget, (findMemDev_eq_some hal.found).2, ?_⟩
        rw [hal.after]
        rfl
  | @free args memdevIdx hargs hnode =>
    rw [serve_free hargs] at hs
    split_ifs at hs
    · cases hs
      exact .inl rfl
    · obtain ⟨⟨ret, m₁⟩, hres, hs⟩ := map_eq_ok.mp hs
      cases hs
      rcases ho.freeMem_ok hres with
        ⟨_, rfl⟩ | ⟨_, i, dev, k, lo, n, hget, hd, hidx, hr, rfl⟩
      · exact .inl rfl
      · right
        have hlies := hnode i dev hd (vmMngrGetInstance_eq_some hget).2 hidx
        rw [hr.request] at hlies
        exact ⟨⟨k, released (m.pool.memDevs k) lo n, i, detachedVm (m.vms i) memdevIdx⟩,
          ⟨rfl, rfl, rfl⟩, hget, (ho.geometry.node k hr.device).trans hlies, rfl⟩

theorem change_elsewhere {c : Change} {v w k l : ℤ} (hvw : v ≠ w) (hkl : k ≠ l)
    (hkeeps : c.Keeps m) (hslot : vmMngrGetInstance m v = some c.slot)
    (hdevice : (m.pool.memDevs c.device).nodeId = k) : c.Elsewhere m w l := by
  refine ⟨hkeeps, fun i hi => ?_, by rw [hdevice]; exact hkl⟩
  rintro rfl
  exact hvw ((vmMngrGetInstance_eq_some hslot).2.symm.trans (vmMngrGetInstance_eq_some hi).2)

/-- One order that goes through gives the other. -/
theorem serveTwo_swap (ho : Owns m) {env : ServerEnv} {r₁ r₂ : Command × Text} {v w k l : ℤ}
    (hvw : v ≠ w) (hkl : k ≠ l) (h₁ : About m v k r₁) (h₂ : About m w l r₂) {a b : Option Text}
    (h : serveTwo env m r₁ r₂ = .ok (a, b, m')) : serveTwo env m r₂ r₁ = .ok (b, a, m') := by
  obtain ⟨⟨a', m₁⟩, hfirst, h⟩ := bind_eq_ok.mp h
  obtain ⟨⟨b', m₂⟩, hsecond, h⟩ := bind_eq_ok.mp h
  cases h
  rcases serve_change ho h₁ hfirst with rfl | ⟨c, hkeeps, hslot, hdevice, rfl⟩
  · rcases serve_change ho h₂ hsecond with rfl | ⟨c, hkeeps, hslot, hdevice, rfl⟩
    · rw [serveTwo, hsecond, ok_bind]
      dsimp only
      rw [hfirst]
      rfl
    · have helse := change_elsewhere hvw.symm hkl.symm hkeeps hslot hdevice
      rw [serveTwo, hsecond, ok_bind]
      dsimp only
      rw [serve_frame h₁ helse, hfirst]
      rfl
  · have helse := change_elsewhere hvw hkl hkeeps hslot hdevice
    rw [serve_frame h₂ helse] at hsecond
    obtain ⟨⟨b'', m₃⟩, hown, heq⟩ := map_eq_ok.mp hsecond
    cases heq
    rcases serve_change ho h₂ hown with rfl | ⟨c', hkeeps', hslot', hdevice', rfl⟩
    · rw [serveTwo, hown, ok_bind]
      dsimp only
      rw [hfirst]
      rfl
    · have helse' := change_elsewhere hvw.symm hkl.symm hkeeps' hslot' hdevice'
      have hdevices : c.device ≠ c'.device := by
        intro heq
        rw [heq, hdevice'] at hdevice
        exact hkl hdevice.symm
      rw [serveTwo, hown, ok_bind]
      dsimp only
      rw [serve_frame h₁ helse', hfirst, apply_comm hdevices (helse'.slot _ hslot)]
      rfl

/-! ### Two releases -/

/-- The manager after a live device was given back. -/
def freed (m : Manager) (i : Fin maxNumVm) (memdevIdx : ℤ) (k lo n : ℕ) : Manager :=
  { m.setVm i (detachedVm (m.vms i) memdevIdx) with
    pool := m.pool.setDev k (released (m.pool.memDevs k) lo n) }

theorem released_comm (dev : MemoryDaxDev) (lo n lo' n' : ℕ) :
    released (released dev lo n) lo' n' = released (released dev lo' n') lo n := by
  simp only [released, setRange, MemoryDaxDev.mk.injEq, true_and]
  refine ⟨by ring, ?_⟩
  funext p
  split_ifs
  · rfl
  · rfl
  · rfl
  · rfl

theorem releasedPool_comm (pool : Pool) (k l lo n lo' n' : ℕ) :
    (pool.setDev k (released (pool.memDevs k) lo n)).setDev l
        (released ((pool.setDev k (released (pool.memDevs k) lo n)).memDevs l) lo' n') =
      (pool.setDev l (released (pool.memDevs l) lo' n')).setDev k
        (released ((pool.setDev l (released (pool.memDevs l) lo' n')).memDevs k) lo n) := by
  by_cases hkl : k = l
  · subst hkl
    rw [setDev_memDevs, if_pos rfl, setDev_memDevs, if_pos rfl, released_comm]
    simp [Pool.setDev]
  · rw [setDev_memDevs, if_neg (Ne.symm hkl), setDev_memDevs, if_neg hkl, setDev_comm hkl]

theorem detachedVm_comm (vm : VmInstance) {x y : ℤ} (hxy : x ≠ y) :
    detachedVm (detachedVm vm x) y = detachedVm (detachedVm vm y) x := by
  simp only [detachedVm, VmInstance.mk.injEq, true_and]
  refine List.eraseP_comm fun d _ => ?_
  simp only [beq_iff_eq]
  omega

theorem freed_comm {i j : Fin maxNumVm} {x y : ℤ} (hne : i ≠ j ∨ x ≠ y) (k l lo n lo' n' : ℕ) :
    freed (freed m i x k lo n) j y l lo' n' = freed (freed m j y l lo' n') i x k lo n := by
  have hvms : ((m.setVm i (detachedVm (m.vms i) x)).setVm j
        (detachedVm ((m.setVm i (detachedVm (m.vms i) x)).vms j) y)).vms =
      ((m.setVm j (detachedVm (m.vms j) y)).setVm i
        (detachedVm ((m.setVm j (detachedVm (m.vms j) y)).vms i) x)).vms := by
    by_cases hij : i = j
    · subst hij
      have hxy : x ≠ y := hne.resolve_left fun h => h rfl
      simp only [setVm_vms_self, setVm_setVm, detachedVm_comm _ hxy]
    · rw [setVm_vms m i j, if_neg (Ne.symm hij), setVm_vms m j i, if_neg hij]
      exact Function.update_comm hij _ _ _
  have hpool := releasedPool_comm m.pool k l lo n lo' n'
  simp only [freed, Manager.setVm, Manager.mk.injEq, true_and, and_true] at hvms ⊢
  exact ⟨hvms, hpool⟩

theorem freed_live (ho : Owns m) {i : Fin maxNumVm} {dev : MemoryDev} (hd : LiveDev m i dev)
    (k lo n : ℕ) (j : Fin maxNumVm) (d : MemoryDev) :
    LiveDev (freed m i dev.memdevIdx k lo n) j d ↔ LiveDev m j d ∧ ¬ (j = i ∧ d = dev) := by
  by_cases hj : j = i
  · subst hj
    rw [freed, ho.detached_live hd]
    simp
  · have hslot : (freed m i dev.memdevIdx k lo n).vms j = m.vms j :=
      (setVm_vms m i j _).trans (if_neg hj)
    simp only [LiveDev, hslot, hj, false_and, not_false_eq_true, and_true]

theorem freed_vmId (m : Manager) (i : Fin maxNumVm) (x : ℤ) (k lo n : ℕ) (j : Fin maxNumVm) :
    ((freed m i x k lo n).vms j).vmId = (m.vms j).vmId := by
  rw [show (freed m i x k lo n).vms j = _ from setVm_vms m i j _]
  split_ifs with hj
  · rw [hj]
    rfl
  · rfl

/-- There is a device with this index on the VM. -/
def HasDev (m : Manager) (vmId memdevIdx : ℤ) : Prop :=
  ∃ i dev, LiveDev m i dev ∧ (m.vms i).vmId = vmId ∧ dev.memdevIdx = memdevIdx

theorem freeMem_absent (ho : Owns m) {memdevIdx : ℤ} (h : ¬ HasDev m vmId memdevIdx) :
    vmMngrInstanceFreeMem m vmId memdevIdx = .ok (-1, m) := by
  obtain ⟨⟨ret, m₁⟩, hres⟩ := ho.freeMem_total vmId memdevIdx
  rcases ho.freeMem_ok hres with ⟨rfl, rfl⟩ | ⟨_, i, dev, k, lo, n, hget, hd, hidx, _⟩
  · exact hres
  · exact absurd ⟨i, dev, hd, (vmMngrGetInstance_eq_some hget).2, hidx⟩ h

/-- What the second of two releases does is what it does alone. -/
theorem freeMem_after (ho : Owns m) {i : Fin maxNumVm} {dev : MemoryDev} {k lo n : ℕ}
    (hd : LiveDev m i dev) (hr : DevRange m.pool dev.memoryReq k lo n) {j : Fin maxNumVm}
    {dev' : MemoryDev} {l lo' n' : ℕ} (hd' : LiveDev m j dev')
    (hr' : DevRange m.pool dev'.memoryReq l lo' n') (hne : ¬ (j = i ∧ dev' = dev)) :
    vmMngrInstanceFreeMem (freed m i dev.memdevIdx k lo n) (m.vms j).vmId dev'.memdevIdx =
      .ok (0, freed (freed m i dev.memdevIdx k lo n) j dev'.memdevIdx l lo' n') := by
  have ho₁ : Owns (freed m i dev.memdevIdx k lo n) := ho.detached hd hr
  have hd₁ := (freed_live ho hd k lo n j dev').mpr ⟨hd', hne⟩
  have hgeom : SameGeometry m.pool (freed m i dev.memdevIdx k lo n).pool :=
    setDev_sameGeometry rfl rfl rfl rfl
  have hfree := ho₁.freeMem hd₁ (hr'.congr hgeom)
  rw [freed_vmId] at hfree
  exact hfree

theorem freeMem_absent_after (ho : Owns m) {i : Fin maxNumVm} {dev : MemoryDev} {k lo n : ℕ}
    (hd : LiveDev m i dev) (hr : DevRange m.pool dev.memoryReq k lo n) {memdevIdx : ℤ}
    (h : ¬ HasDev m vmId memdevIdx) :
    vmMngrInstanceFreeMem (freed m i dev.memdevIdx k lo n) vmId memdevIdx =
      .ok (-1, freed m i dev.memdevIdx k lo n) := by
  have ho₁ : Owns (freed m i dev.memdevIdx k lo n) := ho.detached hd hr
  refine freeMem_absent ho₁ ?_
  rintro ⟨j, d, hlive, hid, hidx⟩
  rw [freed_vmId] at hid
  exact h ⟨j, d, ((freed_live ho hd k lo n j d).mp hlive).1, hid, hidx⟩

/-- Two releases of different devices, in both orders. -/
theorem freeMem_swap (ho : Owns m) {v w x y : ℤ} (hne : (v, x) ≠ (w, y)) :
    ∃ a b m₁ m₂ m', vmMngrInstanceFreeMem m v x = .ok (a, m₁) ∧
      vmMngrInstanceFreeMem m₁ w y = .ok (b, m') ∧ vmMngrInstanceFreeMem m w y = .ok (b, m₂) ∧
      vmMngrInstanceFreeMem m₂ v x = .ok (a, m') := by
  by_cases hx : HasDev m v x
  · obtain ⟨i, dev, hd, rfl, rfl⟩ := hx
    obtain ⟨k, lo, n, hr⟩ := ho.range i dev hd
    have hfirst := ho.freeMem hd hr
    by_cases hy : HasDev m w y
    · obtain ⟨j, dev', hd', rfl, rfl⟩ := hy
      obtain ⟨l, lo', n', hr'⟩ := ho.range j dev' hd'
      have hother : ¬ (j = i ∧ dev' = dev) := by
        rintro ⟨rfl, rfl⟩
        exact hne rfl
      have hother' : ¬ (i = j ∧ dev = dev') := fun h => hother ⟨h.1.symm, h.2.symm⟩
      have hslots : i ≠ j ∨ dev.memdevIdx ≠ dev'.memdevIdx := by
        by_contra hsame
        push Not at hsame
        obtain ⟨rfl, hidx⟩ := hsame
        exact hne (by rw [hidx])
      refine ⟨0, 0, _, _, _, hfirst, freeMem_after ho hd hr hd' hr' hother, ho.freeMem hd' hr', ?_⟩
      rw [freed_comm hslots]
      exact freeMem_after ho hd' hr' hd hr hother'
    · exact ⟨0, -1, _, m, _, hfirst, freeMem_absent_after ho hd hr hy, freeMem_absent ho hy, hfirst⟩
  · by_cases hy : HasDev m w y
    · obtain ⟨j, dev', hd', rfl, rfl⟩ := hy
      obtain ⟨l, lo', n', hr'⟩ := ho.range j dev' hd'
      have hsecond := ho.freeMem hd' hr'
      exact ⟨-1, 0, m, _, _, freeMem_absent ho hx, hsecond, hsecond, freeMem_absent_after ho hd' hr' hx⟩
    · exact ⟨-1, -1, m, m, m, freeMem_absent ho hx, freeMem_absent ho hy, freeMem_absent ho hy,
        freeMem_absent ho hx⟩

theorem freesTwo_swap (ho : Owns m) {env : ServerEnv} {r₁ r₂ : Command × Text} {v w x y : ℤ}
    (hne : (v, x) ≠ (w, y)) (h₁ : Frees v x r₁) (h₂ : Frees w y r₂) {a b : Option Text}
    (h : serveTwo env m r₁ r₂ = .ok (a, b, m')) : serveTwo env m r₂ r₁ = .ok (b, a, m') := by
  obtain ⟨cmd₁, args₁⟩ := r₁
  obtain ⟨cmd₂, args₂⟩ := r₂
  obtain ⟨rfl, hargs₁⟩ := h₁
  obtain ⟨rfl, hargs₂⟩ := h₂
  dsimp only at hargs₁ hargs₂
  obtain ⟨ra, rb, m₁, m₂, m₃, hx, hxy, hy, hyx⟩ := freeMem_swap ho hne
  simp only [serveTwo, serve_free hargs₁, serve_free hargs₂] at h ⊢
  by_cases hbad₁ : v < 0 ∨ x < 0
  · by_cases hbad₂ : w < 0 ∨ y < 0
    · simp only [if_pos hbad₁, if_pos hbad₂, ok_bind] at h ⊢
      cases h
      rfl
    · simp only [if_pos hbad₁, if_neg hbad₂, ok_bind, hy, map_ok] at h ⊢
      cases h
      rfl
  · by_cases hbad₂ : w < 0 ∨ y < 0
    · simp only [if_neg hbad₁, if_pos hbad₂, ok_bind, hx, map_ok] at h ⊢
      cases h
      rfl
    · simp only [if_neg hbad₁, if_neg hbad₂, ok_bind, hx, hy, hxy, hyx, map_ok] at h ⊢
      cases h
      rfl

/-- Requests about different VMs on different nodes, or releases of different devices. -/
inductive Independent (m : Manager) (r₁ r₂ : Command × Text) : Prop
  | apart {v w k l : ℤ} (hvw : v ≠ w) (hkl : k ≠ l) (h₁ : About m v k r₁) (h₂ : About m w l r₂)
  | releases {v w x y : ℤ} (hne : (v, x) ≠ (w, y)) (h₁ : Frees v x r₁) (h₂ : Frees w y r₂)

/-- In every state a process can reach: independent requests give the same responses and the
same manager in both orders. -/
theorem requests_commute (hp : InitialPool pool) (hreach : Reaches step (initialManager pool) m)
    (env : ServerEnv) {r₁ r₂ : Command × Text} (h : Independent m r₁ r₂) (a b : Option Text)
    (m' : Manager) :
    serveTwo env m r₁ r₂ = .ok (a, b, m') ↔ serveTwo env m r₂ r₁ = .ok (b, a, m') := by
  have ho := owns_reachable hp hreach
  cases h with
  | apart hvw hkl h₁ h₂ =>
    exact ⟨serveTwo_swap ho hvw hkl h₁ h₂, serveTwo_swap ho hvw.symm hkl.symm h₂ h₁⟩
  | releases hne h₁ h₂ => exact ⟨freesTwo_swap ho hne h₁ h₂, freesTwo_swap ho hne.symm h₂ h₁⟩

theorem requests_commute_smallPool : ∃ m a b m',
    run step (initialManager smallPool) [.create 3 "0".toList, .allocMem 0 3 4, .allocMem 0 3 4] =
      .ok m ∧
    serveTwo silentEnv m (.freeMem, "vid=3 memid=0".toList) (.freeMem, "vid=3 memid=1".toList) =
      .ok (a, b, m') ∧
    serveTwo silentEnv m (.freeMem, "vid=3 memid=1".toList) (.freeMem, "vid=3 memid=0".toList) =
      .ok (b, a, m') := by
  have heval : ((run step (initialManager smallPool)
      [.create 3 "0".toList, .allocMem 0 3 4, .allocMem 0 3 4]).bind fun m => serveTwo silentEnv m
        (.freeMem, "vid=3 memid=0".toList) (.freeMem, "vid=3 memid=1".toList)).isOk = true := by
    rfl
  cases hrun : run step (initialManager smallPool)
      [.create 3 "0".toList, .allocMem 0 3 4, .allocMem 0 3 4] with
  | error e =>
    rw [hrun] at heval
    cases heval
  | ok m =>
    rw [hrun] at heval
    obtain ⟨⟨a, b, m'⟩, hserve⟩ := exists_of_isOk heval
    refine ⟨m, a, b, m', rfl, hserve, ?_⟩
    have hindependent : Independent m (.freeMem, "vid=3 memid=0".toList)
        (.freeMem, "vid=3 memid=1".toList) :=
      .releases (v := 3) (w := 3) (x := 0) (y := 1) (by decide) ⟨rfl, by decide +kernel⟩
        ⟨rfl, by decide +kernel⟩
    exact (requests_commute smallPool_initial ⟨_, hrun⟩ silentEnv hindependent a b m').mp hserve

end Ramryder.RequestOrder
