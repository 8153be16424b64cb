import Ramryder.MemoryRelease

/-! The pool is an image of the device lists: two states of one process that list the same devices
have the same pool. So whoever restores the lists restores the pool. -/
namespace Ramryder.PoolImage
open CMachine GuestAgents Lifecycle MemoryPool MemoryPoolSpec MemoryRelease Ownership PoolCalls
  PoolConfig Runs Shutdown VmManager VmManagerSpec

variable {m m' : Manager} {pool pool' : Pool}

/-! ### What no call changes -/

/-- Only the segments and the counters of the devices may differ. -/
structure PoolFrame (pool pool' : Pool) : Prop where
  frame : pool' = { pool with memDevs := pool'.memDevs }
  dev : ∀ k, pool'.memDevs k = { pool.memDevs k with
    segments := (pool'.memDevs k).segments
    usedSegments := (pool'.memDevs k).usedSegments }
  beyond : ∀ k, pool.numDevs ≤ k → pool'.memDevs k = pool.memDevs k

theorem PoolFrame.refl (pool : Pool) : PoolFrame pool pool := ⟨rfl, fun _ => rfl, fun _ _ => rfl⟩

theorem PoolFrame.numDevs (h : PoolFrame pool pool') : pool'.numDevs = pool.numDevs := by
  rw [h.frame]

theorem PoolFrame.segmentSizeMb (h : PoolFrame pool pool') :
    pool'.segmentSizeMb = pool.segmentSizeMb := by
  rw [h.frame]

theorem PoolFrame.trans {a b c : Pool} (h : PoolFrame a b) (g : PoolFrame b c) : PoolFrame a c := by
  refine ⟨by rw [g.frame, h.frame], fun k => by rw [g.dev k, h.dev k], fun k hk => ?_⟩
  rw [g.beyond k (h.numDevs ▸ hk), h.beyond k hk]

/-- Both states are reached from one. -/
theorem PoolFrame.between {a b c : Pool} (h : PoolFrame a b) (g : PoolFrame a c) :
    PoolFrame b c := by
  refine ⟨by rw [g.frame, h.frame], fun k => ?_, fun k hk => ?_⟩
  · have hb := h.dev k
    rw [g.dev k]
    rw [hb]
  · rw [h.numDevs] at hk
    rw [g.beyond k hk, h.beyond k hk]

theorem setDev_poolFrame {k : ℕ} {d : MemoryDaxDev} (hk : k < pool.numDevs)
    (hd : d = { pool.memDevs k with segments := d.segments, usedSegments := d.usedSegments }) :
    PoolFrame pool (pool.setDev k d) := by
  refine ⟨rfl, fun q => ?_, fun q hq => ?_⟩
  · rw [setDev_memDevs]
    split_ifs with hqk
    · subst hqk
      exact hd
    · rfl
  · rw [setDev_memDevs, if_neg (by omega)]

theorem step_poolFrame (ho : Owns m) {op : Op} (h : step m op = .ok m') :
    PoolFrame m.pool m'.pool := by
  cases op with
  | create vmId coreSet =>
    obtain ⟨⟨ret, _⟩, hres, rfl⟩ := map_eq_ok.mp h
    rcases vmMngrInstanceCreate_ok hres with ⟨_, rfl⟩ | ⟨_, _, _, i, n, _, _, rfl⟩
    · exact .refl _
    · exact .refl _
  | destroy vmId =>
    obtain ⟨⟨ret, _⟩, hres, rfl⟩ := map_eq_ok.mp h
    rcases vmMngrInstanceDestroy_ok hres with ⟨_, rfl⟩ | ⟨_, i, _, _, rfl⟩
    · exact .refl _
    · refine ⟨rfl, fun k => ?_, fun k hk => ?_⟩
      · simp only [vmReleasedPool]
        split_ifs
        · rfl
        · rfl
      · simp [vmReleasedPool, not_lt.mpr hk]
  | start vmId env =>
    obtain ⟨⟨ret, _⟩, hres, rfl⟩ := map_eq_ok.mp h
    have hpool := (vmMngrInstanceStart_memSame hres).pool
    exact hpool ▸ .refl _
  | stop vmId kernel =>
    obtain ⟨⟨ret, _⟩, hres, rfl⟩ := map_eq_ok.mp h
    have hpool := (vmMngrInstanceStop_memSame hres).pool
    exact hpool ▸ .refl _
  | allocMem nodeId vmId sizeMb =>
    obtain ⟨⟨ret, _⟩, hres, rfl⟩ := map_eq_ok.mp h
    rcases vmMngrInstanceAllocMem_ok ho.geometry.segmentSize hres with
      ⟨_, rfl⟩ | ⟨i, req, pool, k, lo, n, _, hal, _, _, rfl⟩
    · exact .refl _
    · rw [hal.after]
      exact setDev_poolFrame (allocation_devRange ho.geometry hal).device rfl
  | freeMem vmId memdevIdx =>
    obtain ⟨⟨ret, _⟩, hres, rfl⟩ := map_eq_ok.mp h
    rcases ho.freeMem_ok hres with ⟨_, rfl⟩ | ⟨_, i, dev, k, lo, n, _, _, _, hr, rfl⟩
    · exact .refl _
    · exact setDev_poolFrame hr.device rfl

/-! ### Same lists, same pool -/

/-- Both list the same VMs, each with the same devices. -/
structure SameLists (m m' : Manager) : Prop where
  initialized : ∀ i, (m'.vms i).initialized = (m.vms i).initialized
  vmId : ∀ i, (m.vms i).initialized = true → (m'.vms i).vmId = (m.vms i).vmId
  attachedDevs : ∀ i, (m.vms i).initialized = true →
    (m'.vms i).attachedDevs = (m.vms i).attachedDevs

theorem SameLists.symm (h : SameLists m m') : SameLists m' m := by
  refine ⟨fun i => (h.initialized i).symm, fun i hi => ?_, fun i hi => ?_⟩
  · exact (h.vmId i (h.initialized i ▸ hi)).symm
  · exact (h.attachedDevs i (h.initialized i ▸ hi)).symm

theorem SameLists.owned (hs : SameLists m m') (ho : Owns m) (ho' : Owns m')
    (hf : PoolFrame m.pool m'.pool) {k : ℕ} (hk : k < m.pool.numDevs) {p : ℕ} {v : ℤ}
    (hown : Owned (m.pool.memDevs k) v p) : Owned (m'.pool.memDevs k) v p := by
  obtain ⟨i, hi, hid, hcount⟩ := (ho.owned_iff hk p v).mp hown
  refine (ho'.owned_iff (hf.numDevs ▸ hk) p v).mpr
    ⟨i, (hs.initialized i).trans hi, (hs.vmId i hi).trans hid, ?_⟩
  rw [coverCount, hs.attachedDevs i hi, hf.segmentSizeMb]
  exact hcount

/-- A segment is what its owner says, or free. -/
theorem segment_cases {d : MemoryDaxDev} (ha : Accounted d) (p : ℕ) :
    (∃ v, Owned d v p ∧ d.segments p = ⟨true, v⟩) ∨
      ((∀ v, ¬ Owned d v p) ∧ d.segments p = freeSegment) := by
  by_cases hbusy : Busy d p
  · refine .inl ⟨(d.segments p).usedVmId, ⟨hbusy, rfl⟩, ?_⟩
    rw [Busy] at hbusy
    rw [← hbusy]
  · refine .inr ⟨fun v hown => hbusy hown.1, ?_⟩
    have hid := ha.free p hbusy
    rw [Busy, Bool.not_eq_true] at hbusy
    rw [freeSegment, ← hbusy, ← hid]

theorem SameLists.pool_eq (hs : SameLists m m') (hm : Kept m) (hm' : Kept m')
    (hf : PoolFrame m.pool m'.pool) : m'.pool = m.pool := by
  have hback : PoolFrame m'.pool m.pool := hf.between (.refl _)
  have hdevs : m'.pool.memDevs = m.pool.memDevs := by
    funext k
    by_cases hk : k < m.pool.numDevs
    · have hk' : k < m'.pool.numDevs := hf.numDevs ▸ hk
      refine accounted_ext (hm'.accounted k hk') (hm.accounted k hk) (hf.dev k) rfl fun p => ?_
      rcases segment_cases (hm.accounted k hk) p with ⟨v, hown, hseg⟩ | ⟨hfree, hseg⟩
      · have hown' := hs.owned hm.owns hm'.owns hf hk hown
        rcases segment_cases (hm'.accounted k hk') p with ⟨v', hown'', hseg'⟩ | ⟨hfree', _⟩
        · rw [hseg, hseg', show v' = v from hown''.2.symm.trans hown'.2]
        · exact absurd hown' (hfree' v)
      · rcases segment_cases (hm'.accounted k hk') p with ⟨v', hown', _⟩ | ⟨_, hseg'⟩
        · exact absurd (hs.symm.owned hm'.owns hm.owns hback hk' hown') (hfree v')
        · rw [hseg, hseg']
    · exact hf.beyond k (not_lt.mp hk)
  rw [hf.frame, hdevs]

end Ramryder.PoolImage
