import Ramryder.DeviceIdentity
import Ramryder.Shutdown

/-! The two ways to give back the memory of a VM: its devices freed one by one, in any order, and
the release of all its segments when it is destroyed. Both leave the same pool. -/
namespace Ramryder.MemoryRelease
open CMachine DeviceIdentity GuestAgents Lifecycle MemoryPool MemoryPoolSpec Ownership PoolCalls PoolConfig Runs
  SegmentBounds Shutdown VmManager VmManagerSpec

/-- The devices freed in the order of the list, as long as every call returns 0. -/
def freeDevices (vmId : ℤ) : List MemoryDev → Manager → Outcome (Option Manager)
  | [], m => .ok (some m)
  | dev :: devs, m => do
    let (ret, m) ← vmMngrInstanceFreeMem m vmId dev.memdevIdx
    if ret = 0 then freeDevices vmId devs m else .ok none

/-! ### What was freed -/

/-- Some segments of the VM were given back, and nothing else of the device has changed. -/
structure DevFreed (v : ℤ) (d d' : MemoryDaxDev) : Prop where
  frame : d' = { d with segments := d'.segments, usedSegments := d'.usedSegments }
  segments : ∀ p, d'.segments p = d.segments p ∨ Owned d v p ∧ d'.segments p = freeSegment

theorem DevFreed.refl (v : ℤ) (d : MemoryDaxDev) : DevFreed v d d := ⟨rfl, fun _ => .inl rfl⟩

theorem not_owned_free {d : MemoryDaxDev} {v : ℤ} {p : ℕ} (h : d.segments p = freeSegment) :
    ¬ Owned d v p := by
  rw [Owned, h]
  exact fun hown => by cases hown.1

theorem DevFreed.trans {v : ℤ} {d d' d'' : MemoryDaxDev} (h : DevFreed v d d')
    (h' : DevFreed v d' d'') : DevFreed v d d'' := by
  refine ⟨?_, fun p => ?_⟩
  · rw [h'.frame, h.frame]
  · rcases h'.segments p with hsame | ⟨hown, hfree⟩
    · rw [hsame]
      exact h.segments p
    · rcases h.segments p with hkept | ⟨_, hgone⟩
      · exact .inr ⟨by rwa [Owned, hkept] at hown, hfree⟩
      · exact absurd hown (not_owned_free hgone)

/-- The same for every device of the pool. -/
structure PoolFreed (v : ℤ) (pool pool' : Pool) : Prop where
  frame : pool' = { pool with memDevs := pool'.memDevs }
  devs : ∀ k, DevFreed v (pool.memDevs k) (pool'.memDevs k)
  beyond : ∀ k, pool.numDevs ≤ k → pool'.memDevs k = pool.memDevs k

theorem PoolFreed.refl (v : ℤ) (pool : Pool) : PoolFreed v pool pool :=
  ⟨rfl, fun _ => .refl v _, fun _ _ => rfl⟩

theorem PoolFreed.trans {v : ℤ} {a b c : Pool} (h : PoolFreed v a b) (h' : PoolFreed v b c) :
    PoolFreed v a c := by
  have hnum : b.numDevs = a.numDevs := by rw [h.frame]
  refine ⟨by rw [h'.frame, h.frame], fun k => (h.devs k).trans (h'.devs k), fun k hk => ?_⟩
  rw [h'.beyond k (by omega), h.beyond k hk]

variable {m m' : Manager} {i : Fin maxNumVm} {pool : Pool} {dev : MemoryDev}

theorem poolFreed_released (ho : Owns m) (hd : LiveDev m i dev) {k lo n : ℕ}
    (hr : DevRange m.pool dev.memoryReq k lo n) :
    PoolFreed (m.vms i).vmId m.pool (m.pool.setDev k (released (m.pool.memDevs k) lo n)) := by
  refine ⟨rfl, fun q => ?_, fun q hq => ?_⟩
  · rw [setDev_memDevs]
    split_ifs with hqk
    · subst hqk
      refine ⟨rfl, fun p => ?_⟩
      rw [released, setRange_segments]
      split_ifs with hp
      · exact .inr ⟨ho.owned_of_covers hd hr.device
          ((hr.covers_iff ho.geometry q p).mpr ⟨rfl, hp.1, hp.2⟩), rfl⟩
      · exact .inl rfl
    · exact .refl _ _
  · have := hr.device
    rw [setDev_memDevs, if_neg (by omega)]

/-- Step lemma: a listed device is freed, and the others stay listed. -/
theorem freeMem_step (hm : Kept m) (hd : LiveDev m i dev) {devs : List MemoryDev}
    (hperm : (dev :: devs).Perm (m.vms i).attachedDevs) :
    ∃ m', vmMngrInstanceFreeMem m (m.vms i).vmId dev.memdevIdx = .ok (0, m') ∧ Kept m' ∧
      PoolFreed (m.vms i).vmId m.pool m'.pool ∧ (m'.vms i).vmId = (m.vms i).vmId ∧
      (m'.vms i).initialized = true ∧ devs.Perm (m'.vms i).attachedDevs := by
  obtain ⟨k, lo, n, hr⟩ := hm.owns.range i dev hd
  set m₁ : Manager := { m.setVm i (detachedVm (m.vms i) dev.memdevIdx) with
    pool := m.pool.setDev k (released (m.pool.memDevs k) lo n) }
  have hfree : vmMngrInstanceFreeMem m (m.vms i).vmId dev.memdevIdx = .ok (0, m₁) :=
    hm.owns.freeMem hd hr
  have hstep : step m (.freeMem (m.vms i).vmId dev.memdevIdx) = .ok m₁ := by
    rw [step, hfree]
    rfl
  have hself : m₁.vms i = detachedVm (m.vms i) dev.memdevIdx := setVm_vms_self m i _
  obtain ⟨l₁, l₂, hsplit, herase⟩ := hm.owns.detached_split hd
  refine ⟨m₁, hfree, ⟨owns_step hm.owns hstep, step_consistent hm.owns hm.consistent hstep,
    accounted_step hm.owns hm.accounted hstep⟩, poolFreed_released hm.owns hd hr, ?_, ?_, ?_⟩
  · rw [hself]
    rfl
  · rw [hself]
    exact hd.1
  · rw [hsplit] at hperm
    rw [hself, herase]
    exact (List.perm_cons dev).mp (hperm.trans List.perm_middle)

/-- Run lemma: in every order all devices are freed, and no segment is left to the VM. -/
theorem freeDevices_total (hm : Kept m) (hinit : (m.vms i).initialized = true)
    {order : List MemoryDev} (hperm : order.Perm (m.vms i).attachedDevs) :
    ∃ m', freeDevices (m.vms i).vmId order m = .ok (some m') ∧ Kept m' ∧
      PoolFreed (m.vms i).vmId m.pool m'.pool ∧
      ∀ k < m'.pool.numDevs, ∀ p, ¬ Owned (m'.pool.memDevs k) (m.vms i).vmId p := by
  induction order generalizing m with
  | nil =>
    refine ⟨m, rfl, hm, .refl _ _, fun k hk p hown => ?_⟩
    obtain ⟨dev, hdev, _⟩ := hm.owns.covered hinit hk hown
    have hmem := hdev.2
    rw [List.nil_perm.mp hperm] at hmem
    cases hmem
  | cons dev devs ih =>
    have hd : LiveDev m i dev := ⟨hinit, hperm.subset List.mem_cons_self⟩
    obtain ⟨m₁, hfree, hm₁, hpool₁, hid, hinit₁, hperm₁⟩ := freeMem_step hm hd hperm
    obtain ⟨m₂, hrest, hm₂, hpool₂, hgone⟩ := ih hm₁ hinit₁ hperm₁
    rw [hid] at hrest hpool₂ hgone
    refine ⟨m₂, ?_, hm₂, hpool₁.trans hpool₂, hgone⟩
    rw [freeDevices, hfree, ok_bind]
    exact hrest

/-! ### The two pools -/

theorem vmReleasedPool_memDevs (pool : Pool) (v : ℤ) {k : ℕ} (hk : k < pool.numDevs) :
    (vmReleasedPool pool v 0 pool.numDevs).memDevs k =
      vmReleased (pool.memDevs k) v 0 (pool.memDevs k).totalSegments.toNat := by
  simp [vmReleasedPool, hk]

/-- The counters follow the segments, so devices that differ only in them and agree on the segments
are one device. -/
theorem accounted_ext {d d₁ d₂ : MemoryDaxDev} (h₁ : Accounted d₁) (h₂ : Accounted d₂)
    (hframe₁ : d₁ = { d with segments := d₁.segments, usedSegments := d₁.usedSegments })
    (hframe₂ : d₂ = { d with segments := d₂.segments, usedSegments := d₂.usedSegments })
    (hsegments : ∀ p, d₁.segments p = d₂.segments p) : d₁ = d₂ := by
  have hseg : d₁.segments = d₂.segments := funext hsegments
  have htotal : d₁.totalSegments = d₂.totalSegments := by rw [hframe₁, hframe₂]
  have hcount : busyCount d₁ = busyCount d₂ := by
    rw [busyCount, busyCount, htotal]
    refine congrArg Finset.card (Finset.filter_congr fun p _ => ?_)
    rw [Busy, Busy, hseg]
  have hused : d₁.usedSegments = d₂.usedSegments := by
    rw [h₁.used, h₂.used, hcount]
  rw [hframe₁, hframe₂, hseg, hused]

/-- Where the segments of a VM were freed until it had none left, the pool is the one a bulk release
leaves. -/
theorem PoolFreed.eq_vmReleased (hm : Kept m) (hm' : Kept m') {v : ℤ}
    (h : PoolFreed v m.pool m'.pool)
    (hgone : ∀ k < m'.pool.numDevs, ∀ p, ¬ Owned (m'.pool.memDevs k) v p) :
    m'.pool = vmReleasedPool m.pool v 0 m.pool.numDevs := by
  have hnum : m'.pool.numDevs = m.pool.numDevs := by rw [h.frame]
  have hdevs : m'.pool.memDevs = (vmReleasedPool m.pool v 0 m.pool.numDevs).memDevs := by
    funext k
    by_cases hk : k < m.pool.numDevs
    · have hk' : k < m'.pool.numDevs := by omega
      rw [vmReleasedPool_memDevs _ _ hk]
      refine accounted_ext (hm'.accounted k hk') (hm.accounted k hk).vmReleased (h.devs k).frame rfl
        fun p => ?_
      rw [vmReleased_segments]
      split_ifs with hp
      · rcases (h.devs k).segments p with hsame | ⟨_, hfree⟩
        · refine absurd ?_ (hgone k hk' p)
          rw [Owned, hsame]
          exact hp.2
        · exact hfree
      · rcases (h.devs k).segments p with hsame | ⟨hown, _⟩
        · exact hsame
        · have := (hm.owns.limit hk hown.1).1
          exact absurd ⟨⟨Nat.zero_le p, by omega⟩, hown⟩ hp
    · rw [h.beyond k (not_lt.mp hk)]
      simp [vmReleasedPool, hk]
  rw [h.frame, hdevs]
  rfl

/-- Freeing the devices of the VM in slot `i` in any order goes through, and leaves the pool its
destruction leaves, which is as it was for all other segments. -/
def ReleasesAlike (m : Manager) (i : Fin maxNumVm) : Prop :=
  ∀ order, order.Perm (m.vms i).attachedDevs → ∃ m₁ m₂,
    freeDevices (m.vms i).vmId order m = .ok (some m₁) ∧
    vmMngrInstanceDestroy m (m.vms i).vmId = .ok (0, m₂) ∧ m₁.pool = m₂.pool ∧
    ∀ k p, ¬ Owned (m.pool.memDevs k) (m.vms i).vmId p →
      (m₁.pool.memDevs k).segments p = (m.pool.memDevs k).segments p

/-- For every stopped VM of a reachable manager: both ways leave one pool exactly where every device
fits its array; elsewhere the destruction leaves the array. -/
theorem releasesAlike_iff (hp : InitialPool pool) (h : Reaches step (initialManager pool) m)
    (hinit : (m.vms i).initialized = true) (hstopped : (m.vms i).running = false) :
    ReleasesAlike m i ↔ DevicesInArray m.pool := by
  have hm := kept_reachable hp h
  constructor
  · intro halike
    rw [devicesInArray_iff]
    rintro ⟨k, hk, hmax⟩
    obtain ⟨_, m₂, _, hdestroy, _⟩ := halike _ (.refl _)
    obtain ⟨p, hfault⟩ := @releaseVmDevices_outside (m.vms i).vmId m.pool m.pool.numDevs 0 k
      (Nat.zero_le _) (by omega) hmax
    simp only [vmMngrInstanceDestroy, hm.owns.ids.getInstance hinit rfl, hstopped,
      memoryPoolReleaseVmMemory, hfault] at hdestroy
    cases hdestroy
  · intro hfit order hperm
    obtain ⟨m₁, hfree, hm₁, hpool, hgone⟩ := freeDevices_total hm hinit hperm
    obtain ⟨m₂, hdestroy, _⟩ := destroy_total hm.owns.ids hfit hinit hstopped
    refine ⟨m₁, m₂, hfree, hdestroy, ?_, fun k p hown => ?_⟩
    · rcases vmMngrInstanceDestroy_ok hdestroy with ⟨hneg, _⟩ | ⟨_, _, _, _, rfl⟩
      · exact absurd hneg (by decide)
      · exact hpool.eq_vmReleased hm hm₁ hgone
    · rcases (hpool.devs k).segments p with hsame | ⟨hmine, _⟩
      · exact hsame
      · exact absurd hmine hown

/-- A VM with two devices on one node. -/
theorem releasesAlike_iff_smallPool : ∃ m,
    run step (initialManager smallPool) [.create 3 "0".toList, .allocMem 0 3 4, .allocMem 0 3 4] =
      .ok m ∧ (ReleasesAlike m firstSlot ↔ DevicesInArray m.pool) := by
  have heval : (run step (initialManager smallPool)
      [.create 3 "0".toList, .allocMem 0 3 4, .allocMem 0 3 4]).map (fun m =>
        ((m.vms firstSlot).initialized, (m.vms firstSlot).running)) = .ok (true, false) := by
    rfl
  obtain ⟨m, hm, hview⟩ := map_eq_ok.mp heval
  rw [Prod.mk.injEq] at hview
  exact ⟨m, hm, releasesAlike_iff smallPool_initial ⟨_, hm⟩ hview.1 hview.2⟩

/-- On a device of 4097 segments the devices can be freed, but the destruction leaves the array. -/
theorem releasesAlike_fails_4097 : ∃ pool m,
    memoryPoolInit zeroBuffers (some (oneDevConfig "4097")) = .ok (some pool) ∧
      run step (initialManager pool) [.create 0 "0".toList] = .ok m ∧
      (m.vms firstSlot).initialized = true ∧ (m.vms firstSlot).running = false ∧
      ¬ ReleasesAlike m firstSlot := by
  obtain ⟨pool, hload, hview⟩ := exists_of_view
    (f := fun pool => (run step (initialManager pool) [.create 0 "0".toList]).toOption.map fun m =>
      ((m.vms firstSlot).initialized, (m.vms firstSlot).running,
        (vmMngrInstanceDestroy m (m.vms firstSlot).vmId).toOption.isSome))
    (b := some (true, false, false))
    (x := memoryPoolInit zeroBuffers (some (oneDevConfig "4097"))) (by decide +kernel)
  cases hrun : run step (initialManager pool) [.create 0 "0".toList] with
  | error e =>
    rw [hrun] at hview
    cases hview
  | ok m =>
    rw [hrun] at hview
    simp only [Except.toOption, Option.map_some, Option.some.injEq, Prod.mk.injEq] at hview
    refine ⟨pool, m, hload, hrun, hview.1, hview.2.1, fun halike => ?_⟩
    obtain ⟨_, m₂, _, hdestroy, _⟩ := halike _ (.refl _)
    rw [hdestroy] at hview
    cases hview.2.2

end Ramryder.MemoryRelease
