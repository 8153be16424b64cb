import Ramryder.PoolConfig
import Ramryder.VmManagerSpec

/-! Who owns a segment. Ownership is kept twice, in the segment arrays of the pool
and in the device lists of the VMs; the invariant `Owns` relates the two. -/
namespace Ramryder.Ownership
open CInt CMachine CText CoreSet FreeRuns GuestAgents MemoryPool MemoryPoolSpec PoolConfig Runs
  VmManager VmManagerSpec

variable {m m' : Manager} {pool pool' : Pool} {i j : Fin maxNumVm} {dev : MemoryDev}

/-- The entry of a device list maps segment `p` of node `k`. -/
def Covers (seg : ℤ) (k p : ℕ) (dev : MemoryDev) : Prop :=
  dev.memoryReq.nodeId = k ∧ dev.memoryReq.offsetMb / seg ≤ p ∧
    (p : ℤ) < (dev.memoryReq.offsetMb + dev.memoryReq.sizeMb) / seg

instance (seg : ℤ) (k p : ℕ) : DecidablePred (Covers seg k p) :=
  fun _ => inferInstanceAs (Decidable (_ ∧ _))

/-- The request of a device that holds `n` segments of device `k` from segment `lo` on. -/
structure DevRange (pool : Pool) (req : MemoryRequest) (k lo n : ℕ) : Prop where
  device : k < pool.numDevs
  positive : 0 < n
  inside : (lo : ℤ) + n ≤ (pool.memDevs k).totalSegments
  inArray : lo + n ≤ maxSegments
  request : req = ⟨k, (pool.memDevs k).devPath.take (devPathLen - 1),
    lo * pool.segmentSizeMb, n * pool.segmentSizeMb, pool.segmentSizeMb⟩

def LiveDev (m : Manager) (i : Fin maxNumVm) (dev : MemoryDev) : Prop :=
  (m.vms i).initialized = true ∧ dev ∈ (m.vms i).attachedDevs

/-- How many devices of the VM in slot `i` map segment `p` of node `k`. -/
def coverCount (m : Manager) (i : Fin maxNumVm) (k p : ℕ) : ℕ :=
  (m.vms i).attachedDevs.countP fun dev => Covers m.pool.segmentSizeMb k p dev

structure Owns (m : Manager) : Prop where
  geometry : PoolGeometry m.pool
  ids : UniqueIds m
  counter : ∀ i, (m.vms i).initialized = true → 0 ≤ (m.vms i).memdevCounter
  fresh : ∀ i dev, LiveDev m i dev → 0 ≤ dev.memdevIdx ∧ dev.memdevIdx < (m.vms i).memdevCounter
  distinct : ∀ i, (m.vms i).initialized = true →
    ((m.vms i).attachedDevs.map MemoryDev.memdevIdx).Nodup
  range : ∀ i dev, LiveDev m i dev → ∃ k lo n, DevRange m.pool dev.memoryReq k lo n
  cover : ∀ i, (m.vms i).initialized = true → ∀ k < m.pool.numDevs, ∀ p,
    coverCount m i k p = if Owned (m.pool.memDevs k) (m.vms i).vmId p then 1 else 0
  owner : ∀ k < m.pool.numDevs, ∀ p, Busy (m.pool.memDevs k) p →
    ∃ i, (m.vms i).initialized = true ∧ Owned (m.pool.memDevs k) (m.vms i).vmId p

/-! ### Ranges -/

/-- The parts of the pool no request changes. -/
structure SameGeometry (pool pool' : Pool) : Prop where
  numDevs : pool'.numDevs = pool.numDevs
  segmentSizeMb : pool'.segmentSizeMb = pool.segmentSizeMb
  dev : ∀ k, (pool'.memDevs k).devPath = (pool.memDevs k).devPath ∧
    (pool'.memDevs k).nodeId = (pool.memDevs k).nodeId ∧
    (pool'.memDevs k).totalSizeMb = (pool.memDevs k).totalSizeMb ∧
    (pool'.memDevs k).totalSegments = (pool.memDevs k).totalSegments

theorem SameGeometry.refl (pool : Pool) : SameGeometry pool pool :=
  ⟨rfl, rfl, fun _ => ⟨rfl, rfl, rfl, rfl⟩⟩

theorem SameGeometry.trans {a b c : Pool} (h : SameGeometry a b) (g : SameGeometry b c) :
    SameGeometry a c := by
  refine ⟨g.numDevs.trans h.numDevs, g.segmentSizeMb.trans h.segmentSizeMb, fun k => ?_⟩
  obtain ⟨hpath, hnode, hsize, htotal⟩ := h.dev k
  obtain ⟨gpath, gnode, gsize, gtotal⟩ := g.dev k
  exact ⟨gpath.trans hpath, gnode.trans hnode, gsize.trans hsize, gtotal.trans htotal⟩

theorem SameGeometry.geometry (hs : SameGeometry pool pool') (hg : PoolGeometry pool) :
    PoolGeometry pool' := by
  refine ⟨hs.numDevs ▸ hg.numDevs, ?_, ?_, ?_, ?_, ?_⟩
  · rw [hs.numDevs, hs.segmentSizeMb]
    exact hg.segmentSize
  · intro k hk
    rw [(hs.dev k).1]
    exact hg.path k (hs.numDevs ▸ hk)
  · intro k hk
    rw [(hs.dev k).2.1]
    exact hg.node k (hs.numDevs ▸ hk)
  · intro k hk
    rw [(hs.dev k).2.2.1]
    exact hg.size k (hs.numDevs ▸ hk)
  · intro k hk
    rw [(hs.dev k).2.2.1, (hs.dev k).2.2.2, hs.segmentSizeMb]
    exact hg.total k (hs.numDevs ▸ hk)

theorem setDev_sameGeometry {k : ℕ} {d : MemoryDaxDev}
    (hpath : d.devPath = (pool.memDevs k).devPath) (hnode : d.nodeId = (pool.memDevs k).nodeId)
    (hsize : d.totalSizeMb = (pool.memDevs k).totalSizeMb)
    (htotal : d.totalSegments = (pool.memDevs k).totalSegments) :
    SameGeometry pool (pool.setDev k d) := by
  refine ⟨rfl, rfl, fun q => ?_⟩
  rw [setDev_memDevs]
  split_ifs with hq
  · subst hq
    exact ⟨hpath, hnode, hsize, htotal⟩
  · exact ⟨rfl, rfl, rfl, rfl⟩

theorem vmReleasedPool_sameGeometry (pool : Pool) (vmId : ℤ) (a n : ℕ) :
    SameGeometry pool (vmReleasedPool pool vmId a n) := by
  refine ⟨rfl, rfl, fun q => ?_⟩
  simp only [vmReleasedPool]
  split_ifs
  · exact ⟨rfl, rfl, rfl, rfl⟩
  · exact ⟨rfl, rfl, rfl, rfl⟩

theorem DevRange.congr {req : MemoryRequest} {k lo n : ℕ} (hr : DevRange pool req k lo n)
    (hs : SameGeometry pool pool') : DevRange pool' req k lo n := by
  refine ⟨hs.numDevs ▸ hr.device, hr.positive, ?_, hr.inArray, ?_⟩
  · rw [(hs.dev k).2.2.2]
    exact hr.inside
  · rw [(hs.dev k).1, hs.segmentSizeMb]
    exact hr.request

theorem DevRange.segmentSize {req : MemoryRequest} {k lo n : ℕ} (hr : DevRange pool req k lo n)
    (hg : PoolGeometry pool) : 0 < pool.segmentSizeMb :=
  hg.segmentSize (Nat.zero_lt_of_lt hr.device)

/-- In segments, the megabyte bounds of a device are those of its range. -/
theorem DevRange.covers_iff {k lo n : ℕ} (hr : DevRange pool dev.memoryReq k lo n)
    (hg : PoolGeometry pool) (q p : ℕ) :
    Covers pool.segmentSizeMb q p dev ↔ q = k ∧ lo ≤ p ∧ p < lo + n := by
  have hseg := (hr.segmentSize hg).ne'
  simp only [Covers, hr.request, ← add_mul, Int.mul_ediv_cancel _ hseg]
  constructor
  · rintro ⟨hk, hlo, hp⟩
    exact ⟨by omega, by omega, by omega⟩
  · rintro ⟨rfl, hlo, hp⟩
    exact ⟨rfl, by omega, by omega⟩

/-! ### Consequences of the invariant -/

theorem Owns.owned_of_covers (ho : Owns m) (hd : LiveDev m i dev) {k p : ℕ}
    (hk : k < m.pool.numDevs) (hc : Covers m.pool.segmentSizeMb k p dev) :
    Owned (m.pool.memDevs k) (m.vms i).vmId p := by
  have hpos : 0 < coverCount m i k p :=
    List.countP_pos_iff.mpr ⟨dev, hd.2, by simpa using hc⟩
  rw [ho.cover i hd.1 k hk p] at hpos
  by_contra hno
  rw [if_neg hno] at hpos
  exact absurd hpos (lt_irrefl 0)

theorem Owns.covered (ho : Owns m) (hi : (m.vms i).initialized = true) {k p : ℕ}
    (hk : k < m.pool.numDevs) (hown : Owned (m.pool.memDevs k) (m.vms i).vmId p) :
    ∃ dev, LiveDev m i dev ∧ Covers m.pool.segmentSizeMb k p dev := by
  have hcount := ho.cover i hi k hk p
  rw [if_pos hown] at hcount
  have hpos : 0 < coverCount m i k p := by omega
  obtain ⟨dev, hmem, hc⟩ := List.countP_pos_iff.mp hpos
  exact ⟨dev, ⟨hi, hmem⟩, by simpa using hc⟩

/-- A busy segment lies inside its device and inside the array. -/
theorem Owns.limit (ho : Owns m) {k p : ℕ} (hk : k < m.pool.numDevs)
    (hb : Busy (m.pool.memDevs k) p) :
    (p : ℤ) < (m.pool.memDevs k).totalSegments ∧ p < maxSegments := by
  obtain ⟨i, hi, hown⟩ := ho.owner k hk p hb
  obtain ⟨dev, hd, hc⟩ := ho.covered hi hk hown
  obtain ⟨k', lo, n, hr⟩ := ho.range i dev hd
  obtain ⟨rfl, _, hp⟩ := (hr.covers_iff ho.geometry k p).mp hc
  have hin := hr.inside
  have harr := hr.inArray
  exact ⟨by omega, by omega⟩

theorem Owns.idx_inj (ho : Owns m) {dev' : MemoryDev} (hd : LiveDev m i dev)
    (hd' : LiveDev m i dev') (hidx : dev.memdevIdx = dev'.memdevIdx) : dev = dev' :=
  List.inj_on_of_nodup_map (ho.distinct i hd.1) hd.2 hd'.2 hidx

theorem Owns.findMemoryDev (ho : Owns m) (hd : LiveDev m i dev) :
    findMemoryDev (m.vms i) dev.memdevIdx = some dev := by
  cases hf : VmManager.findMemoryDev (m.vms i) dev.memdevIdx with
  | none =>
    have := List.find?_eq_none.mp hf dev hd.2
    simp at this
  | some dev' =>
    have hmem : LiveDev m i dev' := ⟨hd.1, List.mem_of_find?_eq_some hf⟩
    have hidx : dev'.memdevIdx = dev.memdevIdx := by simpa using List.find?_some hf
    rw [ho.idx_inj hmem hd hidx]

/-- Two entries of one list never map the same segment. -/
theorem countP_le_one_disjoint {α : Type*} {q : α → Bool} {l₁ l₂ : List α} {a b : α}
    (h : (l₁ ++ a :: l₂).countP q ≤ 1) (hb : b ∈ l₁ ++ l₂) (ha : q a = true) : ¬ q b = true := by
  intro hq
  have hpos : 0 < (l₁ ++ l₂).countP q := List.countP_pos_iff.mpr ⟨b, hb, hq⟩
  simp only [List.countP_append, List.countP_cons, if_pos ha] at h hpos
  omega

theorem Owns.disjoint (ho : Owns m) {dev' : MemoryDev} (hd : LiveDev m i dev)
    (hd' : LiveDev m j dev') (hne : i ≠ j ∨ dev.memdevIdx ≠ dev'.memdevIdx) (k p : ℕ) :
    ¬ (Covers m.pool.segmentSizeMb k p dev ∧ Covers m.pool.segmentSizeMb k p dev') := by
  rintro ⟨hc, hc'⟩
  obtain ⟨k', lo, n, hr⟩ := ho.range i dev hd
  obtain ⟨rfl, _⟩ := (hr.covers_iff ho.geometry k p).mp hc
  have hown := ho.owned_of_covers hd hr.device hc
  have hown' := ho.owned_of_covers hd' hr.device hc'
  have hij : i = j := ho.ids i j hd.1 hd'.1 (hown.2.symm.trans hown'.2)
  subst hij
  rcases hne with hne | hne
  · exact hne rfl
  · have hcount : coverCount m i k p ≤ 1 := by
      rw [ho.cover i hd.1 k hr.device p, if_pos hown]
    obtain ⟨l₁, l₂, hsplit⟩ := List.append_of_mem hd.2
    have hmem : dev' ∈ l₁ ++ l₂ := by
      have := hd'.2
      rw [hsplit] at this
      simp only [List.mem_append, List.mem_cons] at this ⊢
      rcases this with h | rfl | h
      · exact .inl h
      · exact absurd rfl hne
      · exact .inr h
    rw [coverCount, hsplit] at hcount
    exact countP_le_one_disjoint hcount hmem (by simpa using hc) (by simpa using hc')

/-! ### Steps that leave the memory alone -/

/-- Equal but for cores, perf data, running flags and agents. -/
structure MemSame (m m' : Manager) : Prop where
  pool : m'.pool = m.pool
  vmId : ∀ i, (m'.vms i).vmId = (m.vms i).vmId
  initialized : ∀ i, (m'.vms i).initialized = (m.vms i).initialized
  memdevCounter : ∀ i, (m'.vms i).memdevCounter = (m.vms i).memdevCounter
  attachedDevs : ∀ i, (m'.vms i).attachedDevs = (m.vms i).attachedDevs

theorem MemSame.refl (m : Manager) : MemSame m m :=
  ⟨rfl, fun _ => rfl, fun _ => rfl, fun _ => rfl, fun _ => rfl⟩

theorem MemSame.liveDev (hs : MemSame m m') : LiveDev m' i dev ↔ LiveDev m i dev := by
  simp only [LiveDev, hs.initialized, hs.attachedDevs]

/-- Replacing the perf data and the running flag of one slot. -/
theorem memSame_setVm {vm : VmInstance} {agents : GuestAgentManager}
    (hid : vm.vmId = (m.vms i).vmId) (hinit : vm.initialized = (m.vms i).initialized)
    (hcounter : vm.memdevCounter = (m.vms i).memdevCounter)
    (hdevs : vm.attachedDevs = (m.vms i).attachedDevs) :
    MemSame m { m.setVm i vm with agents := agents } where
  pool := rfl
  vmId := setVm_each m (fun v w => v.vmId = w.vmId) hid fun _ => rfl
  initialized := setVm_each m (fun v w => v.initialized = w.initialized) hinit fun _ => rfl
  memdevCounter := setVm_each m (fun v w => v.memdevCounter = w.memdevCounter) hcounter fun _ => rfl
  attachedDevs := setVm_each m (fun v w => v.attachedDevs = w.attachedDevs) hdevs fun _ => rfl

theorem vmMngrInstanceStart_memSame {env : StartEnv} {vmId ret : ℤ}
    (h : vmMngrInstanceStart env m vmId = .ok (ret, m')) : MemSame m m' := by
  rcases vmMngrInstanceStart_ok h with ⟨_, rfl⟩ | ⟨_, rfl⟩ | ⟨i, vm, agents, _, _, hsetup, _, hend⟩
  · exact .refl _
  · exact .refl _
  · have hs := vmPerfCounterSetup_same hsetup
    rcases hend with ⟨_, vm', htear, rfl⟩ | ⟨_, rfl⟩
    · have ht := hs.trans (vmPerfCounterTeardown_same htear)
      exact memSame_setVm ht.vmId ht.initialized ht.memdevCounter ht.attachedDevs
    · exact memSame_setVm hs.vmId hs.initialized hs.memdevCounter hs.attachedDevs

theorem vmMngrInstanceStop_memSame {kernel : PerfCounter.PerfKernel} {vmId ret : ℤ}
    (h : vmMngrInstanceStop kernel m vmId = .ok (ret, m')) : MemSame m m' := by
  rcases vmMngrInstanceStop_ok h with ⟨_, rfl⟩ | ⟨_, rfl⟩ | ⟨_, i, vm, agents, _, _, _, htear, rfl⟩
  · exact .refl _
  · exact .refl _
  · have ht := vmPerfCounterTeardown_same htear
    exact memSame_setVm ht.vmId ht.initialized ht.memdevCounter ht.attachedDevs

theorem Owns.memSame (ho : Owns m) (hs : MemSame m m') : Owns m' where
  geometry := hs.pool ▸ ho.geometry
  ids := by
    intro a b ha hb hid
    simp only [hs.initialized, hs.vmId] at ha hb hid
    exact ho.ids a b ha hb hid
  counter := by
    intro a ha
    rw [hs.memdevCounter]
    exact ho.counter a (hs.initialized a ▸ ha)
  fresh := by
    intro a d hd
    rw [hs.memdevCounter]
    exact ho.fresh a d (hs.liveDev.mp hd)
  distinct := by
    intro a ha
    rw [hs.attachedDevs]
    exact ho.distinct a (hs.initialized a ▸ ha)
  range := by
    intro a d hd
    rw [hs.pool]
    exact ho.range a d (hs.liveDev.mp hd)
  cover := by
    intro a ha k hk p
    rw [hs.pool] at hk
    simp only [coverCount, hs.pool, hs.attachedDevs, hs.vmId]
    exact ho.cover a (hs.initialized a ▸ ha) k hk p
  owner := by
    intro k hk p hb
    rw [hs.pool] at hk hb
    simp only [hs.pool, hs.initialized, hs.vmId]
    exact ho.owner k hk p hb

/-! ### Create and destroy -/

theorem Owns.created (ho : Owns m) {vmId n : ℤ} {coreSet : Text}
    (hfree : (m.vms i).initialized = false) (hnew : vmMngrGetInstance m vmId = none) :
    Owns { m.setVm i (createdVm (m.vms i) vmId coreSet n) with count := m.count + 1 } := by
  set m₁ : Manager := { m.setVm i (createdVm (m.vms i) vmId coreSet n) with count := m.count + 1 }
  have hself : m₁.vms i = createdVm (m.vms i) vmId coreSet n := setVm_vms_self m i _
  have hother : ∀ j, j ≠ i → m₁.vms j = m.vms j := fun j => setVm_vms_other m _
  have hfresh : ∀ j, (m.vms j).initialized = true → (m.vms j).vmId ≠ vmId :=
    fun j => vmMngrGetInstance_eq_none hnew
  have hne : ∀ j, (m.vms j).initialized = true → j ≠ i := by
    rintro j hj rfl
    rw [hfree] at hj
    cases hj
  have hnodev : ∀ d, ¬ LiveDev m₁ i d := by
    rintro d ⟨_, hd⟩
    rw [hself] at hd
    cases hd
  have hlive : ∀ j d, LiveDev m₁ j d → j ≠ i ∧ LiveDev m j d := by
    intro j d hd
    have hj : j ≠ i := by
      rintro rfl
      exact hnodev d hd
    exact ⟨hj, by simpa only [LiveDev, hother j hj] using hd⟩
  refine {
    geometry := ho.geometry
    ids := ?ids
    counter := ?counter
    fresh := ?fresh
    distinct := ?distinct
    range := ?range
    cover := ?cover
    owner := ?owner }
  case ids =>
    intro a b ha hb hid
    by_cases hai : a = i <;> by_cases hbi : b = i
    · rw [hai, hbi]
    · subst hai
      rw [hself, hother b hbi] at hid
      rw [hother b hbi] at hb
      exact absurd hid.symm (hfresh b hb)
    · subst hbi
      rw [hself, hother a hai] at hid
      rw [hother a hai] at ha
      exact absurd hid (hfresh a ha)
    · rw [hother a hai] at ha hid
      rw [hother b hbi] at hb hid
      exact ho.ids a b ha hb hid
  case counter =>
    intro a ha
    by_cases hai : a = i
    · rw [hai, hself]
      exact le_rfl
    · rw [hother a hai] at ha ⊢
      exact ho.counter a ha
  case fresh =>
    intro a d hd
    obtain ⟨hai, hd⟩ := hlive a d hd
    rw [hother a hai]
    exact ho.fresh a d hd
  case distinct =>
    intro a ha
    by_cases hai : a = i
    · rw [hai, hself]
      exact List.nodup_nil
    · rw [hother a hai] at ha ⊢
      exact ho.distinct a ha
  case range =>
    intro a d hd
    exact ho.range a d (hlive a d hd).2
  case cover =>
    intro a ha k hk p
    by_cases hai : a = i
    · -- nobody owned a segment under an id that is new
      subst hai
      have hunowned : ¬ Owned (m.pool.memDevs k) vmId p := by
        intro hown
        obtain ⟨b, hb, hbown⟩ := ho.owner k hk p hown.1
        exact hfresh b hb (hbown.2.symm.trans hown.2)
      rw [coverCount, hself]
      exact (if_neg hunowned).symm
    · rw [coverCount, hother a hai]
      rw [hother a hai] at ha
      exact ho.cover a ha k hk p
  case owner =>
    intro k hk p hb
    obtain ⟨a, ha, hown⟩ := ho.owner k hk p hb
    exact ⟨a, by rwa [hother a (hne a ha)], by rwa [hother a (hne a ha)]⟩

theorem vmReleasedPool_owned {vmId id : ℤ} {k p : ℕ} (hk : k < pool.numDevs)
    (hp : Busy (pool.memDevs k) p → (p : ℤ) < (pool.memDevs k).totalSegments) :
    Owned ((vmReleasedPool pool vmId 0 pool.numDevs).memDevs k) id p ↔
      Owned (pool.memDevs k) id p ∧ id ≠ vmId := by
  have hdev : (vmReleasedPool pool vmId 0 pool.numDevs).memDevs k =
      vmReleased (pool.memDevs k) vmId 0 (pool.memDevs k).totalSegments.toNat := by
    simp [vmReleasedPool, hk]
  rw [hdev, Owned, vmReleased_segments]
  by_cases hown : Owned (pool.memDevs k) vmId p
  · have hlt := hp hown.1
    rw [if_pos ⟨⟨Nat.zero_le _, by omega⟩, hown⟩]
    constructor
    · rintro ⟨hb, _⟩
      cases hb
    · rintro ⟨hid, hne⟩
      exact absurd (hid.2.symm.trans hown.2) hne
  · rw [if_neg fun h => hown h.2]
    constructor
    · intro hid
      refine ⟨hid, ?_⟩
      rintro rfl
      exact hown hid
    · exact fun h => h.1

theorem Owns.destroyed (ho : Owns m) {vmId : ℤ} (hget : vmMngrGetInstance m vmId = some i) :
    Owns { m.setVm i { m.vms i with coreSet := [], initialized := false } with
      pool := vmReleasedPool m.pool vmId 0 m.pool.numDevs
      count := m.count - 1 } := by
  set m₁ : Manager := { m.setVm i { m.vms i with coreSet := [], initialized := false } with
    pool := vmReleasedPool m.pool vmId 0 m.pool.numDevs
    count := m.count - 1 }
  obtain ⟨hinit, hid⟩ := vmMngrGetInstance_eq_some hget
  have hgeom : SameGeometry m.pool m₁.pool := vmReleasedPool_sameGeometry _ _ _ _
  have hother : ∀ j, j ≠ i → m₁.vms j = m.vms j := fun j => setVm_vms_other m _
  have hlive : ∀ j, (m₁.vms j).initialized = true → j ≠ i := by
    rintro j hj rfl
    rw [show m₁.vms j = _ from setVm_vms_self m j _] at hj
    cases hj
  have hne : ∀ j, (m₁.vms j).initialized = true →
      (m.vms j).initialized = true ∧ (m.vms j).vmId ≠ vmId := by
    intro j hj
    have hji := hlive j hj
    rw [hother j hji] at hj
    refine ⟨hj, fun heq => hji (ho.ids j i hj hinit (heq.trans hid.symm))⟩
  have howned : ∀ k < m.pool.numDevs, ∀ p id, Owned (m₁.pool.memDevs k) id p ↔
      Owned (m.pool.memDevs k) id p ∧ id ≠ vmId :=
    fun k hk p id => vmReleasedPool_owned hk fun hb => (ho.limit hk hb).1
  refine {
    geometry := hgeom.geometry ho.geometry
    ids := ?ids
    counter := ?counter
    fresh := ?fresh
    distinct := ?distinct
    range := ?range
    cover := ?cover
    owner := ?owner }
  case ids =>
    intro a b ha hb hab
    rw [hother a (hlive a ha), hother b (hlive b hb)] at hab
    exact ho.ids a b (hne a ha).1 (hne b hb).1 hab
  case counter =>
    intro a ha
    rw [hother a (hlive a ha)]
    exact ho.counter a (hne a ha).1
  case fresh =>
    rintro a d ⟨ha, hd⟩
    rw [hother a (hlive a ha)] at hd ⊢
    exact ho.fresh a d ⟨(hne a ha).1, hd⟩
  case distinct =>
    intro a ha
    rw [hother a (hlive a ha)]
    exact ho.distinct a (hne a ha).1
  case range =>
    rintro a d ⟨ha, hd⟩
    rw [hother a (hlive a ha)] at hd
    obtain ⟨k, lo, n, hr⟩ := ho.range a d ⟨(hne a ha).1, hd⟩
    exact ⟨k, lo, n, hr.congr hgeom⟩
  case cover =>
    intro a ha k hk p
    have hcount := ho.cover a (hne a ha).1 k hk p
    rw [coverCount, hother a (hlive a ha)]
    simp only [howned k hk p, (hne a ha).2, ne_eq, not_false_eq_true, and_true]
    exact hcount
  case owner =>
    intro k hk p hb
    have hb₁ : Owned (m₁.pool.memDevs k) ((m₁.pool.memDevs k).segments p).usedVmId p := ⟨hb, rfl⟩
    obtain ⟨hb₀, hv⟩ := (howned k hk p _).mp hb₁
    obtain ⟨a, ha, hown⟩ := ho.owner k hk p hb₀.1
    have hav : (m.vms a).vmId ≠ vmId := fun heq => hv (hb₀.2.symm.trans (hown.2.trans heq))
    have hai : a ≠ i := by
      rintro rfl
      exact hav hid
    refine ⟨a, by rwa [hother a hai], ?_⟩
    rw [hother a hai]
    exact (howned k hk p _).mpr ⟨hown, hav⟩

/-! ### Allocation -/

theorem allocated_owned {d : MemoryDaxDev} {vmId id : ℤ} {lo n p : ℕ} :
    Owned (allocated d vmId lo n) id p ↔
      if lo ≤ p ∧ p < lo + n then vmId = id else Owned d id p := by
  simp only [Owned, allocated, setRange_segments]
  by_cases hp : lo ≤ p ∧ p < lo + n
  · rw [if_pos hp, if_pos hp]
    simp
  · rw [if_neg hp, if_neg hp]

/-- What an allocation does to the ownership of every segment of the pool. -/
theorem allocation_owned {nodeId vmId sizeMb id : ℤ} {req : MemoryRequest} {k lo n q p : ℕ}
    (hal : Allocation pool nodeId vmId sizeMb req pool' k lo n) :
    Owned (pool'.memDevs q) id p ↔
      if q = k ∧ lo ≤ p ∧ p < lo + n then vmId = id else Owned (pool.memDevs q) id p := by
  rw [hal.after, setDev_memDevs]
  by_cases hq : q = k
  · subst hq
    rw [if_pos rfl, allocated_owned]
    simp only [true_and]
  · rw [if_neg hq, if_neg fun h => hq h.1]

theorem allocation_sameGeometry {nodeId vmId sizeMb : ℤ} {req : MemoryRequest} {k lo n : ℕ}
    (hal : Allocation pool nodeId vmId sizeMb req pool' k lo n) : SameGeometry pool pool' := by
  rw [hal.after]
  exact setDev_sameGeometry rfl rfl rfl rfl

theorem allocation_devRange {nodeId vmId sizeMb : ℤ} {req : MemoryRequest} {k lo n : ℕ}
    (hg : PoolGeometry pool) (hal : Allocation pool nodeId vmId sizeMb req pool' k lo n) :
    DevRange pool req k lo n := by
  obtain ⟨hk, hnode⟩ := findMemDev_eq_some hal.found
  have hfits := hal.fit.fits
  have hpos := hal.positive
  refine ⟨hk, hal.positive, by omega, hal.inArray, ?_⟩
  rw [hal.request, ← hnode, hg.node k hk]

/-- Nobody owned what an allocation hands out. -/
theorem allocation_unowned {nodeId vmId sizeMb id : ℤ} {req : MemoryRequest} {k lo n p : ℕ}
    (hal : Allocation pool nodeId vmId sizeMb req pool' k lo n) (hlo : lo ≤ p)
    (hp : p < lo + n) : ¬ Owned (pool.memDevs k) id p :=
  fun hown => hal.fit.free.not_busy hlo hp hown.1

/-! ### Steps that change one device list -/

/-- The same VMs over the same devices: only the device list of slot `i` may differ, and the
counters may have gone on. -/
structure Relisted (m m' : Manager) (i : Fin maxNumVm) : Prop where
  geometry : SameGeometry m.pool m'.pool
  vmId : ∀ j, (m'.vms j).vmId = (m.vms j).vmId
  initialized : ∀ j, (m'.vms j).initialized = (m.vms j).initialized
  counter : ∀ j, (m.vms j).memdevCounter ≤ (m'.vms j).memdevCounter
  others : ∀ j, j ≠ i → (m'.vms j).attachedDevs = (m.vms j).attachedDevs

theorem relisted_setVm {vm : VmInstance} (hgeom : SameGeometry m.pool pool')
    (hid : vm.vmId = (m.vms i).vmId) (hinit : vm.initialized = (m.vms i).initialized)
    (hcounter : (m.vms i).memdevCounter ≤ vm.memdevCounter) :
    Relisted m { m.setVm i vm with pool := pool' } i where
  geometry := hgeom
  vmId := setVm_each m (fun v w => v.vmId = w.vmId) hid fun _ => rfl
  initialized := setVm_each m (fun v w => v.initialized = w.initialized) hinit fun _ => rfl
  counter := setVm_each m (fun v w => w.memdevCounter ≤ v.memdevCounter) hcounter fun _ => le_rfl
  others := fun _ hj => congrArg VmInstance.attachedDevs (setVm_vms_other m vm hj)

theorem Relisted.ids (hs : Relisted m m' i) (h : UniqueIds m) : UniqueIds m' := by
  intro a b ha hb hab
  rw [hs.initialized] at ha hb
  rw [hs.vmId, hs.vmId] at hab
  exact h a b ha hb hab

theorem Relisted.liveDev_other (hs : Relisted m m' i) (hj : j ≠ i) :
    LiveDev m' j dev ↔ LiveDev m j dev := by
  rw [LiveDev, LiveDev, hs.initialized, hs.others j hj]

theorem Relisted.distinct_other (hs : Relisted m m' i) (ho : Owns m) (hj : j ≠ i)
    (hinit : (m'.vms j).initialized = true) :
    ((m'.vms j).attachedDevs.map MemoryDev.memdevIdx).Nodup := by
  rw [hs.others j hj]
  exact ho.distinct j (hs.initialized j ▸ hinit)

theorem Relisted.coverCount_other (hs : Relisted m m' i) (hj : j ≠ i) (k p : ℕ) :
    coverCount m' j k p = coverCount m j k p := by
  rw [coverCount, coverCount, hs.others j hj, hs.geometry.segmentSizeMb]

theorem Relisted.live_appended (hs : Relisted m m' i) {d : MemoryDev}
    (hdevs : (m'.vms i).attachedDevs = (m.vms i).attachedDevs ++ [dev]) (hd : LiveDev m' j d) :
    LiveDev m j d ∨ j = i ∧ d = dev := by
  by_cases hj : j = i
  · subst hj
    rw [LiveDev, hs.initialized, hdevs] at hd
    rcases List.mem_append.mp hd.2 with hmem | hmem
    · exact .inl ⟨hd.1, hmem⟩
    · exact .inr ⟨rfl, List.mem_singleton.mp hmem⟩
  · exact .inl ((hs.liveDev_other hj).mp hd)

/-- One device more in the list maps the segments of its range once more. -/
theorem coverCount_more {k lo n : ℕ} {l₁ l₂ : List MemoryDev} (hg : PoolGeometry m.pool)
    (hr : DevRange m.pool dev.memoryReq k lo n)
    (hseg : m'.pool.segmentSizeMb = m.pool.segmentSizeMb)
    (hless : (m'.vms i).attachedDevs = l₁ ++ l₂)
    (hmore : (m.vms i).attachedDevs = l₁ ++ dev :: l₂) (q p : ℕ) :
    coverCount m i q p =
      coverCount m' i q p + if q = k ∧ lo ≤ p ∧ p < lo + n then 1 else 0 := by
  rw [coverCount, coverCount, hless, hmore, hseg, List.countP_append, List.countP_append,
    List.countP_cons, ← Nat.add_assoc]
  simp only [decide_eq_true_eq, hr.covers_iff hg]

/-- A segment that is handed out is covered once: by the device it is handed out to. -/
theorem Owns.attached_cover (ho : Owns m) (hs : Relisted m m' i) {vmId : ℤ} {k lo n : ℕ}
    (hinit : (m.vms i).initialized = true) (hid : (m.vms i).vmId = vmId)
    (hr : DevRange m.pool dev.memoryReq k lo n)
    (hdevs : (m'.vms i).attachedDevs = (m.vms i).attachedDevs ++ [dev])
    (hfree : ∀ p id, lo ≤ p → p < lo + n → ¬ Owned (m.pool.memDevs k) id p)
    (howned : ∀ q p id, Owned (m'.pool.memDevs q) id p ↔
      if q = k ∧ lo ≤ p ∧ p < lo + n then vmId = id else Owned (m.pool.memDevs q) id p)
    {a : Fin maxNumVm} (ha : (m.vms a).initialized = true) {q : ℕ} (hq : q < m.pool.numDevs)
    (p : ℕ) :
    coverCount m' a q p = if Owned (m'.pool.memDevs q) (m.vms a).vmId p then 1 else 0 := by
  have hbefore := ho.cover a ha q hq p
  have hafter := howned q p (m.vms a).vmId
  by_cases hai : a = i
  · subst hai
    rw [coverCount_more (hs.geometry.geometry ho.geometry) (hr.congr hs.geometry)
      hs.geometry.segmentSizeMb.symm (List.append_nil _).symm hdevs, hbefore]
    by_cases hin : q = k ∧ lo ≤ p ∧ p < lo + n
    · rw [if_pos hin] at hafter ⊢
      obtain ⟨rfl, hlo, hp⟩ := hin
      rw [if_neg (hfree p _ hlo hp), if_pos (hafter.mpr hid.symm)]
    · rw [if_neg hin] at hafter ⊢
      simp only [hafter, Nat.add_zero]
  · rw [hs.coverCount_other hai, hbefore]
    by_cases hin : q = k ∧ lo ≤ p ∧ p < lo + n
    · rw [if_pos hin] at hafter
      obtain ⟨rfl, hlo, hp⟩ := hin
      have hother : ¬ vmId = (m.vms a).vmId := fun heq =>
        hai (ho.ids a i ha hinit (heq.symm.trans hid.symm))
      rw [if_neg (hfree p _ hlo hp), if_neg fun h => hother (hafter.mp h)]
    · rw [if_neg hin] at hafter
      simp only [hafter]

/-- A busy segment has an owner after a step that hands segments out to one VM. -/
theorem Owns.attached_owner (ho : Owns m) (hs : Relisted m m' i) {vmId : ℤ} {k lo n : ℕ}
    (hinit : (m.vms i).initialized = true) (hid : (m.vms i).vmId = vmId)
    (howned : ∀ q p id, Owned (m'.pool.memDevs q) id p ↔
      if q = k ∧ lo ≤ p ∧ p < lo + n then vmId = id else Owned (m.pool.memDevs q) id p)
    {q : ℕ} (hq : q < m.pool.numDevs) {p : ℕ} (hb : Busy (m'.pool.memDevs q) p) :
    ∃ a, (m'.vms a).initialized = true ∧ Owned (m'.pool.memDevs q) (m'.vms a).vmId p := by
  simp only [hs.initialized, hs.vmId, howned]
  by_cases hin : q = k ∧ lo ≤ p ∧ p < lo + n
  · exact ⟨i, hinit, by rw [if_pos hin, hid]⟩
  · have hbefore : Owned (m'.pool.memDevs q) ((m'.pool.memDevs q).segments p).usedVmId p := ⟨hb, rfl⟩
    rw [howned, if_neg hin] at hbefore
    obtain ⟨a, ha, hown⟩ := ho.owner q hq p hbefore.1
    exact ⟨a, ha, by rwa [if_neg hin]⟩

theorem Owns.attached (ho : Owns m) {nodeId vmId sizeMb : ℤ} {req : MemoryRequest} {k lo n : ℕ}
    (hget : vmMngrGetInstance m vmId = some i)
    (hal : Allocation m.pool nodeId vmId sizeMb req pool' k lo n) :
    Owns { m.setVm i (attachedVm (m.vms i) req) with pool := pool' } := by
  set m₁ : Manager := { m.setVm i (attachedVm (m.vms i) req) with pool := pool' }
  obtain ⟨hinit, hid⟩ := vmMngrGetInstance_eq_some hget
  have hs : Relisted m m₁ i :=
    relisted_setVm (allocation_sameGeometry hal) rfl rfl (by simp [attachedVm])
  have hrange : DevRange m.pool (⟨(m.vms i).memdevCounter, req⟩ : MemoryDev).memoryReq k lo n :=
    allocation_devRange ho.geometry hal
  have hself : m₁.vms i = attachedVm (m.vms i) req := setVm_vms_self m i _
  have hdevs : (m₁.vms i).attachedDevs =
      (m.vms i).attachedDevs ++ [⟨(m.vms i).memdevCounter, req⟩] := by
    rw [hself]
    rfl
  refine {
    geometry := hs.geometry.geometry ho.geometry
    ids := hs.ids ho.ids
    counter := ?counter
    fresh := ?fresh
    distinct := ?distinct
    range := ?range
    cover := ?cover
    owner := ?owner }
  case counter =>
    intro a ha
    exact (ho.counter a (hs.initialized a ▸ ha)).trans (hs.counter a)
  case fresh =>
    intro a d hd
    rcases hs.live_appended hdevs hd with hd | ⟨rfl, rfl⟩
    · obtain ⟨h0, hlt⟩ := ho.fresh a d hd
      exact ⟨h0, hlt.trans_le (hs.counter a)⟩
    · rw [hself]
      exact ⟨ho.counter a hinit, by simp [attachedVm]⟩
  case distinct =>
    intro a ha
    by_cases hai : a = i
    · subst hai
      rw [hdevs, List.map_append, List.map_singleton]
      refine List.nodup_append.mpr ⟨ho.distinct a hinit, List.nodup_singleton _, ?_⟩
      intro x hx y hy hxy
      obtain ⟨d, hd, rfl⟩ := List.mem_map.mp hx
      rw [List.mem_singleton.mp hy] at hxy
      exact (ho.fresh a d ⟨hinit, hd⟩).2.ne hxy
    · exact hs.distinct_other ho hai ha
  case range =>
    intro a d hd
    rcases hs.live_appended hdevs hd with hd | ⟨rfl, rfl⟩
    · obtain ⟨k', lo', n', hr⟩ := ho.range a d hd
      exact ⟨k', lo', n', hr.congr hs.geometry⟩
    · exact ⟨k, lo, n, hrange.congr hs.geometry⟩
  case cover =>
    intro a ha q hq p
    rw [hs.vmId]
    exact ho.attached_cover hs hinit hid hrange hdevs
      (fun p id hlo hp => allocation_unowned hal hlo hp) (fun q p id => allocation_owned hal)
      (hs.initialized a ▸ ha) (hs.geometry.numDevs ▸ hq) p
  case owner =>
    intro q hq p hb
    exact ho.attached_owner hs hinit hid (fun q p id => allocation_owned hal)
      (hs.geometry.numDevs ▸ hq) hb

/-! ### Release -/

/-- Freeing a listed device succeeds, whatever happened before. -/
theorem Owns.freeMem (ho : Owns m) (hd : LiveDev m i dev) {k lo n : ℕ}
    (hr : DevRange m.pool dev.memoryReq k lo n) :
    vmMngrInstanceFreeMem m (m.vms i).vmId dev.memdevIdx =
      .ok (0, { m.setVm i (detachedVm (m.vms i) dev.memdevIdx) with
        pool := m.pool.setDev k (released (m.pool.memDevs k) lo n) }) := by
  have hget := ho.ids.getInstance hd.1 rfl
  refine vmMngrInstanceFreeMem_released hget (ho.findMemoryDev hd) ?_
  have hfind : findMemDev m.pool k = some k := by
    cases hf : findMemDev m.pool k with
    | none => exact absurd (ho.geometry.node k hr.device) (findMemDev_eq_none hf k hr.device)
    | some q =>
      obtain ⟨hq, hnode⟩ := findMemDev_eq_some hf
      rw [ho.geometry.node q hq] at hnode
      exact congrArg some (by exact_mod_cast hnode)
  simp only [hr.request]
  refine memoryPoolReleaseSegments_owned (hr.segmentSize ho.geometry) hfind fun p hlo hp => ?_
  have hown := ho.owned_of_covers hd hr.device
    ((hr.covers_iff ho.geometry k p).mpr ⟨rfl, hlo, hp⟩)
  have hlim := ho.limit hr.device hown.1
  exact ⟨hown, hlim.2, hlim.1⟩

/-- A call of `free_mem` frees one listed device, or changes nothing. -/
theorem Owns.freeMem_ok (ho : Owns m) {vmId memdevIdx ret : ℤ}
    (h : vmMngrInstanceFreeMem m vmId memdevIdx = .ok (ret, m')) :
    (ret = -1 ∧ m' = m) ∨
      (ret = 0 ∧ ∃ i dev k lo n, vmMngrGetInstance m vmId = some i ∧ LiveDev m i dev ∧
        dev.memdevIdx = memdevIdx ∧ DevRange m.pool dev.memoryReq k lo n ∧
        m' = { m.setVm i (detachedVm (m.vms i) memdevIdx) with
          pool := m.pool.setDev k (released (m.pool.memDevs k) lo n) }) := by
  cases hget : vmMngrGetInstance m vmId with
  | none =>
    rw [vmMngrInstanceFreeMem_none (.inl hget)] at h
    cases h
    exact .inl ⟨rfl, rfl⟩
  | some i =>
    obtain ⟨hinit, rfl⟩ := vmMngrGetInstance_eq_some hget
    cases hdev : VmManager.findMemoryDev (m.vms i) memdevIdx with
    | none =>
      rw [vmMngrInstanceFreeMem_none (.inr ⟨i, hget, hdev⟩)] at h
      cases h
      exact .inl ⟨rfl, rfl⟩
    | some dev =>
      have hd : LiveDev m i dev := ⟨hinit, List.mem_of_find?_eq_some hdev⟩
      have hidx : dev.memdevIdx = memdevIdx := by simpa using List.find?_some hdev
      obtain ⟨k, lo, n, hr⟩ := ho.range i dev hd
      have hfree := ho.freeMem hd hr
      rw [hidx] at hfree
      rw [hfree] at h
      cases h
      exact .inr ⟨rfl, i, dev, k, lo, n, rfl, hd, hidx, hr, rfl⟩

/-- A call of `free_mem` never faults. -/
theorem Owns.freeMem_total (ho : Owns m) (vmId memdevIdx : ℤ) :
    ∃ r, vmMngrInstanceFreeMem m vmId memdevIdx = .ok r := by
  cases hget : vmMngrGetInstance m vmId with
  | none => exact ⟨_, vmMngrInstanceFreeMem_none (.inl hget)⟩
  | some i =>
    obtain ⟨hinit, rfl⟩ := vmMngrGetInstance_eq_some hget
    cases hdev : VmManager.findMemoryDev (m.vms i) memdevIdx with
    | none => exact ⟨_, vmMngrInstanceFreeMem_none (.inr ⟨i, hget, hdev⟩)⟩
    | some dev =>
      have hd : LiveDev m i dev := ⟨hinit, List.mem_of_find?_eq_some hdev⟩
      have hidx : dev.memdevIdx = memdevIdx := by simpa using List.find?_some hdev
      obtain ⟨k, lo, n, hr⟩ := ho.range i dev hd
      rw [← hidx]
      exact ⟨_, ho.freeMem hd hr⟩

theorem released_owned {d : MemoryDaxDev} {id : ℤ} {lo n p : ℕ} :
    Owned (released d lo n) id p ↔ ¬ (lo ≤ p ∧ p < lo + n) ∧ Owned d id p := by
  simp only [Owned, released, setRange_segments]
  by_cases hp : lo ≤ p ∧ p < lo + n
  · rw [if_pos hp]
    simp [hp, freeSegment]
  · rw [if_neg hp]
    simp only [hp, not_false_eq_true, true_and]

/-- The list without its only entry of this index. -/
theorem Owns.detached_split (ho : Owns m) (hd : LiveDev m i dev) :
    ∃ l₁ l₂, (m.vms i).attachedDevs = l₁ ++ dev :: l₂ ∧
      (detachedVm (m.vms i) dev.memdevIdx).attachedDevs = l₁ ++ l₂ := by
  obtain ⟨_, l₁, l₂, hsplit, hl₁⟩ := List.find?_eq_some_iff_append.mp (ho.findMemoryDev hd)
  refine ⟨l₁, l₂, hsplit, ?_⟩
  simp only [detachedVm, hsplit]
  rw [List.eraseP_append_right _ (fun d hdm => by simpa using hl₁ d hdm),
    List.eraseP_cons_of_pos (by simp)]

/-- What a release does to the ownership of every segment of the pool. -/
theorem release_owned {k lo n q p : ℕ} {id : ℤ} :
    Owned ((pool.setDev k (released (pool.memDevs k) lo n)).memDevs q) id p ↔
      ¬ (q = k ∧ lo ≤ p ∧ p < lo + n) ∧ Owned (pool.memDevs q) id p := by
  rw [setDev_memDevs]
  by_cases hq : q = k
  · subst hq
    rw [if_pos rfl, released_owned]
    simp only [true_and]
  · rw [if_neg hq]
    simp only [hq, false_and, not_false_eq_true, true_and]

/-- A segment that is released is covered no more. -/
theorem Owns.detached_cover (ho : Owns m) (hs : Relisted m m' i) {k lo n : ℕ}
    {l₁ l₂ : List MemoryDev} (hd : LiveDev m i dev) (hr : DevRange m.pool dev.memoryReq k lo n)
    (hmore : (m.vms i).attachedDevs = l₁ ++ dev :: l₂)
    (hless : (m'.vms i).attachedDevs = l₁ ++ l₂)
    (howned : ∀ q p id, Owned (m'.pool.memDevs q) id p ↔
      ¬ (q = k ∧ lo ≤ p ∧ p < lo + n) ∧ Owned (m.pool.memDevs q) id p)
    {a : Fin maxNumVm} (ha : (m.vms a).initialized = true) {q : ℕ} (hq : q < m.pool.numDevs)
    (p : ℕ) :
    coverCount m' a q p = if Owned (m'.pool.memDevs q) (m.vms a).vmId p then 1 else 0 := by
  have hbefore := ho.cover a ha q hq p
  have hafter := howned q p (m.vms a).vmId
  have hmine : ∀ p, lo ≤ p → p < lo + n → Owned (m.pool.memDevs k) (m.vms i).vmId p :=
    fun p hlo hp => ho.owned_of_covers hd hr.device
      ((hr.covers_iff ho.geometry k p).mpr ⟨rfl, hlo, hp⟩)
  by_cases hin : q = k ∧ lo ≤ p ∧ p < lo + n
  · rw [if_neg fun h => (hafter.mp h).1 hin]
    by_cases hai : a = i
    · subst hai
      rw [coverCount_more ho.geometry hr hs.geometry.segmentSizeMb hless hmore, if_pos hin] at hbefore
      obtain ⟨rfl, hlo, hp⟩ := hin
      rw [if_pos (hmine p hlo hp)] at hbefore
      omega
    · obtain ⟨rfl, hlo, hp⟩ := hin
      rw [hs.coverCount_other hai, hbefore, if_neg]
      exact fun hown => hai (ho.ids a i ha hd.1 (hown.2.symm.trans (hmine p hlo hp).2))
  · simp only [hafter, hin, not_false_eq_true, true_and]
    rw [← hbefore]
    by_cases hai : a = i
    · subst hai
      rw [coverCount_more ho.geometry hr hs.geometry.segmentSizeMb hless hmore, if_neg hin,
        Nat.add_zero]
    · exact hs.coverCount_other hai q p

theorem Owns.detached (ho : Owns m) (hd : LiveDev m i dev) {k lo n : ℕ}
    (hr : DevRange m.pool dev.memoryReq k lo n) :
    Owns { m.setVm i (detachedVm (m.vms i) dev.memdevIdx) with
      pool := m.pool.setDev k (released (m.pool.memDevs k) lo n) } := by
  set m₁ : Manager := { m.setVm i (detachedVm (m.vms i) dev.memdevIdx) with
    pool := m.pool.setDev k (released (m.pool.memDevs k) lo n) }
  obtain ⟨l₁, l₂, hsplit, herase⟩ := ho.detached_split hd
  have hs : Relisted m m₁ i :=
    relisted_setVm (setDev_sameGeometry rfl rfl rfl rfl) rfl rfl le_rfl
  have hself : m₁.vms i = detachedVm (m.vms i) dev.memdevIdx := setVm_vms_self m i _
  have hsub : ∀ j, List.Sublist (m₁.vms j).attachedDevs (m.vms j).attachedDevs :=
    setVm_each m (fun v w => List.Sublist v.attachedDevs w.attachedDevs) List.eraseP_sublist
      fun _ => .refl _
  have hcounter : ∀ j, (m₁.vms j).memdevCounter = (m.vms j).memdevCounter :=
    setVm_each m (fun v w => v.memdevCounter = w.memdevCounter) rfl fun _ => rfl
  have hlive : ∀ j d, LiveDev m₁ j d → LiveDev m j d := fun j d hd₁ =>
    ⟨hs.initialized j ▸ hd₁.1, (hsub j).subset hd₁.2⟩
  refine {
    geometry := hs.geometry.geometry ho.geometry
    ids := hs.ids ho.ids
    counter := ?counter
    fresh := ?fresh
    distinct := ?distinct
    range := ?range
    cover := ?cover
    owner := ?owner }
  case counter =>
    intro a ha
    exact (ho.counter a (hs.initialized a ▸ ha)).trans (hs.counter a)
  case fresh =>
    intro a d hd₁
    rw [hcounter]
    exact ho.fresh a d (hlive a d hd₁)
  case distinct =>
    intro a ha
    exact ((hsub a).map _).nodup (ho.distinct a (hs.initialized a ▸ ha))
  case range =>
    intro a d hd₁
    obtain ⟨k', lo', n', hr'⟩ := ho.range a d (hlive a d hd₁)
    exact ⟨k', lo', n', hr'.congr hs.geometry⟩
  case cover =>
    intro a ha q hq p
    rw [hs.vmId]
    exact ho.detached_cover hs hd hr hsplit (hself ▸ herase) (fun q p id => release_owned)
      (hs.initialized a ▸ ha) hq p
  case owner =>
    intro q hq p hb
    have hown₁ : Owned (m₁.pool.memDevs q) ((m₁.pool.memDevs q).segments p).usedVmId p := ⟨hb, rfl⟩
    obtain ⟨hout, hown₀⟩ := release_owned.mp hown₁
    obtain ⟨a, ha, hown⟩ := ho.owner q hq p hown₀.1
    refine ⟨a, (hs.initialized a).trans ha, ?_⟩
    rw [hs.vmId]
    exact release_owned.mpr ⟨hout, hown⟩

theorem Owns.detached_live (ho : Owns m) (hd : LiveDev m i dev) {pool' : Pool} (d : MemoryDev) :
    LiveDev { m.setVm i (detachedVm (m.vms i) dev.memdevIdx) with pool := pool' } i d ↔
      LiveDev m i d ∧ d ≠ dev := by
  obtain ⟨l₁, l₂, hsplit, herase⟩ := ho.detached_split hd
  have hnodup := ho.distinct i hd.1
  rw [hsplit] at hnodup
  have hnot : dev ∉ l₁ ++ l₂ := (List.nodup_middle.mp hnodup.of_map).notMem
  have hafter : LiveDev { m.setVm i (detachedVm (m.vms i) dev.memdevIdx) with pool := pool' } i d ↔
      (m.vms i).initialized = true ∧ d ∈ l₁ ++ l₂ := by
    rw [← herase]
    exact Eq.to_iff (congrArg (fun vm : VmInstance => vm.initialized = true ∧ d ∈ vm.attachedDevs)
      (setVm_vms_self m i (detachedVm (m.vms i) dev.memdevIdx)))
  rw [hafter, LiveDev, hsplit]
  simp only [List.mem_append, List.mem_cons] at hnot ⊢
  constructor
  · rintro ⟨hi, hmem⟩
    refine ⟨⟨hi, by tauto⟩, ?_⟩
    rintro rfl
    exact hnot hmem
  · rintro ⟨⟨hi, hmem⟩, hne⟩
    exact ⟨hi, by tauto⟩

/-! ### Runs -/

theorem owns_step (ho : Owns m) {op : Op} (h : step m op = .ok m') : Owns m' := by
  cases op with
  | create vmId coreSet =>
    obtain ⟨⟨ret, _⟩, hres, rfl⟩ := map_eq_ok.mp h
    rcases vmMngrInstanceCreate_ok hres with ⟨_, rfl⟩ | ⟨_, _, hnew, i, n, hfree, _, rfl⟩
    · exact ho
    · exact ho.created hfree hnew
  | destroy vmId =>
    obtain ⟨⟨ret, _⟩, hres, rfl⟩ := map_eq_ok.mp h
    rcases vmMngrInstanceDestroy_ok hres with ⟨_, rfl⟩ | ⟨_, i, hget, _, rfl⟩
    · exact ho
    · exact ho.destroyed hget
  | start vmId env =>
    obtain ⟨⟨ret, _⟩, hres, rfl⟩ := map_eq_ok.mp h
    exact ho.memSame (vmMngrInstanceStart_memSame hres)
  | stop vmId kernel =>
    obtain ⟨⟨ret, _⟩, hres, rfl⟩ := map_eq_ok.mp h
    exact ho.memSame (vmMngrInstanceStop_memSame hres)
  | allocMem nodeId vmId sizeMb =>
    obtain ⟨⟨ret, _⟩, hres, rfl⟩ := map_eq_ok.mp h
    rcases vmMngrInstanceAllocMem_ok ho.geometry.segmentSize hres with
      ⟨_, rfl⟩ | ⟨i, req, pool, k, lo, n, hget, hal, _, _, rfl⟩
    · exact ho
    · exact ho.attached hget hal
  | freeMem vmId memdevIdx =>
    obtain ⟨⟨ret, _⟩, hres, rfl⟩ := map_eq_ok.mp h
    rcases ho.freeMem_ok hres with ⟨_, rfl⟩ | ⟨_, i, dev, k, lo, n, _, hd, rfl, hr, rfl⟩
    · exact ho
    · exact ho.detached hd hr

/-- Requests change neither the devices nor their sizes. -/
theorem step_sameGeometry (ho : Owns m) {op : Op} (h : step m op = .ok m') :
    SameGeometry m.pool m'.pool := by
  cases op with
  | create vmId coreSet =>
    obtain ⟨⟨ret, _⟩, hres, rfl⟩ := map_eq_ok.mp h
    rcases vmMngrInstanceCreate_ok hres with ⟨_, rfl⟩ | ⟨_, _, _, i, n, _, _, rfl⟩
    · exact .refl _
    · exact .refl _
  | destroy vmId =>
    obtain ⟨⟨ret, _⟩, hres, rfl⟩ := map_eq_ok.mp h
    rcases vmMngrInstanceDestroy_ok hres with ⟨_, rfl⟩ | ⟨_, i, _, _, rfl⟩
    · exact .refl _
    · exact vmReleasedPool_sameGeometry _ _ _ _
  | start vmId env =>
    obtain ⟨⟨ret, _⟩, hres, rfl⟩ := map_eq_ok.mp h
    have hpool := (vmMngrInstanceStart_memSame hres).pool
    exact hpool ▸ .refl _
  | stop vmId kernel =>
    obtain ⟨⟨ret, _⟩, hres, rfl⟩ := map_eq_ok.mp h
    have hpool := (vmMngrInstanceStop_memSame hres).pool
    exact hpool ▸ .refl _
  | allocMem nodeId vmId sizeMb =>
    obtain ⟨⟨ret, _⟩, hres, rfl⟩ := map_eq_ok.mp h
    rcases vmMngrInstanceAllocMem_ok ho.geometry.segmentSize hres with
      ⟨_, rfl⟩ | ⟨i, req, pool, k, lo, n, _, hal, _, _, rfl⟩
    · exact .refl _
    · exact allocation_sameGeometry hal
  | freeMem vmId memdevIdx =>
    obtain ⟨⟨ret, _⟩, hres, rfl⟩ := map_eq_ok.mp h
    rcases ho.freeMem_ok hres with ⟨_, rfl⟩ | ⟨_, i, dev, k, lo, n, _, _, _, _, rfl⟩
    · exact .refl _
    · exact setDev_sameGeometry rfl rfl rfl rfl

/-- A device is there before a step, or the step is the allocation that numbered it. -/
theorem step_liveDev (ho : Owns m) {op : Op} (h : step m op = .ok m') (hd : LiveDev m' i dev) :
    LiveDev m i dev ∨ InInt (dev.memdevIdx + 1) := by
  cases op with
  | create vmId coreSet =>
    obtain ⟨⟨ret, _⟩, hres, rfl⟩ := map_eq_ok.mp h
    rcases vmMngrInstanceCreate_ok hres with ⟨_, rfl⟩ | ⟨_, _, _, s, n, _, _, rfl⟩
    · exact .inl hd
    · have hslot : ({ m.setVm s (createdVm (m.vms s) vmId coreSet n) with
          count := m.count + 1 } : Manager).vms i = _ := setVm_vms m s i _
      rw [LiveDev, hslot] at hd
      split_ifs at hd with hi
      · exact absurd hd.2 List.not_mem_nil
      · exact .inl hd
  | destroy vmId =>
    obtain ⟨⟨ret, _⟩, hres, rfl⟩ := map_eq_ok.mp h
    rcases vmMngrInstanceDestroy_ok hres with ⟨_, rfl⟩ | ⟨_, s, _, _, rfl⟩
    · exact .inl hd
    · have hslot : ({ m.setVm s { m.vms s with coreSet := [], initialized := false } with
          pool := vmReleasedPool m.pool vmId 0 m.pool.numDevs
          count := m.count - 1 } : Manager).vms i = _ := setVm_vms m s i _
      rw [LiveDev, hslot] at hd
      split_ifs at hd with hi
      · exact absurd hd.1 (by simp)
      · exact .inl hd
  | start vmId env =>
    obtain ⟨⟨ret, _⟩, hres, rfl⟩ := map_eq_ok.mp h
    exact .inl ((vmMngrInstanceStart_memSame hres).liveDev.mp hd)
  | stop vmId kernel =>
    obtain ⟨⟨ret, _⟩, hres, rfl⟩ := map_eq_ok.mp h
    exact .inl ((vmMngrInstanceStop_memSame hres).liveDev.mp hd)
  | allocMem nodeId vmId sizeMb =>
    obtain ⟨⟨ret, _⟩, hres, rfl⟩ := map_eq_ok.mp h
    rcases vmMngrInstanceAllocMem_ok ho.geometry.segmentSize hres with
      ⟨_, rfl⟩ | ⟨s, req, pool, k, lo, n, _, _, hin, _, rfl⟩
    · exact .inl hd
    · have hslot : ({ m.setVm s (attachedVm (m.vms s) req) with pool := pool } : Manager).vms i =
          _ := setVm_vms m s i _
      rw [LiveDev, hslot] at hd
      split_ifs at hd with hi
      · subst hi
        rcases List.mem_append.mp hd.2 with hmem | hmem
        · exact .inl ⟨hd.1, hmem⟩
        · rw [List.mem_singleton.mp hmem]
          exact .inr hin
      · exact .inl hd
  | freeMem vmId memdevIdx =>
    obtain ⟨⟨ret, _⟩, hres, rfl⟩ := map_eq_ok.mp h
    rcases ho.freeMem_ok hres with ⟨_, rfl⟩ | ⟨_, s, d, k, lo, n, _, hlive, rfl, _, rfl⟩
    · exact .inl hd
    · by_cases hi : i = s
      · subst hi
        exact .inl ((ho.detached_live hlive dev).mp hd).1
      · have hslot : ({ m.setVm s (detachedVm (m.vms s) d.memdevIdx) with
            pool := m.pool.setDev k (released (m.pool.memDevs k) lo n) } : Manager).vms i =
            m.vms i := (setVm_vms m s i _).trans (if_neg hi)
        rw [LiveDev, hslot] at hd
        exact .inl hd

theorem owns_initial (hp : InitialPool pool) : Owns (initialManager pool) := by
  have hno : ∀ i, ¬ ((initialManager pool).vms i).initialized = true := fun i h => by cases h
  refine ⟨hp.toPoolGeometry, fun i _ hi => absurd hi (hno i), fun i hi => absurd hi (hno i),
    fun i _ hd => absurd hd.1 (hno i), fun i hi => absurd hi (hno i),
    fun i _ hd => absurd hd.1 (hno i), fun i hi => absurd hi (hno i), ?_⟩
  intro k hk p hb
  rw [show (initialManager pool).pool = pool from rfl] at hk hb
  rw [Busy, hp.free k hk p] at hb
  cases hb

/-- A device index of a reachable state fits an `int`. -/
theorem memdevIdx_inInt (hp : InitialPool pool) (h : Reaches step (initialManager pool) m)
    (hd : LiveDev m i dev) : InInt dev.memdevIdx := by
  have hall : Owns m ∧ ∀ i dev, LiveDev m i dev → InInt (dev.memdevIdx + 1) := by
    refine h.invariant (I := fun m => Owns m ∧ ∀ i dev, LiveDev m i dev → InInt (dev.memdevIdx + 1))
      ?_ ⟨owns_initial hp, fun i dev hd => absurd hd.1 (by simp [initialManager, emptySlot])⟩
    intro s op t hs hstep
    refine ⟨owns_step hs.1 hstep, fun i dev hd => ?_⟩
    rcases step_liveDev hs.1 hstep hd with hd | hin
    · exact hs.2 i dev hd
    · exact hin
  have hlow := (hall.1.fresh i dev hd).1
  have hhigh := hall.2 i dev hd
  simp only [InInt, intMin, intMax] at hhigh ⊢
  omega

theorem owns_reachable (hp : InitialPool pool) (h : Reaches step (initialManager pool) m) :
    Owns m :=
  h.invariant (fun _ _ _ ho hs => owns_step ho hs) (owns_initial hp)

/-- The segment arrays and the device lists tell the same story, and every listed device can
be given back. -/
structure ExactOwnership (m : Manager) : Prop where
  owned_iff : ∀ k < m.pool.numDevs, ∀ p v, Owned (m.pool.memDevs k) v p ↔
    ∃ i, (m.vms i).initialized = true ∧ (m.vms i).vmId = v ∧ coverCount m i k p = 1
  range : ∀ i dev, LiveDev m i dev → ∃ k lo n, DevRange m.pool dev.memoryReq k lo n
  disjoint : ∀ i j dev dev', LiveDev m i dev → LiveDev m j dev' →
    i ≠ j ∨ dev.memdevIdx ≠ dev'.memdevIdx → ∀ k p,
      ¬ (Covers m.pool.segmentSizeMb k p dev ∧ Covers m.pool.segmentSizeMb k p dev')
  distinct : ∀ i, (m.vms i).initialized = true →
    ((m.vms i).attachedDevs.map MemoryDev.memdevIdx).Nodup
  freeMem : ∀ i dev, LiveDev m i dev → ∃ m',
    vmMngrInstanceFreeMem m (m.vms i).vmId dev.memdevIdx = .ok (0, m') ∧
      (∀ k p, (m'.pool.memDevs k).segments p =
        if Covers m.pool.segmentSizeMb k p dev then freeSegment else (m.pool.memDevs k).segments p) ∧
      (∀ d, LiveDev m' i d ↔ LiveDev m i d ∧ d ≠ dev) ∧ ∀ j ≠ i, m'.vms j = m.vms j

theorem Owns.owned_iff (ho : Owns m) {k : ℕ} (hk : k < m.pool.numDevs) (p : ℕ) (v : ℤ) :
    Owned (m.pool.memDevs k) v p ↔
      ∃ i, (m.vms i).initialized = true ∧ (m.vms i).vmId = v ∧ coverCount m i k p = 1 := by
  constructor
  · intro hown
    obtain ⟨i, hi, hiown⟩ := ho.owner k hk p hown.1
    refine ⟨i, hi, hiown.2.symm.trans hown.2, ?_⟩
    rw [ho.cover i hi k hk p, if_pos hiown]
  · rintro ⟨i, hi, rfl, hcount⟩
    rw [ho.cover i hi k hk p] at hcount
    by_contra hno
    rw [if_neg hno] at hcount
    cases hcount

theorem Owns.frees_exactly (ho : Owns m) (hd : LiveDev m i dev) : ∃ m',
    vmMngrInstanceFreeMem m (m.vms i).vmId dev.memdevIdx = .ok (0, m') ∧
      (∀ k p, (m'.pool.memDevs k).segments p =
        if Covers m.pool.segmentSizeMb k p dev then freeSegment else (m.pool.memDevs k).segments p) ∧
      (∀ d, LiveDev m' i d ↔ LiveDev m i d ∧ d ≠ dev) ∧ ∀ j ≠ i, m'.vms j = m.vms j := by
  obtain ⟨k, lo, n, hr⟩ := ho.range i dev hd
  refine ⟨_, ho.freeMem hd hr, ?_, ho.detached_live hd, fun j hj => ?_⟩
  · intro q p
    simp only [hr.covers_iff ho.geometry, setDev_memDevs]
    by_cases hq : q = k
    · subst hq
      rw [if_pos rfl, released, setRange_segments]
      simp only [true_and]
    · rw [if_neg hq, if_neg fun h => hq h.1]
  · exact (setVm_vms m i j _).trans (if_neg hj)

/-- In every state a process can reach after `memory_pool_init`, ownership is exact. -/
theorem ownership_exact (hp : InitialPool pool) (h : Reaches step (initialManager pool) m) :
    ExactOwnership m := by
  have ho := owns_reachable hp h
  exact ⟨fun k hk p v => ho.owned_iff hk p v, ho.range,
    fun i j dev dev' hd hd' hne => ho.disjoint hd hd' hne, ho.distinct,
    fun i dev hd => ho.frees_exactly hd⟩

/-- One device of two segments of 4 MB. -/
def smallPool : Pool where
  memDevs := fun _ =>
    ⟨"/dev/dax0.0".toList, 0, 0, 0, 8, 2, 0, fun _ => freeSegment⟩
  numDevs := 1
  segmentSizeMb := 4

theorem smallPool_initial : InitialPool smallPool := by
  have hpath : PathText "/dev/dax0.0".toList := ⟨by decide, by decide, by simp [isSpace]⟩
  have hsize : (0 : ℤ) < 8 ∧ InInt 8 := by decide
  have hk : ∀ k < smallPool.numDevs, (0 : ℤ) = k := fun k hk => by
    rw [Nat.lt_one_iff.mp hk, Nat.cast_zero]
  have hseg : (0 : ℤ) < 4 := by decide
  exact ⟨⟨by decide, fun _ => hseg, fun _ _ => hpath, hk, fun _ _ => hsize, fun _ _ => rfl⟩,
    fun _ _ => rfl, fun _ _ _ => rfl⟩

theorem ownership_exact_smallPool : ∃ m,
    run step (initialManager smallPool) [.create 3 "0".toList, .allocMem 0 3 4] = .ok m ∧
      ExactOwnership m := by
  obtain ⟨m, hm⟩ := exists_of_isOk (x := run step (initialManager smallPool)
    [.create 3 "0".toList, .allocMem 0 3 4]) (by rfl)
  exact ⟨m, hm, ownership_exact smallPool_initial ⟨_, hm⟩⟩

end Ramryder.Ownership
