import Ramryder.BoundedPrint
import Ramryder.CreateConsistency

/-! Whether the allocator grants what the plan of `create-vm` asks for. The plan looks at how much
is free on a node; the allocator hands out whole segments, and only in a row. -/
namespace Ramryder.PlanGrants
open BoundedPrint CInt CMachine Cli ClientRequests CreateCleanup CreateConsistency CreatePlan CreatePlanSpec
  CreateRequests CreateSteps CText FreeRuns GuestAgents Lifecycle MemoryPool MemoryPoolSpec Ownership PoolCalls PoolConfig PoolImage PyText
  ResourceManager ResourceManagerSpec Runs Shutdown TierChoice VmManager VmManagerSpec

variable {pool pool' : Pool} {vmid : ℤ} {entry : ℤ × ℤ} {entries : List (ℤ × ℤ)} {k : ℕ}

/-- The requests of the entries, in their order, on a server nobody else uses: each is granted by
`memory_pool_allocate_segments`, and answered. -/
def AllGranted (env : ℕ → ServerEnv) (vmid : ℤ) : Server → List (ℤ × ℤ) → Prop
  | _, [] => True
  | s, entry :: rest => ∃ req pool response s',
      memoryPoolAllocateSegments s.mngr.pool entry.1 vmid entry.2 = .ok (some req, pool) ∧
        rpcServe (env rest.length) s (ClientCall.allocMem entry.1 vmid entry.2).request =
          .ok (response, s') ∧
        s'.mngr.pool = pool ∧ AllGranted env vmid s' rest

/-- The segments of a device that a search may look at. -/
def searched (dev : MemoryDaxDev) : ℕ := min dev.totalSegments.toNat maxSegments

/-- The lengths of the runs asked of a device, in their order. -/
def segmentsAsked (pool : Pool) (k : ℕ) (entries : List (ℤ × ℤ)) : List ℕ :=
  (entries.filter fun entry => entry.1 = (k : ℤ)).map fun entry =>
    (entry.2 / pool.segmentSizeMb).toNat

/-- A device of the pool, and a number of its segments. -/
def WholeSegments (pool : Pool) (entry : ℤ × ℤ) : Prop :=
  ∃ k < pool.numDevs, entry.1 = (k : ℤ) ∧ ∃ n : ℕ, 0 < n ∧ entry.2 = n * pool.segmentSizeMb

/-- Every size is a number of segments, and the runs asked of each device fit into it one after
another. -/
structure Placeable (pool : Pool) (entries : List (ℤ × ℤ)) : Prop where
  whole : ∀ entry ∈ entries, WholeSegments pool entry
  fits : ∀ k < pool.numDevs, Fits (Busy (pool.memDevs k)) (searched (pool.memDevs k))
    (segmentsAsked pool k entries)

/-! ### One entry -/

theorem segmentsAsked_self {n : ℕ} (hseg : 0 < pool.segmentSizeMb) (hnode : entry.1 = (k : ℤ))
    (hsize : entry.2 = n * pool.segmentSizeMb) :
    segmentsAsked pool k (entry :: entries) = n :: segmentsAsked pool k entries := by
  rw [segmentsAsked, List.filter_cons_of_pos (by simpa using hnode), List.map_cons, hsize,
    Int.mul_ediv_cancel _ hseg.ne', Int.toNat_natCast]
  rfl

theorem segmentsAsked_other (hnode : entry.1 ≠ (k : ℤ)) :
    segmentsAsked pool k (entry :: entries) = segmentsAsked pool k entries := by
  rw [segmentsAsked, List.filter_cons_of_neg (by simpa using hnode)]
  rfl

theorem firstFit_searched {dev : MemoryDaxDev} {n lo : ℕ} :
    FirstFit (Busy dev) n (searched dev) lo ↔
      FirstFit (Busy dev) n dev.totalSegments.toNat lo ∧ lo + n ≤ maxSegments := by
  constructor
  · intro h
    have hfits := le_min_iff.mp h.fits
    exact ⟨⟨hfits.1, h.free, h.least⟩, hfits.2⟩
  · rintro ⟨h, hmax⟩
    exact ⟨le_min h.fits hmax, h.free, h.least⟩

theorem busy_take {dev : MemoryDaxDev} {lo n p : ℕ} :
    Busy (allocated dev vmid lo n) p ↔ take (Busy dev) lo n p :=
  busy_allocated.trans or_comm

/-- The sizes a device and its segments have fit an `int`. -/
theorem segments_inInt (hg : PoolGeometry pool) (hk : k < pool.numDevs) {n : ℕ}
    (hn : n ≤ (pool.memDevs k).totalSegments.toNat) : InInt (n * pool.segmentSizeMb) := by
  have hseg := hg.segmentSize (Nat.zero_lt_of_lt hk)
  obtain ⟨hpos, hsize⟩ := hg.size k hk
  have htotal := hg.total k hk
  have hlow : 0 ≤ (pool.memDevs k).totalSegments := by
    rw [htotal]
    exact Int.ediv_nonneg hpos.le hseg.le
  have hle : (n : ℤ) * pool.segmentSizeMb ≤ (pool.memDevs k).totalSizeMb := calc
    (n : ℤ) * pool.segmentSizeMb ≤ (pool.memDevs k).totalSegments * pool.segmentSizeMb :=
      mul_le_mul_of_nonneg_right (by omega) hseg.le
    _ ≤ (pool.memDevs k).totalSizeMb := by
      rw [htotal]
      exact Int.ediv_mul_le _ hseg.ne'
  have hnonneg : 0 ≤ (n : ℤ) * pool.segmentSizeMb := by positivity
  simp only [InInt, intMin, intMax] at hsize ⊢
  omega

/-- What can be placed is handed out. -/
theorem Placeable.allocation (hg : PoolGeometry pool) (h : Placeable pool (entry :: entries)) :
    ∃ req pool' k lo n, memoryPoolAllocateSegments pool entry.1 vmid entry.2 = .ok (some req, pool') ∧
      Allocation pool entry.1 vmid entry.2 req pool' k lo n := by
  obtain ⟨k, hk, hnode, n, hn, hsize⟩ := h.whole entry List.mem_cons_self
  have hseg := hg.segmentSize (Nat.zero_lt_of_lt hk)
  have hfits := h.fits k hk
  rw [segmentsAsked_self hseg hnode hsize] at hfits
  obtain ⟨lo, hfirst, _⟩ := hfits
  obtain ⟨hfit, hmax⟩ := firstFit_searched.mp hfirst
  have hend := hfit.fits
  have hfind : findMemDev pool entry.1 = some k :=
    findMemDev_of_node hg hk ((hg.node k hk).trans hnode.symm)
  rw [hsize]
  exact ⟨_, _, k, lo, n,
    memoryPoolAllocateSegments_firstFit hseg hfind hn hfit hmax (segments_inInt hg hk (by omega))
      (segments_inInt hg hk (by omega)), hfind, hn, rfl, hfit, hmax, rfl, rfl⟩

/-- What is left can be placed just when all could be placed before. -/
theorem placeable_cons (hg : PoolGeometry pool) {req : MemoryRequest} {lo n : ℕ}
    (hal : Allocation pool entry.1 vmid entry.2 req pool' k lo n) :
    Placeable pool (entry :: entries) ↔ Placeable pool' entries := by
  obtain ⟨hk, hnode⟩ := findMemDev_eq_some hal.found
  rw [hg.node k hk] at hnode
  have hseg := hg.segmentSize (Nat.zero_lt_of_lt hk)
  have hself := @segmentsAsked_self pool entry entries k n hseg hnode.symm hal.size
  have hfirst : FirstFit (Busy (pool.memDevs k)) n (searched (pool.memDevs k)) lo :=
    firstFit_searched.mpr ⟨hal.fit, hal.inArray⟩
  have hwhole : WholeSegments pool entry := ⟨k, hk, hnode.symm, n, hal.positive, hal.size⟩
  have hpool : pool' = pool.setDev k (allocated (pool.memDevs k) vmid lo n) := hal.after
  have hdev : ∀ j, (Fits (Busy (pool.memDevs j)) (searched (pool.memDevs j))
      (segmentsAsked pool j (entry :: entries)) ↔
        Fits (Busy (pool'.memDevs j)) (searched (pool'.memDevs j)) (segmentsAsked pool' j entries)) := by
    intro j
    have hasked : segmentsAsked pool' j entries = segmentsAsked pool j entries := by
      rw [hpool]
      rfl
    rw [hasked, hpool, setDev_memDevs]
    by_cases hj : j = k
    · subst hj
      rw [if_pos rfl, hself, Fits.congr (fun p => busy_take)]
      constructor
      · rintro ⟨lo', hfirst', hrest⟩
        rwa [hfirst'.unique hfirst] at hrest
      · intro hrest
        exact ⟨lo, hfirst, hrest⟩
    · have hne : entry.1 ≠ (j : ℤ) := by
        rw [← hnode]
        exact_mod_cast fun h : k = j => hj h.symm
      rw [if_neg hj, segmentsAsked_other hne]
  have hsame : ∀ other, WholeSegments pool' other ↔ WholeSegments pool other := by
    intro other
    rw [hpool]
    exact Iff.rfl
  have hnum : pool'.numDevs = pool.numDevs := by rw [hpool]; rfl
  constructor
  · rintro ⟨hall, hfits⟩
    refine ⟨fun other hother => (hsame other).mpr (hall other (List.mem_cons_of_mem _ hother)), ?_⟩
    intro j hj
    exact (hdev j).mp (hfits j (hnum ▸ hj))
  · rintro ⟨hall, hfits⟩
    refine ⟨fun other hother => ?_, fun j hj => (hdev j).mpr (hfits j (hnum ▸ hj))⟩
    rcases List.mem_cons.mp hother with rfl | hother
    · exact hwhole
    · exact (hsame other).mp (hall other hother)

/-! ### One request -/

variable {s s₁ s' : Server} {i : Fin maxNumVm} {m₀ : Manager} {done : List (ℤ × ℤ)} {outs : List Text}

/-- What the pool grants to the new VM is answered, and the VM has it. -/
theorem allocated_granted (hvid : NonNegInt vmid) (h : Allocated vmid i m₀ s.mngr done outs)
    (hdone : (done.length : ℤ) < intMax) {req : MemoryRequest} {lo n : ℕ}
    (halloc : memoryPoolAllocateSegments s.mngr.pool entry.1 vmid entry.2 = .ok (some req, pool))
    (hal : Allocation s.mngr.pool entry.1 vmid entry.2 req pool k lo n) (env : ServerEnv) :
    ∃ response s' outs', rpcServe env s (ClientCall.allocMem entry.1 vmid entry.2).request =
        .ok (response, s') ∧
      s'.mngr.pool = pool ∧ Allocated vmid i m₀ s'.mngr (done ++ [entry]) outs' := by
  have hg := h.added.kept.owns.geometry
  obtain ⟨hk, hnode⟩ := findMemDev_eq_some hal.found
  rw [hg.node k hk] at hnode
  have hseg := hg.segmentSize (Nat.zero_lt_of_lt hk)
  have hnum := hg.numDevs
  have hend := hal.fit.fits
  have hnid : NonNegInt entry.1 := by
    simp only [NonNegInt, intMax, maxDevices] at hnum ⊢
    omega
  have hsize : InInt entry.2 := by
    rw [hal.size]
    exact segments_inInt hg hk (by omega)
  have hpos : 0 < entry.2 := by
    have hn := hal.positive
    rw [hal.size]
    positivity
  have hin : InInt ((s.mngr.vms i).memdevCounter + 1) := by
    rw [h.counter]
    simp only [InInt, intMin, intMax] at hdone ⊢
    omega
  have hmngr := vmMngrInstanceAllocMem_granted h.added.getInstance halloc hin
  obtain ⟨a, hserve⟩ := rpcServe_allocMem hnid hvid hsize hpos hmngr env
  exact ⟨_, _, _, hserve, rfl, h.allocMem hmngr⟩

/-! ### All of them -/

/-- The requests for any list of entries are all granted to the new VM just when its runs can be placed. -/
theorem allGranted_iff_placeable (env : ℕ → ServerEnv) (hvid : NonNegInt vmid)
    (h : Allocated vmid i m₀ s.mngr done outs)
    (hlen : ((done.length + entries.length : ℕ) : ℤ) ≤ intMax) :
    AllGranted env vmid s entries ↔ Placeable s.mngr.pool entries := by
  induction entries generalizing s done outs with
  | nil => exact iff_of_true trivial ⟨by simp, fun k hk => trivial⟩
  | cons entry entries ih =>
    have hg := h.added.kept.owns.geometry
    have hdone : (done.length : ℤ) < intMax := by
      rw [List.length_cons] at hlen
      omega
    have hrest : (((done ++ [entry]).length + entries.length : ℕ) : ℤ) ≤ intMax := by
      rw [List.length_append, List.length_singleton]
      rw [List.length_cons] at hlen
      omega
    constructor
    · rintro ⟨req, pool, response, s', halloc, hserve, hpool, hall⟩
      rcases memoryPoolAllocateSegments_ok hg.segmentSize halloc with ⟨hnone, _⟩ |
        ⟨req', k, lo, n, hreq, hal⟩
      · cases hnone
      obtain rfl := Option.some.inj hreq
      obtain ⟨response', t, outs', hserve', _, hnext⟩ := allocated_granted hvid h hdone halloc hal (env entries.length)
      obtain ⟨rfl, rfl⟩ := Prod.mk.inj (Except.ok.inj (hserve'.symm.trans hserve))
      rw [placeable_cons hg hal, ← hpool]
      exact (ih hnext hrest).mp hall
    · intro hplace
      obtain ⟨req, pool, k, lo, n, halloc, hal⟩ := @Placeable.allocation _ vmid _ _ hg hplace
      obtain ⟨response, s', outs', hserve, hpool, hnext⟩ :=
        allocated_granted hvid h hdone halloc hal (env entries.length)
      refine ⟨req, pool, response, s', halloc, hserve, hpool, (ih hnext hrest).mpr ?_⟩
      rw [hpool]
      exact (placeable_cons hg hal).mp hplace

/-! ### The plan of a run -/

variable {w : RunWorld} {args : CreateArgs} {job : CreateJob} {plan : MemoryPlan} {stack response : Text}

theorem chooseAllocationsForTier_length {nodes : List MemPoolNode} {sizes : List ℤ} {memoryName : String}
    {selected : List (ℤ × ℤ)} (h : chooseAllocationsForTier nodes sizes memoryName = .ok selected) :
    selected.length ≤ nodes.length := by
  obtain ⟨hnodup, hrooms⟩ := chooseAllocationsForTier_rooms h
  have hsub : selected.map Prod.fst ⊆ nodes.map MemPoolNode.nodeId := by
    intro nid hnid
    obtain ⟨e, he, rfl⟩ := List.mem_map.mp hnid
    obtain ⟨_, node, hnode, hid, _⟩ := hrooms e he
    exact List.mem_map.mpr ⟨node, hnode, hid⟩
  have hlen := (List.subperm_of_subset hnodup hsub).length_le
  rwa [List.length_map, List.length_map] at hlen

/-- A plan has at most two entries for each byte of the answer it is made of. -/
theorem buildMemoryPlan_length {cfg : VmConfig} {output : Text}
    (h : buildMemoryPlan cfg output = .ok plan) : plan.allocations.length ≤ 2 * output.length := by
  unfold buildMemoryPlan at h
  split at h
  · cases h
  rename_i nodes hnodes
  have hread : nodes.length ≤ output.length := by
    unfold getMemPoolNodes at hnodes
    dsimp only at hnodes
    split_ifs at hnodes
    cases hnodes
    rw [List.length_insertionSort]
    exact (List.length_filterMap_le _ _).trans (splitlines_length output)
  obtain ⟨tier0, tier1, h0, h1, hplan⟩ := planOfNodes_ok h
  have hlen0 := (chooseAllocationsForTier_length h0).trans (List.length_filter_le _ _)
  have hlen1 := (chooseAllocationsForTier_length h1).trans (List.length_filter_le _ _)
  rw [hplan, List.length_append]
  omega

theorem rpcHandleGetMemPool_length {m : Manager} (h : rpcHandleGetMemPool m = .ok response) :
    response.length < bufferSize := by
  rw [rpcHandleGetMemPool, memoryPoolGetUsage_cut (by decide)] at h
  cases h
  rw [List.length_take, bufferSize]
  omega

/-- In every run, each `alloc-mem` of the plan is granted just when every size of the plan is a number of
segments and its node has so many free in a row. -/
theorem allGranted_iff (hp : InitialPool pool) (hreach : Reaches serverStep (initialServer pool stack) s)
    (hcreated : untilCreated w args s = .ok (.ok (job, plan, vmid), s₁)) (env : ℕ → ServerEnv) :
    AllGranted env vmid s₁ plan.allocations ↔ Placeable s.mngr.pool plan.allocations := by
  have hm := kept_reachable hp (server_refines hp hreach)
  obtain ⟨_, ⟨response, hresponse, hplan⟩, hvid, coreset, hcreate⟩ := untilCreated_create hm hcreated
  obtain ⟨i, hadded, hnone, hzero⟩ := added_created hm hcreate
  have hpool : s₁.mngr.pool = s.mngr.pool := by
    rcases vmMngrInstanceCreate_ok hcreate with ⟨hneg, _⟩ | ⟨_, _, _, _, _, _, _, hs₁⟩
    · exact absurd hneg (by decide)
    · rw [hs₁]
      rfl
  have hstart : Allocated vmid i s.mngr s₁.mngr [] [] :=
    ⟨hadded, hzero, by rw [hnone]; rfl, by rw [hnone]; rfl, by rw [hnone]; simp, by rw [hnone]; rfl⟩
  have hbound : (([] : List (ℤ × ℤ)).length + plan.allocations.length : ℕ) ≤ intMax := by
    have hlen := buildMemoryPlan_length hplan
    have hread : (clientText response).length ≤ response.length :=
      (strip_sublist _).length_le.trans (decode_length _)
    have hmax := rpcHandleGetMemPool_length hresponse
    rw [bufferSize] at hmax
    rw [List.length_nil, intMax]
    omega
  rw [allGranted_iff_placeable env hvid hstart hbound, hpool]

/-! ### Two runs -/

theorem allGranted_iff_oneSegment : ∃ job plan vmid s₁,
    untilCreated busyWorld oneSegmentArgs (initialServer smallPool []) =
        .ok (.ok (job, plan, vmid), s₁) ∧
      (AllGranted (fun _ => silentEnv) vmid s₁ plan.allocations ↔
        Placeable smallPool plan.allocations) := by
  obtain ⟨job, plan, vmid, s₁, huntil, _⟩ := @exists_created oneSegmentArgs _ (fun plan _ _ => plan.allocations)
    [(0, 4)] (by decide +kernel)
  exact ⟨job, plan, vmid, s₁, huntil, allGranted_iff smallPool_initial (.refl _) huntil fun _ => silentEnv⟩

def oddArgs : CreateArgs := ⟨"0".toList, "3M".toList, 1, none, none, "img".toList, 0, false⟩

/-- Of a pool with segments of 4 MB, all free, 3 MB are planned and not granted. -/
theorem allGranted_fails_odd : ∃ job plan vmid s₁,
    untilCreated busyWorld oddArgs (initialServer smallPool []) = .ok (.ok (job, plan, vmid), s₁) ∧
      ¬ AllGranted (fun _ => silentEnv) vmid s₁ plan.allocations := by
  obtain ⟨job, plan, vmid, s₁, huntil, hview⟩ := @exists_created oddArgs _
    (fun plan vmid s₁ => (plan.allocations,
      (memoryPoolAllocateSegments s₁.mngr.pool 0 vmid 3).toOption.map fun r => r.1.isSome))
    ([(0, 3)], some false) (by decide +kernel)
  obtain ⟨hplan, hrefused⟩ := Prod.mk.inj hview
  refine ⟨job, plan, vmid, s₁, huntil, fun hall => ?_⟩
  rw [hplan] at hall
  obtain ⟨req, pool, _, _, halloc, _⟩ := hall
  rw [halloc] at hrefused
  cases hrefused

end Ramryder.PlanGrants
