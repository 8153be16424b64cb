import Ramryder.MemPoolTable
import Ramryder.PoolCalls
import Ramryder.TierChoice

/-! What the memory plan of `create-vm` asks for: a plan made of the pool's own table names devices
of the pool and stays within what is free on each of them. -/
namespace Ramryder.CreatePlanSpec
open CInt CMachine Cli CreatePlan CText GuestAgents MemoryPool MemoryPoolSpec MemPoolTable Ownership PoolCalls
  PoolConfig PyText ResourceManager TierChoice VmManager

variable {nodes : List MemPoolNode}

/-! ### The plan -/

/-- The sizes asked of tier 1. -/
def cxlShares (cfg : VmConfig) : List ℤ :=
  if 0 < cfg.cxlChannels then splitMemory cfg.cxlMemoryMb cfg.cxlChannels else []

variable {cfg : VmConfig} {plan : MemoryPlan}

/-- The nodes of one tier. -/
def tierNodes (nodes : List MemPoolNode) (tier : ℤ) : List MemPoolNode :=
  nodes.filter fun n => n.tierId = tier

theorem planOfNodes_ok (h : planOfNodes cfg nodes = .ok plan) : ∃ tier0 tier1,
    chooseAllocationsForTier (tierNodes nodes 0) (splitMemory cfg.memoryMb cfg.channels)
      "local memory (DIMM)" = .ok tier0 ∧
    chooseAllocationsForTier (tierNodes nodes 1) (cxlShares cfg) "CXL memory" = .ok tier1 ∧
    plan.allocations = tier0 ++ tier1 := by
  obtain ⟨tier0, h0, h⟩ := bind_eq_ok.mp h
  unfold cxlShares
  dsimp only at h
  split_ifs at h ⊢ with hcxl
  · obtain ⟨tier1, h1, h⟩ := bind_eq_ok.mp h
    cases h
    exact ⟨tier0, tier1, h0, h1, rfl⟩
  · cases h
    exact ⟨tier0, [], h0, rfl, rfl⟩

theorem planOfNodes_rooms {args : CreateArgs} {job : CreateJob} (hjob : JobOf args job)
    (h : planOfNodes job.cfg nodes = .ok plan) : ∀ e ∈ plan.allocations, 0 < e.2 ∧
      ∃ node ∈ nodes, node.nodeId = e.1 ∧ e.2 ≤ node.freeMb := by
  obtain ⟨tier0, tier1, h0, h1, hplan⟩ := planOfNodes_ok h
  intro e he
  rw [hplan, List.mem_append] at he
  rcases he with he | he
  · obtain ⟨hsize, node, hnode, hroom⟩ := (chooseAllocationsForTier_rooms h0).2 e he
    exact ⟨splitMemory_pos hjob.channels.1 hjob.channels.2 hsize, node,
      List.mem_of_mem_filter hnode, hroom⟩
  · obtain ⟨hsize, node, hnode, hroom⟩ := (chooseAllocationsForTier_rooms h1).2 e he
    refine ⟨?_, node, List.mem_of_mem_filter hnode, hroom⟩
    rw [cxlShares] at hsize
    split_ifs at hsize with hcxl
    · exact splitMemory_pos hcxl (hjob.cxlChannels hcxl) hsize
    · cases hsize

theorem planOfNodes_allNodeIds (h : planOfNodes cfg nodes = .ok plan) :
    plan.allNodeIds = sortedSet (nodes.map MemPoolNode.nodeId) := by
  obtain ⟨tier0, _, h⟩ := bind_eq_ok.mp h
  dsimp only at h
  split_ifs at h
  · obtain ⟨tier1, _, h⟩ := bind_eq_ok.mp h
    cases h
    rfl
  · cases h
    rfl

/-- A plan shares out all that is asked for, on different nodes of those that were listed. -/
structure SharedOut (cfg : VmConfig) (plan : MemoryPlan) : Prop where
  total : (plan.allocations.map Prod.snd).sum = cfg.memoryMb + (cxlShares cfg).sum
  distinct : (plan.allocations.map Prod.fst).Nodup
  nonempty : plan.allocations ≠ []
  listed : ∀ e ∈ plan.allocations, e.1 ∈ plan.allNodeIds

theorem planOfNodes_sharedOut (hchannels : 0 < cfg.channels)
    (hdistinct : (nodes.map MemPoolNode.nodeId).Nodup) (h : planOfNodes cfg nodes = .ok plan) :
    SharedOut cfg plan := by
  have hids := planOfNodes_allNodeIds h
  obtain ⟨tier0, tier1, h0, h1, hplan⟩ := planOfNodes_ok h
  obtain ⟨hnodup0, hrooms0⟩ := chooseAllocationsForTier_rooms h0
  obtain ⟨hnodup1, hrooms1⟩ := chooseAllocationsForTier_rooms h1
  have hsizes0 := (chooseAllocationsForTier_sorted h0).2
  have hsizes1 := (chooseAllocationsForTier_sorted h1).2
  have hnode : ∀ {tier : ℤ} {e : ℤ × ℤ}, (∃ node ∈ tierNodes nodes tier, node.nodeId = e.1 ∧
      e.2 ≤ node.freeMb) → ∃ node ∈ nodes, node.nodeId = e.1 ∧ node.tierId = tier := by
    rintro tier e ⟨node, hmem, hid, _⟩
    have hfilter := List.mem_filter.mp hmem
    exact ⟨node, hfilter.1, hid, by simpa using hfilter.2⟩
  refine ⟨?_, ?_, ?_, ?_⟩
  · rw [hplan, List.map_append, List.sum_append, hsizes0.sum_eq, hsizes1.sum_eq,
      splitMemory_sum hchannels]
  · rw [hplan, List.map_append, List.nodup_append]
    refine ⟨hnodup0, hnodup1, fun n hn n' hn' hsame => ?_⟩
    obtain ⟨e, he, rfl⟩ := List.mem_map.mp hn
    obtain ⟨e', he', rfl⟩ := List.mem_map.mp hn'
    obtain ⟨node, hmem, hid, htier⟩ := hnode (hrooms0 e he).2
    obtain ⟨node', hmem', hid', htier'⟩ := hnode (hrooms1 e' he').2
    -- one node of both tiers
    have hone : node = node' := List.inj_on_of_nodup_map hdistinct hmem hmem'
      (hid.trans (hsame.trans hid'.symm))
    rw [hone, htier'] at htier
    cases htier
  · intro hnil
    have hlen := hsizes0.length_eq
    rw [hplan, List.append_eq_nil_iff] at hnil
    rw [hnil.1, splitMemory_length, List.map_nil, List.length_nil] at hlen
    omega
  · intro e he
    rw [hids, mem_sortedSet]
    rw [hplan, List.mem_append] at he
    rcases he with he | he
    · obtain ⟨node, hmem, hid, _⟩ := hnode (hrooms0 e he).2
      exact List.mem_map.mpr ⟨node, hmem, hid⟩
    · obtain ⟨node, hmem, hid, _⟩ := hnode (hrooms1 e he).2
      exact List.mem_map.mpr ⟨node, hmem, hid⟩

/-! ### The plan of the pool's own table -/

variable {pool : Pool} {m : Manager} {response : Text}

/-- The nodes the CLI reads from the table, where no path has a bar. -/
def listedNodes (pool : Pool) : List MemPoolNode :=
  keptNodes pool (List.range pool.numDevs) (bufferSize - 1 - usageHeader.length)

theorem listedNodes_sublist (pool : Pool) : (listedNodes pool).Sublist (poolNodes pool) :=
  keptNodes_sublist pool _ _

theorem mem_listedNodes {node : MemPoolNode} (h : node ∈ listedNodes pool) :
    ∃ k < pool.numDevs, node = deviceNode pool k := by
  obtain ⟨k, hk, rfl⟩ := List.mem_map.mp ((listedNodes_sublist pool).subset h)
  exact ⟨k, List.mem_range.mp hk, rfl⟩

/-- No path of a device has the character that separates the columns. -/
def BarFree (pool : Pool) : Prop := ∀ k < pool.numDevs, '|' ∉ (pool.memDevs k).devPath

theorem buildMemoryPlan_listed (hg : PoolGeometry m.pool) (hbar : BarFree m.pool)
    (hresponse : rpcHandleGetMemPool m = .ok response)
    (h : buildMemoryPlan cfg (clientText response) = .ok plan) :
    planOfNodes cfg (listedNodes m.pool) = .ok plan := by
  have hdevs : 0 < m.pool.numDevs := by
    by_contra hno
    rw [rpcHandleGetMemPool, memoryPoolGetUsage, if_pos (by omega)] at hresponse
    rw [← Except.ok.inj hresponse, buildMemoryPlan, noDevices_unread] at h
    cases h
  obtain ⟨other, hother, hnodes⟩ := readNodes_usage hdevs hbar
  obtain rfl : other = response := Except.ok.inj (hother.symm.trans hresponse)
  have hsorted : (listedNodes m.pool).insertionSort (fun a b => a.nodeId ≤ b.nodeId) =
      listedNodes m.pool :=
    ((poolNodes_sorted hg).sublist (listedNodes_sublist m.pool)).insertionSort_eq
  have hread : (splitlines (clientText other)).filterMap poolNode = listedNodes m.pool := hnodes
  rw [buildMemoryPlan, getMemPoolNodes, hread, hsorted] at h
  split_ifs at h
  exact h

theorem listedNodes_nodup (hg : PoolGeometry pool) :
    ((listedNodes pool).map MemPoolNode.nodeId).Nodup := by
  refine ((listedNodes_sublist pool).map MemPoolNode.nodeId).nodup ?_
  rw [poolNodes, List.map_map]
  refine List.Nodup.map_on (fun i hi j hj hij => ?_) List.nodup_range
  have hnode : ∀ k ∈ List.range pool.numDevs, (deviceNode pool k).nodeId = k :=
    fun k hk => hg.node k (List.mem_range.mp hk)
  have hij : (deviceNode pool i).nodeId = (deviceNode pool j).nodeId := hij
  rw [hnode i hi, hnode j hj] at hij
  exact_mod_cast hij

/-- What the table says is free is at most what the device has. -/
theorem freeMb_le (hg : PoolGeometry pool) {k : ℕ} (hk : k < pool.numDevs)
    (ha : Accounted (pool.memDevs k)) :
    (deviceNode pool k).freeMb ≤ (pool.memDevs k).totalSizeMb := by
  have hseg := hg.segmentSize (Nat.zero_lt_of_lt hk)
  have htotal := hg.total k hk
  have hused : 0 ≤ (pool.memDevs k).usedSegments := by
    rw [ha.used]
    exact Int.natCast_nonneg _
  calc ((pool.memDevs k).totalSegments - (pool.memDevs k).usedSegments) * pool.segmentSizeMb
      ≤ (pool.memDevs k).totalSegments * pool.segmentSizeMb :=
        mul_le_mul_of_nonneg_right (by omega) hseg.le
    _ ≤ (pool.memDevs k).totalSizeMb := by
        rw [htotal]
        exact Int.ediv_mul_le _ hseg.ne'

/-- Every entry of a plan of the pool's own table names a device and a size that fit an `int`. -/
theorem buildMemoryPlan_fits {args : CreateArgs} {job : CreateJob} (hjob : JobOf args job)
    (hg : PoolGeometry m.pool) (ha : ∀ k < m.pool.numDevs, Accounted (m.pool.memDevs k))
    (hbar : BarFree m.pool) (hresponse : rpcHandleGetMemPool m = .ok response)
    (h : buildMemoryPlan job.cfg (clientText response) = .ok plan) :
    ∀ e ∈ plan.allocations, InInt e.1 ∧ InInt e.2 := by
  intro e he
  obtain ⟨hpos, node, hnode, hid, hroom⟩ :=
    planOfNodes_rooms hjob (buildMemoryPlan_listed hg hbar hresponse h) e he
  obtain ⟨k, hk, rfl⟩ := mem_listedNodes hnode
  have hnum := hg.numDevs
  have hsize := (hg.size k hk).2
  have hfree := freeMb_le hg hk (ha k hk)
  have hnodeId : e.1 = k := hid.symm.trans (hg.node k hk)
  simp only [InInt, intMin, intMax, maxDevices] at *
  omega

end Ramryder.CreatePlanSpec
