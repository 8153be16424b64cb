import Ramryder.CommandParts
import Ramryder.CreateCleanup
import Ramryder.CreatePlanSpec
import Ramryder.DeviceIdentity

/-! When the parts of the command line of `create-vm` agree: the sizes of the memory, the devices
and the nodes they are on, and the CPUs. -/
namespace Ramryder.CreateConsistency
open AttachRollback CInt CMachine Cli ClientRequests CommandLine CommandParts CreateCleanup CreatePlan CreatePlanSpec
  CreateRequests CreateSteps CScan CText Deliveries DeviceIdentity GuestAgents HotplugRange Lifecycle MemoryPool
  MemoryPoolSpec MemPoolTable Ownership PoolCalls PoolConfig PoolImage PyText QemuBackend QemuCommand
  ResourceManager ResourceManagerSpec Runs SegmentBounds Shutdown TierChoice VmManager VmManagerSpec

variable {m m₀ m' : Manager} {v : ℤ} {i : Fin maxNumVm} {pool : Pool}

def objectArgs (words : List Text) : List Text := valuesOf "-object" (qemuArgs words)

def numaArgs (words : List Text) : List Text := valuesOf "-numa" (qemuArgs words)

/-- What must agree in a command for QEMU to start. -/
structure ConsistentCommand (vm : VmInstance) (numDevs : ℕ) (smp : ℤ) (words : List Text) : Prop where
  sizes : ∃ sizes : List ℤ,
    (objectArgs words).map (fun o => (optionValue o "size").bind readMb) = sizes.map some ∧
      (valuesOf "-m" (qemuArgs words)).map readMb = [some sizes.sum]
  memdevs : ∀ o ∈ objectArgs words, ∃ dev ∈ vm.attachedDevs, optionValue o "id" = some (memName dev) ∧
    ∃ n, (numaArgs words).filter (fun n => decide (optionValue n "memdev" = some (memName dev))) = [n] ∧
      optionValue n "nodeid" = some (decimal dev.memoryReq.nodeId)
  nodes : ((numaArgs words).map fun n => optionValue n "nodeid").Perm
    ((List.range numDevs).map fun k : ℕ => some (decimal k))
  cpus : ∃ n, (numaArgs words).filter (fun n => (optionValue n "cpus").isSome) = [n] ∧
    optionValue n "cpus" = some ("0-".toList ++ decimal (smp - 1))

/-! ### The answers of the server -/

/-- What is known while the devices of the plan are allocated. -/
structure Allocated (v : ℤ) (i : Fin maxNumVm) (m₀ m : Manager) (done : List (ℤ × ℤ))
    (outs : List Text) : Prop where
  added : Added v i m₀ m
  counter : (m.vms i).memdevCounter = done.length
  devs : (m.vms i).attachedDevs.map (fun d => (d.memoryReq.nodeId, d.memoryReq.sizeMb)) = done
  ids : (m.vms i).attachedDevs.map MemoryDev.memdevIdx = (List.range done.length).map Nat.cast
  inInt : ∀ d ∈ (m.vms i).attachedDevs, InInt d.memdevIdx
  outs : outs = (m.vms i).attachedDevs.map fun d => clientText (bootArgument d)

variable {s s₁ s₂ s' : Server} {w : RunWorld} {done entries : List (ℤ × ℤ)} {outs outs' : List Text}

/-- One more device. -/
theorem Allocated.allocMem (h : Allocated v i m₀ m done outs) {nid sizeMb : ℤ} {req : VmMemReq}
    (halloc : vmMngrInstanceAllocMem m nid v sizeMb = .ok (some req, m')) :
    Allocated v i m₀ m' (done ++ [(nid, sizeMb)]) (outs ++ [clientText (allocMemResponse req)]) := by
  have hadded := h.added.allocMem halloc
  rcases vmMngrInstanceAllocMem_ok h.added.kept.owns.geometry.segmentSize halloc with
    ⟨hnone, _⟩ | ⟨j, r, pool, k, lo, n, hget, hal, hin, hreq, hm'⟩
  · cases hnone
  obtain rfl : j = i := Option.some.inj (hget.symm.trans h.added.getInstance)
  have hself : m'.vms j = attachedVm (m.vms j) r := by
    rw [hm']
    exact setVm_vms_self m j _
  have hcounter := h.counter
  obtain rfl := Option.some.inj hreq
  refine ⟨hadded, ?_, ?_, ?_, ?_, ?_⟩
  · rw [hself, attachedVm]
    dsimp only
    rw [hcounter, List.length_append, List.length_singleton]
    push_cast
    rfl
  · rw [hself, attachedVm]
    dsimp only
    rw [List.map_append, h.devs, List.map_singleton, hal.request, hal.size]
  · rw [hself, attachedVm]
    dsimp only
    rw [List.map_append, h.ids, List.length_append, List.length_singleton, List.range_succ,
      List.map_append, List.map_singleton, List.map_singleton, hcounter]
  · intro d hd
    rw [hself, attachedVm] at hd
    rcases List.mem_append.mp hd with hd | hd
    · exact h.inInt d hd
    · obtain rfl := List.mem_singleton.mp hd
      have hlow : (0 : ℤ) ≤ (m.vms j).memdevCounter := by
        rw [hcounter]
        exact Int.natCast_nonneg _
      simp only [InInt, intMin, intMax] at hin ⊢
      omega
  · rw [hself, attachedVm]
    dsimp only
    rw [List.map_append, h.outs, List.map_singleton]
    rfl

theorem bind_map_ok {α β : Type} {x : Raises α} {f : α → Raises β} {a : α}
    (h : (x.bind fun out => (f out).map fun _ => out) = .ok a) : x = .ok a ∧ ∃ b, f a = .ok b := by
  cases x with
  | error e => cases h
  | ok out =>
    obtain ⟨b, hb, hout⟩ := map_eq_ok.mp h
    subst hout
    exact ⟨rfl, b, hb⟩

/-- Every `alloc-mem` of the loop adds the device it asks for. -/
theorem askAll_allocated (hvid : NonNegInt v) (hentries : ∀ e ∈ entries, InInt e.1 ∧ InInt e.2)
    (h : Allocated v i m₀ s.mngr done outs)
    (hrun : askAll w.onAlloc allocMemId (entries.map fun a => .allocMem a.1 v a.2) outs s =
      .ok (.ok outs', s')) : Allocated v i m₀ s'.mngr (done ++ entries) outs' := by
  have hinvalid : (allocMemId (clientText invalidArgs)).isOk = false := rfl
  have hrefused : (allocMemId (clientText (snprintf bufferSize "Allocate failed" []))).isOk = false := rfl
  induction entries generalizing done outs s with
  | nil =>
    cases hrun
    rwa [List.append_nil]
  | cons e entries ih =>
    obtain ⟨hnid, hsize⟩ := hentries e List.mem_cons_self
    obtain ⟨⟨answer, t⟩, hask, hrun⟩ := bind_eq_ok.mp hrun
    dsimp only at hrun
    split at hrun
    · cases hrun
    rename_i out hused
    obtain ⟨rfl, memId, hmemId⟩ := bind_map_ok hused
    have hsome : out ≠ [] := by
      rintro rfl
      cases hmemId
    obtain ⟨env, response, hserve, rfl⟩ := ask_answered hask hsome
    have hone : Allocated v i m₀ t.mngr (done ++ [e]) (outs ++ [clientText response]) := by
      rcases served_allocMem_read h.added.kept.owns hserve with ⟨_, rfl | rfl⟩ | ⟨req, _, halloc, rfl⟩
      · rw [hmemId] at hinvalid
        cases hinvalid
      · rw [hmemId] at hrefused
        cases hrefused
      · rw [readBack_of_inInt hnid, readBack_of_inInt hvid.inInt, readBack_of_inInt hsize] at halloc
        exact h.allocMem halloc
    have hall := ih (fun a ha => hentries a (List.mem_cons_of_mem e ha)) hone hrun
    rwa [List.append_assoc, List.singleton_append] at hall

/-- What the server knows of a node. -/
def nodeInfo (pool : Pool) (nid : ℤ) : MemoryNodeInfo := (memoryPoolGetNodeInfo pool nid).getD ⟨0, 0⟩

theorem memoryPoolGetNodeInfo_device (hg : PoolGeometry pool) {k : ℕ} (hk : k < pool.numDevs) :
    memoryPoolGetNodeInfo pool k = some ⟨(pool.memDevs k).tierId, (pool.memDevs k).daxId⟩ := by
  rw [memoryPoolGetNodeInfo, findMemDev_of_node hg hk (hg.node k hk), Option.map_some]

/-- Every `get-node-info` of the loop is answered with the node that it names. -/
theorem askAll_nodes {ids : List ℤ} (hg : PoolGeometry s.mngr.pool)
    (hids : ∀ nid ∈ ids, ∃ k < s.mngr.pool.numDevs, nid = (k : ℤ))
    (hrun : askAll w.onNode nodeInfoOut (ids.map .getNodeInfo) outs s = .ok (.ok outs', s')) :
    s'.mngr = s.mngr ∧
      outs' = outs ++ ids.map fun nid => clientText (nodeAnswer nid (nodeInfo s.mngr.pool nid)) := by
  induction ids generalizing outs s with
  | nil =>
    cases hrun
    exact ⟨rfl, (List.append_nil _).symm⟩
  | cons nid ids ih =>
    obtain ⟨k, hk, rfl⟩ := hids nid List.mem_cons_self
    obtain ⟨⟨answer, t⟩, hask, hrun⟩ := bind_eq_ok.mp hrun
    dsimp only at hrun
    split at hrun
    · cases hrun
    rename_i out hused
    obtain ⟨rfl, _, hinfo⟩ := bind_map_ok hused
    have hsome : out ≠ [] := by
      rintro rfl
      cases hinfo
    obtain ⟨env, response, hserve, rfl⟩ := ask_answered hask hsome
    obtain ⟨hsame, a, hscan, hresponse⟩ := served_getNodeInfo_read hserve
    have hin : InInt (k : ℤ) := by
      have hmax := hg.numDevs
      simp only [maxDevices] at hmax
      simp only [InInt, intMin, intMax]
      omega
    have hanswer : response = nodeAnswer k (nodeInfo s.mngr.pool k) := by
      rw [hresponse, rpcHandleGetNodeInfo, hscan, readBack_of_inInt hin, nodeInfo]
      dsimp only
      rw [memoryPoolGetNodeInfo_device hg hk]
      rfl
    obtain ⟨hrest, houts⟩ := ih (hsame ▸ hg)
      (fun n hn => hsame ▸ hids n (List.mem_cons_of_mem _ hn)) hrun
    refine ⟨hrest.trans hsame, ?_⟩
    rw [houts, hsame, hanswer, List.map_cons, List.append_assoc, List.singleton_append]

/-! ### The ids of the devices -/

/-- What a device line calls its device fits an `int`. -/
theorem deviceLines_inInt (buffers : LineBuffers) (lines : List Text) :
    ∀ name ∈ deviceLines buffers lines, InInt name.tierId ∧ InInt name.daxId := by
  have hparsed : ∀ {buffers dev}, parseDev buffers = .ok (some dev) →
      InInt dev.tierId ∧ InInt dev.daxId := by
    intro buffers dev h
    unfold parseDev at h
    split at h
    · split_ifs at h
      split at h
      · rename_i sizeMb tierId daxId _ htier hdax
        cases h
        constructor
        · refine @scan_int_inInt (directives none "tier_id=%d".toList) buffers.value3 tierId ?_
          rw [← sscanf, htier]
          exact List.mem_singleton_self _
        · refine @scan_int_inInt (directives none "dax_id=%d".toList) buffers.value4 daxId ?_
          rw [← sscanf, hdax]
          exact List.mem_singleton_self _
      · cases h
    · cases h
  fun_induction deviceLines buffers lines with
  | case1 => simp
  | case2 buffers line lines hskip ih => exact ih
  | case3 => simp
  | case4 buffers line lines hskip count scanned hscan hdev dev hparse ih =>
    intro name hname
    rcases List.mem_cons.mp hname with rfl | hname
    · exact hparsed hparse
    · exact ih name hname
  | case5 => simp
  | case6 buffers line lines hskip count scanned hscan hdev ih => exact ih

theorem memoryPoolInit_ids {buffers : LineBuffers} {config : Option Text}
    (h : memoryPoolInit buffers config = .ok (some pool)) :
    ∀ k < pool.numDevs, InInt (pool.memDevs k).tierId ∧ InInt (pool.memDevs k).daxId := by
  intro k hk
  have hmem : nameOf (pool.memDevs k) ∈ deviceNames pool :=
    List.mem_map_of_mem (List.mem_range.mpr hk)
  rw [memoryPoolInit_names h] at hmem
  exact deviceLines_inInt _ _ _ hmem

/-! ### What agrees in the command -/

/-- The paths of the devices that the plan uses are plain. -/
def PlainPaths (pool : Pool) (plan : MemoryPlan) : Prop :=
  ∀ k < pool.numDevs, (k : ℤ) ∈ plan.allocations.map Prod.fst → PlainPath (pool.memDevs k).devPath

theorem plainDev_of_live {dev : MemoryDev} {plan : MemoryPlan} (ho : Owns m) (hd : LiveDev m i dev)
    (hin : InInt dev.memdevIdx) (hused : dev.memoryReq.nodeId ∈ plan.allocations.map Prod.fst)
    (hplain : PlainPaths m.pool plan) : PlainDev dev := by
  obtain ⟨k, lo, n, hr⟩ := ho.range i dev hd
  have hpath := ho.geometry.path k hr.device
  have hfits := hpath.fits
  have hsame : dev.memoryReq.devPath = (m.pool.memDevs k).devPath := by
    rw [hr.request]
    exact List.take_of_length_le (by omega)
  have hnode : dev.memoryReq.nodeId = k := by
    rw [hr.request, ← ho.geometry.node k hr.device]
  exact ⟨Owns.devText ho hd, hin, hsame ▸ hplain k hr.device (hnode ▸ hused), hsame ▸ hpath.word⟩

theorem memName_inj {a b : MemoryDev} (h : memName a = memName b) : a.memdevIdx = b.memdevIdx :=
  decimal_injective (List.append_cancel_left h)

variable {devs : List MemoryDev} {dev : MemoryDev}

/-- The allocations that made the devices. -/
def allocationsOf (devs : List MemoryDev) : List (ℤ × ℤ) :=
  devs.map fun d => (d.memoryReq.nodeId, d.memoryReq.sizeMb)

/-- The pairs the ids are looked up in. -/
theorem nodeToMemid_allocationsOf (devs : List MemoryDev) (nid : ℤ) :
    nodeToMemid (allocationsOf devs) (devs.map memName) nid =
      (devs.reverse.find? fun d => d.memoryReq.nodeId = nid).map memName := by
  have hzip : ((allocationsOf devs).map Prod.fst).zip (devs.map memName) =
      devs.map fun d => (d.memoryReq.nodeId, memName d) := by
    rw [allocationsOf, List.map_map, List.zip_map']
    rfl
  rw [nodeToMemid, hzip, ← List.map_reverse, List.find?_map, Option.map_map]
  rfl

theorem nodeToMemid_eq_some {nid : ℤ} {memId : Text}
    (h : nodeToMemid (allocationsOf devs) (devs.map memName) nid = some memId) :
    ∃ dev ∈ devs, dev.memoryReq.nodeId = nid ∧ memName dev = memId := by
  rw [nodeToMemid_allocationsOf] at h
  obtain ⟨dev, hfind, rfl⟩ := Option.map_eq_some_iff.mp h
  exact ⟨dev, List.mem_reverse.mp (List.mem_of_find?_eq_some hfind), by simpa using List.find?_some hfind,
    rfl⟩

theorem nodeToMemid_device (hnodes : (devs.map fun d => d.memoryReq.nodeId).Nodup) (hdev : dev ∈ devs) :
    nodeToMemid (allocationsOf devs) (devs.map memName) dev.memoryReq.nodeId = some (memName dev) := by
  cases hfind : nodeToMemid (allocationsOf devs) (devs.map memName) dev.memoryReq.nodeId with
  | none =>
    rw [nodeToMemid_allocationsOf, Option.map_eq_none_iff, List.find?_eq_none] at hfind
    exact absurd (decide_eq_true rfl) (hfind dev (List.mem_reverse.mpr hdev))
  | some memId =>
    obtain ⟨other, hother, hnode, rfl⟩ := nodeToMemid_eq_some hfind
    rw [List.inj_on_of_nodup_map hnodes hother hdev hnode]

theorem filter_map_single {α β : Type} [DecidableEq α] {f : α → β} {p : β → Bool} {l : List α} {a : α}
    (hl : l.Nodup) (ha : a ∈ l) (h : ∀ b ∈ l, p (f b) = true ↔ b = a) : (l.map f).filter p = [f a] := by
  have hfilter : l.filter (fun b => p (f b)) = l.filter (fun b => b == a) :=
    List.filter_congr fun b hb => by
      rw [Bool.eq_iff_iff, h b hb, beq_iff_eq]
  rw [List.filter_map]
  change (l.filter fun b => p (f b)).map f = [f a]
  rw [hfilter, List.filter_beq, List.count_eq_one_of_mem hl ha, List.replicate_one, List.map_singleton]

variable {job : CreateJob} {plan : MemoryPlan} {infos : ℤ → MemoryNodeInfo} {smp : ℤ}

/-- A plan and the devices that were made of it. -/
structure Made (plan : MemoryPlan) (devs : List MemoryDev) : Prop where
  plain : ∀ dev ∈ devs, PlainDev dev
  allocations : plan.allocations = allocationsOf devs
  ids : (devs.map MemoryDev.memdevIdx).Nodup
  nodeIds : plan.allNodeIds.Nodup

theorem Made.nodes (h : Made plan devs) {cfg : VmConfig} (hs : SharedOut cfg plan) :
    (devs.map fun d => d.memoryReq.nodeId).Nodup := by
  have hdistinct := hs.distinct
  rw [h.allocations, allocationsOf, List.map_map] at hdistinct
  exact hdistinct

theorem Made.listed (h : Made plan devs) {cfg : VmConfig} (hs : SharedOut cfg plan) (hdev : dev ∈ devs) :
    dev.memoryReq.nodeId ∈ plan.allNodeIds := by
  refine hs.listed (dev.memoryReq.nodeId, dev.memoryReq.sizeMb) ?_
  rw [h.allocations]
  exact List.mem_map_of_mem hdev

theorem numa_read (plan : MemoryPlan) (devs : List MemoryDev) (smp : ℤ) (infos : ℤ → MemoryNodeInfo)
    (nid : ℤ) :
    let n := numaText plan.allocations (devs.map memName) (cpusText smp) nid (infos nid)
    optionValue n "nodeid" = some (decimal nid) ∧
      optionValue n "memdev" = nodeToMemid plan.allocations (devs.map memName) nid ∧
      optionValue n "cpus" =
        if nodeToMemid plan.allocations (devs.map memName) nid ≠ none ∧
          plan.allocations.head?.map Prod.fst = some nid then some (cpusText smp) else none :=
  numaText_read (memIds_plain devs) (plainText_cpusText smp)

/-- Every device is that of one NUMA node, its own. -/
theorem Made.memdev (h : Made plan devs) {cfg : VmConfig} (hs : SharedOut cfg plan) (hdev : dev ∈ devs) :
    ∃ n, (numaTexts plan devs smp infos).filter
        (fun n => decide (optionValue n "memdev" = some (memName dev))) = [n] ∧
      optionValue n "nodeid" = some (decimal dev.memoryReq.nodeId) := by
  refine ⟨_, filter_map_single h.nodeIds (h.listed hs hdev) fun nid _ => ?_,
    (numa_read plan devs smp infos _).1⟩
  rw [decide_eq_true_iff, (numa_read plan devs smp infos nid).2.1, h.allocations]
  constructor
  · intro hmemdev
    obtain ⟨other, hother, rfl, hname⟩ := nodeToMemid_eq_some hmemdev
    rw [List.inj_on_of_nodup_map h.ids hother hdev (memName_inj hname)]
  · rintro rfl
    exact nodeToMemid_device (h.nodes hs) hdev

/-- The first node that has memory, and no other, has the CPUs. -/
theorem Made.cpus (h : Made plan devs) {cfg : VmConfig} (hs : SharedOut cfg plan) :
    ∃ n, (numaTexts plan devs smp infos).filter (fun n => (optionValue n "cpus").isSome) = [n] ∧
      optionValue n "cpus" = some (cpusText smp) := by
  obtain ⟨dev, rest, rfl⟩ : ∃ dev rest, devs = dev :: rest := by
    refine List.exists_cons_of_ne_nil fun hnil => hs.nonempty ?_
    rw [h.allocations, hnil]
    rfl
  have hhead : plan.allocations.head?.map Prod.fst = some dev.memoryReq.nodeId := by
    rw [h.allocations]
    rfl
  have hmemdev := nodeToMemid_device (h.nodes hs) (List.mem_cons_self (a := dev) (l := rest))
  rw [← h.allocations] at hmemdev
  have hread : ∀ nid, optionValue (numaText plan.allocations ((dev :: rest).map memName) (cpusText smp) nid
      (infos nid)) "cpus" = if nid = dev.memoryReq.nodeId then some (cpusText smp) else none := by
    intro nid
    rw [(numa_read plan (dev :: rest) smp infos nid).2.2, hhead]
    by_cases hnid : nid = dev.memoryReq.nodeId
    · rw [if_pos hnid, if_pos ⟨by rw [hnid, hmemdev]; simp, by rw [hnid]⟩]
    · rw [if_neg hnid, if_neg fun hboth => hnid (Option.some.inj hboth.2).symm]
  refine ⟨_, filter_map_single h.nodeIds (h.listed hs List.mem_cons_self) fun nid _ => ?_, ?_⟩
  · rw [hread]
    split_ifs with hnid
    · exact iff_of_true rfl hnid
    · exact iff_of_false (by simp) hnid
  · rw [hread, if_pos rfl]

/-- What the checks say of the CXL memory. -/
structure CxlChecked (args : CreateArgs) (job : CreateJob) : Prop where
  read : cxlMemoryToMb args.cxlMemory = some job.cfg.cxlMemoryMb
  channels : 0 ≤ job.cfg.cxlChannels
  none : job.cfg.cxlChannels = 0 → job.cfg.cxlMemoryMb ≤ 0
  some : 0 < job.cfg.cxlChannels → job.cfg.cxlChannels ≤ job.cfg.cxlMemoryMb

theorem createJob_cxl {args : CreateArgs} (h : createJob args = .ok job) : CxlChecked args job := by
  simp only [createJob, bind_eq_ok, raiseIf_eq_ok, orRaise_eq_ok] at h
  obtain ⟨_, _, _, _, memoryMb, _, cxlMemoryMb, hcxl, _, _, _, _, _, hneg, _, hzero, _, hsmall, cpus, _,
    h⟩ := h
  cases h
  exact ⟨hcxl, not_lt.mp hneg, fun hnone => not_lt.mp fun hpos => hzero ⟨hnone, hpos⟩,
    fun hpos => not_lt.mp fun hless => hsmall ⟨hpos, hless⟩⟩

/-- The sizes add up just when the CXL memory is not negative. -/
theorem Made.sizes_iff (h : Made plan devs) (hs : SharedOut job.cfg plan) {args : CreateArgs}
    (hjob : JobOf args job) (hcxl : CxlChecked args job) :
    (∃ sizes : List ℤ,
      (devs.map objectText).map (fun o => (optionValue o "size").bind readMb) = sizes.map some ∧
        [toMArg (job.cfg.memoryMb + job.cfg.cxlMemoryMb)].map readMb = [some sizes.sum]) ↔
      0 ≤ job.cfg.cxlMemoryMb := by
  have hread : (devs.map objectText).map (fun o => (optionValue o "size").bind readMb) =
      (devs.map fun d => d.memoryReq.sizeMb).map some := by
    rw [List.map_map, List.map_map]
    exact List.map_congr_left fun d hd => (objectText_read (h.plain d hd)).2
  have htotal : (devs.map fun d => d.memoryReq.sizeMb).sum =
      job.cfg.memoryMb + (cxlShares job.cfg).sum := by
    have htotal := hs.total
    rw [h.allocations, allocationsOf, List.map_map] at htotal
    exact htotal
  have hshares : (cxlShares job.cfg).sum = if 0 < job.cfg.cxlChannels then job.cfg.cxlMemoryMb else 0 := by
    unfold cxlShares
    split_ifs with hpos
    · exact splitMemory_sum hpos
    · rfl
  rw [hshares] at htotal
  have hlocal := hjob.channels
  have hnone := hcxl.none
  have hsome := hcxl.some
  have hchannels := hcxl.channels
  rw [hread, List.map_singleton, readMb_toMArg]
  constructor
  · rintro ⟨sizes, hsizes, hsum⟩
    obtain rfl := (List.map_injective_iff.mpr (Option.some_injective ℤ)) hsizes
    rw [htotal] at hsum
    split_ifs at hsum with hnonneg hpos hpos
    · omega
    · have hequal := Option.some.inj (List.head_eq_of_cons_eq hsum)
      omega
    · cases List.head_eq_of_cons_eq hsum
    · cases List.head_eq_of_cons_eq hsum
  · intro hpositive
    refine ⟨_, rfl, ?_⟩
    rw [htotal, if_pos (by omega)]
    split_ifs with hpos
    · rfl
    · rw [show job.cfg.cxlMemoryMb = 0 by omega]

/-- There is a NUMA node for each node of the pool just when all were listed. -/
theorem nodes_iff (plan : MemoryPlan) (devs : List MemoryDev) (smp : ℤ) (infos : ℤ → MemoryNodeInfo)
    (numDevs : ℕ) :
    ((numaTexts plan devs smp infos).map fun n => optionValue n "nodeid").Perm
        ((List.range numDevs).map fun k : ℕ => some (decimal k)) ↔
      plan.allNodeIds.Perm ((List.range numDevs).map Nat.cast) := by
  have hleft : (numaTexts plan devs smp infos).map (fun n => optionValue n "nodeid") =
      plan.allNodeIds.map fun nid => some (decimal nid) := by
    rw [numaTexts, List.map_map]
    exact List.map_congr_left fun nid _ => (numa_read plan devs smp infos nid).1
  have hright : (List.range numDevs).map (fun k : ℕ => some (decimal k)) =
      ((List.range numDevs).map (Nat.cast : ℕ → ℤ)).map fun nid => some (decimal nid) := by
    rw [List.map_map]
    rfl
  rw [hleft, hright]
  refine ⟨fun hperm => ?_, fun hperm => hperm.map _⟩
  exact (List.map_perm_map_iff ((Option.some_injective _).comp decimal_injective)).mp hperm

theorem listed_perm_iff (hg : PoolGeometry pool) (hdevs : 0 < pool.numDevs) :
    (sortedSet ((listedNodes pool).map MemPoolNode.nodeId)).Perm
        ((List.range pool.numDevs).map Nat.cast) ↔ TableReadable pool := by
  have hsorted : (sortedSet ((listedNodes pool).map MemPoolNode.nodeId)).Perm
      ((listedNodes pool).map MemPoolNode.nodeId) := by
    rw [sortedSet, (listedNodes_nodup hg).dedup]
    exact List.perm_insertionSort _ _
  have hall : (poolNodes pool).map MemPoolNode.nodeId = (List.range pool.numDevs).map Nat.cast := by
    rw [poolNodes, List.map_map]
    exact List.map_congr_left fun k hk => hg.node k (List.mem_range.mp hk)
  rw [← keptNodes_all_iff hdevs, ← hall]
  change _ ↔ listedNodes pool = poolNodes pool
  constructor
  · intro hperm
    refine (listedNodes_sublist pool).eq_of_length ?_
    have hlen := (hsorted.symm.trans hperm).length_eq
    rwa [List.length_map, List.length_map] at hlen
  · intro hsame
    rw [hsame] at hsorted ⊢
    exact hsorted

theorem reaches_poolFrame (hp : InitialPool pool) (h : Reaches step (initialManager pool) m) :
    PoolFrame pool m.pool := by
  have hboth := h.invariant (I := fun m => Owns m ∧ PoolFrame pool m.pool)
    (fun s op t hs hstep => ⟨owns_step hs.1 hstep, hs.2.trans (step_poolFrame hs.1 hstep)⟩)
    ⟨owns_initial hp, .refl pool⟩
  exact hboth.2

/-- A frame keeps what a device is called. -/
theorem PoolFrame.dev_name {pool' : Pool} (h : PoolFrame pool pool') (k : ℕ) :
    (pool'.memDevs k).devPath = (pool.memDevs k).devPath ∧
      (pool'.memDevs k).tierId = (pool.memDevs k).tierId ∧
      (pool'.memDevs k).daxId = (pool.memDevs k).daxId := by
  rw [h.dev k]
  exact ⟨rfl, rfl, rfl⟩

theorem barFree_frame {pool' : Pool} (hframe : PoolFrame pool pool') (h : BarFree pool) : BarFree pool' := by
  intro k hk
  rw [(PoolFrame.dev_name hframe k).1]
  exact h k (hframe.numDevs ▸ hk)

theorem plainPaths_frame {pool' : Pool} (hframe : PoolFrame pool pool') (h : PlainPaths pool plan) :
    PlainPaths pool' plan := by
  intro k hk hused
  rw [(PoolFrame.dev_name hframe k).1]
  exact h k (hframe.numDevs ▸ hk) hused

/-- The node of a row is the index of its device. -/
theorem listedNodes_device (hg : PoolGeometry pool) {nid : ℤ}
    (hnid : nid ∈ sortedSet ((listedNodes pool).map MemPoolNode.nodeId)) :
    ∃ k < pool.numDevs, nid = (k : ℤ) := by
  rw [mem_sortedSet] at hnid
  obtain ⟨node, hnode, rfl⟩ := List.mem_map.mp hnid
  obtain ⟨k, hk, rfl⟩ := mem_listedNodes hnode
  exact ⟨k, hk, hg.node k hk⟩

variable {args : CreateArgs} {vmid : ℤ} {answers : List Text × List Text} {buffers : LineBuffers}
  {config : Option Text} {stack : Text}

/-- What `get-node-info` prints of a device of the loaded pool reads back. -/
theorem nodeInfo_inInt {pool' : Pool} (hload : memoryPoolInit buffers config = .ok (some pool))
    (hframe : PoolFrame pool pool') (hg : PoolGeometry pool') {k : ℕ} (hk : k < pool'.numDevs) :
    InInt (k : ℤ) ∧ InInt (nodeInfo pool' k).tierId ∧ InInt (nodeInfo pool' k).daxId := by
  have hmax := hg.numDevs
  obtain ⟨_, htier, hdax⟩ := PoolFrame.dev_name hframe k
  rw [nodeInfo, memoryPoolGetNodeInfo_device hg hk]
  dsimp only [Option.getD_some]
  rw [htier, hdax]
  refine ⟨?_, memoryPoolInit_ids hload k (hframe.numDevs ▸ hk)⟩
  simp only [maxDevices] at hmax
  simp only [InInt, intMin, intMax]
  omega

/-- What the requests of a run leave: the devices of the plan, and the answers that name them. -/
structure Answered (s s₂ : Server) (job : CreateJob) (plan : MemoryPlan) (vmid : ℤ)
    (answers : List Text × List Text) (i : Fin maxNumVm) : Prop where
  instance_eq : vmMngrGetInstance s₂.mngr vmid = some i
  made : Made plan (s₂.mngr.vms i).attachedDevs
  shared : SharedOut job.cfg plan
  listed : plan.allNodeIds = sortedSet ((listedNodes s.mngr.pool).map MemPoolNode.nodeId)
  devices : 0 < s.mngr.pool.numDevs
  allocOuts : answers.1 = (s₂.mngr.vms i).attachedDevs.map fun d => clientText (bootArgument d)
  nodeOuts : answers.2 =
    plan.allNodeIds.map fun nid => clientText (nodeAnswer nid (nodeInfo s₂.mngr.pool nid))
  nodes : ∀ nid ∈ plan.allNodeIds, InInt nid ∧ InInt (nodeInfo s₂.mngr.pool nid).tierId ∧
    InInt (nodeInfo s₂.mngr.pool nid).daxId

theorem buildRequests_answered (hload : memoryPoolInit buffers config = .ok (some pool))
    (hreach : Reaches serverStep (initialServer pool stack) s) (hbar : BarFree pool)
    (hplain : PlainPaths pool plan) (hcreated : untilCreated w args s = .ok (.ok (job, plan, vmid), s₁))
    (hbuild : buildRequests w vmid plan s₁ = .ok (.ok answers, s₂)) :
    ∃ i, Answered s s₂ job plan vmid answers i := by
  have hp := memoryPoolInit_initial hload
  have hm := kept_reachable hp (server_refines hp hreach)
  have hg := hm.owns.geometry
  have hframe := reaches_poolFrame hp (server_refines hp hreach)
  obtain ⟨hchecked, ⟨response, hresponse, hplan⟩, hvid, i, hadded, hnone, hzero⟩ :=
    untilCreated_ok hm hcreated
  have hjob := createJob_ok hchecked
  have hbar := barFree_frame hframe hbar
  have hnodes := buildMemoryPlan_listed hg hbar hresponse hplan
  have hlisted := planOfNodes_allNodeIds hnodes
  have hshared := planOfNodes_sharedOut hjob.channels.1 (listedNodes_nodup hg) hnodes
  have hfits := buildMemoryPlan_fits hjob hg hm.accounted hbar hresponse hplan
  have hdevice : ∀ nid ∈ plan.allNodeIds, ∃ k < s.mngr.pool.numDevs, nid = (k : ℤ) := by
    intro nid hnid
    exact listedNodes_device hg (hlisted ▸ hnid)
  -- the devices
  obtain ⟨⟨allocOuts, t⟩, halloc, hbuild⟩ := bind_eq_ok.mp hbuild
  cases allocOuts with
  | error e => cases hbuild
  | ok outs =>
  obtain ⟨⟨nodeOuts, u⟩, hnode, hbuild⟩ := bind_eq_ok.mp hbuild
  cases nodeOuts with
  | error e => cases hbuild
  | ok infos =>
  cases hbuild
  have hstart : Allocated vmid i s.mngr s₁.mngr [] [] :=
    ⟨hadded, hzero, by rw [hnone]; rfl, by rw [hnone]; rfl, by rw [hnone]; simp, by rw [hnone]; rfl⟩
  have hallocated := askAll_allocated hvid hfits hstart halloc
  rw [List.nil_append] at hallocated
  -- the nodes
  have hdevice₂ : ∀ nid ∈ plan.allNodeIds, ∃ k < t.mngr.pool.numDevs, nid = (k : ℤ) := by
    rw [hallocated.added.frame.numDevs]
    exact hdevice
  obtain ⟨hsame, houts⟩ := askAll_nodes hallocated.added.kept.owns.geometry hdevice₂ hnode
  rw [← hsame] at hallocated hdevice₂ houts
  rw [List.nil_append] at houts
  have hadded₂ := hallocated.added
  have hframe₂ := hframe.trans hadded₂.frame
  have hused : ∀ dev ∈ (s₂.mngr.vms i).attachedDevs, dev.memoryReq.nodeId ∈ plan.allocations.map Prod.fst := by
    intro dev hdev
    rw [← hallocated.devs, List.map_map]
    exact List.mem_map_of_mem hdev
  refine ⟨i, {
    instance_eq := hadded₂.getInstance
    made := ⟨?plain, hallocated.devs.symm, ?ids, ?nodup⟩
    shared := hshared
    listed := hlisted
    devices := ?devices
    allocOuts := hallocated.outs
    nodeOuts := houts
    nodes := ?nodes }⟩
  case plain =>
    exact fun dev hdev => plainDev_of_live hadded₂.kept.owns ⟨hadded₂.initialized, hdev⟩
      (hallocated.inInt dev hdev) (hused dev hdev) (plainPaths_frame hframe₂ hplain)
  case ids =>
    rw [hallocated.ids]
    exact List.nodup_range.map Nat.cast_injective
  case nodup =>
    rw [hlisted, sortedSet]
    exact (List.perm_insertionSort _ _).nodup_iff.mpr (List.nodup_dedup _)
  case devices =>
    obtain ⟨e, he⟩ := List.exists_mem_of_ne_nil _ hshared.nonempty
    obtain ⟨k, hk, _⟩ := hdevice e.1 (hshared.listed e he)
    exact Nat.zero_lt_of_lt hk
  case nodes =>
    intro nid hnid
    obtain ⟨k, hk, rfl⟩ := hdevice₂ nid hnid
    exact nodeInfo_inInt hload hframe₂ hadded₂.kept.owns.geometry hk

/-- What the command of a run gives for the memory. -/
theorem Answered.command (h : Answered s s₂ job plan vmid answers i) (qemuBin : Text) (port : ℤ) :
    ∃ words, buildQemuCmd qemuBin (withPort job port) vmid plan answers.1 answers.2 = .ok words ∧
      objectArgs words = (s₂.mngr.vms i).attachedDevs.map objectText ∧
      numaArgs words =
        numaTexts plan (s₂.mngr.vms i).attachedDevs job.smp (nodeInfo s₂.mngr.pool) ∧
      valuesOf "-m" (qemuArgs words) = [toMArg (job.cfg.memoryMb + job.cfg.cxlMemoryMb)] := by
  have hwords : ∀ o ∈ (s₂.mngr.vms i).attachedDevs.map objectText ++
      numaTexts plan (s₂.mngr.vms i).attachedDevs job.smp (nodeInfo s₂.mngr.pool),
        o.head? ≠ some '-' := by
    intro o ho
    rcases List.mem_append.mp ho with ho | ho
    · obtain ⟨dev, _, rfl⟩ := List.mem_map.mp ho
      have hhead : (objectText dev).head? = some 'm' := rfl
      rw [hhead]
      decide
    · obtain ⟨nid, _, rfl⟩ := List.mem_map.mp ho
      have hhead : ∀ r info, (numaText plan.allocations ((s₂.mngr.vms i).attachedDevs.map memName) r nid
        info).head? = some 'n' := fun _ _ => rfl
      rw [hhead]
      decide
  obtain ⟨hm, hobject, hnuma⟩ := @valuesOf_command qemuBin (withPort job port) vmid _ _ hwords
  rw [h.allocOuts, h.nodeOuts]
  exact ⟨_, buildQemuCmd_ok h.made.plain h.nodes, hobject, hnuma, hm⟩

/-- In every run whose requests are answered, where no path of the pool holds a bar and those of the devices
that the plan uses are plain, the command is consistent just when the CXL memory is not negative and the
table of the pool is readable. -/
theorem consistentCommand_iff (hload : memoryPoolInit buffers config = .ok (some pool))
    (hreach : Reaches serverStep (initialServer pool stack) s) (hbar : BarFree pool)
    (hplain : PlainPaths pool plan) (hcreated : untilCreated w args s = .ok (.ok (job, plan, vmid), s₁))
    (hbuild : buildRequests w vmid plan s₁ = .ok (.ok answers, s₂)) (qemuBin : Text) (port : ℤ) :
    ∃ words i, buildQemuCmd qemuBin (withPort job port) vmid plan answers.1 answers.2 = .ok words ∧
      vmMngrGetInstance s₂.mngr vmid = some i ∧
      (ConsistentCommand (s₂.mngr.vms i) s.mngr.pool.numDevs job.smp words ↔
        (∃ mb, cxlMemoryToMb args.cxlMemory = some mb ∧ 0 ≤ mb) ∧ TableReadable s.mngr.pool) := by
  have hp := memoryPoolInit_initial hload
  have hm := kept_reachable hp (server_refines hp hreach)
  obtain ⟨i, h⟩ := buildRequests_answered hload hreach hbar hplain hcreated hbuild
  have hchecked := (untilCreated_ok hm hcreated).checked
  obtain ⟨words, hwords, hobject, hnuma, hmemory⟩ := h.command qemuBin port
  have hcxl := createJob_cxl hchecked
  have hsizes := h.made.sizes_iff h.shared (createJob_ok hchecked) hcxl
  have hnodes := nodes_iff plan (s₂.mngr.vms i).attachedDevs job.smp (nodeInfo s₂.mngr.pool)
    s.mngr.pool.numDevs
  rw [h.listed, listed_perm_iff hm.owns.geometry h.devices] at hnodes
  have hread : (∃ mb, cxlMemoryToMb args.cxlMemory = some mb ∧ 0 ≤ mb) ↔ 0 ≤ job.cfg.cxlMemoryMb := by
    rw [hcxl.read]
    simp
  refine ⟨words, i, hwords, h.instance_eq, ?_⟩
  rw [hread, ← hsizes, ← hnodes]
  constructor
  · intro hc
    have hcs := hc.sizes
    have hcn := hc.nodes
    rw [hobject, hmemory] at hcs
    rw [hnuma] at hcn
    exact ⟨hcs, hcn⟩
  · rintro ⟨hcs, hcn⟩
    refine ⟨?_, ?_, ?_, ?_⟩
    · rw [hobject, hmemory]
      exact hcs
    · rw [hobject, hnuma]
      intro o ho
      obtain ⟨dev, hdev, rfl⟩ := List.mem_map.mp ho
      exact ⟨dev, hdev, (objectText_read (h.made.plain dev hdev)).1, h.made.memdev h.shared hdev⟩
    · rw [hnuma]
      exact hcn
    · rw [hnuma]
      exact h.made.cpus h.shared

/-! ### Two runs -/

/-- The command of a run whose requests are all answered. -/
def runCommandView (pool : Pool) (args : CreateArgs) : Option (List Text) :=
  (untilCreated busyWorld args (initialServer pool [])).toOption.bind fun r =>
    r.1.toOption.bind fun c =>
      (buildRequests busyWorld c.2.2 c.2.1 r.2).toOption.bind fun b =>
        b.1.toOption.bind fun a =>
          (buildQemuCmd "qemu".toList (withPort c.1 2222) c.2.2 c.2.1 a.1 a.2).toOption.bind fun words =>
            (vmMngrGetInstance b.2.mngr c.2.2).map fun _ => words

theorem runCommandView_eq_some {words : List Text} (h : runCommandView pool args = some words) :
    ∃ job plan vmid s₁ s₂ answers i,
      untilCreated busyWorld args (initialServer pool []) = .ok (.ok (job, plan, vmid), s₁) ∧
        buildRequests busyWorld vmid plan s₁ = .ok (.ok answers, s₂) ∧
        buildQemuCmd "qemu".toList (withPort job 2222) vmid plan answers.1 answers.2 = .ok words ∧
        vmMngrGetInstance s₂.mngr vmid = some i := by
  obtain ⟨⟨created, s₁⟩, hcreated, h⟩ := of_toOption_bind h
  cases created with
  | error e => cases h
  | ok c =>
  change ((buildRequests busyWorld c.2.2 c.2.1 s₁).toOption.bind _) = some words at h
  obtain ⟨⟨built, s₂⟩, hbuild, h⟩ := of_toOption_bind h
  cases built with
  | error e => cases h
  | ok answers =>
  change ((buildQemuCmd "qemu".toList (withPort c.1 2222) c.2.2 c.2.1 answers.1 answers.2).toOption.bind
    fun words => (vmMngrGetInstance s₂.mngr c.2.2).map fun _ => words) = some words at h
  cases hcommand : buildQemuCmd "qemu".toList (withPort c.1 2222) c.2.2 c.2.1 answers.1 answers.2 with
  | error e =>
    rw [hcommand] at h
    cases h
  | ok command =>
    rw [hcommand] at h
    obtain ⟨i, hinstance, rfl⟩ := Option.map_eq_some_iff.mp h
    exact ⟨c.1, c.2.1, c.2.2, s₁, s₂, answers, i, hcreated, hbuild, hcommand, hinstance⟩

def memoryArgs (cxlMemory : Option Text) (cxlChannels : Option ℤ) : CreateArgs :=
  ⟨"0".toList, "4M".toList, 1, cxlMemory, cxlChannels, "img".toList, 2222, false⟩

theorem consistentCommand_iff_oneDev : ∃ pool job plan vmid s₁ s₂ answers,
    memoryPoolInit zeroBuffers (some (oneDevConfig "8")) = .ok (some pool) ∧
      untilCreated busyWorld (memoryArgs none none) (initialServer pool []) =
        .ok (.ok (job, plan, vmid), s₁) ∧
      buildRequests busyWorld vmid plan s₁ = .ok (.ok answers, s₂) ∧
      ∃ words i, buildQemuCmd "qemu".toList (withPort job 2222) vmid plan answers.1 answers.2 =
          .ok words ∧ vmMngrGetInstance s₂.mngr vmid = some i ∧
        (ConsistentCommand (s₂.mngr.vms i) pool.numDevs job.smp words ↔
          (∃ mb, cxlMemoryToMb none = some mb ∧ 0 ≤ mb) ∧ TableReadable pool) := by
  obtain ⟨pool, hload, hview⟩ := exists_of_view
    (f := fun pool : Pool => ((runCommandView pool (memoryArgs none none)).isSome, pool.numDevs,
      (pool.memDevs 0).devPath)) (b := (true, 1, "/dev/dax0.0".toList))
    (x := memoryPoolInit zeroBuffers (some (oneDevConfig "8"))) (by decide +kernel)
  obtain ⟨hrun, hview⟩ := Prod.mk.inj hview
  obtain ⟨hnum, hpath⟩ := Prod.mk.inj hview
  obtain ⟨words, hwords⟩ := Option.isSome_iff_exists.mp hrun
  obtain ⟨job, plan, vmid, s₁, s₂, answers, i, hcreated, hbuild, _, _⟩ := runCommandView_eq_some hwords
  have hbar : BarFree pool := by
    intro k hk
    obtain rfl : k = 0 := by omega
    rw [hpath]
    decide
  have hplain : PlainPaths pool plan := by
    intro k hk _
    obtain rfl : k = 0 := by omega
    rw [hpath]
    exact ⟨by decide, by decide, by decide, by decide⟩
  exact ⟨pool, job, plan, vmid, s₁, s₂, answers, hload, hcreated, hbuild,
    consistentCommand_iff hload (.refl _) hbar hplain hcreated hbuild "qemu".toList 2222⟩

/-- With `--cxl-memory=-1G --cxl-channels 0` there is less memory than the objects have. -/
theorem consistentCommand_fails_negative : ∃ pool job plan vmid s₁ s₂ answers words i,
    memoryPoolInit zeroBuffers (some (oneDevConfig "8")) = .ok (some pool) ∧
      untilCreated busyWorld (memoryArgs (some "-1G".toList) (some 0)) (initialServer pool []) =
        .ok (.ok (job, plan, vmid), s₁) ∧
      buildRequests busyWorld vmid plan s₁ = .ok (.ok answers, s₂) ∧
      buildQemuCmd "qemu".toList (withPort job 2222) vmid plan answers.1 answers.2 = .ok words ∧
      vmMngrGetInstance s₂.mngr vmid = some i ∧
      ¬ ConsistentCommand (s₂.mngr.vms i) pool.numDevs job.smp words := by
  obtain ⟨pool, hload, hview⟩ := exists_of_view
    (f := fun pool : Pool => (runCommandView pool (memoryArgs (some "-1G".toList) (some 0))).map
      fun words => (valuesOf "-m" (qemuArgs words)).map readMb) (b := some [none])
    (x := memoryPoolInit zeroBuffers (some (oneDevConfig "8"))) (by decide +kernel)
  obtain ⟨words, hwords, hmemory⟩ := Option.map_eq_some_iff.mp hview
  obtain ⟨job, plan, vmid, s₁, s₂, answers, i, hcreated, hbuild, hcommand, hinstance⟩ :=
    runCommandView_eq_some hwords
  refine ⟨pool, job, plan, vmid, s₁, s₂, answers, words, i, hload, hcreated, hbuild, hcommand, hinstance,
    fun hc => ?_⟩
  obtain ⟨sizes, _, hsum⟩ := hc.sizes
  rw [hmemory] at hsum
  cases hsum

end Ramryder.CreateConsistency
