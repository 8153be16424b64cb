import Ramryder.CreateCleanup
import Ramryder.CreatePlanSpec
import Ramryder.VmReport

/-! The whole of `attach-mem` of the admin CLI, from its arguments to the memory that the VM has gained:
the plan is made of what the server reports, and the loop carries it out. -/
namespace Ramryder.AttachCommand
open AttachPlan AttachRollback AttachRuns CInt CMachine CScan CText Cli ClientRequests CreateCleanup
  CreatePlan CreatePlanSpec CreateRequests CreateSteps Deliveries DeviceIdentity GuestAgents HotplugRange MemoryPool
  MemoryPoolSpec MemPoolTable Ownership PluggedMemory PoolCalls PoolConfig PoolImage PyText ResourceManager
  ResourceManagerSpec Runs SegmentBounds Shutdown TierChoice VmManager VmManagerSpec VmReport

/-! ### The command -/

/-- `attach-mem` as `argparse` hands it over. -/
structure AttachArgs where
  vmid : ℤ
  memory : Text
  channels : ℤ
  cxlMemory : Option Text
  cxlChannels : ℤ

/-- What is asked for. -/
structure AttachJob where
  localMemoryMb : ℤ
  localChannels : ℤ
  cxlMemoryMb : ℤ
  cxlChannels : ℤ
  deriving DecidableEq, Repr

/-- The part of `handle_attach_mem` before its first request. -/
def attachJob (args : AttachArgs) : Raises AttachJob := do
  raiseIf (args.cxlMemory.isNone ∧ args.cxlChannels ≠ 0)
    "--cxl-memory is required when --cxl-channels is set"
  let localMemoryMb ← orRaise (parseMemoryToMb args.memory)
  let cxlMemoryMb ← orRaise (cxlMemoryToMb args.cxlMemory)
  raiseIf (args.channels < 0) "--channels must be >= 0"
  raiseIf (args.cxlChannels < 0) "--cxl-channels must be >= 0"
  raiseIf (cxlMemoryMb = 0 ∧ 0 < args.cxlChannels)
    "--cxl-memory must be > 0 when --cxl-channels > 0"
  .ok ⟨localMemoryMb, args.channels, cxlMemoryMb, args.cxlChannels⟩

/-- The allocations, local ones first. -/
def attachAllocations (job : AttachJob) (vmid : ℤ) (poolNodes : List MemPoolNode)
    (existingNodes : List ℤ) : Raises (List (ℤ × ℤ)) := do
  raiseIf (existingNodes = [])
    s!"VM {vmid} has no allocated memory channels. Use --channels > 0 to add new channels."
  let localAllocations ← chooseAllocationsForTierAttach (tierNodes poolNodes 0) job.localMemoryMb
    job.localChannels existingNodes "local memory (DIMM)"
  let cxlAllocations ← chooseAllocationsForTierAttach (tierNodes poolNodes 1) job.cxlMemoryMb
    job.cxlChannels existingNodes "CXL memory"
  let allocations := localAllocations ++ cxlAllocations
  raiseIf (allocations = []) "no memory requested to attach"
  .ok allocations

def readPoolNodes (output : Text) : Raises (List MemPoolNode) :=
  match getMemPoolNodes output with
  | none => .error (.runtimeError "failed to parse nodes from get-mem-pool output")
  | some poolNodes => .ok poolNodes

/-- What becomes of the requests of a run: the first two, those of each channel, and those of the rollback. -/
structure AttachWorld where
  onPool : Delivery
  onVms : Delivery
  onAlloc : ℕ → Delivery
  onAttach : ℕ → Delivery
  onFree : ℤ → Delivery

def AttachWorld.channels (w : AttachWorld) (allocations : List (ℤ × ℤ)) : List Channel :=
  allocations.mapIdx fun n a => ⟨a.1, a.2, w.onAlloc n, w.onAttach n⟩

def handleAttachMem (w : AttachWorld) (args : AttachArgs) (s : Server) :
    Outcome (Raises Unit × AttachState) :=
  match attachJob args with
  | .error e => .ok (.error e, ⟨s, [], []⟩)
  | .ok job => do
    let (table, s) ← ask w.onPool s .getMemPool
    match table.bind readPoolNodes with
    | .error e => .ok (.error e, ⟨s, [], []⟩)
    | .ok poolNodes => do
      let (vms, s) ← ask w.onVms s .getVms
      match vms.bind fun out => attachAllocations job args.vmid poolNodes (getVmMemNodes out args.vmid) with
      | .error e => .ok (.error e, ⟨s, [], []⟩)
      | .ok allocations => handleAttach w.onFree args.vmid (w.channels allocations) s

/-! ### The loop that ends well -/

variable {v vmid : ℤ} {m₀ m m' : Manager} {st st' : AttachState} {devs : List MemoryDev} {ch : Channel}
  {chs : List Channel}

def backing (v : ℤ) (dev : MemoryDev) : Backing := ⟨v, dev.memdevIdx, dev.memoryReq⟩

/-- The loop has allocated these devices, and plugged in each of them with its own range. -/
structure Attached (v : ℤ) (m₀ : Manager) (st : AttachState) (devs : List MemoryDev) : Prop
    extends LoopState v m₀ st devs where
  backed : st.plugged = (devs.map (backing v)).reverse

/-- Step lemma of the loop that ends well. -/
theorem attachChannel_done (h : Attached (readBack vmid) m₀ st devs)
    (hturn : attachChannel vmid ch st = .ok (.ok (), st')) :
    ∃ dev, Attached (readBack vmid) m₀ st' (devs ++ [dev]) ∧
      placed dev = (readBack ch.nodeId, readBack ch.sizeMb) := by
  cases attachChannel_cases h.grown hturn with
  | added hgrant hgrown hplaced hread hok =>
    obtain ⟨b, hb⟩ := Option.isSome_iff_exists.mp (hok rfl)
    refine ⟨_, ⟨h.toLoopState.add hgrant hgrown, ?_⟩, hplaced⟩
    rw [hb, plugs_backing hgrown (by simp) hb, h.backed, List.map_append, List.map_singleton,
      List.reverse_append]
    rfl

/-- Run lemma: a loop that ends well has added one device for each channel. -/
theorem attachChannels_done (h : Attached (readBack vmid) m₀ st devs)
    (hrun : attachChannels vmid chs st = .ok (.ok (), st')) :
    ∃ added, Attached (readBack vmid) m₀ st' (devs ++ added) ∧
      added.map placed = chs.map fun ch => (readBack ch.nodeId, readBack ch.sizeMb) := by
  induction chs generalizing st devs with
  | nil =>
    cases hrun
    exact ⟨[], by rwa [List.append_nil], rfl⟩
  | cons ch chs ih =>
    obtain ⟨⟨res, st₁⟩, hturn, hrest⟩ := bind_eq_ok.mp hrun
    cases res with
    | error e => cases hrest
    | ok u =>
      obtain ⟨dev, h₁, hdev⟩ := attachChannel_done h hturn
      obtain ⟨added, hend, hadded⟩ := ih h₁ hrest
      refine ⟨dev :: added, ?_, ?_⟩
      · rwa [List.append_assoc, List.singleton_append] at hend
      · rw [List.map_cons, List.map_cons, hdev, hadded]

/-! ### The plan -/

variable {job : AttachJob} {args : AttachArgs} {nodes : List MemPoolNode} {existing : List ℤ}
  {allocations selected part : List (ℤ × ℤ)} {memoryMb channels : ℤ} {memoryName : String}

/-- What a tier gives: nothing where nothing is asked for. -/
structure TierShare (nodes : List MemPoolNode) (memoryMb channels : ℤ) (existing : List ℤ)
    (part : List (ℤ × ℤ)) : Prop where
  chosen : 0 < memoryMb → AttachChoice nodes memoryMb channels existing part
  none : memoryMb ≤ 0 → part = []

theorem TierShare.total (h : TierShare nodes memoryMb channels existing part) :
    (part.map Prod.snd).sum = max memoryMb 0 := by
  rcases lt_or_ge 0 memoryMb with hpos | hle
  · rw [(h.chosen hpos).total, max_eq_left hpos.le]
  · rw [h.none hle, max_eq_right hle]
    rfl

theorem TierShare.distinct (h : TierShare nodes memoryMb channels existing part) :
    (part.map Prod.fst).Nodup := by
  rcases lt_or_ge 0 memoryMb with hpos | hle
  · exact (h.chosen hpos).distinct
  · rw [h.none hle]
    exact List.nodup_nil

theorem TierShare.room (h : TierShare nodes memoryMb channels existing part) {e : ℤ × ℤ} (he : e ∈ part) :
    ∃ node ∈ nodes, node.nodeId = e.1 ∧ e.2 ≤ node.freeMb := by
  rcases lt_or_ge 0 memoryMb with hpos | hle
  · exact (h.chosen hpos).room e he
  · rw [h.none hle] at he
    cases he

theorem chooseAllocationsForTierAttach_share (hchannels : 0 ≤ channels)
    (h : chooseAllocationsForTierAttach nodes memoryMb channels existing memoryName = .ok selected) :
    TierShare nodes memoryMb channels existing selected := by
  refine ⟨fun hpos => attachChoice_of_ok hpos hchannels h, fun hle => ?_⟩
  rw [chooseAllocationsForTierAttach, if_pos hle] at h
  cases h
  rfl

/-- No share is empty. -/
theorem chooseAllocationsForTierAttach_pos (hchannels : 0 ≤ channels)
    (h : chooseAllocationsForTierAttach nodes memoryMb channels existing memoryName = .ok selected) :
    ∀ e ∈ selected, 0 < e.2 := by
  intro e he
  rw [chooseAllocationsForTierAttach] at h
  split_ifs at h
  · cases h
    cases he
  · obtain ⟨⟨sel, count⟩, hsel, h⟩ := bind_eq_ok.mp h
    obtain ⟨_, hfits, h⟩ := bind_eq_ok.mp h
    have hfits := not_lt.mp (raiseIf_eq_ok.mp hfits)
    have hsize := ((chooseAllocationsForTier_rooms h).2 e he).1
    rcases selectAttachNodes_cases nodes existing memoryName hchannels with
      ⟨⟨_, hraise⟩, _⟩ | ⟨_, hother, hpos, _⟩
    · rw [hraise] at hsel
      cases hsel
    · obtain ⟨_, rfl⟩ := Prod.mk.inj (Except.ok.inj (hother.symm.trans hsel))
      exact splitMemory_pos hpos hfits hsize

/-- What the arguments of a run that asks the server for anything fulfil. -/
theorem attachJob_ok (h : attachJob args = .ok job) : 0 ≤ job.localChannels ∧ 0 ≤ job.cxlChannels := by
  simp only [attachJob, bind_eq_ok, raiseIf_eq_ok, orRaise_eq_ok] at h
  obtain ⟨_, _, _, _, _, _, _, hlocal, _, hcxl, _, _, h⟩ := h
  cases h
  exact ⟨not_lt.mp hlocal, not_lt.mp hcxl⟩

/-- What the run asks the server for: shares of both tiers, none of them empty. -/
structure PlannedAttach (job : AttachJob) (nodes : List MemPoolNode) (existing : List ℤ)
    (localPart cxlPart : List (ℤ × ℤ)) : Prop where
  someNode : existing ≠ []
  localShare : TierShare (tierNodes nodes 0) job.localMemoryMb job.localChannels existing localPart
  cxlShare : TierShare (tierNodes nodes 1) job.cxlMemoryMb job.cxlChannels existing cxlPart
  nonempty : localPart ++ cxlPart ≠ []
  positive : ∀ e ∈ localPart ++ cxlPart, 0 < e.2

theorem attachAllocations_planned (hjob : attachJob args = .ok job)
    (h : attachAllocations job vmid nodes existing = .ok allocations) :
    ∃ localPart cxlPart, allocations = localPart ++ cxlPart ∧
      PlannedAttach job nodes existing localPart cxlPart := by
  obtain ⟨hlocalChannels, hcxlChannels⟩ := attachJob_ok hjob
  simp only [attachAllocations, bind_eq_ok, raiseIf_eq_ok] at h
  obtain ⟨_, hexisting, localPart, hlocal, cxlPart, hcxl, _, hsome, h⟩ := h
  cases h
  refine ⟨localPart, cxlPart, rfl, hexisting, chooseAllocationsForTierAttach_share hlocalChannels hlocal,
    chooseAllocationsForTierAttach_share hcxlChannels hcxl, hsome, fun e he => ?_⟩
  rcases List.mem_append.mp he with he | he
  · exact chooseAllocationsForTierAttach_pos hlocalChannels hlocal e he
  · exact chooseAllocationsForTierAttach_pos hcxlChannels hcxl e he

namespace PlannedAttach

variable {localPart cxlPart : List (ℤ × ℤ)}

theorem room (h : PlannedAttach job nodes existing localPart cxlPart) {e : ℤ × ℤ}
    (he : e ∈ localPart ++ cxlPart) : ∃ node ∈ nodes, node.nodeId = e.1 ∧ e.2 ≤ node.freeMb := by
  have hnode : ∀ {tier : ℤ}, (∃ node ∈ tierNodes nodes tier, node.nodeId = e.1 ∧ e.2 ≤ node.freeMb) →
      ∃ node ∈ nodes, node.nodeId = e.1 ∧ e.2 ≤ node.freeMb := fun ⟨node, hnode, hroom⟩ =>
    ⟨node, List.mem_of_mem_filter hnode, hroom⟩
  rcases List.mem_append.mp he with he | he
  · exact hnode (h.localShare.room he)
  · exact hnode (h.cxlShare.room he)

/-- No node is of both tiers. -/
theorem distinct (h : PlannedAttach job nodes existing localPart cxlPart)
    (hnodes : (nodes.map MemPoolNode.nodeId).Nodup) : ((localPart ++ cxlPart).map Prod.fst).Nodup := by
  rw [List.map_append, List.nodup_append]
  refine ⟨h.localShare.distinct, h.cxlShare.distinct, fun n hn n' hn' hsame => ?_⟩
  obtain ⟨e, he, rfl⟩ := List.mem_map.mp hn
  obtain ⟨e', he', rfl⟩ := List.mem_map.mp hn'
  obtain ⟨node, hnode, hid, _⟩ := h.localShare.room he
  obtain ⟨node', hnode', hid', _⟩ := h.cxlShare.room he'
  obtain ⟨hmem, htier⟩ := List.mem_filter.mp hnode
  obtain ⟨hmem', htier'⟩ := List.mem_filter.mp hnode'
  have hone : node = node' := List.inj_on_of_nodup_map hnodes hmem hmem'
    (hid.trans (hsame.trans hid'.symm))
  rw [hone] at htier
  have hzero : node'.tierId = 0 := by simpa using htier
  have hone : node'.tierId = 1 := by simpa using htier'
  rw [hzero] at hone
  cases hone

end PlannedAttach

/-! ### The run -/

/-- What a run that ends well has done: the VM has these devices more, and no other VM has changed; they
are what was asked for, tier by tier, each on a node of its own; and each is plugged in with its range. -/
structure AttachDone (job : AttachJob) (v : ℤ) (m₀ : Manager) (st : AttachState)
    (devs : List MemoryDev) : Prop where
  grown : Grown v m₀ st.server.mngr devs
  planned : ∃ localPart cxlPart, devs.map placed = localPart ++ cxlPart ∧
    PlannedAttach job (poolNodes m₀.pool) (sortedSet (liveNodes m₀ v)) localPart cxlPart
  total : (devs.map fun dev => dev.memoryReq.sizeMb).sum = max job.localMemoryMb 0 + max job.cxlMemoryMb 0
  nodes : (devs.map fun dev => dev.memoryReq.nodeId).Nodup
  backed : st.plugged = (devs.map (backing v)).reverse
  memids : st.memids = devs.map MemoryDev.memdevIdx

variable {w : AttachWorld} {s s' : Server} {pool : Pool} {stack : Text} {result : Raises Unit} {e : CliError}

theorem poolNodes_nodup (hg : PoolGeometry pool) : ((poolNodes pool).map MemPoolNode.nodeId).Nodup := by
  rw [poolNodes, List.map_map]
  refine List.Nodup.map_on (fun i hi j hj hij => ?_) List.nodup_range
  have hnode : ∀ k ∈ List.range pool.numDevs, (deviceNode pool k).nodeId = k :=
    fun k hk => hg.node k (List.mem_range.mp hk)
  have hij : (deviceNode pool i).nodeId = (deviceNode pool j).nodeId := hij
  rw [hnode i hi, hnode j hj] at hij
  exact_mod_cast hij

/-- The server reads the entries of a plan of the pool's own nodes as they are meant. -/
theorem PlannedAttach.read {localPart cxlPart : List (ℤ × ℤ)} (hm : Kept m₀)
    (h : PlannedAttach job (poolNodes m₀.pool) existing localPart cxlPart) :
    (localPart ++ cxlPart).map (fun a => (readBack a.1, readBack a.2)) = localPart ++ cxlPart := by
  refine (List.map_congr_left fun a ha => ?_).trans (List.map_id _)
  obtain ⟨node, hnode, hid, hroom⟩ := h.room ha
  obtain ⟨k, hk, rfl⟩ := List.mem_map.mp hnode
  have hk := List.mem_range.mp hk
  have hg := hm.owns.geometry
  have hpos := h.positive a ha
  have hnum := hg.numDevs
  have hsize := (hg.size k hk).2
  have hfree := freeMb_le hg hk (hm.accounted k hk)
  have hnodeId : a.1 = k := hid.symm.trans (hg.node k hk)
  have hfits : InInt a.1 ∧ InInt a.2 := by
    simp only [InInt, intMin, intMax, maxDevices] at *
    omega
  rw [readBack_of_inInt hfits.1, readBack_of_inInt hfits.2]
  rfl

theorem handleAttach_done {onFree : ℤ → Delivery} {plan : List Channel} (hm : Kept s.mngr)
    (h : handleAttach onFree vmid plan s = .ok (.ok (), st)) :
    ∃ devs, Attached (readBack vmid) s.mngr st devs ∧
      devs.map placed = plan.map fun ch => (readBack ch.nodeId, readBack ch.sizeMb) := by
  obtain ⟨⟨result, st₁⟩, hrun, hrest⟩ := bind_eq_ok.mp h
  have hstart : Attached (readBack vmid) s.mngr ⟨s, [], []⟩ [] :=
    ⟨⟨.start hm, fun h => absurd rfl h, rfl, by simp⟩, rfl⟩
  cases result with
  | error e =>
    obtain ⟨_, _, hend⟩ := bind_eq_ok.mp hrest
    cases hend
  | ok u =>
    cases hrest
    obtain ⟨devs, hdone, hplaced⟩ := attachChannels_done hstart hrun
    exact ⟨devs, by rwa [List.nil_append] at hdone, hplaced⟩

theorem channels_read (w : AttachWorld) (allocations : List (ℤ × ℤ)) :
    (w.channels allocations).map (fun ch => (readBack ch.nodeId, readBack ch.sizeMb)) =
      allocations.map fun a => (readBack a.1, readBack a.2) := by
  refine List.ext_getElem (by simp [AttachWorld.channels]) fun n _ _ => ?_
  simp [AttachWorld.channels]

/-- A table that can be read gives the devices of the pool. -/
theorem readPoolNodes_decoded {d : Delivery} {table : Raises Text} (hpool : DecodesPool s.mngr)
    (h : ask d s .getMemPool = .ok (table, s')) (hread : table.bind readPoolNodes = .ok nodes) :
    nodes = poolNodes s.mngr.pool := by
  obtain ⟨out, rfl, hnodes⟩ := bind_eq_ok.mp hread
  have hsome : out ≠ [] := by
    rintro rfl
    cases hnodes
  obtain ⟨env, response, hserve, rfl⟩ := ask_answered h hsome
  obtain ⟨other, hother, hdecoded⟩ := hpool
  obtain rfl : other = response := Except.ok.inj (hother.symm.trans (served_getMemPool hserve).2)
  rw [readPoolNodes, hdecoded] at hnodes
  exact (Except.ok.inj hnodes).symm

/-- The CLI decodes the nodes of a VM. -/
def ReportsNodes (m : Manager) (vmid : ℤ) : Prop :=
  ∃ response, rpcHandleGetVms m = .ok response ∧
    getVmMemNodes (clientText response) vmid = sortedSet (liveNodes m vmid)

theorem getVmMemNodes_decoded {d : Delivery} {out : Text} (hvms : ReportsNodes s.mngr vmid)
    (h : ask d s .getVms = .ok (.ok out, s')) (hnodes : getVmMemNodes out vmid ≠ []) :
    getVmMemNodes out vmid = sortedSet (liveNodes s.mngr vmid) := by
  have hsome : out ≠ [] := by
    rintro rfl
    exact hnodes rfl
  obtain ⟨env, response, hserve, rfl⟩ := ask_answered h hsome
  obtain ⟨other, hother, hdecoded⟩ := hvms
  obtain rfl : other = response := Except.ok.inj (hother.symm.trans (served_getVms hserve).2)
  exact hdecoded

/-- What a run that raises has left to the VM: devices whose `free-mem` was not served, and one of an
`alloc-mem` whose answer was not read. -/
structure AttachLeft (w : AttachWorld) (v : ℤ) (m₀ m : Manager) (left lost : List MemoryDev) : Prop where
  grown : Grown v m₀ m (left ++ lost)
  unserved : ∀ dev ∈ left, (w.onFree dev.memdevIdx).served = none
  unread : lost = [] ∨ ∃ dev n, lost = [dev] ∧ (w.onAlloc n).unread = true

theorem AttachLeft.nothing (hm : Kept m) (hsame : s.mngr = m) : AttachLeft w v m s.mngr [] [] :=
  ⟨by rw [hsame]; exact .start hm, by simp, .inl rfl⟩

/-- Where every answer to an `alloc-mem` is read and every `free-mem` is served, nothing is left. -/
theorem AttachLeft.undone {left lost : List MemoryDev} (h : AttachLeft w v m₀ m left lost) (hm : Kept m₀)
    (hread : ∀ n, (w.onAlloc n).unread = false) (hserved : ∀ memid, (w.onFree memid).served ≠ none) :
    m.pool = m₀.pool ∧ SameLists m₀ m := by
  have hleft : left = [] := List.eq_nil_iff_forall_not_mem.mpr fun dev hdev =>
    hserved dev.memdevIdx (h.unserved dev hdev)
  have hlost : lost = [] := by
    rcases h.unread with hnil | ⟨_, n, _, hunread⟩
    · exact hnil
    · rw [hread n] at hunread
      cases hunread
  have hgrown := h.grown
  rw [hleft, hlost, List.append_nil] at hgrown
  exact ⟨hgrown.sameLists.pool_eq hm hgrown.kept hgrown.frame, hgrown.sameLists⟩

theorem handleAttach_error {allocations : List (ℤ × ℤ)} (hm : Kept s.mngr)
    (h : handleAttach w.onFree vmid (w.channels allocations) s = .ok (.error e, st)) :
    ∃ left lost, AttachLeft w (readBack vmid) s.mngr st.server.mngr left lost := by
  obtain ⟨devs, lost, hgrown, hlost⟩ := handleAttach_left hm h
  refine ⟨unfreed w.onFree devs, lost, hgrown, fun dev hdev => ?_, hlost.imp_right ?_⟩
  · simpa using (List.mem_filter.mp hdev).2
  · rintro ⟨dev, rfl, ch, hch, hunread⟩
    obtain ⟨n, hn, rfl⟩ := List.mem_mapIdx.mp hch
    exact ⟨dev, n, rfl, hunread⟩

/-- A run that raises has left to the VM what it could not undo, and nothing else. -/
theorem handleAttachMem_error (hm : Kept s.mngr) (hrun : handleAttachMem w args s = .ok (.error e, st)) :
    ∃ left lost, AttachLeft w (readBack args.vmid) s.mngr st.server.mngr left lost := by
  unfold handleAttachMem at hrun
  split at hrun
  · cases hrun
    exact ⟨[], [], .nothing hm rfl⟩
  obtain ⟨⟨table, s₁⟩, htable, hrun⟩ := bind_eq_ok.mp hrun
  have hs₁ := ask_getMemPool htable
  dsimp only at hrun
  split at hrun
  · cases hrun
    exact ⟨[], [], .nothing hm hs₁⟩
  obtain ⟨⟨vms, s₂⟩, hvms, hrun⟩ := bind_eq_ok.mp hrun
  have hs₂ : s₂.mngr = s.mngr := (ask_getVms hvms).trans hs₁
  dsimp only at hrun
  split at hrun
  · cases hrun
    exact ⟨[], [], .nothing hm hs₂⟩
  · have hleft := handleAttach_error (hs₂ ▸ hm) hrun
    rwa [hs₂] at hleft

/-- A run that ends well had a plan, and its loop has carried it out. -/
theorem handleAttachMem_ok (hm : Kept s.mngr) (hrun : handleAttachMem w args s = .ok (.ok (), st)) :
    ∃ job table s₁ nodes out s₂ localPart cxlPart devs, attachJob args = .ok job ∧
      ask w.onPool s .getMemPool = .ok (table, s₁) ∧ table.bind readPoolNodes = .ok nodes ∧
      ask w.onVms s₁ .getVms = .ok (.ok out, s₂) ∧ s₁.mngr = s.mngr ∧
      PlannedAttach job nodes (getVmMemNodes out args.vmid) localPart cxlPart ∧
      Attached (readBack args.vmid) s.mngr st devs ∧
      devs.map placed = (localPart ++ cxlPart).map fun a => (readBack a.1, readBack a.2) := by
  unfold handleAttachMem at hrun
  split at hrun
  · cases hrun
  rename_i job hjob
  obtain ⟨⟨table, s₁⟩, htable, hrun⟩ := bind_eq_ok.mp hrun
  have hs₁ := ask_getMemPool htable
  dsimp only at hrun
  split at hrun
  · cases hrun
  rename_i nodes hnodes
  obtain ⟨⟨vms, s₂⟩, hvms, hrun⟩ := bind_eq_ok.mp hrun
  have hs₂ : s₂.mngr = s.mngr := (ask_getVms hvms).trans hs₁
  dsimp only at hrun
  split at hrun
  · cases hrun
  rename_i allocations hallocations
  obtain ⟨out, rfl, hplan⟩ := bind_eq_ok.mp hallocations
  obtain ⟨localPart, cxlPart, rfl, hplanned⟩ := attachAllocations_planned hjob hplan
  obtain ⟨devs, hdone, hplaced⟩ := handleAttach_done (hs₂ ▸ hm) hrun
  rw [channels_read] at hplaced
  rw [hs₂] at hdone
  exact ⟨job, table, s₁, nodes, out, s₂, localPart, cxlPart, devs, hjob, htable, hnodes, hvms, hs₁,
    hplanned, hdone, hplaced⟩

/-- A QEMU that plugs in what it is told. -/
def pluggingEnv : ServerEnv := { silentEnv with qmp := willingQmp }

def pluggingWorld : AttachWorld where
  onPool := .answered silentEnv
  onVms := .answered silentEnv
  onAlloc := fun _ => .answered silentEnv
  onAttach := fun _ => .answered pluggingEnv
  onFree := fun _ => .answered silentEnv

/-- 4 MB for VM 0 on one channel that it does not have. -/
def moreChannels : AttachArgs := ⟨0, "4M".toList, 1, none, 0⟩

/-- The VM has memory on the first of two nodes. -/
def oneChannelVm : List (ServerEnv × Text) :=
  [(silentEnv, "create-vm vid=0 coreset=[0]".toList), (silentEnv, "alloc-mem nid=0 vid=0 size=4".toList)]

theorem moreChannels_run : ∃ pool s st,
    memoryPoolInit zeroBuffers (some (twoDevConfig "/dev/dax0.0" "/dev/dax1.0")) = .ok (some pool) ∧
      run serverStep (initialServer pool []) oneChannelVm = .ok s ∧
      handleAttachMem pluggingWorld moreChannels s = .ok (.ok (), st) ∧
      DecodesPool s.mngr ∧ ReportsNodes s.mngr 0 ∧ st.memids = [1] ∧
      st.plugged = [⟨0, 1, ⟨1, "/dev/dax1.0".toList, 0, 4, 4⟩⟩] := by
  obtain ⟨pool, hload, hview⟩ := exists_of_view
    (f := fun pool => (run serverStep (initialServer pool []) oneChannelVm).toOption.bind fun s : Server =>
      (handleAttachMem pluggingWorld moreChannels s).toOption.bind fun r : Raises Unit × AttachState =>
      (rpcHandleGetMemPool s.mngr).toOption.bind fun table : Text =>
      (rpcHandleGetVms s.mngr).toOption.map fun list : Text => decide (r.1.isOk = true ∧
        getMemPoolNodes (clientText table) = some (poolNodes s.mngr.pool) ∧
        getVmMemNodes (clientText list) 0 = sortedSet (liveNodes s.mngr 0) ∧ r.2.memids = [1] ∧
        r.2.plugged = [⟨0, 1, ⟨1, "/dev/dax1.0".toList, 0, 4, 4⟩⟩]))
    (b := some true)
    (x := memoryPoolInit zeroBuffers (some (twoDevConfig "/dev/dax0.0" "/dev/dax1.0")))
    (by decide +kernel)
  obtain ⟨s, hrun, hview⟩ := of_toOption_bind hview
  obtain ⟨⟨result, st⟩, hattach, hview⟩ := of_toOption_bind hview
  obtain ⟨table, htable, hview⟩ := of_toOption_bind hview
  obtain ⟨list, hlist, hview⟩ := Option.map_eq_some_iff.mp hview
  have hlist := ok_of_toOption hlist
  obtain ⟨hended, hnodes, hvms, hmemids, hplugged⟩ := of_decide_eq_true hview
  cases result with
  | ok u =>
    exact ⟨pool, s, st, hload, hrun, hattach, ⟨table, htable, hnodes⟩, ⟨list, hlist, hvms⟩, hmemids, hplugged⟩
  | error e => cases hended

end Ramryder.AttachCommand
