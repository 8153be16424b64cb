import Ramryder.CpuSet
import Ramryder.VmDump

/-! What the CLI knows of the VMs: which ids and which nodes come through the list the manager
prints. -/
namespace Ramryder.VmReport
open CInt Cli CMachine CText CpuSet GuestAgents Lifecycle MemPoolTable MemoryPool Ownership
  PoolConfig PyText ResourceManager Runs VmDump VmManager VmManagerSpec

variable {m : Manager} {pool : Pool} {n : ℕ}

/-! ### The whole list -/

/-- The nodes that are read from the first `n` bytes of the lines of some devices. -/
def shownNodes : List MemoryDev → ℕ → List ℤ
  | [], _ => []
  | dev :: devs, n =>
    (if (nodeStart dev).length ≤ n then [dev.memoryReq.nodeId] else []) ++
      spelled (dev.memoryReq.devPath.take (n - (pathStart dev).length)) ++
      shownNodes devs (n - (memdevLine dev).length)

/-- What is read of a slot from the first `n` bytes of its lines. -/
def slotBlocks (m : Manager) (i : Fin maxNumVm) (n : ℕ) : List (Text × List ℤ) :=
  if (m.vms i).initialized = true ∧ 6 ≤ n then
    [(strip ((vmBody (m.vms i)).take n),
      shownNodes (m.vms i).attachedDevs (n - (vmLine (m.vms i)).length))]
  else []

/-- What the list prints: core sets, and devices whose node is one digit. -/
structure Printable (m : Manager) : Prop where
  coreSet : ∀ i, (m.vms i).initialized = true → Plain (m.vms i).coreSet
  node : ∀ i dev, LiveDev m i dev → (decimal dev.memoryReq.nodeId).length = 1
  path : ∀ i dev, LiveDev m i dev → ' ' ∉ dev.memoryReq.devPath

theorem read_devs {devs : List MemoryDev}
    (h : ∀ dev ∈ devs, (decimal dev.memoryReq.nodeId).length = 1 ∧ ' ' ∉ dev.memoryReq.devPath)
    (n : ℕ) : readRecords lineEvent (devs.map memdevLine) n = (shownNodes devs n).map .node := by
  induction devs generalizing n with
  | nil => rfl
  | cons dev devs ih =>
    obtain ⟨hdigit, hpath⟩ := h dev List.mem_cons_self
    rw [List.map_cons, readRecords, read_memdevLine hdigit hpath,
      ih fun d hd => h d (List.mem_cons_of_mem dev hd), shownNodes, List.map_append, List.map_append,
      List.map_append]

theorem shownNodes_zero (devs : List MemoryDev) : shownNodes devs 0 = [] := by
  induction devs with
  | nil => rfl
  | cons dev devs ih =>
    have hpos := nodeStart_pos dev
    rw [shownNodes, if_neg (by omega), Nat.zero_sub, List.take_zero, spelled_nil, Nat.zero_sub, ih]
    rfl

theorem vmStart_length (vm : VmInstance) : (vmStart vm).length = 6 + (decimal vm.vmId).length := by
  have hlen : "VM id=".toList.length = 6 := by rfl
  rw [vmStart_eq, List.length_append, hlen]

theorem vmLine_length (vm : VmInstance) :
    (vmLine vm).length = (vmBody vm).length + 1 ∧ (vmStart vm).length ≤ (vmBody vm).length := by
  constructor
  · rw [vmLine_eq, ← vmBody, List.length_append, List.length_singleton]
  · rw [vmBody, List.length_append]
    exact Nat.le_add_right _ _

theorem read_slot (hp : Printable m) (i : Fin maxNumVm) (n : ℕ) :
    readRecords lineEvent (slotLines m i) n = (slotBlocks m i n).flatMap blockEvents := by
  by_cases hinit : (m.vms i).initialized = true
  · have hdevs := @read_devs (m.vms i).attachedDevs fun dev hdev =>
      ⟨hp.node i dev ⟨hinit, hdev⟩, hp.path i dev ⟨hinit, hdev⟩⟩
    rw [slotLines, if_pos hinit, readRecords, read_vmLine (hp.coreSet i hinit), hdevs, slotBlocks]
    by_cases hn : n < 6
    · have hlen := vmLine_length (m.vms i)
      have hstart := vmStart_length (m.vms i)
      rw [if_pos hn, if_neg (by omega), Nat.sub_eq_zero_of_le (by omega), shownNodes_zero]
      rfl
    · rw [if_neg hn, if_pos ⟨hinit, by omega⟩, List.flatMap_cons, List.flatMap_nil, List.append_nil]
      rfl
  · rw [slotLines, if_neg hinit, slotBlocks, if_neg fun h => hinit h.1]
    rfl

/-- What is printed before the lines of a slot. -/
def dumpBefore (m : Manager) (i : Fin maxNumVm) : Text :=
  countLine m ++ (((List.finRange maxNumVm).take i).flatMap (slotLines m)).flatten

/-- The bytes of the buffer that are left for a slot. -/
def bytesLeft (m : Manager) (i : Fin maxNumVm) : ℕ := bufferSize - 1 - (dumpBefore m i).length

theorem read_slots (hp : Printable m) (n : ℕ) {is : List (Fin maxNumVm)} {done : List (Fin maxNumVm)}
    (h : done ++ is = List.finRange maxNumVm) :
    readRecords lineEvent (is.flatMap (slotLines m)) (n - (done.flatMap (slotLines m)).flatten.length) =
      (is.flatMap fun i => slotBlocks m i
        (n - (((List.finRange maxNumVm).take i).flatMap (slotLines m)).flatten.length)).flatMap
          blockEvents := by
  induction is generalizing done with
  | nil => rfl
  | cons i is ih =>
    have hdone : (List.finRange maxNumVm).take i = done := by
      have hlen : done.length < (List.finRange maxNumVm).length := by
        rw [← h, List.length_append, List.length_cons]
        omega
      have hi : (List.finRange maxNumVm)[done.length] = i := by
        simp only [← h]
        simp
      rw [List.getElem_finRange] at hi
      have hval : done.length = i.val := by rw [← hi]; rfl
      rw [← h, ← hval, List.take_left]
    have hrest := @ih (done ++ [i]) (by rw [List.append_assoc, List.singleton_append, h])
    rw [List.flatMap_append, List.flatMap_cons, List.flatMap_nil, List.append_nil, List.flatten_append,
      List.length_append, ← Nat.sub_sub] at hrest
    rw [List.flatMap_cons, readRecords_append, read_slot hp, hrest, List.flatMap_cons,
      List.flatMap_append, hdone]

/-- The blocks of all slots. -/
def allBlocks (m : Manager) : List (Text × List ℤ) :=
  (List.finRange maxNumVm).flatMap fun i => slotBlocks m i (bytesLeft m i)

theorem lineEvent_countLine (m : Manager) (n : ℕ) :
    readLines lineEvent (decode ((countLine m).take n)) = [] := by
  have hv : ∀ k : ℕ, k < 9 → (lineEvent ("VM Count:".toList.take k)).isNone = true := by decide
  have hlen : "VM Count:".toList.length = 9 := by rfl
  have hplain : Plain ("VM Count:".toList ++ ' ' :: decimal m.count) :=
    (plain_word (by rfl)).append (plain_cons (by decide) (plain_decimal _))
  rw [countLine_eq, List.cons_append, ← List.cons_append, ← List.append_assoc,
    readLines_cut lineEvent_nil hplain]
  by_cases hn : n < 9
  · rw [List.take_append_of_le_length (by omega), Option.isNone_iff_eq_none.mp (hv n hn)]
    rfl
  · rw [List.take_append, List.take_of_length_le (by omega)]
    obtain ⟨b, hb⟩ := strip_append (a := "VM Count:".toList) (by simp) (by simp [isWhitespace])
      (by simp [isWhitespace]) ((' ' :: decimal m.count).take (n - "VM Count:".toList.length))
    have hcount : "VM Count:".toList = "VM ".toList ++ 'C' :: "ount:".toList := by rfl
    have hid : "VM id=".toList = "VM ".toList ++ 'i' :: "d=".toList := by rfl
    have hvm : ¬ "VM id=".toList <+: "VM Count:".toList ++ b := by
      rw [hcount, hid, List.append_assoc, List.prefix_append_right_inj]
      rintro ⟨r, hr⟩
      exact absurd (List.cons.inj hr).1 (by decide)
    have hkey : ¬ "memdev=".toList <+: "VM Count:".toList ++ b := by
      rintro ⟨r, hr⟩
      exact absurd (List.cons.inj hr).1 (by decide)
    rw [lineEvent, hb, if_neg hvm, if_neg hkey]
    rfl

theorem slotLines_end {r : Text} {i : Fin maxNumVm} (h : r ∈ slotLines m i) :
    ∃ body, r = body ++ ['\n'] := by
  rw [slotLines] at h
  split_ifs at h with hinit
  · rcases List.mem_cons.mp h with rfl | h
    · exact ⟨_, vmLine_eq _⟩
    · obtain ⟨dev, _, rfl⟩ := List.mem_map.mp h
      exact ⟨_, memdevLine_eq dev⟩
  · cases h

/-- What the CLI reads of the list of the VMs. -/
theorem read_fullDump (hp : Printable m) :
    readLines lineEvent (clientText ((fullDump m).take (bufferSize - 1))) =
      (allBlocks m).flatMap blockEvents := by
  have hends : ∀ r ∈ countLine m :: (List.finRange maxNumVm).flatMap (slotLines m),
      ∃ body, r = body ++ ['\n'] := by
    intro r hr
    rcases List.mem_cons.mp hr with rfl | hr
    · exact ⟨_, by rw [countLine_eq, List.append_assoc]⟩
    · obtain ⟨i, _, hr⟩ := List.mem_flatMap.mp hr
      exact slotLines_end hr
  have hslots := @read_slots m hp (bufferSize - 1 - (countLine m).length) (List.finRange maxNumVm) []
    rfl
  have hleft : ∀ i : Fin maxNumVm, bufferSize - 1 - (countLine m).length -
      (((List.finRange maxNumVm).take i).flatMap (slotLines m)).flatten.length = bytesLeft m i := by
    intro i
    rw [bytesLeft, dumpBefore, List.length_append, Nat.sub_sub]
  simp only [hleft] at hslots
  have hfull : fullDump m = (countLine m :: (List.finRange maxNumVm).flatMap (slotLines m)).flatten := by
    rw [fullDump, List.flatten_cons]
  rw [clientText, readLines_strip lineEvent_strip lineEvent_nil, hfull,
    readLines_records lineEvent_nil hends, readRecords, lineEvent_countLine, List.nil_append]
  exact hslots

theorem allBlocks_empty (h : ∀ i, (m.vms i).initialized = false) : allBlocks m = [] := by
  rw [allBlocks, List.flatMap_eq_nil_iff]
  intro i _
  rw [slotBlocks, if_neg]
  simp [h i]

/-- The response, and what the CLI reads of it. -/
theorem read_getVms (hp : Printable m) (hl : Consistent m) : ∃ response,
    rpcHandleGetVms m = .ok response ∧
      readLines lineEvent (clientText response) = (allBlocks m).flatMap blockEvents := by
  by_cases hcount : m.count = 0
  · have hnone : ∀ i, (m.vms i).initialized = false := by
      intro i
      have hempty : (initializedSlots m).card = 0 := by
        have := hl.count
        omega
      by_contra hinit
      have hmem : i ∈ initializedSlots m := by simpa [initializedSlots] using hinit
      rw [Finset.card_eq_zero.mp hempty] at hmem
      simp at hmem
    refine ⟨_, rpcHandleGetVms_none hcount, ?_⟩
    have hread : (readLines lineEvent (clientText "VM Count: 0\nNo VM created.\n".toList)).isEmpty = true := by
      rfl
    rw [List.isEmpty_iff.mp hread, allBlocks_empty hnone]
    rfl
  · exact ⟨_, rpcHandleGetVms_eq hl hcount, read_fullDump hp⟩

/-! ### Which lists come through -/

/-- The id of the VM in slot `i` is inside the response. -/
def IdPrinted (m : Manager) (i : Fin maxNumVm) : Prop :=
  (dumpBefore m i ++ vmStart (m.vms i)).length < bufferSize

/-- What is printed before the line of device `j` of the VM in slot `i`. -/
def devBefore (m : Manager) (i : Fin maxNumVm) (j : ℕ) : Text :=
  dumpBefore m i ++ vmLine (m.vms i) ++ (((m.vms i).attachedDevs.take j).map memdevLine).flatten

/-- A device of the VM in slot `i` is on this node, and its line is inside the response as far as
the node. -/
def NodePrinted (m : Manager) (i : Fin maxNumVm) (n : ℤ) : Prop :=
  ∃ (j : ℕ) (dev : MemoryDev), (m.vms i).attachedDevs[j]? = some dev ∧ dev.memoryReq.nodeId = n ∧
    (devBefore m i j ++ nodeStart dev).length < bufferSize

/-- The part of a path inside the response spells a line with this node. -/
def NodeSpelled (m : Manager) (i : Fin maxNumVm) (n : ℤ) : Prop :=
  ∃ (j : ℕ) (dev : MemoryDev), (m.vms i).attachedDevs[j]? = some dev ∧
    n ∈ spelled (dev.memoryReq.devPath.take
      (bufferSize - 1 - (devBefore m i j ++ pathStart dev).length))

/-- Every id is inside the response, every node of a VM is shown there, and no path spells
another node. -/
structure ListReadable (m : Manager) : Prop where
  ids : ∀ i, (m.vms i).initialized = true → IdPrinted m i
  nodes : ∀ i dev, LiveDev m i dev →
    NodePrinted m i dev.memoryReq.nodeId ∨ NodeSpelled m i dev.memoryReq.nodeId
  paths : ∀ i n, (m.vms i).initialized = true → NodeSpelled m i n →
    ∃ dev, LiveDev m i dev ∧ dev.memoryReq.nodeId = n

/-- The ids of the initialized VMs. -/
def registeredIds (m : Manager) : List ℤ :=
  ((List.finRange maxNumVm).filter fun i => (m.vms i).initialized).map fun i => (m.vms i).vmId

/-- The nodes on which a VM has a device. -/
def liveNodes (m : Manager) (vmId : ℤ) : List ℤ :=
  match vmMngrGetInstance m vmId with
  | some i => (m.vms i).attachedDevs.map fun dev => dev.memoryReq.nodeId
  | none => []

/-- The CLI decodes the list of the VMs: their ids, and the nodes of each. -/
def ReportsExactly (m : Manager) : Prop :=
  ∃ response, rpcHandleGetVms m = .ok response ∧
    getUsedVmIds (clientText response) = sortedSet (registeredIds m) ∧
    selectVmid (getUsedVmIds (clientText response)) ∉ registeredIds m ∧
    ∀ vmId, getVmMemNodes (clientText response) vmId = sortedSet (liveNodes m vmId)

theorem mem_registeredIds {v : ℤ} :
    v ∈ registeredIds m ↔ ∃ i, (m.vms i).initialized = true ∧ (m.vms i).vmId = v := by
  simp [registeredIds]

/-- The loop ends at an id that is not used, or has seen as many used ids as it has turns. -/
theorem firstUnused_spec (used : List ℤ) (n : ℕ) (v : ℤ) :
    firstUnused used n v ∉ used ∨ ∀ k : ℕ, k ≤ n → v + k ∈ used := by
  induction n generalizing v with
  | zero =>
    by_cases hv : v ∈ used
    · refine .inr fun k hk => ?_
      obtain rfl : k = 0 := by omega
      simpa using hv
    · exact .inl hv
  | succ n ih =>
    rw [firstUnused]
    split_ifs with hv
    · rcases ih (v + 1) with h | h
      · exact .inl h
      · refine .inr fun k hk => ?_
        cases k with
        | zero => simpa using hv
        | succ k =>
          have := h k (by omega)
          rwa [add_assoc, add_comm (1 : ℤ)] at this
    · exact .inl hv

theorem selectVmid_unused (used : List ℤ) : selectVmid used ∉ used := by
  refine (firstUnused_spec used used.length 0).resolve_right fun hall => ?_
  have hsub : (List.range (used.length + 1)).map (fun k : ℕ => (k : ℤ)) ⊆ used := by
    intro v hv
    obtain ⟨k, hk, rfl⟩ := List.mem_map.mp hv
    have := hall k (by have := List.mem_range.mp hk; omega)
    rwa [zero_add] at this
  have hnodup : ((List.range (used.length + 1)).map fun k : ℕ => (k : ℤ)).Nodup :=
    List.nodup_range.map Nat.cast_injective
  have hlen := (hnodup.subperm hsub).length_le
  rw [List.length_map, List.length_range] at hlen
  omega

theorem mem_shownNodes {devs : List MemoryDev} {b : ℕ} {v : ℤ} :
    v ∈ shownNodes devs b ↔ ∃ j dev, devs[j]? = some dev ∧
      (dev.memoryReq.nodeId = v ∧
          ((devs.take j).map memdevLine).flatten.length + (nodeStart dev).length ≤ b ∨
        v ∈ spelled (dev.memoryReq.devPath.take
          (b - (((devs.take j).map memdevLine).flatten.length + (pathStart dev).length)))) := by
  induction devs generalizing b with
  | nil => simp [shownNodes]
  | cons dev devs ih =>
    have hhere : v ∈ (if (nodeStart dev).length ≤ b then [dev.memoryReq.nodeId] else []) ↔
        dev.memoryReq.nodeId = v ∧ (nodeStart dev).length ≤ b := by
      split_ifs with h
      · simp [h, eq_comm]
      · simp [h]
    rw [shownNodes, List.mem_append, List.mem_append, hhere, ih]
    constructor
    · rintro (h | ⟨j, d, hd, h⟩)
      · refine ⟨0, dev, rfl, ?_⟩
        simpa using h
      · refine ⟨j + 1, d, hd, ?_⟩
        rw [List.take_succ_cons, List.map_cons, List.flatten_cons, List.length_append]
        rcases h with ⟨hnode, hle⟩ | h
        · have hpos : 0 < (nodeStart d).length := by simp [nodeStart]
          exact .inl ⟨hnode, by omega⟩
        · rw [Nat.sub_sub, ← Nat.add_assoc] at h
          exact .inr h
    · rintro ⟨j, d, hd, h⟩
      cases j with
      | zero =>
        obtain rfl : dev = d := Option.some.inj hd
        exact .inl (by simpa using h)
      | succ j =>
        refine .inr ⟨j, d, hd, ?_⟩
        rw [List.take_succ_cons, List.map_cons, List.flatten_cons, List.length_append] at h
        rcases h with ⟨hnode, hle⟩ | h
        · exact .inl ⟨hnode, by omega⟩
        · rw [Nat.add_assoc, ← Nat.sub_sub] at h
          exact .inr h

theorem mem_allBlocks {block : Text × List ℤ} :
    block ∈ allBlocks m ↔ ∃ i, (m.vms i).initialized = true ∧ 6 ≤ bytesLeft m i ∧
      block = (strip ((vmBody (m.vms i)).take (bytesLeft m i)),
        shownNodes (m.vms i).attachedDevs (bytesLeft m i - (vmLine (m.vms i)).length)) := by
  simp only [allBlocks, List.mem_flatMap, List.mem_finRange, true_and]
  refine exists_congr fun i => ?_
  rw [slotBlocks]
  split_ifs with h
  · simp [h]
  · simp only [List.not_mem_nil, false_iff]
    rintro ⟨h1, h2, _⟩
    exact h ⟨h1, h2⟩

theorem idPrinted_iff {i : Fin maxNumVm} :
    IdPrinted m i ↔ (vmStart (m.vms i)).length ≤ bytesLeft m i := by
  have hpos := vmStart_length (m.vms i)
  rw [IdPrinted, bytesLeft, List.length_append]
  omega

/-- The nodes read for a VM are those printed or spelled in its own lines. -/
theorem shown_iff {i : Fin maxNumVm} {v : ℤ} :
    v ∈ shownNodes (m.vms i).attachedDevs (bytesLeft m i - (vmLine (m.vms i)).length) ↔
      NodePrinted m i v ∨ NodeSpelled m i v := by
  have hbefore : ∀ j (t : Text), (devBefore m i j ++ t).length = (dumpBefore m i).length +
      (vmLine (m.vms i)).length +
        ((((m.vms i).attachedDevs.take j).map memdevLine).flatten.length + t.length) := by
    intro j t
    simp only [devBefore, List.length_append]
    omega
  have hsub : ∀ c, bytesLeft m i - (vmLine (m.vms i)).length - c =
      bufferSize - 1 - ((dumpBefore m i).length + (vmLine (m.vms i)).length + c) := by
    intro c
    rw [bytesLeft, Nat.sub_sub, Nat.sub_sub (bufferSize - 1), Nat.add_assoc]
  have hleft : ∀ c, 0 < c → (c ≤ bytesLeft m i - (vmLine (m.vms i)).length ↔
      (dumpBefore m i).length + (vmLine (m.vms i)).length + c < bufferSize) := by
    intro c hc
    rw [bytesLeft]
    omega
  rw [mem_shownNodes, NodePrinted, NodeSpelled]
  simp only [hbefore, hsub]
  constructor
  · rintro ⟨j, dev, hdev, ⟨hnode, hle⟩ | h⟩
    · have hpos := nodeStart_pos dev
      exact .inl ⟨j, dev, hdev, hnode, (hleft _ (by omega)).mp hle⟩
    · exact .inr ⟨j, dev, hdev, h⟩
  · rintro (⟨j, dev, hdev, hnode, hlt⟩ | ⟨j, dev, hdev, h⟩)
    · have hpos := nodeStart_pos dev
      exact ⟨j, dev, hdev, .inl ⟨hnode, (hleft _ (by omega)).mpr hlt⟩⟩
    · exact ⟨j, dev, hdev, .inr h⟩

theorem printable (ho : Owns m)
    (hcores : ∀ i, (m.vms i).initialized = true → IsCpuSet (m.vms i).coreSet) : Printable m := by
  refine ⟨fun i hinit c hc => ?_, fun i dev hdev => ?_, fun i dev hdev hspace => ?_⟩
  · rcases hcores i hinit c hc with hd | rfl | rfl
    · have hle : 48 ≤ c.toNat ∧ c.toNat ≤ 57 := by
        simpa [Char.isDigit, UInt32.le_iff_toNat_le] using hd
      refine ⟨by simp only [IsAscii]; omega, ?_⟩
      simp only [isLineBreak, Bool.or_eq_false_iff, Bool.and_eq_false_iff, decide_eq_false_iff_not,
        beq_eq_false_iff_ne]
      omega
    · decide
    · decide
  · obtain ⟨k, lo, n, hr⟩ := ho.range i dev hdev
    have hk : k < 10 := lt_of_lt_of_le hr.device ho.geometry.numDevs
    rw [hr.request, decimal_natCast, Nat.toDigits_of_lt_base hk]
    rfl
  · obtain ⟨k, lo, n, hr⟩ := ho.range i dev hdev
    rw [hr.request] at hspace
    have hword := (ho.geometry.path k hr.device).word _ (List.mem_of_mem_take hspace)
    exact absurd hword (by decide)

/-- A slot whose line is cut is the last one with bytes left. -/
theorem bytesLeft_after {i j : Fin maxNumVm} (hij : i < j) (hinit : (m.vms i).initialized = true)
    (hcut : bytesLeft m i ≤ (vmLine (m.vms i)).length) : bytesLeft m j = 0 := by
  have hsplit : (List.finRange maxNumVm).take j =
      (List.finRange maxNumVm).take i ++ ((List.finRange maxNumVm).drop i).take (j - i) := by
    rw [← List.take_add]
    congr 1
    omega
  have hdrop : ((List.finRange maxNumVm).drop i).take (j - i) =
      i :: ((List.finRange maxNumVm).drop (i + 1)).take (j - i - 1) := by
    have hlt : (i : ℕ) < (List.finRange maxNumVm).length := by simp
    obtain ⟨d, hd⟩ : ∃ d, (j : ℕ) - i = d + 1 := ⟨j - i - 1, by omega⟩
    rw [List.drop_eq_getElem_cons hlt, hd, List.take_succ_cons, List.getElem_finRange]
    rfl
  have hlines : (vmLine (m.vms i)).length ≤ (slotLines m i).flatten.length := by
    rw [slotLines, if_pos hinit, List.flatten_cons, List.length_append]
    omega
  have hlen : (dumpBefore m j).length ≥ (dumpBefore m i).length + (vmLine (m.vms i)).length := by
    simp only [dumpBefore, hsplit, hdrop, List.flatMap_append, List.flatMap_cons, List.flatten_append,
      List.length_append]
    omega
  rw [bytesLeft] at hcut ⊢
  omega

theorem mem_usedIds {v : ℤ} : v ∈ ((allBlocks m).flatMap blockEvents).filterMap Event.vmId ↔
    ∃ i, (m.vms i).initialized = true ∧ 6 ≤ bytesLeft m i ∧
      lineId (strip ((vmBody (m.vms i)).take (bytesLeft m i))) = some v := by
  rw [filterMap_vmId, List.mem_filterMap]
  constructor
  · rintro ⟨block, hblock, hid⟩
    obtain ⟨i, hinit, hleft, rfl⟩ := mem_allBlocks.mp hblock
    dsimp only at hid
    exact ⟨i, hinit, hleft, hid⟩
  · rintro ⟨i, hinit, hleft, hid⟩
    refine ⟨_, mem_allBlocks.mpr ⟨i, hinit, hleft, rfl⟩, ?_⟩
    dsimp only
    exact hid

theorem lineId_printed {i : Fin maxNumVm} (hleft : 6 ≤ bytesLeft m i) :
    lineId (strip ((vmBody (m.vms i)).take (bytesLeft m i))) = some (m.vms i).vmId ↔
      IdPrinted m i := by
  rw [lineId_vmBody hleft, idPrinted_iff]

/-- The ids come through exactly when all of them are inside the response. -/
theorem usedIds_iff (hu : UniqueIds m) :
    (∀ v, v ∈ ((allBlocks m).flatMap blockEvents).filterMap Event.vmId ↔ v ∈ registeredIds m) ↔
      ∀ i, (m.vms i).initialized = true → IdPrinted m i := by
  have hsix : ∀ {i}, IdPrinted m i → 6 ≤ bytesLeft m i := by
    intro i hi
    have := idPrinted_iff.mp hi
    have := vmStart_length (m.vms i)
    omega
  simp only [mem_usedIds, mem_registeredIds]
  constructor
  · intro h i hinit
    by_contra hcut
    -- an id that is cut off would have to come from another line, which would be cut as well
    have hother : ∀ i, (m.vms i).initialized = true → ¬ IdPrinted m i → ∃ k,
        (m.vms k).initialized = true ∧ 6 ≤ bytesLeft m k ∧ ¬ IdPrinted m k ∧
          lineId (strip ((vmBody (m.vms k)).take (bytesLeft m k))) = some (m.vms i).vmId := by
      intro i hinit hcut
      obtain ⟨k, hk, hleft, hid⟩ := (h (m.vms i).vmId).mpr ⟨i, hinit, rfl⟩
      refine ⟨k, hk, hleft, fun hprinted => ?_, hid⟩
      have hown := (lineId_printed hleft).mpr hprinted
      rw [hu k i hk hinit (Option.some.inj (hown.symm.trans hid))] at hprinted
      exact hcut hprinted
    obtain ⟨k, hk, hleft, hkcut, _⟩ := hother i hinit hcut
    obtain ⟨l, hl, hleft', hlcut, hid⟩ := hother k hk hkcut
    have hshort : ∀ {i}, ¬ IdPrinted m i → bytesLeft m i ≤ (vmLine (m.vms i)).length := by
      intro i hi
      have := vmLine_length (m.vms i)
      rw [idPrinted_iff] at hi
      omega
    rcases lt_trichotomy k l with hkl | rfl | hlk
    · have := bytesLeft_after hkl hk (hshort hkcut)
      omega
    · exact hkcut ((lineId_printed hleft).mp hid)
    · have := bytesLeft_after hlk hl (hshort hlcut)
      omega
  · intro h v
    constructor
    · rintro ⟨i, hinit, hleft, hid⟩
      have hown := (lineId_printed hleft).mpr (h i hinit)
      exact ⟨i, hinit, Option.some.inj (hown.symm.trans hid)⟩
    · rintro ⟨i, hinit, rfl⟩
      exact ⟨i, hinit, hsix (h i hinit), (lineId_printed (hsix (h i hinit))).mpr (h i hinit)⟩

theorem mem_vmNodes {v n : ℤ} :
    n ∈ eventNodes v ((allBlocks m).flatMap blockEvents) false [] ↔
      ∃ i, (m.vms i).initialized = true ∧ (m.vms i).vmId = v ∧
        (NodePrinted m i n ∨ NodeSpelled m i n) := by
  rw [mem_eventNodes]
  simp only [List.not_mem_nil, false_or, ← shown_iff]
  constructor
  · rintro ⟨block, hblock, hnames, hn⟩
    obtain ⟨i, hinit, hleft, rfl⟩ := mem_allBlocks.mp hblock
    refine ⟨i, hinit, ?_, hn⟩
    have hwhole : (vmBody (m.vms i)).take (bytesLeft m i) = vmBody (m.vms i) := by
      refine List.take_of_length_le ?_
      by_contra hcut
      have hlen := vmLine_length (m.vms i)
      rw [Nat.sub_eq_zero_of_le (by omega), shownNodes_zero] at hn
      cases hn
    rw [hwhole, names_vmBody] at hnames
    exact hnames.symm
  · rintro ⟨i, hinit, rfl, hn⟩
    have hpos : (vmLine (m.vms i)).length < bytesLeft m i := by
      by_contra hcut
      rw [Nat.sub_eq_zero_of_le (by omega), shownNodes_zero] at hn
      cases hn
    have hlen := vmLine_length (m.vms i)
    have hstart := vmStart_length (m.vms i)
    refine ⟨_, mem_allBlocks.mpr ⟨i, hinit, by omega, rfl⟩, ?_, hn⟩
    rw [List.take_of_length_le (by omega), names_vmBody]

theorem mem_liveNodes (hu : UniqueIds m) {v n : ℤ} :
    n ∈ liveNodes m v ↔ ∃ i dev, LiveDev m i dev ∧ (m.vms i).vmId = v ∧ dev.memoryReq.nodeId = n := by
  rw [liveNodes]
  cases hget : vmMngrGetInstance m v with
  | none =>
    simp only [List.not_mem_nil, false_iff]
    rintro ⟨i, dev, hdev, hid, _⟩
    exact vmMngrGetInstance_eq_none hget hdev.1 hid
  | some i =>
    obtain ⟨hinit, hid⟩ := vmMngrGetInstance_eq_some hget
    simp only [List.mem_map]
    constructor
    · rintro ⟨dev, hdev, rfl⟩
      exact ⟨i, dev, ⟨hinit, hdev⟩, hid, rfl⟩
    · rintro ⟨j, dev, hdev, hjd, rfl⟩
      obtain rfl := hu j i hdev.1 hinit (hjd.trans hid.symm)
      exact ⟨dev, hdev.2, rfl⟩

theorem NodePrinted.live {i : Fin maxNumVm} {v : ℤ} (h : NodePrinted m i v)
    (hinit : (m.vms i).initialized = true) : ∃ dev, LiveDev m i dev ∧ dev.memoryReq.nodeId = v := by
  obtain ⟨j, dev, hdev, hnode, _⟩ := h
  exact ⟨dev, ⟨hinit, List.mem_of_getElem? hdev⟩, hnode⟩

/-- The nodes come through exactly when those of every VM are shown, and no others. -/
theorem vmNodes_iff (hu : UniqueIds m) :
    (∀ v n, n ∈ eventNodes v ((allBlocks m).flatMap blockEvents) false [] ↔ n ∈ liveNodes m v) ↔
      (∀ i dev, LiveDev m i dev →
        NodePrinted m i dev.memoryReq.nodeId ∨ NodeSpelled m i dev.memoryReq.nodeId) ∧
      ∀ i n, (m.vms i).initialized = true → NodeSpelled m i n →
        ∃ dev, LiveDev m i dev ∧ dev.memoryReq.nodeId = n := by
  simp only [mem_vmNodes, mem_liveNodes hu]
  constructor
  · intro h
    constructor
    · intro i dev hdev
      obtain ⟨j, hinit, hid, hshown⟩ := (h _ _).mpr ⟨i, dev, hdev, rfl, rfl⟩
      rwa [hu j i hinit hdev.1 hid] at hshown
    · intro i n hinit hspelled
      obtain ⟨j, dev, hdev, hid, hnode⟩ := (h _ _).mp ⟨i, hinit, rfl, .inr hspelled⟩
      rw [hu j i hdev.1 hinit hid] at hdev
      exact ⟨dev, hdev, hnode⟩
  · rintro ⟨hnodes, hpaths⟩ v n
    constructor
    · rintro ⟨i, hinit, rfl, hprinted | hspelled⟩
      · obtain ⟨dev, hdev, hnode⟩ := hprinted.live hinit
        exact ⟨i, dev, hdev, rfl, hnode⟩
      · obtain ⟨dev, hdev, hnode⟩ := hpaths i n hinit hspelled
        exact ⟨i, dev, hdev, rfl, hnode⟩
    · rintro ⟨i, dev, hdev, rfl, rfl⟩
      exact ⟨i, hdev.1, rfl, hnodes i dev hdev⟩

/-- In every state whose core sets are CPU sets, the CLI decodes the list of the VMs exactly when
the list is readable. -/
theorem reportsExactly_iff (hp : InitialPool pool) (hreach : Reaches step (initialManager pool) m)
    (hcores : ∀ i, (m.vms i).initialized = true → IsCpuSet (m.vms i).coreSet) :
    ReportsExactly m ↔ ListReadable m := by
  obtain ⟨ho, hl⟩ := consistent_reachable hp hreach
  obtain ⟨response, hresponse, hread⟩ := read_getVms (printable ho hcores) hl
  have hids := usedIds_iff hl.ids
  have hnodes := vmNodes_iff hl.ids
  constructor
  · rintro ⟨other, hother, hused, -, hmem⟩
    obtain rfl : response = other := Except.ok.inj (hresponse.symm.trans hother)
    rw [getUsedVmIds_events, hread, sortedSet_eq_iff, hids] at hused
    simp only [getVmMemNodes_events, hread, sortedSet_eq_iff] at hmem
    obtain ⟨hshown, hspelled⟩ := hnodes.mp hmem
    exact ⟨hused, hshown, hspelled⟩
  · intro h
    have hused := hids.mpr h.ids
    have hmem := hnodes.mpr ⟨h.nodes, h.paths⟩
    rw [← sortedSet_eq_iff] at hused
    refine ⟨response, hresponse, ?_, ?_, fun v => ?_⟩
    · rw [getUsedVmIds_events, hread, hused]
    · have hunused := selectVmid_unused (getUsedVmIds (clientText response))
      intro hreg
      refine hunused ?_
      rw [getUsedVmIds_events, hread, hused]
      exact mem_sortedSet.mpr (by rwa [getUsedVmIds_events, hread, hused] at hreg)
    · rw [getVmMemNodes_events, hread, sortedSet_eq_iff]
      exact hmem v

/-- A CPU set, read character by character. -/
def cpuSetChars (t : Text) : Bool := t.all fun c => c.isDigit || (c == '-' || c == ',')

theorem cpuSetChars_iff {t : Text} : cpuSetChars t = true ↔ IsCpuSet t := by
  simp [cpuSetChars, IsCpuSet]

def coreSetsOk (m : Manager) : Bool := (List.finRange maxNumVm).all fun i =>
  !(m.vms i).initialized || cpuSetChars (m.vms i).coreSet

theorem coreSetsOk_spec (h : coreSetsOk m = true) (i : Fin maxNumVm)
    (hinit : (m.vms i).initialized = true) : IsCpuSet (m.vms i).coreSet := by
  have hi := List.all_eq_true.mp h i (List.mem_finRange i)
  rw [hinit, Bool.not_true, Bool.false_or] at hi
  exact cpuSetChars_iff.mp hi

theorem reportsExactly_iff_oneVm : ∃ m,
    run step (initialManager smallPool) [.create 3 "0-1".toList, .allocMem 0 3 4] = .ok m ∧
      (ReportsExactly m ↔ ListReadable m) := by
  have heval : (run step (initialManager smallPool) [.create 3 "0-1".toList, .allocMem 0 3 4]).map
      coreSetsOk = .ok true := by
    rfl
  obtain ⟨m, hm, hcores⟩ := map_eq_ok.mp heval
  exact ⟨m, hm, reportsExactly_iff smallPool_initial ⟨_, hm⟩ (coreSetsOk_spec hcores)⟩

/-- As long as a slot can hold: 51 times the same CPU. -/
def longCpuSet : Text := (List.replicate 51 "1000,".toList).flatten

/-- The fifth id of VMs with long CPU sets does not fit the response. -/
theorem reportsExactly_fails_fiveVms : ∃ m,
    run step (initialManager smallPool) ((List.range 5).map fun k : ℕ => .create k longCpuSet) =
        .ok m ∧
      (∀ i, (m.vms i).initialized = true → IsCpuSet (m.vms i).coreSet) ∧ ¬ ReportsExactly m := by
  have heval : (run step (initialManager smallPool)
      ((List.range 5).map fun k : ℕ => .create k longCpuSet)).map (fun m =>
        (coreSetsOk m, registeredIds m, (rpcHandleGetVms m).toOption.map fun response =>
          getUsedVmIds (clientText response))) =
      .ok (true, [0, 1, 2, 3, 4], some [0, 1, 2, 3]) := by
    decide +kernel
  obtain ⟨m, hm, hview⟩ := map_eq_ok.mp heval
  simp only [Prod.mk.injEq] at hview
  obtain ⟨hcores, hids, hused⟩ := hview
  refine ⟨m, hm, coreSetsOk_spec hcores, ?_⟩
  rintro ⟨response, hresponse, hexact, -, -⟩
  rw [hresponse, Except.toOption, Option.map_some, hexact, hids] at hused
  have hsorted : sortedSet [0, 1, 2, 3, 4] = [0, 1, 2, 3, 4] := by rfl
  rw [hsorted] at hused
  cases hused

end Ramryder.VmReport
