import Ramryder.Lifecycle
import Ramryder.MemPoolTable

/-! The list of VMs, printed by the manager into its response buffer and read back by the CLI
line by line, also where the buffer ends inside a line. -/
namespace Ramryder.VmDump
open CInt Cli CMachine CText CoreSet GuestAgents Lifecycle MemPoolTable MemoryPool Ownership
  PoolConfig PyText ResourceManager Runs VmManager VmManagerSpec

variable {m : Manager} {pool : Pool} {vm : VmInstance} {dev : MemoryDev} {n : ℕ}

/-! ### The printed text -/

def vmStart (vm : VmInstance) : Text := "VM id=".toList ++ decimal vm.vmId

/-- The line of a VM behind its id. -/
def vmEnd (vm : VmInstance) : Text :=
  ' ' :: ("cores=".toList ++ (decimal vm.numCores ++ (" coreset=[".toList ++ (vm.coreSet ++
    ("] memdev_count=".toList ++ decimal vm.memdevCounter)))))

theorem vmStart_eq (vm : VmInstance) : vmStart vm = "VM id=".toList ++ decimal vm.vmId := by
  delta vmStart
  rfl

theorem vmEnd_eq (vm : VmInstance) : ∃ rest, vmEnd vm = ' ' :: ("cores=".toList ++ rest) := ⟨_, rfl⟩

theorem vmLine_eq (vm : VmInstance) : vmLine vm = vmStart vm ++ vmEnd vm ++ ['\n'] := by
  have hformat : directives none "VM id=%d cores=%d coreset=[%s] memdev_count=%d\n".toList =
      lits "VM id=" ++ .int 0 :: (lits " cores=" ++ .int 0 :: (lits " coreset=[" ++ .str 0 ::
        (lits "] memdev_count=" ++ .int 0 :: lits "\n"))) := by
    rfl
  have hend : "\n".toList = ['\n'] := rfl
  have hcores : " cores=".toList = ' ' :: "cores=".toList := rfl
  rw [vmLine, sprintf, hformat]
  rw [render_lits, render_int, render_lits, render_int, render_lits,
    render_str, render_lits, render_int, render_end, hend, hcores]
  delta vmStart vmEnd
  simp only [padLeft_zero, List.append_assoc, List.cons_append]

/-- The line of a device up to its node. -/
def nodeStart (dev : MemoryDev) : Text :=
  ' ' :: ' ' :: ("memdev=".toList ++ (decimal dev.memdevIdx ++
    ' ' :: ("node=".toList ++ decimal dev.memoryReq.nodeId)))

def pathStart (dev : MemoryDev) : Text := nodeStart dev ++ ' ' :: "path=".toList

/-- The line of a device behind its path. -/
def pathEnd (dev : MemoryDev) : Text :=
  ' ' :: ("size=".toList ++ (decimal dev.memoryReq.sizeMb ++ ("MB align=".toList ++
    (decimal dev.memoryReq.alignMb ++ ("MB offset=".toList ++
      (decimal dev.memoryReq.offsetMb ++ "MB".toList))))))

theorem memdevLine_eq (dev : MemoryDev) :
    memdevLine dev = pathStart dev ++ dev.memoryReq.devPath ++ pathEnd dev ++ ['\n'] := by
  have hformat : directives none
      "  memdev=%d node=%d path=%s size=%dMB align=%dMB offset=%dMB\n".toList =
      lits "  memdev=" ++ .int 0 :: (lits " node=" ++ .int 0 :: (lits " path=" ++ .str 0 ::
        (lits " size=" ++ .int 0 :: (lits "MB align=" ++ .int 0 :: (lits "MB offset=" ++ .int 0 ::
          lits "MB\n"))))) := by
    rfl
  have hend : "MB\n".toList = "MB".toList ++ ['\n'] := by rfl
  rw [memdevLine, sprintf, hformat]
  rw [render_lits, render_int, render_lits, render_int, render_lits,
    render_str, render_lits, render_int, render_lits, render_int, render_lits, render_int,
    render_end, hend]
  simp [pathStart, nodeStart, pathEnd]

def slotLines (m : Manager) (i : Fin maxNumVm) : List Text :=
  if (m.vms i).initialized then vmLine (m.vms i) :: (m.vms i).attachedDevs.map memdevLine else []

def countLine (m : Manager) : Text := sprintf "VM Count: %d\n" [.int m.count]

/-- Everything that is printed where there is a VM. -/
def fullDump (m : Manager) : Text :=
  countLine m ++ ((List.finRange maxNumVm).flatMap (slotLines m)).flatten

/-- One more record: it fits, or the buffer ends in it. -/
theorem appendf_record {size : ℕ} {buffer record : Text} (hfits : buffer.length < size) :
    appendf size buffer buffer.length record =
      .ok ((buffer ++ record).take (size - 1), (buffer ++ record).length) := by
  have hroom : size - 1 - buffer.length = size - buffer.length - 1 := by omega
  rw [appendf, if_pos hfits.le, List.take_append,
    List.take_of_length_le (by omega : buffer.length ≤ size - 1), hroom, List.length_append]

theorem dumpDevs_eq {size : ℕ} {devs : List MemoryDev} {buffer : Text}
    (hfits : buffer.length < size) :
    ∃ offset, dumpDevs size devs buffer buffer.length =
        .ok ((buffer ++ (devs.map memdevLine).flatten).take (size - 1), offset) ∧
      (offset < size ∧ offset = (buffer ++ (devs.map memdevLine).flatten).length ∨
        size ≤ offset ∧ size ≤ (buffer ++ (devs.map memdevLine).flatten).length) := by
  induction devs generalizing buffer with
  | nil =>
    have hkept : buffer.take (size - 1) = buffer := List.take_of_length_le (by omega)
    exact ⟨buffer.length, by simp [dumpDevs, hkept], .inl ⟨hfits, by simp⟩⟩
  | cons dev devs ih =>
    rw [dumpDevs, appendf_record hfits, ok_bind, List.map_cons, List.flatten_cons, ← List.append_assoc]
    dsimp only
    split
    · rename_i hfull
      have hmore : (buffer ++ memdevLine dev).length ≤
          (buffer ++ memdevLine dev ++ (devs.map memdevLine).flatten).length := by
        simp only [List.length_append]
        omega
      refine ⟨(buffer ++ memdevLine dev).length, ?_, .inr ⟨hfull, hfull.trans hmore⟩⟩
      exact congrArg (fun shown => Except.ok (shown, _)) (List.take_append_of_le_length (by omega)).symm
    · rename_i hroom
      rw [not_le] at hroom
      rw [List.take_of_length_le (by omega)]
      exact ih hroom

/-- Nothing is printed behind a full buffer. -/
theorem dumpVms_full {size offset : ℕ} (is : List (Fin maxNumVm)) {buffer : Text}
    (hfull : size ≤ offset) : dumpVms m size is buffer offset = .ok buffer := by
  cases is with
  | nil => rfl
  | cons i is => rw [dumpVms, if_pos hfull]

theorem dumpVms_eq {size : ℕ} {is : List (Fin maxNumVm)} {buffer : Text}
    (hfits : buffer.length < size) :
    dumpVms m size is buffer buffer.length =
      .ok ((buffer ++ (is.flatMap (slotLines m)).flatten).take (size - 1)) := by
  induction is generalizing buffer with
  | nil =>
    have hkept : buffer.take (size - 1) = buffer := List.take_of_length_le (by omega)
    simp [dumpVms, hkept]
  | cons i is ih =>
    rw [dumpVms, if_neg (by omega), List.flatMap_cons, List.flatten_append, ← List.append_assoc]
    by_cases hinit : (m.vms i).initialized = true
    · rw [if_neg (by simp [hinit]), appendf_record hfits, ok_bind]
      have hlines : (slotLines m i).flatten =
          vmLine (m.vms i) ++ ((m.vms i).attachedDevs.map memdevLine).flatten := by
        simp [slotLines, hinit]
      rw [hlines, ← List.append_assoc]
      generalize (is.flatMap (slotLines m)).flatten = rest at ih ⊢
      dsimp only
      split
      · rename_i hfull
        rw [List.append_assoc]
        exact congrArg Except.ok (List.take_append_of_le_length (by omega)).symm
      · rename_i hroom
        rw [not_le] at hroom
        obtain ⟨offset, hdevs, hoffset⟩ := @dumpDevs_eq size (m.vms i).attachedDevs _ hroom
        rw [List.take_of_length_le (by omega), hdevs, ok_bind]
        dsimp only
        generalize buffer ++ vmLine (m.vms i) ++
          ((m.vms i).attachedDevs.map memdevLine).flatten = printed at hoffset ⊢
        rcases hoffset with ⟨hlt, rfl⟩ | ⟨hfull, hlong⟩
        · rw [List.take_of_length_le (by omega)]
          exact ih hlt
        · rw [dumpVms_full is hfull, List.take_append_of_le_length (by omega)]
    · have hlines : (slotLines m i).flatten = [] := by simp [slotLines, hinit]
      rw [if_pos (by simpa using hinit), hlines, List.append_nil]
      exact ih hfits

theorem countLine_eq (m : Manager) : countLine m = "VM Count:".toList ++ (' ' :: decimal m.count ++ ['\n']) := by
  have hformat : directives none "VM Count: %d\n".toList =
      lits "VM Count: " ++ .int 0 :: lits "\n" := by
    rfl
  have hword : "VM Count: ".toList = "VM Count:".toList ++ [' '] := by rfl
  have hend : "\n".toList = ['\n'] := rfl
  rw [countLine, sprintf, hformat, render_lits, render_int, render_end, hword, hend, padLeft_zero]
  simp only [List.append_assoc, List.cons_append, List.nil_append]

theorem countLine_fits (hl : Consistent m) : (countLine m).length < bufferSize := by
  have hcount : InInt m.count := by
    have := initializedSlots_le m
    rw [hl.count]
    simp only [InInt, intMin, intMax, maxNumVm] at this ⊢
    omega
  have hword : "VM Count:".toList.length = 9 := by rfl
  have hlen := decimal_length hcount
  rw [countLine_eq]
  simp only [List.length_append, List.length_cons, List.length_nil, hword, bufferSize]
  omega

/-- The list of the VMs, cut to the buffer. -/
theorem rpcHandleGetVms_eq (hl : Consistent m) (hcount : m.count ≠ 0) :
    rpcHandleGetVms m = .ok ((fullDump m).take (bufferSize - 1)) := by
  have hfits := countLine_fits hl
  have hstart : appendf bufferSize [] 0 (countLine m) = .ok (countLine m, (countLine m).length) := by
    have h := @appendf_record bufferSize [] (countLine m) (by decide)
    rwa [List.nil_append, List.take_of_length_le (by omega)] at h
  rw [rpcHandleGetVms, vmMngrDumpState]
  change (appendf bufferSize [] 0 (countLine m) >>= _) = _
  rw [hstart, ok_bind]
  dsimp only
  rw [if_neg (by omega), if_neg hcount, dumpVms_eq hfits, fullDump]

theorem rpcHandleGetVms_none (hcount : m.count = 0) :
    rpcHandleGetVms m = .ok "VM Count: 0\nNo VM created.\n".toList := by
  have hstart : appendf bufferSize [] 0 (sprintf "VM Count: %d\n" [.int 0]) =
      .ok ("VM Count: 0\n".toList, 12) := by
    rfl
  have hend : appendf bufferSize "VM Count: 0\n".toList 12 (sprintf "No VM created.\n" []) =
      .ok ("VM Count: 0\nNo VM created.\n".toList, 27) := by
    rfl
  rw [rpcHandleGetVms, vmMngrDumpState, hcount, hstart, ok_bind]
  dsimp only
  rw [if_neg (by decide), if_pos rfl, hend, ok_bind]

theorem rpcHandleGetVms_length (hl : Consistent m) {response : Text}
    (h : rpcHandleGetVms m = .ok response) : response.length < bufferSize := by
  by_cases hcount : m.count = 0
  · rw [rpcHandleGetVms_none hcount] at h
    cases h
    decide
  · rw [rpcHandleGetVms_eq hl hcount] at h
    cases h
    rw [List.length_take, bufferSize]
    omega

/-! ### What the two readers see

Both act on the lines of the VMs and on the nodes of the device lines only. -/

inductive Event
  | vm (line : Text)
  | node (n : ℤ)

/-- The id in the second field of a line. -/
def lineId (line : Text) : Option ℤ := do
  let token ← (fields line)[1]?
  if "id=".toList <+: token then pyInt (splitFirst '=' token).2 else none

/-- A line that is the target's. -/
def Names (vmid : ℤ) (line : Text) : Prop := "VM id=".toList ++ decimal vmid ++ [' '] <+: line

instance (vmid : ℤ) (line : Text) : Decidable (Names vmid line) := inferInstanceAs (Decidable (_ <+: _))

def lineEvent (raw : Text) : Option Event :=
  let line := strip raw
  if "VM id=".toList <+: line then some (.vm line)
  else if "memdev=".toList <+: line then (memdevNode line).map .node
  else none

def Event.vmId : Event → Option ℤ
  | .vm line => lineId line
  | .node _ => none

def eventNodes (vmid : ℤ) : List Event → Bool → List ℤ → List ℤ
  | [], _, nodes => nodes
  | .vm line :: es, _, nodes => eventNodes vmid es (decide (Names vmid line)) nodes
  | .node n :: es, inTarget, nodes =>
    eventNodes vmid es inTarget (if inTarget then nodes ++ [n] else nodes)

theorem lineEvent_strip (raw : Text) : lineEvent (strip raw) = lineEvent raw := by
  simp only [lineEvent, strip_strip]

theorem lineEvent_nil : lineEvent [] = none := by
  have hstrip : strip [] = [] := rfl
  rw [lineEvent, hstrip, if_neg (by decide), if_neg (by decide)]

theorem vmIdOfLine_event (raw : Text) : vmIdOfLine raw = (lineEvent raw).bind Event.vmId := by
  unfold vmIdOfLine lineEvent
  dsimp only
  split
  · rfl
  · split
    · cases memdevNode (strip raw) <;> rfl
    · rfl

theorem getUsedVmIds_events (output : Text) :
    getUsedVmIds output = sortedSet ((readLines lineEvent output).filterMap Event.vmId) := by
  have hread : (splitlines output).filterMap vmIdOfLine =
      ((splitlines output).filterMap lineEvent).filterMap Event.vmId := by
    rw [List.filterMap_filterMap]
    exact congrArg (List.filterMap · _) (funext vmIdOfLine_event)
  rw [getUsedVmIds, hread, splitlines_filterMap lineEvent_nil, readLines]

theorem vmMemNodes_events (vmid : ℤ) (ls : List Text) (inTarget : Bool) (nodes : List ℤ) :
    vmMemNodes vmid ls inTarget nodes = eventNodes vmid (ls.filterMap lineEvent) inTarget nodes := by
  induction ls generalizing inTarget nodes with
  | nil => rfl
  | cons raw ls ih =>
    rw [vmMemNodes, List.filterMap_cons, lineEvent]
    by_cases hvm : "VM id=".toList <+: strip raw
    · rw [if_pos hvm, if_pos hvm, ih]
      rfl
    · rw [if_neg hvm, if_neg hvm]
      by_cases hdev : "memdev=".toList <+: strip raw
      · rw [if_pos hdev]
        cases inTarget with
        | false =>
          rw [if_neg (fun h => Bool.noConfusion h.1), ih]
          cases memdevNode (strip raw) with
          | none => rfl
          | some n => rfl
        | true =>
          rw [if_pos ⟨rfl, hdev⟩, ih]
          cases memdevNode (strip raw) with
          | none => rw [Option.toList_none, List.append_nil, Option.map_none]
          | some n => rfl
      · rw [if_neg (fun h => hdev h.2), if_neg hdev, ih]

theorem getVmMemNodes_events (output : Text) (vmid : ℤ) :
    getVmMemNodes output vmid =
      sortedSet (eventNodes vmid (readLines lineEvent output) false []) := by
  rw [getVmMemNodes, vmMemNodes_events, splitlines_filterMap lineEvent_nil, readLines]

/-- A line of a VM with the nodes that follow it. -/
def blockEvents (block : Text × List ℤ) : List Event := .vm block.1 :: block.2.map .node

theorem eventNodes_nodes (vmid : ℤ) (ns : List ℤ) (es : List Event) (inTarget : Bool)
    (nodes : List ℤ) : eventNodes vmid (ns.map .node ++ es) inTarget nodes =
      eventNodes vmid es inTarget (if inTarget then nodes ++ ns else nodes) := by
  induction ns generalizing nodes with
  | nil => cases inTarget <;> simp
  | cons n ns ih =>
    rw [List.map_cons, List.cons_append, eventNodes, ih]
    cases inTarget <;> simp

theorem mem_eventNodes (vmid : ℤ) (blocks : List (Text × List ℤ)) (inTarget : Bool) (nodes : List ℤ)
    (n : ℤ) : n ∈ eventNodes vmid (blocks.flatMap blockEvents) inTarget nodes ↔
      n ∈ nodes ∨ ∃ block ∈ blocks, Names vmid block.1 ∧ n ∈ block.2 := by
  induction blocks generalizing inTarget nodes with
  | nil => simp [eventNodes]
  | cons block blocks ih =>
    rw [List.flatMap_cons, blockEvents, List.cons_append, eventNodes, eventNodes_nodes, ih]
    by_cases hnames : Names vmid block.1
    · simp [hnames, or_assoc]
    · simp [hnames]

theorem filterMap_vmId (blocks : List (Text × List ℤ)) :
    (blocks.flatMap blockEvents).filterMap Event.vmId = blocks.filterMap fun block => lineId block.1 := by
  induction blocks with
  | nil => rfl
  | cons block blocks ih =>
    have hnodes : (block.2.map Event.node).filterMap Event.vmId = [] := by
      simp [List.filterMap_map, Function.comp_def, Event.vmId]
    rw [List.flatMap_cons, List.filterMap_append, ih, blockEvents, List.filterMap_cons, hnodes,
      List.filterMap_cons]
    cases h : lineId block.1 <;> simp [Event.vmId, h]

/-! ### The line of a VM -/

/-- The whole line of a VM. -/
def vmBody (vm : VmInstance) : Text := vmStart vm ++ vmEnd vm

theorem vmBody_eq (vm : VmInstance) : vmBody vm = "VM id=".toList ++ (decimal vm.vmId ++ vmEnd vm) := by
  rw [vmBody, vmStart_eq, List.append_assoc]

/-- A line without the bytes behind a cut. -/
theorem readLines_cut {β : Type} {g : Text → Option β} (hnil : g [] = none) {body : Text}
    (hbody : Plain body) (n : ℕ) :
    readLines g (decode ((body ++ ['\n']).take n)) = (g (body.take n)).toList := by
  have hplain : Plain (body.take n) := fun c hc => hbody c (List.mem_of_mem_take hc)
  rw [readLines_newline hnil, decode_ascii fun c hc => (hplain c hc).1,
    readLines_line fun c hc => (hplain c hc).2]

theorem plain_decimal (n : ℤ) : Plain (decimal n) := by
  have h := plain_padded 0 n
  rwa [padLeft_zero] at h

/-- The characters of a word of the formats. -/
def PlainWord (s : String) : Prop := s.toList.all fun c => decide (IsAscii c) && !isLineBreak c

instance (s : String) : Decidable (PlainWord s) := inferInstanceAs (Decidable (_ = true))

theorem plain_word {s : String} (h : PlainWord s) : Plain s.toList := by
  intro c hc
  have := List.all_eq_true.mp h c hc
  simpa using this

theorem plain_cons {c : Char} {t : Text} (hc : IsAscii c ∧ isLineBreak c = false) (ht : Plain t) :
    Plain (c :: t) := List.forall_mem_cons.mpr ⟨hc, ht⟩

theorem plain_vmBody (hset : Plain vm.coreSet) : Plain (vmBody vm) := by
  have hstart : Plain (vmStart vm) := (plain_word (by rfl)).append (plain_decimal _)
  refine hstart.append (plain_cons (by decide) ?_)
  exact (plain_word (by rfl)).append <| (plain_decimal _).append <|
    (plain_word (by rfl)).append <| hset.append <|
    (plain_word (by rfl)).append (plain_decimal _)

/-- The line of a VM is seen when its first six bytes are there. -/
theorem read_vmLine (hset : Plain vm.coreSet) (n : ℕ) :
    readLines lineEvent (decode ((vmLine vm).take n)) =
      if n < 6 then [] else [.vm (strip ((vmBody vm).take n))] := by
  rw [vmLine_eq, ← vmBody, readLines_cut lineEvent_nil (plain_vmBody hset)]
  have hlen : "VM id=".toList.length = 6 := by rfl
  split_ifs with hn
  · have hcut : ∀ k < 6, (lineEvent ("VM id=".toList.take k)).isNone = true := by decide
    rw [vmBody_eq, List.take_append_of_le_length (by omega), Option.isNone_iff_eq_none.mp (hcut n hn)]
    rfl
  · obtain ⟨b', hb'⟩ := strip_append (a := "VM id=".toList) (by simp) (by simp [isWhitespace])
      (by simp [isWhitespace]) ((decimal vm.vmId ++ vmEnd vm).take (n - 6))
    have htake : (vmBody vm).take n = "VM id=".toList ++ (decimal vm.vmId ++ vmEnd vm).take (n - 6) := by
      rw [vmBody_eq, List.take_append, List.take_of_length_le (by omega), hlen]
    rw [lineEvent, htake, hb', if_pos (List.prefix_append _ _)]
    rfl

theorem vmEnd_take (vm : VmInstance) (k : ℕ) :
    (vmEnd vm).take k = [] ∨ ∃ rest, (vmEnd vm).take k = ' ' :: rest := by
  cases k with
  | zero => exact .inl rfl
  | succ k => exact .inr ⟨_, rfl⟩

/-- The second field of a line of a VM. -/
theorem lineId_eq {x y : Text} (hx : ∀ c ∈ x, isWhitespace c = false)
    (hy : y = [] ∨ ∃ rest, y = ' ' :: rest) : lineId ("VM id=".toList ++ (x ++ y)) = pyInt x := by
  have hsplit : "VM id=".toList ++ (x ++ y) = "VM".toList ++ ' ' :: ("id=".toList ++ x ++ y) := by
    simp
  have htoken : ∀ c ∈ "id=".toList ++ x, isWhitespace c = false := by
    intro c hc
    rcases List.mem_append.mp hc with hc | hc
    · have hword : "id=".toList.all (fun c => !isWhitespace c) = true := by rfl
      simpa using List.all_eq_true.mp hword c hc
    · exact hx c hc
  have hfirst : fields "VM".toList = ["VM".toList] := by rfl
  have hfields : ∃ rest, fields ("VM id=".toList ++ (x ++ y)) =
      "VM".toList :: ("id=".toList ++ x) :: rest := by
    rw [hsplit, fields_append (by decide), hfirst]
    rcases hy with rfl | ⟨rest, rfl⟩
    · rw [List.append_nil, fields_word (by simp) htoken]
      exact ⟨[], rfl⟩
    · rw [fields_append (by decide), fields_word (by simp) htoken]
      exact ⟨fields rest, rfl⟩
  obtain ⟨rest, hrest⟩ := hfields
  have hvalue : (splitFirst '=' ("id=".toList ++ x)).2 = x := by
    have hshape : "id=".toList ++ x = "id".toList ++ '=' :: x := by simp
    rw [hshape, splitFirst_append (by decide)]
  rw [lineId, hrest]
  simp only [List.getElem?_cons_succ, List.getElem?_cons_zero, Option.bind_eq_bind, Option.bind_some]
  rw [if_pos (List.prefix_append _ _), hvalue]

theorem lineId_strip (line : Text) : lineId (strip line) = lineId line := by
  rw [lineId, lineId, fields_strip]

/-- A line gives the id of its VM exactly when the whole id is there. -/
theorem lineId_vmBody {n : ℕ} (hn : 6 ≤ n) :
    lineId (strip ((vmBody vm).take n)) = some vm.vmId ↔ (vmStart vm).length ≤ n := by
  have hlen : "VM id=".toList.length = 6 := by rfl
  have htake : (vmBody vm).take n = "VM id=".toList ++ ((decimal vm.vmId).take (n - 6) ++
      (vmEnd vm).take (n - 6 - (decimal vm.vmId).length)) := by
    rw [vmBody_eq, List.take_append, List.take_of_length_le (by omega), hlen, List.take_append]
  have hid : ∀ c ∈ (decimal vm.vmId).take (n - 6), isWhitespace c = false := fun c hc =>
    decimal_notWhitespace (List.mem_of_mem_take hc)
  rw [lineId_strip, htake, lineId_eq hid (vmEnd_take vm _), vmStart_eq, List.length_append, hlen]
  constructor
  · intro h
    by_contra hcut
    exact pyInt_take_ne (by omega) h
  · intro h
    rw [List.take_of_length_le (by omega), pyInt_decimal]

/-- The whole line of a VM is the target's line exactly for the id of the VM. -/
theorem names_vmBody {vmid : ℤ} : Names vmid (strip (vmBody vm)) ↔ vmid = vm.vmId := by
  have hshape : ∃ rest, strip (vmBody vm) = "VM id=".toList ++ (decimal vm.vmId ++ ' ' :: rest) := by
    have hbody : ∃ rest, vmBody vm =
        ("VM id=".toList ++ (decimal vm.vmId ++ ' ' :: "cores=".toList)) ++ rest := by
      obtain ⟨rest, hend⟩ := vmEnd_eq vm
      refine ⟨rest, ?_⟩
      rw [vmBody_eq, hend]
      simp only [List.append_assoc, List.cons_append]
    obtain ⟨rest, hrest⟩ := hbody
    have hend : (' ' :: "cores=".toList).getLast? = some '=' := by rfl
    have hlast : ("VM id=".toList ++ (decimal vm.vmId ++ ' ' :: "cores=".toList)).getLast? = some '=' := by
      rw [List.getLast?_append, List.getLast?_append, hend]
      rfl
    obtain ⟨rest', hstrip⟩ := strip_append
      (a := "VM id=".toList ++ (decimal vm.vmId ++ ' ' :: "cores=".toList)) (by simp)
      (by simp [isWhitespace]) (by rw [hlast]; simp [isWhitespace]) rest
    refine ⟨"cores=".toList ++ rest', ?_⟩
    rw [hrest, hstrip]
    simp only [List.append_assoc, List.cons_append]
  obtain ⟨rest, hrest⟩ := hshape
  have hspace : ∀ n : ℤ, ' ' ∉ decimal n := fun n h => by
    have := decimal_notWhitespace h
    exact absurd this (by decide)
  rw [Names, hrest, List.append_assoc, List.prefix_append_right_inj]
  constructor
  · rintro ⟨t, ht⟩
    have hcut := congrArg (splitFirst ' ') ht
    rw [List.append_assoc, List.singleton_append, splitFirst_append (hspace _),
      splitFirst_append (hspace _)] at hcut
    have hid := congrArg pyInt (Prod.mk.inj hcut).1
    rw [pyInt_decimal, pyInt_decimal] at hid
    exact Option.some.inj hid
  · rintro rfl
    exact ⟨rest, by simp⟩

/-! ### The line of a device -/

/-- The node of the first field that names one. -/
def partsNode (parts : List Text) : Option ℤ :=
  (parts.find? fun p => decide ("node=".toList <+: p)).bind fun part => pyInt (splitFirst '=' part).2

theorem memdevNode_parts (line : Text) : memdevNode line = partsNode (fields line) := rfl

theorem partsNode_skip {f : Text} (hf : ¬ "node=".toList <+: f) (fs : List Text) :
    partsNode (f :: fs) = partsNode fs := by
  rw [partsNode, List.find?_cons_of_neg (by simpa using hf), partsNode]

theorem partsNode_none {fs : List Text} (hfs : ∀ f ∈ fs, ¬ "node=".toList <+: f) :
    partsNode fs = none := by
  rw [partsNode, List.find?_eq_none.mpr fun f hf => by simpa using hfs f hf]
  rfl

theorem partsNode_append {gs : List Text} (hgs : ∀ f ∈ gs, ¬ "node=".toList <+: f)
    (fs : List Text) : partsNode (fs ++ gs) = partsNode fs := by
  have hnone : gs.find? (fun p => decide ("node=".toList <+: p)) = none :=
    List.find?_eq_none.mpr fun f hf => by simpa using hgs f hf
  rw [partsNode, List.find?_append, hnone, Option.or_none, partsNode]

theorem partsNode_node (n : ℤ) (fs : List Text) :
    partsNode (("node=".toList ++ decimal n) :: fs) = some n := by
  have hshape : "node=".toList ++ decimal n = "node".toList ++ '=' :: decimal n := by simp
  rw [partsNode, List.find?_cons_of_pos (by simp), Option.bind_some,
    hshape, splitFirst_append (by decide), pyInt_decimal]

/-- The first field of a line of a device. -/
def idxWord (dev : MemoryDev) : Text := "memdev=".toList ++ decimal dev.memdevIdx

theorem idxWord_eq (dev : MemoryDev) : idxWord dev = "memdev=".toList ++ decimal dev.memdevIdx := rfl

theorem idxWord_fields (dev : MemoryDev) (k : ℕ) :
    (idxWord dev).take k = [] ∨ fields ((idxWord dev).take k) = [(idxWord dev).take k] ∧
      ¬ "node=".toList <+: (idxWord dev).take k := by
  by_cases hnil : (idxWord dev).take k = []
  · exact .inl hnil
  · refine .inr ⟨fields_word hnil fun c hc => ?_, ?_⟩
    · rcases List.mem_append.mp (List.mem_of_mem_take hc) with hc | hc
      · have hword : "memdev=".toList.all (fun c => !isWhitespace c) = true := by rfl
        simpa using List.all_eq_true.mp hword c hc
      · exact decimal_notWhitespace hc
    · rintro ⟨rest, hrest⟩
      cases k with
      | zero => exact hnil rfl
      | succ k => exact absurd (List.cons.inj hrest).1 (by decide)

theorem nodeStart_eq (dev : MemoryDev) :
    nodeStart dev = ' ' :: ' ' :: (idxWord dev ++ ' ' :: ("node=".toList ++
      decimal dev.memoryReq.nodeId)) := by
  rw [nodeStart, idxWord_eq, List.append_assoc]

theorem nodeStart_pos (dev : MemoryDev) : 0 < (nodeStart dev).length := by
  rw [nodeStart_eq]
  exact Nat.succ_pos _

theorem fields_spaces (t : Text) : fields (' ' :: ' ' :: t) = fields t := by
  have hspace : ∀ t, fields (' ' :: t) = fields t := by
    intro t
    have h := fields_append (c := ' ') (by decide) [] t
    rwa [fields_nil, List.nil_append, List.nil_append] at h
  rw [hspace, hspace]

theorem memdevNode_strip (t : Text) : memdevNode (strip t) = memdevNode t := by
  rw [memdevNode_parts, memdevNode_parts, fields_strip]

/-- A line of a device read past its node. -/
theorem lineEvent_node (dev : MemoryDev) {y : Text} (hy : y = [] ∨ ∃ rest, y = ' ' :: rest) :
    lineEvent (nodeStart dev ++ y) = some (.node dev.memoryReq.nodeId) := by
  have hword : fields (idxWord dev) = [idxWord dev] ∧ ¬ "node=".toList <+: idxWord dev := by
    have h := idxWord_fields dev (idxWord dev).length
    rw [List.take_length] at h
    refine h.resolve_left fun hnil => ?_
    rw [idxWord_eq] at hnil
    exact decimal_ne_nil _ (List.append_eq_nil_iff.mp hnil).2
  have hnodeWord : ∀ c ∈ "node=".toList ++ decimal dev.memoryReq.nodeId, isWhitespace c = false := by
    intro c hc
    rcases List.mem_append.mp hc with hc | hc
    · have hword : "node=".toList.all (fun c => !isWhitespace c) = true := by rfl
      simpa using List.all_eq_true.mp hword c hc
    · exact decimal_notWhitespace hc
  have hfields : ∃ rest, fields (nodeStart dev ++ y) =
      idxWord dev :: ("node=".toList ++ decimal dev.memoryReq.nodeId) :: rest := by
    rw [nodeStart_eq, List.cons_append, List.cons_append, fields_spaces, List.append_assoc,
      List.cons_append, fields_append (by decide), hword.1]
    rcases hy with rfl | ⟨rest, rfl⟩
    · rw [List.append_nil, fields_word (by simp) hnodeWord]
      exact ⟨[], rfl⟩
    · rw [fields_append (by decide), fields_word (by simp) hnodeWord]
      exact ⟨fields rest, rfl⟩
  obtain ⟨rest, hrest⟩ := hfields
  have hstrip : ∃ b, strip (nodeStart dev ++ y) = "memdev=".toList ++ b := by
    obtain ⟨b, hb⟩ := strip_append (a := "memdev=".toList) (by simp) (by simp [isWhitespace])
      (by simp [isWhitespace]) (decimal dev.memdevIdx ++ ' ' :: ("node=".toList ++
        decimal dev.memoryReq.nodeId) ++ y)
    refine ⟨b, ?_⟩
    rw [← hb, nodeStart_eq, List.cons_append, List.cons_append, strip_cons (by decide),
      strip_cons (by decide), idxWord_eq]
    simp only [List.append_assoc]
  obtain ⟨b, hb⟩ := hstrip
  have hnode : memdevNode (strip (nodeStart dev ++ y)) = some dev.memoryReq.nodeId := by
    rw [memdevNode_strip, memdevNode_parts, hrest, partsNode_skip hword.2, partsNode_node]
  have hother : ¬ "VM id=".toList <+: strip (nodeStart dev ++ y) := by
    rw [hb]
    rintro ⟨r, hr⟩
    exact absurd (List.cons.inj hr).1 (by decide)
  rw [lineEvent, if_neg hother, if_pos (hb ▸ List.prefix_append _ _), hnode]
  rfl

/-- What of a line of a device is not a line of a VM. -/
theorem lineEvent_memdev {t : Text} (ht : ¬ "VM id=".toList <+: strip t) :
    lineEvent t = if "memdev=".toList <+: strip t then (memdevNode t).map .node else none := by
  rw [lineEvent, if_neg ht, memdevNode_strip]

/-- A text without a `V` is no line of a VM. -/
theorem not_vm {t : Text} (ht : 'V' ∉ t) : ¬ "VM id=".toList <+: strip t := by
  rintro ⟨rest, hrest⟩
  exact ht ((strip_sublist t).subset (hrest ▸ List.mem_append_left _ (by simp)))

theorem notMem_nodeStart (dev : MemoryDev) : 'V' ∉ nodeStart dev := by
  have hdecimal : ∀ n : ℤ, 'V' ∉ decimal n := notMem_decimal (by decide) (by decide)
  have hwords : 'V' ∉ "memdev=".toList ∧ 'V' ∉ "node=".toList := by simp
  simp only [nodeStart, List.mem_cons, List.mem_append, hwords, hdecimal, or_false, false_or]
  decide

/-- A line of a device that is cut before its node, which is one digit, names none. -/
theorem lineEvent_cut {n : ℕ} (hdigit : (decimal dev.memoryReq.nodeId).length = 1)
    (hn : n < (nodeStart dev).length) : lineEvent ((nodeStart dev).take n) = none := by
  have hnode : memdevNode ((nodeStart dev).take n) = none := by
    have hcut : ∀ k < 6, partsNode (fields ("node=".toList.take k)) = none := by decide
    have hlen : "node=".toList.length = 5 := by rfl
    rw [nodeStart_eq] at hn ⊢
    rw [memdevNode_parts]
    match n with
    | 0 =>
      rw [List.take_zero, fields_nil]
      exact partsNode_none (by simp)
    | 1 =>
      have hspace : fields [' '] = [] := by rfl
      rw [List.take_succ_cons, List.take_zero, hspace]
      exact partsNode_none (by simp)
    | k + 2 =>
      rw [List.take_succ_cons, List.take_succ_cons, fields_spaces, List.take_append]
      simp only [List.length_append, List.length_cons, hdigit, hlen] at hn
      by_cases hk : k ≤ (idxWord dev).length
      · rw [Nat.sub_eq_zero_of_le hk, List.take_zero, List.append_nil]
        rcases idxWord_fields dev k with hnil | ⟨hone, hother⟩
        · rw [hnil, fields_nil]
          exact partsNode_none (by simp)
        · rw [hone]
          exact partsNode_none (by simpa using hother)
      · obtain ⟨j, hj⟩ : ∃ j, k - (idxWord dev).length = j + 1 := ⟨k - (idxWord dev).length - 1, by omega⟩
        have hword := idxWord_fields dev k
        rw [List.take_of_length_le (by omega)] at hword ⊢
        rw [hj, List.take_succ_cons, List.take_append_of_le_length (by omega), fields_append (by decide)]
        rcases hword with hnil | ⟨hone, hother⟩
        · rw [hnil, fields_nil, List.nil_append]
          exact hcut j (by omega)
        · rw [hone, List.singleton_append, partsNode_skip hother]
          exact hcut j (by omega)
  have hv : 'V' ∉ (nodeStart dev).take n := fun h => notMem_nodeStart dev (List.mem_of_mem_take h)
  rw [lineEvent_memdev (not_vm hv), hnode, Option.map_none, ite_self]

/-! ### Paths -/

/-- The node a line spells that a path breaks off. -/
def spelledNode (raw : Text) : Option ℤ :=
  if "memdev=".toList <+: strip raw then memdevNode raw else none

/-- The nodes spelled in a path behind its first line. -/
def spelled (path : Text) : List ℤ :=
  ((decode path).splitOnP isLineBreak).tail.filterMap spelledNode

/-- What follows a path in the line. -/
structure PathTail (t : Text) : Prop where
  plain : Plain t
  noVm : 'V' ∉ t
  noKey : 'm' ∉ t
  noNode : 'd' ∉ t
  start : t = [] ∨ ∃ u, t = ' ' :: u ∧ 'i' ∉ u.head?

theorem pathEnd_chars (dev : MemoryDev) : ∀ c ∈ pathEnd dev,
    (IsAscii c ∧ isLineBreak c = false) ∧ c ≠ 'V' ∧ c ≠ 'm' ∧ c ≠ 'd' := by
  have hdecimal : ∀ n : ℤ, ∀ c ∈ decimal n,
      (IsAscii c ∧ isLineBreak c = false) ∧ c ≠ 'V' ∧ c ≠ 'm' ∧ c ≠ 'd' := by
    intro n c hc
    refine ⟨plain_decimal n c hc, ?_, ?_, ?_⟩
    · exact fun h => notMem_decimal (by decide) (by decide) n (h ▸ hc)
    · exact fun h => notMem_decimal (by decide) (by decide) n (h ▸ hc)
    · exact fun h => notMem_decimal (by decide) (by decide) n (h ▸ hc)
  have hword : ∀ s : String, (s.toList.all fun c => (decide (IsAscii c) && !isLineBreak c) &&
      (c != 'V' && (c != 'm' && c != 'd'))) = true → ∀ c ∈ s.toList,
      (IsAscii c ∧ isLineBreak c = false) ∧ c ≠ 'V' ∧ c ≠ 'm' ∧ c ≠ 'd' := by
    intro s hs c hc
    have := List.all_eq_true.mp hs c hc
    simpa using this
  intro c hc
  rw [pathEnd] at hc
  simp only [List.mem_cons, List.mem_append] at hc
  rcases hc with rfl | hc | hc | hc | hc | hc | hc | hc
  · decide
  · exact hword "size=" (by rfl) c hc
  · exact hdecimal _ c hc
  · exact hword "MB align=" (by rfl) c hc
  · exact hdecimal _ c hc
  · exact hword "MB offset=" (by rfl) c hc
  · exact hdecimal _ c hc
  · exact hword "MB" (by rfl) c hc

theorem pathTail_take (dev : MemoryDev) (k : ℕ) : PathTail ((pathEnd dev).take k) := by
  have hchars := fun c hc => pathEnd_chars dev c (List.mem_of_mem_take (i := k) hc)
  refine ⟨fun c hc => (hchars c hc).1, fun h => (hchars _ h).2.1 rfl, fun h => (hchars _ h).2.2.1 rfl,
    fun h => (hchars _ h).2.2.2 rfl, ?_⟩
  match k with
  | 0 => exact .inl rfl
  | 1 => exact .inr ⟨[], rfl, by simp⟩
  | j + 2 =>
    refine .inr ⟨_, List.take_succ_cons, ?_⟩
    have hsize : "size=".toList = 's' :: "ize=".toList := by rfl
    rw [hsize, List.cons_append, List.take_succ_cons, List.head?_cons]
    simp

theorem mem_of_mem_fields {c : Char} {f t : Text} (hf : f ∈ fields t) (hc : c ∈ f) : c ∈ t := by
  have hle := splitOnP_count_le (List.mem_of_mem_filter hf) c
  rw [← List.count_pos_iff] at hc ⊢
  omega

theorem spelledNode_event {l : Text} (hl : ' ' ∉ l) : lineEvent l = (spelledNode l).map .node := by
  have hvm : ¬ "VM id=".toList <+: strip l := by
    rintro ⟨r, hr⟩
    exact hl ((strip_sublist _).subset (hr ▸ List.mem_append_left _ (by simp)))
  rw [lineEvent_memdev hvm, spelledNode]
  split_ifs <;> rfl

/-- What follows the path does not change how its last line is read. -/
theorem lineEvent_tail {l t : Text} (hl : ' ' ∉ l) (ht : PathTail t) :
    lineEvent (l ++ t) = lineEvent l := by
  rcases ht.start with rfl | ⟨u, rfl, hu⟩
  · rw [List.append_nil]
  have hdrop := @List.dropWhile_append _ isWhitespace l (' ' :: u)
  have hspace : ' ' ∉ l.dropWhile isWhitespace := fun h => hl ((List.dropWhile_sublist _).subset h)
  have hrest : ∀ {c}, c ∈ (' ' :: u).dropWhile isWhitespace → c ∈ ' ' :: u := fun h =>
    (List.dropWhile_sublist _).subset h
  have hvm : ¬ "VM id=".toList <+: strip (l ++ ' ' :: u) := by
    rw [prefix_strip_iff (by simp) (by simp [isWhitespace]) (by simp [isWhitespace]), hdrop]
    rintro ⟨r, hr⟩
    split_ifs at hr
    · exact ht.noVm (hrest (hr ▸ List.mem_append_left _ (by simp)))
    · have hshape : "VM id=".toList ++ r = "VM".toList ++ ' ' :: ("id=".toList ++ r) := by simp
      have hcut := congrArg (splitFirst ' ') (hshape.symm.trans hr)
      rw [splitFirst_append (by decide), splitFirst_append hspace] at hcut
      have htail := (Prod.mk.inj hcut).2
      have hid : "id=".toList = 'i' :: "d=".toList := by rfl
      rw [hid, List.cons_append] at htail
      rw [← htail] at hu
      exact hu rfl
  have hvm' : ¬ "VM id=".toList <+: strip l := by
    rintro ⟨r, hr⟩
    exact hl ((strip_sublist _).subset (hr ▸ List.mem_append_left _ (by simp)))
  have hkey : "memdev=".toList <+: strip (l ++ ' ' :: u) ↔ "memdev=".toList <+: strip l := by
    have hkeySpace : ' ' ∉ "memdev=".toList := by simp
    rw [prefix_strip_iff (by simp) (by simp [isWhitespace]) (by simp [isWhitespace]), hdrop,
      prefix_strip_iff (by simp) (by simp [isWhitespace]) (by simp [isWhitespace])]
    split_ifs with hempty
    · refine iff_of_false ?_ ?_
      · rintro ⟨r, hr⟩
        exact ht.noKey (hrest (hr ▸ List.mem_append_left _ (by simp)))
      · rw [List.isEmpty_iff.mp hempty]
        rintro ⟨r, hr⟩
        cases (List.append_eq_nil_iff.mp hr).1
    · constructor
      · rintro ⟨r, hr⟩
        rcases List.append_eq_append_iff.mp hr with ⟨x, hx, _⟩ | ⟨x, hx, hx'⟩
        · exact ⟨x, hx.symm⟩
        · cases x with
          | nil => rw [List.append_nil] at hx; exact ⟨[], by rw [hx, List.append_nil]⟩
          | cons c x =>
            obtain rfl : ' ' = c := (List.cons.inj hx').1
            exact absurd (hx ▸ (by simp)) hkeySpace
      · exact fun h => h.trans (List.prefix_append _ _)
  have hnode : memdevNode (l ++ ' ' :: u) = memdevNode l := by
    rw [memdevNode_parts, fields_append (by decide), partsNode_append, memdevNode_parts]
    rintro f hf ⟨r, hr⟩
    exact ht.noNode (List.mem_cons_of_mem _ (mem_of_mem_fields hf
      (hr ▸ List.mem_append_left _ (by simp))))
  rw [lineEvent_memdev hvm, lineEvent_memdev hvm', hnode]
  simp only [hkey]

theorem lineEvent_pathStart (dev : MemoryDev) (y : Text) :
    lineEvent (pathStart dev ++ y) = some (.node dev.memoryReq.nodeId) := by
  rw [pathStart, List.append_assoc]
  exact lineEvent_node dev (.inr ⟨_, rfl⟩)

theorem plain_nodeStart (dev : MemoryDev) : Plain (nodeStart dev) := by
  rw [nodeStart]
  exact plain_cons (by decide) <| plain_cons (by decide) <| (plain_word (by rfl)).append <|
    (plain_decimal _).append <| plain_cons (by decide) <|
    (plain_word (by rfl)).append (plain_decimal _)

theorem plain_pathStart (dev : MemoryDev) : Plain (pathStart dev) :=
  (plain_nodeStart dev).append (plain_cons (by decide) (plain_word (by rfl)))

/-- A line that is read into its path. -/
theorem readLines_path (dev : MemoryDev) {d t : Text} (hd : ' ' ∉ d) (ht : PathTail t) :
    readLines lineEvent (pathStart dev ++ (d ++ t)) =
      (dev.memoryReq.nodeId :: (d.splitOnP isLineBreak).tail.filterMap spelledNode).map .node := by
  obtain ⟨ls, l, hsplit, hsplit'⟩ := splitOnP_append_line (fun c hc => (ht.plain c hc).2) d
  have hpiece : ∀ p ∈ d.splitOnP isLineBreak, ' ' ∉ p := by
    intro p hp hspace
    have hle := splitOnP_count_le hp ' '
    rw [← List.count_pos_iff] at hspace
    exact hd (List.count_pos_iff.mp (by omega))
  rw [readLines, splitOnP_line_append fun c hc => (plain_pathStart dev c hc).2, hsplit', hsplit]
  rw [hsplit] at hpiece
  have hlast := lineEvent_tail (hpiece l (by simp)) ht
  cases ls with
  | nil =>
    rw [List.nil_append, List.modifyHead_cons, List.filterMap_cons, lineEvent_pathStart]
    rfl
  | cons x xs =>
    have hevents : xs.filterMap lineEvent = (xs.filterMap spelledNode).map .node := by
      rw [List.map_filterMap]
      exact List.filterMap_congr fun p hp => spelledNode_event (hpiece p (by simp [hp]))
    rw [List.cons_append, List.modifyHead_cons, List.filterMap_cons, lineEvent_pathStart,
      List.cons_append, List.tail_cons, List.filterMap_append, List.filterMap_append, hevents,
      List.filterMap_cons, hlast, spelledNode_event (hpiece l (by simp)), List.filterMap_cons]
    cases spelledNode l <;> simp

theorem spelled_nil : spelled [] = [] := by decide

theorem decode_tail {p t : Text} (ht : PathTail t) : decode (p ++ t) = decode p ++ t := by
  rcases ht.start with rfl | ⟨u, rfl, _⟩
  · rw [List.append_nil, List.append_nil]
  · rw [decode_append (by decide), decode_ascii fun c hc => (ht.plain c (List.mem_cons_of_mem _ hc)).1]

/-- The first bytes of a line of a device give its node, and what its path spells. -/
theorem read_memdevLine (hdigit : (decimal dev.memoryReq.nodeId).length = 1)
    (hpath : ' ' ∉ dev.memoryReq.devPath) (n : ℕ) :
    readLines lineEvent (decode ((memdevLine dev).take n)) =
      ((if (nodeStart dev).length ≤ n then [dev.memoryReq.nodeId] else []) ++
        spelled (dev.memoryReq.devPath.take (n - (pathStart dev).length))).map .node := by
  have hstarts : (pathStart dev).length = (nodeStart dev).length + 6 := by
    have hlen : "path=".toList.length = 5 := by rfl
    simp only [pathStart, List.length_append, List.length_cons, hlen]
  rw [memdevLine_eq, readLines_newline lineEvent_nil]
  by_cases hn : n ≤ (pathStart dev).length
  · have hplain : Plain ((pathStart dev).take n) := fun c hc =>
      plain_pathStart dev c (List.mem_of_mem_take hc)
    rw [List.append_assoc, List.take_append_of_le_length hn, decode_ascii fun c hc => (hplain c hc).1,
      readLines_line fun c hc => (hplain c hc).2, Nat.sub_eq_zero_of_le hn, List.take_zero, spelled_nil,
      List.append_nil]
    split_ifs with hnode
    · have hy : ∀ k, (' ' :: "path=".toList).take k = [] ∨ ∃ rest, (' ' :: "path=".toList).take k = ' ' :: rest := by
        intro k
        cases k with
        | zero => exact .inl rfl
        | succ k => exact .inr ⟨_, rfl⟩
      rw [pathStart, List.take_append, List.take_of_length_le hnode, lineEvent_node dev (hy _)]
      rfl
    · rw [not_le] at hnode
      rw [pathStart, List.take_append_of_le_length hnode.le, lineEvent_cut hdigit hnode]
      rfl
  · rw [not_le] at hn
    have hspace : ' ' ∉ decode (dev.memoryReq.devPath.take (n - (pathStart dev).length)) := fun h =>
      hpath (List.mem_of_mem_take ((mem_decode (by decide)).mp h))
    have htail := pathTail_take dev (n - (pathStart dev).length - dev.memoryReq.devPath.length)
    rw [List.append_assoc, List.take_append, List.take_of_length_le hn.le, List.take_append,
      decode_ascii_append fun c hc => (plain_pathStart dev c hc).1, decode_tail htail,
      readLines_path dev hspace htail, if_pos (by omega)]
    rfl

end Ramryder.VmDump
