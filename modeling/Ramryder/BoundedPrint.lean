import Ramryder.VmDump

/-! The two functions that print a table into a caller's buffer, for a buffer of any size. Each is
also run with an `snprintf` that insists on a start inside the buffer. -/
namespace Ramryder.BoundedPrint
open CMachine CText GuestAgents MemoryPool MemoryPoolSpec Ownership VmDump VmManager VmManagerSpec

variable {m : Manager} {pool : Pool} {size offset : ℕ} {buffer : Text}

/-- One `offset += snprintf(buffer + offset, ..)`. -/
abbrev Append := Text → ℕ → Text → Outcome (Text × ℕ)

/-- `appendf` where the call starts before the end of the buffer, and a fault elsewhere. -/
def insideAppendf (size : ℕ) : Append := fun buffer offset text =>
  if offset < size then appendf size buffer offset text else .error .bufferOverflow

/-! ### The functions over any `snprintf` -/

def usageLoopBy (append : Append) (pool : Pool) (size : ℕ) : ℕ → ℕ → Text → ℕ → Outcome Text
  | 0, _, buffer, _ => .ok buffer
  | n+1, i, buffer, offset =>
    if offset < size then do
      let (buffer, offset) ← append buffer offset (usageRow pool i)
      if size - 1 ≤ offset then .ok buffer
      else usageLoopBy append pool size n (i + 1) buffer offset
    else .ok buffer

def memoryPoolGetUsageBy (append : Append) (pool : Pool) (size : ℕ) : Outcome Text :=
  if pool.numDevs = 0 then do
    let (buffer, _) ← append [] 0 (sprintf "No memory devices initialized.\n" [])
    .ok buffer
  else do
    let (buffer, offset) ← append [] 0 usageHeader
    usageLoopBy append pool size pool.numDevs 0 buffer offset

def dumpDevsBy (append : Append) (size : ℕ) :
    List MemoryDev → Text → ℕ → Outcome (Text × ℕ)
  | [], buffer, offset => .ok (buffer, offset)
  | dev :: devs, buffer, offset => do
    let (buffer, offset) ← append buffer offset (memdevLine dev)
    if size ≤ offset then .ok (buffer, offset) else dumpDevsBy append size devs buffer offset

def dumpVmsBy (append : Append) (m : Manager) (size : ℕ) :
    List (Fin maxNumVm) → Text → ℕ → Outcome Text
  | [], buffer, _ => .ok buffer
  | i :: is, buffer, offset =>
    if size ≤ offset then .ok buffer
    else if !(m.vms i).initialized then dumpVmsBy append m size is buffer offset
    else do
      let (buffer, offset) ← append buffer offset (vmLine (m.vms i))
      if size ≤ offset then .ok buffer
      else do
        let (buffer, offset) ← dumpDevsBy append size (m.vms i).attachedDevs buffer offset
        dumpVmsBy append m size is buffer offset

def vmMngrDumpStateBy (append : Append) (m : Manager) (size : ℕ) : Outcome Text := do
  let (buffer, offset) ← append [] 0 (sprintf "VM Count: %d\n" [.int m.count])
  if size ≤ offset then .ok buffer
  else if m.count = 0 then do
    let (buffer, _) ← append buffer offset (sprintf "No VM created.\n" [])
    .ok buffer
  else dumpVmsBy append m size (List.finRange maxNumVm) buffer offset

/-! ### The functions of the manager -/

theorem usageLoopBy_appendf (n i : ℕ) (buffer : Text) (offset : ℕ) :
    usageLoopBy (appendf size) pool size n i buffer offset =
      usageLoop pool size n i buffer offset := by
  induction n generalizing i buffer offset with
  | zero => rfl
  | succ n ih =>
    rw [usageLoopBy, usageLoop]
    split
    · refine bind_congr fun printed => ?_
      dsimp only
      rw [ih]
    · rfl

/-- With `snprintf` itself it is the function of the pool. -/
theorem memoryPoolGetUsageBy_appendf (pool : Pool) (size : ℕ) :
    memoryPoolGetUsageBy (appendf size) pool size = memoryPoolGetUsage pool size := by
  unfold memoryPoolGetUsageBy memoryPoolGetUsage
  split
  · rw [appendf, if_pos (Nat.zero_le _), ok_bind, List.nil_append]
    rfl
  · exact bind_congr fun printed => usageLoopBy_appendf _ _ _ _

theorem dumpDevsBy_appendf (devs : List MemoryDev) (buffer : Text) (offset : ℕ) :
    dumpDevsBy (appendf size) size devs buffer offset = dumpDevs size devs buffer offset := by
  induction devs generalizing buffer offset with
  | nil => rfl
  | cons dev devs ih =>
    rw [dumpDevsBy, dumpDevs]
    refine bind_congr fun printed => ?_
    dsimp only
    rw [ih]

theorem dumpVmsBy_appendf (is : List (Fin maxNumVm)) (buffer : Text) (offset : ℕ) :
    dumpVmsBy (appendf size) m size is buffer offset = dumpVms m size is buffer offset := by
  induction is generalizing buffer offset with
  | nil => rfl
  | cons i is ih =>
    rw [dumpVmsBy, dumpVms]
    simp only [dumpDevsBy_appendf, ih]

/-- With `snprintf` itself it is the function of the VM manager. -/
theorem vmMngrDumpStateBy_appendf (m : Manager) (size : ℕ) :
    vmMngrDumpStateBy (appendf size) m size = vmMngrDumpState m size := by
  unfold vmMngrDumpStateBy vmMngrDumpState
  simp only [dumpVmsBy_appendf]

/-! ### Every start is inside the buffer -/

theorem insideAppendf_eq (h : offset < size) (buffer text : Text) :
    insideAppendf size buffer offset text = appendf size buffer offset text := if_pos h

/-- The row loop starts every `snprintf` inside the buffer. -/
theorem usageLoopBy_inside (n i : ℕ) (buffer : Text) (offset : ℕ) :
    usageLoopBy (insideAppendf size) pool size n i buffer offset =
      usageLoopBy (appendf size) pool size n i buffer offset := by
  induction n generalizing i buffer offset with
  | zero => rfl
  | succ n ih =>
    rw [usageLoopBy, usageLoopBy]
    split
    · rename_i hlt
      rw [insideAppendf_eq hlt]
      refine bind_congr fun printed => ?_
      dsimp only
      rw [ih]
    · rfl

theorem memoryPoolGetUsageBy_inside (hsize : 0 < size) :
    memoryPoolGetUsageBy (insideAppendf size) pool size =
      memoryPoolGetUsageBy (appendf size) pool size := by
  unfold memoryPoolGetUsageBy
  rw [insideAppendf_eq hsize, insideAppendf_eq hsize]
  split
  · rfl
  · exact bind_congr fun printed => usageLoopBy_inside _ _ _ _

theorem dumpDevsBy_inside (devs : List MemoryDev) (buffer : Text) (hoffset : offset < size) :
    dumpDevsBy (insideAppendf size) size devs buffer offset =
      dumpDevsBy (appendf size) size devs buffer offset := by
  induction devs generalizing buffer offset with
  | nil => rfl
  | cons dev devs ih =>
    rw [dumpDevsBy, dumpDevsBy, insideAppendf_eq hoffset]
    refine bind_congr fun printed => ?_
    dsimp only
    split
    · rfl
    · rename_i hroom
      exact ih _ (not_le.mp hroom)

theorem dumpVmsBy_inside (is : List (Fin maxNumVm)) (buffer : Text) (offset : ℕ) :
    dumpVmsBy (insideAppendf size) m size is buffer offset =
      dumpVmsBy (appendf size) m size is buffer offset := by
  induction is generalizing buffer offset with
  | nil => rfl
  | cons i is ih =>
    rw [dumpVmsBy, dumpVmsBy]
    split
    · rfl
    rename_i hoffset
    split
    · exact ih _ _
    rw [insideAppendf_eq (not_le.mp hoffset)]
    refine bind_congr fun printed => ?_
    dsimp only
    split
    · rfl
    · rename_i hroom
      rw [dumpDevsBy_inside _ _ (not_le.mp hroom)]
      exact bind_congr fun printed => ih _ _

theorem vmMngrDumpStateBy_inside (hsize : 0 < size) :
    vmMngrDumpStateBy (insideAppendf size) m size = vmMngrDumpStateBy (appendf size) m size := by
  unfold vmMngrDumpStateBy
  rw [insideAppendf_eq hsize]
  refine bind_congr fun printed => ?_
  dsimp only
  split
  · rfl
  rename_i hroom
  split
  · rw [insideAppendf_eq (not_le.mp hroom)]
  · exact dumpVmsBy_inside _ _ _

/-! ### What is printed -/

/-- The table of devices where nothing is cut off. -/
def fullUsage (pool : Pool) : Text :=
  if pool.numDevs = 0 then sprintf "No memory devices initialized.\n" []
  else usageHeader ++ (List.range pool.numDevs).flatMap (usageRow pool)

/-- The list of the VMs where nothing is cut off. -/
def fullState (m : Manager) : Text :=
  if m.count = 0 then countLine m ++ sprintf "No VM created.\n" [] else fullDump m

theorem appendf_first (hsize : 0 < size) (text : Text) :
    appendf size [] 0 text = .ok (text.take (size - 1), text.length) :=
  @appendf_record size [] text hsize

theorem usageLoop_full (n i : ℕ) (hfull : size ≤ offset) :
    usageLoop pool size n i buffer offset = .ok buffer := by
  cases n with
  | zero => rfl
  | succ n => rw [usageLoop, if_neg (not_lt.mpr hfull)]

/-- The table of devices, cut to a buffer of any size. -/
theorem memoryPoolGetUsage_cut (hsize : 0 < size) :
    memoryPoolGetUsage pool size = .ok ((fullUsage pool).take (size - 1)) := by
  unfold fullUsage
  split
  · rename_i hnone
    rw [memoryPoolGetUsage, if_pos hnone, snprintf]
  rename_i hdevs
  by_cases hheader : usageHeader.length < size
  · exact memoryPoolGetUsage_eq hheader (by omega)
  · rw [memoryPoolGetUsage, if_neg hdevs, appendf_first hsize, ok_bind]
    dsimp only
    rw [usageLoop_full _ _ (by omega), List.take_append_of_le_length (by omega)]

/-- The list of the VMs, cut to a buffer of any size. -/
theorem vmMngrDumpState_cut (hsize : 0 < size) :
    vmMngrDumpState m size = .ok ((fullState m).take (size - 1)) := by
  rw [vmMngrDumpState]
  change (appendf size [] 0 (countLine m) >>= _) = _
  rw [appendf_first hsize, ok_bind]
  dsimp only
  have hstart : countLine m <+: fullState m := by
    unfold fullState fullDump
    split
    · exact List.prefix_append _ _
    · exact List.prefix_append _ _
  split
  · rename_i hfull
    obtain ⟨rest, hrest⟩ := hstart
    rw [← hrest, List.take_append_of_le_length (by omega)]
  rename_i hroom
  rw [not_le] at hroom
  rw [List.take_of_length_le (by omega), fullState]
  split
  · rw [appendf_record hroom, ok_bind]
  · rw [dumpVms_eq hroom, fullDump]

/-- Both functions leave in a buffer of any size the part of the whole text that fits before the
terminator, also when they are run with an `snprintf` that has to start inside the buffer. -/
theorem printed_cut (m : Manager) {bufferSize : ℕ} (hsize : 1 ≤ bufferSize) :
    memoryPoolGetUsage m.pool bufferSize = .ok ((fullUsage m.pool).take (bufferSize - 1)) ∧
      memoryPoolGetUsageBy (insideAppendf bufferSize) m.pool bufferSize =
        .ok ((fullUsage m.pool).take (bufferSize - 1)) ∧
      vmMngrDumpState m bufferSize = .ok ((fullState m).take (bufferSize - 1)) ∧
      vmMngrDumpStateBy (insideAppendf bufferSize) m bufferSize =
        .ok ((fullState m).take (bufferSize - 1)) := by
  refine ⟨memoryPoolGetUsage_cut hsize, ?_, vmMngrDumpState_cut hsize, ?_⟩
  · rw [memoryPoolGetUsageBy_inside hsize, memoryPoolGetUsageBy_appendf, memoryPoolGetUsage_cut hsize]
  · rw [vmMngrDumpStateBy_inside hsize, vmMngrDumpStateBy_appendf, vmMngrDumpState_cut hsize]

/-- A buffer that ends inside the header. -/
theorem printed_cut_short :
    memoryPoolGetUsage smallPool 20 = .ok ((fullUsage smallPool).take 19) ∧
      memoryPoolGetUsageBy (insideAppendf 20) smallPool 20 =
        .ok ((fullUsage smallPool).take 19) ∧
      vmMngrDumpState (initialManager smallPool) 20 =
        .ok ((fullState (initialManager smallPool)).take 19) ∧
      vmMngrDumpStateBy (insideAppendf 20) (initialManager smallPool) 20 =
        .ok ((fullState (initialManager smallPool)).take 19) :=
  printed_cut (initialManager smallPool) (by decide)

end Ramryder.BoundedPrint
