import Ramryder.CoreSet
import Ramryder.GuestAgents
import Ramryder.MemoryPool
import Ramryder.PerfCounter

/-! The VM manager: the table of VM slots with their lifecycle, perf counters and
memory devices, over the memory pool and the guest agents. -/
namespace Ramryder.VmManager
open CInt CMachine CText CoreSet GuestAgents MemoryPool PerfCounter

def coreSetLen : ℕ := 256

structure VmMemReq where
  devPath : Text
  offsetMb : ℤ
  sizeMb : ℤ
  alignMb : ℤ
  memdevIdx : ℤ
  deriving DecidableEq, Repr

structure MemoryDev where
  memdevIdx : ℤ
  memoryReq : MemoryRequest
  deriving DecidableEq, Repr

structure VmInstance where
  vmId : ℤ
  numCores : ℤ
  coreSet : Text
  coreIndex : ℕ
  initialized : Bool
  running : Bool
  perfEventFds : PerfEventType → FdArray
  cumPerfEventCounts : PerfEventType → ℕ
  deltaPerfEventCounts : PerfEventType → ℕ
  memdevCounter : ℤ
  attachedDevs : List MemoryDev

/-- The globals of the process: `g_vm_mngr`, the pool and `g_agent_manager`. -/
structure Manager where
  count : ℤ
  vms : Fin maxNumVm → VmInstance
  pool : Pool
  agents : GuestAgentManager

def Manager.setVm (m : Manager) (i : Fin maxNumVm) (vm : VmInstance) : Manager :=
  { m with vms := Function.update m.vms i vm }

/-- The slot of the first initialized VM with this id. -/
def vmMngrGetInstance (m : Manager) (vmId : ℤ) : Option (Fin maxNumVm) :=
  (List.finRange maxNumVm).find? fun i => (m.vms i).vmId == vmId && (m.vms i).initialized

def vmMngrCheckExit (m : Manager) (vmId : ℤ) : Bool := (vmMngrGetInstance m vmId).isSome

/-! ### Perf counters -/

/-- The loop over the event types in `__vm_perf_counter_setup_core`. -/
def setupEvents (kernel : PerfKernel) (coreId : ℤ) :
    List PerfEventType → ℤ → VmInstance → Outcome VmInstance
  | [], _, vm => .ok vm
  | j :: js, leaderFd, vm => do
    let leaderFd := if perfEventIsLeaderArr j then -1 else leaderFd
    let fd := kernel.setup vm.coreIndex
      ⟨coreId, perfEventConfigArr j, perfEventConfig1Arr j, perfEventPinArr j, leaderFd⟩
    let array ← (vm.perfEventFds j).store vm.coreIndex fd
    bugOn .perfEventFdNonNegative (fd < 0)
    setupEvents kernel coreId js (if leaderFd = -1 then fd else leaderFd)
      { vm with perfEventFds := Function.update vm.perfEventFds j array }

def vmPerfCounterSetupCore (kernel : PerfKernel) (vm : VmInstance) (coreId : ℤ) :
    Outcome VmInstance := do
  bugOn .coreIdNonNegative (coreId < 0)
  let vm ← setupEvents kernel coreId perfEventTypes (-1) vm
  .ok { vm with coreIndex := vm.coreIndex + 1 }

def vmPerfCounterSetup (kernel : PerfKernel) (vm : VmInstance) : Outcome VmInstance := do
  bugOn .numCoresPositive (vm.numCores ≤ 0)
  vmMngrForEachCore vm.coreSet (vmPerfCounterSetupCore kernel)
    { vm with
      perfEventFds := fun _ => .alloc vm.numCores.toNat
      cumPerfEventCounts := fun _ => 0
      deltaPerfEventCounts := fun _ => 0
      coreIndex := 0 }

/-- The difference of two `uint64_t`, which wraps where the second one is larger. -/
def sub64 (a b : ℕ) : ℕ := (((a : ℤ) - b) % 2 ^ 64).toNat

/-- The loop over the cores in `vm_perf_counter_teardown`: the 64-bit sum and the closed array. -/
def teardownCores (kernel : PerfKernel) : ℕ → ℕ → ℕ → FdArray → Outcome (ℕ × FdArray)
  | 0, _, sum, array => .ok (sum, array)
  | n+1, k, sum, array => do
    let (fd, array) ← array.close k
    teardownCores kernel n (k + 1) ((sum + kernel.read fd) % 2 ^ 64) array

def teardownEvents (kernel : PerfKernel) : List PerfEventType → VmInstance → Outcome VmInstance
  | [], vm => .ok vm
  | j :: js, vm => do
    let (sum, array) ← teardownCores kernel vm.numCores.toNat 0 0 (vm.perfEventFds j)
    let cum := vm.cumPerfEventCounts j
    let newCum := if sum < cum then cum else sum
    let array ← array.free
    teardownEvents kernel js { vm with
      perfEventFds := Function.update vm.perfEventFds j array
      cumPerfEventCounts := Function.update vm.cumPerfEventCounts j newCum
      deltaPerfEventCounts := Function.update vm.deltaPerfEventCounts j (sub64 newCum cum) }

def vmPerfCounterTeardown (kernel : PerfKernel) (vm : VmInstance) : Outcome VmInstance :=
  teardownEvents kernel perfEventTypes vm

/-- The loop over the cores in `vm_mngr_update_perf_counters`: the 64-bit sum. -/
def readCores (kernel : PerfKernel) (array : FdArray) : ℕ → ℕ → ℕ → Outcome ℕ
  | 0, _, sum => .ok sum
  | n+1, k, sum => do
    let fd ← array.read k
    readCores kernel array n (k + 1) ((sum + kernel.read fd) % 2 ^ 64)

def updateEvents (kernel : PerfKernel) : List PerfEventType → VmInstance → Outcome VmInstance
  | [], vm => .ok vm
  | j :: js, vm => do
    let sum ← readCores kernel (vm.perfEventFds j) vm.numCores.toNat 0 0
    let cum := vm.cumPerfEventCounts j
    let newCum := if sum < cum then cum else sum
    updateEvents kernel js { vm with
      cumPerfEventCounts := Function.update vm.cumPerfEventCounts j newCum
      deltaPerfEventCounts := Function.update vm.deltaPerfEventCounts j (sub64 newCum cum) }

/-- The loop over the slots. -/
def updateVms (kernel : PerfKernel) : List (Fin maxNumVm) → Manager → Outcome Manager
  | [], m => .ok m
  | i :: slots, m =>
    if (m.vms i).running then do
      let vm ← updateEvents kernel perfEventTypes (m.vms i)
      updateVms kernel slots (m.setVm i vm)
    else updateVms kernel slots m

def vmMngrUpdatePerfCounters (kernel : PerfKernel) (m : Manager) : Outcome Manager :=
  if m.count = 0 then .ok m else updateVms kernel (List.finRange maxNumVm) m

/-! ### Lifecycle -/

def vmNumCoreUpdate (vm : VmInstance) (_coreId : ℤ) : Outcome VmInstance := do
  let numCores ← cInt (vm.numCores + 1)
  .ok { vm with numCores := numCores }

/-- Where the search for a free entry stops: the first free slot, or the last slot. -/
def freeEntry (m : Manager) : Fin maxNumVm :=
  ((List.finRange maxNumVm).find? fun i => !(m.vms i).initialized).getD ⟨15, by decide⟩

def vmMngrInstanceCreate (m : Manager) (vmId : ℤ) (coreSet : Text) : Outcome (ℤ × Manager) := do
  if maxNumVm ≤ m.count then .ok (-1, m)
  else if vmMngrCheckExit m vmId then .ok (-1, m)
  else do
    let i := freeEntry m
    bugOn .freeSlotUninitialized (m.vms i).initialized
    let vm := { m.vms i with
      vmId := vmId
      numCores := 0
      memdevCounter := 0
      coreSet := coreSet.take (coreSetLen - 1) }
    let vm ← vmMngrForEachCore vm.coreSet vmNumCoreUpdate vm
    .ok (0, { m.setVm i { vm with attachedDevs := [], initialized := true } with
      count := m.count + 1 })

/-- What a VM's start meets outside the process. -/
structure StartEnv where
  kernel : PerfKernel
  connect : Text → ℤ

def vmMngrInstanceStart (env : StartEnv) (m : Manager) (vmId : ℤ) : Outcome (ℤ × Manager) := do
  match vmMngrGetInstance m vmId with
  | none => .ok (-1, m)
  | some i =>
    if (m.vms i).running then .ok (0, m)
    else do
      bugOn .startedInitialized (!(m.vms i).initialized)
      let vm ← vmPerfCounterSetup env.kernel (m.vms i)
      let (ret, agents) ← guestAgentInit env.connect m.agents vmId
      if ret < 0 then do
        let vm ← vmPerfCounterTeardown env.kernel vm
        .ok (-1, { m.setVm i vm with agents := agents })
      else .ok (0, { m.setVm i { vm with running := true } with agents := agents })

/-- The device list is not freed; `create` empties it when the slot is used again. -/
def vmMngrInstanceDestroy (m : Manager) (vmId : ℤ) : Outcome (ℤ × Manager) := do
  match vmMngrGetInstance m vmId with
  | none => .ok (-1, m)
  | some i =>
    if (m.vms i).running then .ok (-1, m)
    else do
      let pool ← memoryPoolReleaseVmMemory m.pool (m.vms i).vmId
      .ok (0, { m.setVm i { m.vms i with coreSet := [], initialized := false } with
        pool := pool
        count := m.count - 1 })

def vmMngrInstanceStop (kernel : PerfKernel) (m : Manager) (vmId : ℤ) : Outcome (ℤ × Manager) := do
  match vmMngrGetInstance m vmId with
  | none => .ok (-1, m)
  | some i =>
    if !(m.vms i).running then .ok (0, m)
    else do
      let vm := { m.vms i with running := false }
      let agents ← guestAgentCleanup m.agents vm.vmId
      let vm ← vmPerfCounterTeardown kernel vm
      .ok (0, { m.setVm i vm with agents := agents })

/-! ### Memory devices -/

def vmMngrGetNewMemdevIdx (m : Manager) (vmId : ℤ) : Outcome (ℤ × Manager) := do
  match vmMngrGetInstance m vmId with
  | none => .ok (-1, m)
  | some i => do
    let idx := (m.vms i).memdevCounter
    let counter ← cInt (idx + 1)
    .ok (idx, m.setVm i { m.vms i with memdevCounter := counter })

/-- What the caller's `struct vm_mem_req` is filled with for a device. -/
def vmMemReqOf (dev : MemoryDev) : VmMemReq where
  devPath := dev.memoryReq.devPath.take (devPathLen - 1)
  offsetMb := dev.memoryReq.offsetMb
  sizeMb := dev.memoryReq.sizeMb
  alignMb := dev.memoryReq.alignMb
  memdevIdx := dev.memdevIdx

/-- The filled request where the source returns 0, `none` where it returns -1. -/
def vmMngrInstanceAllocMem (m : Manager) (nodeId vmId sizeMb : ℤ) :
    Outcome (Option VmMemReq × Manager) := do
  match vmMngrGetInstance m vmId with
  | none => .ok (none, m)
  | some i => do
    let (req, pool) ← memoryPoolAllocateSegments m.pool nodeId vmId sizeMb
    match req with
    | none => .ok (none, { m with pool := pool })
    | some req => do
      let (idx, m) ← vmMngrGetNewMemdevIdx { m with pool := pool } vmId
      let dev : MemoryDev := ⟨idx, req⟩
      let vm := m.vms i
      .ok (some (vmMemReqOf dev), m.setVm i { vm with attachedDevs := vm.attachedDevs ++ [dev] })

def findMemoryDev (vm : VmInstance) (memdevIdx : ℤ) : Option MemoryDev :=
  vm.attachedDevs.find? fun dev => dev.memdevIdx == memdevIdx

def vmMngrInstanceFreeMem (m : Manager) (vmId memdevIdx : ℤ) : Outcome (ℤ × Manager) := do
  match vmMngrGetInstance m vmId with
  | none => .ok (-1, m)
  | some i =>
    match findMemoryDev (m.vms i) memdevIdx with
    | none => .ok (-1, m)
    | some dev => do
      let req := dev.memoryReq
      let (ret, pool) ← memoryPoolReleaseSegments m.pool req.nodeId vmId req.offsetMb req.sizeMb
      if ret < 0 then .ok (-1, { m with pool := pool })
      else
        let vm := m.vms i
        .ok (0, { m.setVm i { vm with
          attachedDevs := vm.attachedDevs.eraseP fun d => d.memdevIdx == memdevIdx } with
          pool := pool })

def vmMngrInstanceGetMem (m : Manager) (vmId memdevIdx : ℤ) : Option MemoryRequest := do
  let i ← vmMngrGetInstance m vmId
  let dev ← findMemoryDev (m.vms i) memdevIdx
  some dev.memoryReq

/-! ### State dump -/

def memdevLine (dev : MemoryDev) : Text :=
  let req := dev.memoryReq
  sprintf "  memdev=%d node=%d path=%s size=%dMB align=%dMB offset=%dMB\n"
    [.int dev.memdevIdx, .int req.nodeId, .text req.devPath, .int req.sizeMb, .int req.alignMb,
      .int req.offsetMb]

def vmLine (vm : VmInstance) : Text :=
  sprintf "VM id=%d cores=%d coreset=[%s] memdev_count=%d\n"
    [.int vm.vmId, .int vm.numCores, .text vm.coreSet, .int vm.memdevCounter]

def dumpDevs (bufferSize : ℕ) : List MemoryDev → Text → ℕ → Outcome (Text × ℕ)
  | [], buffer, offset => .ok (buffer, offset)
  | dev :: devs, buffer, offset => do
    let (buffer, offset) ← appendf bufferSize buffer offset (memdevLine dev)
    if bufferSize ≤ offset then .ok (buffer, offset) else dumpDevs bufferSize devs buffer offset

def dumpVms (m : Manager) (bufferSize : ℕ) : List (Fin maxNumVm) → Text → ℕ → Outcome Text
  | [], buffer, _ => .ok buffer
  | i :: is, buffer, offset =>
    if bufferSize ≤ offset then .ok buffer
    else if !(m.vms i).initialized then dumpVms m bufferSize is buffer offset
    else do
      let (buffer, offset) ← appendf bufferSize buffer offset (vmLine (m.vms i))
      if bufferSize ≤ offset then .ok buffer
      else do
        let (buffer, offset) ← dumpDevs bufferSize (m.vms i).attachedDevs buffer offset
        dumpVms m bufferSize is buffer offset

def vmMngrDumpState (m : Manager) (bufferSize : ℕ) : Outcome Text := do
  let (buffer, offset) ← appendf bufferSize [] 0 (sprintf "VM Count: %d\n" [.int m.count])
  if bufferSize ≤ offset then .ok buffer
  else if m.count = 0 then do
    let (buffer, _) ← appendf bufferSize buffer offset (sprintf "No VM created.\n" [])
    .ok buffer
  else dumpVms m bufferSize (List.finRange maxNumVm) buffer offset

/-! ### Runs -/

/-- The calls that change the manager, each with what it meets outside the process. -/
inductive Op
  | create (vmId : ℤ) (coreSet : Text)
  | destroy (vmId : ℤ)
  | start (vmId : ℤ) (env : StartEnv)
  | stop (vmId : ℤ) (kernel : PerfKernel)
  | allocMem (nodeId vmId sizeMb : ℤ)
  | freeMem (vmId memdevIdx : ℤ)

def step (m : Manager) : Op → Outcome Manager
  | .create vmId coreSet => (vmMngrInstanceCreate m vmId coreSet).map Prod.snd
  | .destroy vmId => (vmMngrInstanceDestroy m vmId).map Prod.snd
  | .start vmId env => (vmMngrInstanceStart env m vmId).map Prod.snd
  | .stop vmId kernel => (vmMngrInstanceStop kernel m vmId).map Prod.snd
  | .allocMem nodeId vmId sizeMb => (vmMngrInstanceAllocMem m nodeId vmId sizeMb).map Prod.snd
  | .freeMem vmId memdevIdx => (vmMngrInstanceFreeMem m vmId memdevIdx).map Prod.snd

/-- A zeroed slot. -/
def emptySlot : VmInstance where
  vmId := 0
  numCores := 0
  coreSet := []
  coreIndex := 0
  initialized := false
  running := false
  perfEventFds := fun _ => .null
  cumPerfEventCounts := fun _ => 0
  deltaPerfEventCounts := fun _ => 0
  memdevCounter := 0
  attachedDevs := []

/-- The process after `memory_pool_init`. -/
def initialManager (pool : Pool) : Manager where
  count := 0
  vms := fun _ => emptySlot
  pool := pool
  agents := ⟨fun _ => ⟨[], 0, false⟩, 0⟩

end Ramryder.VmManager
