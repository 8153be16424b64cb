import Ramryder.CMachine

/-! The memory pool: DAX devices cut into segments, first-fit allocation of
consecutive segments to a VM and their release. Loops carry the number of
iterations left; the search loop carries fuel. -/
namespace Ramryder.MemoryPool
open CInt CMachine CText

def maxDevices : ℕ := 10
def maxSegments : ℕ := 4096
def devPathLen : ℕ := 64

structure MemorySegment where
  allocated : Bool
  usedVmId : ℤ
  deriving DecidableEq, Repr

structure MemoryDaxDev where
  devPath : Text
  nodeId : ℤ
  tierId : ℤ
  daxId : ℤ
  totalSizeMb : ℤ
  totalSegments : ℤ
  usedSegments : ℤ
  segments : ℕ → MemorySegment

structure MemoryRequest where
  nodeId : ℤ
  devPath : Text
  offsetMb : ℤ
  sizeMb : ℤ
  alignMb : ℤ
  deriving DecidableEq, Repr

structure MemoryNodeInfo where
  tierId : ℤ
  daxId : ℤ
  deriving DecidableEq, Repr

/-- `g_mem_devs`, `g_num_devs` and `g_segment_size_mb`. -/
structure Pool where
  memDevs : ℕ → MemoryDaxDev
  numDevs : ℕ
  segmentSizeMb : ℤ

def freeSegment : MemorySegment := ⟨false, -1⟩

def SegmentIndex (idx : ℤ) : Prop := 0 ≤ idx ∧ idx < maxSegments

instance (idx : ℤ) : Decidable (SegmentIndex idx) := inferInstanceAs (Decidable (_ ∧ _))

/-- Every access to `segments` goes through these two, which fault outside the array. -/
def readSegment (dev : MemoryDaxDev) (idx : ℤ) : Outcome MemorySegment :=
  if SegmentIndex idx then .ok (dev.segments idx.toNat) else .error (.segmentIndex idx)

def writeSegment (dev : MemoryDaxDev) (idx : ℤ) (seg : MemorySegment) : Outcome MemoryDaxDev :=
  if SegmentIndex idx then
    .ok { dev with segments := Function.update dev.segments idx.toNat seg }
  else .error (.segmentIndex idx)

def isAligned (value alignment : ℤ) : Outcome Bool :=
  if value < 0 then .ok false
  else if alignment = 0 then .error .divisionByZero
  else .ok (value.tmod alignment == 0)

/-- The inner loop of `find_free_segments`: the first allocated place of the run, from `j` on. -/
def scanRun (dev : MemoryDaxDev) (i : ℤ) : ℕ → ℤ → Outcome ℤ
  | 0, j => .ok j
  | n+1, j => do
    let seg ← readSegment dev (i + j)
    if seg.allocated then .ok j else scanRun dev i n (j + 1)

def findLoop (dev : MemoryDaxDev) (numSegments : ℤ) : ℕ → ℤ → Outcome ℤ
  | 0, _ => .error .outOfFuel
  | fuel+1, i =>
    if i ≤ dev.totalSegments - numSegments then do
      let j ← scanRun dev i numSegments.toNat 0
      if j = numSegments then .ok i else findLoop dev numSegments fuel (i + j + 1)
    else .ok (-1)

def findFreeSegments (dev : MemoryDaxDev) (numSegments : ℤ) : Outcome ℤ :=
  findLoop dev numSegments ((dev.totalSegments - numSegments).toNat + 2) 0

def fillSegments (vmId start : ℤ) : ℕ → ℤ → MemoryDaxDev → Outcome MemoryDaxDev
  | 0, _, dev => .ok dev
  | n+1, i, dev => do
    let dev ← writeSegment dev (start + i) ⟨true, vmId⟩
    fillSegments vmId start n (i + 1) dev

/-- The start index, or -1. The count of free segments is only logged, so it is not here. -/
def allocateSegments (dev : MemoryDaxDev) (numSegments vmId : ℤ) :
    Outcome (ℤ × MemoryDaxDev) := do
  bugOn .numSegmentsPositive (numSegments ≤ 0)
  let start ← findFreeSegments dev numSegments
  if start = -1 then .ok (-1, dev)
  else do
    let dev ← fillSegments vmId start numSegments.toNat 0 dev
    .ok (start, { dev with usedSegments := dev.usedSegments + numSegments })

/-- The index of the first device with this node id. -/
def findMemDev (pool : Pool) (nodeId : ℤ) : Option ℕ :=
  (List.range pool.numDevs).find? fun i => (pool.memDevs i).nodeId == nodeId

def Pool.setDev (pool : Pool) (k : ℕ) (dev : MemoryDaxDev) : Pool :=
  { pool with memDevs := Function.update pool.memDevs k dev }

/-- The filled request where the source returns 0, `none` where it returns -1. -/
def memoryPoolAllocateSegments (pool : Pool) (nodeId vmId sizeMb : ℤ) :
    Outcome (Option MemoryRequest × Pool) := do
  if !(← isAligned sizeMb pool.segmentSizeMb) then .ok (none, pool)
  else
    match findMemDev pool nodeId with
    | none => .ok (none, pool)
    | some k => do
      let dev := pool.memDevs k
      let numSegments := sizeMb.tdiv pool.segmentSizeMb
      let (start, dev') ← allocateSegments dev numSegments vmId
      if start < 0 then .ok (none, pool.setDev k dev')
      else do
        let offsetMb ← cInt (start * pool.segmentSizeMb)
        let sizeMb ← cInt (numSegments * pool.segmentSizeMb)
        .ok (some ⟨nodeId, dev'.devPath.take (devPathLen - 1), offsetMb, sizeMb, pool.segmentSizeMb⟩,
          pool.setDev k dev')

/-- The condition of the `if` in `release_segments`, evaluated left to right. -/
def releasable (dev : MemoryDaxDev) (vmId idx : ℤ) : Outcome Bool :=
  if 0 ≤ idx ∧ idx < dev.totalSegments then do
    let seg ← readSegment dev idx
    .ok (seg.allocated && seg.usedVmId == vmId)
  else .ok false

def releaseSegment (dev : MemoryDaxDev) (idx : ℤ) : Outcome MemoryDaxDev := do
  let dev ← writeSegment dev idx freeSegment
  .ok { dev with usedSegments := dev.usedSegments - 1 }

/-- Returns 0 or -1; segments before a foreign one stay released. The error
branch reads the offending entry for its log line, also outside the device. -/
def releaseSegments (vmId start : ℤ) : ℕ → ℤ → MemoryDaxDev → Outcome (ℤ × MemoryDaxDev)
  | 0, _, dev => .ok (0, dev)
  | n+1, i, dev => do
    if ← releasable dev vmId (start + i) then do
      let dev ← releaseSegment dev (start + i)
      releaseSegments vmId start n (i + 1) dev
    else do
      let _ ← readSegment dev (start + i)
      .ok (-1, dev)

def memoryPoolReleaseSegments (pool : Pool) (nodeId vmId offsetMb sizeMb : ℤ) :
    Outcome (ℤ × Pool) := do
  if !(← isAligned sizeMb pool.segmentSizeMb) then .ok (-1, pool)
  else if !(← isAligned offsetMb pool.segmentSizeMb) then .ok (-1, pool)
  else
    match findMemDev pool nodeId with
    | none => .ok (-1, pool)
    | some k => do
      let start := offsetMb.tdiv pool.segmentSizeMb
      let count := sizeMb.tdiv pool.segmentSizeMb
      let (ret, dev) ← releaseSegments vmId start count.toNat 0 (pool.memDevs k)
      .ok (if ret < 0 then -1 else 0, pool.setDev k dev)

/-- The inner loop of `memory_pool_release_vm_memory`, from segment `j` on. -/
def releaseVmSegments (vmId : ℤ) : ℕ → ℤ → MemoryDaxDev → Outcome MemoryDaxDev
  | 0, _, dev => .ok dev
  | n+1, j, dev => do
    let seg ← readSegment dev j
    if seg.allocated && seg.usedVmId == vmId then do
      let dev ← releaseSegment dev j
      releaseVmSegments vmId n (j + 1) dev
    else releaseVmSegments vmId n (j + 1) dev

/-- Its outer loop, from device `i` on. -/
def releaseVmDevices (vmId : ℤ) : ℕ → ℕ → Pool → Outcome Pool
  | 0, _, pool => .ok pool
  | n+1, i, pool => do
    let dev := pool.memDevs i
    let dev ← releaseVmSegments vmId dev.totalSegments.toNat 0 dev
    releaseVmDevices vmId n (i + 1) (pool.setDev i dev)

def memoryPoolReleaseVmMemory (pool : Pool) (vmId : ℤ) : Outcome Pool :=
  releaseVmDevices vmId pool.numDevs 0 pool

def memoryPoolGetNumDevs (pool : Pool) : ℤ := pool.numDevs

def memoryPoolGetNodeInfo (pool : Pool) (nodeId : ℤ) : Option MemoryNodeInfo :=
  (findMemDev pool nodeId).map fun k => ⟨(pool.memDevs k).tierId, (pool.memDevs k).daxId⟩

def usageHeader : Text :=
  sprintf "Index | Device Path | Size (MB) | Segment (MB) | Used Seg | Total Seg | Node ID | Tier ID | Dax ID\n" []

def usageRow (pool : Pool) (i : ℕ) : Text :=
  let dev := pool.memDevs i
  sprintf "%5d | %s | %9d | %12d | %8d | %9d | %7d | %7d | %6d\n"
    [.int i, .text dev.devPath, .int dev.totalSizeMb, .int pool.segmentSizeMb,
      .int dev.usedSegments, .int dev.totalSegments, .int dev.nodeId, .int dev.tierId,
      .int dev.daxId]

/-- The row loop, from device `i` on. -/
def usageLoop (pool : Pool) (bufferSize : ℕ) : ℕ → ℕ → Text → ℕ → Outcome Text
  | 0, _, buffer, _ => .ok buffer
  | n+1, i, buffer, offset =>
    if offset < bufferSize then do
      let (buffer, offset) ← appendf bufferSize buffer offset (usageRow pool i)
      if bufferSize - 1 ≤ offset then .ok buffer
      else usageLoop pool bufferSize n (i + 1) buffer offset
    else .ok buffer

def memoryPoolGetUsage (pool : Pool) (bufferSize : ℕ) : Outcome Text :=
  if pool.numDevs = 0 then
    .ok (snprintf bufferSize "No memory devices initialized.\n" [])
  else do
    let (buffer, offset) ← appendf bufferSize [] 0 usageHeader
    usageLoop pool bufferSize pool.numDevs 0 buffer offset

end Ramryder.MemoryPool
