import Ramryder.PyText

/-! The admin CLI: CPU sets, and what it reads from the pool table and the list of VMs. -/
namespace Ramryder.Cli
open CText PyText

/-- What `ResourceClient.send` makes of the bytes it receives. -/
def clientText (data : Text) : Text := strip (decode data)

/-! ### CPU sets -/

/-- `range(start, stop)`. -/
def pyRange (start stop : ℤ) : List ℤ :=
  (List.range (stop - start).toNat).map fun k : ℕ => start + k

/-- The CPUs of one part of a CPU set, `none` where the loop body raises. -/
def partCpus (raw : Text) : Option (List ℤ) :=
  let part := strip raw
  if part = [] then some []
  else if '-' ∈ part then do
    let (startS, endS) := splitFirst '-' part
    let start ← pyInt startS
    let stop ← pyInt endS
    if stop < start then none else some (pyRange start (stop + 1))
  else (pyInt part).map fun cpu => [cpu]

/-- The set of the CPUs, in order; `none` where the source raises. -/
def parseCpuSet (cpuSet : Text) : Option (List ℤ) := do
  let parts ← (cpuSet.splitOn ',').mapM partCpus
  let cpus := parts.flatten.dedup
  if cpus = [] then none else some (cpus.insertionSort (· ≤ ·))

/-- The CPUs as they are written. -/
def expandCpuList (cpuSet : Text) : Option (List ℤ) := do
  let parts ← (cpuSet.splitOn ',').mapM partCpus
  some parts.flatten

/-! ### The pool table -/

structure MemPoolNode where
  nodeId : ℤ
  tierId : ℤ
  freeMb : ℤ
  deriving DecidableEq, Repr

/-- The node of the fields of a line, `none` where the line is skipped. -/
def nodeOfParts (parts : List Text) : Option MemPoolNode :=
  if parts.length < 9 then none
  else do
    let segmentMb ← pyInt (parts.getD 3 [])
    let usedSeg ← pyInt (parts.getD 4 [])
    let totalSeg ← pyInt (parts.getD 5 [])
    let nodeId ← pyInt (parts.getD 6 [])
    let tierId ← pyInt (parts.getD 7 [])
    some ⟨nodeId, tierId, (totalSeg - usedSeg) * segmentMb⟩

/-- The body of the line loop of `get_mem_pool_nodes`. -/
def poolNode (raw : Text) : Option MemPoolNode :=
  let line := strip raw
  if line = [] ∨ "Index".toList <+: line then none
  else nodeOfParts ((line.splitOn '|').map strip)

/-- `none` where the source raises. -/
def getMemPoolNodes (output : Text) : Option (List MemPoolNode) :=
  let nodes := (splitlines output).filterMap poolNode
  if nodes = [] then none
  else some (nodes.insertionSort fun a b => a.nodeId ≤ b.nodeId)

/-! ### The list of VMs -/

/-- The line loop's body in `get_used_vm_ids`. A line that begins so has a second field. -/
def vmIdOfLine (raw : Text) : Option ℤ :=
  let line := strip raw
  if "VM id=".toList <+: line then do
    let token ← (fields line)[1]?
    if "id=".toList <+: token then pyInt (splitFirst '=' token).2 else none
  else none

def getUsedVmIds (output : Text) : List ℤ := sortedSet ((splitlines output).filterMap vmIdOfLine)

/-- The first id from `vmid` on that is not used, among `n + 1` ids. -/
def firstUnused (used : List ℤ) : ℕ → ℤ → ℤ
  | 0, vmid => vmid
  | n+1, vmid => if vmid ∈ used then firstUnused used n (vmid + 1) else vmid

/-- The loop of `select_vmid`, which ends after as many turns as there are used ids. -/
def selectVmid (used : List ℤ) : ℤ := firstUnused used used.length 0

/-- The node a `memdev=` line names. -/
def memdevNode (line : Text) : Option ℤ := do
  let part ← (fields line).find? fun p => decide ("node=".toList <+: p)
  pyInt (splitFirst '=' part).2

/-- The line loop of `get_vm_mem_nodes`. -/
def vmMemNodes (vmid : ℤ) : List Text → Bool → List ℤ → List ℤ
  | [], _, nodes => nodes
  | raw :: raws, inTarget, nodes =>
    let line := strip raw
    if "VM id=".toList <+: line then
      vmMemNodes vmid raws (decide ("VM id=".toList ++ decimal vmid ++ [' '] <+: line)) nodes
    else if inTarget ∧ "memdev=".toList <+: line then
      vmMemNodes vmid raws inTarget (nodes ++ (memdevNode line).toList)
    else vmMemNodes vmid raws inTarget nodes

def getVmMemNodes (output : Text) (vmid : ℤ) : List ℤ :=
  sortedSet (vmMemNodes vmid (splitlines output) false [])

end Ramryder.Cli
