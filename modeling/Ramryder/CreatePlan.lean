import Ramryder.CMachine
import Ramryder.Cli

/-! What `create-vm` of the admin CLI checks before it asks for anything, and the memory
plan it makes of the pool table. -/
namespace Ramryder.CreatePlan
open CMachine Cli CText PyText

/-- What the CLI raises; `library` is an error raised inside Python's library. -/
inductive CliError
  | valueError (message : String)
  | runtimeError (message : String)
  | library
  deriving DecidableEq, Repr

abbrev Raises (α : Type) := Except CliError α

/-- The result of a call that says only that it raises. -/
def orRaise {α : Type} : Option α → Raises α
  | none => .error .library
  | some a => .ok a

/-! ### The arguments -/

/-- `create-vm` as `argparse` hands it over, with a `--hostfwd-port`. -/
structure CreateArgs where
  cpuSet : Text
  memory : Text
  channels : ℤ
  cxlMemory : Option Text
  cxlChannels : Option ℤ
  image : Text
  hostfwdPort : ℤ
  dryRun : Bool
  deriving DecidableEq, Repr

structure VmConfig where
  memoryMb : ℤ
  channels : ℤ
  cxlMemoryMb : ℤ
  cxlChannels : ℤ
  cpuSet : Text
  image : Text
  hostfwdPort : ℤ
  dryRun : Bool
  deriving DecidableEq, Repr

/-- What the checks leave: the configuration and the number of CPUs. -/
structure CreateJob where
  cfg : VmConfig
  smp : ℤ
  deriving DecidableEq, Repr

/-- `s.lower()`, for what the source does with it: no other letter has an ASCII one in its
lower case than the ASCII letters and the Kelvin sign, and no text it is compared with has a k. -/
def lower (s : Text) : Text := s.map Char.toLower

def parseMemoryToMb (raw : Text) : Option ℤ :=
  let s := lower (strip raw)
  if "gb".toList <:+ s then (pyInt (s.take (s.length - 2))).map (· * 1024)
  else if "g".toList <:+ s then (pyInt (s.take (s.length - 1))).map (· * 1024)
  else if "mb".toList <:+ s then pyInt (s.take (s.length - 2))
  else if "m".toList <:+ s then pyInt (s.take (s.length - 1))
  else pyInt s

/-- `parse_memory_to_mb(args.cxl_memory) if args.cxl_memory else 0`. -/
def cxlMemoryToMb : Option Text → Option ℤ
  | none => some 0
  | some raw => if raw = [] then some 0 else parseMemoryToMb raw

def raiseIf (c : Prop) [Decidable c] (message : String) : Raises Unit :=
  if c then .error (.valueError message) else .ok ()

/-- The part of `handle_create_vm` before its first request. -/
def createJob (args : CreateArgs) : Raises CreateJob := do
  raiseIf (args.cxlMemory.isNone ∧ args.cxlChannels.isSome)
    "--cxl-memory is required when --cxl-channels is set"
  raiseIf (args.cxlMemory.isSome ∧ args.cxlChannels.isNone)
    "--cxl-channels is required when --cxl-memory is set"
  let memoryMb ← orRaise (parseMemoryToMb args.memory)
  let cxlMemoryMb ← orRaise (cxlMemoryToMb args.cxlMemory)
  let cxlChannels := args.cxlChannels.getD 0
  raiseIf (args.channels ≤ 0) "--channels must be > 0"
  raiseIf (memoryMb < args.channels) "local memory (DIMM) --memory is too small for --channels"
  raiseIf (cxlChannels < 0) "--cxl-channels must be >= 0"
  raiseIf (cxlChannels = 0 ∧ 0 < cxlMemoryMb) "--cxl-memory requires --cxl-channels > 0"
  raiseIf (0 < cxlChannels ∧ cxlMemoryMb < cxlChannels)
    "CXL memory --cxl-memory is too small for --cxl-channels"
  let cpus ← orRaise (parseCpuSet args.cpuSet)
  .ok ⟨⟨memoryMb, args.channels, cxlMemoryMb, cxlChannels, args.cpuSet, args.image,
    args.hostfwdPort, args.dryRun⟩, cpus.length⟩

theorem raiseIf_eq_ok {c : Prop} [Decidable c] {message : String} {u : Unit} :
    raiseIf c message = .ok u ↔ ¬ c := by
  unfold raiseIf
  split_ifs with h <;> simp [h]

theorem orRaise_eq_ok {α : Type} {x : Option α} {a : α} : orRaise x = .ok a ↔ x = some a := by
  cases x <;> simp [orRaise]

/-- What the arguments of a run that asks the server for anything fulfil. -/
structure JobOf (args : CreateArgs) (job : CreateJob) : Prop where
  cpuSet : ∃ cpus, parseCpuSet job.cfg.cpuSet = some cpus
  channels : 0 < job.cfg.channels ∧ job.cfg.channels ≤ job.cfg.memoryMb
  cxlChannels : 0 < job.cfg.cxlChannels → job.cfg.cxlChannels ≤ job.cfg.cxlMemoryMb

theorem createJob_ok {args : CreateArgs} {job : CreateJob} (h : createJob args = .ok job) :
    JobOf args job := by
  simp only [createJob, bind_eq_ok, raiseIf_eq_ok, orRaise_eq_ok] at h
  obtain ⟨_, _, _, _, memoryMb, _, cxlMemoryMb, _, _, hpos, _, hsmall, _, _, _, _, _, hcxl, cpus, hcpus,
    h⟩ := h
  cases h
  exact ⟨⟨cpus, hcpus⟩, ⟨not_le.mp hpos, not_lt.mp hsmall⟩,
    fun hchannels => not_lt.mp fun hless => hcxl ⟨hchannels, hless⟩⟩

/-! ### The plan -/

/-- `channels` is positive wherever this is called. -/
def splitMemory (totalMb channels : ℤ) : List ℤ :=
  (List.range channels.toNat).map fun i : ℕ =>
    if (i : ℤ) < totalMb % channels then totalMb / channels + 1 else totalMb / channels

/-- The loop over the sizes: each takes the first node in the list that is not used yet and has
room for it. -/
def pickNodes (memoryName : String) (candidateNodes : List MemPoolNode) :
    List ℤ → List ℤ → Raises (List (ℤ × ℤ))
  | [], _ => .ok []
  | sizeMb :: sizes, usedNodeIds =>
    match candidateNodes.find? fun node =>
        decide (node.nodeId ∉ usedNodeIds) && decide (sizeMb ≤ node.freeMb) with
    | some picked => do
      let selected ← pickNodes memoryName candidateNodes sizes (picked.nodeId :: usedNodeIds)
      .ok ((picked.nodeId, sizeMb) :: selected)
    | none =>
      let remaining := candidateNodes.filter fun node => decide (node.nodeId ∉ usedNodeIds)
      let maxFree := (remaining.map MemPoolNode.freeMb).max?.getD 0
      .error (.valueError s!"{memoryName} capacity is not enough: need per-channel up to {sizeMb}MB, but largest remaining free channel is {maxFree}MB")

def chooseAllocationsForTier (tierNodes : List MemPoolNode) (requestedSizesMb : List ℤ)
    (memoryName : String) : Raises (List (ℤ × ℤ)) :=
  let channels := requestedSizesMb.length
  if channels = 0 then .ok []
  else if tierNodes.length < channels then
    .error (.valueError s!"{memoryName} channels ({channels}) must be <= available channels ({tierNodes.length})")
  else do
    let sizesSorted := requestedSizesMb.insertionSort (· ≥ ·)
    let candidateNodes := tierNodes.insertionSort fun a b => a.freeMb ≥ b.freeMb
    let selected ← pickNodes memoryName candidateNodes sizesSorted []
    .ok (selected.insertionSort fun a b => a.1 ≤ b.1)

structure MemoryPlan where
  allNodeIds : List ℤ
  allocations : List (ℤ × ℤ)
  deriving DecidableEq, Repr

/-- The part of `build_memory_plan` behind its request. -/
def planOfNodes (cfg : VmConfig) (poolNodes : List MemPoolNode) : Raises MemoryPlan := do
  let tierNodes (tier : ℤ) := poolNodes.filter fun n => n.tierId = tier
  let tier0Allocations ← chooseAllocationsForTier (tierNodes 0)
    (splitMemory cfg.memoryMb cfg.channels) "local memory (DIMM)"
  let tier1Allocations ←
    if 0 < cfg.cxlChannels then
      chooseAllocationsForTier (tierNodes 1) (splitMemory cfg.cxlMemoryMb cfg.cxlChannels)
        "CXL memory"
    else .ok []
  .ok ⟨sortedSet (poolNodes.map MemPoolNode.nodeId), tier0Allocations ++ tier1Allocations⟩

/-- `build_memory_plan`, given what the server answers to `get-mem-pool`. -/
def buildMemoryPlan (cfg : VmConfig) (output : Text) : Raises MemoryPlan :=
  match getMemPoolNodes output with
  | none => .error (.runtimeError "failed to parse nodes from get-mem-pool output")
  | some poolNodes => planOfNodes cfg poolNodes

end Ramryder.CreatePlan
