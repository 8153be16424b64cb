import Ramryder.ClientRequests
import Ramryder.QemuCommand

/-! Concurrent runs of `create-vm` of the admin CLI. A run alternates between its own
computation and one request to the server; the requests of all runs are served one at a time. -/
namespace Ramryder.CreateRuns
open CMachine CText Cli ClientRequests CreatePlan PyText QemuCommand ResourceManager

/-- A run inside the `try` block: the answers it has so far. -/
structure Building where
  job : CreateJob
  plan : MemoryPlan
  vmid : ℤ
  allocOuts : List Text
  nodeOuts : List Text

/-- The next step of the allocation loop. -/
def Building.nextAlloc (b : Building) : Option (ℤ × ℤ) := b.plan.allocations[b.allocOuts.length]?

/-- The next step of the loop over all nodes. -/
def Building.nextNode (b : Building) : Option ℤ := b.plan.allNodeIds[b.nodeOuts.length]?

/-- Where a run of `handle_create_vm` stands. A run has ended with the VM and the plan of the
QEMU it launched, or without one. -/
inductive Phase
  | planning (job : CreateJob)
  | selecting (job : CreateJob) (plan : MemoryPlan)
  | creating (job : CreateJob) (plan : MemoryPlan) (vmid : ℤ)
  | building (b : Building)
  | cleaning (vmid : ℤ)
  | ended (launched : Option (ℤ × MemoryPlan))

def startPhase (args : CreateArgs) : Phase :=
  match createJob args with
  | .error _ => .ended none
  | .ok job => .planning job

/-- The request a run waits for. -/
def Phase.request : Phase → Option ClientCall
  | .planning _ => some .getMemPool
  | .selecting _ _ => some .getVms
  | .creating job _ vmid => some (.createVm vmid job.cfg.cpuSet)
  | .building b =>
    match b.nextAlloc with
    | some (nodeId, sizeMb) => some (.allocMem nodeId b.vmid sizeMb)
    | none => b.nextNode.map .getNodeInfo
  | .cleaning vmid => some (.destroyVm vmid)
  | .ended _ => none

/-- An answer inside the `try` block; where its use raises, the `finally` block follows. -/
def Building.receive (b : Building) (out : Text) : Phase :=
  match b.nextAlloc with
  | some _ =>
    match allocMemId out with
    | .error _ => .cleaning b.vmid
    | .ok _ => .building { b with allocOuts := b.allocOuts ++ [out] }
  | none =>
    match nodeInfoOut out with
    | .error _ => .cleaning b.vmid
    | .ok _ => .building { b with nodeOuts := b.nodeOuts ++ [out] }

/-- What the run makes of the answer to its request. -/
def Phase.receive (out : Text) : Phase → Phase
  | .planning job =>
    match buildMemoryPlan job.cfg out with
    | .error _ => .ended none
    | .ok plan => .selecting job plan
  | .selecting job plan => .creating job plan (selectVmid (getUsedVmIds out))
  | .creating job plan vmid =>
    if "success".toList <:+: lower out then .building ⟨job, plan, vmid, [], []⟩ else .ended none
  | .building b => b.receive out
  | .cleaning _ => .ended none
  | .ended launched => .ended launched

/-- The end of the `try` block: `started` says whether QEMU, once it was started, is still
running a second later. -/
def Phase.launch (qemuBin : Text) (started : Bool) : Phase → Phase
  | .building b =>
    match buildQemuCmd qemuBin b.job b.vmid b.plan b.allocOuts b.nodeOuts with
    | .error _ => .cleaning b.vmid
    | .ok _ =>
      if started && !b.job.cfg.dryRun then .ended (some (b.vmid, b.plan)) else .cleaning b.vmid
  | phase => phase

variable {ι : Type}

/-- The server and the runs. -/
structure World (ι : Type) where
  server : Server
  phases : ι → Phase

/-- The run whose turn it is, with what the turn meets outside the processes. -/
structure Turn (ι : Type) where
  run : ι
  env : ServerEnv
  started : Bool

variable [DecidableEq ι]

def World.setPhase (w : World ι) (server : Server) (r : ι) (phase : Phase) : World ι :=
  ⟨server, Function.update w.phases r phase⟩

/-- One turn: the request of the run is served, or it has none and launches QEMU. -/
def turn (qemuBin : Text) (w : World ι) (t : Turn ι) : Outcome (World ι) :=
  let phase := w.phases t.run
  match phase.request with
  | some call => do
    let (response, server) ← rpcServe t.env w.server call.request
    .ok (w.setPhase server t.run (phase.receive (clientText response)))
  | none => .ok (w.setPhase w.server t.run (phase.launch qemuBin t.started))

def startWorld (s : Server) (args : ι → CreateArgs) : World ι := ⟨s, fun r => startPhase (args r)⟩

end Ramryder.CreateRuns
