import Ramryder.CreateRuns
import Ramryder.Deliveries

/-! One run of `create-vm` of the admin CLI with everything that can go wrong in it: requests that
are lost, ports that are in use, a QEMU that does not start. -/
namespace Ramryder.CreateSteps
open CMachine CText Cli ClientRequests CreatePlan Deliveries PyText QemuCommand ResourceManager

/-! ### The port -/

/-- What the `n`-th `is_tcp_port_in_use` of a run finds, and the `n`-th `random.randint(1, 2000)`. -/
structure PortWorld where
  inUse : ℕ → ℤ → Bool
  random : ℕ → ℤ

def basePort : ℤ := 2806

/-- The loop over the candidates, with the turns left. -/
def candidatePort (w : PortWorld) (port : ℤ) : ℕ → ℕ → Raises ℤ
  | 0, _ => .error (.runtimeError "failed to find a free hostfwd port")
  | n+1, i =>
    let candidate := port + w.random i
    if w.inUse (i + 1) candidate then candidatePort w port n (i + 1) else .ok candidate

def selectHostfwdPort (w : PortWorld) (requested : Option ℤ) (vmid : ℤ) : Raises ℤ :=
  match requested with
  | some port => .ok port
  | none =>
    let port := basePort + vmid
    if w.inUse 0 port then candidatePort w port 128 0 else .ok port

/-! ### The run -/

/-- What becomes of the launch: opening the log or starting the process raises, QEMU is gone after a
second, or it is not. Then `ready` says whether the VM was seen to become ready, and `left` whether
QEMU still runs when the command ends. -/
inductive Launch
  | logFailed
  | startFailed
  | exitedEarly (code : ℤ)
  | started (ready left : Bool)
  deriving DecidableEq, Repr

/-- What a run meets outside its process. -/
structure RunWorld where
  onPool : Delivery
  onVms : Delivery
  onCreate : Delivery
  onAlloc : ℕ → Delivery
  onNode : ℕ → Delivery
  onDestroy : Delivery
  ports : PortWorld
  launch : Launch

/-- How a run ends: what it raises, and whether QEMU is left running. -/
structure RunEnd where
  result : Raises Unit
  qemuLeft : Bool

/-- A loop over requests, each answer of which must pass `use`. -/
def askAll (delivery : ℕ → Delivery) (use : Text → Raises Text) :
    List ClientCall → List Text → Server → Outcome (Raises (List Text) × Server)
  | [], outs, s => .ok (.ok outs, s)
  | call :: calls, outs, s => do
    let (answer, s) ← ask (delivery outs.length) s call
    match answer.bind fun out => (use out).map fun _ => out with
    | .error e => .ok (.error e, s)
    | .ok out => askAll delivery use calls (outs ++ [out]) s

/-- The requests of `build_qemu_cmd`. -/
def buildRequests (w : RunWorld) (vmid : ℤ) (plan : MemoryPlan) (s : Server) :
    Outcome (Raises (List Text × List Text) × Server) := do
  let (allocOuts, s) ← askAll w.onAlloc allocMemId
    (plan.allocations.map fun a => .allocMem a.1 vmid a.2) [] s
  match allocOuts with
  | .error e => .ok (.error e, s)
  | .ok allocOuts => do
    let (nodeOuts, s) ← askAll w.onNode nodeInfoOut (plan.allNodeIds.map .getNodeInfo) [] s
    .ok (nodeOuts.map fun nodeOuts => (allocOuts, nodeOuts), s)

/-- The `try` block, given the command `build_qemu_cmd` has made: what it raises, and
`qemu_started`. -/
def launchQemu (launch : Launch) (dryRun : Bool) (vmid port : ℤ) :
    Raises (List Text) → Raises Unit × Bool
  | .error e => (.error e, false)
  | .ok _ =>
    if dryRun then (.ok (), false)
    else
      match launch with
      | .logFailed | .startFailed => (.error .library, false)
      | .exitedEarly code => (.error (.runtimeError s!"qemu exited early with code {code}"), false)
      | .started true _ => (.ok (), true)
      | .started false _ => (.error (.runtimeError
          s!"[info] timeout: VM did not become ready within 120s (vmid={vmid}, port={port})"), true)

def withPort (job : CreateJob) (port : ℤ) : CreateJob :=
  { job with cfg := { job.cfg with hostfwdPort := port } }

def Launch.left : Launch → Bool
  | .started _ left => left
  | _ => false

/-- The run from the choice of the port on. -/
def afterCreate (qemuBin : Text) (w : RunWorld) (job : CreateJob) (plan : MemoryPlan)
    (requested : Option ℤ) (vmid : ℤ) (s : Server) : Outcome (RunEnd × Server) :=
  match selectHostfwdPort w.ports requested vmid with
  | .error e => .ok (⟨.error e, false⟩, s)
  | .ok port => do
    let (answers, s) ← buildRequests w vmid plan s
    let cmd := answers.bind fun a => buildQemuCmd qemuBin (withPort job port) vmid plan a.1 a.2
    let ended := launchQemu w.launch job.cfg.dryRun vmid port cmd
    -- the `finally` block; an exception of its own is swallowed
    if job.cfg.dryRun || !ended.2 then do
      let (_, s) ← ask w.onDestroy s (.destroyVm vmid)
      .ok (⟨ended.1, false⟩, s)
    else .ok (⟨ended.1, w.launch.left⟩, s)

/-- The run up to the answer of `create-vm`: the job, the plan and the id of the VM. -/
def untilCreated (w : RunWorld) (args : CreateArgs) (s : Server) :
    Outcome (Raises (CreateJob × MemoryPlan × ℤ) × Server) :=
  match createJob args with
  | .error e => .ok (.error e, s)
  | .ok job => do
    let (table, s) ← ask w.onPool s .getMemPool
    match table.bind fun out => buildMemoryPlan job.cfg out with
    | .error e => .ok (.error e, s)
    | .ok plan => do
      let (vms, s) ← ask w.onVms s .getVms
      match vms with
      | .error e => .ok (.error e, s)
      | .ok out => do
        let vmid := selectVmid (getUsedVmIds out)
        let (created, s) ← ask w.onCreate s (.createVm vmid job.cfg.cpuSet)
        match created with
        | .error e => .ok (.error e, s)
        | .ok out =>
          if "success".toList <:+: lower out then .ok (.ok (job, plan, vmid), s)
          else .ok (.error (.runtimeError
            s!"create-vm failed for vid={vmid}: {String.ofList out}"), s)

/-- `handle_create_vm`; `requested` is the `--hostfwd-port`, if there is one. -/
def handleCreateVm (qemuBin : Text) (w : RunWorld) (args : CreateArgs) (requested : Option ℤ)
    (s : Server) : Outcome (RunEnd × Server) := do
  let (created, s) ← untilCreated w args s
  match created with
  | .error e => .ok (⟨.error e, false⟩, s)
  | .ok (job, plan, vmid) => afterCreate qemuBin w job plan requested vmid s

end Ramryder.CreateSteps
