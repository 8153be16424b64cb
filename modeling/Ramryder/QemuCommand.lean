import Ramryder.CMachine
import Ramryder.CreatePlan

/-! The command line `build_qemu_cmd` makes of a plan and of what the server answers. -/
namespace Ramryder.QemuCommand
open CText Cli CreatePlan PyText

/-! ### `shlex.split` -/

/-- Where the splitter stands; `escaped` returns to the quoted text it was in, if any. -/
inductive ShlexState
  | space
  | word
  | quoted (quote : Char)
  | escaped (inside : Option Char)
  deriving DecidableEq, Repr

def isShlexSpace (c : Char) : Bool := c = ' ' || c = '\t' || c = '\r' || c = '\n'

/-- The words from here on, with the word read so far and whether a quote opened it; `none` where
a quote or an escape is left open. -/
def shlexFrom : ShlexState → Text → Bool → Text → Option (List Text)
  | .space, _, _, [] => some []
  | .word, token, wasQuoted, [] =>
    some (if token = [] ∧ wasQuoted = false then [] else [token])
  | .quoted _, _, _, [] => none
  | .escaped _, _, _, [] => none
  | .space, _, _, c :: t =>
    if isShlexSpace c then shlexFrom .space [] false t
    else if c = '\\' then shlexFrom (.escaped none) [] false t
    else if c = '\'' ∨ c = '"' then shlexFrom (.quoted c) [] true t
    else shlexFrom .word [c] false t
  | .word, token, wasQuoted, c :: t =>
    if isShlexSpace c then
      if token = [] ∧ wasQuoted = false then shlexFrom .space [] false t
      else (shlexFrom .space [] false t).map fun words => token :: words
    else if c = '\'' ∨ c = '"' then shlexFrom (.quoted c) token true t
    else if c = '\\' then shlexFrom (.escaped none) token wasQuoted t
    else shlexFrom .word (token ++ [c]) wasQuoted t
  | .quoted quote, token, wasQuoted, c :: t =>
    if c = quote then shlexFrom .word token wasQuoted t
    else if c = '\\' ∧ quote = '"' then shlexFrom (.escaped (some quote)) token wasQuoted t
    else shlexFrom (.quoted quote) (token ++ [c]) wasQuoted t
  | .escaped none, token, wasQuoted, c :: t => shlexFrom .word (token ++ [c]) wasQuoted t
  | .escaped (some quote), token, wasQuoted, c :: t =>
    -- inside double quotes the backslash stays unless it escapes one of these two
    let kept := if c ≠ '\\' ∧ c ≠ quote then ['\\', c] else [c]
    shlexFrom (.quoted quote) (token ++ kept) wasQuoted t

def shlexSplit (s : Text) : Option (List Text) := shlexFrom .space [] false s

/-! ### The command -/

def vmName (vmid : ℤ) : Text := "RAMRYDER-VM-".toList ++ decimal vmid

def toMArg (memoryMb : ℤ) : Text :=
  if memoryMb % 1024 = 0 then decimal (memoryMb / 1024) ++ ['G'] else decimal memoryMb ++ ['M']

/-- The id in the answer to an `alloc-mem`. -/
def allocMemId (out : Text) : Raises Text :=
  if out = [] then
    .error (.runtimeError "alloc-mem returned empty output; cannot build memdev argument")
  else
    let part := ((out.splitOn ',').map strip).find? fun p => decide ("id=".toList <+: p)
    match part.map fun p => (splitFirst '=' p).2 with
    | none => .error (.runtimeError s!"alloc-mem returned invalid id field: {String.ofList out}")
    | some memId =>
      if memId = [] then
        .error (.runtimeError s!"alloc-mem returned invalid id field: {String.ofList out}")
      else .ok memId

/-- The answer to a `get-node-info` that is used. -/
def nodeInfoOut (out : Text) : Raises Text :=
  if out = [] then
    .error (.runtimeError "get-node-info returned empty output; cannot build numa node argument")
  else .ok out

/-- The ids by node; of two allocations on one node the later counts. -/
def nodeToMemid (allocations : List (ℤ × ℤ)) (memIds : List Text) (nodeId : ℤ) : Option Text :=
  (((allocations.map Prod.fst).zip memIds).reverse.find? fun e => e.1 = nodeId).map Prod.snd

def memArg (out : Text) : Text := "-object memory-backend-file,share=on,".toList ++ out

def nodeArg (allocations : List (ℤ × ℤ)) (memIds : List Text) (node0VcpuRange : Text)
    (nodeId : ℤ) (out : Text) : Text :=
  let base := "-numa node,".toList ++ out ++ ",seg-id=0".toList
  match nodeToMemid allocations memIds nodeId with
  | none => base
  | some memId =>
    if allocations.head?.map Prod.fst = some nodeId then
      base ++ ",memdev=".toList ++ memId ++ ",cpus=".toList ++ node0VcpuRange
    else base ++ ",memdev=".toList ++ memId

/-- The arguments up to the memory. -/
def machineArgs (qemuBin : Text) (job : CreateJob) (vmid : ℤ) : List Text :=
  ["sudo".toList, "taskset".toList, "-c".toList, job.cfg.cpuSet, qemuBin, "-name".toList,
    vmName vmid, "-enable-kvm".toList, "-cpu".toList, "host".toList, "-smp".toList, decimal job.smp,
    "-m".toList, toMArg (job.cfg.memoryMb + job.cfg.cxlMemoryMb)]

/-- The arguments behind the memory. -/
def deviceArgs (cfg : VmConfig) (vmid : ℤ) : List Text :=
  ["-device".toList, "virtio-scsi-pci,id=scsi0".toList, "-device".toList, "scsi-hd,drive=hd0".toList,
    "-drive".toList,
    "file=".toList ++ cfg.image ++ ",if=none,aio=native,cache=none,format=qcow2,id=hd0".toList,
    "-net".toList, "user,hostfwd=tcp::".toList ++ decimal cfg.hostfwdPort ++ "-:22".toList,
    "-net".toList, "nic,model=virtio".toList, "-nographic".toList,
    "-qmp".toList, "unix:/var/run/qmp-sock-".toList ++ decimal vmid ++ ",server,nowait".toList,
    "-chardev".toList,
    "socket,path=/var/run/qga-sock-".toList ++ decimal vmid ++ ",server=on,wait=off,id=qga0".toList,
    "-device".toList, "virtio-serial".toList,
    "-device".toList, "virtserialport,chardev=qga0,name=org.qemu.guest_agent.0".toList]

/-- `build_qemu_cmd`, given the answers to its requests in order. -/
def buildQemuCmd (qemuBin : Text) (job : CreateJob) (vmid : ℤ) (plan : MemoryPlan)
    (allocOuts nodeOuts : List Text) : Raises (List Text) := do
  let node0VcpuRange := "0-".toList ++ decimal (job.smp - 1)
  let memIds ← allocOuts.mapM allocMemId
  let infos ← nodeOuts.mapM nodeInfoOut
  let memArgs := allocOuts.map memArg
  let nodeArgs := (plan.allNodeIds.zip infos).map fun e =>
    nodeArg plan.allocations memIds node0VcpuRange e.1 e.2
  let memWords ← orRaise (memArgs.mapM shlexSplit)
  let nodeWords ← orRaise (nodeArgs.mapM shlexSplit)
  .ok (machineArgs qemuBin job vmid ++ memWords.flatten ++ nodeWords.flatten ++
    deviceArgs job.cfg vmid)

end Ramryder.QemuCommand
