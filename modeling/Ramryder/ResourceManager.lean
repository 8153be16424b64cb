import Ramryder.QemuAgent
import Ramryder.VmManager

/-! The RPC server: one handler for each command, and the loop that reads a request
into buffers that live on between requests. -/
namespace Ramryder.ResourceManager
open ByteBuffer CInt CMachine CText GuestAgents MemoryPool QemuAgent VmManager

/-- What the handlers meet while they serve one request: the replies of QEMU, the commands that it carries
out although its reply does not say so, the replies of the guest agents, and the block that `malloc` gives
out for one. -/
structure ServerEnv where
  qmp : Qmp
  unreported : ℤ → Json → Bool := fun _ _ => false
  guest : ℤ → Text
  heap : Buffer bufferSize := zeroed bufferSize
  start : StartEnv

/-- The buffer `args` outlives a request. -/
structure Server where
  mngr : Manager
  args : Text

def invalidArgs : Text := "Invalid args".toList
def invalidCommand : Text := "Invalid command".toList

def rpcHandleGetMemInfo (env : ServerEnv) (m : Manager) (args : Text) : Outcome (Option Text) :=
  match sscanf "vid=%d" args with
  | [.int vmId] => do
    match ← guestAgentGetMeminfo env.guest env.heap m.agents vmId with
    | none => .ok none
    | some response => (asString response).map some
  | _ => .ok (some invalidArgs)

def rpcHandleGetMemPool (m : Manager) : Outcome Text := memoryPoolGetUsage m.pool bufferSize

def rpcHandleGetVms (m : Manager) : Outcome Text := vmMngrDumpState m bufferSize

def rpcHandleGetNumNodes (m : Manager) : Text :=
  snprintf bufferSize "%d" [.int (memoryPoolGetNumDevs m.pool)]

def rpcHandleGetNodeInfo (m : Manager) (args : Text) : Text :=
  match sscanf "nid=%d" args with
  | [.int nodeId] =>
    match memoryPoolGetNodeInfo m.pool nodeId with
    | some info => snprintf bufferSize "nodeid=%d,tier-id=%d,dax-id=%d"
        [.int nodeId, .int info.tierId, .int info.daxId]
    | none => snprintf bufferSize "Node %d does not exist" [.int nodeId]
  | _ => invalidArgs

/-- The boot-time argument QEMU is given for a device. -/
def allocMemResponse (req : VmMemReq) : Text :=
  snprintf bufferSize "id=mem%d,mem-path=%s,size=%dM,align=%dM,offset=%dM"
    [.int req.memdevIdx, .text req.devPath, .int req.sizeMb, .int req.alignMb, .int req.offsetMb]

def rpcHandleAllocMem (m : Manager) (args : Text) : Outcome (Text × Manager) :=
  match sscanf "nid=%d vid=%d size=%d" args with
  | [.int nid, .int vid, .int sizeMb] =>
    if nid < 0 ∨ vid < 0 ∨ sizeMb ≤ 0 then .ok (invalidArgs, m)
    else do
      let (req, m) ← vmMngrInstanceAllocMem m nid vid sizeMb
      match req with
      | some req => .ok (allocMemResponse req, m)
      | none => .ok (snprintf bufferSize "Allocate failed" [], m)
  | _ => .ok (invalidArgs, m)

def rpcHandleFreeMem (m : Manager) (args : Text) : Outcome (Text × Manager) :=
  match sscanf "vid=%d memid=%d" args with
  | [.int vid, .int memid] =>
    if vid < 0 ∨ memid < 0 then .ok (invalidArgs, m)
    else do
      let (ret, m) ← vmMngrInstanceFreeMem m vid memid
      if ret = 0 then .ok (snprintf bufferSize "Release success" [], m)
      else .ok (snprintf bufferSize "Release failed" [], m)
  | _ => .ok (invalidArgs, m)

def memdevId (memid : ℤ) : Text := snprintf stringIdLen "mem%d" [.int memid]

def dimmId (memid : ℤ) : Text := snprintf stringIdLen "dimm%d" [.int memid]

def memNotFound (memid : ℤ) : Text :=
  snprintf bufferSize "Find not find memory %d\n" [.int memid]

/-- The `struct hotplug_request` of an attach, without the offset of the device. -/
def hotplugRequest (memid nid : ℤ) (req : MemoryRequest) : HotplugRequest where
  dimmId := dimmId memid
  memdevId := memdevId memid
  devPath := req.devPath.take (devPathLen - 1)
  sizeBytes := mbToBytes req.sizeMb
  alignBytes := mbToBytes req.alignMb
  share := true
  numaNode := if nid < 0 then 0 else nid

def rpcHandleAttachMem (qmp : Qmp) (m : Manager) (args : Text) : Text :=
  match sscanf "memid=%d vid=%d nid=%d" args with
  | [.int memid, .int vid, .int nid] =>
    if memid < 0 ∨ vid < 0 then invalidArgs
    else
      match vmMngrInstanceGetMem m vid memid with
      | none => memNotFound memid
      | some req =>
        if qemuAgentHotplugMemory qmp vid (hotplugRequest memid nid req) = 0 then
          snprintf bufferSize "Hotplug memory success" []
        else snprintf bufferSize "Hotplug memory failed" []
  | _ => invalidArgs

def rpcHandleDetachMem (qmp : Qmp) (m : Manager) (args : Text) : Text :=
  match sscanf "memid=%d vid=%d" args with
  | [.int memid, .int vid] =>
    if memid < 0 ∨ vid < 0 then invalidArgs
    else
      match vmMngrInstanceGetMem m vid memid with
      | none => memNotFound memid
      | some _ =>
        if qemuAgentHotunplugMemory qmp vid ⟨dimmId memid, memdevId memid⟩ = 0 then
          snprintf bufferSize "Hotunplug memory success" []
        else snprintf bufferSize "Hotunplug memory failed" []
  | _ => invalidArgs

/-- What stands between the first `[` and the first `]`. -/
def bracketed (t : Text) : Option Text :=
  let start := t.idxOf '['
  let stop := t.idxOf ']'
  if stop < t.length ∧ start < stop then some ((t.take stop).drop (start + 1)) else none

def rpcHandleCreateVm (m : Manager) (args : Text) : Outcome (Text × Manager) :=
  match sscanf "vid=%d coreset=%[^\n]" args with
  | [.int vid, .text coresetStr] =>
    if vid < 0 then .ok (invalidArgs, m)
    else
      match bracketed coresetStr with
      | none => .ok (invalidCommand, m)
      | some start => do
        let (ret, m) ← vmMngrInstanceCreate m vid start
        if ret = 0 then
          .ok (snprintf bufferSize "Create VM %d success, coreset: [%s]" [.int vid, .text start], m)
        else
          .ok (snprintf bufferSize "Create VM %d failed, coreset: [%s]" [.int vid, .text start], m)
  | _ => .ok (invalidArgs, m)

/-- What the handlers of `destroy-vm`, `start-vm` and `stop-vm` share. -/
def rpcHandleVm (call : ℤ → Outcome (ℤ × Manager)) (success failed : String) (m : Manager)
    (args : Text) : Outcome (Text × Manager) :=
  match sscanf "vid=%d" args with
  | [.int vid] =>
    if vid < 0 then .ok (invalidArgs, m)
    else do
      let (ret, m) ← call vid
      if ret = 0 then .ok (snprintf bufferSize success [.int vid], m)
      else .ok (snprintf bufferSize failed [.int vid], m)
  | _ => .ok (invalidArgs, m)

def rpcHandleDestroyVm (m : Manager) (args : Text) : Outcome (Text × Manager) :=
  rpcHandleVm (vmMngrInstanceDestroy m) "Destroy VM %d success" "Destroy VM %d failed" m args

def rpcHandleStartVm (env : StartEnv) (m : Manager) (args : Text) : Outcome (Text × Manager) :=
  rpcHandleVm (vmMngrInstanceStart env m) "Start VM %d success" "Start VM %d failed" m args

def rpcHandleStopVm (env : StartEnv) (m : Manager) (args : Text) : Outcome (Text × Manager) :=
  rpcHandleVm (vmMngrInstanceStop env.kernel m) "Stop VM %d success" "Stop VM %d failed" m args

inductive Command
  | getMemInfo
  | getMemPool
  | getVms
  | getNumNodes
  | getNodeInfo
  | allocMem
  | freeMem
  | attachMem
  | detachMem
  | createVm
  | destroyVm
  | startVm
  | stopVm
  deriving DecidableEq, Repr

/-- The `strcmp` chain of the server loop. -/
def commandOf (cmd : Text) : Option Command :=
  if cmd = "get-mem-info".toList then some .getMemInfo
  else if cmd = "get-mem-pool".toList then some .getMemPool
  else if cmd = "get-vms".toList then some .getVms
  else if cmd = "get-num-nodes".toList then some .getNumNodes
  else if cmd = "get-node-info".toList then some .getNodeInfo
  else if cmd = "alloc-mem".toList then some .allocMem
  else if cmd = "free-mem".toList then some .freeMem
  else if cmd = "attach-mem".toList then some .attachMem
  else if cmd = "detach-mem".toList then some .detachMem
  else if cmd = "create-vm".toList then some .createVm
  else if cmd = "destroy-vm".toList then some .destroyVm
  else if cmd = "start-vm".toList then some .startVm
  else if cmd = "stop-vm".toList then some .stopVm
  else none

/-- The handler's response, `none` where it returns NULL, and the manager after it. -/
def rpcHandle (env : ServerEnv) (m : Manager) (args : Text) :
    Command → Outcome (Option Text × Manager)
  | .getMemInfo => (rpcHandleGetMemInfo env m args).map fun r => (r, m)
  | .getMemPool => (rpcHandleGetMemPool m).map fun r => (some r, m)
  | .getVms => (rpcHandleGetVms m).map fun r => (some r, m)
  | .getNumNodes => .ok (some (rpcHandleGetNumNodes m), m)
  | .getNodeInfo => .ok (some (rpcHandleGetNodeInfo m args), m)
  | .allocMem => (rpcHandleAllocMem m args).map fun r => (some r.1, r.2)
  | .freeMem => (rpcHandleFreeMem m args).map fun r => (some r.1, r.2)
  | .attachMem => .ok (some (rpcHandleAttachMem env.qmp m args), m)
  | .detachMem => .ok (some (rpcHandleDetachMem env.qmp m args), m)
  | .createVm => (rpcHandleCreateVm m args).map fun r => (some r.1, r.2)
  | .destroyVm => (rpcHandleDestroyVm m args).map fun r => (some r.1, r.2)
  | .startVm => (rpcHandleStartVm env.start m args).map fun r => (some r.1, r.2)
  | .stopVm => (rpcHandleStopVm env.start m args).map fun r => (some r.1, r.2)

/-- The response to a command that was read, with the arguments that are in the buffer. -/
def respond (env : ServerEnv) (m : Manager) (cmd args : Text) : Outcome (Text × Manager) :=
  match commandOf cmd with
  | none => .ok (invalidCommand, m)
  | some command => do
    let (response, m) ← rpcHandle env m args command
    .ok (response.getD "Failed to get results\n".toList, m)

/-- The command and the arguments `sscanf(buffer, "%63s %[^\n]", cmd, args)` stores. -/
def scanRequest (buffer : Text) : Option Text × Option Text :=
  match sscanf "%63s %[^\n]" buffer with
  | [.text cmd] => (some cmd, none)
  | [.text cmd, .text args] => (some cmd, some args)
  | _ => (none, none)

/-- One turn of the loop of `rpc_server_start`. A request that fills the buffer leaves no
terminator in it, and is read past its end. -/
def rpcServe (env : ServerEnv) (s : Server) (request : Text) : Outcome (Text × Server) :=
  let buffer := cString (request.take bufferSize)
  if buffer.length = bufferSize then .error .bufferOverread
  else
    match scanRequest buffer with
    | (none, _) => .ok (invalidCommand, s)
    | (some cmd, newArgs) => do
      let args := newArgs.getD s.args
      let (response, m) ← respond env s.mngr cmd args
      .ok (response, ⟨m, args⟩)

end Ramryder.ResourceManager
