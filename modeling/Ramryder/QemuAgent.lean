import Ramryder.CMachine

/-! The QMP client: the JSON commands for memory hot-plug and hot-unplug, and the
order in which they are sent. QEMU itself is a function from a command to a reply. -/
namespace Ramryder.QemuAgent
open CText

def stringIdLen : ℕ := 32
def bytesPerMb : ℤ := 1048576

def mbToBytes (mb : ℤ) : ℤ := mb * bytesPerMb

inductive Json
  | null
  | bool (b : Bool)
  | int (n : ℤ)
  | str (t : Text)
  | arr (items : List Json)
  | obj (fields : List (Text × Json))

def jsonField (key : String) : Json → Option Json
  | .obj fields => fields.lookup key.toList
  | _ => none

structure HotplugRequest where
  dimmId : Text
  memdevId : Text
  devPath : Text
  sizeBytes : ℤ
  alignBytes : ℤ
  share : Bool
  numaNode : ℤ
  deriving DecidableEq, Repr

structure HotunplugRequest where
  dimmId : Text
  memdevId : Text
  deriving DecidableEq, Repr

/-- What `send_qemu_cmd` and `json_tokener_parse` make of an exchange with QEMU. -/
inductive QmpReply
  | failed
  | unparsed
  | json (reply : Json)

/-- QEMU during one request, by VM id and command. -/
abbrev Qmp := ℤ → Json → QmpReply

def qmpCommand (execute : String) (arguments : List (String × Json)) : Json :=
  .obj [("execute".toList, .str execute.toList),
    ("arguments".toList, .obj (arguments.map fun field => (field.1.toList, field.2)))]

/-- Only `{"return": {}}` counts. -/
def isResponseSuccess : QmpReply → Bool
  | .json (.obj fields) =>
    match fields.lookup "return".toList with
    | some (.obj []) => true
    | _ => false
  | _ => false

def objectAdd (request : HotplugRequest) : Json :=
  qmpCommand "object-add" [
    ("qom-type", .str "memory-backend-file".toList),
    ("id", .str request.memdevId),
    ("mem-path", .str request.devPath),
    ("size", .int request.sizeBytes),
    ("share", .bool request.share),
    ("align", .int request.alignBytes)]

def objectDel (request : HotunplugRequest) : Json :=
  qmpCommand "object-del" [("id", .str request.memdevId)]

def deviceAdd (request : HotplugRequest) : Json :=
  qmpCommand "device_add" [
    ("driver", .str "pc-dimm".toList),
    ("id", .str request.dimmId),
    ("memdev", .str request.memdevId),
    ("node", .int request.numaNode)]

def deviceDel (request : HotunplugRequest) : Json :=
  qmpCommand "device_del" [("id", .str request.dimmId)]

/-- What `qemu_agent_create_object`, `qemu_agent_add_device` and the two deletions share. -/
def sendCommand (qmp : Qmp) (vmId : ℤ) (command : Json) : ℤ :=
  if isResponseSuccess (qmp vmId command) then 0 else -1

def qemuAgentCreateObject (qmp : Qmp) (vmId : ℤ) (request : HotplugRequest) : ℤ :=
  sendCommand qmp vmId (objectAdd request)

def qemuAgentAddDevice (qmp : Qmp) (vmId : ℤ) (request : HotplugRequest) : ℤ :=
  sendCommand qmp vmId (deviceAdd request)

def qemuAgentDelDevice (qmp : Qmp) (vmId : ℤ) (request : HotunplugRequest) : ℤ :=
  sendCommand qmp vmId (deviceDel request)

def qemuAgentFreeObject (qmp : Qmp) (vmId : ℤ) (request : HotunplugRequest) : ℤ :=
  sendCommand qmp vmId (objectDel request)

/-- The object of a device that cannot be added is left in QEMU. -/
def qemuAgentHotplugMemory (qmp : Qmp) (vmId : ℤ) (request : HotplugRequest) : ℤ :=
  if qemuAgentCreateObject qmp vmId request < 0 then -1
  else if qemuAgentAddDevice qmp vmId request < 0 then -1
  else 0

def qemuAgentHotunplugMemory (qmp : Qmp) (vmId : ℤ) (request : HotunplugRequest) : ℤ :=
  if qemuAgentDelDevice qmp vmId request < 0 then -1
  else if qemuAgentFreeObject qmp vmId request < 0 then -1
  else 0

end Ramryder.QemuAgent
