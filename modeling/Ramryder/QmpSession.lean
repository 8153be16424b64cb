import Ramryder.ByteBuffer
import Ramryder.QemuAgent
import Ramryder.ResourceManager

/-! What comes over the sockets, byte by byte: the QMP handshake and one command after it, the
answer of a guest agent, the request of a client. `parse` is `json_tokener_parse`. -/
namespace Ramryder.QmpSession
open ByteBuffer CMachine CText GuestAgents QemuAgent ResourceManager

/-- The other end of a connection: the bytes on their way from it, what it sends after each
command, how many bytes each `recv` finds, and the commands it has got. -/
structure Peer where
  pending : Text
  answers : List Text
  arrivals : List ℕ
  sent : List Text
  deriving DecidableEq, Repr

/-- The bytes of `recv(fd, .., count, 0)`; none where it fails or the connection is closed. -/
def recv (count : ℕ) (peer : Peer) : Text × Peer :=
  match peer.arrivals with
  | [] => ([], peer)
  | n :: arrivals =>
    (peer.pending.take (min n count),
      { peer with pending := peer.pending.drop (min n count), arrivals := arrivals })

/-- A `send` fails where the peer does not take commands any more. -/
def send (command : Text) (peer : Peer) : Option Peer :=
  match peer.answers with
  | [] => none
  | answer :: answers =>
    some { peer with
      pending := peer.pending ++ answer, answers := answers, sent := peer.sent ++ [command] }

def qmpSocketPath (vmId : ℤ) : Text := snprintf maxSocketPath "/var/run/qmp-sock-%d" [.int vmId]

def qmpCapabilities : Text := "\x7b \"execute\": \"qmp_capabilities\" \x7d".toList

/-- `json_object_object_get_ex(reply, "return", ..)` -/
def hasReturn : Json → Bool
  | .obj fields => (fields.lookup "return".toList).isSome
  | _ => false

/-- `recv` into the start of a buffer. -/
def recvInto {size : ℕ} (buffer : Buffer size) (count : ℕ) (peer : Peer) :
    Outcome (ℕ × Buffer size × Peer) := do
  let (data, peer) := recv count peer
  let buffer ← write buffer data
  .ok (data.length, buffer, peer)

/-- The greeting and the negotiation of capabilities; the greeting is printed by a debug build. -/
def initQemuQmpSession (parse : Text → Option Json) (response : Buffer bufferSize) (peer : Peer) :
    Outcome (ℤ × Peer) := do
  let (ret, response, peer) ← recvInto response (bufferSize - 1) peer
  if ret = 0 then .ok (-1, peer)
  else
    let response ← terminate response ret
    let _ ← asString response
    match send qmpCapabilities peer with
    | none => .ok (-1, peer)
    | some peer =>
      let (ret, response, peer) ← recvInto response (bufferSize - 1) peer
      if ret = 0 then .ok (-1, peer)
      else
        let response ← terminate response ret
        let text ← asString response
        match parse text with
        | none => .ok (-1, peer)
        | some reply => .ok (if hasReturn reply then 0 else -1, peer)

/-- What `send_qemu_cmd` leaves: its result, the caller's buffer, the commands QEMU has got. -/
structure Exchange where
  ret : ℤ
  response : Buffer bufferSize
  sent : List Text

/-- The reply to a command that was sent, in the whole of the caller's buffer. -/
def receiveReply (response : Buffer bufferSize) (peer : Peer) : Outcome Exchange := do
  let (ret, response, peer) ← recvInto response bufferSize peer
  if ret = 0 then .ok ⟨-1, response, peer.sent⟩
  else
    let response ← terminate response ret
    let _ ← asString response
    .ok ⟨0, response, peer.sent⟩

/-- `stack` is what the handshake's own buffer holds before it is written. -/
def sendQemuCmd (parse : Text → Option Json) (connect : Text → Option Peer)
    (stack : Buffer bufferSize) (vmId : ℤ) (command : Text) (response : Buffer bufferSize) :
    Outcome Exchange :=
  match connect (qmpSocketPath vmId) with
  | none => .ok ⟨-1, response, []⟩
  | some peer => do
    let (ret, peer) ← initQemuQmpSession parse stack peer
    if ret < 0 then .ok ⟨-1, response, peer.sent⟩
    else
      match send command peer with
      | none => .ok ⟨-1, response, peer.sent⟩
      | some peer => receiveReply response peer

/-- What a caller of `send_qemu_cmd` makes of the exchange. -/
def qmpReply (parse : Text → Option Json) (exchange : Exchange) : Outcome QmpReply :=
  if exchange.ret < 0 then .ok .failed
  else do
    let text ← asString exchange.response
    match parse text with
    | none => .ok .unparsed
    | some reply => .ok (.json reply)

/-- `heap` is what the allocated block holds; neither `send` nor `recv` is checked. -/
def sendGuestCmd (agent : GuestAgent) (heap : Buffer bufferSize) (command : Text) (peer : Peer) :
    Outcome (Option (Buffer bufferSize)) :=
  if agent.initialized then do
    let (_, response, _) ← recvInto heap bufferSize ((send command peer).getD peer)
    .ok (some response)
  else .ok none

/-- The answer of the guest agent, as `rpc_server_start` sends it on. -/
def guestResponse (agent : GuestAgent) (heap : Buffer bufferSize) (command : Text) (peer : Peer) :
    Outcome (Option Text) := do
  match ← sendGuestCmd agent heap command peer with
  | none => .ok none
  | some response => (asString response).map some

def cmdSize : ℕ := 64

/-- What one turn of `rpc_server_start` takes from a client: the text in the cleared buffer, and the
command and the arguments that are scanned from it. -/
def rpcReceive (cmd : Buffer cmdSize) (args : Buffer bufferSize) (client : Peer) :
    Outcome (Text × Buffer cmdSize × Buffer bufferSize) := do
  let (_, buffer, _) ← recvInto (zeroed bufferSize) bufferSize client
  let text ← asString buffer
  match scanRequest text with
  | (none, _) => .ok (text, cmd, args)
  | (some word, none) => do
    let cmd ← writeString cmd word
    .ok (text, cmd, args)
  | (some word, some rest) => do
    let cmd ← writeString cmd word
    let args ← writeString args rest
    .ok (text, cmd, args)

end Ramryder.QmpSession
