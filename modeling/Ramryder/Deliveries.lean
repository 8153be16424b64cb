import Ramryder.CreateRequests
import Ramryder.PluggedMemory
import Ramryder.RequestCalls

/-! What becomes of the requests of the admin CLI: whether they reach the server, what QEMU does on their
account, and what the CLI reads. -/
namespace Ramryder.Deliveries
open CInt CMachine CScan CText Cli ClientRequests CreatePlan CreateRequests GuestAgents PluggedMemory PyText
  QemuAgent RequestCalls RequestHistory ResourceManager VmManager

/-! ### Deliveries -/

/-- What the client raises when it cannot reach the server. -/
def unreachable : CliError := .runtimeError "resource client sudo fallback failed: 1"

/-- What becomes of a request: it does not reach the server; it is served and the connection breaks; the
connection is closed without an answer, whether the request was served or not; it is answered. -/
inductive Delivery
  | lost
  | unanswered (env : ServerEnv)
  | closed (served : Option ServerEnv)
  | answered (env : ServerEnv)

namespace Delivery

/-- What the server meets while it serves the request, where it does. -/
def served : Delivery → Option ServerEnv
  | .lost => none
  | .unanswered env | .answered env => some env
  | .closed served => served

/-- What `ResourceClient.send` makes of the server's response: the empty string at the end of a file. -/
def read (response : Text) : Delivery → Raises Text
  | .lost | .unanswered _ => .error unreachable
  | .closed _ => .ok (clientText [])
  | .answered _ => .ok (clientText response)

/-- The request is served, and its answer is not read. -/
def unread : Delivery → Bool
  | .unanswered _ | .closed (some _) => true
  | _ => false

end Delivery

def ask (d : Delivery) (s : Server) (call : ClientCall) : Outcome (Raises Text × Server) :=
  match d.served with
  | none => .ok (d.read [], s)
  | some env => do
    let (response, s) ← rpcServe env s call.request
    .ok (d.read response, s)

variable {d : Delivery} {call : ClientCall} {env : ServerEnv} {s s' : Server} {answer : Raises Text}
  {request response args : Text} {m : Manager} {vid memid nid : ℤ}

theorem ask_cases (h : ask d s call = .ok (answer, s')) :
    (d.served = none ∧ s' = s ∧ answer = d.read []) ∨
      ∃ env response, d.served = some env ∧ rpcServe env s call.request = .ok (response, s') ∧
        answer = d.read response := by
  unfold ask at h
  split at h
  · rename_i hserved
    cases h
    exact .inl ⟨hserved, rfl, rfl⟩
  · rename_i env hserved
    obtain ⟨⟨response, t⟩, hserve, hend⟩ := bind_eq_ok.mp h
    cases hend
    exact .inr ⟨env, response, hserved, hserve, rfl⟩

/-- What a served request keeps is kept whatever becomes of the request. -/
theorem ask_keeps {I : Manager → Prop} (hs : I s.mngr)
    (hcall : ∀ env response s', rpcServe env s call.request = .ok (response, s') → I s'.mngr)
    (h : ask d s call = .ok (answer, s')) : I s'.mngr := by
  rcases ask_cases h with ⟨_, rfl, _⟩ | ⟨env, response, _, hserve, _⟩
  · exact hs
  · exact hcall env response s' hserve

theorem read_ok {out : Text} (h : d.read response = .ok out) (hout : out ≠ []) :
    (∃ env, d = .answered env) ∧ out = clientText response := by
  have hempty : clientText [] = [] := rfl
  cases d with
  | lost => cases h
  | unanswered env => cases h
  | closed served =>
    cases h
    exact absurd hempty hout
  | answered env =>
    cases h
    exact ⟨⟨env, rfl⟩, rfl⟩

/-- An answer with something in it comes from the server. -/
theorem ask_answered {out : Text} (h : ask d s call = .ok (.ok out, s')) (hout : out ≠ []) :
    ∃ env response, rpcServe env s call.request = .ok (response, s') ∧ out = clientText response := by
  rcases ask_cases h with ⟨hserved, _, hread⟩ | ⟨env, response, _, hserve, hread⟩
  · obtain ⟨⟨env, rfl⟩, _⟩ := read_ok hread.symm hout
    cases hserved
  · exact ⟨env, response, hserve, (read_ok hread.symm hout).2⟩

theorem ne_nil_of_success {out : Text} (h : "success".toList <:+: lower out) : out ≠ [] := by
  rintro rfl
  have hword : "success".toList ≠ [] := by decide
  exact hword (List.infix_nil.mp h)

theorem ask_getMemPool (h : ask d s .getMemPool = .ok (answer, s')) : s'.mngr = s.mngr :=
  ask_keeps (I := fun m => m = s.mngr) rfl (fun _ _ _ hserve => (served_getMemPool hserve).1) h

theorem ask_getVms (h : ask d s .getVms = .ok (answer, s')) : s'.mngr = s.mngr :=
  ask_keeps (I := fun m => m = s.mngr) rfl (fun _ _ _ hserve => (served_getVms hserve).1) h

/-! ### What QEMU does -/

/-- The server, and what is plugged into the VMs. -/
structure Site where
  server : Server
  plugged : List Backing

def Site.host (h : Site) : Host := ⟨h.server.mngr, h.plugged⟩

/-- QEMU has carried out what it reports as done, and maybe more. -/
def carriesOut (env : ServerEnv) (vmId : ℤ) (command : Json) : Bool :=
  isResponseSuccess (env.qmp vmId command) || env.unreported vmId command

/-- What an attach-mem plugs in: `device_add` is sent where `object-add` was answered with success. -/
def plugsIn (env : ServerEnv) (m : Manager) (memid vid nid : ℤ) : Option Backing :=
  if memid < 0 ∨ vid < 0 then none
  else (vmMngrInstanceGetMem m vid memid).bind fun req =>
    let request := hotplugRequest memid nid req
    if qemuAgentCreateObject env.qmp vid request < 0 then none
    else if carriesOut env vid (deviceAdd request) then some ⟨vid, memid, req⟩ else none

/-- A detach-mem has the device taken out by its `device_del`, which comes first. -/
def pullsOut (env : ServerEnv) (m : Manager) (memid vid : ℤ) : Bool :=
  decide (0 ≤ memid ∧ 0 ≤ vid) && (vmMngrInstanceGetMem m vid memid).isSome &&
    carriesOut env vid (deviceDel ⟨dimmId memid, memdevId memid⟩)

/-- What is left plugged in without a device. -/
def unplugged (vid memid : ℤ) (plugged : List Backing) : List Backing :=
  plugged.filter fun b => !decide (b.vid = vid ∧ b.memid = memid)

/-- What is plugged in after a request, whose arguments are in the buffer then. -/
def pluggedAfter (env : ServerEnv) (m : Manager) (args : Text) (plugged : List Backing) :
    Option Command → List Backing
  | some .attachMem =>
    match sscanf "memid=%d vid=%d nid=%d" args with
    | [.int memid, .int vid, .int nid] => (plugsIn env m memid vid nid).toList ++ plugged
    | _ => plugged
  | some .detachMem =>
    match sscanf "memid=%d vid=%d" args with
    | [.int memid, .int vid] => if pullsOut env m memid vid then unplugged vid memid plugged else plugged
    | _ => plugged
  | _ => plugged

def Site.serve (env : ServerEnv) (request : Text) (h : Site) : Outcome (Text × Site) := do
  let (response, server) ← rpcServe env h.server request
  .ok (response, ⟨server, pluggedAfter env h.server.mngr server.args h.plugged (commandRead request)⟩)

def Site.ask (d : Delivery) (call : ClientCall) (h : Site) : Outcome (Raises Text × Site) :=
  match d.served with
  | none => .ok (d.read [], h)
  | some env => do
    let (response, h) ← h.serve env call.request
    .ok (d.read response, h)

/-- The device that is plugged in where the attach-mem is served. -/
def Delivery.plugsIn (d : Delivery) (m : Manager) (memid vid nid : ℤ) : Option Backing :=
  d.served.bind fun env => Deliveries.plugsIn env m memid vid nid

/-- The device is taken out where the detach-mem is served. -/
def Delivery.pullsOut (d : Delivery) (m : Manager) (memid vid : ℤ) : Bool :=
  d.served.any fun env => Deliveries.pullsOut env m memid vid

variable {h h' : Site} {b : Backing} {plugged : List Backing}

theorem plugsIn_eq_some (hb : plugsIn env m memid vid nid = some b) :
    ∃ req, vmMngrInstanceGetMem m vid memid = some req ∧ b = ⟨vid, memid, req⟩ := by
  unfold plugsIn at hb
  split_ifs at hb
  obtain ⟨req, hreq, hb⟩ := Option.bind_eq_some_iff.mp hb
  dsimp only at hb
  split_ifs at hb
  exact ⟨req, hreq, (Option.some.inj hb).symm⟩

theorem mem_unplugged : b ∈ unplugged vid memid plugged ↔ b ∈ plugged ∧ ¬ (b.vid = vid ∧ b.memid = memid) := by
  simp [unplugged, List.mem_filter, imp_iff_not_or]

/-- Nothing is plugged in but what an attach-mem names. -/
theorem mem_pluggedAfter {command : Option Command} (hb : b ∈ pluggedAfter env m args plugged command) :
    b ∈ plugged ∨ (command = some .attachMem ∧ b ∈ (attachNames m args).toList) := by
  unfold pluggedAfter at hb
  split at hb
  · split at hb
    · rename_i memid vid nid hscan
      rcases List.mem_append.mp hb with hb | hb
      · obtain ⟨req, hreq, rfl⟩ := plugsIn_eq_some (Option.mem_toList.mp hb)
        refine .inr ⟨rfl, ?_⟩
        simp [attachNames, hscan, hreq]
      · exact .inl hb
    · exact .inl hb
  · split at hb
    · split_ifs at hb
      · exact .inl (mem_unplugged.mp hb).1
      · exact .inl hb
    · exact .inl hb
  · exact .inl hb

/-! ### Requests on a site -/

theorem serve_server (hserve : h.serve env request = .ok (response, h')) :
    rpcServe env h.server request = .ok (response, h'.server) := by
  obtain ⟨⟨answer, server⟩, hserved, hend⟩ := bind_eq_ok.mp hserve
  cases hend
  exact hserved

theorem siteAsk_cases (hask : h.ask d call = .ok (answer, h')) :
    (d.served = none ∧ h' = h ∧ answer = d.read []) ∨
      ∃ env response, d.served = some env ∧ h.serve env call.request = .ok (response, h') ∧
        answer = d.read response := by
  unfold Site.ask at hask
  split at hask
  · rename_i hserved
    cases hask
    exact .inl ⟨hserved, rfl, rfl⟩
  · rename_i env hserved
    obtain ⟨⟨response, t⟩, hserve, hend⟩ := bind_eq_ok.mp hask
    cases hend
    exact .inr ⟨env, response, hserved, hserve, rfl⟩

theorem siteAsk_server (hask : h.ask d call = .ok (answer, h')) :
    ask d h.server call = .ok (answer, h'.server) := by
  unfold ask
  rcases siteAsk_cases hask with ⟨hserved, rfl, rfl⟩ | ⟨env, response, hserved, hserve, rfl⟩
  · rw [hserved]
  · rw [hserved]
    dsimp only
    rw [serve_server hserve]
    rfl

/-- A request that is served fits the buffer. -/
theorem received_fits {r : Text × Server} (h : rpcServe env s request = .ok r) :
    (received request).length < bufferSize := by
  refine lt_of_le_of_ne (received_le request) fun hfull => ?_
  unfold rpcServe at h
  dsimp only at h
  rw [← received, if_pos hfull] at h
  cases h

theorem commandRead_numbers {word format : String} {kvs : List (String × ℤ)} {r : Text × Server}
    (hn : NumberCall call word format kvs) (h : rpcServe env s call.request = .ok r) :
    commandRead call.request = some call.command := by
  rw [commandRead, received_whole hn.request_clean.2 (received_fits h), hn.scanned]
  exact hn.command

/-- Other requests plug nothing in and take nothing out. -/
theorem serve_numbers {word format : String} {kvs : List (String × ℤ)} (hn : NumberCall call word format kvs)
    (hattach : call.command ≠ .attachMem) (hdetach : call.command ≠ .detachMem) (env : ServerEnv) (h : Site) :
    h.serve env call.request =
      (rpcServe env h.server call.request).map fun r => (r.1, ⟨r.2, h.plugged⟩) := by
  cases hserve : rpcServe env h.server call.request with
  | error e =>
    rw [Site.serve, hserve]
    rfl
  | ok r =>
    have hplugged : pluggedAfter env h.server.mngr r.2.args h.plugged (commandRead call.request) = h.plugged := by
      rw [commandRead_numbers hn hserve]
      cases hcommand : call.command with
      | attachMem => exact absurd hcommand hattach
      | detachMem => exact absurd hcommand hdetach
      | _ => rfl
    rw [Site.serve, hserve, ok_bind]
    dsimp only
    rw [hplugged]
    rfl

theorem siteAsk_numbers {word format : String} {kvs : List (String × ℤ)} (hn : NumberCall call word format kvs)
    (hattach : call.command ≠ .attachMem) (hdetach : call.command ≠ .detachMem) (d : Delivery) (h : Site) :
    h.ask d call = (ask d h.server call).map fun r => (r.1, ⟨r.2, h.plugged⟩) := by
  unfold Site.ask ask
  cases d.served with
  | none => rfl
  | some env =>
    dsimp only
    rw [serve_numbers hn hattach hdetach]
    cases rpcServe env h.server call.request with
    | error e => rfl
    | ok r => rfl

theorem served_attachMem (h : rpcServe env s (ClientCall.attachMem memid vid nid).request =
    .ok (response, s')) :
    s'.mngr = s.mngr ∧ response = rpcHandleAttachMem env.qmp s.mngr s'.args ∧
      sscanf "memid=%d vid=%d nid=%d" s'.args =
        [.int (readBack memid), .int (readBack vid), .int (readBack nid)] := by
  have hn := attachMem_numbers memid vid nid
  obtain ⟨r, hr, hres⟩ := map_eq_ok.mp
    (rpcServe_served hn.request_clean.2 hn.scanned hn.command h)
  cases hr
  cases hres
  exact ⟨rfl, rfl, hn.readValues⟩

theorem served_detachMem (hserve : rpcServe env s (ClientCall.detachMem memid vid).request =
    .ok (response, s')) :
    s'.mngr = s.mngr ∧ response = rpcHandleDetachMem env.qmp s.mngr s'.args ∧
      sscanf "memid=%d vid=%d" s'.args = [.int (readBack memid), .int (readBack vid)] := by
  have hn := detachMem_numbers memid vid
  obtain ⟨r, hr, hres⟩ := map_eq_ok.mp (rpcServe_served hn.request_clean.2 hn.scanned hn.command hserve)
  cases hr
  cases hres
  exact ⟨rfl, rfl, hn.readValues⟩

theorem serve_attachMem (hserve : h.serve env (ClientCall.attachMem memid vid nid).request =
    .ok (response, h')) :
    h'.server.mngr = h.server.mngr ∧ h'.plugged =
      (plugsIn env h.server.mngr (readBack memid) (readBack vid) (readBack nid)).toList ++ h.plugged := by
  obtain ⟨⟨answer, server⟩, hserved, hend⟩ := bind_eq_ok.mp hserve
  obtain ⟨hm, _, hargs⟩ := served_attachMem hserved
  cases hend
  refine ⟨hm, ?_⟩
  rw [commandRead_numbers (attachMem_numbers memid vid nid) hserved, ClientCall.command, pluggedAfter]
  simp only [hargs]

theorem serve_detachMem (hserve : h.serve env (ClientCall.detachMem memid vid).request =
    .ok (response, h')) :
    ∃ a, h'.server = ⟨h.server.mngr, a⟩ ∧
      sscanf "memid=%d vid=%d" a = [.int (readBack memid), .int (readBack vid)] ∧
      response = rpcHandleDetachMem env.qmp h.server.mngr a ∧
      h'.plugged = if pullsOut env h.server.mngr (readBack memid) (readBack vid) then
        unplugged (readBack vid) (readBack memid) h.plugged else h.plugged := by
  obtain ⟨⟨answer, ⟨m, a⟩⟩, hserved, hend⟩ := bind_eq_ok.mp hserve
  obtain ⟨hm, hanswer, hargs⟩ := served_detachMem hserved
  cases hend
  dsimp only at hm hanswer hargs
  refine ⟨a, congrArg (⟨·, a⟩ : Manager → Server) hm, hargs, hanswer, ?_⟩
  rw [commandRead_numbers (detachMem_numbers memid vid) hserved, ClientCall.command, pluggedAfter]
  simp only [hargs]

end Ramryder.Deliveries
