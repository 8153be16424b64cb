import Ramryder.CScan
import Ramryder.PyText
import Ramryder.RequestHistory

/-! The requests of the admin client and what the server reads in them. -/
namespace Ramryder.ClientRequests
open CInt CMachine CScan CText GuestAgents MemoryPool PyText QemuAgent RequestHistory ResourceManager VmManager

variable {word args : Text}

/-! ### The client -/

/-- The methods of `ResourceClient`. -/
inductive ClientCall
  | getVms
  | getMemPool
  | getNumNodes
  | getNodeInfo (nid : ℤ)
  | createVm (vid : ℤ) (coreset : Text)
  | destroyVm (vid : ℤ)
  | allocMem (nid vid sizeMb : ℤ)
  | freeMem (vid memid : ℤ)
  | attachMem (memid vid nid : ℤ)
  | detachMem (memid vid : ℤ)
  deriving DecidableEq, Repr

/-- The strings the methods format. -/
def ClientCall.text : ClientCall → Text
  | .getVms => "get-vms".toList
  | .getMemPool => "get-mem-pool".toList
  | .getNumNodes => "get-num-nodes".toList
  | .getNodeInfo nid => "get-node-info nid=".toList ++ decimal nid
  | .createVm vid coreset =>
    "create-vm vid=".toList ++ decimal vid ++ " coreset=[".toList ++ coreset ++ "]".toList
  | .destroyVm vid => "destroy-vm vid=".toList ++ decimal vid
  | .allocMem nid vid sizeMb =>
    "alloc-mem nid=".toList ++ decimal nid ++ " vid=".toList ++ decimal vid ++ " size=".toList ++
      decimal sizeMb
  | .freeMem vid memid => "free-mem vid=".toList ++ decimal vid ++ " memid=".toList ++ decimal memid
  | .attachMem memid vid nid =>
    "attach-mem memid=".toList ++ decimal memid ++ " vid=".toList ++ decimal vid ++ " nid=".toList ++
      decimal nid
  | .detachMem memid vid =>
    "detach-mem memid=".toList ++ decimal memid ++ " vid=".toList ++ decimal vid

/-- What `send` puts on the socket. -/
def ClientCall.request (call : ClientCall) : Text := encode call.text

/-- The command whose handler the method means. -/
def ClientCall.command : ClientCall → Command
  | .getVms => .getVms
  | .getMemPool => .getMemPool
  | .getNumNodes => .getNumNodes
  | .getNodeInfo _ => .getNodeInfo
  | .createVm _ _ => .createVm
  | .destroyVm _ => .destroyVm
  | .allocMem _ _ _ => .allocMem
  | .freeMem _ _ => .freeMem
  | .attachMem _ _ _ => .attachMem
  | .detachMem _ _ => .detachMem

def NonNegInt (n : ℤ) : Prop := 0 ≤ n ∧ n ≤ intMax

/-- The arguments the round trip is about: `int`s that are not negative, and a core set
without line end, NUL and closing bracket in a request that fits the receive buffer. -/
def ClientCall.Valid : ClientCall → Prop
  | .getVms | .getMemPool | .getNumNodes => True
  | .getNodeInfo nid => NonNegInt nid
  | .createVm vid coreset => NonNegInt vid ∧ coreset ≠ [] ∧ '\n' ∉ coreset ∧ '\x00' ∉ coreset ∧
      ']' ∉ coreset ∧ (ClientCall.createVm vid coreset).request.length < bufferSize
  | .destroyVm vid => NonNegInt vid
  | .allocMem nid vid sizeMb => NonNegInt nid ∧ NonNegInt vid ∧ NonNegInt sizeMb
  | .freeMem vid memid => NonNegInt vid ∧ NonNegInt memid
  | .attachMem memid vid nid => NonNegInt memid ∧ NonNegInt vid ∧ NonNegInt nid
  | .detachMem memid vid => NonNegInt memid ∧ NonNegInt vid

/-- What the handler's `sscanf` assigns are the arguments of the method. -/
def ClientCall.Scans : ClientCall → Option Text → Prop
  | .getVms, args | .getMemPool, args | .getNumNodes, args => args = none
  | .getNodeInfo nid, args => ∃ a, args = some a ∧ sscanf "nid=%d" a = [.int nid]
  | .createVm vid coreset, args => ∃ a coresetStr, args = some a ∧
      sscanf "vid=%d coreset=%[^\n]" a = [.int vid, .text coresetStr] ∧
      bracketed coresetStr = some (encode coreset)
  | .destroyVm vid, args => ∃ a, args = some a ∧ sscanf "vid=%d" a = [.int vid]
  | .allocMem nid vid sizeMb, args => ∃ a, args = some a ∧
      sscanf "nid=%d vid=%d size=%d" a = [.int nid, .int vid, .int sizeMb]
  | .freeMem vid memid, args => ∃ a, args = some a ∧
      sscanf "vid=%d memid=%d" a = [.int vid, .int memid]
  | .attachMem memid vid nid, args => ∃ a, args = some a ∧
      sscanf "memid=%d vid=%d nid=%d" a = [.int memid, .int vid, .int nid]
  | .detachMem memid vid, args => ∃ a, args = some a ∧
      sscanf "memid=%d vid=%d" a = [.int memid, .int vid]

/-- The answer to a manager call that returns 0 or -1. -/
def returned (success failed : Text) (m : Outcome (ℤ × Manager)) : Outcome (Option Text × Manager) := do
  let (ret, m) ← m
  .ok (some (if ret = 0 then success else failed), m)

/-- What the handler of a call does with the values of the call. -/
def ClientCall.handled (env : ServerEnv) (m : Manager) : ClientCall → Outcome (Option Text × Manager)
  | .getVms => (vmMngrDumpState m bufferSize).map fun r => (some r, m)
  | .getMemPool => (memoryPoolGetUsage m.pool bufferSize).map fun r => (some r, m)
  | .getNumNodes => .ok (some (snprintf bufferSize "%d" [.int (memoryPoolGetNumDevs m.pool)]), m)
  | .getNodeInfo nid =>
    match memoryPoolGetNodeInfo m.pool nid with
    | some info => .ok (some (snprintf bufferSize "nodeid=%d,tier-id=%d,dax-id=%d"
        [.int nid, .int info.tierId, .int info.daxId]), m)
    | none => .ok (some (snprintf bufferSize "Node %d does not exist" [.int nid]), m)
  | .createVm vid coreset =>
    returned (snprintf bufferSize "Create VM %d success, coreset: [%s]" [.int vid, .text (encode coreset)])
      (snprintf bufferSize "Create VM %d failed, coreset: [%s]" [.int vid, .text (encode coreset)])
      (vmMngrInstanceCreate m vid (encode coreset))
  | .destroyVm vid =>
    returned (snprintf bufferSize "Destroy VM %d success" [.int vid])
      (snprintf bufferSize "Destroy VM %d failed" [.int vid]) (vmMngrInstanceDestroy m vid)
  | .allocMem nid vid sizeMb =>
    if sizeMb = 0 then .ok (some invalidArgs, m)
    else do
      let (req, m) ← vmMngrInstanceAllocMem m nid vid sizeMb
      .ok (some (match req with
        | some req => allocMemResponse req
        | none => snprintf bufferSize "Allocate failed" []), m)
  | .freeMem vid memid =>
    returned (snprintf bufferSize "Release success" []) (snprintf bufferSize "Release failed" [])
      (vmMngrInstanceFreeMem m vid memid)
  | .attachMem memid vid nid =>
    match vmMngrInstanceGetMem m vid memid with
    | none => .ok (some (memNotFound memid), m)
    | some req => .ok (some (
        if qemuAgentHotplugMemory env.qmp vid (hotplugRequest memid nid req) = 0 then
          snprintf bufferSize "Hotplug memory success" []
        else snprintf bufferSize "Hotplug memory failed" []), m)
  | .detachMem memid vid =>
    match vmMngrInstanceGetMem m vid memid with
    | none => .ok (some (memNotFound memid), m)
    | some _ => .ok (some (
        if qemuAgentHotunplugMemory env.qmp vid ⟨dimmId memid, memdevId memid⟩ = 0 then
          snprintf bufferSize "Hotunplug memory success" []
        else snprintf bufferSize "Hotunplug memory failed" []), m)

/-! ### The two stages of the server -/

/-- No byte that ends a line or a C string. -/
def Clean (t : Text) : Prop := '\n' ∉ t ∧ '\x00' ∉ t

theorem Clean.append {a b : Text} (ha : Clean a) (hb : Clean b) : Clean (a ++ b) := by
  simp only [Clean, List.mem_append, not_or]
  exact ⟨⟨ha.1, hb.1⟩, ha.2, hb.2⟩

theorem clean_decimal (n : ℤ) : Clean (decimal n) :=
  ⟨notMem_decimal (by decide) (by decide) n, notMem_decimal (by decide) (by decide) n⟩

theorem received_take {request : Text} (hnul : '\x00' ∉ request) :
    received request = request.take bufferSize := by
  rw [received, cString, List.takeWhile_eq_self_iff]
  intro c hc
  have hne : c ≠ '\x00' := fun h => hnul (h ▸ List.mem_of_mem_take hc)
  simpa using hne

/-- A request that does not fill the buffer arrives as it was sent. -/
theorem received_whole {request : Text} (hnul : '\x00' ∉ request)
    (hfits : (received request).length < bufferSize) : received request = request := by
  rw [received_take hnul] at hfits ⊢
  rw [List.length_take] at hfits
  exact List.take_of_length_le (by omega)

theorem received_clean {request : Text} (hfits : request.length < bufferSize)
    (hclean : Clean request) : received request = request := by
  rw [received_take hclean.2, List.take_of_length_le hfits.le]

theorem requestFormat : directives none "%63s %[^\n]".toList = [.str 63, .lit ' ', .line] := by
  rfl

/-- A word, a blank and the arguments up to the end of the line. -/
theorem scanRequest_line (hword : ∀ c ∈ word, isSpace c = false) (hne : word ≠ [])
    (hfits : word.length ≤ 63) (hargs : args.takeWhile (· != '\n') ≠ []) (hstart : NoSpace args) :
    scanRequest (word ++ ' ' :: args) = (some word, some (args.takeWhile (· != '\n'))) := by
  have hscan : scan [.str 63, .lit ' ', .line] (word ++ ' ' :: args) =
      [.text word, .text (args.takeWhile (· != '\n'))] := by
    have hblank : ∀ c ∈ (' ' :: args).head?, isSpace c = true := by
      intro c hc
      obtain rfl : ' ' = c := Option.some.inj hc
      decide
    rw [scan_word hword hfits hne hblank, scan_blank hstart, scan_line hargs]
  simp only [scanRequest, sscanf, requestFormat, hscan]

theorem scanRequest_args (hword : ∀ c ∈ word, isSpace c = false) (hne : word ≠ [])
    (hfits : word.length ≤ 63) (hargs : args ≠ []) (hstart : NoSpace args) (hline : '\n' ∉ args) :
    scanRequest (word ++ ' ' :: args) = (some word, some args) := by
  have hscan := scanRequest_line hword hne hfits (by rwa [takeWhile_line hline]) hstart
  rwa [takeWhile_line hline] at hscan

theorem scanRequest_word (hword : ∀ c ∈ word, isSpace c = false) (hne : word ≠ [])
    (hfits : word.length ≤ 63) : scanRequest word = (some word, none) := by
  have hscan : scan [.str 63, .lit ' ', .line] word = [.text word] := by
    have hrest : scan [.lit ' ', .line] [] = [] := by decide
    have h : scan [.str 63, .lit ' ', .line] (word ++ []) =
        .text word :: scan [.lit ' ', .line] [] := scan_word hword hfits hne (by simp)
    rwa [List.append_nil, hrest] at h
  simp only [scanRequest, sscanf, requestFormat, hscan]

/-- The server ends in the handler of the command that was scanned. -/
theorem rpcServe_scanned {request : Text} {scanned : Option Text} {command : Command}
    (hfits : (received request).length < bufferSize)
    (hscan : scanRequest (received request) = (some word, scanned))
    (hcmd : commandOf word = some command) (env : ServerEnv) (s : Server) :
    rpcServe env s request = (rpcHandle env s.mngr (scanned.getD s.args) command).map fun r =>
      (r.1.getD "Failed to get results\n".toList, ⟨r.2, scanned.getD s.args⟩) := by
  unfold rpcServe
  dsimp only
  rw [← received, if_neg hfits.ne, hscan]
  simp only [respond, hcmd]
  cases rpcHandle env s.mngr (scanned.getD s.args) command with
  | error e => rfl
  | ok r => rfl

/-- A request that was served was read whole. -/
theorem rpcServe_served {request response : Text} {scanned : Option Text} {command : Command}
    {env : ServerEnv} {s s' : Server} (hnul : '\x00' ∉ request)
    (hscan : scanRequest request = (some word, scanned)) (hcmd : commandOf word = some command)
    (h : rpcServe env s request = .ok (response, s')) :
    (rpcHandle env s.mngr (scanned.getD s.args) command).map (fun r =>
      (r.1.getD "Failed to get results\n".toList, (⟨r.2, scanned.getD s.args⟩ : Server))) =
        .ok (response, s') := by
  have hfits : (received request).length < bufferSize := by
    have hle : (received request).length ≤ bufferSize := by
      rw [received_take hnul]
      exact List.length_take_le _ _
    refine lt_of_le_of_ne hle fun hfull => ?_
    unfold rpcServe at h
    dsimp only at h
    rw [← received, if_pos hfull] at h
    cases h
  rw [← received_whole hnul hfits] at hscan
  rw [← h, rpcServe_scanned hfits hscan hcmd]

/-- Its handler ended. -/
theorem served_scanned {request response : Text} {scanned : Option Text} {command : Command}
    {env : ServerEnv} {s s' : Server} (hnul : '\x00' ∉ request)
    (hscan : scanRequest request = (some word, scanned)) (hcmd : commandOf word = some command)
    (h : rpcServe env s request = .ok (response, s')) :
    ∃ r, rpcHandle env s.mngr (scanned.getD s.args) command = .ok r ∧
      response = r.1.getD "Failed to get results\n".toList ∧ s'.mngr = r.2 := by
  obtain ⟨r, hr, hres⟩ := map_eq_ok.mp (rpcServe_served hnul hscan hcmd h)
  cases hres
  exact ⟨r, hr, rfl, rfl⟩

/-! ### Requests of a command and numbers -/

/-- A command word: short, of ASCII characters without white space. -/
def Word (w : String) : Prop :=
  w.toList ≠ [] ∧ w.toList.length ≤ 63 ∧ ∀ c ∈ w.toList, IsAscii c ∧ isSpace c = false ∧ c ≠ '\x00'

instance (w : String) : Decidable (Word w) := inferInstanceAs (Decidable (_ ∧ _ ∧ _))

/-- A key of the requests. -/
def ShortKey (k : String) : Prop := Word k ∧ k.toList.length ≤ 8

instance (k : String) : Decidable (ShortKey k) := inferInstanceAs (Decidable (_ ∧ _))

theorem Word.clean {w : String} (h : Word w) : Clean w.toList := by
  constructor
  · intro hmem
    have := (h.2.2 _ hmem).2.1
    exact absurd this (by decide)
  · intro hmem
    exact (h.2.2 _ hmem).2.2 rfl

theorem ascii_decimal (n : ℤ) : ∀ c ∈ decimal n, IsAscii c := by
  intro c hc
  rcases isDigit_of_mem_decimal hc with hd | rfl
  · have hle : 48 ≤ c.toNat ∧ c.toNat ≤ 57 := by
      simpa [Char.isDigit, UInt32.le_iff_toNat_le] using hd
    simp only [IsAscii]
    omega
  · decide

/-- What holds of the characters of all its keys and numbers holds of an argument text. -/
theorem argText_chars {P : Char → Prop} {kvs : List (String × ℤ)} (hblank : P ' ')
    (hkey : ∀ kv ∈ kvs, ∀ c ∈ kv.1.toList, P c) (hnum : ∀ n : ℤ, ∀ c ∈ decimal n, P c) :
    ∀ c ∈ argText kvs, P c := by
  induction kvs with
  | nil => simp [argText]
  | cons kv kvs ih =>
    have hrest := ih fun q hq => hkey q (List.mem_cons_of_mem kv hq)
    have hhere := hkey kv List.mem_cons_self
    cases kvs with
    | nil =>
      intro c hc
      rcases List.mem_append.mp (show c ∈ kv.1.toList ++ decimal kv.2 from hc) with hc | hc
      · exact hhere c hc
      · exact hnum _ c hc
    | cons kv' kvs =>
      intro c hc
      have hshape : argText (kv :: kv' :: kvs) =
          kv.1.toList ++ (decimal kv.2 ++ ' ' :: argText (kv' :: kvs)) := rfl
      rw [hshape, List.mem_append, List.mem_append, List.mem_cons] at hc
      rcases hc with hc | hc | rfl | hc
      · exact hhere c hc
      · exact hnum _ c hc
      · exact hblank
      · exact hrest c hc

theorem argText_length {kvs : List (String × ℤ)}
    (h : ∀ kv ∈ kvs, ShortKey kv.1 ∧ InInt kv.2) : (argText kvs).length ≤ 20 * kvs.length := by
  induction kvs with
  | nil => simp [argText]
  | cons kv kvs ih =>
    have hrest := ih fun q hq => h q (List.mem_cons_of_mem kv hq)
    obtain ⟨hkey, hint⟩ := h kv List.mem_cons_self
    have hklen := hkey.2
    have hnlen := decimal_length hint
    cases kvs with
    | nil =>
      change (kv.1.toList ++ decimal kv.2).length ≤ _
      simp only [List.length_append, List.length_cons, List.length_nil]
      omega
    | cons kv' kvs =>
      change (kv.1.toList ++ (decimal kv.2 ++ ' ' :: argText (kv' :: kvs))).length ≤ _
      simp only [List.length_append, List.length_cons] at hrest ⊢
      omega

/-- The server decodes a call: the handler of its command gets arguments in which it scans those
of the call. -/
def Decoded (call : ClientCall) : Prop :=
  ∃ scanned, call.Scans scanned ∧ ∀ env s, rpcServe env s call.request =
    (rpcHandle env s.mngr (scanned.getD s.args) call.command).map fun r =>
      (r.1.getD "Failed to get results\n".toList, ⟨r.2, scanned.getD s.args⟩)

/-- A call that sends its command and numbers under their keys, and the format its handler has
for them. -/
structure NumberCall (call : ClientCall) (w format : String) (kvs : List (String × ℤ)) : Prop where
  text : call.text = w.toList ++ ' ' :: argText kvs
  word : Word w
  command : commandOf w.toList = some call.command
  some_key : kvs ≠ []
  few_keys : kvs.length ≤ 3
  keys : ∀ kv ∈ kvs, ShortKey kv.1
  directives : directives none format.toList = argFormat (kvs.map Prod.fst)

namespace NumberCall

variable {call : ClientCall} {w format : String} {kvs : List (String × ℤ)}

theorem request (h : NumberCall call w format kvs) :
    call.request = w.toList ++ ' ' :: argText kvs := by
  have hascii : ∀ c ∈ w.toList ++ ' ' :: argText kvs, IsAscii c := by
    intro c hc
    rw [List.mem_append, List.mem_cons] at hc
    rcases hc with hc | rfl | hc
    · exact (h.word.2.2 c hc).1
    · decide
    · exact argText_chars (by decide) (fun kv hkv c hc => ((h.keys kv hkv).1.2.2 c hc).1)
        ascii_decimal c hc
  rw [ClientCall.request, h.text, encode_ascii hascii]

theorem args_clean (h : NumberCall call w format kvs) : Clean (argText kvs) := by
  have hchars : ∀ c ∈ argText kvs, c ≠ '\n' ∧ c ≠ '\x00' := argText_chars (by decide)
    (fun kv hkv c hc => ⟨fun hn => (h.keys kv hkv).1.clean.1 (hn ▸ hc),
      fun hn => (h.keys kv hkv).1.clean.2 (hn ▸ hc)⟩)
    (fun n c hc => ⟨fun hn => (clean_decimal n).1 (hn ▸ hc), fun hn => (clean_decimal n).2 (hn ▸ hc)⟩)
  exact ⟨fun hmem => (hchars _ hmem).1 rfl, fun hmem => (hchars _ hmem).2 rfl⟩

theorem request_clean (h : NumberCall call w format kvs) : Clean call.request := by
  have hblank : Clean [' '] := by simp [Clean]
  rw [h.request]
  exact h.word.clean.append (Clean.append hblank h.args_clean)

theorem key (h : NumberCall call w format kvs) : ∀ kv ∈ kvs, Key kv.1 := fun kv hkv =>
  ⟨(h.keys kv hkv).1.1, fun c hc => ((h.keys kv hkv).1.2.2 c hc).2.1⟩

theorem scanned (h : NumberCall call w format kvs) :
    scanRequest call.request = (some w.toList, some (argText kvs)) := by
  have hstart : NoSpace (argText kvs) ∧ argText kvs ≠ [] := by
    have hkey := h.key
    cases kvs with
    | nil => exact absurd rfl h.some_key
    | cons kv kvs =>
      have hfirst := hkey kv List.mem_cons_self
      refine ⟨argText_noSpace hfirst, fun hnil => ?_⟩
      cases kvs with
      | nil => exact hfirst.1 (List.append_eq_nil_iff.mp hnil).1
      | cons kv' kvs => exact hfirst.1 (List.append_eq_nil_iff.mp hnil).1
  rw [h.request]
  exact scanRequest_args (fun c hc => (h.word.2.2 c hc).2.1) h.word.1 h.word.2.1 hstart.2 hstart.1
    h.args_clean.1

theorem fits (h : NumberCall call w format kvs) (hint : ∀ kv ∈ kvs, InInt kv.2) :
    call.request.length < bufferSize := by
  have hlength := argText_length fun kv hkv => ⟨h.keys kv hkv, hint kv hkv⟩
  have hwlen := h.word.2.1
  have hfew := h.few_keys
  rw [h.request]
  simp only [List.length_append, List.length_cons, bufferSize]
  omega

theorem readValues (h : NumberCall call w format kvs) :
    sscanf format (argText kvs) = kvs.map fun kv => .int (readBack kv.2) := by
  rw [sscanf, h.directives]
  exact scan_argText h.key

theorem values (h : NumberCall call w format kvs) (hint : ∀ kv ∈ kvs, InInt kv.2) :
    sscanf format (argText kvs) = kvs.map fun kv => .int kv.2 := by
  rw [h.readValues]
  exact List.map_congr_left fun kv hkv => by rw [readBack_of_inInt (hint kv hkv)]

/-- The server reads a command and its numbers as they were written. -/
theorem decoded (h : NumberCall call w format kvs) (hint : ∀ kv ∈ kvs, InInt kv.2)
    (hscans : ∀ a, sscanf format a = (kvs.map fun kv => .int kv.2) → call.Scans (some a)) :
    Decoded call := by
  have hreceived := received_clean (h.fits hint) h.request_clean
  refine ⟨some (argText kvs), hscans _ (h.values hint),
    fun env s => rpcServe_scanned ?_ ?_ h.command env s⟩
  · rw [hreceived]
    exact h.fits hint
  · rw [hreceived]
    exact h.scanned

end NumberCall

theorem word_decoded {call : ClientCall} {w : String} (htext : call.text = w.toList) (hw : Word w)
    (hcmd : commandOf w.toList = some call.command) (hscans : call.Scans none) : Decoded call := by
  have hascii : ∀ c ∈ w.toList, IsAscii c := fun c hc => (hw.2.2 c hc).1
  have hfits : w.toList.length < bufferSize := lt_of_le_of_lt hw.2.1 (by decide)
  have hreceived : received call.request = w.toList := by
    rw [ClientCall.request, htext, encode_ascii hascii]
    exact received_clean hfits hw.clean
  refine ⟨none, hscans, fun env s => rpcServe_scanned ?_ ?_ hcmd env s⟩
  · rw [hreceived]
    exact hfits
  · rw [hreceived]
    exact scanRequest_word (fun c hc => (hw.2.2 c hc).2.1) hw.1 hw.2.1

/-! ### The request that creates a VM -/

/-- The text between the brackets is what was put there. -/
theorem bracketed_append (hword : ']' ∉ word) : bracketed ('[' :: (word ++ [']'])) = some word := by
  have hstart : ('[' :: (word ++ [']'])).idxOf '[' = 0 := List.idxOf_cons_self
  have hstop : ('[' :: (word ++ [']'])).idxOf ']' = word.length + 1 := by
    rw [List.idxOf_cons_ne _ (by decide), List.idxOf_append_of_notMem hword, List.idxOf_cons_self]
  simp [bracketed, hstart, hstop]

def coresetArgs (vid : ℤ) (coreset : Text) : Text :=
  "vid=".toList ++ (decimal vid ++ ' ' :: ("coreset=".toList ++ '[' :: (encode coreset ++ [']'])))

theorem createVm_request (vid : ℤ) (coreset : Text) :
    (ClientCall.createVm vid coreset).request = "create-vm".toList ++ ' ' :: coresetArgs vid coreset := by
  have hdecimal := encode_ascii (ascii_decimal vid)
  have hhead : encode "create-vm vid=".toList = "create-vm".toList ++ ' ' :: "vid=".toList := by
    rfl
  have hmid : encode " coreset=[".toList = ' ' :: ("coreset=".toList ++ ['[']) := by rfl
  have hlast : encode "]".toList = [']'] := by rfl
  have htext : (ClientCall.createVm vid coreset).text =
      "create-vm vid=".toList ++ decimal vid ++ " coreset=[".toList ++ coreset ++ "]".toList := rfl
  rw [ClientCall.request, htext, encode_append, encode_append, encode_append, encode_append,
    hdecimal, hhead, hmid, hlast, coresetArgs]
  simp only [List.append_assoc, List.cons_append, List.nil_append]

theorem createVmFormat : directives none "vid=%d coreset=%[^\n]".toList =
    lits "vid=" ++ .int 0 :: .lit ' ' :: (lits "coreset=" ++ [.line]) := by
  rfl

theorem coresetWord : Word "coreset=" := by simp [Word, IsAscii, isSpace]

theorem createVmWord : Word "create-vm" := by simp [Word, IsAscii, isSpace]

theorem vidWord : Word "vid=" := by simp [Word, IsAscii, isSpace]

theorem Word.noSpace {w : String} (h : Word w) (rest : Text) : NoSpace (w.toList ++ rest) :=
  NoSpace.append (fun c hc => (h.2.2 c (List.mem_of_mem_head? hc)).2.1) h.1 rest

theorem createVm_scans {vid : ℤ} {coreset : Text} (hvid : NonNegInt vid) (hline : '\n' ∉ coreset) :
    sscanf "vid=%d coreset=%[^\n]" (coresetArgs vid coreset) =
      [.int vid, .text ('[' :: (encode coreset ++ [']']))] := by
  obtain ⟨h0, hmax⟩ := hvid
  have hint : InInt vid := by
    simp only [InInt, intMin, intMax] at hmax ⊢
    omega
  have hend : '\n' ∉ '[' :: (encode coreset ++ [']']) := by
    simp [mem_encode (show IsAscii '\n' by decide), hline]
  rw [sscanf, createVmFormat, coresetArgs, scan_lits fun c hc => (vidWord.2.2 c hc).2.1,
    scan_int hint (noDigit_cons (by decide)), scan_blank (coresetWord.noSpace _),
    scan_lits fun c hc => (coresetWord.2.2 c hc).2.1, scan_line (by simp [takeWhile_line hend]),
    takeWhile_line hend]

theorem coresetArgs_clean {vid : ℤ} {coreset : Text} (hline : '\n' ∉ coreset)
    (hnul : '\x00' ∉ coreset) : Clean (coresetArgs vid coreset) := by
  have hcoreset : Clean (encode coreset) :=
    ⟨(mem_encode (by decide)).not.mpr hline, (mem_encode (by decide)).not.mpr hnul⟩
  have hopen : Clean ['['] := by simp [Clean]
  have hclose : Clean [']'] := by simp [Clean]
  have hblank : Clean [' '] := by simp [Clean]
  exact vidWord.clean.append <| (clean_decimal vid).append <| Clean.append hblank <|
    coresetWord.clean.append <| Clean.append hopen <| hcoreset.append hclose

theorem createVm_decoded {vid : ℤ} {coreset : Text}
    (h : (ClientCall.createVm vid coreset).Valid) : Decoded (.createVm vid coreset) := by
  obtain ⟨hvid, -, hline, hnul, hbracket, hfits⟩ := h
  have hargs : Clean (coresetArgs vid coreset) := coresetArgs_clean hline hnul
  have hclean : Clean (ClientCall.createVm vid coreset).request := by
    have hblank : Clean [' '] := by simp [Clean]
    rw [createVm_request]
    exact createVmWord.clean.append (Clean.append hblank hargs)
  have hreceived := received_clean hfits hclean
  have hread : (received (ClientCall.createVm vid coreset).request).length < bufferSize := by
    rwa [hreceived]
  have hscans : (ClientCall.createVm vid coreset).Scans (some (coresetArgs vid coreset)) :=
    ⟨_, _, rfl, createVm_scans hvid hline,
      bracketed_append ((mem_encode (show IsAscii ']' by decide)).not.mpr hbracket)⟩
  have hrequest : scanRequest (received (ClientCall.createVm vid coreset).request) =
      (some "create-vm".toList, some (coresetArgs vid coreset)) := by
    have hne : coresetArgs vid coreset ≠ [] := fun h => vidWord.1 (List.append_eq_nil_iff.mp h).1
    rw [hreceived, createVm_request]
    exact scanRequest_args (fun c hc => (createVmWord.2.2 c hc).2.1) createVmWord.1 createVmWord.2.1
      hne (vidWord.noSpace _) hargs.1
  have hcmd : commandOf "create-vm".toList = some .createVm := by rfl
  exact ⟨_, hscans, fun env s => rpcServe_scanned hread hrequest hcmd env s⟩

/-! ### Every request -/

theorem shortKeys : ∀ k ∈ ["nid=", "vid=", "memid=", "size="], ShortKey k := by
  simp [ShortKey, Word, IsAscii, isSpace]

theorem commandWords : ∀ w ∈ ["get-vms", "get-mem-pool", "get-num-nodes", "get-node-info",
    "destroy-vm", "alloc-mem", "free-mem", "attach-mem", "detach-mem"], Word w := by
  simp [Word, IsAscii, isSpace]

theorem getNodeInfo_numbers (nid : ℤ) :
    NumberCall (.getNodeInfo nid) "get-node-info" "nid=%d" [("nid=", nid)] := by
  have hcmd : commandOf "get-node-info".toList = some .getNodeInfo := by rfl
  have hformat : directives none "nid=%d".toList = argFormat ["nid="] := by
    rfl
  refine ⟨?_, commandWords _ (by simp), hcmd, by simp, by simp, ?_, hformat⟩
  · change "get-node-info nid=".toList ++ decimal nid = _
    simp [argText]
  · simp [shortKeys "nid="]

theorem destroyVm_numbers (vid : ℤ) :
    NumberCall (.destroyVm vid) "destroy-vm" "vid=%d" [("vid=", vid)] := by
  have hcmd : commandOf "destroy-vm".toList = some .destroyVm := by rfl
  have hformat : directives none "vid=%d".toList = argFormat ["vid="] := by
    rfl
  refine ⟨?_, commandWords _ (by simp), hcmd, by simp, by simp, ?_, hformat⟩
  · change "destroy-vm vid=".toList ++ decimal vid = _
    simp [argText]
  · simp [shortKeys "vid="]

theorem allocMem_numbers (nid vid sizeMb : ℤ) :
    NumberCall (.allocMem nid vid sizeMb) "alloc-mem" "nid=%d vid=%d size=%d"
      [("nid=", nid), ("vid=", vid), ("size=", sizeMb)] := by
  have hcmd : commandOf "alloc-mem".toList = some .allocMem := by rfl
  have hformat : directives none "nid=%d vid=%d size=%d".toList = argFormat ["nid=", "vid=", "size="] := by
    rfl
  refine ⟨?_, commandWords _ (by simp), hcmd, by simp, by simp, ?_, hformat⟩
  · change "alloc-mem nid=".toList ++ decimal nid ++ " vid=".toList ++ decimal vid ++ " size=".toList ++
      decimal sizeMb = _
    simp [argText]
  · simp [shortKeys "nid=", shortKeys "vid=", shortKeys "size="]

theorem freeMem_numbers (vid memid : ℤ) :
    NumberCall (.freeMem vid memid) "free-mem" "vid=%d memid=%d"
      [("vid=", vid), ("memid=", memid)] := by
  have hcmd : commandOf "free-mem".toList = some .freeMem := by rfl
  have hformat : directives none "vid=%d memid=%d".toList = argFormat ["vid=", "memid="] := by
    rfl
  refine ⟨?_, commandWords _ (by simp), hcmd, by simp, by simp, ?_, hformat⟩
  · change "free-mem vid=".toList ++ decimal vid ++ " memid=".toList ++ decimal memid = _
    simp [argText]
  · simp [shortKeys "vid=", shortKeys "memid="]

theorem attachMem_numbers (memid vid nid : ℤ) :
    NumberCall (.attachMem memid vid nid) "attach-mem" "memid=%d vid=%d nid=%d"
      [("memid=", memid), ("vid=", vid), ("nid=", nid)] := by
  have hcmd : commandOf "attach-mem".toList = some .attachMem := by rfl
  have hformat : directives none "memid=%d vid=%d nid=%d".toList = argFormat ["memid=", "vid=", "nid="] := by
    rfl
  refine ⟨?_, commandWords _ (by simp), hcmd, by simp, by simp, ?_, hformat⟩
  · change "attach-mem memid=".toList ++ decimal memid ++ " vid=".toList ++ decimal vid ++
      " nid=".toList ++ decimal nid = _
    simp [argText]
  · simp [shortKeys "memid=", shortKeys "vid=", shortKeys "nid="]

theorem detachMem_numbers (memid vid : ℤ) :
    NumberCall (.detachMem memid vid) "detach-mem" "memid=%d vid=%d"
      [("memid=", memid), ("vid=", vid)] := by
  have hcmd : commandOf "detach-mem".toList = some .detachMem := by rfl
  have hformat : directives none "memid=%d vid=%d".toList = argFormat ["memid=", "vid="] := by
    rfl
  refine ⟨?_, commandWords _ (by simp), hcmd, by simp, by simp, ?_, hformat⟩
  · change "detach-mem memid=".toList ++ decimal memid ++ " vid=".toList ++ decimal vid = _
    simp [argText]
  · simp [shortKeys "memid=", shortKeys "vid="]

theorem NonNegInt.inInt {n : ℤ} (h : NonNegInt n) : InInt n := by
  obtain ⟨h0, hmax⟩ := h
  simp only [InInt, intMin, intMax] at hmax ⊢
  omega

/-- The server runs the handler of the command, on arguments in which it scans those of the call. -/
theorem Valid.decoded {call : ClientCall} (h : call.Valid) : Decoded call := by
  cases call with
  | getVms =>
    have hcmd : commandOf "get-vms".toList = some .getVms := by rfl
    exact word_decoded rfl (commandWords _ (by simp)) hcmd rfl
  | getMemPool =>
    have hcmd : commandOf "get-mem-pool".toList = some .getMemPool := by rfl
    exact word_decoded rfl (commandWords _ (by simp)) hcmd rfl
  | getNumNodes =>
    have hcmd : commandOf "get-num-nodes".toList = some .getNumNodes := by rfl
    exact word_decoded rfl (commandWords _ (by simp)) hcmd rfl
  | createVm vid coreset => exact createVm_decoded h
  | getNodeInfo nid =>
    have hnid : NonNegInt nid := h
    exact (getNodeInfo_numbers nid).decoded (by simp [hnid.inInt]) fun a ha => ⟨a, rfl, ha⟩
  | destroyVm vid =>
    have hvid : NonNegInt vid := h
    exact (destroyVm_numbers vid).decoded (by simp [hvid.inInt]) fun a ha => ⟨a, rfl, ha⟩
  | allocMem nid vid sizeMb =>
    obtain ⟨hnid, hvid, hsize⟩ := h
    exact (allocMem_numbers nid vid sizeMb).decoded (by simp [hnid.inInt, hvid.inInt, hsize.inInt])
      fun a ha => ⟨a, rfl, ha⟩
  | freeMem vid memid =>
    obtain ⟨hvid, hmemid⟩ := h
    exact (freeMem_numbers vid memid).decoded (by simp [hvid.inInt, hmemid.inInt])
      fun a ha => ⟨a, rfl, ha⟩
  | attachMem memid vid nid =>
    obtain ⟨hmemid, hvid, hnid⟩ := h
    exact (attachMem_numbers memid vid nid).decoded
      (by simp [hmemid.inInt, hvid.inInt, hnid.inInt]) fun a ha => ⟨a, rfl, ha⟩
  | detachMem memid vid =>
    obtain ⟨hmemid, hvid⟩ := h
    exact (detachMem_numbers memid vid).decoded (by simp [hmemid.inInt, hvid.inInt])
      fun a ha => ⟨a, rfl, ha⟩

/-! ### What the handlers do with them -/

variable {env : ServerEnv} {m : Manager} {a : Text}

theorem returned_eq (success failed : Text) (call : Outcome (ℤ × Manager)) :
    (do
      let (ret, m) ← call
      if ret = 0 then .ok (success, m) else .ok (failed, m) : Outcome (Text × Manager)).map
        (fun r => (some r.1, r.2)) = returned success failed call := by
  cases call with
  | error e => rfl
  | ok r =>
    by_cases hret : r.1 = 0
    · simp [returned, hret, Except.map, ok_bind]
    · simp [returned, hret, Except.map, ok_bind]

theorem rpcHandleVm_scanned {vid : ℤ} (hvid : 0 ≤ vid) (hscan : sscanf "vid=%d" a = [.int vid])
    (call : ℤ → Outcome (ℤ × Manager)) (success failed : String) :
    (rpcHandleVm call success failed m a).map (fun r => (some r.1, r.2)) =
      returned (snprintf bufferSize success [.int vid]) (snprintf bufferSize failed [.int vid]) (call vid) := by
  simp only [rpcHandleVm, hscan, if_neg hvid.not_gt]
  exact returned_eq _ _ _

/-- A handler that scans the values of a call acts on them. -/
theorem handled_of_scans {call : ClientCall} {scanned : Option Text} (h : call.Valid) (hscans : call.Scans scanned)
    (env : ServerEnv) (m : Manager) (args : Text) :
    rpcHandle env m (scanned.getD args) call.command = call.handled env m := by
  cases call with
  | getVms => rfl
  | getMemPool => rfl
  | getNumNodes => rfl
  | getNodeInfo nid =>
    obtain ⟨a, rfl, hscan⟩ := hscans
    simp only [ClientCall.command, rpcHandle, Option.getD_some, rpcHandleGetNodeInfo, hscan, ClientCall.handled]
    cases memoryPoolGetNodeInfo m.pool nid with
    | none => rfl
    | some info => rfl
  | createVm vid coreset =>
    obtain ⟨a, coresetStr, rfl, hscan, hbracketed⟩ := hscans
    have hvid : 0 ≤ vid := h.1.1
    simp only [ClientCall.command, rpcHandle, Option.getD_some, rpcHandleCreateVm, hscan, hbracketed,
      if_neg hvid.not_gt, ClientCall.handled]
    exact returned_eq _ _ _
  | destroyVm vid =>
    obtain ⟨a, rfl, hscan⟩ := hscans
    have hvid : NonNegInt vid := h
    exact rpcHandleVm_scanned hvid.1 hscan _ _ _
  | allocMem nid vid sizeMb =>
    obtain ⟨a, rfl, hscan⟩ := hscans
    obtain ⟨hnid, hvid, hsize⟩ := h
    have hinvalid : (nid < 0 ∨ vid < 0 ∨ sizeMb ≤ 0) ↔ sizeMb = 0 := by
      have hnid := hnid.1
      have hvid := hvid.1
      have hsize := hsize.1
      omega
    simp only [ClientCall.command, rpcHandle, Option.getD_some, rpcHandleAllocMem, hscan, ClientCall.handled,
      hinvalid]
    by_cases hzero : sizeMb = 0
    · simp [hzero, Except.map]
    · simp only [if_neg hzero]
      cases vmMngrInstanceAllocMem m nid vid sizeMb with
      | error e => rfl
      | ok r =>
        obtain ⟨req, m'⟩ := r
        cases req with
        | none => rfl
        | some req => rfl
  | freeMem vid memid =>
    obtain ⟨a, rfl, hscan⟩ := hscans
    obtain ⟨hvid, hmemid⟩ := h
    have hvalid : ¬ (vid < 0 ∨ memid < 0) := not_or.mpr ⟨hvid.1.not_gt, hmemid.1.not_gt⟩
    simp only [ClientCall.command, rpcHandle, Option.getD_some, rpcHandleFreeMem, hscan, if_neg hvalid,
      ClientCall.handled]
    exact returned_eq _ _ _
  | attachMem memid vid nid =>
    obtain ⟨a, rfl, hscan⟩ := hscans
    obtain ⟨hmemid, hvid, hnid⟩ := h
    have hvalid : ¬ (memid < 0 ∨ vid < 0) := not_or.mpr ⟨hmemid.1.not_gt, hvid.1.not_gt⟩
    simp only [ClientCall.command, rpcHandle, Option.getD_some, rpcHandleAttachMem, hscan, if_neg hvalid,
      ClientCall.handled]
    cases vmMngrInstanceGetMem m vid memid with
    | none => rfl
    | some req => rfl
  | detachMem memid vid =>
    obtain ⟨a, rfl, hscan⟩ := hscans
    obtain ⟨hmemid, hvid⟩ := h
    have hvalid : ¬ (memid < 0 ∨ vid < 0) := not_or.mpr ⟨hmemid.1.not_gt, hvid.1.not_gt⟩
    simp only [ClientCall.command, rpcHandle, Option.getD_some, rpcHandleDetachMem, hscan, if_neg hvalid,
      ClientCall.handled]
    cases vmMngrInstanceGetMem m vid memid with
    | none => rfl
    | some req => rfl

/-- The server decodes every request the client sends: it runs the handler of the command, that handler scans the
arguments of the call, and it makes its calls with them. -/
theorem request_decoded {call : ClientCall} (h : call.Valid) :
    Decoded call ∧ ∀ scanned, call.Scans scanned → ∀ env m args,
      rpcHandle env m (scanned.getD args) call.command = call.handled env m :=
  ⟨Valid.decoded h, fun _ hscans => handled_of_scans h hscans⟩

theorem request_decoded_createVm : Decoded (.createVm 3 "0-9,20-29".toList) ∧
    ∀ scanned, (ClientCall.createVm 3 "0-9,20-29".toList).Scans scanned → ∀ env m args,
      rpcHandle env m (scanned.getD args) .createVm = (ClientCall.createVm 3 "0-9,20-29".toList).handled env m := by
  have hvalid : (ClientCall.createVm 3 "0-9,20-29".toList).Valid :=
    ⟨by simp [NonNegInt, intMax], by simp, by simp, by simp, by simp, by decide⟩
  exact request_decoded hvalid

end Ramryder.ClientRequests
