import Ramryder.AttachPlan
import Ramryder.Deliveries
import Ramryder.HotplugRange

/-! The loop of `attach-mem` of the admin CLI: for every channel of the plan an `alloc-mem` and an
`attach-mem`, and a `free-mem` for everything that was allocated when one of them fails. -/
namespace Ramryder.AttachRuns
open CInt CMachine CScan CText Cli ClientRequests CreatePlan CreateRequests Deliveries GuestAgents HotplugRange
  Ownership PluggedMemory PyText QemuAgent QemuCommand ResourceManager VmManager VmManagerSpec

/-- An entry of the plan, with what becomes of its two requests. -/
structure Channel where
  nodeId : ℤ
  sizeMb : ℤ
  onAlloc : Delivery
  onAttach : Delivery

/-- The server, what the run has plugged into the VM, and `allocated_memids`. -/
structure AttachState where
  server : Server
  plugged : List Backing
  memids : List ℤ

/-- The index in the answer to an `alloc-mem`. -/
def allocatedMemid (out : Text) : Raises ℤ :=
  let part := ((out.splitOn ',').map strip).find? fun p => decide ("id=".toList <+: p)
  match part.map fun p => (splitFirst '=' p).2 with
  | none => .error (.runtimeError s!"alloc-mem returned invalid id field: {String.ofList out}")
  | some memIdStr =>
    if memIdStr = [] ∨ ¬ "mem".toList <+: memIdStr then
      .error (.runtimeError s!"alloc-mem returned invalid id field: {String.ofList out}")
    else orRaise (pyInt (memIdStr.drop 3))

/-- What the loop makes of the answer to an `attach-mem`. -/
def attachResult (vmid memid nid : ℤ) (attachOut : Text) : Raises Unit :=
  if "success".toList <:+: lower attachOut then .ok ()
  else .error (.runtimeError
    s!"attach-mem failed for vmid={vmid}, memid={memid}, nid={nid}: {String.ofList attachOut}")

def attachMemid (vmid memid : ℤ) (ch : Channel) (st : AttachState) :
    Outcome (Raises Unit × AttachState) := do
  let (answer, h) ← Site.ask ch.onAttach (.attachMem memid vmid ch.nodeId) ⟨st.server, st.plugged⟩
  .ok (answer.bind (attachResult vmid memid ch.nodeId), ⟨h.server, h.plugged, st.memids⟩)

/-- The body of the loop. -/
def attachChannel (vmid : ℤ) (ch : Channel) (st : AttachState) :
    Outcome (Raises Unit × AttachState) := do
  let (answer, server) ← ask ch.onAlloc st.server (.allocMem ch.nodeId vmid ch.sizeMb)
  match answer.bind allocatedMemid with
  | .error e => .ok (.error e, ⟨server, st.plugged, st.memids⟩)
  | .ok memid => attachMemid vmid memid ch ⟨server, st.plugged, st.memids ++ [memid]⟩

def attachChannels (vmid : ℤ) : List Channel → AttachState → Outcome (Raises Unit × AttachState)
  | [], st => .ok (.ok (), st)
  | ch :: chs, st => do
    let (result, st) ← attachChannel vmid ch st
    match result with
    | .error e => .ok (.error e, st)
    | .ok () => attachChannels vmid chs st

/-- The loop of the `except` branch: what becomes of a `free-mem` is not looked at. -/
def freeMemids (onFree : ℤ → Delivery) (vmid : ℤ) : List ℤ → Server → Outcome Server
  | [], s => .ok s
  | memid :: memids, s => do
    let (_, s) ← ask (onFree memid) s (.freeMem vmid memid)
    freeMemids onFree vmid memids s

/-- `handle_attach_mem` from its plan on. -/
def handleAttach (onFree : ℤ → Delivery) (vmid : ℤ) (plan : List Channel) (s : Server) :
    Outcome (Raises Unit × AttachState) := do
  let (result, st) ← attachChannels vmid plan ⟨s, [], []⟩
  match result with
  | .ok () => .ok (.ok (), st)
  | .error e => do
    let server ← freeMemids onFree vmid st.memids st.server
    .ok (.error e, ⟨server, st.plugged, st.memids⟩)

/-! ### What the requests do -/

variable {env : ServerEnv} {s s' : Server} {response : Text} {vid memid nid : ℤ}

theorem served_freeMem (h : rpcServe env s (ClientCall.freeMem vid memid).request =
    .ok (response, s')) :
    ((readBack vid < 0 ∨ readBack memid < 0) ∧ s'.mngr = s.mngr) ∨
      ∃ ret, vmMngrInstanceFreeMem s.mngr (readBack vid) (readBack memid) = .ok (ret, s'.mngr) := by
  have hn := freeMem_numbers vid memid
  have hvalues := hn.readValues
  obtain ⟨r, hr, rfl, hm⟩ := served_scanned hn.request_clean.2 hn.scanned hn.command h
  obtain ⟨⟨t, m⟩, ht, rfl⟩ := map_eq_ok.mp hr
  rw [Option.getD_some, rpcHandleFreeMem, hvalues] at ht
  simp only [List.map_cons, List.map_nil] at ht
  split at ht
  · rename_i hneg
    cases ht
    exact .inl ⟨hneg, hm⟩
  · obtain ⟨⟨ret, m₁⟩, hfree, ht⟩ := bind_eq_ok.mp ht
    refine .inr ⟨ret, ?_⟩
    dsimp only at ht
    split at ht
    · cases ht
      exact hm ▸ hfree
    · cases ht
      exact hm ▸ hfree

/-! ### What the run reads -/

theorem allocMemResponse_front (req : VmMemReq) (hidx : InInt req.memdevIdx) :
    ∃ rest, allocMemResponse req = "id=mem".toList ++ (decimal req.memdevIdx ++ ',' :: rest) := by
  have hlen := decimal_length hidx
  have hfront : ("id=mem".toList ++ (decimal req.memdevIdx ++ [','])).length ≤ bufferSize - 1 := by
    have hid : "id=mem".toList.length = 6 := rfl
    simp only [List.length_append, hid, List.length_cons, List.length_nil, bufferSize]
    omega
  obtain ⟨tail, htail⟩ : ∃ tail, bootText req.memdevIdx req.sizeMb req.alignMb req.offsetMb
      req.devPath = ("id=mem".toList ++ (decimal req.memdevIdx ++ [','])) ++ tail := by
    refine ⟨"mem-path=".toList ++ (req.devPath ++ (",size=".toList ++ (decimal req.sizeMb ++
      ("M,align=".toList ++ (decimal req.alignMb ++ ("M,offset=".toList ++
        (decimal req.offsetMb ++ "M".toList))))))), ?_⟩
    have hcomma : ",mem-path=".toList = ',' :: "mem-path=".toList := by decide
    rw [bootText, hcomma]
    simp only [List.append_assoc, List.cons_append, List.nil_append]
  refine ⟨tail.take (bufferSize - 1 - ("id=mem".toList ++ (decimal req.memdevIdx ++ [','])).length),
    ?_⟩
  rw [allocMemResponse, snprintf, sprintf_bootText, htail, List.take_append,
    List.take_of_length_le hfront]
  simp only [List.append_assoc, List.cons_append, List.nil_append]

/-- The field that names the device stands first in the answer to an `alloc-mem`. -/
theorem idField_response (req : VmMemReq) (hidx : InInt req.memdevIdx) :
    (((clientText (allocMemResponse req)).splitOn ',').map strip).find?
      (fun p => decide ("id=".toList <+: p)) = some ("id=mem".toList ++ decimal req.memdevIdx) := by
  obtain ⟨rest, hrest⟩ := allocMemResponse_front req hidx
  set field := "id=mem".toList ++ decimal req.memdevIdx with hfield
  have hplain : ∀ c ∈ field, IsAscii c ∧ isWhitespace c = false := by
    have hid : ∀ c ∈ "id=mem".toList, IsAscii c ∧ isWhitespace c = false := by
      simp [IsAscii, isWhitespace]
    intro c hc
    rcases List.mem_append.mp hc with hc | hc
    · exact hid c hc
    · exact ⟨ascii_decimal _ c hc, decimal_notWhitespace hc⟩
  have hcomma : ',' ∉ field := by
    rw [hfield, List.mem_append, not_or]
    exact ⟨by decide, comma_notMem_decimal _⟩
  have hne : field ++ [','] ≠ [] := by simp
  have hnil : field ≠ [] := by
    rw [hfield]
    exact fun h => absurd (List.append_eq_nil_iff.mp h).1 (by decide)
  have hends : (∀ c ∈ (field ++ [',']).head?, isWhitespace c = false) ∧
      ∀ c ∈ (field ++ [',']).getLast?, isWhitespace c = false := by
    refine ⟨fun c hc => ?_, fun c hc => ?_⟩
    · rcases List.mem_append.mp (List.mem_of_mem_head? hc) with hc | hc
      · exact (hplain c hc).2
      · rw [List.mem_singleton.mp hc]
        decide
    · rw [List.getLast?_concat] at hc
      obtain rfl : ',' = c := Option.some.inj hc
      decide
  have hascii : ∀ c ∈ field ++ [','], IsAscii c := by
    intro c hc
    rcases List.mem_append.mp hc with hc | hc
    · exact (hplain c hc).1
    · rw [List.mem_singleton.mp hc]
      decide
  obtain ⟨rest', hstrip⟩ := strip_append hne hends.1 hends.2 (decode rest)
  have htext : clientText (allocMemResponse req) = field ++ ',' :: rest' := by
    have hfront : allocMemResponse req = (field ++ [',']) ++ rest := by
      rw [hrest, hfield]
      simp only [List.append_assoc, List.cons_append, List.nil_append]
    rw [clientText, hfront, decode_ascii_append hascii, hstrip]
    simp only [List.append_assoc, List.cons_append, List.nil_append]
  have hkept : strip field = field := by
    have h := @strip_padded [] field [] (by simp) (fun c hc => (hplain c hc).2) (by simp)
    rwa [List.nil_append, List.append_nil] at h
  have hprefix : "id=".toList <+: field := ⟨"mem".toList ++ decimal req.memdevIdx, by rw [hfield]; rfl⟩
  rw [htext, List.splitOn_append_cons_self_of_not_mem hcomma, List.map_cons, hkept,
    List.find?_cons_of_pos (by simpa using hprefix)]

theorem splitFirst_idField (memid : ℤ) : splitFirst '=' ("id=mem".toList ++ decimal memid) =
    ("id".toList, "mem".toList ++ decimal memid) := by
  have hfirst : "id=mem".toList ++ decimal memid = "id".toList ++ '=' :: ("mem".toList ++ decimal memid) :=
    rfl
  rw [hfirst]
  exact splitFirst_append (by decide) _

theorem memName_ne_nil (memid : ℤ) : "mem".toList ++ decimal memid ≠ [] :=
  fun hempty => absurd (List.append_eq_nil_iff.mp hempty).1 (by decide)

theorem allocatedMemid_response (req : VmMemReq) (hidx : InInt req.memdevIdx) :
    allocatedMemid (clientText (allocMemResponse req)) = .ok req.memdevIdx := by
  rw [allocatedMemid]
  simp only [idField_response req hidx, Option.map_some, splitFirst_idField]
  rw [if_neg]
  · have hdrop : ("mem".toList ++ decimal req.memdevIdx).drop 3 = decimal req.memdevIdx := rfl
    rw [hdrop, pyInt_decimal]
    rfl
  · rintro (hempty | hno)
    · exact memName_ne_nil _ hempty
    · exact hno (List.prefix_append _ _)

theorem allocMemId_response (req : VmMemReq) (hidx : InInt req.memdevIdx) :
    allocMemId (clientText (allocMemResponse req)) = .ok ("mem".toList ++ decimal req.memdevIdx) := by
  have hne : clientText (allocMemResponse req) ≠ [] := by
    intro hempty
    have hfield := idField_response req hidx
    rw [hempty] at hfield
    cases hfield
  rw [allocMemId, if_neg hne]
  simp only [idField_response req hidx, Option.map_some, splitFirst_idField]
  rw [if_neg (memName_ne_nil _)]

theorem rpcHandleAttachMem_cases (qmp : Qmp) (m : Manager) (args : Text) :
    rpcHandleAttachMem qmp m args = invalidArgs ∨
      (∃ memid, rpcHandleAttachMem qmp m args = memNotFound memid) ∨
      rpcHandleAttachMem qmp m args = snprintf bufferSize "Hotplug memory success" [] ∨
      rpcHandleAttachMem qmp m args = snprintf bufferSize "Hotplug memory failed" [] := by
  unfold rpcHandleAttachMem
  split
  · split_ifs
    · exact .inl rfl
    · split
      · exact .inr (.inl ⟨_, rfl⟩)
      · split_ifs
        · exact .inr (.inr (.inl rfl))
        · exact .inr (.inr (.inr rfl))
  · exact .inl rfl

theorem memNotFound_not_success (memid : ℤ) :
    ¬ "success".toList <:+: lower (clientText (memNotFound memid)) := by
  have hformat : directives none "Find not find memory %d\n".toList =
      lits "Find not find memory " ++ .int 0 :: lits "\n" := by
    rfl
  have hletter : ∀ c, c ∉ "Find not find memory ".toList → c ∉ decimal memid → c ∉ "\n".toList →
      c ∉ memNotFound memid := by
    intro c hfront hdigits hend hmem
    have hmem := List.mem_of_mem_take hmem
    rw [sprintf, hformat, render_lits, render_int, render_end, padLeft_zero, List.mem_append,
      List.mem_append] at hmem
    rcases hmem with h | h | h
    · exact hfront h
    · exact hdigits h
    · exact hend h
  exact not_success
    (hletter 'u' (by decide) (notMem_decimal (by decide) (by decide) memid) (by decide))
    (hletter 'U' (by decide) (notMem_decimal (by decide) (by decide) memid) (by decide))

/-- The run takes an answer for a success where it is one. -/
theorem hotplug_success_iff (qmp : Qmp) (m : Manager) (args : Text) :
    "success".toList <:+: lower (clientText (rpcHandleAttachMem qmp m args)) ↔
      rpcHandleAttachMem qmp m args = "Hotplug memory success".toList := by
  have hsuccess : snprintf bufferSize "Hotplug memory success" [] =
      "Hotplug memory success".toList := by rfl
  have hread : "success".toList <:+: lower (clientText "Hotplug memory success".toList) := by
    decide
  have hinvalid : ¬ "success".toList <:+: lower (clientText invalidArgs) := by decide
  have hfailed : ¬ "success".toList <:+: lower (clientText
      (snprintf bufferSize "Hotplug memory failed" [])) := by decide
  constructor
  · intro h
    rcases rpcHandleAttachMem_cases qmp m args with hc | ⟨memid, hc⟩ | hc | hc
    · rw [hc] at h
      exact absurd h hinvalid
    · rw [hc] at h
      exact absurd h (memNotFound_not_success memid)
    · rw [hc, hsuccess]
    · rw [hc] at h
      exact absurd h hfailed
  · intro h
    rw [h]
    exact hread

/-! ### What a turn does -/

/-- The memory that the `alloc-mem` of a channel adds to the VM, and the manager then. -/
def grant (vmid : ℤ) (ch : Channel) (m : Manager) : Option (VmMemReq × Manager) :=
  ch.onAlloc.served.bind fun _ => granted m (readBack ch.nodeId) (readBack vmid) (readBack ch.sizeMb)

variable {answer : Raises Text} {m : Manager} {args : Text} {vmid : ℤ} {ch : Channel}

/-- What the loop reads of its `alloc-mem`: the index of the memory that is added, if the answer gets through. -/
theorem ask_allocMem (ho : Owns s.mngr)
    (h : ask ch.onAlloc s (.allocMem ch.nodeId vmid ch.sizeMb) = .ok (answer, s')) :
    (grant vmid ch s.mngr = none ∧ s'.mngr = s.mngr ∧ ∃ e, answer.bind allocatedMemid = .error e) ∨
      ∃ req, grant vmid ch s.mngr = some (req, s'.mngr) ∧
        ((ch.onAlloc.unread = true ∧ ∃ e, answer.bind allocatedMemid = .error e) ∨
          ch.onAlloc.unread = false ∧
            (InInt req.memdevIdx → answer.bind allocatedMemid = .ok req.memdevIdx)) := by
  have hempty : ∃ e, allocatedMemid (clientText []) = .error e := ⟨_, rfl⟩
  have hraises : ∀ d : Delivery, (∀ env, d ≠ .answered env) → ∀ response,
      ∃ e, (d.read response).bind allocatedMemid = .error e := by
    intro d hd response
    cases d with
    | lost | unanswered env => exact ⟨_, rfl⟩
    | closed served => exact hempty
    | answered env => exact absurd rfl (hd env)
  rcases ask_cases h with ⟨hserved, rfl, rfl⟩ | ⟨env, response, hserved, hserve, rfl⟩
  · refine .inl ⟨by rw [grant, hserved]; rfl, rfl, hraises _ (fun env heq => ?_) []⟩
    rw [heq] at hserved
    cases hserved
  have hgrant : grant vmid ch s.mngr =
      granted s.mngr (readBack ch.nodeId) (readBack vmid) (readBack ch.sizeMb) := by
    rw [grant, hserved]
    rfl
  rw [hgrant]
  rcases served_allocMem_granted ho hserve with ⟨hnone, hm, htext⟩ | ⟨req, hsome, rfl⟩
  · refine .inl ⟨hnone, hm, ?_⟩
    have hrefused : ∃ e, allocatedMemid (clientText response) = .error e := by
      rcases htext with rfl | rfl
      · exact ⟨_, rfl⟩
      · exact ⟨_, rfl⟩
    cases hd : ch.onAlloc with
    | answered env' => exact hrefused
    | lost | unanswered env' | closed env' => exact hraises _ (by nofun) response
  · refine .inr ⟨req, hsome, ?_⟩
    cases hd : ch.onAlloc with
    | lost =>
      rw [hd] at hserved
      cases hserved
    | unanswered env' => exact .inl ⟨rfl, hraises _ (by nofun) _⟩
    | closed env' =>
      rw [hd] at hserved
      obtain rfl : env' = some env := hserved
      exact .inl ⟨rfl, hraises _ (by nofun) _⟩
    | answered env' =>
      refine .inr ⟨rfl, fun hin => ?_⟩
      simp only [Delivery.read, Except.bind, allocatedMemid_response req hin]

theorem attachResult_ok {out : Text} (h : attachResult vmid memid nid out = .ok ()) :
    "success".toList <:+: lower out := by
  unfold attachResult at h
  split at h
  · assumption
  · cases h

/-- What is answered with success is plugged in. -/
theorem plugsIn_of_success (hargs : sscanf "memid=%d vid=%d nid=%d" args = [.int memid, .int vid, .int nid])
    (hsuccess : rpcHandleAttachMem env.qmp m args = "Hotplug memory success".toList) :
    (plugsIn env m memid vid nid).isSome = true := by
  have hread := (hotplug_success_iff env.qmp m args).mpr hsuccess
  simp only [rpcHandleAttachMem, hargs] at hread
  rw [plugsIn]
  by_cases hneg : memid < 0 ∨ vid < 0
  · rw [if_pos hneg] at hread
    exact absurd hread (by decide)
  rw [if_neg hneg] at hread ⊢
  cases hget : vmMngrInstanceGetMem m vid memid with
  | none =>
    rw [hget] at hread
    exact absurd hread (memNotFound_not_success memid)
  | some req =>
    rw [hget] at hread
    dsimp only at hread
    by_cases hplug : qemuAgentHotplugMemory env.qmp vid (hotplugRequest memid nid req) = 0
    · rw [qemuAgentHotplugMemory] at hplug
      split_ifs at hplug with hobject hdevice
      have hdone : isResponseSuccess (env.qmp vid (deviceAdd (hotplugRequest memid nid req))) = true := by
        by_contra hno
        exact hdevice (by rw [qemuAgentAddDevice, sendCommand, if_neg hno]; decide)
      simp [hobject, carriesOut, hdone]
    · rw [if_neg hplug] at hread
      exact absurd hread (by decide)

/-- An `attach-mem` of the loop: QEMU may have plugged the device in, and has where the loop reads a success. -/
theorem ask_attachMem {h h' : Site} (hmemid : InInt memid)
    (hask : h.ask ch.onAttach (.attachMem memid vmid nid) = .ok (answer, h')) :
    h'.server.mngr = h.server.mngr ∧
      h'.plugged = (ch.onAttach.plugsIn h.server.mngr memid (readBack vmid) (readBack nid)).toList ++ h.plugged ∧
      (answer.bind (attachResult vmid memid nid) = .ok () →
        (ch.onAttach.plugsIn h.server.mngr memid (readBack vmid) (readBack nid)).isSome = true) := by
  rcases siteAsk_cases hask with ⟨hserved, rfl, rfl⟩ | ⟨env, response, hserved, hserve, rfl⟩
  · rw [Delivery.plugsIn, hserved]
    refine ⟨rfl, rfl, fun hok => ?_⟩
    cases hd : ch.onAttach with
    | lost =>
      rw [hd] at hok
      cases hok
    | closed served =>
      rw [hd] at hok
      cases hok
    | unanswered env | answered env =>
      rw [hd] at hserved
      cases hserved
  · have hplugged := serve_attachMem hserve
    rw [readBack_of_inInt hmemid] at hplugged
    rw [Delivery.plugsIn, hserved, Option.bind_some]
    refine ⟨hplugged.1, hplugged.2, fun hok => ?_⟩
    obtain ⟨out, hout, hok⟩ := bind_eq_ok.mp hok
    have hsuccess := attachResult_ok hok
    obtain ⟨_, rfl⟩ := read_ok hout (ne_nil_of_success hsuccess)
    obtain ⟨_, hresponse, hargs⟩ := served_attachMem (serve_server hserve)
    rw [readBack_of_inInt hmemid] at hargs
    rw [hresponse, hotplug_success_iff] at hsuccess
    exact plugsIn_of_success hargs hsuccess

end Ramryder.AttachRuns
