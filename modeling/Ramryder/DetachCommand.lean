import Ramryder.AttachCommand

/-! `detach-mem` of the admin CLI: a hot-unplug, and a `free-mem` where it succeeded. One run alone, and the
runs that undo an attach. -/
namespace Ramryder.DetachCommand
open AttachCommand AttachRollback AttachRuns CInt CMachine CScan CText Cli ClientRequests CreateCleanup CreatePlan
  CreateRequests CreateSteps Deliveries DeviceIdentity GuestAgents HotplugRange MemoryPool MemoryPoolSpec Ownership
  PluggedMemory PoolConfig PoolImage PyText QemuAgent RequestCalls RequestHistory ResourceManager
  ResourceManagerSpec Runs SegmentBounds Shutdown VmManager VmManagerSpec

/-! ### The command -/

/-- The second half of the run. -/
def freeDetached (onFree : Delivery) (vmid memid : ℤ) (h : Site) : Outcome (Raises Unit × Site) := do
  let (freed, server) ← ask onFree h.server (.freeMem vmid memid)
  match freed with
  | .error e => .ok (.error e, ⟨server, h.plugged⟩)
  | .ok freeOut =>
    if "success".toList <:+: lower freeOut then .ok (.ok (), ⟨server, h.plugged⟩)
    else .ok (.error (.runtimeError
      s!"free-mem failed for vmid={vmid}, memid={memid}: {String.ofList freeOut}"), ⟨server, h.plugged⟩)

def handleDetachMem (onDetach onFree : Delivery) (vmid memid : ℤ) (h : Site) :
    Outcome (Raises Unit × Site) := do
  let (detached, h) ← h.ask onDetach (.detachMem memid vmid)
  match detached with
  | .error e => .ok (.error e, h)
  | .ok detachOut =>
    if "success".toList <:+: lower detachOut then freeDetached onFree vmid memid h
    else .ok (.error (.runtimeError
      s!"detach-mem failed for vmid={vmid}, memid={memid}: {String.ofList detachOut}"), h)

/-! ### The two requests -/

variable {env : ServerEnv} {s s' : Server} {m m₀ m' : Manager} {h h' : Site} {vmid memid v : ℤ}
  {response : Text} {devs : List MemoryDev} {pool : Pool} {stack : Text}

def releaseResponse (ret : ℤ) : Text :=
  if ret = 0 then snprintf bufferSize "Release success" [] else snprintf bufferSize "Release failed" []

theorem rpcServe_freeMem (hvid : NonNegInt vmid) (hmemid : NonNegInt memid) (env : ServerEnv) (s : Server) :
    ∃ a, rpcServe env s (ClientCall.freeMem vmid memid).request =
      (vmMngrInstanceFreeMem s.mngr vmid memid).map fun r => (releaseResponse r.1, ⟨r.2, a⟩) := by
  obtain ⟨scanned, ⟨a, rfl, hscan⟩, hserve⟩ := (freeMem_numbers vmid memid).decoded
    (by simp [hvid.inInt, hmemid.inInt]) fun a ha => ⟨a, rfl, ha⟩
  have hvalid : ¬ (vmid < 0 ∨ memid < 0) := by
    have hvid := hvid.1
    have hmemid := hmemid.1
    omega
  refine ⟨a, ?_⟩
  rw [hserve]
  simp only [ClientCall.command, rpcHandle, Option.getD_some, rpcHandleFreeMem, hscan, if_neg hvalid]
  cases vmMngrInstanceFreeMem s.mngr vmid memid with
  | error e => rfl
  | ok r =>
    by_cases hret : r.1 = 0
    · simp [releaseResponse, hret, Except.map, ok_bind]
    · simp [releaseResponse, hret, Except.map, ok_bind]

/-- QEMU lets go of the device. -/
def Unplugs (env : ServerEnv) (m : Manager) (vmid memid : ℤ) : Prop :=
  (vmMngrInstanceGetMem m vmid memid).isSome = true ∧
    qemuAgentHotunplugMemory env.qmp vmid ⟨dimmId memid, memdevId memid⟩ = 0

instance decidableUnplugs (env : ServerEnv) (m : Manager) (vmid memid : ℤ) :
    Decidable (Unplugs env m vmid memid) := inferInstanceAs (Decidable (_ ∧ _))

/-- The run takes an answer for a success where it is one. -/
theorem hotunplug_success_iff (qmp : Qmp) (m : Manager) (args : Text) :
    "success".toList <:+: lower (clientText (rpcHandleDetachMem qmp m args)) ↔
      rpcHandleDetachMem qmp m args = "Hotunplug memory success".toList := by
  have hread : "success".toList <:+: lower (clientText "Hotunplug memory success".toList) := by decide
  have hinvalid : ¬ "success".toList <:+: lower (clientText invalidArgs) := by decide
  have hfailed : ¬ "success".toList <:+: lower (clientText
      (snprintf bufferSize "Hotunplug memory failed" [])) := by decide
  refine ⟨fun h => ?_, fun h => h ▸ hread⟩
  revert h
  unfold rpcHandleDetachMem
  split
  · split
    · exact fun h => absurd h hinvalid
    · split
      · exact fun h => absurd h (memNotFound_not_success _)
      · split
        · exact fun _ => rfl
        · exact fun h => absurd h hfailed
  · exact fun h => absurd h hinvalid

theorem rpcHandleDetachMem_success {args : Text} (hvid : 0 ≤ vmid) (hmemid : 0 ≤ memid)
    (hargs : sscanf "memid=%d vid=%d" args = [.int memid, .int vmid]) :
    rpcHandleDetachMem env.qmp m args = "Hotunplug memory success".toList ↔ Unplugs env m vmid memid := by
  rw [← hotunplug_success_iff]
  simp only [rpcHandleDetachMem, hargs, if_neg (not_or.mpr ⟨hmemid.not_gt, hvid.not_gt⟩), Unplugs]
  cases vmMngrInstanceGetMem m vmid memid with
  | none => exact iff_of_false (memNotFound_not_success memid) (by simp)
  | some req =>
    by_cases hqmp : qemuAgentHotunplugMemory env.qmp vmid ⟨dimmId memid, memdevId memid⟩ = 0
    · dsimp only
      rw [if_pos hqmp]
      exact iff_of_true (by decide) ⟨rfl, hqmp⟩
    · dsimp only
      rw [if_neg hqmp]
      exact iff_of_false (by decide) fun hboth => hqmp hboth.2

theorem Unplugs.pullsOut (h : Unplugs env m vmid memid) (hvid : 0 ≤ vmid) (hmemid : 0 ≤ memid) :
    pullsOut env m memid vmid = true := by
  obtain ⟨hmem, hqmp⟩ := h
  rw [qemuAgentHotunplugMemory] at hqmp
  split_ifs at hqmp with hdevice hobject
  have hdone : isResponseSuccess (env.qmp vmid (deviceDel ⟨dimmId memid, memdevId memid⟩)) = true := by
    by_contra hno
    exact hdevice (by rw [qemuAgentDelDevice, sendCommand, if_neg hno]; decide)
  simp [Deliveries.pullsOut, hvid, hmemid, hmem, carriesOut, hdone]

/-- What is answered with success has been taken out. -/
theorem pullsOut_of_success {args : Text} (hargs : sscanf "memid=%d vid=%d" args = [.int memid, .int vmid])
    (hsuccess : rpcHandleDetachMem env.qmp m args = "Hotunplug memory success".toList) :
    pullsOut env m memid vmid = true := by
  by_cases hneg : memid < 0 ∨ vmid < 0
  · have hinvalid : rpcHandleDetachMem env.qmp m args = invalidArgs := by
      rw [rpcHandleDetachMem, hargs]
      exact if_pos hneg
    rw [hinvalid] at hsuccess
    exact absurd hsuccess (by decide)
  · have hnonneg : 0 ≤ memid ∧ 0 ≤ vmid := by omega
    exact ((rpcHandleDetachMem_success hnonneg.2 hnonneg.1 hargs).mp hsuccess).pullsOut hnonneg.2 hnonneg.1

/-- Where QEMU lets go of the device, and who reads that it has. -/
theorem siteAsk_detachMem (hvid : NonNegInt vmid) (hmemid : NonNegInt memid) (d : Delivery) (h : Site) :
    ∃ answer a, h.ask d (.detachMem memid vmid) = .ok (answer, ⟨⟨h.server.mngr, a⟩,
        if d.pullsOut h.server.mngr memid vmid = true then unplugged vmid memid h.plugged else h.plugged⟩) ∧
      ((∃ out, answer = .ok out ∧ "success".toList <:+: lower out) ↔
        ∃ env, d = .answered env ∧ Unplugs env h.server.mngr vmid memid) := by
  have hunread : ∀ {response}, (¬ ∃ env, d = .answered env) →
      ((∃ out, d.read response = .ok out ∧ "success".toList <:+: lower out) ↔
        ∃ env, d = .answered env ∧ Unplugs env h.server.mngr vmid memid) := by
    intro response hno
    refine iff_of_false ?_ fun hyes => hno (hyes.imp fun _ => And.left)
    rintro ⟨out, hout, hsuccess⟩
    exact hno (read_ok hout (ne_nil_of_success hsuccess)).1
  cases hserved : d.served with
  | none =>
    have hplugged : d.pullsOut h.server.mngr memid vmid = false := by
      rw [Delivery.pullsOut, hserved]
      rfl
    refine ⟨d.read [], h.server.args, by rw [Site.ask, hserved, hplugged]; rfl, hunread ?_⟩
    rintro ⟨env, rfl⟩
    cases hserved
  | some env =>
    obtain ⟨scanned, ⟨a, rfl, _⟩, hserve⟩ := (detachMem_numbers memid vmid).decoded
      (by simp [hvid.inInt, hmemid.inInt]) fun a ha => ⟨a, rfl, ha⟩
    have hsome : ∃ r, h.serve env (ClientCall.detachMem memid vmid).request = .ok r := by
      rw [Site.serve, hserve]
      exact ⟨_, rfl⟩
    obtain ⟨⟨response, ⟨server, plugged⟩⟩, hserve⟩ := hsome
    obtain ⟨a, hserver, hargs, hresponse, hplugged⟩ := serve_detachMem hserve
    rw [readBack_of_inInt hvid.inInt, readBack_of_inInt hmemid.inInt] at hargs hplugged
    have hpulls : d.pullsOut h.server.mngr memid vmid = pullsOut env h.server.mngr memid vmid := by
      rw [Delivery.pullsOut, hserved, Option.any_some]
    refine ⟨d.read response, a, ?_, ?_⟩
    · dsimp only at hserver hplugged
      rw [Site.ask, hserved]
      dsimp only
      rw [hserve, hserver, hplugged, hpulls]
      rfl
    · by_cases hanswered : ∃ env, d = .answered env
      · obtain ⟨env', rfl⟩ := hanswered
        obtain rfl : env' = env := Option.some.inj hserved
        have hsuccess := @rpcHandleDetachMem_success env' h.server.mngr vmid memid a hvid.1 hmemid.1 hargs
        rw [← hresponse] at hsuccess
        have hread := hotunplug_success_iff env'.qmp h.server.mngr a
        rw [← hresponse, hsuccess] at hread
        simpa [Delivery.read] using hread
      · exact hunread hanswered

/-! ### One run -/

/-- The VM has lost the device, and its segments are free. -/
def Detached (vmid memid : ℤ) (m m' : Manager) : Prop :=
  ∃ i dev k lo n, vmMngrGetInstance m vmid = some i ∧ LiveDev m i dev ∧ dev.memdevIdx = memid ∧
    DevRange m.pool dev.memoryReq k lo n ∧
    m' = { m.setVm i (detachedVm (m.vms i) memid) with
      pool := m.pool.setDev k (released (m.pool.memDevs k) lo n) }

/-- A device that the manager has for a VM can be freed. -/
theorem freeMem_detached (ho : Owns m) (hmem : (vmMngrInstanceGetMem m vmid memid).isSome = true) :
    ∃ m', vmMngrInstanceFreeMem m vmid memid = .ok (0, m') ∧ Detached vmid memid m m' := by
  obtain ⟨req, hreq⟩ := Option.isSome_iff_exists.mp hmem
  obtain ⟨i, hget, hreq⟩ := Option.bind_eq_some_iff.mp hreq
  obtain ⟨dev, hfind, hreq⟩ := Option.bind_eq_some_iff.mp hreq
  obtain ⟨hinit, rfl⟩ := vmMngrGetInstance_eq_some hget
  have hdev : LiveDev m i dev := ⟨hinit, List.mem_of_find?_eq_some hfind⟩
  have hidx : dev.memdevIdx = memid := by simpa using List.find?_some hfind
  obtain ⟨k, lo, n, hr⟩ := ho.range i dev hdev
  subst hidx
  exact ⟨_, ho.freeMem hdev hr, i, dev, k, lo, n, hget, hdev, rfl, hr, rfl⟩

/-- How a run can end: nothing has happened, or QEMU has let go of the device and the VM still has its
memory, or the memory is free as well. -/
inductive DetachEnd (vmid memid : ℤ) (h : Site) : Raises Unit → Site → Prop
  | refused (e : CliError) (a : Text) :
    DetachEnd vmid memid h (.error e) ⟨⟨h.server.mngr, a⟩, h.plugged⟩
  | unfreed (e : CliError) (a : Text) :
    DetachEnd vmid memid h (.error e) ⟨⟨h.server.mngr, a⟩, unplugged vmid memid h.plugged⟩
  | freed (result : Raises Unit) (a : Text) (m : Manager) (hm : Detached vmid memid h.server.mngr m) :
    DetachEnd vmid memid h result ⟨⟨m, a⟩, unplugged vmid memid h.plugged⟩

/-- Both requests are answered, and QEMU lets go of the device. -/
def DetachesWell (onDetach onFree : Delivery) (m : Manager) (vmid memid : ℤ) : Prop :=
  ∃ envD envF, onDetach = .answered envD ∧ onFree = .answered envF ∧ Unplugs envD m vmid memid

/-- Where the first half ends well, the run goes on to its second half. -/
theorem handleDetachMem_unplugs (hvid : NonNegInt vmid) (hmemid : NonNegInt memid)
    (hunplugs : Unplugs env h.server.mngr vmid memid) (onFree : Delivery) :
    ∃ a, handleDetachMem (.answered env) onFree vmid memid h =
      freeDetached onFree vmid memid ⟨⟨h.server.mngr, a⟩, unplugged vmid memid h.plugged⟩ := by
  obtain ⟨answer, a, hask, hread⟩ := siteAsk_detachMem hvid hmemid (.answered env) h
  obtain ⟨out, rfl, hsuccess⟩ := hread.mpr ⟨env, rfl, hunplugs⟩
  have hpulls : (Delivery.answered env).pullsOut h.server.mngr memid vmid = true :=
    hunplugs.pullsOut hvid.1 hmemid.1
  rw [if_pos hpulls] at hask
  refine ⟨a, ?_⟩
  rw [handleDetachMem, hask, ok_bind]
  exact if_pos hsuccess

/-- Elsewhere it frees nothing. -/
theorem handleDetachMem_stops (hvid : NonNegInt vmid) (hmemid : NonNegInt memid) {onDetach : Delivery}
    (hno : ¬ ∃ env, onDetach = .answered env ∧ Unplugs env h.server.mngr vmid memid) (onFree : Delivery) :
    ∃ e h', handleDetachMem onDetach onFree vmid memid h = .ok (.error e, h') ∧
      DetachEnd vmid memid h (.error e) h' := by
  obtain ⟨answer, a, hask, hread⟩ := siteAsk_detachMem hvid hmemid onDetach h
  have hend : ∀ e : CliError, DetachEnd vmid memid h (.error e) ⟨⟨h.server.mngr, a⟩,
      if onDetach.pullsOut h.server.mngr memid vmid = true then unplugged vmid memid h.plugged else h.plugged⟩ := by
    intro e
    split
    · exact .unfreed _ _
    · exact .refused _ _
  rw [handleDetachMem, hask, ok_bind]
  cases answer with
  | error e => exact ⟨e, _, rfl, hend e⟩
  | ok out => exact ⟨_, _, if_neg fun hsuccess => hno (hread.mp ⟨out, rfl, hsuccess⟩), hend _⟩

/-- The second half frees the device where its request is served. -/
theorem freeDetached_served (hvid : NonNegInt vmid) (hmemid : NonNegInt memid)
    (hfree : vmMngrInstanceFreeMem h.server.mngr vmid memid = .ok (0, m')) {onFree : Delivery}
    (hserved : onFree.served = some env) :
    ∃ result a, freeDetached onFree vmid memid h = .ok (result, ⟨⟨m', a⟩, h.plugged⟩) ∧
      (result = .ok () ↔ ∃ env, onFree = .answered env) := by
  have hreleased : "success".toList <:+: lower (clientText (releaseResponse 0)) := by decide
  have hempty : ¬ "success".toList <:+: lower (clientText []) := by decide
  obtain ⟨a, hserve⟩ := rpcServe_freeMem hvid hmemid env h.server
  have hask : ask onFree h.server (.freeMem vmid memid) = .ok (onFree.read (releaseResponse 0), ⟨m', a⟩) := by
    rw [ask, hserved]
    dsimp only
    rw [hserve, hfree]
    rfl
  rw [freeDetached, hask, ok_bind]
  cases onFree with
  | lost => cases hserved
  | unanswered env' => exact ⟨_, a, rfl, by simp⟩
  | closed served => exact ⟨_, a, if_neg hempty, by simp⟩
  | answered env' => exact ⟨_, a, if_pos hreleased, by simp⟩

theorem freeDetached_unserved {onFree : Delivery} (hserved : onFree.served = none) :
    ∃ e, freeDetached onFree vmid memid h = .ok (.error e, h) := by
  have hempty : ¬ "success".toList <:+: lower (clientText []) := by decide
  have hask : ask onFree h.server (.freeMem vmid memid) = .ok (onFree.read [], h.server) := by
    rw [ask, hserved]
  rw [freeDetached, hask, ok_bind]
  cases onFree with
  | lost => exact ⟨_, rfl⟩
  | closed served => exact ⟨_, if_neg hempty⟩
  | unanswered env' | answered env' => cases hserved

/-- In every state that requests reach, whatever becomes of the two requests: the run comes to an end, it
gives nothing back that QEMU has not let go of, and it ends well just when both requests are answered and
QEMU lets go of the device. -/
theorem handleDetachMem_exact (hp : InitialPool pool)
    (hreach : Reaches serverStep (initialServer pool stack) h.server) (hvid : NonNegInt vmid)
    (hmemid : NonNegInt memid) (onDetach onFree : Delivery) :
    ∃ result h', handleDetachMem onDetach onFree vmid memid h = .ok (result, h') ∧
      DetachEnd vmid memid h result h' ∧
      (result = .ok () ↔ DetachesWell onDetach onFree h.server.mngr vmid memid) := by
  have ho : Owns h.server.mngr := (kept_reachable hp (server_refines hp hreach)).owns
  by_cases hfirst : ∃ env, onDetach = .answered env ∧ Unplugs env h.server.mngr vmid memid
  · obtain ⟨env, rfl, hunplugs⟩ := hfirst
    obtain ⟨a, hstart⟩ := handleDetachMem_unplugs hvid hmemid hunplugs onFree
    rw [hstart]
    have hwell : DetachesWell (.answered env) onFree h.server.mngr vmid memid ↔ ∃ envF, onFree = .answered envF :=
      ⟨fun ⟨_, envF, _, hanswered, _⟩ => ⟨envF, hanswered⟩, fun ⟨envF, hanswered⟩ =>
        ⟨env, envF, rfl, hanswered, hunplugs⟩⟩
    rw [hwell]
    cases hserved : onFree.served with
    | none =>
      obtain ⟨e, hend⟩ := @freeDetached_unserved
        ⟨⟨h.server.mngr, a⟩, unplugged vmid memid h.plugged⟩ vmid memid onFree hserved
      refine ⟨_, _, hend, .unfreed _ _, iff_of_false (by simp) ?_⟩
      rintro ⟨envF, rfl⟩
      cases hserved
    | some envF =>
      obtain ⟨m', hfree, hdetached⟩ := freeMem_detached ho hunplugs.1
      obtain ⟨result, a', hend, hresult⟩ := @freeDetached_served envF m'
        ⟨⟨h.server.mngr, a⟩, unplugged vmid memid h.plugged⟩ vmid memid hvid hmemid hfree onFree hserved
      exact ⟨result, _, hend, .freed _ _ _ hdetached, hresult⟩
  · obtain ⟨e, h', hend, hdone⟩ := handleDetachMem_stops hvid hmemid hfirst onFree
    refine ⟨_, h', hend, hdone, iff_of_false (by simp) ?_⟩
    rintro ⟨envD, _, hanswered, _, hunplugs⟩
    exact hfirst ⟨envD, hanswered, hunplugs⟩

theorem handleDetachMem_exact_oneChannel : ∃ s h',
    run serverStep (initialServer smallPool []) oneChannelVm = .ok s ∧
      handleDetachMem (.answered pluggingEnv) (.answered silentEnv) 0 0 ⟨s, []⟩ = .ok (.ok (), h') ∧
      DetachEnd 0 0 ⟨s, []⟩ (.ok ()) h' := by
  have heval : (run serverStep (initialServer smallPool []) oneChannelVm).map
      (fun s => decide (Unplugs pluggingEnv s.mngr 0 0)) = .ok true := by decide +kernel
  obtain ⟨s, hrun, hunplugs⟩ := map_eq_ok.mp heval
  obtain ⟨result, h', hend, hdone, hwell⟩ := @handleDetachMem_exact ⟨s, []⟩ 0 0 smallPool []
    smallPool_initial ⟨_, hrun⟩ ⟨by decide, by decide⟩ ⟨by decide, by decide⟩ (.answered pluggingEnv)
    (.answered silentEnv)
  obtain rfl := hwell.mpr ⟨_, _, rfl, rfl, of_decide_eq_true hunplugs⟩
  exact ⟨s, h', hrun, hend, hdone⟩

/-! ### Undoing an attach -/

/-- One run after the other, until one of them raises. -/
def detachAll (envD envF : ℤ → ServerEnv) (vmid : ℤ) : List ℤ → Site → Outcome (Raises Unit × Site)
  | [], h => .ok (.ok (), h)
  | memid :: memids, h => do
    let (result, h) ← handleDetachMem (.answered (envD memid)) (.answered (envF memid)) vmid memid h
    match result with
    | .error e => .ok (.error e, h)
    | .ok () => detachAll envD envF vmid memids h

variable {envD envF : ℤ → ServerEnv} {order : List ℤ}

/-- Run lemma: in whatever order the added devices are detached, none of them is left. -/
theorem detachAll_grown (hvid : NonNegInt vmid) (hg : Grown vmid m₀ h.server.mngr devs)
    (hplugged : ∀ b ∈ h.plugged, b.vid = vmid ∧ b.dev ∈ devs)
    (horder : order.Perm (devs.map MemoryDev.memdevIdx))
    (hqmp : ∀ memid ∈ order,
      qemuAgentHotunplugMemory (envD memid).qmp vmid ⟨dimmId memid, memdevId memid⟩ = 0) :
    ∃ h', detachAll envD envF vmid order h = .ok (.ok (), h') ∧ Grown vmid m₀ h'.server.mngr [] ∧
      h'.plugged = [] := by
  induction order generalizing h devs with
  | nil =>
    obtain rfl : devs = [] := List.map_eq_nil_iff.mp (List.perm_nil.mp horder.symm)
    refine ⟨h, rfl, hg, List.eq_nil_iff_forall_not_mem.mpr fun b hb => ?_⟩
    cases (hplugged b hb).2
  | cons memid order ih =>
    obtain ⟨dev, hdev, rfl⟩ := List.mem_map.mp (horder.subset List.mem_cons_self)
    obtain ⟨hnonneg, hin⟩ := hg.inInt dev hdev
    have hmemid : NonNegInt dev.memdevIdx := ⟨hnonneg, hin.2⟩
    have hunplugs : Unplugs (envD dev.memdevIdx) h.server.mngr vmid dev.memdevIdx := by
      refine ⟨?_, hqmp _ List.mem_cons_self⟩
      rw [hg.getMem hdev]
      rfl
    obtain ⟨m', hfree, hg'⟩ := hg.free_of_mem hdev
    obtain ⟨a, hstart⟩ := handleDetachMem_unplugs hvid hmemid hunplugs (.answered (envF dev.memdevIdx))
    obtain ⟨result, a', hend, hresult⟩ := @freeDetached_served (envF dev.memdevIdx) m'
      ⟨⟨h.server.mngr, a⟩, unplugged vmid dev.memdevIdx h.plugged⟩ vmid dev.memdevIdx hvid hmemid hfree
      (.answered (envF dev.memdevIdx)) rfl
    obtain rfl := hresult.mpr ⟨_, rfl⟩
    have hrest : order.Perm ((devs.erase dev).map MemoryDev.memdevIdx) :=
      (horder.trans ((List.perm_cons_erase hdev).map _)).cons_inv
    obtain ⟨h', hrun, hdone⟩ := @ih ⟨⟨m', a'⟩, unplugged vmid dev.memdevIdx h.plugged⟩ (devs.erase dev) hg'
      (fun b hb => by
        obtain ⟨hb, hother⟩ := List.mem_filter.mp hb
        obtain ⟨hbvid, hbdev⟩ := hplugged b hb
        refine ⟨hbvid, (List.mem_erase_of_ne fun heq => ?_).mpr hbdev⟩
        have hmem : b.memid = dev.memdevIdx := congrArg MemoryDev.memdevIdx heq
        simp [hbvid, hmem] at hother) hrest fun memid hmem => hqmp memid (List.mem_cons_of_mem _ hmem)
    refine ⟨h', ?_, hdone⟩
    rw [detachAll, hstart, hend]
    exact hrun

/-- Whatever an `attach-mem` has added: when QEMU lets go of each of the devices it printed, detaching them
one by one in any order gives the pool and the device lists of before, and leaves nothing plugged in. -/
theorem attach_detach_restores {w : AttachWorld} {args : AttachArgs} {st : AttachState} (hp : InitialPool pool)
    (hreach : Reaches serverStep (initialServer pool stack) s) (hvid : NonNegInt args.vmid)
    (hrun : handleAttachMem w args s = .ok (.ok (), st)) (horder : order.Perm st.memids)
    (hqmp : ∀ memid ∈ st.memids,
      qemuAgentHotunplugMemory (envD memid).qmp args.vmid ⟨dimmId memid, memdevId memid⟩ = 0) :
    ∃ h', detachAll envD envF args.vmid order ⟨st.server, st.plugged⟩ = .ok (.ok (), h') ∧
      h'.server.mngr.pool = s.mngr.pool ∧ SameLists s.mngr h'.server.mngr ∧ h'.plugged = [] := by
  have hm : Kept s.mngr := kept_reachable hp (server_refines hp hreach)
  obtain ⟨_, _, _, _, _, _, _, _, devs, _, _, _, _, _, _, hdone, _⟩ := handleAttachMem_ok hm hrun
  rw [readBack_of_inInt hvid.inInt] at hdone
  obtain ⟨h', hdetached, hgrown, hnone⟩ := @detachAll_grown s.mngr ⟨st.server, st.plugged⟩ args.vmid devs envD
    envF order hvid hdone.grown hdone.plugged (hdone.memids ▸ horder) fun memid hmem =>
      hqmp memid (horder.subset hmem)
  exact ⟨h', hdetached, hgrown.sameLists.pool_eq hm hgrown.kept hgrown.frame, hgrown.sameLists, hnone⟩

theorem attach_detach_restores_moreChannels : ∃ s st h',
    handleAttachMem pluggingWorld moreChannels s = .ok (.ok (), st) ∧ st.plugged ≠ [] ∧
      detachAll (fun _ => pluggingEnv) (fun _ => silentEnv) 0 [1] ⟨st.server, st.plugged⟩ = .ok (.ok (), h') ∧
      h'.server.mngr.pool = s.mngr.pool ∧ SameLists s.mngr h'.server.mngr ∧ h'.plugged = [] := by
  obtain ⟨pool, s, st, hload, hrun, hattach, _, _, hmemids, hplugged⟩ := moreChannels_run
  have hqmp : ∀ memid ∈ st.memids,
      qemuAgentHotunplugMemory pluggingEnv.qmp 0 ⟨dimmId memid, memdevId memid⟩ = 0 := by
    rw [hmemids]
    decide
  obtain ⟨h', hend⟩ := @attach_detach_restores s pool [] (fun _ => pluggingEnv) (fun _ => silentEnv) [1]
    pluggingWorld moreChannels st (memoryPoolInit_initial hload) ⟨_, hrun⟩ ⟨by decide, by decide⟩ hattach
    (by rw [hmemids]) hqmp
  exact ⟨s, st, h', hattach, by simp [hplugged], hend⟩

end Ramryder.DetachCommand
