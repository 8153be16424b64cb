import Ramryder.DetachCommand

/-! Runs of `detach-mem` among the requests of other clients. A run waits between its two requests, and in
that time anything may be served. -/
namespace Ramryder.DetachRuns
open AttachCommand AttachRollback AttachRuns CInt CMachine CScan CText Cli ClientRequests CreateCleanup
  CreatePlan CreateRequests CreateSteps Deliveries DetachCommand GuestAgents MemoryPool MemoryPoolSpec Ownership PluggedMemory
  PoolConfig PoolImage PyText QemuAgent RequestCalls ResourceManager ResourceManagerSpec Runs Shutdown VmManager
  VmManagerSpec

/-- The site, and the runs that have read the success of their hot-unplug: vmid and memid. -/
structure World where
  site : Site
  waiting : List (ℤ × ℤ)

inductive Move
  | request (env : ServerEnv) (request : Text)
  | detach (onDetach : Delivery) (vmid memid : ℤ)
  | free (onFree : Delivery) (n : ℕ)

def waitingAfter (vmid memid : ℤ) (waiting : List (ℤ × ℤ)) : Raises Text → List (ℤ × ℤ)
  | .ok detachOut => if "success".toList <:+: lower detachOut then waiting ++ [(vmid, memid)] else waiting
  | .error _ => waiting

/-- A request of another client, the first half of a run, or the second half of the `n`-th that waits. -/
def worldStep (w : World) : Move → Outcome World
  | .request env request => (w.site.serve env request).map fun r => ⟨r.2, w.waiting⟩
  | .detach onDetach vmid memid =>
    (w.site.ask onDetach (.detachMem memid vmid)).map fun r => ⟨r.2, waitingAfter vmid memid w.waiting r.1⟩
  | .free onFree n =>
    match w.waiting[n]? with
    | none => .ok w
    | some (vmid, memid) =>
      (freeDetached onFree vmid memid w.site).map fun r => ⟨r.2, w.waiting.eraseIdx n⟩

variable {onDetach onFree : Delivery} {vmid memid : ℤ} {h h' : Site} {w w' : World}

theorem free_nobody (onFree : Delivery) (h : Site) (waiting : List (ℤ × ℤ)) :
    worldStep ⟨h, waiting⟩ (.free onFree waiting.length) = .ok ⟨h, waiting⟩ := by
  rw [worldStep, List.getElem?_eq_none le_rfl]

theorem free_last (onFree : Delivery) (h : Site) (vmid memid : ℤ) (waiting : List (ℤ × ℤ)) :
    worldStep ⟨h, waiting ++ [(vmid, memid)]⟩ (.free onFree waiting.length) =
      (freeDetached onFree vmid memid h).map fun r => ⟨r.2, waiting⟩ := by
  have herase : (waiting ++ [(vmid, memid)]).eraseIdx waiting.length = waiting := by
    rw [List.eraseIdx_append_of_length_le le_rfl, Nat.sub_self, List.eraseIdx_cons_zero, List.append_nil]
  rw [worldStep, List.getElem?_concat_length]
  dsimp only
  rw [herase]

/-- A run that is not interrupted is the command. -/
theorem run_handleDetachMem {result : Raises Unit}
    (hrun : handleDetachMem onDetach onFree vmid memid w.site = .ok (result, h)) :
    run worldStep w [.detach onDetach vmid memid, .free onFree w.waiting.length] = .ok ⟨h, w.waiting⟩ := by
  obtain ⟨⟨detached, h₁⟩, hdetach, hrest⟩ := bind_eq_ok.mp hrun
  have hfirst : worldStep w (.detach onDetach vmid memid) =
      .ok ⟨h₁, waitingAfter vmid memid w.waiting detached⟩ := by
    rw [worldStep, hdetach]
    rfl
  rw [run_cons_ok _ hfirst]
  cases detached with
  | error e =>
    cases hrest
    exact run_cons_ok [] (free_nobody onFree h w.waiting)
  | ok detachOut =>
    dsimp only at hrest
    by_cases hsuccess : "success".toList <:+: lower detachOut
    · have hwaiting : waitingAfter vmid memid w.waiting (.ok detachOut) = w.waiting ++ [(vmid, memid)] :=
        if_pos hsuccess
      have hfree : freeDetached onFree vmid memid h₁ = .ok (result, h) := (if_pos hsuccess).symm.trans hrest
      rw [hwaiting, run, free_last, hfree]
      rfl
    · have hwaiting : waitingAfter vmid memid w.waiting (.ok detachOut) = w.waiting := if_neg hsuccess
      have hend : (.error (.runtimeError
          s!"detach-mem failed for vmid={vmid}, memid={memid}: {String.ofList detachOut}"), h₁) = (result, h) :=
        Except.ok.inj ((if_neg hsuccess).symm.trans hrest)
      cases hend
      rw [hwaiting, run, free_nobody]
      rfl

/-! ### What a request leaves listed -/

variable {m m' : Manager} {b : Backing} {env : ServerEnv} {args response : Text} {s s' : Server}

def destroyNames (args : Text) (b : Backing) : Bool := sscanf "vid=%d" args == [.int b.vid]

/-- The command does not take the device from its VM. -/
def leaves (args : Text) (b : Backing) : Command → Bool
  | .freeMem => !freeNames args b
  | .destroyVm => !destroyNames args b
  | _ => true

theorem Listed.memSame (hs : MemSame m m') (hb : Listed m b) : Listed m' b := by
  obtain ⟨i, hd, hvid⟩ := hb
  exact ⟨i, hs.liveDev.mpr hd, (hs.vmId i).trans hvid⟩

/-- Another slot has changed. -/
theorem Listed.setVm {i : Fin maxNumVm} {vm : VmInstance} {j : Fin maxNumVm} (hd : LiveDev m j b.dev)
    (hvid : (m.vms j).vmId = b.vid) (hother : j ≠ i) (hvms : m'.vms = (m.setVm i vm).vms) : Listed m' b := by
  have hslot : m'.vms j = m.vms j := by rw [hvms, setVm_vms, if_neg hother]
  exact ⟨j, by rwa [LiveDev, hslot], by rwa [hslot]⟩

theorem Listed.created {vid ret : ℤ} {coreSet : Text}
    (hcreate : vmMngrInstanceCreate m vid coreSet = .ok (ret, m')) (hb : Listed m b) : Listed m' b := by
  rcases vmMngrInstanceCreate_ok hcreate with ⟨_, rfl⟩ | ⟨_, _, _, i, n, hfree, _, rfl⟩
  · exact hb
  · obtain ⟨j, hd, hvid⟩ := hb
    refine Listed.setVm hd hvid ?_ rfl
    rintro rfl
    rw [hd.1] at hfree
    cases hfree

theorem Listed.destroyed {vid ret : ℤ} (hdestroy : vmMngrInstanceDestroy m vid = .ok (ret, m'))
    (hb : Listed m b) (hvid : vid ≠ b.vid) : Listed m' b := by
  rcases vmMngrInstanceDestroy_ok hdestroy with ⟨_, rfl⟩ | ⟨_, i, hget, _, rfl⟩
  · exact hb
  · obtain ⟨j, hd, hid⟩ := hb
    refine Listed.setVm hd hid ?_ rfl
    rintro rfl
    exact hvid ((vmMngrGetInstance_eq_some hget).2.symm.trans hid)

/-- The call does not take the device from its VM. -/
def opLeaves (b : Backing) : Op → Prop
  | .destroy vid => vid ≠ b.vid
  | .freeMem vid memid => ¬ (vid = b.vid ∧ memid = b.memid)
  | _ => True

theorem opLeaves_of_calls {command : Command} {op : Op} (hcalls : Calls args command op)
    (hleaves : leaves args b command = true) : opLeaves b op := by
  cases hcalls with
  | free hscan =>
    rintro ⟨rfl, rfl⟩
    simp [leaves, freeNames, hscan] at hleaves
  | destroy hscan =>
    rintro rfl
    simp [leaves, destroyNames, hscan] at hleaves
  | _ => trivial

theorem Listed.step (ho : Owns m) {op : Op} (hstep : VmManager.step m op = .ok m') (hleaves : opLeaves b op)
    (hb : Listed m b) : Listed m' b := by
  cases op with
  | create vmId coreSet =>
    obtain ⟨r, hres, rfl⟩ := map_eq_ok.mp hstep
    exact Listed.created hres hb
  | destroy vmId =>
    obtain ⟨r, hres, rfl⟩ := map_eq_ok.mp hstep
    exact Listed.destroyed hres hb hleaves
  | start vmId env =>
    obtain ⟨r, hres, rfl⟩ := map_eq_ok.mp hstep
    exact Listed.memSame (vmMngrInstanceStart_memSame hres) hb
  | stop vmId kernel =>
    obtain ⟨r, hres, rfl⟩ := map_eq_ok.mp hstep
    exact Listed.memSame (vmMngrInstanceStop_memSame hres) hb
  | allocMem nodeId vmId sizeMb =>
    obtain ⟨r, hres, rfl⟩ := map_eq_ok.mp hstep
    exact Listed.allocMem ho hres hb
  | freeMem vmId memdevIdx =>
    obtain ⟨r, hres, rfl⟩ := map_eq_ok.mp hstep
    exact Listed.freeMem ho hres hb hleaves

/-! ### What every move keeps -/

/-- A waiting run is about to free the device. -/
def Awaited (waiting : List (ℤ × ℤ)) (b : Backing) : Prop :=
  ∃ p ∈ waiting, readBack p.1 = b.vid ∧ readBack p.2 = b.memid

instance decidableAwaited (waiting : List (ℤ × ℤ)) (b : Backing) : Decidable (Awaited waiting b) :=
  inferInstanceAs (Decidable (∃ p ∈ waiting, _))

/-- Other clients take no device that is plugged in from its VM, and plug in none that a waiting run is
about to free. -/
def Spares (w : World) (args : Text) (command : Command) : Prop :=
  (∀ b ∈ w.site.plugged, leaves args b command = true) ∧
    (command = .attachMem →
      ∀ b ∈ (attachNames w.site.server.mngr args).toList, ¬ Awaited w.waiting b)

def Allowed (w : World) : Move → Prop
  | .request _ request =>
    ∀ command ∈ (commandRead request).toList, Spares w (argsRead w.site.server request) command
  | _ => True

instance decidableSpares (w : World) (args : Text) (command : Command) : Decidable (Spares w args command) :=
  inferInstanceAs (Decidable (_ ∧ _))

instance decidableAllowed (w : World) : ∀ move, Decidable (Allowed w move)
  | .request _ request => inferInstanceAs (Decidable (∀ command ∈ (commandRead request).toList, _))
  | .detach .. => isTrue trivial
  | .free .. => isTrue trivial

structure Safe (w : World) : Prop where
  tracked : Tracked w.site.host
  apart : ∀ b ∈ w.site.plugged, ¬ Awaited w.waiting b

theorem Safe.request {request : Text} (hw : Safe w) (hallowed : Allowed w (.request env request))
    (hstep : worldStep w (.request env request) = .ok w') : Safe w' := by
  obtain ⟨⟨response, h⟩, hserve, rfl⟩ := map_eq_ok.mp hstep
  obtain ⟨⟨answer, server⟩, hserved, hend⟩ := bind_eq_ok.mp hserve
  cases hend
  have ho := hw.tracked.owns
  have howns : Owns server.mngr := OneCall.owns ho (rpcServe_ok ho hserved)
  have hspares : ∀ command, commandRead request = some command → Spares w (argsRead w.site.server request) command :=
    fun command hsome => hallowed command (by rw [hsome]; exact List.mem_singleton_self command)
  obtain ⟨hargs, hm | ⟨command, op, hsome, hcalls, hop⟩⟩ := rpcServe_calls hserved
  · refine ⟨⟨howns, fun b hb => ?_⟩, fun b hb => ?_⟩
    · rw [Site.host, hm]
      rcases mem_pluggedAfter hb with hold | ⟨_, hadded⟩
      · exact hw.tracked.listed b hold
      · exact attachNames_listed hadded
    · rcases mem_pluggedAfter hb with hold | ⟨hattach, hadded⟩
      · exact hw.apart b hold
      · rw [hargs] at hadded
        exact (hspares _ hattach).2 rfl b hadded
  · have hold : ∀ b ∈ pluggedAfter env w.site.server.mngr server.args w.site.plugged (commandRead request),
        b ∈ w.site.plugged := by
      intro b hb
      rcases mem_pluggedAfter hb with hold | ⟨hattach, _⟩
      · exact hold
      · cases hsome.symm.trans hattach
        cases hcalls
    rw [hargs] at hcalls
    refine ⟨⟨howns, fun b hb => ?_⟩, fun b hb => hw.apart b (hold b hb)⟩
    exact Listed.step ho hop (opLeaves_of_calls hcalls ((hspares _ hsome).1 b (hold b hb)))
      (hw.tracked.listed b (hold b hb))

theorem waitingAfter_success {waiting : List (ℤ × ℤ)} {out : Text} (h : "success".toList <:+: lower out) :
    waitingAfter vmid memid waiting (.ok out) = waiting ++ [(vmid, memid)] := if_pos h

/-- An answer that is not read as a success adds no run. -/
theorem waitingAfter_other {waiting : List (ℤ × ℤ)} {answer : Raises Text}
    (h : ¬ ∃ out, answer = .ok out ∧ "success".toList <:+: lower out) :
    waitingAfter vmid memid waiting answer = waiting := by
  cases answer with
  | error e => rfl
  | ok out => exact if_neg fun hsuccess => h ⟨out, rfl, hsuccess⟩

/-- A hot-unplug that is read as a success is one. -/
theorem Safe.detach (hw : Safe w) (hstep : worldStep w (.detach onDetach vmid memid) = .ok w') : Safe w' := by
  obtain ⟨⟨answer, h⟩, hask, rfl⟩ := map_eq_ok.mp hstep
  dsimp only
  rcases siteAsk_cases hask with ⟨_, rfl, rfl⟩ | ⟨env, response, hserved, hserve, rfl⟩
  · rw [waitingAfter_other]
    · exact hw
    · rintro ⟨out, hout, hsuccess⟩
      obtain ⟨_, rfl⟩ := read_ok hout (ne_nil_of_success hsuccess)
      exact absurd hsuccess (by decide)
  obtain ⟨a, hserver, hargs, hresponse, hplugged⟩ := serve_detachMem hserve
  have hsub : ∀ b ∈ h.plugged, b ∈ w.site.plugged := by
    intro b hb
    rw [hplugged] at hb
    split_ifs at hb
    · exact (mem_unplugged.mp hb).1
    · exact hb
  have htracked : Tracked h.host := by
    refine ⟨?_, fun b hb => ?_⟩
    · rw [Site.host, hserver]
      exact hw.tracked.owns
    · rw [Site.host, hserver]
      exact hw.tracked.listed b (hsub b hb)
  refine ⟨htracked, fun b hb => ?_⟩
  by_cases hread : ∃ out, onDetach.read response = .ok out ∧ "success".toList <:+: lower out
  · obtain ⟨out, hout, hsuccess⟩ := hread
    obtain ⟨_, rfl⟩ := read_ok hout (ne_nil_of_success hsuccess)
    rw [hout, waitingAfter_success hsuccess]
    rw [hresponse, hotunplug_success_iff] at hsuccess
    rw [hplugged, if_pos (pullsOut_of_success hargs hsuccess)] at hb
    rintro ⟨p, hp, hnames⟩
    rcases List.mem_append.mp hp with hp | hp
    · exact hw.apart b (mem_unplugged.mp hb).1 ⟨p, hp, hnames⟩
    · obtain rfl := List.mem_singleton.mp hp
      exact (mem_unplugged.mp hb).2 ⟨hnames.1.symm, hnames.2.symm⟩
  · rw [waitingAfter_other hread]
    exact hw.apart b (hsub b hb)

/-- Nobody has plugged in what the run frees. -/
theorem Safe.free {n : ℕ} (hw : Safe w) (hstep : worldStep w (.free onFree n) = .ok w') : Safe w' := by
  unfold worldStep at hstep
  dsimp only at hstep
  split at hstep
  · cases hstep
    exact hw
  · rename_i vmid memid hnth
    have hwaits : (vmid, memid) ∈ w.waiting := List.mem_of_getElem? hnth
    obtain ⟨⟨result, h⟩, hfree, rfl⟩ := map_eq_ok.mp hstep
    obtain ⟨⟨freed, server⟩, hask, hrest⟩ := bind_eq_ok.mp hfree
    have hkept : Owns server.mngr ∧ ∀ b ∈ w.site.plugged, Listed server.mngr b := by
      refine ask_keeps (I := fun m => Owns m ∧ ∀ b ∈ w.site.plugged, Listed m b)
        ⟨hw.tracked.owns, hw.tracked.listed⟩ (fun env response s' hserve => ?_) hask
      rcases served_freeMem hserve with ⟨_, hm⟩ | ⟨ret, hfreeMem⟩
      · rw [hm]
        exact ⟨hw.tracked.owns, hw.tracked.listed⟩
      · have hop : VmManager.step w.site.server.mngr (.freeMem (readBack vmid) (readBack memid)) = .ok s'.mngr :=
          congrArg (Except.map Prod.snd) hfreeMem
        refine ⟨owns_step hw.tracked.owns hop, fun b hb => ?_⟩
        exact Listed.freeMem hw.tracked.owns hfreeMem (hw.tracked.listed b hb)
            fun hnames => hw.apart b hb ⟨_, hwaits, hnames⟩
    have hsite : h = ⟨server, w.site.plugged⟩ := by
      dsimp only at hrest
      split at hrest
      · exact (Prod.mk.inj (Except.ok.inj hrest)).2.symm
      · split at hrest
        · exact (Prod.mk.inj (Except.ok.inj hrest)).2.symm
        · exact (Prod.mk.inj (Except.ok.inj hrest)).2.symm
    subst hsite
    exact ⟨⟨hkept.1, hkept.2⟩, fun b hb ⟨p, hp, hnames⟩ => hw.apart b hb ⟨p, List.mem_of_mem_eraseIdx hp, hnames⟩⟩

/-- Step lemma. -/
theorem worldStep_safe {move : Move} (hw : Safe w) (hallowed : Allowed w move)
    (hstep : worldStep w move = .ok w') : Safe w' := by
  cases move with
  | request env request => exact hw.request hallowed hstep
  | detach onDetach vmid memid => exact hw.detach hstep
  | free onFree n => exact hw.free hstep

variable {pool : Pool} {stack : Text} {moves : List Move}

/-- VM 0 on one core. -/
def bareVm : List (ServerEnv × Text) := [(silentEnv, "create-vm vid=0 coreset=[0]".toList)]

/-- While a run waits, another client gives the VM a second device. -/
def secondDevice : List Move :=
  [.request silentEnv "alloc-mem nid=0 vid=0 size=4".toList,
    .request pluggingEnv "attach-mem memid=0 vid=0 nid=0".toList,
    .detach (.answered pluggingEnv) 0 0,
    .request silentEnv "alloc-mem nid=0 vid=0 size=4".toList,
    .request pluggingEnv "attach-mem memid=1 vid=0 nid=0".toList,
    .free (.answered silentEnv) 0]

/-- A device that is plugged in again while its run waits loses its memory. -/
theorem detachRuns_fails_pluggedAgain : ∃ s w,
    run serverStep (initialServer smallPool []) bareVm = .ok s ∧
      run worldStep ⟨⟨s, []⟩, []⟩
        [.request silentEnv "alloc-mem nid=0 vid=0 size=4".toList,
          .request pluggingEnv "attach-mem memid=0 vid=0 nid=0".toList,
          .detach (.answered pluggingEnv) 0 0,
          .request pluggingEnv "attach-mem memid=0 vid=0 nid=0".toList,
          .free (.answered silentEnv) 0] = .ok w ∧ ¬ PluggedOwned w.site.host := by
  have heval : (run serverStep (initialServer smallPool []) bareVm >>= fun s =>
      (run worldStep ⟨⟨s, []⟩, []⟩
        [.request silentEnv "alloc-mem nid=0 vid=0 size=4".toList,
          .request pluggingEnv "attach-mem memid=0 vid=0 nid=0".toList,
          .detach (.answered pluggingEnv) 0 0,
          .request pluggingEnv "attach-mem memid=0 vid=0 nid=0".toList,
          .free (.answered silentEnv) 0]).map fun w =>
        (w.site.plugged, w.site.host.mngr.pool.numDevs, w.site.host.mngr.pool.segmentSizeMb,
          (w.site.host.mngr.pool.memDevs 0).segments 0)) =
      .ok ([⟨0, 0, ⟨0, "/dev/dax0.0".toList, 0, 4, 4⟩⟩], 1, 4, freeSegment) := by decide +kernel
  obtain ⟨s, hs, hview⟩ := bind_eq_ok.mp heval
  obtain ⟨w, hw, hview⟩ := map_eq_ok.mp hview
  obtain ⟨hplugged, hview⟩ := Prod.mk.inj hview
  obtain ⟨hdevs, hview⟩ := Prod.mk.inj hview
  obtain ⟨hseg, hfree⟩ := Prod.mk.inj hview
  refine ⟨s, w, hs, hw, fun howned => ?_⟩
  have hown := howned ⟨0, 0, ⟨0, "/dev/dax0.0".toList, 0, 4, 4⟩⟩ (by simp [Site.host, hplugged]) 0
    (by omega) 0 (by rw [hseg]; decide)
  rw [Owned, hfree] at hown
  cases hown.1

end Ramryder.DetachRuns
