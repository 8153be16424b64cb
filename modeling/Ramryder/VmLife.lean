import Ramryder.DetachCommand
import Ramryder.QemuSearch
import Ramryder.Visitors

/-! The life of a VM under the admin CLI: `create-vm`, then any attaches, detaches and single requests about
it, however they end, and `destroy-vm`. -/
namespace Ramryder.VmLife
open AttachCommand AttachRollback AttachRuns CInt CMachine CScan CText Cli ClientRequests CreateCleanup CreatePlan
  CreateRequests CreateSteps Deliveries DetachCommand GuestAgents Lifecycle MemoryPool MemoryPoolSpec Ownership PluggedMemory
  PoolConfig PoolImage PyText QemuSearch RequestCalls ResourceManager ResourceManagerSpec Runs Shutdown Visitors VmManager
  VmManagerSpec

variable {m m₀ m' : Manager} {s s' s₁ s₂ : Server} {v vmid : ℤ} {env : ServerEnv} {response : Text} {call : ClientCall}
  {I : Manager → Prop}

/-! ### What the commands ask -/

/-- The requests of the commands for a VM that is there. -/
inductive Asks (vmid : ℤ) : ClientCall → Prop
  | getMemPool : Asks vmid .getMemPool
  | getVms : Asks vmid .getVms
  | getNodeInfo (nid : ℤ) : Asks vmid (.getNodeInfo nid)
  | allocMem (nid sizeMb : ℤ) : Asks vmid (.allocMem nid vmid sizeMb)
  | freeMem (memid : ℤ) : Asks vmid (.freeMem vmid memid)
  | attachMem (memid nid : ℤ) : Asks vmid (.attachMem memid vmid nid)
  | detachMem (memid : ℤ) : Asks vmid (.detachMem memid vmid)
  | destroyVm : Asks vmid (.destroyVm vmid)

/-- Every request of the commands keeps `I`. -/
def AskingKeeps (vmid : ℤ) (I : Manager → Prop) : Prop :=
  ∀ call, Asks vmid call → ∀ env s response s', I s.mngr →
    rpcServe env s call.request = .ok (response, s') → I s'.mngr

theorem AskingKeeps.ask (hI : AskingKeeps vmid I) (hcall : Asks vmid call) {d : Delivery} {answer : Raises Text}
    (hs : I s.mngr) (h : ask d s call = .ok (answer, s')) : I s'.mngr :=
  ask_keeps hs (fun env response s' => hI call hcall env s response s' hs) h

theorem AskingKeeps.siteAsk (hI : AskingKeeps vmid I) (hcall : Asks vmid call) {d : Delivery} {answer : Raises Text}
    {h h' : Site} (hs : I h.server.mngr) (hask : h.ask d call = .ok (answer, h')) : I h'.server.mngr :=
  hI.ask hcall hs (siteAsk_server hask)

/-! #### `attach-mem` -/

variable {ch : Channel} {plan : List Channel} {memids : List ℤ} {memid : ℤ} {st st' : AttachState}
  {result : Raises Unit} {onFree : ℤ → Delivery}

theorem AskingKeeps.attachMemid (hI : AskingKeeps vmid I) (hs : I st.server.mngr)
    (h : attachMemid vmid memid ch st = .ok (result, st')) : I st'.server.mngr := by
  obtain ⟨⟨answer, site⟩, hask, hend⟩ := bind_eq_ok.mp h
  have hserver := hI.siteAsk (.attachMem memid ch.nodeId) hs hask
  cases hend
  exact hserver

theorem AskingKeeps.attachChannel (hI : AskingKeeps vmid I) (hs : I st.server.mngr)
    (h : attachChannel vmid ch st = .ok (result, st')) : I st'.server.mngr := by
  obtain ⟨⟨answer, server⟩, hask, h⟩ := bind_eq_ok.mp h
  have hserver := hI.ask (.allocMem ch.nodeId ch.sizeMb) hs hask
  dsimp only at h
  split at h
  · cases h
    exact hserver
  · exact AskingKeeps.attachMemid hI hserver h

theorem AskingKeeps.attachChannels (hI : AskingKeeps vmid I) (hs : I st.server.mngr)
    (h : attachChannels vmid plan st = .ok (result, st')) : I st'.server.mngr := by
  induction plan generalizing st with
  | nil =>
    cases h
    exact hs
  | cons ch plan ih =>
    obtain ⟨⟨first, st₁⟩, hchannel, h⟩ := bind_eq_ok.mp h
    have hfirst := hI.attachChannel hs hchannel
    cases first with
    | error e =>
      cases h
      exact hfirst
    | ok => exact ih hfirst h

theorem AskingKeeps.freeMemids (hI : AskingKeeps vmid I) (hs : I s.mngr)
    (h : freeMemids onFree vmid memids s = .ok s') : I s'.mngr := by
  induction memids generalizing s with
  | nil =>
    cases h
    exact hs
  | cons memid memids ih =>
    obtain ⟨⟨answer, s₁⟩, hask, h⟩ := bind_eq_ok.mp h
    exact ih (hI.ask (.freeMem memid) hs hask) h

theorem AskingKeeps.handleAttach (hI : AskingKeeps vmid I) (hs : I s.mngr)
    (h : handleAttach onFree vmid plan s = .ok (result, st)) : I st.server.mngr := by
  obtain ⟨⟨first, st₁⟩, hchannels, h⟩ := bind_eq_ok.mp h
  have hstart : I (AttachState.mk s [] []).server.mngr := hs
  have hfirst := hI.attachChannels hstart hchannels
  cases first with
  | ok =>
    cases h
    exact hfirst
  | error e =>
    obtain ⟨server, hfree, h⟩ := bind_eq_ok.mp h
    cases h
    exact hI.freeMemids hfirst hfree

/-- Whatever becomes of an `attach-mem`. -/
theorem AskingKeeps.handleAttachMem {w : AttachWorld} {args : AttachArgs} (hI : AskingKeeps args.vmid I)
    (hs : I s.mngr) (h : handleAttachMem w args s = .ok (result, st)) : I st.server.mngr := by
  unfold AttachCommand.handleAttachMem at h
  split at h
  · cases h
    exact hs
  obtain ⟨⟨table, t⟩, hpool, h⟩ := bind_eq_ok.mp h
  have ht := hI.ask .getMemPool hs hpool
  dsimp only at h
  split at h
  · cases h
    exact ht
  obtain ⟨⟨vms, u⟩, hvms, h⟩ := bind_eq_ok.mp h
  have hu := hI.ask .getVms ht hvms
  dsimp only at h
  split at h
  · cases h
    exact hu
  · exact hI.handleAttach hu h

/-! #### `detach-mem` and the rest of `create-vm` -/

/-- Whatever becomes of a `detach-mem`. -/
theorem AskingKeeps.handleDetachMem (hI : AskingKeeps vmid I) {onDetach onFree : Delivery} {h h' : Site}
    (hs : I h.server.mngr) (hrun : handleDetachMem onDetach onFree vmid memid h = .ok (result, h')) :
    I h'.server.mngr := by
  obtain ⟨⟨detached, h₁⟩, hask, hrest⟩ := bind_eq_ok.mp hrun
  have hfirst := hI.siteAsk (.detachMem memid) hs hask
  dsimp only at hrest
  split at hrest
  · cases hrest
    exact hfirst
  split at hrest
  · obtain ⟨⟨freed, server⟩, hfree, hend⟩ := bind_eq_ok.mp hrest
    have hsecond := hI.ask (.freeMem memid) hfirst hfree
    dsimp only at hend
    split at hend
    · cases hend
      exact hsecond
    split at hend
    · cases hend
      exact hsecond
    · cases hend
      exact hsecond
  · cases hrest
    exact hfirst

theorem AskingKeeps.afterCreate (hI : AskingKeeps vmid I) {qemuBin : Text} {w : RunWorld} {job : CreateJob}
    {plan : MemoryPlan} {requested : Option ℤ} {ended : RunEnd} (hs : I s.mngr)
    (h : afterCreate qemuBin w job plan requested vmid s = .ok (ended, s')) : I s'.mngr := by
  unfold CreateSteps.afterCreate at h
  split at h
  · cases h
    exact hs
  obtain ⟨⟨answers, t⟩, hbuild, h⟩ := bind_eq_ok.mp h
  have ht : I t.mngr := by
    obtain ⟨⟨allocOuts, u⟩, halloc, hrest⟩ := bind_eq_ok.mp hbuild
    have hu : I u.mngr := by
      refine askAll_keeps (fun call hcall env s response s' hs => ?_) hs halloc
      obtain ⟨a, _, rfl⟩ := List.mem_map.mp hcall
      exact hI _ (.allocMem a.1 a.2) env s response s' hs
    dsimp only at hrest
    split at hrest
    · cases hrest
      exact hu
    · obtain ⟨⟨nodeOuts, x⟩, hnode, hend⟩ := bind_eq_ok.mp hrest
      cases hend
      refine askAll_keeps (fun call hcall env s response s' hs => ?_) hu hnode
      obtain ⟨nid, _, rfl⟩ := List.mem_map.mp hcall
      exact hI _ (.getNodeInfo nid) env s response s' hs
  dsimp only at h
  split at h
  · obtain ⟨⟨answer, u⟩, hdestroy, h⟩ := bind_eq_ok.mp h
    cases h
    exact hI.ask .destroyVm ht hdestroy
  · cases h
    exact ht

/-! ### One VM as the visitor -/

variable {pool : Pool} {stack : Text}

theorem step_destroy {ret : ℤ} (h : vmMngrInstanceDestroy m v = .ok (ret, m')) : step m (.destroy v) = .ok m' :=
  congrArg (Except.map Prod.snd) h

theorem asking_visited (hvid : NonNegInt vmid) (m₀ : Manager) : AskingKeeps vmid (Visited (· = vmid) m₀) := by
  intro call hcall env s response s' h hserve
  cases hcall with
  | getMemPool => exact (served_getMemPool hserve).1 ▸ h
  | getVms => exact (served_getVms hserve).1 ▸ h
  | getNodeInfo nid => exact (served_getNodeInfo hserve) ▸ h
  | allocMem nid sizeMb =>
    rcases served_allocMem_read h.kept.owns hserve with ⟨hm, _⟩ | ⟨req, _, halloc, _⟩
    · exact hm ▸ h
    · rw [readBack_of_inInt hvid.inInt] at halloc
      have hop : step s.mngr (.allocMem (readBack nid) vmid (readBack sizeMb)) = .ok s'.mngr :=
        congrArg (Except.map Prod.snd) halloc
      exact h.step rfl hop
  | freeMem memid =>
    rcases served_freeMem hserve with ⟨_, hm⟩ | ⟨ret, hfree⟩
    · exact hm ▸ h
    · rw [readBack_of_inInt hvid.inInt] at hfree
      have hop : step s.mngr (.freeMem vmid (readBack memid)) = .ok s'.mngr := congrArg (Except.map Prod.snd) hfree
      exact h.step rfl hop
  | attachMem memid nid => exact (served_attachMem hserve).1 ▸ h
  | detachMem memid => exact (served_detachMem hserve).1 ▸ h
  | destroyVm =>
    obtain ⟨ret, hdestroy⟩ := served_destroyVm hvid hserve
    exact h.step rfl (step_destroy hdestroy)

/-! ### The end -/

/-- The VM is there, and stopped. -/
def Destroyable (m : Manager) (vmid : ℤ) : Prop :=
  ∃ i, vmMngrGetInstance m vmid = some i ∧ (m.vms i).running = false

theorem destroy_ret_iff {ret : ℤ} (h : vmMngrInstanceDestroy m v = .ok (ret, m')) :
    ret = 0 ↔ Destroyable m v := by
  unfold vmMngrInstanceDestroy at h
  split at h
  · rename_i hnone
    cases h
    refine iff_of_false (by decide) ?_
    rintro ⟨i, hget, _⟩
    rw [hnone] at hget
    cases hget
  · rename_i i hget
    split at h
    · rename_i hrunning
      cases h
      refine iff_of_false (by decide) ?_
      rintro ⟨j, hget', hstopped⟩
      obtain rfl : i = j := Option.some.inj (hget.symm.trans hget')
      rw [hrunning] at hstopped
      cases hstopped
    · rename_i hstopped
      obtain ⟨pool, _, h⟩ := bind_eq_ok.mp h
      cases h
      exact iff_of_true rfl ⟨i, hget, by simpa using hstopped⟩

/-- Once it is destroyed, a VM is not there. -/
theorem destroy_absent (hids : UniqueIds m) (h : vmMngrInstanceDestroy m v = .ok (0, m')) : Absent (· = v) m' := by
  rcases vmMngrInstanceDestroy_ok h with ⟨hneg, _⟩ | ⟨_, i, hget, _, rfl⟩
  · exact absurd hneg (by decide)
  obtain ⟨hinit, hid⟩ := vmMngrGetInstance_eq_some hget
  intro j hj hjd
  have hslot := setVm_vms m i j { m.vms i with coreSet := [], initialized := false }
  by_cases hji : j = i
  · rw [hslot, if_pos hji] at hj
    cases hj
  · rw [hslot, if_neg hji] at hj hjd
    exact hji (hids j i hj hinit (hjd.trans hid.symm))

def destroyResponse (vmid ret : ℤ) : Text :=
  if ret = 0 then snprintf bufferSize "Destroy VM %d success" [.int vmid]
  else snprintf bufferSize "Destroy VM %d failed" [.int vmid]

theorem served_destroyVm_read (hvid : NonNegInt vmid)
    (h : rpcServe env s (ClientCall.destroyVm vmid).request = .ok (response, s')) :
    ∃ ret, vmMngrInstanceDestroy s.mngr vmid = .ok (ret, s'.mngr) ∧ response = destroyResponse vmid ret := by
  have hn := destroyVm_numbers vmid
  have hvalues := hn.readValues
  rw [List.map_singleton, readBack_of_inInt hvid.inInt] at hvalues
  obtain ⟨r, hr, rfl, hm⟩ := served_scanned hn.request_clean.2 hn.scanned hn.command h
  obtain ⟨⟨t, m⟩, ht, rfl⟩ := map_eq_ok.mp hr
  rw [Option.getD_some, rpcHandleDestroyVm, rpcHandleVm, hvalues] at ht
  dsimp only at ht
  rw [if_neg (not_lt.mpr hvid.1)] at ht
  obtain ⟨⟨ret, m₁⟩, hdestroy, ht⟩ := bind_eq_ok.mp ht
  refine ⟨ret, ?_, ?_⟩
  · rw [hm, hdestroy]
    dsimp only at ht
    split at ht
    · cases ht
      rfl
    · cases ht
      rfl
  · rw [destroyResponse]
    dsimp only at ht
    split at ht
    · rename_i hret
      cases ht
      rw [if_pos hret]
      rfl
    · rename_i hret
      cases ht
      rw [if_neg hret]
      rfl

/-- The command takes an answer for a success where it is one. -/
theorem destroyResponse_iff (hvid : InInt vmid) (ret : ℤ) :
    "success".toList <:+: lower (clientText (destroyResponse vmid ret)) ↔ ret = 0 := by
  have hsuccess : sprintf "Destroy VM %d success" [.int vmid] =
      "Destroy VM ".toList ++ (decimal vmid ++ " success".toList) := by
    have hformat : directives none "Destroy VM %d success".toList =
        lits "Destroy VM " ++ .int 0 :: lits " success" := by rfl
    rw [sprintf, hformat, render_lits, render_int, render_end, padLeft_zero]
  have hfailed : sprintf "Destroy VM %d failed" [.int vmid] =
      "Destroy VM ".toList ++ (decimal vmid ++ " failed".toList) := by
    have hformat : directives none "Destroy VM %d failed".toList =
        lits "Destroy VM " ++ .int 0 :: lits " failed" := by rfl
    rw [sprintf, hformat, render_lits, render_int, render_end, padLeft_zero]
  by_cases hret : ret = 0
  · refine iff_of_true ?_ hret
    have hplain : ∀ c ∈ "success".toList, isWhitespace c = false := by simp [isWhitespace]
    have hfixed : ∀ c ∈ "Destroy VM ".toList ++ " success".toList, IsAscii c := by simp [IsAscii]
    have hascii : ∀ c ∈ "Destroy VM ".toList ++ (decimal vmid ++ " success".toList), IsAscii c := by
      intro c hc
      rw [List.mem_append, List.mem_append] at hc
      rcases hc with hc | hc | hc
      · exact hfixed c (List.mem_append_left _ hc)
      · exact ascii_decimal vmid c hc
      · exact hfixed c (List.mem_append_right _ hc)
    have hfits : ("Destroy VM ".toList ++ (decimal vmid ++ " success".toList)).length ≤ bufferSize - 1 := by
      have hlen := decimal_length hvid
      have hfirst : "Destroy VM ".toList.length = 11 := rfl
      have hlast : " success".toList.length = 8 := rfl
      rw [List.length_append, List.length_append, hfirst, hlast, bufferSize]
      omega
    have hword : "success".toList <:+: clientText (destroyResponse vmid ret) := by
      rw [destroyResponse, if_pos hret, snprintf, hsuccess, List.take_of_length_le hfits, clientText,
        decode_ascii hascii]
      refine infix_strip hplain ⟨"Destroy VM ".toList ++ (decimal vmid ++ [' ']), [], ?_⟩
      have hblank : " success".toList = [' '] ++ "success".toList := by rfl
      rw [hblank, List.append_nil]
      simp only [List.append_assoc]
    have hlower : lower "success".toList = "success".toList := by decide
    rw [← hlower]
    exact List.IsInfix.map Char.toLower hword
  · refine iff_of_false ?_ hret
    have hletter : ∀ c, c ∉ "Destroy VM ".toList → c ∉ decimal vmid → c ∉ " failed".toList →
        c ∉ destroyResponse vmid ret := by
      intro c hfront hdigits hend hmem
      rw [destroyResponse, if_neg hret] at hmem
      have hmem := List.mem_of_mem_take hmem
      rw [hfailed, List.mem_append, List.mem_append] at hmem
      rcases hmem with h | h | h
      · exact hfront h
      · exact hdigits h
      · exact hend h
    exact not_success
      (hletter 'u' (by decide) (notMem_decimal (by decide) (by decide) vmid) (by decide))
      (hletter 'U' (by decide) (notMem_decimal (by decide) (by decide) vmid) (by decide))

/-! ### The life -/

/-- A command about the VM, or a single request. -/
inductive Act
  | attach (w : AttachWorld) (args : AttachArgs)
  | detach (onDetach onFree : Delivery) (vmid memid : ℤ)
  | request (env : ServerEnv) (request : Text)

def actStep (h : Site) : Act → Outcome Site
  | .attach w args => (handleAttachMem w args h.server).map fun r => ⟨r.2.server, r.2.plugged ++ h.plugged⟩
  | .detach onDetach onFree vmid memid => (handleDetachMem onDetach onFree vmid memid h).map Prod.snd
  | .request env request => (h.serve env request).map Prod.snd

/-- It is about no other VM. -/
def OnlyAbout (vmid : ℤ) (h : Site) : Act → Prop
  | .attach _ args => args.vmid = vmid
  | .detach _ _ v _ => v = vmid
  | .request env request => Concerns (· = vmid) h.server (env, request)

instance decidableOnlyAbout (vmid : ℤ) (h : Site) : ∀ act, Decidable (OnlyAbout vmid h act)
  | .attach _ args => inferInstanceAs (Decidable (args.vmid = vmid))
  | .detach _ _ v _ => inferInstanceAs (Decidable (v = vmid))
  | .request env request => inferInstanceAs (Decidable (Concerns (· = vmid) h.server (env, request)))

/-- Step lemma. -/
theorem actStep_visited (hvid : NonNegInt vmid) {h h' : Site} {act : Act}
    (hv : Visited (· = vmid) m₀ h.server.mngr) (hact : OnlyAbout vmid h act) (hstep : actStep h act = .ok h') :
    Visited (· = vmid) m₀ h'.server.mngr := by
  have hkeeps := asking_visited hvid m₀
  cases act with
  | attach w args =>
    obtain ⟨⟨result, st⟩, hrun, rfl⟩ := map_eq_ok.mp hstep
    exact AskingKeeps.handleAttachMem (hact ▸ hkeeps) hv hrun
  | detach onDetach onFree v memid =>
    obtain ⟨⟨result, h₁⟩, hrun, rfl⟩ := map_eq_ok.mp hstep
    exact AskingKeeps.handleDetachMem (hact ▸ hkeeps) hv hrun
  | request env request =>
    obtain ⟨⟨response, h₁⟩, hserve, rfl⟩ := map_eq_ok.mp hstep
    obtain ⟨⟨answer, server⟩, hserved, hend⟩ := bind_eq_ok.mp hserve
    cases hend
    exact serverStep_visited hv hact (congrArg (Except.map Prod.snd) hserved)

theorem run_visited (hvid : NonNegInt vmid) {h h' : Site} {acts : List Act} (hv : Visited (· = vmid) m₀ h.server.mngr)
    (hacts : Guarded actStep (OnlyAbout vmid) h acts) (hrun : run actStep h acts = .ok h') :
    Visited (· = vmid) m₀ h'.server.mngr :=
  run_invariant_guarded (I := fun h : Site => Visited (· = vmid) m₀ h.server.mngr)
    (fun _ _ _ => actStep_visited hvid) hv hacts hrun

variable {qemuBin : Text} {w : RunWorld} {args : CreateArgs} {job : CreateJob} {memPlan : MemoryPlan}
  {requested : Option ℤ} {ended : RunEnd}

/-- What `create-vm` leaves: there was no VM of the id that it chose, and nothing but that VM has changed. -/
theorem created_visited (hm : Kept s.mngr) (hcreated : untilCreated w args s = .ok (.ok (job, memPlan, vmid), s₁))
    (hcreate : handleCreateVm qemuBin w args requested s = .ok (ended, s₂)) :
    NonNegInt vmid ∧ Absent (· = vmid) s.mngr ∧ Visited (· = vmid) s.mngr s₂.mngr := by
  obtain ⟨_, _, hvid, coreset, hcall⟩ := untilCreated_create hm hcreated
  have hop : step s.mngr (.create vmid coreset) = .ok s₁.mngr := congrArg (Except.map Prod.snd) hcall
  have hfirst : Visited (· = vmid) s.mngr s₁.mngr := (Visited.refl hm).step rfl hop
  have hafter : afterCreate qemuBin w job memPlan requested vmid s₁ = .ok (ended, s₂) := by
    rw [handleCreateVm, hcreated] at hcreate
    exact hcreate
  refine ⟨hvid, ?_, AskingKeeps.afterCreate (asking_visited hvid s.mngr) hfirst hafter⟩
  rcases vmMngrInstanceCreate_ok hcall with ⟨hneg, _⟩ | ⟨_, _, hnone, _⟩
  · exact absurd hneg (by decide)
  intro i hi hid
  rw [hm.owns.ids.getInstance hi hid] at hnone
  cases hnone

/-- However `create-vm` ends once its VM is created, and whatever is done about that VM afterwards: the other
VMs keep their records, their agents and their memory, and a `destroy-vm` succeeds just when the VM is there
and stopped. Then the server is as it was before `create-vm`. -/
theorem vmLife_leavesNoTrace {acts : List Act} {plugged : List Backing} {h : Site} (hp : InitialPool pool)
    (hreach : Reaches serverStep (initialServer pool stack) s)
    (hcreated : untilCreated w args s = .ok (.ok (job, memPlan, vmid), s₁))
    (hcreate : handleCreateVm qemuBin w args requested s = .ok (ended, s₂))
    (hacts : Guarded actStep (OnlyAbout vmid) ⟨s₂, plugged⟩ acts) (hrun : run actStep ⟨s₂, plugged⟩ acts = .ok h) :
    (Aside (· = vmid) s.mngr h.server.mngr ∧ ∀ v, v ≠ vmid → ∀ k < s.mngr.pool.numDevs, ∀ p,
      (Owned (h.server.mngr.pool.memDevs k) v p ↔ Owned (s.mngr.pool.memDevs k) v p)) ∧
    ∀ env response s', rpcServe env h.server (ClientCall.destroyVm vmid).request = .ok (response, s') →
      (∀ before after, (handleDestroyVm before after (clientText response) vmid).2 = .ok 0 ↔
        Destroyable h.server.mngr vmid) ∧
      (Destroyable h.server.mngr vmid → Undone s.mngr s'.mngr) := by
  have hm : Kept s.mngr := kept_reachable hp (server_refines hp hreach)
  obtain ⟨hvid, hbefore, hfirst⟩ := created_visited hm hcreated hcreate
  have hlived : Visited (· = vmid) s.mngr h.server.mngr := run_visited hvid (h := ⟨s₂, plugged⟩) hfirst hacts hrun
  refine ⟨⟨hlived.aside, fun v hv k hk p => hlived.owned hm.owns hv hk p⟩, fun env response s' hserve => ?_⟩
  obtain ⟨ret, hdestroy, rfl⟩ := served_destroyVm_read hvid hserve
  refine ⟨fun before after => ?_, fun hthere => ?_⟩
  · rw [← destroy_ret_iff hdestroy, ← destroyResponse_iff hvid.inInt ret, handleDestroyVm]
    dsimp only
    by_cases hsuccess : "success".toList <:+: lower (clientText (destroyResponse vmid ret))
    · rw [if_pos hsuccess]
      exact iff_of_true rfl hsuccess
    · rw [if_neg hsuccess]
      exact iff_of_false (by nofun) hsuccess
  · obtain rfl := (destroy_ret_iff hdestroy).mpr hthere
    exact (hlived.step rfl (step_destroy hdestroy)).undone hm hbefore
      (destroy_absent hlived.kept.owns.ids hdestroy)

/-- QEMU starts, and gives and takes memory. -/
def startingWorld : RunWorld := { busyWorld with launch := .started true true }

/-- The VM gets the rest of the memory, gives back what it was started with, and does not get twice as much. -/
def fullLife : List Act :=
  [.request connectingEnv "start-vm vid=0".toList, .attach pluggingWorld ⟨0, "4M".toList, 0, none, 0⟩,
    .detach (.answered pluggingEnv) (.answered silentEnv) 0 0, .attach pluggingWorld ⟨0, "8M".toList, 0, none, 0⟩,
    .request connectingEnv "stop-vm vid=0".toList]

theorem vmLife_leavesNoTrace_fullLife : ∃ s₂ h response s',
    handleCreateVm "qemu".toList startingWorld oneSegmentArgs (some 2222) (initialServer smallPool []) =
      .ok (⟨.ok (), true⟩, s₂) ∧
    run actStep ⟨s₂, []⟩ fullLife = .ok h ∧ h.server.mngr.count = 1 ∧
    rpcServe silentEnv h.server (ClientCall.destroyVm 0).request = .ok (response, s') ∧
    Undone (initialManager smallPool) s'.mngr := by
  have heval : ((untilCreated startingWorld oneSegmentArgs (initialServer smallPool [])).toOption.bind fun c =>
      (handleCreateVm "qemu".toList startingWorld oneSegmentArgs (some 2222)
        (initialServer smallPool [])).toOption.bind fun r =>
      (run actStep ⟨r.2, []⟩ fullLife).toOption.bind fun h =>
      (rpcServe silentEnv h.server (ClientCall.destroyVm 0).request).toOption.map fun _ =>
        decide (Guarded actStep (OnlyAbout 0) ⟨r.2, []⟩ fullLife ∧ c.1.toOption.map (·.2.2) = some 0 ∧
          r.1.result.isOk = true ∧ r.1.qemuLeft = true ∧ h.server.mngr.count = 1 ∧
          (vmMngrGetInstance h.server.mngr 0).map (fun i => (h.server.mngr.vms i).running) = some false)) =
      some true := by
    decide +kernel
  obtain ⟨⟨created, s₁⟩, hcreated, hview⟩ := of_toOption_bind heval
  obtain ⟨⟨⟨result, left⟩, s₂⟩, hcreate, hview⟩ := of_toOption_bind hview
  obtain ⟨h, hrun, hview⟩ := of_toOption_bind hview
  obtain ⟨⟨response, s'⟩, hserve, hview⟩ := Option.map_eq_some_iff.mp hview
  obtain ⟨hacts, hvmid, hended, hleft, hcount, hstopped⟩ := of_decide_eq_true hview
  obtain ⟨i, hget, hstopped⟩ := Option.map_eq_some_iff.mp hstopped
  cases created with
  | error e => cases hvmid
  | ok c =>
    obtain ⟨job, plan, vmid⟩ := c
    obtain rfl : vmid = 0 := Option.some.inj hvmid
    obtain ⟨_, hdestroyed⟩ := vmLife_leavesNoTrace smallPool_initial (.refl _) hcreated hcreate hacts hrun
    have hserve := ok_of_toOption hserve
    obtain ⟨_, hundone⟩ := hdestroyed silentEnv response s' hserve
    cases result with
    | error e => cases hended
    | ok u =>
      obtain rfl : left = true := hleft
      exact ⟨s₂, h, response, s', hcreate, hrun, hcount, hserve, hundone ⟨i, hget, hstopped⟩⟩

end Ramryder.VmLife
