import Ramryder.ResourceManagerSpec

/-! Memory that is plugged into the QEMU of a VM. The manager keeps no record of it, so
what keeps its segments is the order of the requests. -/
namespace Ramryder.PluggedMemory
open CMachine CText GuestAgents MemoryPool MemoryPoolSpec Ownership PoolConfig QemuAgent
  ResourceManager Runs VmManager VmManagerSpec

/-- A memory backend in the QEMU of a VM, with the range it was plugged in with. -/
structure Backing where
  vid : ℤ
  memid : ℤ
  req : MemoryRequest
  deriving DecidableEq, Repr

def Backing.dev (b : Backing) : MemoryDev := ⟨b.memid, b.req⟩

/-- The manager, and what is plugged into the VMs. -/
structure Host where
  mngr : Manager
  plugged : List Backing

inductive Request
  | allocMem (args : Text)
  | freeMem (args : Text)
  | attachMem (qmp : Qmp) (args : Text)
  | detachMem (qmp : Qmp) (args : Text)

/-- The device an attach-mem request names, with the range the manager has for it. -/
def attachNames (m : Manager) (args : Text) : Option Backing :=
  match sscanf "memid=%d vid=%d nid=%d" args with
  | [.int memid, .int vid, .int _] => (vmMngrInstanceGetMem m vid memid).map (⟨vid, memid, ·⟩)
  | _ => none

def detachNames (args : Text) (b : Backing) : Bool :=
  sscanf "memid=%d vid=%d" args == [.int b.memid, .int b.vid]

def freeNames (args : Text) (b : Backing) : Bool :=
  sscanf "vid=%d memid=%d" args == [.int b.vid, .int b.memid]

/-- A request served by the manager; success of an attach or a detach shows in the QEMU. -/
def hostStep (h : Host) : Request → Outcome Host
  | .allocMem args => (rpcHandleAllocMem h.mngr args).map fun r => { h with mngr := r.2 }
  | .freeMem args => (rpcHandleFreeMem h.mngr args).map fun r => { h with mngr := r.2 }
  | .attachMem qmp args =>
    if rpcHandleAttachMem qmp h.mngr args = "Hotplug memory success".toList then
      .ok { h with plugged := (attachNames h.mngr args).toList ++ h.plugged }
    else .ok h
  | .detachMem qmp args =>
    if rpcHandleDetachMem qmp h.mngr args = "Hotunplug memory success".toList then
      .ok { h with plugged := h.plugged.filter fun b => !detachNames args b }
    else .ok h

/-- Every segment behind a plugged-in device is allocated to the VM it is plugged into. -/
def PluggedOwned (h : Host) : Prop :=
  ∀ b ∈ h.plugged, ∀ k < h.mngr.pool.numDevs, ∀ p,
    Covers h.mngr.pool.segmentSizeMb k p b.dev → Owned (h.mngr.pool.memDevs k) b.vid p

/-- No free-mem names a device that is plugged in. -/
def FreesUnplugged (h : Host) : Request → Prop
  | .freeMem args => ∀ b ∈ h.plugged, freeNames args b = false
  | _ => True

/-! ### Plugged-in devices stay listed -/

/-- The VM still lists the plugged-in device, with the same range. -/
def Listed (m : Manager) (b : Backing) : Prop :=
  ∃ i, LiveDev m i b.dev ∧ (m.vms i).vmId = b.vid

structure Tracked (h : Host) : Prop where
  owns : Owns h.mngr
  listed : ∀ b ∈ h.plugged, Listed h.mngr b

variable {m m' : Manager} {h h' : Host} {b : Backing} {args response : Text} {pool : Pool}

theorem Tracked.pluggedOwned (ht : Tracked h) : PluggedOwned h := by
  intro b hb k hk p hc
  obtain ⟨i, hd, hvid⟩ := ht.listed b hb
  rw [← hvid]
  exact ht.owns.owned_of_covers hd hk hc

theorem vmMngrInstanceGetMem_listed {vid memid : ℤ} {req : MemoryRequest}
    (hmem : vmMngrInstanceGetMem m vid memid = some req) : Listed m ⟨vid, memid, req⟩ := by
  simp only [vmMngrInstanceGetMem, Option.bind_eq_bind, Option.bind_eq_some_iff,
    Option.some.injEq] at hmem
  obtain ⟨i, hget, dev, hdev, rfl⟩ := hmem
  obtain ⟨hinit, hid⟩ := vmMngrGetInstance_eq_some hget
  have hidx : dev.memdevIdx = memid := by simpa using List.find?_some hdev
  refine ⟨i, ⟨hinit, ?_⟩, hid⟩
  rw [← hidx]
  exact List.mem_of_find?_eq_some hdev

theorem attachNames_listed (hb : b ∈ (attachNames m args).toList) : Listed m b := by
  unfold attachNames at hb
  split at hb
  · rw [Option.mem_toList, Option.map_eq_some_iff] at hb
    obtain ⟨req, hmem, rfl⟩ := hb
    exact vmMngrInstanceGetMem_listed hmem
  · simp at hb

theorem Listed.allocMem (ho : Owns m) {nodeId vmId sizeMb : ℤ} {res : Option VmMemReq}
    (halloc : vmMngrInstanceAllocMem m nodeId vmId sizeMb = .ok (res, m')) (hb : Listed m b) :
    Listed m' b := by
  obtain ⟨i, hd, hvid⟩ := hb
  rcases vmMngrInstanceAllocMem_ok ho.geometry.segmentSize halloc with
    ⟨_, rfl⟩ | ⟨s, req, pool, k, lo, n, _, _, _, _, rfl⟩
  · exact ⟨i, hd, hvid⟩
  · have hslot : ({ m.setVm s (attachedVm (m.vms s) req) with pool := pool } : Manager).vms i =
        _ := setVm_vms m s i _
    refine ⟨i, ?_, ?_⟩
    · rw [LiveDev, hslot]
      split_ifs with hi
      · subst hi
        exact ⟨hd.1, List.mem_append_left _ hd.2⟩
      · exact hd
    · rw [hslot]
      split_ifs with hi
      · subst hi
        exact hvid
      · exact hvid

theorem Listed.freeMem (ho : Owns m) {vmId memdevIdx ret : ℤ}
    (hfree : vmMngrInstanceFreeMem m vmId memdevIdx = .ok (ret, m')) (hb : Listed m b)
    (hother : ¬ (vmId = b.vid ∧ memdevIdx = b.memid)) : Listed m' b := by
  obtain ⟨i, hd, hvid⟩ := hb
  rcases ho.freeMem_ok hfree with ⟨_, rfl⟩ | ⟨_, s, dev, k, lo, n, hget, hlive, hidx, _, rfl⟩
  · exact ⟨i, hd, hvid⟩
  · have hslot := setVm_vms m s i (detachedVm (m.vms s) memdevIdx)
    by_cases hi : i = s
    · subst hi
      have hne : b.dev ≠ dev := by
        rintro rfl
        exact hother ⟨(vmMngrGetInstance_eq_some hget).2.symm.trans hvid, hidx.symm⟩
      subst hidx
      refine ⟨i, (ho.detached_live hlive b.dev).mpr ⟨hd, hne⟩, ?_⟩
      rw [if_pos rfl] at hslot
      exact (congrArg VmInstance.vmId hslot).trans hvid
    · rw [if_neg hi] at hslot
      refine ⟨i, ?_, (congrArg VmInstance.vmId hslot).trans hvid⟩
      exact (Eq.to_iff (congrArg
        (fun vm : VmInstance => vm.initialized = true ∧ b.dev ∈ vm.attachedDevs) hslot)).mpr hd

/-! ### Requests -/

theorem rpcHandleAllocMem_listed (ho : Owns m)
    (hres : rpcHandleAllocMem m args = .ok (response, m')) (hb : Listed m b) : Listed m' b := by
  unfold rpcHandleAllocMem at hres
  split at hres
  · split at hres
    · cases hres
      exact hb
    · obtain ⟨⟨req, m₁⟩, halloc, hend⟩ := bind_eq_ok.mp hres
      have hkept := Listed.allocMem ho halloc hb
      cases req with
      | none =>
        cases hend
        exact hkept
      | some req =>
        cases hend
        exact hkept
  · cases hres
    exact hb

theorem rpcHandleFreeMem_listed (ho : Owns m)
    (hres : rpcHandleFreeMem m args = .ok (response, m')) (hb : Listed m b)
    (hnames : freeNames args b = false) : Listed m' b := by
  unfold rpcHandleFreeMem at hres
  split at hres
  · rename_i vid memid hscan
    have hother : ¬ (vid = b.vid ∧ memid = b.memid) := by
      rintro ⟨rfl, rfl⟩
      simp [freeNames, hscan] at hnames
    split at hres
    · cases hres
      exact hb
    · obtain ⟨⟨ret, m₁⟩, hfree, hend⟩ := bind_eq_ok.mp hres
      have hkept := Listed.freeMem ho hfree hb hother
      dsimp only at hend
      split at hend
      · cases hend
        exact hkept
      · cases hend
        exact hkept
  · cases hres
    exact hb

theorem OneCall.owns (ho : Owns m) (hc : ResourceManagerSpec.OneCall m m' response) : Owns m' := by
  rcases hc.call with rfl | ⟨op, hop⟩
  · exact ho
  · exact owns_step ho hop

/-- What one request keeps, as long as it frees nothing that is plugged in. -/
theorem hostStep_tracked {r : Request} (ht : Tracked h) (hg : FreesUnplugged h r)
    (hstep : hostStep h r = .ok h') : Tracked h' := by
  cases r with
  | allocMem args =>
    obtain ⟨⟨response, m₁⟩, hres, rfl⟩ := map_eq_ok.mp hstep
    exact ⟨OneCall.owns ht.owns (ResourceManagerSpec.rpcHandleAllocMem_ok ht.owns hres),
      fun b hb => rpcHandleAllocMem_listed ht.owns hres (ht.listed b hb)⟩
  | freeMem args =>
    obtain ⟨⟨response, m₁⟩, hres, rfl⟩ := map_eq_ok.mp hstep
    exact ⟨OneCall.owns ht.owns (ResourceManagerSpec.rpcHandleFreeMem_ok ht.owns hres),
      fun b hb => rpcHandleFreeMem_listed ht.owns hres (ht.listed b hb) (hg b hb)⟩
  | attachMem qmp args =>
    rw [hostStep] at hstep
    split at hstep
    · cases hstep
      refine ⟨ht.owns, fun b hb => ?_⟩
      rcases List.mem_append.mp hb with hb | hb
      · exact attachNames_listed hb
      · exact ht.listed b hb
    · cases hstep
      exact ht
  | detachMem qmp args =>
    rw [hostStep] at hstep
    split at hstep
    · cases hstep
      exact ⟨ht.owns, fun b hb => ht.listed b (List.mem_filter.mp hb).1⟩
    · cases hstep
      exact ht

/-- Over any interleaving in which nothing plugged in is freed, what is plugged in stays
allocated to its VM. -/
theorem plugged_owned {rs : List Request} (hp : InitialPool pool)
    (hreach : Reaches step (initialManager pool) m)
    (hg : Guarded hostStep FreesUnplugged ⟨m, []⟩ rs)
    (hrun : run hostStep ⟨m, []⟩ rs = .ok h) : PluggedOwned h := by
  have hstart : Tracked ⟨m, []⟩ :=
    ⟨owns_reachable hp hreach, fun b hb => absurd hb List.not_mem_nil⟩
  exact (run_invariant_guarded (fun _ _ _ ht hr hs => hostStep_tracked ht hr hs)
    hstart hg hrun).pluggedOwned

/-- A QEMU that does all it is told. -/
def willingQmp : Qmp := fun _ _ => .json (.obj [("return".toList, .obj [])])

theorem plugged_owned_attach : ∃ m h,
    run step (initialManager smallPool) [.create 0 "0".toList] = .ok m ∧
      run hostStep ⟨m, []⟩ [.allocMem "nid=0 vid=0 size=4".toList,
        .attachMem willingQmp "memid=0 vid=0 nid=0".toList] = .ok h ∧
      h.plugged.length = 1 ∧ PluggedOwned h := by
  have heval : (run step (initialManager smallPool) [.create 0 "0".toList] >>= fun m =>
      run hostStep ⟨m, []⟩ [.allocMem "nid=0 vid=0 size=4".toList,
        .attachMem willingQmp "memid=0 vid=0 nid=0".toList]).map (fun h => h.plugged.length) =
      .ok 1 := by rfl
  obtain ⟨h, hh, hlen⟩ := map_eq_ok.mp heval
  obtain ⟨m, hm, hrun⟩ := bind_eq_ok.mp hh
  have hguard : Guarded hostStep FreesUnplugged ⟨m, []⟩
      [.allocMem "nid=0 vid=0 size=4".toList, .attachMem willingQmp "memid=0 vid=0 nid=0".toList] :=
    ⟨trivial, fun _ _ => ⟨trivial, fun _ _ => trivial⟩⟩
  exact ⟨m, h, hm, hrun, hlen, plugged_owned smallPool_initial ⟨_, hm⟩ hguard hrun⟩

/-- free-mem asks nobody whether the device is still plugged in. -/
theorem plugged_owned_fails_free : ∃ m h,
    run step (initialManager smallPool) [.create 0 "0".toList] = .ok m ∧
      run hostStep ⟨m, []⟩ [.allocMem "nid=0 vid=0 size=4".toList,
        .attachMem willingQmp "memid=0 vid=0 nid=0".toList, .freeMem "vid=0 memid=0".toList] =
        .ok h ∧ ¬ PluggedOwned h := by
  have heval : (run step (initialManager smallPool) [.create 0 "0".toList] >>= fun m =>
      run hostStep ⟨m, []⟩ [.allocMem "nid=0 vid=0 size=4".toList,
        .attachMem willingQmp "memid=0 vid=0 nid=0".toList,
        .freeMem "vid=0 memid=0".toList]).map
        (fun h => (h.plugged, h.mngr.pool.numDevs, h.mngr.pool.segmentSizeMb,
          (h.mngr.pool.memDevs 0).segments 0)) =
      .ok ([⟨0, 0, ⟨0, "/dev/dax0.0".toList, 0, 4, 4⟩⟩], 1, 4, freeSegment) := by decide +kernel
  obtain ⟨h, hh, hview⟩ := map_eq_ok.mp heval
  obtain ⟨m, hm, hrun⟩ := bind_eq_ok.mp hh
  obtain ⟨hplugged, hview⟩ := Prod.mk.inj hview
  obtain ⟨hdevs, hview⟩ := Prod.mk.inj hview
  obtain ⟨hseg, hfree⟩ := Prod.mk.inj hview
  refine ⟨m, h, hm, hrun, fun howned => ?_⟩
  have hown := howned ⟨0, 0, ⟨0, "/dev/dax0.0".toList, 0, 4, 4⟩⟩ (by simp [hplugged]) 0
    (by omega) 0 (by rw [hseg]; decide)
  rw [Owned, hfree] at hown
  cases hown.1

end Ramryder.PluggedMemory
