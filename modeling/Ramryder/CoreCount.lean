import Ramryder.CpuSet
import Ramryder.CreateRequests

/-! The cores the manager counts for a VM, against the vCPUs the client gives it. -/
namespace Ramryder.CoreCount
open CInt CMachine CText ClientRequests Cli CoreSet CpuSet CreatePlan CreateRequests Lifecycle Ownership
  PoolConfig PyText ResourceManager ResourceManagerSpec Runs VmManager VmManagerSpec

variable {t cpuSet : Text} {cpus written : List ℤ} {m m' : Manager} {vid : ℤ}

/-- The core set a VM is created with: the bytes of the text that fit the manager's buffer. -/
def storedCoreSet (cpuSet : Text) : Text := (encode cpuSet).take (coreSetLen - 1)

/-- The manager has counted as many cores as the VM has vCPUs, and visits no core twice. -/
def CountsOnce (vm : VmInstance) (smp : ℕ) : Prop :=
  vm.numCores = smp ∧ ∃ cores, Enumerates vm.coreSet cores ∧ cores.Nodup

/-- No core is in two items of the text. -/
def DisjointItems (t : Text) : Prop :=
  (tokens t).Pairwise fun a b => (tokenCores a).Disjoint (tokenCores b)

/-- The sizes of the items, added up. -/
def itemSizes (t : Text) : ℕ := ((tokens t).map fun token => (tokenCores token).length).sum

/-- A text both readers take alike: digits, `-` and `,` that fit the buffer, with numbers below the
largest `int`. -/
def Plain (t : Text) : Prop :=
  IsCpuSet t ∧ t.length < coreSetLen ∧ ∀ n ∈ numbers t, (n : ℤ) < intMax

/-! ### The items of a core set -/

theorem rangeCores_nodup (start stop : ℤ) : (rangeCores start stop).Nodup :=
  List.nodup_range.map fun a b h => by simpa using h

theorem tokenCores_nodup (token : Text) : (tokenCores token).Nodup := by
  unfold tokenCores
  split
  · exact rangeCores_nodup _ _
  · split
    · exact List.nodup_singleton _
    · exact List.nodup_nil

theorem namedCores_nodup (t : Text) : (namedCores t).Nodup ↔ DisjointItems t := by
  rw [namedCores, List.nodup_flatMap]
  exact and_iff_right fun token _ => tokenCores_nodup token

theorem namedCores_length (t : Text) : (namedCores t).length = itemSizes t := by
  rw [namedCores, List.length_flatMap, itemSizes]

/-! ### A VM's cores -/

theorem Enumerates.unique {a b : List ℤ} (ha : Enumerates t a) (hb : Enumerates t b) : a = b := by
  have hcollect : ∀ cores seen : List ℤ,
      cores.foldlM (fun seen core => (.ok (seen ++ [core]) : Outcome (List ℤ))) seen =
        .ok (seen ++ cores) := by
    intro cores
    induction cores with
    | nil => simp [pure, Except.pure]
    | cons core cores ih =>
      intro seen
      rw [List.foldlM_cons, ok_bind, ih, List.append_assoc, List.singleton_append]
  have h := (ha _ (fun seen core => .ok (seen ++ [core])) []).symm.trans (hb _ _ [])
  rw [hcollect, hcollect] at h
  exact Except.ok.inj h

/-- The slot of a VM that was created. -/
theorem created_cores (hu : UniqueIds m') (h : vmMngrInstanceCreate m vid t = .ok (0, m')) :
    ∃ i, vmMngrGetInstance m' vid = some i ∧ (m'.vms i).coreSet = t.take (coreSetLen - 1) ∧
      Enumerates (m'.vms i).coreSet (namedCores (t.take (coreSetLen - 1))) ∧
      (m'.vms i).numCores = itemSizes (t.take (coreSetLen - 1)) := by
  rcases vmMngrInstanceCreate_ok h with ⟨hneg, _⟩ | ⟨_, _, _, i, n, _, hcores, hm'⟩
  · exact absurd hneg (by decide)
  have hself : m'.vms i = createdVm (m.vms i) vid t n := by
    rw [hm']
    exact setVm_vms_self m i _
  have hvisits : Enumerates (t.take (coreSetLen - 1)) (namedCores (t.take (coreSetLen - 1))) :=
    fun _ g c => vmMngrForEachCore_cores hcores g c
  have hcount : n = itemSizes (t.take (coreSetLen - 1)) := by
    rw [hvisits] at hcores
    have hnum := foldlM_numCores hcores
    rw [namedCores_length] at hnum
    simpa using hnum
  refine ⟨i, hu.getInstance ?_ ?_, ?_, ?_, ?_⟩
  · rw [hself]
    rfl
  · rw [hself]
    rfl
  · rw [hself]
    rfl
  · rw [hself]
    exact hvisits
  · rw [hself]
    exact hcount

/-! ### Plain texts -/

theorem Plain.stored (h : Plain t) : storedCoreSet t = t := by
  have hascii : ∀ c ∈ t, IsAscii c := by
    intro c hc
    rcases h.1 c hc with hd | rfl | rfl
    · have hle : 48 ≤ c.toNat ∧ c.toNat ≤ 57 := by
        simpa [Char.isDigit, UInt32.le_iff_toNat_le] using hd
      simp only [IsAscii]
      omega
    · decide
    · decide
  have hlen := h.2.1
  rw [storedCoreSet, encode_ascii hascii, List.take_of_length_le (by omega)]

/-- The cores of a plain text are the CPUs the client expands it to. -/
theorem Plain.namedCores_eq (h : Plain t) (hne : t ≠ []) (hwritten : expandCpuList t = some written) :
    namedCores t = written := by
  have hvisits := enumerates_expanded h.1 hne hwritten h.2.2
  have hrun : vmMngrForEachCore t (fun seen core => (.ok (seen ++ [core]) : Outcome (List ℤ))) [] =
      .ok (written.foldl (fun seen core => seen ++ [core]) []) := by
    rw [hvisits]
    exact List.foldlM_pure
  exact Enumerates.unique (fun _ g c => vmMngrForEachCore_cores hrun g c) hvisits

/-- The set of the CPUs that are written. -/
theorem parseCpuSet_expanded (h : parseCpuSet t = some cpus)
    (hwritten : expandCpuList t = some written) :
    written ≠ [] ∧ cpus = written.dedup.insertionSort (· ≤ ·) := by
  obtain ⟨parts, hparts, h⟩ := Option.bind_eq_some_iff.mp h
  obtain ⟨parts', hparts', hflat⟩ := Option.bind_eq_some_iff.mp hwritten
  obtain rfl := Option.some.inj (hparts.symm.trans hparts')
  obtain rfl := Option.some.inj hflat
  dsimp only at h
  split_ifs at h with hnil
  refine ⟨?_, (Option.some.inj h).symm⟩
  intro hempty
  exact hnil (by rw [hempty, List.dedup_nil])

theorem parseCpuSet_length (h : parseCpuSet t = some cpus) (hwritten : expandCpuList t = some written) :
    cpus.length = written.dedup.length := by
  rw [(parseCpuSet_expanded h hwritten).2, List.length_insertionSort]

/-- On a plain text the condition is that no CPU is written twice. -/
theorem Plain.items_iff (h : Plain t) (hcpus : parseCpuSet t = some cpus)
    (hwritten : expandCpuList t = some written) :
    DisjointItems (storedCoreSet t) ∧ itemSizes (storedCoreSet t) = cpus.length ↔ written.Nodup := by
  have hne := (parseCpuSet_accepts (by rw [hcpus]; exact Option.some_ne_none _)).1
  rw [h.stored, ← namedCores_nodup, ← namedCores_length, h.namedCores_eq hne hwritten,
    parseCpuSet_length hcpus hwritten]
  refine and_iff_left_of_imp fun hnodup => ?_
  rw [hnodup.dedup]

/-! ### The VM of a request -/

/-- The manager counts the vCPUs of a VM that was created, core by core, just when the items of the
stored text are disjoint and have as many cores as the set has CPUs. On a plain text that says that
no CPU is written twice. -/
theorem countsOnce_iff {pool : MemoryPool.Pool} {args : Text} {s s' : Server} {env : ServerEnv}
    {response : Text} (hp : InitialPool pool) (hreach : Reaches serverStep (initialServer pool args) s)
    (hvid : NonNegInt vid) (hcpus : parseCpuSet cpuSet = some cpus)
    (hserved : rpcServe env s (ClientCall.createVm vid cpuSet).request = .ok (response, s'))
    (hsuccess : "success".toList <:+: lower (clientText response)) :
    ((∃ i, vmMngrGetInstance s'.mngr vid = some i ∧ CountsOnce (s'.mngr.vms i) cpus.length) ↔
      DisjointItems (storedCoreSet cpuSet) ∧ itemSizes (storedCoreSet cpuSet) = cpus.length) ∧
    (Plain cpuSet → ∀ written, expandCpuList cpuSet = some written →
      (DisjointItems (storedCoreSet cpuSet) ∧ itemSizes (storedCoreSet cpuSet) = cpus.length ↔
        written.Nodup)) := by
  refine ⟨?_, fun hplain written hwritten => hplain.items_iff hcpus hwritten⟩
  rcases served_createVm hvid hcpus hserved with ⟨_, hfailed⟩ | ⟨_, hcreate⟩
  · exact absurd hsuccess hfailed
  have hstep : serverStep s (env, (ClientCall.createVm vid cpuSet).request) = .ok s' :=
    map_eq_ok.mpr ⟨_, hserved, rfl⟩
  have hu := (consistent_reachable hp (server_refines hp (hreach.tail hstep))).2.ids
  obtain ⟨i, hget, hset, hvisits, hnum⟩ := created_cores hu hcreate
  rw [← storedCoreSet] at hset hvisits hnum
  constructor
  · rintro ⟨j, hj, hcount, cores, hcores, hnodup⟩
    obtain rfl := Option.some.inj (hget.symm.trans hj)
    rw [Enumerates.unique hcores hvisits, namedCores_nodup] at hnodup
    exact ⟨hnodup, by exact_mod_cast hnum.symm.trans hcount⟩
  · rintro ⟨hdisjoint, hsizes⟩
    exact ⟨i, hget, by rw [hnum, hsizes], _, hvisits, (namedCores_nodup _).mpr hdisjoint⟩

/-- A range and a core outside it. -/
theorem countsOnce_iff_smallPool :
    let t := "0-1,3".toList
    ∃ response s', rpcServe silentEnv (initialServer smallPool []) (ClientCall.createVm 3 t).request =
        .ok (response, s') ∧
      ((∃ i, vmMngrGetInstance s'.mngr 3 = some i ∧ CountsOnce (s'.mngr.vms i) 3) ↔
        DisjointItems (storedCoreSet t) ∧ itemSizes (storedCoreSet t) = 3) ∧
      (Plain t → ∀ written, expandCpuList t = some written →
        (DisjointItems (storedCoreSet t) ∧ itemSizes (storedCoreSet t) = 3 ↔ written.Nodup)) := by
  have heval : (rpcServe silentEnv (initialServer smallPool [])
      (ClientCall.createVm 3 "0-1,3".toList).request).map (fun r : Text × Server =>
        decide ("success".toList <:+: lower (clientText r.1))) = .ok true := by
    rfl
  obtain ⟨⟨response, s'⟩, hserved, hsuccess⟩ := map_eq_ok.mp heval
  have hcpus : parseCpuSet "0-1,3".toList = some [0, 1, 3] := by rfl
  exact ⟨response, s', hserved, countsOnce_iff smallPool_initial (.refl _)
    (by simp [NonNegInt, intMax]) hcpus hserved (of_decide_eq_true hsuccess)⟩

/-- For `0,0` the manager counts two cores, where the VM has one vCPU. -/
theorem countsOnce_fails_repeated :
    let t := "0,0".toList
    ∃ response s' i, parseCpuSet t = some [0] ∧
      rpcServe silentEnv (initialServer smallPool []) (ClientCall.createVm 3 t).request =
        .ok (response, s') ∧
      "success".toList <:+: lower (clientText response) ∧ vmMngrGetInstance s'.mngr 3 = some i ∧
      ¬ CountsOnce (s'.mngr.vms i) 1 := by
  have heval : (rpcServe silentEnv (initialServer smallPool [])
      (ClientCall.createVm 3 "0,0".toList).request).map (fun r : Text × Server =>
        decide ("success".toList <:+: lower (clientText r.1) ∧
          (vmMngrGetInstance r.2.mngr 3).map (fun i => (r.2.mngr.vms i).numCores) =
            some 2)) = .ok true := by
    rfl
  obtain ⟨⟨response, s'⟩, hserved, hview⟩ := map_eq_ok.mp heval
  obtain ⟨hsuccess, hinstance⟩ := of_decide_eq_true hview
  obtain ⟨i, hget, hnum⟩ := Option.map_eq_some_iff.mp hinstance
  refine ⟨response, s', i, by rfl, hserved, hsuccess, hget, fun hcount => ?_⟩
  have htwo : ((1 : ℕ) : ℤ) = 2 := hcount.1.symm.trans hnum
  exact absurd htwo (by decide)

end Ramryder.CoreCount
