import Ramryder.Lifecycle
import Ramryder.RunningMax

/-! The perf counts of a VM from its start to its end: the updates of the monitor and the teardown
take the same sums, and both keep the greatest of them. -/
namespace Ramryder.PerfCounts
open CMachine CoreSet GuestAgents Lifecycle Ownership PerfCounter PoolConfig RunningMax Runs VmManager VmManagerSpec

variable {m m₀ m₁ m' : Manager} {i : Fin maxNumVm} {v : ℤ} {kernel : PerfKernel} {vm vm' : VmInstance}
  {j : PerfEventType} {js : List PerfEventType}

/-! ### The sums -/

/-- The sum over the cores of what the counters of an event show, as a `uint64_t`. -/
def reading (kernel : PerfKernel) (vm : VmInstance) (j : PerfEventType) : ℕ :=
  ((vm.perfEventFds j).fds.map kernel.read).sum % 2 ^ 64

theorem reading_lt : reading kernel vm j < 2 ^ 64 := Nat.mod_lt _ (by decide)

theorem readCores_opened (kernel : PerfKernel) (fds : List ℤ) (done : List FdCell) {sum : ℕ}
    (hsum : sum < 2 ^ 64) :
    readCores kernel (.live (done ++ fds.map .opened)) fds.length done.length sum =
      .ok ((sum + (fds.map kernel.read).sum) % 2 ^ 64) := by
  induction fds generalizing done sum with
  | nil =>
    rw [List.map_nil, List.map_nil, List.sum_nil, Nat.add_zero, Nat.mod_eq_of_lt hsum]
    rfl
  | cons fd fds ih =>
    have hnext : done ++ (fd :: fds).map FdCell.opened =
        (done ++ [.opened fd]) ++ fds.map FdCell.opened := by simp
    have hrest := ih (done ++ [.opened fd]) (Nat.mod_lt (sum + kernel.read fd) (by decide))
    rw [List.length_append, List.length_singleton, Nat.mod_add_mod, Nat.add_assoc] at hrest
    rw [List.length_cons, readCores, read_next, hnext, List.map_cons, List.sum_cons]
    exact hrest

theorem readCores_filled (hfds : (vm.perfEventFds j).Filled vm.numCores.toNat) :
    readCores kernel (vm.perfEventFds j) vm.numCores.toNat 0 0 = .ok (reading kernel vm j) := by
  obtain ⟨fds, hlen, harray⟩ := hfds
  have hsum := @readCores_opened kernel fds [] 0 (by decide)
  rw [List.nil_append, List.length_nil, hlen, Nat.zero_add] at hsum
  rw [reading, harray, fds_opened]
  exact hsum

theorem teardownCores_sum (hfds : (vm.perfEventFds j).Filled vm.numCores.toNat) {sum : ℕ} {array : FdArray}
    (h : teardownCores kernel vm.numCores.toNat 0 0 (vm.perfEventFds j) = .ok (sum, array)) :
    sum = reading kernel vm j := by
  obtain ⟨fds, hlen, harray⟩ := hfds
  obtain ⟨cells, hsum⟩ := @teardownCores_filled kernel fds [] 0 (by decide)
  rw [List.nil_append, List.length_nil, hlen, Nat.zero_add, ← harray, h] at hsum
  rw [reading, harray, fds_opened]
  exact (Prod.mk.inj (Except.ok.inj hsum)).1

/-! ### What one pass over the events does -/

/-- The count of an event after a pass that takes a sum: the greater of the two, and the difference. -/
structure Counted (kernel : PerfKernel) (vm vm' : VmInstance) (j : PerfEventType) : Prop where
  cum : vm'.cumPerfEventCounts j = max (vm.cumPerfEventCounts j) (reading kernel vm j)
  delta : vm'.deltaPerfEventCounts j = sub64 (vm'.cumPerfEventCounts j) (vm.cumPerfEventCounts j)

/-- The counts of an event are those of before. -/
structure SameCounts (vm vm' : VmInstance) (j : PerfEventType) : Prop where
  cum : vm'.cumPerfEventCounts j = vm.cumPerfEventCounts j
  delta : vm'.deltaPerfEventCounts j = vm.deltaPerfEventCounts j

/-- The clamp that both passes have. -/
theorem clamp_eq_max (sum cum : ℕ) : (if sum < cum then cum else sum) = max cum sum := by
  split_ifs with h
  · exact (max_eq_left h.le).symm
  · exact (max_eq_right (not_lt.mp h)).symm

/-- One event more: its count is clamped and stored, the others are left to the rest of the pass. -/
theorem counted_cons {next : VmInstance} {newCum : ℕ} (hj : j ∉ js)
    (hnew : newCum = max (vm.cumPerfEventCounts j) (reading kernel vm j))
    (hcum : next.cumPerfEventCounts = Function.update vm.cumPerfEventCounts j newCum)
    (hdelta : next.deltaPerfEventCounts =
      Function.update vm.deltaPerfEventCounts j (sub64 newCum (vm.cumPerfEventCounts j)))
    (hread : ∀ q, q ≠ j → reading kernel next q = reading kernel vm q)
    (hin : ∀ q ∈ js, Counted kernel next vm' q) (hout : ∀ q ∉ js, SameCounts next vm' q) :
    (∀ q ∈ j :: js, Counted kernel vm vm' q) ∧ ∀ q ∉ j :: js, SameCounts vm vm' q := by
  have hother : ∀ q, q ≠ j → next.cumPerfEventCounts q = vm.cumPerfEventCounts q := fun q hne => by
    rw [hcum, Function.update_of_ne hne]
  constructor
  · intro q hq
    rcases List.mem_cons.mp hq with rfl | hq
    · have hkept := hout q hj
      have hself : vm'.cumPerfEventCounts q = newCum := by rw [hkept.cum, hcum, Function.update_self]
      refine ⟨hself.trans hnew, ?_⟩
      rw [hkept.delta, hself, hdelta, Function.update_self]
    · have hne : q ≠ j := fun heq => hj (heq ▸ hq)
      have hcounted := hin q hq
      refine ⟨?_, ?_⟩
      · rw [hcounted.cum, hother q hne, hread q hne]
      · rw [hcounted.delta, hother q hne]
  · intro q hq
    obtain ⟨hne, hq⟩ := not_or.mp (List.mem_cons.not.mp hq)
    have hkept := hout q hq
    refine ⟨hkept.cum.trans (hother q hne), ?_⟩
    rw [hkept.delta, hdelta, Function.update_of_ne hne]

/-- The pass of an update succeeds and changes the counts only. -/
theorem updateEvents_filled (hnodup : js.Nodup)
    (hfds : ∀ j, (vm.perfEventFds j).Filled vm.numCores.toNat) :
    ∃ vm', updateEvents kernel js vm = .ok vm' ∧ SameVm vm vm' ∧ vm'.perfEventFds = vm.perfEventFds ∧
      (∀ j ∈ js, Counted kernel vm vm' j) ∧ ∀ j ∉ js, SameCounts vm vm' j := by
  induction js generalizing vm with
  | nil => exact ⟨vm, rfl, .refl vm, rfl, by simp, fun _ _ => ⟨rfl, rfl⟩⟩
  | cons j js ih =>
    obtain ⟨hj, hjs⟩ := List.nodup_cons.mp hnodup
    obtain ⟨vm', hrest, hsame, harrays, hin, hout⟩ := @ih { vm with
      cumPerfEventCounts := Function.update vm.cumPerfEventCounts j
        (if reading kernel vm j < vm.cumPerfEventCounts j then vm.cumPerfEventCounts j
          else reading kernel vm j)
      deltaPerfEventCounts := Function.update vm.deltaPerfEventCounts j
        (sub64 (if reading kernel vm j < vm.cumPerfEventCounts j then vm.cumPerfEventCounts j
          else reading kernel vm j) (vm.cumPerfEventCounts j)) } hjs hfds
    refine ⟨vm', ?_, ?_, harrays, ?_⟩
    · rw [updateEvents, readCores_filled (hfds j)]
      exact hrest
    · exact ⟨hsame.vmId, hsame.numCores, hsame.coreSet, hsame.initialized, hsame.running,
        hsame.memdevCounter, hsame.attachedDevs⟩
    · refine counted_cons hj (clamp_eq_max _ _) ?_ ?_ ?_ hin hout
      · rfl
      · rfl
      · exact fun _ _ => rfl

/-- The pass of a teardown takes the same sums. -/
theorem teardownEvents_counts (hnodup : js.Nodup)
    (hfds : ∀ j ∈ js, (vm.perfEventFds j).Filled vm.numCores.toNat)
    (h : teardownEvents kernel js vm = .ok vm') :
    (∀ j ∈ js, Counted kernel vm vm' j) ∧ ∀ j ∉ js, SameCounts vm vm' j := by
  induction js generalizing vm with
  | nil =>
    cases h
    exact ⟨by simp, fun _ _ => ⟨rfl, rfl⟩⟩
  | cons j js ih =>
    obtain ⟨hj, hjs⟩ := List.nodup_cons.mp hnodup
    obtain ⟨⟨sum, closed⟩, hsum, h⟩ := bind_eq_ok.mp h
    obtain ⟨array, _, h⟩ := bind_eq_ok.mp h
    obtain rfl := teardownCores_sum (hfds j List.mem_cons_self) hsum
    have hother : ∀ q, q ≠ j → Function.update vm.perfEventFds j array q = vm.perfEventFds q :=
      fun q hne => Function.update_of_ne hne _ _
    obtain ⟨hin, hout⟩ := ih hjs (fun q hq => by
      dsimp only
      rw [hother q fun heq => hj (heq ▸ hq)]
      exact hfds q (List.mem_cons_of_mem _ hq)) h
    refine counted_cons hj (clamp_eq_max _ _) ?_ ?_ ?_ hin hout
    · rfl
    · rfl
    · intro q hne
      simp only [reading, hother q hne]

/-! ### The pass over the slots -/

/-- What an update does to the slots: those that run are counted, the others are left alone. -/
structure Updated (kernel : PerfKernel) (slots : List (Fin maxNumVm)) (m m' : Manager) : Prop where
  count : m'.count = m.count
  pool : m'.pool = m.pool
  agents : m'.agents = m.agents
  running : ∀ i ∈ slots, (m.vms i).running = true → SameVm (m.vms i) (m'.vms i) ∧
    (m'.vms i).perfEventFds = (m.vms i).perfEventFds ∧ ∀ j, Counted kernel (m.vms i) (m'.vms i) j
  idle : ∀ i ∈ slots, (m.vms i).running = false → m'.vms i = m.vms i
  others : ∀ i ∉ slots, m'.vms i = m.vms i

theorem updateVms_updated {slots : List (Fin maxNumVm)} (hnodup : slots.Nodup)
    (hfds : ∀ i, (m.vms i).running = true → ∀ j,
      ((m.vms i).perfEventFds j).Filled (m.vms i).numCores.toNat) :
    ∃ m', updateVms kernel slots m = .ok m' ∧ Updated kernel slots m m' := by
  induction slots generalizing m with
  | nil => exact ⟨m, rfl, rfl, rfl, rfl, by simp, by simp, fun _ _ => rfl⟩
  | cons i slots ih =>
    obtain ⟨hi, hslots⟩ := List.nodup_cons.mp hnodup
    have hne : ∀ q ∈ slots, q ≠ i := fun q hq heq => hi (heq ▸ hq)
    rw [updateVms]
    split_ifs with hrun
    · obtain ⟨vm, hvm, hsame, harrays, hcounted, _⟩ :=
        @updateEvents_filled kernel (m.vms i) perfEventTypes (by decide) (hfds i hrun)
      have hother : ∀ q, q ≠ i → (m.setVm i vm).vms q = m.vms q :=
        fun q hq => (setVm_vms m i q vm).trans (if_neg hq)
      have hself : (m.setVm i vm).vms i = vm := setVm_vms_self m i vm
      obtain ⟨m', hrest, hu⟩ := @ih (m.setVm i vm) hslots (fun q hq j => by
        by_cases hqi : q = i
        · subst hqi
          rw [hself, harrays, hsame.numCores]
          exact hfds q hrun j
        · rw [hother q hqi] at hq ⊢
          exact hfds q hq j)
      rw [hvm, ok_bind]
      refine ⟨m', hrest, hu.count, hu.pool, hu.agents, ?_, ?_, ?_⟩
      · intro q hq hqrun
        rcases List.mem_cons.mp hq with rfl | hq
        · rw [hu.others q hi, hself]
          exact ⟨hsame, harrays, fun j => hcounted j (perfEventTypes_complete j)⟩
        · have hrest := hu.running q hq
          rw [hother q (hne q hq)] at hrest
          exact hrest hqrun
      · intro q hq hqidle
        rcases List.mem_cons.mp hq with rfl | hq
        · rw [hrun] at hqidle
          cases hqidle
        · have hrest := hu.idle q hq
          rw [hother q (hne q hq)] at hrest
          exact hrest hqidle
      · intro q hq
        obtain ⟨hqi, hq⟩ := not_or.mp (List.mem_cons.not.mp hq)
        rw [hu.others q hq, hother q hqi]
    · obtain ⟨m', hrest, hu⟩ := ih hslots hfds
      refine ⟨m', hrest, hu.count, hu.pool, hu.agents, ?_, ?_, ?_⟩
      · intro q hq hqrun
        rcases List.mem_cons.mp hq with rfl | hq
        · exact absurd hqrun hrun
        · exact hu.running q hq hqrun
      · intro q hq hqidle
        rcases List.mem_cons.mp hq with rfl | hq
        · exact hu.others q hi
        · exact hu.idle q hq hqidle
      · intro q hq
        exact hu.others q (not_or.mp (List.mem_cons.not.mp hq)).2

theorem vmMngrUpdatePerfCounters_updated (hl : Consistent m)
    (h : vmMngrUpdatePerfCounters kernel m = .ok m') : Updated kernel (List.finRange maxNumVm) m m' := by
  unfold vmMngrUpdatePerfCounters at h
  split_ifs at h with hcount
  · cases h
    -- no slot is initialized, so none runs
    have hnone : ∀ i, (m.vms i).running = true → False := fun i hrun => by
      have hempty : initializedSlots m = ∅ := by
        rw [← Finset.card_eq_zero]
        exact_mod_cast hl.count.symm.trans hcount
      have hmem : i ∈ initializedSlots m := by simpa [initializedSlots] using hl.running i hrun
      rw [hempty] at hmem
      cases hmem
    exact ⟨rfl, rfl, rfl, fun i _ hrun => (hnone i hrun).elim, fun _ _ _ => rfl, fun _ _ => rfl⟩
  · obtain ⟨t, hupdate, hu⟩ := @updateVms_updated m kernel (List.finRange maxNumVm) (List.nodup_finRange _)
      fun i hrun j => by
        have hfds := hl.fds i j
        rwa [hrun] at hfds
    rw [hupdate] at h
    cases h
    exact hu

theorem Updated.slot (hu : Updated kernel (List.finRange maxNumVm) m m') (i : Fin maxNumVm) :
    SameVm (m.vms i) (m'.vms i) ∧ (m'.vms i).perfEventFds = (m.vms i).perfEventFds := by
  cases hrun : (m.vms i).running with
  | true =>
    obtain ⟨hsame, harrays, _⟩ := hu.running i (List.mem_finRange i) hrun
    exact ⟨hsame, harrays⟩
  | false =>
    rw [hu.idle i (List.mem_finRange i) hrun]
    exact ⟨.refl _, rfl⟩

/-- An update changes neither the memory of the VMs nor their lives. -/
theorem Updated.same (hu : Updated kernel (List.finRange maxNumVm) m m') :
    MemSame m m' ∧ LifeSame m m' := by
  have hslot := fun i => (hu.slot i).1
  refine ⟨⟨hu.pool, fun i => (hslot i).vmId, fun i => (hslot i).initialized,
    fun i => (hslot i).memdevCounter, fun i => (hslot i).attachedDevs⟩,
    ⟨hu.count, fun i => (hslot i).vmId, fun i => (hslot i).initialized,
      fun i => (hslot i).numCores, fun i => (hslot i).coreSet⟩,
    fun i => (hslot i).running, ?_, ?_, ?_⟩
  · rw [hu.agents]
  · intro a
    rw [hu.agents]
  · intro i hfds j
    rw [(hu.slot i).2, (hslot i).running, (hslot i).numCores]
    exact hfds j

/-! ### Server and monitor -/

/-- What one of the two does. -/
inductive Turn
  | call (op : Op)
  | update (kernel : PerfKernel)

/-- The calls of the server and the updates of the monitor, one at a time. -/
def monitorStep (m : Manager) : Turn → Outcome Manager
  | .call op => step m op
  | .update kernel => vmMngrUpdatePerfCounters kernel m

def runningVm (v : ℤ) (m : Manager) : Option VmInstance := do
  let i ← vmMngrGetInstance m v
  if (m.vms i).running then some (m.vms i) else none

/-- The counters of the VM that are read in a turn: those of a VM that runs, or those that a start
has set up and takes down again. -/
def readBy (v : ℤ) (m : Manager) : Turn → Option (PerfKernel × VmInstance)
  | .update kernel => (runningVm v m).map fun vm => (kernel, vm)
  | .call (.stop vmId kernel) => if vmId = v then (runningVm v m).map fun vm => (kernel, vm) else none
  | .call (.start vmId env) =>
    if vmId = v ∧ runningVm v m = none then do
      let i ← vmMngrGetInstance m v
      match vmPerfCounterSetup env.kernel (m.vms i), guestAgentInit env.connect m.agents v with
      | .ok vm, .ok (ret, _) => if ret < 0 then some (env.kernel, vm) else none
      | _, _ => none
    else none
  | _ => none

/-- What is read of each event in a turn, and the difference that is stored with it. -/
structure Sample where
  readings : PerfEventType → ℕ
  deltas : PerfEventType → ℕ

def sampleOf (v : ℤ) (m : Manager) (turn : Turn) : Option Sample := do
  let (kernel, vm) ← readBy v m turn
  let m' ← (monitorStep m turn).toOption
  let i ← vmMngrGetInstance m' v
  some ⟨reading kernel vm, (m'.vms i).deltaPerfEventCounts⟩

/-- The VM is not started again, and not destroyed. -/
def StartedOnce (v : ℤ) (_ : Manager) : Turn → Prop
  | .call (.start vmId _) => vmId ≠ v
  | .call (.destroy vmId) => vmId ≠ v
  | _ => True

/-- The count of an event is the greatest reading, and the differences are what each adds to it. -/
structure CountsRise (vm : VmInstance) (samples : List Sample) (j : PerfEventType) : Prop where
  cum : vm.cumPerfEventCounts j = peak (samples.map fun s => s.readings j)
  rise : Recorded (samples.map fun s => (s.readings j, s.deltas j))
  delta : vm.deltaPerfEventCounts j = ((samples.map fun s => s.deltas j).getLast?).getD 0
  total : (samples.map fun s => s.deltas j).sum = vm.cumPerfEventCounts j

variable {samples : List Sample}

theorem add_sub64 {a b : ℕ} (hle : b ≤ a) (ha : a < 2 ^ 64) : b + sub64 a b = a := by
  have hmod : ((a : ℤ) - b) % 2 ^ 64 = a - b := Int.emod_eq_of_lt (by omega) (by omega)
  rw [sub64, hmod]
  omega

/-- A pass that takes a sum keeps the count the greatest reading. -/
theorem CountsRise.counted (h : CountsRise vm samples j) (hb : ∀ s ∈ samples, s.readings j < 2 ^ 64)
    {read : VmInstance} (hcum : read.cumPerfEventCounts j = vm.cumPerfEventCounts j)
    (hc : Counted kernel read vm' j) :
    CountsRise vm' (samples ++ [⟨reading kernel read, vm'.deltaPerfEventCounts⟩]) j := by
  have hbefore : vm.cumPerfEventCounts j < 2 ^ 64 := by
    rw [h.cum]
    refine peak_lt (by decide) fun n hn => ?_
    obtain ⟨s, hs, rfl⟩ := List.mem_map.mp hn
    exact hb s hs
  have hafter := hc.cum
  have hdelta := hc.delta
  rw [hcum] at hafter hdelta
  have hmax : vm'.cumPerfEventCounts j < 2 ^ 64 := by
    rw [hafter]
    exact max_lt hbefore reading_lt
  have hrise : vm.cumPerfEventCounts j + vm'.deltaPerfEventCounts j = vm'.cumPerfEventCounts j := by
    rw [hdelta]
    refine add_sub64 ?_ hmax
    rw [hafter]
    exact le_max_left _ _
  have hfirst : (samples.map fun s => (s.readings j, s.deltas j)).map Prod.fst =
      samples.map fun s => s.readings j := by rw [List.map_map]; rfl
  refine ⟨?_, ?_, ?_, ?_⟩
  · rw [hafter, List.map_append, List.map_singleton, peak_concat, h.cum]
  · rw [List.map_append, List.map_singleton]
    refine h.rise.concat ?_
    rw [hfirst, ← h.cum, ← hafter]
    exact hrise
  · rw [List.map_append, List.map_singleton, List.getLast?_concat]
    rfl
  · rw [List.map_append, List.map_singleton, List.sum_append, List.sum_singleton, h.total]
    exact hrise

/-- What holds of a VM after its start, with the samples taken of it. -/
structure Metered (v : ℤ) (i : Fin maxNumVm) (m : Manager) (samples : List Sample) : Prop where
  owns : Owns m
  consistent : Consistent m
  initialized : (m.vms i).initialized = true
  vmId : (m.vms i).vmId = v
  bound : ∀ j, ∀ s ∈ samples, s.readings j < 2 ^ 64
  counts : ∀ j, CountsRise (m.vms i) samples j

theorem Metered.getInstance (h : Metered v i m samples) : vmMngrGetInstance m v = some i :=
  h.consistent.ids.getInstance h.initialized h.vmId

theorem Metered.slot_ne (h : Metered v i m samples) {q : Fin maxNumVm} {w : ℤ}
    (hget : vmMngrGetInstance m w = some q) (hw : w ≠ v) : i ≠ q := by
  rintro rfl
  exact hw ((vmMngrGetInstance_eq_some hget).2.symm.trans h.vmId)

/-- The slot is of the same VM with the same counts. -/
structure SameMeter (vm vm' : VmInstance) : Prop where
  vmId : vm'.vmId = vm.vmId
  initialized : vm'.initialized = vm.initialized
  counts : ∀ j, SameCounts vm vm' j

theorem SameMeter.refl (vm : VmInstance) : SameMeter vm vm := ⟨rfl, rfl, fun _ => ⟨rfl, rfl⟩⟩

/-- A turn that reads nothing of the VM leaves its counts. -/
theorem Metered.frame (h : Metered v i m samples) (ho : Owns m') (hl : Consistent m')
    (hsame : SameMeter (m.vms i) (m'.vms i)) : Metered v i m' samples := by
  refine ⟨ho, hl, hsame.initialized.trans h.initialized, hsame.vmId.trans h.vmId, h.bound, fun j => ?_⟩
  obtain ⟨hpeak, hrise, hlast, htotal⟩ := h.counts j
  obtain ⟨hcum, hdelta⟩ := hsame.counts j
  exact ⟨by rw [hcum, hpeak], hrise, by rw [hdelta, hlast], by rw [hcum, htotal]⟩

theorem Metered.frame_slot (h : Metered v i m samples) (ho : Owns m') (hl : Consistent m')
    (hslot : m'.vms i = m.vms i) : Metered v i m' samples :=
  h.frame ho hl (hslot ▸ .refl _)

/-- A turn that changes other fields of a slot. -/
theorem Metered.frame_setVm (h : Metered v i m samples) (ho : Owns m') (hl : Consistent m') {q : Fin maxNumVm}
    {vm : VmInstance} (hslot : ∀ r, m'.vms r = if r = q then vm else m.vms r)
    (hsame : SameMeter (m.vms q) vm) : Metered v i m' samples := by
  refine h.frame ho hl ?_
  rw [hslot]
  split_ifs with hq
  · rwa [hq]
  · exact .refl _

/-- A turn that reads the VM adds its sample. -/
theorem Metered.read (h : Metered v i m samples) (ho : Owns m') (hl : Consistent m') {turn : Turn}
    (hstep : monitorStep m turn = .ok m') (hread : readBy v m turn = some (kernel, m.vms i))
    (hid : (m'.vms i).vmId = (m.vms i).vmId)
    (hinit : (m'.vms i).initialized = (m.vms i).initialized)
    (hc : ∀ j, Counted kernel (m.vms i) (m'.vms i) j) :
    Metered v i m' (samples ++ (sampleOf v m turn).toList) := by
  have hget : vmMngrGetInstance m' v = some i :=
    hl.ids.getInstance (hinit.trans h.initialized) (hid.trans h.vmId)
  have hsample : sampleOf v m turn =
      some ⟨reading kernel (m.vms i), (m'.vms i).deltaPerfEventCounts⟩ := by
    simp [sampleOf, hread, hstep, Except.toOption, hget]
  rw [hsample, Option.toList_some]
  refine ⟨ho, hl, hinit.trans h.initialized, hid.trans h.vmId, ?_, ?_⟩
  · intro j s hs
    rcases List.mem_append.mp hs with hs | hs
    · exact h.bound j s hs
    · rw [List.mem_singleton.mp hs]
      exact reading_lt
  · exact fun j => (h.counts j).counted (h.bound j) rfl (hc j)

theorem sampleOf_none {turn : Turn} (h : readBy v m turn = none) :
    samples ++ (sampleOf v m turn).toList = samples := by
  simp [sampleOf, h]

theorem Metered.runningVm (h : Metered v i m samples) :
    runningVm v m = if (m.vms i).running then some (m.vms i) else none := by
  rw [PerfCounts.runningVm, h.getInstance]
  rfl

/-! ### The start -/

theorem setupEvents_counts {coreId leaderFd : ℤ} (h : setupEvents kernel coreId js leaderFd vm = .ok vm') :
    vm'.cumPerfEventCounts = vm.cumPerfEventCounts ∧
      vm'.deltaPerfEventCounts = vm.deltaPerfEventCounts := by
  induction js generalizing leaderFd vm with
  | nil =>
    cases h
    exact ⟨rfl, rfl⟩
  | cons j js ih =>
    simp only [setupEvents, bind_eq_ok] at h
    obtain ⟨_, _, _, _, h⟩ := h
    have hrest := ih h
    exact hrest

/-- The set-up clears the counts. -/
theorem vmPerfCounterSetup_counts (h : vmPerfCounterSetup kernel vm = .ok vm') :
    vm'.cumPerfEventCounts = (fun _ => 0) ∧ vm'.deltaPerfEventCounts = fun _ => 0 := by
  obtain ⟨_, _, h⟩ := bind_eq_ok.mp h
  refine vmMngrForEachCore_keeps (P := fun b : VmInstance =>
    b.cumPerfEventCounts = (fun _ => 0) ∧ b.deltaPerfEventCounts = fun _ => 0) ?_ ⟨rfl, rfl⟩ h
  rintro b core b' ⟨hcum, hdelta⟩ hcore
  simp only [vmPerfCounterSetupCore, bind_eq_ok] at hcore
  obtain ⟨_, _, _, hevents, hcore⟩ := hcore
  cases hcore
  obtain ⟨hcum', hdelta'⟩ := setupEvents_counts hevents
  exact ⟨hcum'.trans hcum, hdelta'.trans hdelta⟩

theorem countsRise_nil (hcum : vm.cumPerfEventCounts j = 0) (hdelta : vm.deltaPerfEventCounts j = 0) :
    CountsRise vm [] j :=
  ⟨hcum, .nil, hdelta, hcum.symm⟩

/-- A start that succeeds has taken no sample; one that the agent refuses has taken one. -/
theorem metered_start {env : StartEnv} (ho : Owns m) (hl : Consistent m)
    (hget : vmMngrGetInstance m v = some i) (hidle : (m.vms i).running = false)
    (hstart : monitorStep m (.call (.start v env)) = .ok m') :
    Metered v i m' (sampleOf v m (.call (.start v env))).toList := by
  have hcall : step m (.start v env) = .ok m' := hstart
  have ho' := owns_step ho hcall
  have hl' := step_consistent ho hl hcall
  obtain ⟨hinit, hid⟩ := vmMngrGetInstance_eq_some hget
  obtain ⟨cores, hcores, hnum⟩ := hl.cores i hinit
  obtain ⟨⟨ret, m₂⟩, hres, hend⟩ := map_eq_ok.mp hstart
  obtain rfl : m₂ = m' := hend
  obtain ⟨vm, agents, hsetup, hagent, hend⟩ := vmMngrInstanceStart_idle hget hidle hres
  obtain ⟨hcum, hdelta⟩ := vmPerfCounterSetup_counts hsetup
  have hsame := vmPerfCounterSetup_same hsetup
  have hfds := (vmPerfCounterSetup_filled env.kernel hcores hnum).2 vm hsetup
  have hrunning : runningVm v m = none := by
    simp [runningVm, hget, hidle]
  have hread : readBy v m (.call (.start v env)) = if ret < 0 then some (env.kernel, vm) else none := by
    simp [readBy, hrunning, hget, hsetup, hagent]
  rcases hend with ⟨hneg, vm', htear, hm₂⟩ | ⟨hpos, hm₂⟩
  · rw [if_pos hneg] at hread
    have hslot : m₂.vms i = vm' := by
      rw [hm₂]
      exact setVm_vms_self m i vm'
    have htorn := vmPerfCounterTeardown_same htear
    have hinit' : (m₂.vms i).initialized = true := by
      rw [hslot, htorn.initialized, hsame.initialized, hinit]
    have hid' : (m₂.vms i).vmId = v := by
      rw [hslot, htorn.vmId, hsame.vmId, hid]
    have hget' := hl'.ids.getInstance hinit' hid'
    obtain ⟨hcounted, _⟩ := teardownEvents_counts (by decide) (fun j _ => by
      rw [hsame.numCores]
      exact hfds j) htear
    have hsample : sampleOf v m (.call (.start v env)) =
        some ⟨reading env.kernel vm, (m₂.vms i).deltaPerfEventCounts⟩ := by
      simp [sampleOf, hread, hstart, Except.toOption, hget']
    rw [hsample, Option.toList_some]
    refine ⟨ho', hl', hinit', hid', ?_, fun j => ?_⟩
    · intro j s hs
      rw [List.mem_singleton.mp hs]
      exact reading_lt
    · have hzero : CountsRise vm [] j := countsRise_nil (by rw [hcum]) (by rw [hdelta])
      rw [hslot]
      exact hzero.counted (by simp) rfl (hcounted j (perfEventTypes_complete j))
  · rw [if_neg hpos] at hread
    have hslot : m₂.vms i = { vm with running := true } := by
      rw [hm₂]
      exact setVm_vms_self m i _
    have hnone : (sampleOf v m (.call (.start v env))).toList = [] := by simp [sampleOf, hread]
    rw [hnone]
    refine ⟨ho', hl', ?_, ?_, by simp, fun j => ?_⟩
    · rw [hslot]
      exact hsame.initialized.trans hinit
    · rw [hslot]
      exact hsame.vmId.trans hid
    · rw [hslot]
      exact countsRise_nil (congrFun hcum j) (congrFun hdelta j)

/-! ### One turn after the start -/

theorem Metered.update (h : Metered v i m samples)
    (hstep : monitorStep m (.update kernel) = .ok m') :
    Metered v i m' (samples ++ (sampleOf v m (.update kernel)).toList) := by
  have hu := vmMngrUpdatePerfCounters_updated h.consistent hstep
  obtain ⟨hmem, hlife⟩ := hu.same
  have ho' := h.owns.memSame hmem
  have hl' := h.consistent.lifeSame hlife
  cases hrun : (m.vms i).running with
  | true =>
    refine h.read ho' hl' hstep ?_ (hmem.vmId i) (hmem.initialized i)
      (hu.running i (List.mem_finRange i) hrun).2.2
    rw [readBy, h.runningVm, if_pos hrun]
    rfl
  | false =>
    rw [sampleOf_none (by rw [readBy, h.runningVm, hrun]; rfl)]
    exact h.frame_slot ho' hl' (hu.idle i (List.mem_finRange i) hrun)

theorem Metered.stop (h : Metered v i m samples) {vmId : ℤ}
    (hstep : monitorStep m (.call (.stop vmId kernel)) = .ok m') :
    Metered v i m' (samples ++ (sampleOf v m (.call (.stop vmId kernel))).toList) := by
  have hcall : step m (.stop vmId kernel) = .ok m' := hstep
  have ho' := owns_step h.owns hcall
  have hl' := step_consistent h.owns h.consistent hcall
  by_cases hv : vmId = v
  · subst hv
    cases hrun : (m.vms i).running with
    | false =>
      rw [sampleOf_none (by rw [readBy, if_pos rfl, h.runningVm, hrun]; rfl)]
      have hsame : m' = m := by
        simp [monitorStep, step, vmMngrInstanceStop, h.getInstance, hrun, Except.map] at hstep
        exact hstep.symm
      rwa [hsame]
    | true =>
      have hread : readBy vmId m (.call (.stop vmId kernel)) = some (kernel, m.vms i) := by
        rw [readBy, if_pos rfl, h.runningVm, if_pos hrun]
        rfl
      obtain ⟨⟨ret, m₂⟩, hres, hend⟩ := map_eq_ok.mp hstep
      obtain rfl : m₂ = m' := hend
      simp only [vmMngrInstanceStop, h.getInstance, hrun, Bool.not_true, Bool.false_eq_true, if_false,
        bind_eq_ok] at hres
      obtain ⟨agents, _, vm, htear, hres⟩ := hres
      have hslot : m₂.vms i = vm := by
        rw [← (Prod.mk.inj (Except.ok.inj hres)).2]
        exact setVm_vms_self m i vm
      have htorn := vmPerfCounterTeardown_same htear
      obtain ⟨hcounted, _⟩ := teardownEvents_counts (by decide) (fun j _ => by
        have hfds := h.consistent.fds i j
        rwa [hrun] at hfds) htear
      refine h.read ho' hl' hstep hread ?_ ?_ fun j => ?_
      · rw [hslot]
        exact htorn.vmId
      · rw [hslot]
        exact htorn.initialized
      · have hc := hcounted j (perfEventTypes_complete j)
        rw [hslot]
        exact ⟨hc.cum, hc.delta⟩
  · have hnone : readBy v m (.call (.stop vmId kernel)) = none := if_neg hv
    rw [sampleOf_none hnone]
    obtain ⟨⟨ret, _⟩, hres, rfl⟩ := map_eq_ok.mp hstep
    rcases vmMngrInstanceStop_ok hres with ⟨_, rfl⟩ | ⟨_, rfl⟩ | ⟨_, q, vm, agents, hget, _, _, _, rfl⟩
    · exact h
    · exact h
    · exact h.frame_slot ho' hl' ((setVm_vms m q i vm).trans (if_neg (h.slot_ne hget hv)))

/-- Step lemma: every turn but another start and the destruction of the VM adds what it reads. -/
theorem metered_step (h : Metered v i m samples) {turn : Turn} (honce : StartedOnce v m turn)
    (hstep : monitorStep m turn = .ok m') :
    Metered v i m' (samples ++ (sampleOf v m turn).toList) := by
  cases turn with
  | update kernel => exact h.update hstep
  | call op =>
    have hcall : step m op = .ok m' := hstep
    have ho' := owns_step h.owns hcall
    have hl' := step_consistent h.owns h.consistent hcall
    cases op with
    | stop vmId kernel => exact h.stop hstep
    | create vmId coreSet =>
      rw [sampleOf_none rfl]
      obtain ⟨⟨ret, _⟩, hres, rfl⟩ := map_eq_ok.mp hstep
      rcases vmMngrInstanceCreate_ok hres with ⟨_, rfl⟩ | ⟨_, _, _, q, n, hfree, _, rfl⟩
      · exact h
      · refine h.frame_slot ho' hl' ((setVm_vms m q i _).trans (if_neg ?_))
        rintro rfl
        rw [h.initialized] at hfree
        cases hfree
    | destroy vmId =>
      have hother : vmId ≠ v := honce
      rw [sampleOf_none rfl]
      obtain ⟨⟨ret, _⟩, hres, rfl⟩ := map_eq_ok.mp hstep
      rcases vmMngrInstanceDestroy_ok hres with ⟨_, rfl⟩ | ⟨_, q, hget, _, rfl⟩
      · exact h
      · exact h.frame_slot ho' hl' ((setVm_vms m q i _).trans (if_neg (h.slot_ne hget hother)))
    | start vmId env =>
      have hother : vmId ≠ v := honce
      have hnone : readBy v m (.call (.start vmId env)) = none := if_neg fun hboth => hother hboth.1
      rw [sampleOf_none hnone]
      obtain ⟨⟨ret, _⟩, hres, rfl⟩ := map_eq_ok.mp hstep
      rcases vmMngrInstanceStart_ok hres with ⟨_, rfl⟩ | ⟨_, rfl⟩ | ⟨q, vm, agents, hget, _, _, _, hend⟩
      · exact h
      · exact h
      · have hne := h.slot_ne hget hother
        rcases hend with ⟨_, vm', _, rfl⟩ | ⟨_, rfl⟩
        · exact h.frame_slot ho' hl' ((setVm_vms m q i _).trans (if_neg hne))
        · exact h.frame_slot ho' hl' ((setVm_vms m q i _).trans (if_neg hne))
    | allocMem nodeId vmId sizeMb =>
      rw [sampleOf_none rfl]
      obtain ⟨⟨res, _⟩, hres, rfl⟩ := map_eq_ok.mp hstep
      rcases vmMngrInstanceAllocMem_ok h.owns.geometry.segmentSize hres with
        ⟨_, rfl⟩ | ⟨q, req, pool, k, lo, n, _, _, _, _, rfl⟩
      · exact h
      · exact h.frame_setVm ho' hl' (fun r => setVm_vms m q r (attachedVm (m.vms q) req))
          ⟨rfl, rfl, fun _ => ⟨rfl, rfl⟩⟩
    | freeMem vmId memdevIdx =>
      rw [sampleOf_none rfl]
      obtain ⟨⟨ret, _⟩, hres, rfl⟩ := map_eq_ok.mp hstep
      rcases h.owns.freeMem_ok hres with ⟨_, rfl⟩ | ⟨_, q, dev, k, lo, n, _, _, rfl, _, rfl⟩
      · exact h
      · exact h.frame_setVm ho' hl' (fun r => setVm_vms m q r (detachedVm (m.vms q) dev.memdevIdx))
          ⟨rfl, rfl, fun _ => ⟨rfl, rfl⟩⟩

/-! ### Runs -/

variable {pool : MemoryPool.Pool}

theorem monitor_reachable (hp : InitialPool pool) (h : Reaches monitorStep (initialManager pool) m) :
    Owns m ∧ Consistent m := by
  refine h.invariant (I := fun m => Owns m ∧ Consistent m) (fun s turn t hs hstep => ?_)
    ⟨owns_initial hp, consistent_initial pool⟩
  cases turn with
  | call op => exact ⟨owns_step hs.1 hstep, step_consistent hs.1 hs.2 hstep⟩
  | update kernel =>
    obtain ⟨hmem, hlife⟩ := (vmMngrUpdatePerfCounters_updated hs.2 hstep).same
    exact ⟨hs.1.memSame hmem, hs.2.lifeSame hlife⟩

/-- The run rule of a VM that was started once: whatever is read of it and whatever else is called, its
counts are the greatest readings, and the differences are what each reading adds. -/
theorem started_countsRise {env : StartEnv} {turns : List Turn} (hp : InitialPool pool)
    (hreach : Reaches monitorStep (initialManager pool) m₀) (hget : vmMngrGetInstance m₀ v = some i)
    (hidle : (m₀.vms i).running = false) (hstart : monitorStep m₀ (.call (.start v env)) = .ok m₁)
    (honce : Guarded monitorStep (StartedOnce v) m₁ turns) (hrun : run monitorStep m₁ turns = .ok m) :
    vmMngrGetInstance m v = some i ∧ ∀ j,
      CountsRise (m.vms i) (observed monitorStep (sampleOf v) m₀ (.call (.start v env) :: turns)) j := by
  obtain ⟨ho, hl⟩ := monitor_reachable hp hreach
  have hfirst := metered_start ho hl hget hidle hstart
  have hlast := run_observed_guarded (I := Metered v i) (fun _ _ _ _ hn hg hs => metered_step hn hg hs)
    hfirst honce hrun
  rw [observed, hstart]
  exact ⟨hlast.getInstance, hlast.counts⟩

/-- A kernel that shows one count everywhere. -/
def countingKernel (n : ℕ) : PerfKernel := ⟨fun _ _ => 7, fun _ => n⟩

/-- The counts go back once, and the sum of the three cores wraps once. -/
def meteredTurns : List Turn :=
  [.update (countingKernel 5), .update (countingKernel 2), .call (.allocMem 0 3 4),
    .update (countingKernel (2 ^ 63)), .call (.stop 3 (countingKernel 0))]

theorem started_countsRise_smallPool : ∃ i m₀ m₁ m,
    run monitorStep (initialManager smallPool) [.call (.create 3 "0-1,4".toList)] = .ok m₀ ∧
      monitorStep m₀ (.call (.start 3 ⟨countingKernel 0, fun _ => 5⟩)) = .ok m₁ ∧
      run monitorStep m₁ meteredTurns = .ok m ∧
      (vmMngrGetInstance m 3 = some i ∧ ∀ j, CountsRise (m.vms i) (observed monitorStep (sampleOf 3) m₀
        (.call (.start 3 ⟨countingKernel 0, fun _ => 5⟩) :: meteredTurns)) j) := by
  let i : Fin maxNumVm := ⟨0, by decide⟩
  have heval : ((run monitorStep (initialManager smallPool)
      [.call (.create 3 "0-1,4".toList)]).toOption.bind fun m₀ =>
        (monitorStep m₀ (.call (.start 3 ⟨countingKernel 0, fun _ => 5⟩))).toOption.bind fun m₁ =>
          (run monitorStep m₁ meteredTurns).toOption.bind fun _ =>
            some (vmMngrGetInstance m₀ 3, (m₀.vms i).running)) = some (some i, false) := by
    rfl
  obtain ⟨m₀, hcreate, hview⟩ := of_toOption_bind heval
  obtain ⟨m₁, hstart, hview⟩ := of_toOption_bind hview
  obtain ⟨m, hrun, hview⟩ := of_toOption_bind hview
  obtain ⟨hget, hidle⟩ := Prod.mk.inj (Option.some.inj hview)
  refine ⟨i, m₀, m₁, m, hcreate, hstart, hrun, ?_⟩
  exact started_countsRise smallPool_initial ⟨_, hcreate⟩ hget hidle hstart
    (by simp [meteredTurns, Guarded, StartedOnce]) hrun

example : ((run monitorStep (initialManager smallPool) [.call (.create 3 "0-1,4".toList),
    .call (.start 3 ⟨countingKernel 0, fun _ => 5⟩)]).toOption.map fun m₁ =>
      (observed monitorStep (sampleOf 3) m₁ meteredTurns).map fun s =>
        (s.readings .instRetired, s.deltas .instRetired)) =
    some [(15, 15), (6, 0), (2 ^ 63, 2 ^ 63 - 15), (0, 0)] := by
  rfl

end Ramryder.PerfCounts
