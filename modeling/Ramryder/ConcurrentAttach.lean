import Ramryder.DetachCommand

/-! Concurrent runs of `attach-mem` of the admin CLI, from their plans on. The requests of all runs are
served one at a time, in any order. -/
namespace Ramryder.ConcurrentAttach
open AttachCommand AttachRollback AttachRuns CInt CMachine CScan CText Cli ClientRequests CreatePlan
  CreateRequests Deliveries DetachCommand GuestAgents MemoryPool MemoryPoolSpec Ownership PluggedMemory PoolConfig PoolImage
  PyText RequestCalls ResourceManager ResourceManagerSpec Runs Shutdown VmManager VmManagerSpec

/-! ### Entries of a ledger -/

section Entries

variable {ι β : Type} {p : ι → Prop} [DecidablePred p] {l : List (ι × β)} {e : ι × β}

/-- What is entered under these names, in order. -/
def entries (p : ι → Prop) [DecidablePred p] (l : List (ι × β)) : List β :=
  (l.filter fun e => p e.1).map Prod.snd

theorem mem_entries {x : β} : x ∈ entries p l ↔ ∃ e ∈ l, p e.1 ∧ e.2 = x := by
  simp [entries]

theorem mem_of_entries {i : ι} {x : β} [DecidableEq ι] (h : x ∈ entries (· = i) l) : (i, x) ∈ l := by
  obtain ⟨⟨k, y⟩, he, rfl, rfl⟩ := mem_entries.mp h
  exact he

theorem entries_append (l : List (ι × β)) (e : ι × β) :
    entries p (l ++ [e]) = entries p l ++ if p e.1 then [e.2] else [] := by
  by_cases he : p e.1
  · simp [entries, he]
  · simp [entries, he]

theorem entries_cons (e : ι × β) (l : List (ι × β)) :
    entries p (e :: l) = (if p e.1 then [e.2] else []) ++ entries p l := by
  by_cases he : p e.1
  · simp [entries, he]
  · simp [entries, he]

variable [DecidableEq ι] [DecidableEq β]

def strike (e : ι × β) (l : List (ι × β)) : List (ι × β) := l.filter (· ≠ e)

theorem mem_strike {a : ι × β} : a ∈ strike e l ↔ a ∈ l ∧ a ≠ e := by
  simp [strike]

theorem entries_strike_other (he : ¬ p e.1) : entries p (strike e l) = entries p l := by
  rw [entries, strike, List.filter_filter, entries]
  congr 1
  refine List.filter_congr fun a _ => ?_
  by_cases ha : p a.1
  · have hne : a ≠ e := by
      rintro rfl
      exact he ha
    simp [ha, hne]
  · simp [ha]

/-- An entry that is struck out is gone, where there is no other like it. -/
theorem entries_strike (hmem : e ∈ l) (he : p e.1) (hnodup : (entries p l).Nodup) :
    entries p (strike e l) = (entries p l).erase e.2 := by
  rw [hnodup.erase_eq_filter, entries, strike, List.filter_filter, entries, List.filter_map, List.filter_filter]
  congr 1
  refine List.filter_congr fun a hal => ?_
  by_cases ha : p a.1
  · have hiff : a = e ↔ a.2 = e.2 := ⟨congrArg Prod.snd, fun heq => List.inj_on_of_nodup_map hnodup
      (List.mem_filter.mpr ⟨hal, by simpa using ha⟩) (List.mem_filter.mpr ⟨hmem, by simpa using he⟩) heq⟩
    by_cases heq : a.2 = e.2
    · simp [ha, hiff, heq]
    · simp [ha, hiff, heq]
  · simp [ha]

/-- Entered under another name. -/
def moved (e : ι × β) (i : ι) (l : List (ι × β)) : List (ι × β) := l.map fun a => if a = e then (i, e.2) else a

theorem mem_moved {a : ι × β} {i : ι} (ha : a ∈ moved e i l) : a = (i, e.2) ∨ a ∈ l := by
  obtain ⟨b, hb, rfl⟩ := List.mem_map.mp ha
  split_ifs
  · exact .inl rfl
  · exact .inr hb

theorem entries_moved_same {i : ι} (he : p e.1 ↔ p i) : entries p (moved e i l) = entries p l := by
  induction l with
  | nil => rfl
  | cons a l ih =>
    rw [moved, List.map_cons, ← moved, entries_cons, entries_cons, ih]
    by_cases ha : a = e
    · subst ha
      simp [he]
    · simp [ha]

theorem entries_moved_out {i : ι} (he : ¬ p i) : entries p (moved e i l) = entries p (strike e l) := by
  induction l with
  | nil => rfl
  | cons a l ih =>
    rw [moved, List.map_cons, ← moved, entries_cons, ih]
    by_cases ha : a = e
    · simp [ha, he, strike]
    · simp [ha, strike, entries_cons]

/-- What is entered now is in the one part of the entries. -/
theorem entries_moved_in {i : ι} {q : β → Bool} (he : ¬ p e.1) (hq : q e.2 = false) :
    (entries p (moved e i l)).filter q = (entries p l).filter q := by
  induction l with
  | nil => rfl
  | cons a l ih =>
    rw [moved, List.map_cons, ← moved, entries_cons, entries_cons, List.filter_append, List.filter_append, ih]
    by_cases ha : a = e
    · subst ha
      by_cases hi : p i
      · simp [he, hi, hq]
      · simp [he, hi]
    · simp [ha]

end Entries

/-! ### The runs -/

/-- A run with its plan, and what becomes of the requests of its rollback. -/
structure Job where
  vmid : ℤ
  plan : List Channel
  onFree : ℤ → Delivery

/-- Where a run stands: in front of an `alloc-mem`, an `attach-mem` or a `free-mem`, or at its end. -/
inductive Phase
  | allocating (plan : List Channel) (memids : List ℤ)
  | attaching (memid : ℤ) (ch : Channel) (plan : List Channel) (memids : List ℤ)
  | freeing (memids : List ℤ)
  | done (memids : List ℤ)
  | raised

/-- What the run has allocated and not freed, as far as it knows. -/
def Phase.held : Phase → List ℤ
  | .allocating _ memids | .attaching _ _ _ memids | .freeing memids | .done memids => memids
  | .raised => []

/-- Behind an `alloc-mem`. -/
def afterAlloc (ch : Channel) (plan : List Channel) (memids : List ℤ) : Raises ℤ → Phase
  | .ok memid => .attaching memid ch plan (memids ++ [memid])
  | .error _ => .freeing memids

/-- In front of the next channel, or of the rollback. -/
def afterChannel (plan : List Channel) (memids : List ℤ) : Raises Unit → Phase
  | .ok () => .allocating plan memids
  | .error _ => .freeing memids

/-- One request of the run, or the step after its last one. -/
def turn (job : Job) (h : Site) : Phase → Outcome (Phase × Site)
  | .allocating [] memids => .ok (.done memids, h)
  | .allocating (ch :: plan) memids => do
    let (answer, h) ← h.ask ch.onAlloc (.allocMem ch.nodeId job.vmid ch.sizeMb)
    .ok (afterAlloc ch plan memids (answer.bind allocatedMemid), h)
  | .attaching memid ch plan memids => do
    let (answer, h) ← h.ask ch.onAttach (.attachMem memid job.vmid ch.nodeId)
    .ok (afterChannel plan memids (answer.bind (attachResult job.vmid memid ch.nodeId)), h)
  | .freeing [] => .ok (.raised, h)
  | .freeing (memid :: memids) => do
    let (_, h) ← h.ask (job.onFree memid) (.freeMem job.vmid memid)
    .ok (.freeing memids, h)
  | .done memids => .ok (.done memids, h)
  | .raised => .ok (.raised, h)

structure World (ι : Type) where
  site : Site
  phases : ι → Phase

variable {ι : Type} [DecidableEq ι]

def worldStep (jobs : ι → Job) (w : World ι) (j : ι) : Outcome (World ι) :=
  (turn (jobs j) w.site (w.phases j)).map fun r => ⟨r.2, Function.update w.phases j r.1⟩

def startWorld (jobs : ι → Job) (s : Server) : World ι :=
  ⟨⟨s, []⟩, fun j => .allocating (jobs j).plan []⟩

/-! ### What the manager has given to whom -/

/-- The state `m₀` with these devices added, each to the VM of the run it is entered under. -/
structure Ledger (vm : ι → ℤ) (m₀ m : Manager) (added : List (ι × MemoryDev)) : Prop where
  kept : Kept m
  frame : PoolFrame m₀.pool m.pool
  initialized : ∀ i, (m.vms i).initialized = (m₀.vms i).initialized
  vmId : ∀ i, (m₀.vms i).initialized = true → (m.vms i).vmId = (m₀.vms i).vmId
  attachedDevs : ∀ i, (m₀.vms i).initialized = true → (m.vms i).attachedDevs =
    (m₀.vms i).attachedDevs ++ entries (vm · = (m₀.vms i).vmId) added
  someone : ∀ e ∈ added, ∃ i, vmMngrGetInstance m (vm e.1) = some i
  inInt : ∀ e ∈ added, 0 ≤ e.2.memdevIdx ∧ InInt e.2.memdevIdx

variable {vm : ι → ℤ} {m₀ m m' : Manager} {added added' : List (ι × MemoryDev)} {v : ℤ}

omit [DecidableEq ι] in
theorem Ledger.start (hm : Kept m₀) : Ledger vm m₀ m₀ [] :=
  ⟨hm, .refl _, fun _ => rfl, fun _ _ => rfl, fun _ _ => by simp [entries], by simp, by simp⟩

/-- The state of now, with the VM `v` as it was in `m₀`. -/
def withoutAdded (v : ℤ) (m₀ m : Manager) : Manager :=
  { m with vms := fun i => if (m₀.vms i).vmId = v then m₀.vms i else m.vms i }

omit [DecidableEq ι] in
theorem Ledger.grown (h : Ledger vm m₀ m added) (v : ℤ) :
    Grown v (withoutAdded v m₀ m) m (entries (vm · = v) added) := by
  have hslot : ∀ i, (withoutAdded v m₀ m).vms i = if (m₀.vms i).vmId = v then m₀.vms i else m.vms i :=
    fun _ => rfl
  have hinit : ∀ i, (m.vms i).initialized = ((withoutAdded v m₀ m).vms i).initialized := by
    intro i
    rw [hslot]
    split_ifs
    · exact h.initialized i
    · rfl
  refine ⟨h.kept, .refl _, hinit, fun i hi => ?_, fun i hi => ?_, fun hne => ?_, fun dev hdev => ?_⟩
  · have hi₀ : (m₀.vms i).initialized = true := (h.initialized i).symm.trans ((hinit i).trans hi)
    rw [hslot]
    split_ifs
    · exact h.vmId i hi₀
    · rfl
  · have hi₀ : (m₀.vms i).initialized = true := (h.initialized i).symm.trans ((hinit i).trans hi)
    rw [hslot]
    split_ifs with hv hv'
    · rw [h.attachedDevs i hi₀, hv]
    · exact absurd ((h.vmId i hi₀).symm.trans hv') hv
    · rw [List.append_nil]
  · obtain ⟨dev, hdev⟩ := List.exists_mem_of_ne_nil _ hne
    obtain ⟨e, he, rfl, _⟩ := mem_entries.mp hdev
    exact h.someone e he
  · obtain ⟨e, he, _, rfl⟩ := mem_entries.mp hdev
    exact h.inInt e he

omit [DecidableEq ι] in
/-- Only the VM `v` has gained or lost devices. -/
theorem Ledger.of_grown (h : Ledger vm m₀ m added)
    (hgrown : Grown v (withoutAdded v m₀ m) m' (entries (vm · = v) added'))
    (hother : ∀ u, u ≠ v → entries (vm · = u) added' = entries (vm · = u) added)
    (hadded : ∀ e ∈ added', vm e.1 = v ∨ e ∈ added) : Ledger vm m₀ m' added' := by
  have hslot : ∀ i, (withoutAdded v m₀ m).vms i = if (m₀.vms i).vmId = v then m₀.vms i else m.vms i :=
    fun _ => rfl
  have hinit₀ : ∀ i, ((withoutAdded v m₀ m).vms i).initialized = (m₀.vms i).initialized := by
    intro i
    rw [hslot]
    split_ifs
    · rfl
    · exact h.initialized i
  have hvmId₀ : ∀ i, (m₀.vms i).initialized = true → ((withoutAdded v m₀ m).vms i).vmId = (m₀.vms i).vmId := by
    intro i hi
    rw [hslot]
    split_ifs
    · rfl
    · exact h.vmId i hi
  have hinit : ∀ i, (m'.vms i).initialized = (m₀.vms i).initialized :=
    fun i => (hgrown.initialized i).trans (hinit₀ i)
  have hvmId : ∀ i, (m₀.vms i).initialized = true → (m'.vms i).vmId = (m₀.vms i).vmId :=
    fun i hi => (hgrown.vmId i ((hinit₀ i).trans hi)).trans (hvmId₀ i hi)
  refine {
    kept := hgrown.kept
    frame := h.frame.trans hgrown.frame
    initialized := hinit
    vmId := hvmId
    attachedDevs := fun i hi => ?attachedDevs
    someone := fun e he => ?someone
    inInt := fun e he => ?inInt }
  case attachedDevs =>
    rw [hgrown.attachedDevs i ((hinit₀ i).trans hi), hvmId₀ i hi, hslot]
    split_ifs with hv
    · rw [hv]
    · rw [List.append_nil, h.attachedDevs i hi, hother _ hv]
  case someone =>
    rcases hadded e he with hv | hold
    · rw [hv]
      exact hgrown.someone (List.ne_nil_of_mem (mem_entries.mpr ⟨e, he, hv, rfl⟩))
    · obtain ⟨i, hget⟩ := h.someone e hold
      obtain ⟨hi, hid⟩ := vmMngrGetInstance_eq_some hget
      have hi₀ := (h.initialized i).symm.trans hi
      exact ⟨i, hgrown.kept.owns.ids.getInstance ((hinit i).trans hi₀)
        ((hvmId i hi₀).trans ((h.vmId i hi₀).symm.trans hid))⟩
  case inInt =>
    rcases hadded e he with hv | hold
    · exact hgrown.inInt e.2 (mem_entries.mpr ⟨e, he, hv, rfl⟩)
    · exact h.inInt e hold

omit [DecidableEq ι] in
theorem Ledger.alloc (h : Ledger vm m₀ m added) (j : ι) {nodeId sizeMb : ℤ} {req : VmMemReq}
    (halloc : vmMngrInstanceAllocMem m nodeId (vm j) sizeMb = .ok (some req, m')) :
    ∃ dev, Ledger vm m₀ m' (added ++ [(j, dev)]) ∧ req = vmMemReqOf dev ∧ placed dev = (nodeId, sizeMb) := by
  obtain ⟨dev, hgrown, hreq, hplaced⟩ := (h.grown (vm j)).alloc halloc
  refine ⟨dev, h.of_grown (v := vm j) ?_ (fun u hu => ?_) fun e he => ?_, hreq, hplaced⟩
  · rwa [entries_append, if_pos rfl]
  · rw [entries_append, if_neg hu.symm, List.append_nil]
  · rcases List.mem_append.mp he with hold | hnew
    · exact .inr hold
    · exact .inl (by rw [List.mem_singleton.mp hnew])

omit [DecidableEq ι] in
/-- No device is entered twice. -/
theorem Ledger.nodup (h : Ledger vm m₀ m added) (v : ℤ) :
    ((entries (vm · = v) added).map MemoryDev.memdevIdx).Nodup := by
  by_cases hne : entries (vm · = v) added = []
  · rw [hne]
    exact List.nodup_nil
  · obtain ⟨dev, hdev⟩ := List.exists_mem_of_ne_nil _ hne
    obtain ⟨e, he, hv, _⟩ := mem_entries.mp hdev
    obtain ⟨i, hget⟩ := h.someone e he
    rw [hv] at hget
    obtain ⟨hi, hid⟩ := vmMngrGetInstance_eq_some hget
    have hi₀ := (h.initialized i).symm.trans hi
    have hnodup := h.kept.owns.distinct i hi
    rw [h.attachedDevs i hi₀, ← h.vmId i hi₀, hid, List.map_append] at hnodup
    exact hnodup.of_append_right

theorem Ledger.free {e : ι × MemoryDev} (h : Ledger vm m₀ m added) (he : e ∈ added) :
    ∃ m', vmMngrInstanceFreeMem m (vm e.1) e.2.memdevIdx = .ok (0, m') ∧
      Ledger vm m₀ m' (strike e added) := by
  have hnodup := (h.nodup (vm e.1)).of_map
  obtain ⟨m', hfree, hgrown⟩ := (h.grown (vm e.1)).free_of_mem (mem_entries.mpr ⟨e, he, rfl, rfl⟩)
  refine ⟨m', hfree, h.of_grown (v := vm e.1) ?_ (fun u hu => entries_strike_other (Ne.symm hu)) fun a ha => ?_⟩
  · rw [entries_strike (p := (vm · = vm e.1)) he rfl hnodup]
    exact hgrown
  · exact .inr (mem_strike.mp ha).1

omit [DecidableEq ι] in
/-- An entry under another run of the same VM. -/
theorem Ledger.renamed [DecidableEq ι] {e : ι × MemoryDev} {i : ι} (h : Ledger vm m₀ m added) (he : e ∈ added)
    (hvm : vm e.1 = vm i) : Ledger vm m₀ m (moved e i added) := by
  have hentry : ∀ a ∈ moved e i added, ∃ b ∈ added, vm a.1 = vm b.1 ∧ a.2 = b.2 := by
    intro a ha
    rcases mem_moved ha with rfl | hold
    · exact ⟨e, he, hvm.symm, rfl⟩
    · exact ⟨a, hold, rfl, rfl⟩
  refine ⟨h.kept, h.frame, h.initialized, h.vmId, fun k hk => ?_, fun a ha => ?_, fun a ha => ?_⟩
  · rw [h.attachedDevs k hk, entries_moved_same (by rw [hvm])]
  · obtain ⟨b, hb, hvmb, _⟩ := hentry a ha
    rw [hvmb]
    exact h.someone b hb
  · obtain ⟨b, hb, _, hdev⟩ := hentry a ha
    rw [hdev]
    exact h.inInt b hb

/-! ### What every turn keeps -/

/-- The node and the size that the server reads. -/
def asked (ch : Channel) : ℤ × ℤ := (readBack ch.nodeId, readBack ch.sizeMb)

/-- How far a run with these devices has come in its plan. -/
def Progress (plan : List Channel) (devs : List MemoryDev) : Phase → Prop
  | .allocating rest _ => ∃ front, plan = front ++ rest ∧ devs.map placed = front.map asked
  | .attaching _ ch rest _ => ∃ front, plan = front ++ ch :: rest ∧ devs.map placed = (front ++ [ch]).map asked
  | .done _ => devs.map placed = plan.map asked
  | .freeing _ | .raised => True

/-- What a run that rolls back leaves to its VM: devices whose `free-mem` is not served, and at most one more, of
an `alloc-mem` whose answer is not read. -/
def Left (job : Job) (devs : List MemoryDev) : Phase → Prop
  | .freeing _ | .raised =>
    (devs.filter fun dev => (job.onFree dev.memdevIdx).served.isSome) = [] ∨
      ∃ dev, (devs.filter fun dev => (job.onFree dev.memdevIdx).served.isSome) = [dev] ∧
        ∃ ch ∈ job.plan, ch.onAlloc.unread = true
  | _ => devs = []

/-- The VM of a name: each run enters what it holds, and what it leaves behind. -/
def vmOf (jobs : ι → Job) (e : ι × Bool) : ℤ := readBack (jobs e.1).vmid

/-- What the runs hold is what is entered for them. -/
structure Accounts (jobs : ι → Job) (m₀ : Manager) (w : World ι) (added : List ((ι × Bool) × MemoryDev)) :
    Prop where
  ledger : Ledger (vmOf jobs) m₀ w.site.server.mngr added
  nonneg : ∀ e ∈ added, 0 ≤ vmOf jobs e.1
  held : ∀ j, (w.phases j).held = (entries (· = (j, true)) added).map MemoryDev.memdevIdx
  progress : ∀ j, Progress (jobs j).plan (entries (· = (j, true)) added) (w.phases j)
  left : ∀ j, Left (jobs j) (entries (· = (j, false)) added) (w.phases j)

variable {jobs : ι → Job} {w w' : World ι} {j : ι} {h h' : Site} {phase phase' : Phase} {env : ServerEnv}
  {request response : Text} {added added' : List ((ι × Bool) × MemoryDev)}

theorem Accounts.start {s : Server} (hm : Kept s.mngr) : Accounts jobs s.mngr (startWorld jobs s) [] :=
  ⟨.start hm, by simp, fun _ => rfl, fun _ => ⟨[], rfl, rfl⟩, fun _ => rfl⟩

/-- The turn of the run `j`. -/
theorem Accounts.turned (h : Accounts jobs m₀ w added)
    (hledger : Ledger (vmOf jobs) m₀ h'.server.mngr added')
    (hadded : ∀ e ∈ added', e ∈ added ∨ 0 ≤ vmOf jobs e.1)
    (hother : ∀ k b, k ≠ j → entries (· = (k, b)) added' = entries (· = (k, b)) added)
    (hheld : phase.held = (entries (· = (j, true)) added').map MemoryDev.memdevIdx)
    (hprogress : Progress (jobs j).plan (entries (· = (j, true)) added') phase)
    (hleft : Left (jobs j) (entries (· = (j, false)) added') phase) :
    Accounts jobs m₀ ⟨h', Function.update w.phases j phase⟩ added' := by
  refine {
    ledger := hledger
    nonneg := fun e he => (hadded e he).elim (h.nonneg e) id
    held := fun k => ?held
    progress := fun k => ?progress
    left := fun k => ?left }
  case held =>
    by_cases hk : k = j
    · subst hk
      simpa using hheld
    · simpa [hk, hother k true hk] using h.held k
  case progress =>
    by_cases hk : k = j
    · subst hk
      simpa using hprogress
    · simpa [hk, hother k true hk] using h.progress k
  case left =>
    by_cases hk : k = j
    · subst hk
      simpa using hleft
    · simpa [hk, hother k false hk] using h.left k

/-- A turn that changes no memory. -/
theorem Accounts.passed (h : Accounts jobs m₀ w added) (hm : h'.server.mngr = w.site.server.mngr)
    (hheld : phase.held = (w.phases j).held)
    (hprogress : Progress (jobs j).plan (entries (· = (j, true)) added) phase)
    (hleft : Left (jobs j) (entries (· = (j, false)) added) phase) :
    Accounts jobs m₀ ⟨h', Function.update w.phases j phase⟩ added :=
  h.turned (hm ▸ h.ledger) (fun _ => .inl) (fun _ _ _ => rfl) (hheld.trans (h.held j)) hprogress hleft

theorem Left.nothing {job : Job} : ∀ phase, Left job [] phase
  | .allocating .. | .attaching .. | .done .. => rfl
  | .freeing .. | .raised => .inl rfl

/-- The next device is entered for the run, as one that it holds or as one that it leaves behind. -/
theorem Accounts.allocated (h : Accounts jobs m₀ w added) {dev : MemoryDev} {b : Bool}
    (hledger : Ledger (vmOf jobs) m₀ h'.server.mngr (added ++ [((j, b), dev)])) (hvid : 0 ≤ readBack (jobs j).vmid)
    (hheld : phase.held = (entries (· = (j, true)) added ++ if b = true then [dev] else []).map MemoryDev.memdevIdx)
    (hprogress : Progress (jobs j).plan (entries (· = (j, true)) added ++ if b = true then [dev] else []) phase)
    (hleft : Left (jobs j) (entries (· = (j, false)) added ++ if b = false then [dev] else []) phase) :
    Accounts jobs m₀ ⟨h', Function.update w.phases j phase⟩ (added ++ [((j, b), dev)]) := by
  have hmine : ∀ b', entries (· = (j, b')) (added ++ [((j, b), dev)]) =
      entries (· = (j, b')) added ++ if b = b' then [dev] else [] := by
    intro b'
    simp [entries_append]
  refine h.turned hledger (fun e he => ?_) (fun k b' hk => ?_) ?_ ?_ ?_
  · rcases List.mem_append.mp he with hold | hnew
    · exact .inl hold
    · rw [List.mem_singleton.mp hnew]
      exact .inr hvid
  · rw [entries_append, if_neg fun heq => hk (congrArg Prod.fst heq).symm, List.append_nil]
  · rw [hmine]
    exact hheld
  · rw [hmine]
    exact hprogress
  · rw [hmine]
    exact hleft

theorem Accounts.allocating {ch : Channel} {plan : List Channel} {memids : List ℤ}
    (h : Accounts jobs m₀ w added) (hphase : w.phases j = .allocating (ch :: plan) memids)
    (hturn : turn (jobs j) w.site (.allocating (ch :: plan) memids) = .ok (phase, h')) :
    ∃ added', Accounts jobs m₀ ⟨h', Function.update w.phases j phase⟩ added' := by
  have hheld := h.held j
  have hprogress := h.progress j
  have hleft := h.left j
  rw [hphase] at hheld hprogress hleft
  obtain ⟨front, hplan, hdevs⟩ := hprogress
  have hnone : entries (· = (j, false)) added = [] := hleft
  obtain ⟨⟨answer, h₁⟩, hask, hrest⟩ := bind_eq_ok.mp hturn
  cases hrest
  have hasked := siteAsk_server hask
  rcases ask_allocMem h.ledger.kept.owns hasked with ⟨_, hm, e, hread⟩ | ⟨req, hgrant, hend⟩
  · simp only [hread, afterAlloc]
    exact ⟨added, h.passed hm (by rw [hphase]; rfl) trivial (hnone ▸ Left.nothing _)⟩
  obtain ⟨env, _, hgranted⟩ := Option.bind_eq_some_iff.mp hgrant
  obtain ⟨hv, halloc⟩ := granted_eq_some hgranted
  rcases hend with ⟨hunread, e, hread⟩ | ⟨_, hread⟩
  · obtain ⟨dev, hledger, _⟩ := h.ledger.alloc (j, false) halloc
    simp only [hread, afterAlloc]
    refine ⟨_, h.allocated hledger hv ?_ trivial ?_⟩
    · simpa [Phase.held] using hheld
    · rw [hnone, List.nil_append, if_pos rfl, Left]
      by_cases hserved : ((jobs j).onFree dev.memdevIdx).served.isSome = true
      · refine .inr ⟨dev, by simp [hserved], ch, ?_, hunread⟩
        rw [hplan]
        simp
      · exact .inl (by simp [hserved])
  · obtain ⟨dev, hledger, rfl, hplaced⟩ := h.ledger.alloc (j, true) halloc
    have hin : InInt dev.memdevIdx := (hledger.inInt ((j, true), dev) (by simp)).2
    simp only [hread hin, afterAlloc]
    refine ⟨_, h.allocated hledger hv ?_ ⟨front, hplan, ?_⟩ ?_⟩
    · rw [if_pos rfl, List.map_append]
      exact congrArg (· ++ [dev.memdevIdx]) hheld
    · rw [if_pos rfl, List.map_append, List.map_append, hdevs, List.map_singleton, hplaced]
      rfl
    · rw [hnone]
      rfl

theorem Accounts.attaching {ch : Channel} {plan : List Channel} {memid : ℤ} {memids : List ℤ}
    (h : Accounts jobs m₀ w added) (hphase : w.phases j = .attaching memid ch plan memids)
    (hturn : turn (jobs j) w.site (.attaching memid ch plan memids) = .ok (phase, h')) :
    Accounts jobs m₀ ⟨h', Function.update w.phases j phase⟩ added := by
  have hprogress := h.progress j
  have hleft := h.left j
  rw [hphase] at hprogress hleft
  obtain ⟨front, hplan, hdevs⟩ := hprogress
  have hnone : entries (· = (j, false)) added = [] := hleft
  obtain ⟨⟨answer, h₁⟩, hask, hrest⟩ := bind_eq_ok.mp hturn
  cases hrest
  have hm : h'.server.mngr = w.site.server.mngr :=
    ask_keeps (I := fun m => m = w.site.server.mngr) rfl (fun _ _ _ hserve => (served_attachMem hserve).1)
      (siteAsk_server hask)
  cases answer.bind (attachResult (jobs j).vmid memid ch.nodeId) with
  | error e => exact h.passed hm (by rw [hphase]; rfl) trivial (hnone ▸ Left.nothing _)
  | ok u =>
    exact h.passed hm (by rw [hphase]; rfl) ⟨front ++ [ch], by rw [hplan, List.append_cons], hdevs⟩ hnone

theorem Accounts.nodup (h : Accounts jobs m₀ w added) (j : ι) : (entries (· = (j, true)) added).Nodup := by
  refine List.Nodup.sublist ?_ (h.ledger.nodup (readBack (jobs j).vmid)).of_map
  refine (List.monotone_filter_right added fun e he => ?_).map Prod.snd
  have he : e.1 = (j, true) := by simpa using he
  simp [he, vmOf]

/-- What a rollback does not get to free is left behind. -/
theorem Accounts.stranded {dev : MemoryDev} {devs : List MemoryDev} (h : Accounts jobs m₀ w added)
    (hmine : entries (· = (j, true)) added = dev :: devs)
    (hleft : Left (jobs j) (entries (· = (j, false)) added) (.freeing (devs.map MemoryDev.memdevIdx)))
    (hserved : ((jobs j).onFree dev.memdevIdx).served = none) (hsame : h'.server = w.site.server) :
    Accounts jobs m₀ ⟨h', Function.update w.phases j (.freeing (devs.map MemoryDev.memdevIdx))⟩
      (moved ((j, true), dev) (j, false) added) := by
  have hentry : ((j, true), dev) ∈ added := mem_of_entries (by simp [hmine])
  have hledger := h.ledger.renamed (i := (j, false)) hentry rfl
  have hvid : 0 ≤ readBack (jobs j).vmid := h.nonneg ((j, true), dev) hentry
  refine h.turned (hsame ▸ hledger) (fun e he => ?_) (fun k b hk => ?_) ?_ trivial ?_
  · rcases mem_moved he with rfl | hold
    · exact .inr hvid
    · exact .inl hold
  · exact entries_moved_same (by simp [Ne.symm hk])
  · rw [entries_moved_out (by simp), entries_strike (p := (· = (j, true))) hentry rfl (h.nodup j), hmine, List.erase_cons_head]
    rfl
  · rw [Left, entries_moved_in (by simp) (by simp [hserved])]
    exact hleft

theorem Accounts.freed {dev : MemoryDev} {devs : List MemoryDev} (h : Accounts jobs m₀ w added)
    (hmine : entries (· = (j, true)) added = dev :: devs)
    (hleft : Left (jobs j) (entries (· = (j, false)) added) (.freeing (devs.map MemoryDev.memdevIdx)))
    (hserve : rpcServe env w.site.server (ClientCall.freeMem (jobs j).vmid dev.memdevIdx).request =
      .ok (response, h'.server)) :
    Accounts jobs m₀ ⟨h', Function.update w.phases j (.freeing (devs.map MemoryDev.memdevIdx))⟩
      (strike ((j, true), dev) added) := by
  have hentry : ((j, true), dev) ∈ added := mem_of_entries (by simp [hmine])
  have hvid : 0 ≤ readBack (jobs j).vmid := h.nonneg ((j, true), dev) hentry
  have hin : 0 ≤ dev.memdevIdx ∧ InInt dev.memdevIdx := h.ledger.inInt _ hentry
  obtain ⟨m', hfree, hledger⟩ := h.ledger.free hentry
  have hm : m' = h'.server.mngr := by
    rcases served_freeMem hserve with ⟨hneg, _⟩ | ⟨ret, hcall⟩
    · rw [readBack_of_inInt hin.2] at hneg
      omega
    · rw [readBack_of_inInt hin.2] at hcall
      exact congrArg Prod.snd (Except.ok.inj (hfree.symm.trans hcall))
  refine h.turned (hm ▸ hledger) (fun e he => .inl (mem_strike.mp he).1)
    (fun k b hk => entries_strike_other (by simp [Ne.symm hk])) ?_ trivial ?_
  · rw [entries_strike (p := (· = (j, true))) hentry rfl (h.nodup j), hmine, List.erase_cons_head]
    rfl
  · rw [entries_strike_other (by simp)]
    exact hleft

/-- The rollback frees a device of its own run, or leaves it. -/
theorem Accounts.freeing {memid : ℤ} {memids : List ℤ} (h : Accounts jobs m₀ w added)
    (hphase : w.phases j = .freeing (memid :: memids))
    (hturn : turn (jobs j) w.site (.freeing (memid :: memids)) = .ok (phase, h')) :
    ∃ added', Accounts jobs m₀ ⟨h', Function.update w.phases j phase⟩ added' := by
  have hheld := h.held j
  have hleft := h.left j
  rw [hphase] at hheld hleft
  obtain ⟨dev, devs, hmine, rfl, rfl⟩ := List.map_eq_cons_iff.mp hheld.symm
  obtain ⟨⟨answer, h₁⟩, hask, hrest⟩ := bind_eq_ok.mp hturn
  cases hrest
  rcases ask_cases (siteAsk_server hask) with ⟨hserved, hsame, _⟩ | ⟨env, response, _, hserve, _⟩
  · exact ⟨_, h.stranded hmine hleft hserved hsame⟩
  · exact ⟨_, h.freed hmine hleft hserve⟩

/-- Step lemma. -/
theorem worldStep_accounts (h : Accounts jobs m₀ w added) (hstep : worldStep jobs w j = .ok w') :
    ∃ added', Accounts jobs m₀ w' added' := by
  obtain ⟨⟨phase, h'⟩, hturn, rfl⟩ := map_eq_ok.mp hstep
  have hprogress := h.progress j
  have hleft := h.left j
  cases hphase : w.phases j with
  | allocating plan memids =>
    rw [hphase] at hturn hprogress hleft
    cases plan with
    | nil =>
      cases hturn
      obtain ⟨front, hplan, hdevs⟩ := hprogress
      rw [List.append_nil] at hplan
      exact ⟨added, h.passed rfl (by rw [hphase]; rfl) (hplan ▸ hdevs) hleft⟩
    | cons ch plan => exact h.allocating hphase hturn
  | attaching memid ch plan memids =>
    rw [hphase] at hturn
    exact ⟨added, h.attaching hphase hturn⟩
  | freeing memids =>
    rw [hphase] at hturn hleft
    cases memids with
    | nil =>
      cases hturn
      exact ⟨added, h.passed rfl (by rw [hphase]; rfl) trivial hleft⟩
    | cons memid memids => exact h.freeing hphase hturn
  | done memids =>
    rw [hphase] at hturn hprogress hleft
    cases hturn
    exact ⟨added, h.passed rfl (by rw [hphase]) hprogress hleft⟩
  | raised =>
    rw [hphase] at hturn hleft
    cases hturn
    exact ⟨added, h.passed rfl (by rw [hphase]) trivial hleft⟩

/-- Run lemma. -/
theorem run_accounts {schedule : List ι} (h : Accounts jobs m₀ w added)
    (hrun : run (worldStep jobs) w schedule = .ok w') : ∃ added', Accounts jobs m₀ w' added' :=
  run_invariant (I := fun w => ∃ added, Accounts jobs m₀ w added)
    (fun _ _ _ ⟨_, h⟩ => worldStep_accounts h) ⟨added, h⟩ hrun

theorem Accounts.disjoint (h : Accounts jobs m₀ w added) {k : ι} (hjk : j ≠ k)
    (hvm : readBack (jobs j).vmid = readBack (jobs k).vmid) :
    List.Disjoint (w.phases j).held (w.phases k).held := by
  intro memid hj hk
  rw [h.held] at hj hk
  obtain ⟨dev, hdev, rfl⟩ := List.mem_map.mp hj
  obtain ⟨dev', hdev', hidx⟩ := List.mem_map.mp hk
  obtain ⟨⟨i, d⟩, he, rfl, rfl⟩ := mem_entries.mp hdev
  obtain ⟨⟨i', d'⟩, he', rfl, rfl⟩ := mem_entries.mp hdev'
  have hnodup := h.ledger.nodup (readBack (jobs j).vmid)
  rw [entries, List.map_map] at hnodup
  have hsame := List.inj_on_of_nodup_map hnodup (List.mem_filter.mpr ⟨he, by simp [vmOf]⟩)
    (List.mem_filter.mpr ⟨he', decide_eq_true hvm.symm⟩) hidx.symm
  exact hjk (congrArg (fun e => e.1.1) hsame)

/-- Once every run has raised, nothing is left of them, if they have read what they were given and their
rollbacks get through. -/
theorem Accounts.undone (h : Accounts jobs m₀ w added) (hm : Kept m₀)
    (hread : ∀ j, ∀ ch ∈ (jobs j).plan, ch.onAlloc.unread = false)
    (hserved : ∀ j memid, ((jobs j).onFree memid).served ≠ none) (hraised : ∀ j, w.phases j = .raised) :
    w.site.server.mngr.pool = m₀.pool ∧ SameLists m₀ w.site.server.mngr := by
  have hnone : added = [] := List.eq_nil_iff_forall_not_mem.mpr fun e he => by
    obtain ⟨⟨j, b⟩, dev⟩ := e
    have hmem : dev ∈ entries (· = (j, b)) added := mem_entries.mpr ⟨_, he, rfl, rfl⟩
    cases b with
    | true =>
      have hheld := h.held j
      rw [hraised] at hheld
      rw [List.map_eq_nil_iff.mp hheld.symm] at hmem
      cases hmem
    | false =>
      have hleft := h.left j
      rw [hraised] at hleft
      have hkept : dev ∈ (entries (· = (j, false)) added).filter fun dev =>
          ((jobs j).onFree dev.memdevIdx).served.isSome :=
        List.mem_filter.mpr ⟨hmem, Option.isSome_iff_ne_none.mpr (hserved j _)⟩
      rcases hleft with hnil | ⟨_, _, ch, hch, hunread⟩
      · rw [hnil] at hkept
        cases hkept
      · rw [hread j ch hch] at hunread
        cases hunread
  have hlists : SameLists m₀ w.site.server.mngr := ⟨h.ledger.initialized, h.ledger.vmId, fun i hi => by
    rw [h.ledger.attachedDevs i hi, hnone, entries, List.filter_nil, List.map_nil, List.append_nil]⟩
  exact ⟨hlists.pool_eq hm h.ledger.kept h.ledger.frame, hlists⟩

/-- In whatever order the requests of the runs are served, and whatever becomes of them: every VM has the
devices of before and then those that the runs on it have added; each run holds exactly the ones it has added
itself and knows of, one for each channel of its plan in turn as far as it has come, and shares none with
another run on the VM; and what it leaves behind it could not free. -/
theorem concurrentAttach_exact {s : Server} {pool : Pool} {stack : Text} {schedule : List ι}
    (hp : InitialPool pool) (hreach : Reaches serverStep (initialServer pool stack) s)
    (hrun : run (worldStep jobs) (startWorld jobs s) schedule = .ok w) :
    (∃ added : List ((ι × Bool) × MemoryDev),
      (∀ i, (w.site.server.mngr.vms i).initialized = (s.mngr.vms i).initialized) ∧
      (∀ i, (s.mngr.vms i).initialized = true → (w.site.server.mngr.vms i).vmId = (s.mngr.vms i).vmId ∧
        (w.site.server.mngr.vms i).attachedDevs = (s.mngr.vms i).attachedDevs ++
          entries (fun e => vmOf jobs e = (s.mngr.vms i).vmId) added) ∧
      ∀ j, (w.phases j).held = (entries (· = (j, true)) added).map MemoryDev.memdevIdx ∧
        Progress (jobs j).plan (entries (· = (j, true)) added) (w.phases j) ∧
        Left (jobs j) (entries (· = (j, false)) added) (w.phases j)) ∧
    (∀ j k, j ≠ k → readBack (jobs j).vmid = readBack (jobs k).vmid →
      List.Disjoint (w.phases j).held (w.phases k).held) ∧
    ((∀ j, ∀ ch ∈ (jobs j).plan, ch.onAlloc.unread = false) →
      (∀ j memid, ((jobs j).onFree memid).served ≠ none) → (∀ j, w.phases j = .raised) →
      w.site.server.mngr.pool = s.mngr.pool ∧ SameLists s.mngr w.site.server.mngr) := by
  have hm : Kept s.mngr := kept_reachable hp (server_refines hp hreach)
  obtain ⟨added, h⟩ := run_accounts (.start hm) hrun
  exact ⟨⟨added, h.ledger.initialized, fun i hi => ⟨h.ledger.vmId i hi, h.ledger.attachedDevs i hi⟩,
    fun j => ⟨h.held j, h.progress j, h.left j⟩⟩, fun j k => h.disjoint, h.undone hm⟩

/-- Two runs on VM 0, of which the second does not get through to plug its device in. -/
def twoRuns : Bool → Job
  | true => ⟨0, [⟨0, 4, .answered silentEnv, .answered pluggingEnv⟩], freesAnswered⟩
  | false => ⟨0, [⟨0, 4, .answered silentEnv, .lost⟩], freesAnswered⟩

/-- The second run allocates first, and frees after the first has ended. -/
def inTurns : List Bool := [false, true, false, true, true, false, false]

theorem concurrentAttach_exact_twoRuns : ∃ s w added,
    run serverStep (initialServer smallPool []) [(silentEnv, "create-vm vid=0 coreset=[0]".toList)] = .ok s ∧
    run (worldStep twoRuns) (startWorld twoRuns s) inTurns = .ok w ∧
    (w.phases true).held = [1] ∧
    (w.phases true).held = (entries (· = (true, true)) added).map MemoryDev.memdevIdx ∧
    (w.phases false).held = (entries (· = (false, true)) added).map MemoryDev.memdevIdx := by
  have heval : (run serverStep (initialServer smallPool []) [(silentEnv, "create-vm vid=0 coreset=[0]".toList)]
      >>= fun s => (run (worldStep twoRuns) (startWorld twoRuns s) inTurns).map fun w =>
        (w.phases true).held) = .ok [1] := by
    decide +kernel
  obtain ⟨s, hs, hview⟩ := bind_eq_ok.mp heval
  obtain ⟨w, hw, hheld⟩ := map_eq_ok.mp hview
  obtain ⟨⟨added, _, _, hruns⟩, _⟩ := concurrentAttach_exact smallPool_initial ⟨_, hs⟩ hw
  exact ⟨s, w, added, hs, hw, hheld, (hruns true).1, (hruns false).1⟩

/-! ### One run alone -/

/-- Turns of this run only. -/
def Alone (jobs : ι → Job) (j : ι) (w w' : World ι) : Prop :=
  ∃ n, run (worldStep jobs) w (List.replicate n j) = .ok w'

theorem Alone.refl (w : World ι) : Alone jobs j w w := ⟨0, rfl⟩

theorem Alone.head {w₁ : World ι} (hstep : worldStep jobs w j = .ok w₁) (h : Alone jobs j w₁ w') :
    Alone jobs j w w' := by
  obtain ⟨n, hn⟩ := h
  exact ⟨n + 1, (run_cons_ok _ hstep).trans hn⟩

theorem Alone.trans {w₁ : World ι} (h : Alone jobs j w w₁) (h' : Alone jobs j w₁ w') : Alone jobs j w w' := by
  obtain ⟨n, hn⟩ := h
  induction n generalizing w with
  | zero =>
    cases hn
    exact h'
  | succ n ih =>
    obtain ⟨w₂, hstep, hrest⟩ := run_cons_eq_ok.mp hn
    exact .head hstep (ih hrest)

variable {phases : ι → Phase}

/-- A turn of a run that stands in this phase, whatever the others do. -/
theorem Alone.next (hturn : turn (jobs j) h phase = .ok (phase', h'))
    (hrest : Alone jobs j ⟨h', Function.update phases j phase'⟩ w') :
    Alone jobs j ⟨h, Function.update phases j phase⟩ w' := by
  refine .head ?_ hrest
  simp only [worldStep, Function.update_self, hturn, Except.map, Function.update_idem]

variable {job : Job} {memid : ℤ} {ch : Channel} {plan : List Channel} {memids : List ℤ} {st st' : AttachState}
  {result : Raises Unit}

theorem turn_attaching (hmemid : attachMemid job.vmid memid ch st = .ok (result, st')) :
    turn job ⟨st.server, st.plugged⟩ (.attaching memid ch plan st.memids) =
      .ok (afterChannel plan st'.memids result, ⟨st'.server, st'.plugged⟩) := by
  obtain ⟨⟨answer, h⟩, hask, hend⟩ := bind_eq_ok.mp hmemid
  cases hend
  rw [turn, hask, ok_bind]

theorem turn_allocating {server : Server} {answer : Raises Text}
    (hask : ask ch.onAlloc st.server (.allocMem ch.nodeId job.vmid ch.sizeMb) = .ok (answer, server)) :
    turn job ⟨st.server, st.plugged⟩ (.allocating (ch :: plan) st.memids) =
      .ok (afterAlloc ch plan st.memids (answer.bind allocatedMemid), ⟨server, st.plugged⟩) := by
  rw [turn, siteAsk_numbers (allocMem_numbers ch.nodeId job.vmid ch.sizeMb) (by nofun) (by nofun), hask]
  rfl

theorem Alone.channel (hchannel : attachChannel (jobs j).vmid ch st = .ok (result, st')) :
    Alone jobs j ⟨⟨st.server, st.plugged⟩, Function.update phases j (.allocating (ch :: plan) st.memids)⟩
      ⟨⟨st'.server, st'.plugged⟩, Function.update phases j (afterChannel plan st'.memids result)⟩ := by
  obtain ⟨⟨answer, server⟩, hask, hrest⟩ := bind_eq_ok.mp hchannel
  refine .next (turn_allocating hask) ?_
  dsimp only at hrest
  cases hmemid : answer.bind allocatedMemid with
  | error e =>
    rw [hmemid] at hrest
    cases hrest
    exact .refl _
  | ok memid =>
    rw [hmemid] at hrest
    exact .next (turn_attaching hrest) (.refl _)

theorem Alone.channels (hchannels : attachChannels (jobs j).vmid plan st = .ok (result, st')) :
    Alone jobs j ⟨⟨st.server, st.plugged⟩, Function.update phases j (.allocating plan st.memids)⟩
      ⟨⟨st'.server, st'.plugged⟩, Function.update phases j (afterChannel [] st'.memids result)⟩ := by
  induction plan generalizing st with
  | nil =>
    cases hchannels
    exact .refl _
  | cons ch plan ih =>
    obtain ⟨⟨first, st₁⟩, hchannel, hrest⟩ := bind_eq_ok.mp hchannels
    refine (Alone.channel hchannel).trans ?_
    cases first with
    | error e =>
      cases hrest
      exact .refl _
    | ok => exact ih hrest

theorem Alone.freed {s s' : Server} {plugged : List Backing}
    (hfree : freeMemids (jobs j).onFree (jobs j).vmid memids s = .ok s') :
    Alone jobs j ⟨⟨s, plugged⟩, Function.update phases j (.freeing memids)⟩
      ⟨⟨s', plugged⟩, Function.update phases j .raised⟩ := by
  induction memids generalizing s with
  | nil =>
    cases hfree
    exact .next rfl (.refl _)
  | cons memid memids ih =>
    obtain ⟨⟨answer, s₁⟩, hask, hrest⟩ := bind_eq_ok.mp hfree
    refine .next ?_ (ih hrest)
    rw [turn, siteAsk_numbers (freeMem_numbers (jobs j).vmid memid) (by nofun) (by nofun), hask]
    rfl

/-- Where a run stands in the end. -/
def ended (memids : List ℤ) : Raises Unit → Phase
  | .ok () => .done memids
  | .error _ => .raised

/-- The command that no other run comes between. -/
theorem run_handleAttach {s : Server} (hattach : handleAttach (jobs j).onFree (jobs j).vmid plan s = .ok (result, st)) :
    Alone jobs j ⟨⟨s, []⟩, Function.update phases j (.allocating plan [])⟩
      ⟨⟨st.server, st.plugged⟩, Function.update phases j (ended st.memids result)⟩ := by
  obtain ⟨⟨first, st₁⟩, hchannels, hrest⟩ := bind_eq_ok.mp hattach
  refine (Alone.channels hchannels).trans ?_
  cases first with
  | ok =>
    cases hrest
    exact .next rfl (.refl _)
  | error e =>
    obtain ⟨server, hfree, hend⟩ := bind_eq_ok.mp hrest
    cases hend
    exact Alone.freed hfree

end Ramryder.ConcurrentAttach
