import Ramryder.RequestOrder
import Ramryder.Simulation
import Ramryder.TailQueue

/-! The VM manager with its device lists as the source keeps them: `memory_dev` blocks from
`malloc`, threaded through `attached_devs` by the queue macros. It answers every call as the
manager over plain lists does, and never touches a block that it has freed. -/
namespace Ramryder.DeviceQueue
open CInt CMachine CText CoreSet GuestAgents MemoryPool Ownership PerfCounter Simulation TailQueue
  VmManager VmManagerSpec
open RequestOrder (map_bind)

inductive HeapFault
  | fault (f : Fault)
  | dangling
  deriving DecidableEq, Repr

abbrev HeapOutcome := Except HeapFault

/-- The contents of a `memory_dev` block. -/
abbrev DevCell (α : Type) := Cell (Fin maxNumVm) α MemoryDev

/-- The lists `attachedDevs` of `mgr` are not read: the devices are in `memory`. -/
structure QueueManager (α : Type) where
  mgr : Manager
  memory : Memory (Fin maxNumVm) α MemoryDev

variable {α β σ : Type}

def ofManager (x : Outcome β) : HeapOutcome β := x.mapError .fault

def deref (x : Option β) : HeapOutcome β :=
  match x with
  | some b => .ok b
  | none => .error .dangling

namespace QueueManager

/-- `TAILQ_INIT` is on the slot that the new VM takes. -/
def vmMngrInstanceCreate (s : QueueManager α) (vmId : ℤ) (coreSet : Text) :
    HeapOutcome (ℤ × QueueManager α) := do
  let (ret, m) ← ofManager (VmManager.vmMngrInstanceCreate s.mgr vmId coreSet)
  .ok (ret, ⟨m, if ret = 0 then s.memory.init (freeEntry s.mgr) else s.memory⟩)

def vmMngrInstanceDestroy (s : QueueManager α) (vmId : ℤ) :
    HeapOutcome (ℤ × QueueManager α) := do
  let (ret, m) ← ofManager (VmManager.vmMngrInstanceDestroy s.mgr vmId)
  .ok (ret, { s with mgr := m })

def vmMngrInstanceStart (env : StartEnv) (s : QueueManager α) (vmId : ℤ) :
    HeapOutcome (ℤ × QueueManager α) := do
  let (ret, m) ← ofManager (VmManager.vmMngrInstanceStart env s.mgr vmId)
  .ok (ret, { s with mgr := m })

def vmMngrInstanceStop (kernel : PerfKernel) (s : QueueManager α) (vmId : ℤ) :
    HeapOutcome (ℤ × QueueManager α) := do
  let (ret, m) ← ofManager (VmManager.vmMngrInstanceStop kernel s.mgr vmId)
  .ok (ret, { s with mgr := m })

variable [DecidableEq α]

/-- `block` is what `malloc` returns: an address with arbitrary contents, `none` for `NULL`. -/
def vmMngrInstanceAllocMem (s : QueueManager α) (block : Option (α × DevCell α))
    (nodeId vmId sizeMb : ℤ) : HeapOutcome (Option VmMemReq × QueueManager α) :=
  match vmMngrGetInstance s.mgr vmId with
  | none => .ok (none, s)
  | some i =>
    match block with
    | none => .ok (none, s)
    | some (dev, junk) => do
      let memory := s.memory.alloc dev junk
      let (req, pool) ← ofManager (memoryPoolAllocateSegments s.mgr.pool nodeId vmId sizeMb)
      match req with
      | none => do
        let memory ← deref (memory.free dev)
        .ok (none, ⟨{ s.mgr with pool := pool }, memory⟩)
      | some req => do
        let (idx, m) ← ofManager (vmMngrGetNewMemdevIdx { s.mgr with pool := pool } vmId)
        let memory ← deref (memory.setValue dev ⟨idx, req⟩)
        let memory ← deref (memory.insertTail i dev)
        let memDev ← deref (memory.value dev)
        .ok (some (vmMemReqOf memDev), ⟨m, memory⟩)

variable [Fintype α]

/-- `TAILQ_FOREACH` over a VM's devices. -/
def forEachDev (s : QueueManager α) (i : Fin maxNumVm)
    (body : σ → α → MemoryDev → Outcome (σ × Bool)) (st : σ) : HeapOutcome σ := do
  let r ← deref (s.memory.foreach body (Fintype.card α) (s.memory.heads i).first st)
  ofManager r

/-- The loop that stops at the first device with this index. -/
def findMemoryDev (s : QueueManager α) (i : Fin maxNumVm) (memdevIdx : ℤ) :
    HeapOutcome (Option α) :=
  s.forEachDev i (fun found dev v =>
    .ok (if v.memdevIdx = memdevIdx then (some dev, false) else (found, true))) none

def vmMngrInstanceFreeMem (s : QueueManager α) (vmId memdevIdx : ℤ) :
    HeapOutcome (ℤ × QueueManager α) :=
  match vmMngrGetInstance s.mgr vmId with
  | none => .ok (-1, s)
  | some i => do
    let found ← s.findMemoryDev i memdevIdx
    match found with
    | none => .ok (-1, s)
    | some dev => do
      let memDev ← deref (s.memory.value dev)
      let req := memDev.memoryReq
      let (ret, pool) ← ofManager
        (memoryPoolReleaseSegments s.mgr.pool req.nodeId vmId req.offsetMb req.sizeMb)
      if ret < 0 then .ok (-1, { s with mgr := { s.mgr with pool := pool } })
      else do
        let memory ← deref (s.memory.remove i dev)
        let memory ← deref (memory.free dev)
        .ok (0, ⟨{ s.mgr with pool := pool }, memory⟩)

/-- The source returns a pointer into the block; what its callers read through it. -/
def vmMngrInstanceGetMem (s : QueueManager α) (vmId memdevIdx : ℤ) :
    HeapOutcome (Option MemoryRequest) :=
  match vmMngrGetInstance s.mgr vmId with
  | none => .ok none
  | some i => do
    let found ← s.findMemoryDev i memdevIdx
    match found with
    | none => .ok none
    | some dev => do
      let memDev ← deref (s.memory.value dev)
      .ok (some memDev.memoryReq)

def dumpDev (bufferSize : ℕ) (out : Text × ℕ) (memDev : MemoryDev) :
    Outcome ((Text × ℕ) × Bool) := do
  let (buffer, offset) ← appendf bufferSize out.1 out.2 (memdevLine memDev)
  .ok ((buffer, offset), decide (offset < bufferSize))

def dumpVms (s : QueueManager α) (bufferSize : ℕ) :
    List (Fin maxNumVm) → Text → ℕ → HeapOutcome Text
  | [], buffer, _ => .ok buffer
  | i :: is, buffer, offset =>
    if bufferSize ≤ offset then .ok buffer
    else if !(s.mgr.vms i).initialized then dumpVms s bufferSize is buffer offset
    else do
      let (buffer, offset) ← ofManager (appendf bufferSize buffer offset (vmLine (s.mgr.vms i)))
      if bufferSize ≤ offset then .ok buffer
      else do
        let (buffer, offset) ← s.forEachDev i (fun out _ dev => dumpDev bufferSize out dev)
          (buffer, offset)
        dumpVms s bufferSize is buffer offset

def vmMngrDumpState (s : QueueManager α) (bufferSize : ℕ) : HeapOutcome Text := do
  let (buffer, offset) ← ofManager
    (appendf bufferSize [] 0 (sprintf "VM Count: %d\n" [.int s.mgr.count]))
  if bufferSize ≤ offset then .ok buffer
  else if s.mgr.count = 0 then do
    let (buffer, _) ← ofManager (appendf bufferSize buffer offset (sprintf "No VM created.\n" []))
    .ok buffer
  else s.dumpVms bufferSize (List.finRange maxNumVm) buffer offset

end QueueManager

/-- A call, with what `malloc` would answer during it. -/
structure HeapOp (α : Type) where
  op : Op
  block : Option (α × DevCell α)

def step [DecidableEq α] [Fintype α] (s : QueueManager α) (a : HeapOp α) : HeapOutcome (QueueManager α) :=
  match a.op with
  | .create vmId coreSet => (s.vmMngrInstanceCreate vmId coreSet).map Prod.snd
  | .destroy vmId => (s.vmMngrInstanceDestroy vmId).map Prod.snd
  | .start vmId env => (s.vmMngrInstanceStart env vmId).map Prod.snd
  | .stop vmId kernel => (s.vmMngrInstanceStop kernel vmId).map Prod.snd
  | .allocMem nodeId vmId sizeMb => (s.vmMngrInstanceAllocMem a.block nodeId vmId sizeMb).map Prod.snd
  | .freeMem vmId memdevIdx => (s.vmMngrInstanceFreeMem vmId memdevIdx).map Prod.snd

/-- What `malloc` promises: a block that is not in use. -/
def FreshBlock (s : QueueManager α) (a : HeapOp α) : Prop :=
  ∀ dev junk, a.block = some (dev, junk) → ¬ s.memory.Allocated dev

/-- The call on plain lists; an allocation for which `malloc` fails changes nothing. -/
def HeapOp.call (a : HeapOp α) : Option Op :=
  match a.op, a.block with
  | .allocMem _ _ _, none => none
  | op, _ => some op

/-- The process after `memory_pool_init`: a zeroed table of VMs, no block allocated. -/
def initialQueue (α : Type) (pool : Pool) : QueueManager α where
  mgr := initialManager pool
  memory := ⟨fun _ => ⟨none, .null⟩, fun _ => none⟩

/-! ### The calls that leave the device lists alone -/

def withDevs (vm : VmInstance) (devs : List MemoryDev) : VmInstance :=
  { vm with attachedDevs := devs }

/-- The manager with these lists in its slots. -/
def withLists (m : Manager) (lists : Fin maxNumVm → List MemoryDev) : Manager :=
  { m with vms := fun i => withDevs (m.vms i) (lists i) }

section Lists

variable {m : Manager} {lists : Fin maxNumVm → List MemoryDev} {devs : List MemoryDev}
  {kernel : PerfKernel} {vmId : ℤ}

theorem vmMngrGetInstance_withLists :
    vmMngrGetInstance (withLists m lists) vmId = vmMngrGetInstance m vmId := rfl

theorem setVm_withLists_update (i : Fin maxNumVm) (vm : VmInstance) (devs : List MemoryDev) :
    (withLists m lists).setVm i (withDevs vm devs) =
      withLists (m.setVm i vm) (Function.update lists i devs) := by
  refine congrArg (Manager.mk m.count · m.pool m.agents) (funext fun j => ?_)
  by_cases hj : j = i
  · subst hj
    simp [withLists, Manager.setVm]
  · simp [withLists, Manager.setVm, hj]

theorem setVm_withLists (i : Fin maxNumVm) (vm : VmInstance) :
    (withLists m lists).setVm i (withDevs vm (lists i)) = withLists (m.setVm i vm) lists := by
  rw [setVm_withLists_update, Function.update_eq_self]

theorem setVm_self_withLists (i : Fin maxNumVm) (devs : List MemoryDev) :
    (withLists m lists).setVm i { (withLists m lists).vms i with attachedDevs := devs } =
      withLists m (Function.update lists i devs) := by
  have hself : m.setVm i (m.vms i) = m :=
    congrArg (Manager.mk m.count · m.pool m.agents) (Function.update_eq_self i m.vms)
  have hset := @setVm_withLists_update m lists i (m.vms i) devs
  rwa [hself] at hset

theorem bind_map {γ δ : Type} (x : Outcome β) (g : β → γ) (f : γ → Outcome δ) :
    x.map g >>= f = x >>= fun b => f (g b) := by
  cases x <;> rfl

theorem setupEvents_withDevs {coreId : ℤ} (js : List PerfEventType) (leaderFd : ℤ)
    (vm : VmInstance) : setupEvents kernel coreId js leaderFd (withDevs vm devs) =
      (setupEvents kernel coreId js leaderFd vm).map (withDevs · devs) := by
  induction js generalizing leaderFd vm with
  | nil => rfl
  | cons j js ih =>
    simp only [setupEvents, map_bind]
    refine bind_congr fun array => bind_congr fun _ => ?_
    exact ih _ { vm with perfEventFds := Function.update vm.perfEventFds j array }

theorem vmPerfCounterSetup_withDevs (vm : VmInstance) :
    vmPerfCounterSetup kernel (withDevs vm devs) =
      (vmPerfCounterSetup kernel vm).map (withDevs · devs) := by
  simp only [vmPerfCounterSetup, map_bind]
  refine bind_congr fun _ => ?_
  refine vmMngrForEachCore_map (f := (withDevs · devs)) (fun vm core => ?_) vm.coreSet
    { vm with
      perfEventFds := fun _ => .alloc vm.numCores.toNat
      cumPerfEventCounts := fun _ => 0
      deltaPerfEventCounts := fun _ => 0
      coreIndex := 0 }
  simp only [vmPerfCounterSetupCore, map_bind, setupEvents_withDevs, bind_map]
  rfl

theorem teardownEvents_withDevs (js : List PerfEventType) (vm : VmInstance) :
    teardownEvents kernel js (withDevs vm devs) =
      (teardownEvents kernel js vm).map (withDevs · devs) := by
  induction js generalizing vm with
  | nil => rfl
  | cons j js ih =>
    simp only [teardownEvents, map_bind]
    refine bind_congr fun r => ?_
    obtain ⟨sum, closed⟩ := r
    refine bind_congr fun array => ?_
    let cum := vm.cumPerfEventCounts j
    let newCum := if sum < cum then cum else sum
    exact ih { vm with
      perfEventFds := Function.update vm.perfEventFds j array
      cumPerfEventCounts := Function.update vm.cumPerfEventCounts j newCum
      deltaPerfEventCounts := Function.update vm.deltaPerfEventCounts j (sub64 newCum cum) }

theorem setVm_initialized {i j : Fin maxNumVm} {vm : VmInstance}
    (h : ((m.setVm i vm).vms j).initialized = true)
    (hi : vm.initialized = true → (m.vms i).initialized = true) : (m.vms j).initialized = true := by
  rw [setVm_vms] at h
  split_ifs at h with hj
  · rw [hj]
    exact hi h
  · exact h

/-- The result of a call with the same lists in the slots. -/
def answerWith (lists : Fin maxNumVm → List MemoryDev) (r : ℤ × Manager) : ℤ × Manager :=
  (r.1, withLists r.2 lists)

theorem vmMngrGetNewMemdevIdx_withLists :
    vmMngrGetNewMemdevIdx (withLists m lists) vmId =
      (vmMngrGetNewMemdevIdx m vmId).map (answerWith lists) := by
  unfold vmMngrGetNewMemdevIdx
  rw [vmMngrGetInstance_withLists]
  cases vmMngrGetInstance m vmId with
  | none => rfl
  | some i =>
    dsimp only
    rw [map_bind]
    refine bind_congr fun counter => ?_
    have hset := @setVm_withLists m lists i
      { m.vms i with memdevCounter := counter }
    exact congrArg (fun t : Manager => Except.ok ((m.vms i).memdevCounter, t)) hset

theorem vmMngrGetNewMemdevIdx_initialized {idx : ℤ} {m' : Manager} {j : Fin maxNumVm}
    (h : vmMngrGetNewMemdevIdx m vmId = .ok (idx, m')) (hj : (m'.vms j).initialized = true) :
    (m.vms j).initialized = true := by
  unfold vmMngrGetNewMemdevIdx at h
  cases hget : vmMngrGetInstance m vmId with
  | none =>
    rw [hget] at h
    cases h
    exact hj
  | some i =>
    rw [hget] at h
    obtain ⟨counter, _, h⟩ := bind_eq_ok.mp h
    cases h
    exact setVm_initialized hj fun hi => hi

theorem vmMngrInstanceCreate_initialized {coreSet : Text} {ret : ℤ} {m' : Manager}
    {j : Fin maxNumVm} (h : VmManager.vmMngrInstanceCreate m vmId coreSet = .ok (ret, m'))
    (hj : (m'.vms j).initialized = true) :
    (m.vms j).initialized = true ∨ (ret = 0 ∧ j = freeEntry m) := by
  unfold VmManager.vmMngrInstanceCreate at h
  split at h
  · cases h
    exact .inl hj
  split at h
  · cases h
    exact .inl hj
  obtain ⟨_, _, h⟩ := bind_eq_ok.mp h
  obtain ⟨vm, _, h⟩ := bind_eq_ok.mp h
  cases h
  by_cases hi : j = freeEntry m
  · exact .inr ⟨rfl, hi⟩
  · refine .inl ?_
    change ((m.setVm (freeEntry m) _).vms j).initialized = true at hj
    rwa [setVm_vms, if_neg hi] at hj

theorem vmMngrInstanceStart_withLists (env : StartEnv) :
    VmManager.vmMngrInstanceStart env (withLists m lists) vmId =
      (VmManager.vmMngrInstanceStart env m vmId).map (answerWith lists) := by
  unfold VmManager.vmMngrInstanceStart
  rw [vmMngrGetInstance_withLists]
  cases vmMngrGetInstance m vmId with
  | none => rfl
  | some i =>
    dsimp only
    have hslot : (withLists m lists).vms i = withDevs (m.vms i) (lists i) := rfl
    by_cases hrun : (m.vms i).running = true
    · rw [if_pos hrun, if_pos (by rw [hslot]; exact hrun)]
      rfl
    · rw [if_neg hrun, if_neg (by rw [hslot]; exact hrun), hslot, vmPerfCounterSetup_withDevs]
      simp only [bind_map, map_bind]
      refine bind_congr fun _ => bind_congr fun vm => bind_congr fun r => ?_
      obtain ⟨ret, agents⟩ := r
      dsimp only
      by_cases hret : ret < 0
      · rw [if_pos hret, if_pos hret, vmPerfCounterTeardown, teardownEvents_withDevs, bind_map,
          map_bind]
        refine bind_congr fun vm => ?_
        rw [setVm_withLists]
        rfl
      · rw [if_neg hret, if_neg hret]
        have hset := @setVm_withLists m lists i { vm with running := true }
        exact congrArg (fun t : Manager => Except.ok ((0 : ℤ), { t with agents := agents })) hset

theorem vmMngrInstanceDestroy_withLists :
    VmManager.vmMngrInstanceDestroy (withLists m lists) vmId =
      (VmManager.vmMngrInstanceDestroy m vmId).map (answerWith lists) := by
  unfold VmManager.vmMngrInstanceDestroy
  rw [vmMngrGetInstance_withLists]
  cases vmMngrGetInstance m vmId with
  | none => rfl
  | some i =>
    dsimp only
    have hslot : (withLists m lists).vms i = withDevs (m.vms i) (lists i) := rfl
    by_cases hrun : (m.vms i).running = true
    · rw [if_pos hrun, if_pos (by rw [hslot]; exact hrun)]
      rfl
    · rw [if_neg hrun, if_neg (by rw [hslot]; exact hrun), map_bind]
      refine bind_congr fun pool => ?_
      have hset := @setVm_withLists m lists i
        { m.vms i with coreSet := [], initialized := false }
      exact congrArg
        (fun t : Manager => Except.ok ((0 : ℤ), { t with pool := pool, count := m.count - 1 })) hset

theorem vmMngrInstanceStop_withLists :
    VmManager.vmMngrInstanceStop kernel (withLists m lists) vmId =
      (VmManager.vmMngrInstanceStop kernel m vmId).map (answerWith lists) := by
  unfold VmManager.vmMngrInstanceStop
  rw [vmMngrGetInstance_withLists]
  cases vmMngrGetInstance m vmId with
  | none => rfl
  | some i =>
    dsimp only
    have hslot : (withLists m lists).vms i = withDevs (m.vms i) (lists i) := rfl
    by_cases hrun : (m.vms i).running = true
    · rw [if_neg (by rw [hslot]; simpa [withDevs] using hrun), if_neg (by simpa using hrun)]
      have hstopped : { (withLists m lists).vms i with running := false } =
        withDevs { m.vms i with running := false } (lists i) := rfl
      rw [hstopped, vmPerfCounterTeardown, teardownEvents_withDevs, map_bind]
      refine bind_congr fun agents => ?_
      rw [bind_map, map_bind]
      refine bind_congr fun vm => ?_
      rw [setVm_withLists]
      rfl
    · rw [if_pos (by rw [hslot]; simpa [withDevs] using hrun), if_pos (by simpa using hrun)]
      rfl

/-- The new VM's list is empty, whatever the slot held. -/
theorem vmMngrInstanceCreate_withLists (coreSet : Text) :
    VmManager.vmMngrInstanceCreate (withLists m lists) vmId coreSet =
      (VmManager.vmMngrInstanceCreate m vmId coreSet).map fun r =>
        answerWith (if r.1 = 0 then Function.update lists (freeEntry m) [] else lists) r := by
  have hfree : freeEntry (withLists m lists) = freeEntry m := rfl
  have hexit : vmMngrCheckExit (withLists m lists) vmId = vmMngrCheckExit m vmId := rfl
  have hcount : (withLists m lists).count = m.count := rfl
  unfold VmManager.vmMngrInstanceCreate
  rw [hexit, hcount, hfree]
  by_cases hfull : (maxNumVm : ℤ) ≤ m.count
  · rw [if_pos hfull, if_pos hfull]
    rfl
  by_cases hex : vmMngrCheckExit m vmId = true
  · rw [if_neg hfull, if_neg hfull, if_pos hex, if_pos hex]
    rfl
  rw [if_neg hfull, if_neg hfull, if_neg hex, if_neg hex, map_bind]
  refine bind_congr fun _ => ?_
  have hstep : ∀ vm core, vmNumCoreUpdate (withDevs vm (lists (freeEntry m))) core =
      (vmNumCoreUpdate vm core).map (withDevs · (lists (freeEntry m))) := by
    intro vm core
    simp only [vmNumCoreUpdate, map_bind]
    rfl
  have hcores := vmMngrForEachCore_map hstep
    (coreSet.take (coreSetLen - 1))
    { m.vms (freeEntry m) with
      vmId := vmId
      numCores := 0
      memdevCounter := 0
      coreSet := coreSet.take (coreSetLen - 1) }
  refine (congrArg (· >>= _) hcores).trans ?_
  rw [bind_map, map_bind]
  refine bind_congr fun vm => ?_
  have hset := @setVm_withLists_update m lists (freeEntry m)
    { vm with attachedDevs := [], initialized := true } []
  exact congrArg (fun t : Manager => Except.ok ((0 : ℤ), { t with count := m.count + 1 })) hset

end Lists

/-! ### What the blocks hold -/

/-- The blocks of the queues `qs` hold the lists of `m`, and those of `lost` are in no queue any
more. A queue is live once a VM was created in its slot. -/
structure Stores (s : QueueManager α) (live : Set (Fin maxNumVm)) (qs : Fin maxNumVm → List α)
    (lost : List α) (m : Manager) : Prop where
  queues : Queues s.memory live qs
  created : ∀ i, (s.mgr.vms i).initialized = true → i ∈ live
  lists : m = withLists s.mgr fun i => (qs i).filterMap s.memory.value
  nodup : lost.Nodup
  outside : ∀ a ∈ lost, ∀ i, a ∉ qs i
  allocated : ∀ a, s.memory.Allocated a ↔ a ∈ lost ∨ ∃ i, a ∈ qs i

/-- The devices that a call drops with their blocks still allocated: those in the slot that a new
VM takes. -/
def dropped (m : Manager) : Op → ℕ
  | .create vmId coreSet =>
    if (VmManager.vmMngrInstanceCreate m vmId coreSet).toOption.map Prod.fst = some 0 then
      (m.vms (freeEntry m)).attachedDevs.length
    else 0
  | _ => 0

/-- The manager holds the lists of `m`, and `n` blocks are in no queue any more. -/
def Refines (s : QueueManager α) (n : ℕ) (m : Manager) : Prop :=
  ∃ live qs lost, Stores s live qs lost m ∧ lost.length = n

def SameFault (e : HeapFault) (f : Fault) : Prop := e = .fault f

/-- Both managers answer alike and end related, or stop with one fault. -/
def Agrees (R : σ → Manager → Prop) (x : HeapOutcome (β × σ)) (y : Outcome (β × Manager)) : Prop :=
  Both SameFault (fun p q => p.1 = q.1 ∧ R p.2 q.2) x y

section Agreement

variable {γ : Type} {R : σ → Manager → Prop}

theorem ofManager_bind (x : Outcome γ) (f : γ → Outcome β) :
    ofManager (x >>= f) = ofManager x >>= fun c => ofManager (f c) := by
  cases x <;> rfl

theorem Agrees.ok {r : β} {s : σ} {m : Manager} (h : R s m) : Agrees R (.ok (r, s)) (.ok (r, m)) :=
  Both.ok ⟨rfl, h⟩

theorem Agrees.bind {x : Outcome γ} {f : γ → HeapOutcome (β × σ)} {g : γ → Outcome (β × Manager)}
    (h : ∀ c, x = .ok c → Agrees R (f c) (g c)) : Agrees R (ofManager x >>= f) (x >>= g) := by
  cases x with
  | error e => exact .error rfl
  | ok c => exact h c rfl

/-- The manager's own part of a call, and what the blocks make of it. -/
theorem Agrees.of_map {x : Outcome (β × Manager)} {f : β × Manager → HeapOutcome (β × σ)}
    {g : β × Manager → Manager}
    (h : ∀ r m, x = .ok (r, m) → ∃ s, f (r, m) = .ok (r, s) ∧ R s (g (r, m))) :
    Agrees R (ofManager x >>= f) (x.map fun r => (r.1, g r)) := by
  cases x with
  | error e => exact .error rfl
  | ok r =>
    obtain ⟨s, hs, hR⟩ := h r.1 r.2 rfl
    change Agrees R (f r) _
    rw [hs]
    exact .ok hR

theorem Agrees.answer {x : HeapOutcome (β × σ)} {y : Outcome (β × Manager)} (h : Agrees R x y) :
    x.map Prod.fst = ofManager (y.map Prod.fst) := by
  cases h with
  | ok h => exact congrArg Except.ok h.1
  | error h => exact congrArg Except.error h

theorem Agrees.state {x : HeapOutcome (β × σ)} {y : Outcome (β × Manager)} (h : Agrees R x y) :
    Both SameFault R (x.map Prod.snd) (y.map Prod.snd) :=
  Both.map h fun _ _ h => h.2

end Agreement

section Loops

variable {memory : Memory (Fin maxNumVm) α MemoryDev} {memdevIdx : ℤ}

/-- The block holds a device with this index. -/
def holdsIdx (memory : Memory (Fin maxNumVm) α MemoryDev) (memdevIdx : ℤ) (a : α) : Bool :=
  (memory.value a).any (·.memdevIdx == memdevIdx)

theorem foreachList_find (as : List α) :
    foreachList (ε := Fault) (fun found dev (v : MemoryDev) =>
        .ok (if v.memdevIdx = memdevIdx then (some dev, false) else (found, true)))
      (memory.elements as) none = .ok (as.find? (holdsIdx memory memdevIdx)) := by
  induction as with
  | nil => rfl
  | cons a as ih =>
    cases hv : memory.value a with
    | none =>
      have hp : holdsIdx memory memdevIdx a = false := by simp [holdsIdx, hv]
      rw [List.find?_cons_of_neg (by simp [hp]), ← ih]
      simp [Memory.elements, hv]
    | some v =>
      have helems : memory.elements (a :: as) = (a, v) :: memory.elements as := by
        simp [Memory.elements, hv]
      rw [helems, foreachList]
      by_cases hidx : v.memdevIdx = memdevIdx
      · rw [if_pos hidx, List.find?_cons_of_pos (by simp [holdsIdx, hv, hidx])]
      · rw [if_neg hidx, List.find?_cons_of_neg (by simp [holdsIdx, hv, hidx])]
        exact ih

theorem find?_filterMap_value (as : List α) :
    (as.filterMap memory.value).find? (fun dev => dev.memdevIdx == memdevIdx) =
      (as.find? (holdsIdx memory memdevIdx)).bind memory.value := by
  induction as with
  | nil => rfl
  | cons a as ih =>
    cases hv : memory.value a with
    | none =>
      rw [List.filterMap_cons_none hv, ih, List.find?_cons_of_neg (by simp [holdsIdx, hv])]
    | some v =>
      rw [List.filterMap_cons_some hv]
      by_cases hidx : v.memdevIdx = memdevIdx
      · rw [List.find?_cons_of_pos (by simp [hidx]),
          List.find?_cons_of_pos (by simp [holdsIdx, hv, hidx]), Option.bind_some, hv]
      · rw [List.find?_cons_of_neg (by simp [hidx]),
          List.find?_cons_of_neg (by simp [holdsIdx, hv, hidx]), ih]

/-- Taking the block out of the queue takes the device out of the list. -/
theorem eraseP_filterMap_value [DecidableEq α] {as : List α} {a : α}
    (h : as.find? (holdsIdx memory memdevIdx) = some a) :
    (as.filterMap memory.value).eraseP (fun dev => dev.memdevIdx == memdevIdx) =
      (as.erase a).filterMap memory.value := by
  induction as with
  | nil => cases h
  | cons b as ih =>
    by_cases hb : holdsIdx memory memdevIdx b = true
    · rw [List.find?_cons_of_pos hb] at h
      obtain rfl := Option.some.inj h
      cases hv : memory.value b with
      | none => simp [holdsIdx, hv] at hb
      | some v =>
        rw [List.filterMap_cons_some hv, List.erase_cons_head]
        exact List.eraseP_cons_of_pos (by simpa [holdsIdx, hv] using hb)
    · rw [List.find?_cons_of_neg hb] at h
      have hne : b ≠ a := by
        rintro rfl
        exact hb (List.find?_some h)
      rw [List.erase_cons_tail (by simpa using hne)]
      cases hv : memory.value b with
      | none => rw [List.filterMap_cons_none hv, List.filterMap_cons_none hv, ih h]
      | some v =>
        rw [List.filterMap_cons_some hv, List.filterMap_cons_some hv, ← ih h]
        exact List.eraseP_cons_of_neg (by simpa [holdsIdx, hv] using hb)

theorem foreachList_dumpDevs (bufferSize : ℕ) (as : List α) (out : Text × ℕ) :
    foreachList (fun out _ dev => QueueManager.dumpDev bufferSize out dev)
        (memory.elements as) out =
      VmManager.dumpDevs bufferSize (as.filterMap memory.value) out.1 out.2 := by
  induction as generalizing out with
  | nil => rfl
  | cons a as ih =>
    cases hv : memory.value a with
    | none =>
      rw [List.filterMap_cons_none hv, ← ih]
      simp [Memory.elements, hv]
    | some v =>
      have helems : memory.elements (a :: as) = (a, v) :: memory.elements as := by
        simp [Memory.elements, hv]
      rw [List.filterMap_cons_some hv, helems, foreachList, VmManager.dumpDevs,
        QueueManager.dumpDev]
      cases appendf bufferSize out.1 out.2 (memdevLine v) with
      | error e => rfl
      | ok r =>
        obtain ⟨buffer, offset⟩ := r
        simp only [ok_bind]
        by_cases hfull : bufferSize ≤ offset
        · rw [if_pos hfull, decide_eq_false (by omega)]
        · rw [if_neg hfull, decide_eq_true (by omega)]
          exact ih (buffer, offset)

end Loops

namespace Stores

variable {s : QueueManager α} {live : Set (Fin maxNumVm)} {qs : Fin maxNumVm → List α}
  {lost : List α} {m : Manager} {i : Fin maxNumVm} {vmId memdevIdx : ℤ}

theorem getInstance (h : Stores s live qs lost m) (vmId : ℤ) :
    vmMngrGetInstance m vmId = vmMngrGetInstance s.mgr vmId := by
  rw [h.lists]
  rfl

theorem attachedDevs (h : Stores s live qs lost m) (i : Fin maxNumVm) :
    (m.vms i).attachedDevs = (qs i).filterMap s.memory.value := by
  rw [h.lists]
  rfl

theorem length_attachedDevs (h : Stores s live qs lost m) (i : Fin maxNumVm) :
    (m.vms i).attachedDevs.length = (qs i).length := by
  rw [h.attachedDevs]
  exact List.filterMap_length_eq_length.mpr fun a ha =>
    Memory.allocated_iff_value.mp (h.queues.allocated ha)

/-- The calls on which only the table of VMs, the pool and the agents change. -/
theorem keep (h : Stores s live qs lost m) {mgr : Manager}
    (hinit : ∀ i, (mgr.vms i).initialized = true → (s.mgr.vms i).initialized = true) :
    Stores { s with mgr := mgr } live qs lost
      (withLists mgr fun i => (qs i).filterMap s.memory.value) :=
  ⟨h.queues, fun i hi => h.created i (hinit i hi), rfl, h.nodup, h.outside, h.allocated⟩

theorem vmMngrInstanceDestroy (h : Stores s live qs lost m) (vmId : ℤ) :
    Agrees (fun s m => Refines s lost.length m) (s.vmMngrInstanceDestroy vmId)
      (VmManager.vmMngrInstanceDestroy m vmId) := by
  rw [h.lists, vmMngrInstanceDestroy_withLists]
  refine Agrees.of_map (g := fun r => withLists r.2 _) fun ret mgr hm => ⟨_, rfl, ?_⟩
  refine ⟨live, qs, lost, h.keep fun j hj => ?_, rfl⟩
  rcases vmMngrInstanceDestroy_ok hm with ⟨-, rfl⟩ | ⟨-, i, hget, -, rfl⟩
  · exact hj
  · exact setVm_initialized hj fun _ => (vmMngrGetInstance_eq_some hget).1

theorem vmMngrInstanceStart (h : Stores s live qs lost m) (env : StartEnv) (vmId : ℤ) :
    Agrees (fun s m => Refines s lost.length m) (s.vmMngrInstanceStart env vmId)
      (VmManager.vmMngrInstanceStart env m vmId) := by
  rw [h.lists, vmMngrInstanceStart_withLists]
  refine Agrees.of_map (g := fun r => withLists r.2 _) fun ret mgr hm => ⟨_, rfl, ?_⟩
  refine ⟨live, qs, lost, h.keep fun j hj => ?_, rfl⟩
  rcases vmMngrInstanceStart_ok hm with
    ⟨-, rfl⟩ | ⟨-, rfl⟩ | ⟨i, vm, agents, hget, -, -, -, ⟨-, vm', -, rfl⟩ | ⟨-, rfl⟩⟩
  · exact hj
  · exact hj
  · exact setVm_initialized hj fun _ => (vmMngrGetInstance_eq_some hget).1
  · exact setVm_initialized hj fun _ => (vmMngrGetInstance_eq_some hget).1

theorem vmMngrInstanceStop (h : Stores s live qs lost m) (kernel : PerfKernel) (vmId : ℤ) :
    Agrees (fun s m => Refines s lost.length m) (s.vmMngrInstanceStop kernel vmId)
      (VmManager.vmMngrInstanceStop kernel m vmId) := by
  rw [h.lists, vmMngrInstanceStop_withLists]
  refine Agrees.of_map (g := fun r => withLists r.2 _) fun ret mgr hm => ⟨_, rfl, ?_⟩
  refine ⟨live, qs, lost, h.keep fun j hj => ?_, rfl⟩
  rcases vmMngrInstanceStop_ok hm with ⟨-, rfl⟩ | ⟨-, rfl⟩ | ⟨-, i, vm, agents, hget, -, -, -, rfl⟩
  · exact hj
  · exact hj
  · exact setVm_initialized hj fun _ => (vmMngrGetInstance_eq_some hget).1

section Loops

variable [Fintype α]

theorem forEachDev (h : Stores s live qs lost m) (i : Fin maxNumVm)
    (body : σ → α → MemoryDev → Outcome (σ × Bool)) (st : σ) :
    s.forEachDev i body st = ofManager (foreachList body (s.memory.elements (qs i)) st) := by
  rw [QueueManager.forEachDev, h.queues.foreach i st]
  rfl

theorem findMemoryDev (h : Stores s live qs lost m) (i : Fin maxNumVm) (memdevIdx : ℤ) :
    s.findMemoryDev i memdevIdx = .ok ((qs i).find? (holdsIdx s.memory memdevIdx)) := by
  rw [QueueManager.findMemoryDev, h.forEachDev, foreachList_find]
  rfl

theorem vmMngrInstanceGetMem (h : Stores s live qs lost m) (vmId memdevIdx : ℤ) :
    s.vmMngrInstanceGetMem vmId memdevIdx =
      .ok (VmManager.vmMngrInstanceGetMem m vmId memdevIdx) := by
  rw [QueueManager.vmMngrInstanceGetMem, VmManager.vmMngrInstanceGetMem, h.getInstance]
  cases vmMngrGetInstance s.mgr vmId with
  | none => rfl
  | some i =>
    simp only [Option.bind_eq_bind, Option.bind_some]
    rw [h.findMemoryDev, ok_bind, VmManager.findMemoryDev, h.attachedDevs, find?_filterMap_value]
    cases hfind : (qs i).find? (holdsIdx s.memory memdevIdx) with
    | none => rfl
    | some a =>
      have ha := h.queues.allocated (List.mem_of_find?_eq_some hfind)
      obtain ⟨v, hv⟩ := Option.isSome_iff_exists.mp (Memory.allocated_iff_value.mp ha)
      simp only [hv, deref, ok_bind, Option.bind_some]

theorem dumpVms (h : Stores s live qs lost m) (bufferSize : ℕ) (is : List (Fin maxNumVm))
    (buffer : Text) (offset : ℕ) :
    s.dumpVms bufferSize is buffer offset =
      ofManager (VmManager.dumpVms m bufferSize is buffer offset) := by
  induction is generalizing buffer offset with
  | nil => rfl
  | cons i is ih =>
    have hinit : (m.vms i).initialized = (s.mgr.vms i).initialized := by
      rw [h.lists]
      rfl
    have hline : vmLine (m.vms i) = vmLine (s.mgr.vms i) := by
      rw [h.lists]
      rfl
    rw [QueueManager.dumpVms, VmManager.dumpVms, hinit, hline]
    by_cases hfull : bufferSize ≤ offset
    · rw [if_pos hfull, if_pos hfull]
      rfl
    by_cases hfree : (!(s.mgr.vms i).initialized) = true
    · rw [if_neg hfull, if_neg hfull, if_pos hfree, if_pos hfree]
      exact ih buffer offset
    rw [if_neg hfull, if_neg hfull, if_neg hfree, if_neg hfree, ofManager_bind]
    refine bind_congr fun (out : Text × ℕ) => ?_
    obtain ⟨buffer, offset⟩ := out
    dsimp only
    by_cases hfull : bufferSize ≤ offset
    · rw [if_pos hfull, if_pos hfull]
      rfl
    rw [if_neg hfull, if_neg hfull, ofManager_bind, h.forEachDev, foreachList_dumpDevs,
      h.attachedDevs]
    exact bind_congr fun (out : Text × ℕ) => ih out.1 out.2

theorem vmMngrDumpState (h : Stores s live qs lost m) (bufferSize : ℕ) :
    s.vmMngrDumpState bufferSize = ofManager (VmManager.vmMngrDumpState m bufferSize) := by
  have hcount : m.count = s.mgr.count := by
    rw [h.lists]
    rfl
  rw [QueueManager.vmMngrDumpState, VmManager.vmMngrDumpState, ofManager_bind, hcount]
  refine bind_congr fun (out : Text × ℕ) => ?_
  obtain ⟨buffer, offset⟩ := out
  dsimp only
  by_cases hfull : bufferSize ≤ offset
  · rw [if_pos hfull, if_pos hfull]
    rfl
  rw [if_neg hfull, if_neg hfull]
  by_cases hzero : s.mgr.count = 0
  · rw [if_pos hzero, if_pos hzero, ofManager_bind]
    rfl
  · rw [if_neg hzero, if_neg hzero]
    exact h.dumpVms bufferSize _ buffer offset

end Loops

variable [DecidableEq α]

/-- A new VM in slot `i`: what the slot's queue held is lost. -/
theorem init (h : Stores s live qs lost m) (i : Fin maxNumVm) {mgr : Manager}
    (hinit : ∀ j, (mgr.vms j).initialized = true → (s.mgr.vms j).initialized = true ∨ j = i) :
    Stores ⟨mgr, s.memory.init i⟩ (insert i live) (Function.update qs i []) (lost ++ qs i)
      (withLists mgr (Function.update (fun j => (qs j).filterMap s.memory.value) i [])) := by
  refine ⟨h.queues.init i, fun j hj => ?_, ?_, ?_, fun a ha j haj => ?_, fun a => ?_⟩
  · rcases hinit j hj with hj | rfl
    · exact Set.mem_insert_of_mem _ (h.created j hj)
    · exact Set.mem_insert _ _
  · refine congrArg (withLists mgr) (funext fun j => ?_)
    by_cases hj : j = i
    · subst hj
      simp
    · simp only [Function.update_of_ne hj]
      rfl
  · refine List.nodup_append.mpr ⟨h.nodup, h.queues.nodup i, fun a ha b hb hab => ?_⟩
    exact h.outside a ha i (hab ▸ hb)
  · by_cases hj : j = i
    · subst hj
      simp at haj
    · rw [Function.update_of_ne hj] at haj
      rcases List.mem_append.mp ha with ha | ha
      · exact h.outside a ha j haj
      · exact hj (h.queues.disjoint j i a haj ha)
  · change s.memory.Allocated a ↔ _
    rw [h.allocated, List.mem_append, or_assoc]
    refine or_congr_right ⟨fun ⟨j, hj⟩ => ?_, fun ha => ?_⟩
    · by_cases hji : j = i
      · exact .inl (hji ▸ hj)
      · exact .inr ⟨j, by rwa [Function.update_of_ne hji]⟩
    · rcases ha with ha | ⟨j, hj⟩
      · exact ⟨i, ha⟩
      · by_cases hji : j = i
        · subst hji
          simp at hj
        · exact ⟨j, by rwa [Function.update_of_ne hji] at hj⟩

theorem vmMngrInstanceCreate (h : Stores s live qs lost m) (vmId : ℤ) (coreSet : Text) :
    Agrees (fun s' m' => Refines s' (lost.length + dropped m (.create vmId coreSet)) m')
      (s.vmMngrInstanceCreate vmId coreSet) (VmManager.vmMngrInstanceCreate m vmId coreSet) := by
  have hlists := h.lists
  have hlen := h.length_attachedDevs (freeEntry s.mgr)
  have hentry : freeEntry m = freeEntry s.mgr := by
    rw [hlists]
    rfl
  have hcreate : VmManager.vmMngrInstanceCreate m vmId coreSet = _ :=
    hlists ▸ vmMngrInstanceCreate_withLists coreSet
  rw [dropped, hentry, hlen, hcreate]
  refine Agrees.of_map (g := fun r => withLists r.2 _) fun ret mgr hm => ⟨_, rfl, ?_⟩
  rw [hm]
  by_cases hret : ret = 0
  · subst hret
    refine ⟨_, _, _, h.init (freeEntry s.mgr) fun j hj => ?_, ?_⟩
    · exact (vmMngrInstanceCreate_initialized hm hj).imp_right And.right
    · exact List.length_append
  · refine ⟨live, qs, lost, ?_, ?_⟩
    · dsimp only
      rw [if_neg hret, if_neg hret]
      refine h.keep fun j hj => ?_
      exact (vmMngrInstanceCreate_initialized hm hj).resolve_right fun hr => hret hr.1
    · rw [if_neg]
      · rfl
      · intro hz
        exact hret (Option.some.inj hz)

/-- A block was filled and put at the end of a queue. -/
theorem insert (h : Stores s live qs lost m) {dev : α} (hfresh : ¬ s.memory.Allocated dev)
    {mgr : Manager} (hinit : ∀ j, (mgr.vms j).initialized = true → (s.mgr.vms j).initialized = true)
    {memory : Memory (Fin maxNumVm) α MemoryDev} {v : MemoryDev}
    (hqs : Queues memory live (Function.update qs i (qs i ++ [dev])))
    (hvalue : memory.value = Function.update s.memory.value dev (some v)) :
    Stores ⟨mgr, memory⟩ live (Function.update qs i (qs i ++ [dev])) lost
      (withLists mgr (Function.update (fun j => (qs j).filterMap s.memory.value) i
        ((qs i).filterMap s.memory.value ++ [v]))) := by
  have hout : ∀ j, dev ∉ qs j := fun j hj => hfresh (h.queues.allocated hj)
  have hkeep : ∀ j, (qs j).filterMap memory.value = (qs j).filterMap s.memory.value := by
    intro j
    refine List.filterMap_congr fun a ha => ?_
    rw [hvalue, Function.update_of_ne]
    rintro rfl
    exact hout j ha
  refine ⟨hqs, fun j hj => h.created j (hinit j hj), ?_, h.nodup, fun a ha j haj => ?_,
    fun a => ?_⟩
  · refine congrArg (withLists mgr) (funext fun j => ?_)
    by_cases hj : j = i
    · subst hj
      rw [Function.update_self, Function.update_self, List.filterMap_append, hkeep,
        List.filterMap_cons_some (by rw [hvalue, Function.update_self]), List.filterMap_nil]
    · rw [Function.update_of_ne hj, Function.update_of_ne hj, hkeep]
  · by_cases hj : j = i
    · subst hj
      rw [Function.update_self] at haj
      rcases List.mem_append.mp haj with haj | haj
      · exact h.outside a ha j haj
      · obtain rfl := List.mem_singleton.mp haj
        exact hfresh ((h.allocated a).mpr (.inl ha))
    · rw [Function.update_of_ne hj] at haj
      exact h.outside a ha j haj
  · rw [Memory.allocated_iff_value, hvalue]
    by_cases ha : a = dev
    · subst ha
      simp only [Function.update_self, Option.isSome_some, true_iff]
      exact .inr ⟨i, by simp⟩
    · rw [Function.update_of_ne ha, ← Memory.allocated_iff_value, h.allocated]
      refine or_congr_right (exists_congr fun j => ?_)
      by_cases hj : j = i
      · subst hj
        simp [ha]
      · rw [Function.update_of_ne hj]

/-- A block was taken out of its queue and freed. -/
theorem erase (h : Stores s live qs lost m) {dev : α} (hdev : dev ∈ qs i)
    {mgr : Manager} (hinit : ∀ j, (mgr.vms j).initialized = true → (s.mgr.vms j).initialized = true)
    {memory : Memory (Fin maxNumVm) α MemoryDev}
    (hqs : Queues memory live (Function.update qs i ((qs i).erase dev)))
    (hvalue : memory.value = Function.update s.memory.value dev none) :
    Stores ⟨mgr, memory⟩ live (Function.update qs i ((qs i).erase dev)) lost
      (withLists mgr (Function.update (fun j => (qs j).filterMap s.memory.value) i
        (((qs i).erase dev).filterMap s.memory.value))) := by
  have hout : ∀ j, j ≠ i → dev ∉ qs j := fun j hj hmem => hj (h.queues.disjoint j i dev hmem hdev)
  have hself : dev ∉ (qs i).erase dev := (h.queues.nodup i).not_mem_erase
  have hkeep : ∀ as : List α, dev ∉ as → as.filterMap memory.value = as.filterMap s.memory.value := by
    intro as has
    refine List.filterMap_congr fun a ha => ?_
    rw [hvalue, Function.update_of_ne]
    rintro rfl
    exact has ha
  refine ⟨hqs, fun j hj => h.created j (hinit j hj), ?_, h.nodup, fun a ha j haj => ?_,
    fun a => ?_⟩
  · refine congrArg (withLists mgr) (funext fun j => ?_)
    by_cases hj : j = i
    · subst hj
      rw [Function.update_self, Function.update_self, hkeep _ hself]
    · rw [Function.update_of_ne hj, Function.update_of_ne hj, hkeep _ (hout j hj)]
  · by_cases hj : j = i
    · subst hj
      rw [Function.update_self] at haj
      exact h.outside a ha j (List.mem_of_mem_erase haj)
    · rw [Function.update_of_ne hj] at haj
      exact h.outside a ha j haj
  · rw [Memory.allocated_iff_value, hvalue]
    by_cases ha : a = dev
    · subst ha
      simp only [Function.update_self, Option.isSome_none, Bool.false_eq_true, false_iff, not_or,
        not_exists]
      refine ⟨fun hlost => h.outside a hlost i hdev, fun j => ?_⟩
      by_cases hj : j = i
      · subst hj
        rwa [Function.update_self]
      · rw [Function.update_of_ne hj]
        exact hout j hj
    · rw [Function.update_of_ne ha, ← Memory.allocated_iff_value, h.allocated]
      refine or_congr_right (exists_congr fun j => ?_)
      by_cases hj : j = i
      · subst hj
        rw [Function.update_self, List.mem_erase_of_ne ha]
      · rw [Function.update_of_ne hj]

theorem vmMngrInstanceAllocMem (h : Stores s live qs lost m) {dev : α} (junk : DevCell α)
    (hfresh : ¬ s.memory.Allocated dev) (nodeId vmId sizeMb : ℤ) :
    Agrees (fun s m => Refines s lost.length m)
      (s.vmMngrInstanceAllocMem (some (dev, junk)) nodeId vmId sizeMb)
      (VmManager.vmMngrInstanceAllocMem m nodeId vmId sizeMb) := by
  have hout : ∀ j, dev ∉ qs j := fun j hj => hfresh (h.queues.allocated hj)
  have hvalue : s.memory.value dev = none := by
    rwa [Memory.allocated_iff_value, Option.not_isSome_iff_eq_none] at hfresh
  have halloc := h.queues.setCell hout (some junk)
  have hdev : (s.memory.alloc dev junk).Allocated dev := by
    rw [Memory.allocated_iff_value, Memory.alloc, Memory.value_setCell]
    simp
  rw [QueueManager.vmMngrInstanceAllocMem, VmManager.vmMngrInstanceAllocMem, h.getInstance]
  cases hget : vmMngrGetInstance s.mgr vmId with
  | none => exact .ok ⟨live, qs, lost, h, rfl⟩
  | some i =>
    have hlive : i ∈ live := h.created i (vmMngrGetInstance_eq_some hget).1
    have hpool : m.pool = s.mgr.pool := by
      rw [h.lists]
      rfl
    dsimp only
    rw [hpool]
    refine Agrees.bind fun r _ => ?_
    obtain ⟨req, pool⟩ := r
    have hmgr : { m with pool := pool } = withLists { s.mgr with pool := pool }
        fun i => (qs i).filterMap s.memory.value := by
      rw [h.lists]
      rfl
    cases req with
    | none =>
      -- the block is freed again
      obtain ⟨memory, hfree, hqs, hval⟩ := halloc.free hdev hout
      have hsame : memory.value = s.memory.value := by
        rw [hval, Memory.value_setCell, Function.update_idem]
        exact Function.update_eq_self_iff.mpr hvalue.symm
      simp only [Memory.alloc, hfree, deref, ok_bind, hmgr]
      refine .ok ⟨live, qs, lost, ⟨hqs, h.created, by rw [hsame], h.nodup, h.outside, ?_⟩, rfl⟩
      intro a
      rw [Memory.allocated_iff_value, hsame, ← Memory.allocated_iff_value]
      exact h.allocated a
    | some req =>
      dsimp only
      rw [hmgr, vmMngrGetNewMemdevIdx_withLists, bind_map]
      refine Agrees.bind fun r hidx => ?_
      obtain ⟨idx, mgr⟩ := r
      obtain ⟨m₁, hm₁, hq₁, hv₁⟩ := halloc.setValue hdev ⟨idx, req⟩
      have hdev₁ : m₁.Allocated dev := by
        rw [Memory.allocated_iff_value, hv₁]
        simp
      obtain ⟨m₂, hm₂, hq₂, hv₂⟩ := hq₁.insertTail hlive hdev₁ hout
      have hval : m₂.value = Function.update s.memory.value dev (some ⟨idx, req⟩) := by
        rw [hv₂, hv₁, Memory.value_setCell, Function.update_idem]
      simp only [Memory.alloc, hm₁, hm₂, hval, deref, ok_bind, Function.update_self, answerWith]
      have hinit : ∀ j, (mgr.vms j).initialized = true → (s.mgr.vms j).initialized = true :=
        fun j hj => vmMngrGetNewMemdevIdx_initialized (m := { s.mgr with pool := pool }) hidx hj
      have hst := h.insert hfresh hinit hq₂ hval
      rw [← setVm_self_withLists] at hst
      exact .ok ⟨live, _, lost, hst, rfl⟩

theorem vmMngrInstanceFreeMem [Fintype α] (h : Stores s live qs lost m) (vmId memdevIdx : ℤ) :
    Agrees (fun s m => Refines s lost.length m) (s.vmMngrInstanceFreeMem vmId memdevIdx)
      (VmManager.vmMngrInstanceFreeMem m vmId memdevIdx) := by
  rw [QueueManager.vmMngrInstanceFreeMem, VmManager.vmMngrInstanceFreeMem, h.getInstance]
  cases hget : vmMngrGetInstance s.mgr vmId with
  | none => exact .ok ⟨live, qs, lost, h, rfl⟩
  | some i =>
    have hpool : m.pool = s.mgr.pool := by
      rw [h.lists]
      rfl
    dsimp only
    rw [h.findMemoryDev, ok_bind, VmManager.findMemoryDev, h.attachedDevs, find?_filterMap_value]
    cases hfind : (qs i).find? (holdsIdx s.memory memdevIdx) with
    | none => exact .ok ⟨live, qs, lost, h, rfl⟩
    | some dev =>
      have hmem : dev ∈ qs i := List.mem_of_find?_eq_some hfind
      have hdev := h.queues.allocated hmem
      obtain ⟨v, hv⟩ := Option.isSome_iff_exists.mp (Memory.allocated_iff_value.mp hdev)
      simp only [hv, deref, ok_bind, Option.bind_some, hpool]
      refine Agrees.bind fun r _ => ?_
      obtain ⟨ret, pool⟩ := r
      dsimp only
      have hmgr : { m with pool := pool } = withLists { s.mgr with pool := pool }
          fun i => (qs i).filterMap s.memory.value := by
        rw [h.lists]
        rfl
      by_cases hret : ret < 0
      · rw [if_pos hret, if_pos hret, hmgr]
        exact .ok ⟨live, qs, lost, h.keep fun j hj => hj, rfl⟩
      · obtain ⟨m₁, hm₁, hq₁, hv₁⟩ := h.queues.remove hmem
        have hout : ∀ j, dev ∉ Function.update qs i ((qs i).erase dev) j := by
          intro j hj
          by_cases hji : j = i
          · subst hji
            rw [Function.update_self] at hj
            exact (h.queues.nodup j).not_mem_erase hj
          · rw [Function.update_of_ne hji] at hj
            exact hji (h.queues.disjoint j i dev hj hmem)
        obtain ⟨m₂, hm₂, hq₂, hv₂⟩ := hq₁.free (hdev.of_value hv₁) hout
        have hval : m₂.value = Function.update s.memory.value dev none := by
          rw [hv₂, hv₁]
        have hinit : ∀ j, (({ s.mgr with pool := pool } : Manager).vms j).initialized = true →
            (s.mgr.vms j).initialized = true := fun _ hj => hj
        have hst := h.erase hmem hinit hq₂ hval
        rw [← setVm_self_withLists, ← hmgr] at hst
        rw [if_neg hret, if_neg hret, hm₁, ok_bind, hm₂, ok_bind, eraseP_filterMap_value hfind]
        exact .ok ⟨live, _, lost, hst, rfl⟩

end Stores

/-! ### Runs -/

section Runs

open Runs

variable [DecidableEq α] [Fintype α] {s : QueueManager α} {m : Manager} {n : ℕ} {a : HeapOp α}

theorem step_agrees (h : Refines s n m) (hfresh : FreshBlock s a) {op : Op} (hop : a.call = some op) :
    Both SameFault (fun s' m' => Refines s' (n + dropped m op) m') (step s a)
      (VmManager.step m op) := by
  obtain ⟨live, qs, lost, hst, rfl⟩ := h
  obtain ⟨aop, block⟩ := a
  cases aop with
  | create vmId coreSet =>
    obtain rfl := Option.some.inj hop
    exact (hst.vmMngrInstanceCreate vmId coreSet).state
  | destroy vmId =>
    obtain rfl := Option.some.inj hop
    exact (hst.vmMngrInstanceDestroy vmId).state
  | start vmId env =>
    obtain rfl := Option.some.inj hop
    exact (hst.vmMngrInstanceStart env vmId).state
  | stop vmId kernel =>
    obtain rfl := Option.some.inj hop
    exact (hst.vmMngrInstanceStop kernel vmId).state
  | allocMem nodeId vmId sizeMb =>
    cases block with
    | none => cases hop
    | some block =>
      obtain rfl := Option.some.inj hop
      obtain ⟨dev, junk⟩ := block
      exact (hst.vmMngrInstanceAllocMem junk (hfresh dev junk rfl) nodeId vmId sizeMb).state
  | freeMem vmId memdevIdx =>
    obtain rfl := Option.some.inj hop
    exact (hst.vmMngrInstanceFreeMem vmId memdevIdx).state

/-- Where `malloc` fails, nothing changes. -/
theorem step_skipped (hop : a.call = none) : step s a = .ok s := by
  obtain ⟨aop, block⟩ := a
  cases aop with
  | allocMem nodeId vmId sizeMb =>
    cases block with
    | none =>
      simp only [step, QueueManager.vmMngrInstanceAllocMem]
      cases vmMngrGetInstance s.mgr vmId <;> rfl
    | some block => cases hop
  | _ => cases hop

theorem queues_simulate : Simulates (step (α := α)) VmManager.step SameFault
    (fun s m => ∃ n, Refines s n m) FreshBlock HeapOp.call where
  answers _ _ _ _ h hfresh hop := by
    obtain ⟨n, h⟩ := h
    exact (step_agrees h hfresh hop).imp fun _ _ h => ⟨_, h⟩
  skips _ _ _ h _ hop := ⟨_, step_skipped hop, h⟩

/-- A step over plain lists, with the number of devices that were dropped so far. -/
def tallyStep (t : Manager × ℕ) (op : Op) : Outcome (Manager × ℕ) :=
  (VmManager.step t.1 op).map fun m => (m, t.2 + dropped t.1 op)

theorem queues_tally : Simulates (step (α := α)) tallyStep SameFault
    (fun s t => Refines s t.2 t.1) FreshBlock HeapOp.call where
  answers _ _ _ _ h hfresh hop := by
    exact (step_agrees h hfresh hop).map_right fun _ _ h => h
  skips _ _ _ h _ hop := ⟨_, step_skipped hop, h⟩

omit [DecidableEq α] [Fintype α] in
theorem refines_initial (pool : Pool) : Refines (initialQueue α pool) 0 (initialManager pool) := by
  have hqueues : Queues (initialQueue α pool).memory ∅ fun _ => [] :=
    ⟨fun _ => trivial, fun _ => rfl, fun _ hq => hq.elim, fun _ => List.nodup_nil,
      fun _ _ _ ha => (List.not_mem_nil ha).elim⟩
  refine ⟨∅, fun _ => [], [], ⟨hqueues, fun _ hi => Bool.noConfusion hi, rfl, List.nodup_nil,
    fun _ ha => (List.not_mem_nil ha).elim, fun a => ?_⟩, rfl⟩
  simp [initialQueue, Memory.Allocated]

/-- What the callers of the two managers see. -/
structure AnswersAs (s : QueueManager α) (m : Manager) : Prop where
  getMem : ∀ vmId memdevIdx, s.vmMngrInstanceGetMem vmId memdevIdx =
    .ok (VmManager.vmMngrInstanceGetMem m vmId memdevIdx)
  dumpState : ∀ bufferSize, s.vmMngrDumpState bufferSize =
    ofManager (VmManager.vmMngrDumpState m bufferSize)
  create : ∀ vmId coreSet, (s.vmMngrInstanceCreate vmId coreSet).map Prod.fst =
    ofManager ((VmManager.vmMngrInstanceCreate m vmId coreSet).map Prod.fst)
  destroy : ∀ vmId, (s.vmMngrInstanceDestroy vmId).map Prod.fst =
    ofManager ((VmManager.vmMngrInstanceDestroy m vmId).map Prod.fst)
  start : ∀ env vmId, (s.vmMngrInstanceStart env vmId).map Prod.fst =
    ofManager ((VmManager.vmMngrInstanceStart env m vmId).map Prod.fst)
  stop : ∀ kernel vmId, (s.vmMngrInstanceStop kernel vmId).map Prod.fst =
    ofManager ((VmManager.vmMngrInstanceStop kernel m vmId).map Prod.fst)
  allocMem : ∀ dev junk nodeId vmId sizeMb, ¬ s.memory.Allocated dev →
    (s.vmMngrInstanceAllocMem (some (dev, junk)) nodeId vmId sizeMb).map Prod.fst =
      ofManager ((VmManager.vmMngrInstanceAllocMem m nodeId vmId sizeMb).map Prod.fst)
  freeMem : ∀ vmId memdevIdx, (s.vmMngrInstanceFreeMem vmId memdevIdx).map Prod.fst =
    ofManager ((VmManager.vmMngrInstanceFreeMem m vmId memdevIdx).map Prod.fst)

theorem Refines.answersAs (h : Refines s n m) : AnswersAs s m := by
  obtain ⟨live, qs, lost, hst, rfl⟩ := h
  exact {
    getMem := hst.vmMngrInstanceGetMem
    dumpState := hst.vmMngrDumpState
    create := fun vmId coreSet => (hst.vmMngrInstanceCreate vmId coreSet).answer
    destroy := fun vmId => (hst.vmMngrInstanceDestroy vmId).answer
    start := fun env vmId => (hst.vmMngrInstanceStart env vmId).answer
    stop := fun kernel vmId => (hst.vmMngrInstanceStop kernel vmId).answer
    allocMem := fun dev junk nodeId vmId sizeMb hdev =>
      (hst.vmMngrInstanceAllocMem junk hdev nodeId vmId sizeMb).answer
    freeMem := fun vmId memdevIdx => (hst.vmMngrInstanceFreeMem vmId memdevIdx).answer }

/-- Over any calls, the manager whose devices are blocks threaded through its queues runs in step
with the one over plain lists: it touches no block that is not allocated, stops only where the
other does and with its fault, and whatever is asked after the run is answered alike. -/
theorem queues_refine (pool : Pool) (acts : List (HeapOp α))
    (hfresh : Guarded step FreshBlock (initialQueue α pool) acts) :
    Both SameFault AnswersAs (run step (initialQueue α pool) acts)
      (run VmManager.step (initialManager pool) (acts.filterMap HeapOp.call)) :=
  (queues_simulate.run ⟨0, refines_initial pool⟩ hfresh).imp fun _ _ ⟨_, h⟩ => h.answersAs

theorem Refines.card_allocated (h : Refines s n m) :
    (Finset.univ.filter s.memory.Allocated).card = ∑ i, (m.vms i).attachedDevs.length + n := by
  obtain ⟨live, qs, lost, hst, rfl⟩ := h
  have hset : Finset.univ.filter s.memory.Allocated =
      (Finset.univ.biUnion fun i => (qs i).toFinset) ∪ lost.toFinset := by
    ext a
    simp [hst.allocated, or_comm]
  have hdisjoint : Disjoint (Finset.univ.biUnion fun i => (qs i).toFinset) lost.toFinset := by
    rw [Finset.disjoint_left]
    intro a ha hlost
    obtain ⟨i, -, hi⟩ := Finset.mem_biUnion.mp ha
    exact hst.outside a (List.mem_toFinset.mp hlost) i (List.mem_toFinset.mp hi)
  have hpairwise : ((Finset.univ : Finset (Fin maxNumVm)) : Set (Fin maxNumVm)).PairwiseDisjoint
      fun i => (qs i).toFinset := by
    intro i _ j _ hij
    refine Finset.disjoint_left.mpr fun a hi hj => hij ?_
    exact hst.queues.disjoint i j a (List.mem_toFinset.mp hi) (List.mem_toFinset.mp hj)
  rw [hset, Finset.card_union_of_disjoint hdisjoint, Finset.card_biUnion hpairwise,
    List.toFinset_card_of_nodup hst.nodup]
  refine congrArg (· + lost.length) (Finset.sum_congr rfl fun i _ => ?_)
  rw [List.toFinset_card_of_nodup (hst.queues.nodup i), hst.length_attachedDevs]

/-- The check of `malloc`'s promise along a run. -/
def freshRun (s : QueueManager α) : List (HeapOp α) → Bool
  | [] => true
  | a :: acts =>
    (a.block.all fun b => !decide (s.memory.Allocated b.1)) &&
      match step s a with
      | .ok t => freshRun t acts
      | .error _ => true

theorem guarded_of_freshRun {acts : List (HeapOp α)} (h : freshRun s acts = true) :
    Guarded step FreshBlock s acts := by
  induction acts generalizing s with
  | nil => trivial
  | cons a acts ih =>
    obtain ⟨ha, hrest⟩ := Bool.and_eq_true_iff.mp h
    refine ⟨fun dev junk hblock => ?_, fun t ht => ih ?_⟩
    · simpa [hblock] using ha
    · simpa [ht] using hrest

/-- The contents of a block before it is filled. -/
def junkCell : DevCell Bool := ⟨⟨0, ⟨0, [], 0, 0, 0⟩⟩, some true, .null⟩

/-- Two devices of VM 3; the block of the first one is freed and then given out again. -/
def reusedBlock : List (HeapOp Bool) :=
  [⟨.create 3 "0".toList, none⟩, ⟨.allocMem 0 3 4, some (false, junkCell)⟩,
    ⟨.allocMem 0 3 4, some (true, junkCell)⟩, ⟨.freeMem 3 0, none⟩,
    ⟨.allocMem 0 3 4, some (false, junkCell)⟩, ⟨.freeMem 3 1, none⟩]

theorem queues_refine_reusedBlock :
    Both SameFault AnswersAs (run step (initialQueue Bool smallPool) reusedBlock)
      (run VmManager.step (initialManager smallPool) (reusedBlock.filterMap HeapOp.call)) :=
  queues_refine smallPool reusedBlock (guarded_of_freshRun (by rfl))

/-- The blocks that are allocated after a run are those of the devices in the lists, and one for
each device that a new VM found in its slot: `destroy` frees none. -/
theorem blocks_exact (pool : Pool) (acts : List (HeapOp α)) (s : QueueManager α)
    (hfresh : Guarded step FreshBlock (initialQueue α pool) acts)
    (hrun : run step (initialQueue α pool) acts = .ok s) :
    ∃ m n, run tallyStep (initialManager pool, 0) (acts.filterMap HeapOp.call) = .ok (m, n) ∧
      Fintype.card {a // s.memory.Allocated a} = ∑ i, (m.vms i).attachedDevs.length + n := by
  have hboth := queues_tally.run (t := (initialManager pool, 0)) (refines_initial pool) hfresh
  obtain ⟨⟨m, n⟩, hrun', h⟩ := hboth.ok_left hrun
  refine ⟨m, n, hrun', ?_⟩
  rw [Fintype.card_subtype, h.card_allocated]

/-- VM 3 is destroyed with its device attached, and VM 5 takes its slot. -/
def lostBlock : List (HeapOp Bool) :=
  [⟨.create 3 "0".toList, none⟩, ⟨.allocMem 0 3 4, some (true, junkCell)⟩, ⟨.destroy 3, none⟩,
    ⟨.create 5 "0".toList, none⟩]

theorem blocks_exact_lostBlock : ∃ s, run step (initialQueue Bool smallPool) lostBlock = .ok s ∧
    ∃ m n, run tallyStep (initialManager smallPool, 0) (lostBlock.filterMap HeapOp.call) = .ok (m, n) ∧
      Fintype.card {a // s.memory.Allocated a} = ∑ i, (m.vms i).attachedDevs.length + n := by
  obtain ⟨s, hs⟩ := exists_of_isOk (x := run step (initialQueue Bool smallPool) lostBlock) (by rfl)
  exact ⟨s, hs, blocks_exact smallPool lostBlock s (guarded_of_freshRun (by rfl)) hs⟩

example : (run tallyStep (initialManager smallPool, 0) (lostBlock.filterMap HeapOp.call)).toOption.map
    Prod.snd = some 1 := by rfl

end Runs

end Ramryder.DeviceQueue
