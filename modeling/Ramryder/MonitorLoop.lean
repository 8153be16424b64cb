import Ramryder.AgentIndex
import Ramryder.GuestMonitor
import Ramryder.PerfCounts
import Ramryder.QemuAgent

/-! The monitor thread beside the server: when a turn of its loop ends well, and what it measures,
uploads and leaves behind then. -/
namespace Ramryder.MonitorLoop
open AgentIndex ByteBuffer CInt CMachine CScan CText CoreSet GuestAgents GuestMonitor Lifecycle MemoryPool Ownership
  PerfCounter PerfCounts PoolConfig QemuAgent ResourceManager ResourceManagerSpec Runs Shutdown VmManager
  VmManagerSpec

def maxBwThresholdGb : ℕ := 250
def minBwThresholdGb : ℕ := 2
def mbytesPerGb : ℕ := 1024
def influxdbDataLength : ℕ := 256

/-! ### The metrics of a VM -/

/-- What the monitor uses of `double`; `printed` is what `%f` prints. -/
class Doubles (F : Type) extends Add F, Sub F, Mul F, Div F, NatCast F, OfScientific F where
  less : F → F → Bool
  printed : F → Text

inductive MetricType
  | loadL3MissLat
  deriving DecidableEq, Repr

/-- The metrics in a VM's slot. -/
structure VmMetrics (F : Type) where
  curMetrics : MetricType → F
  ewmaMetrics : MetricType → F
  ewmaInitialized : Bool

section Metrics

variable {F : Type} [Doubles F]

def metricMaxArr : MetricType → F
  | .loadL3MissLat => 350.0

def tscFreq : F := 2.1e9
def ewmaConstant : F := 0.2

/-- `MAX(a, b)` -/
def larger (a b : F) : F := if Doubles.less b a then a else b

/-- `MIN(a, b)` -/
def smaller (a b : F) : F := if Doubles.less a b then a else b

/-- A metric of the counts between two turns, before it is cut to its range. -/
def rawMetric (delta : PerfEventType → ℕ) : MetricType → F
  | .loadL3MissLat =>
    (1e9 : F) * ((delta .ocrOutstandingL3MissDemandDataRd : F) / (delta .ocrL3MissDemandDataRd : F)) /
      ((delta .cpuClkUnhaltedThread : F) / (delta .cpuClkUnhaltedRefTsc : F) * tscFreq)

def curMetric (delta : PerfEventType → ℕ) (j : MetricType) : F :=
  smaller (metricMaxArr j) (larger 0.0 (rawMetric delta j))

/-- The body of the loop of `vm_mngr_update_metrics`. -/
def updateVmMetrics (delta : PerfEventType → ℕ) (vm : VmMetrics F) : VmMetrics F where
  curMetrics := curMetric delta
  ewmaMetrics := fun j =>
    if vm.ewmaInitialized then
      ewmaConstant * curMetric delta j + ((1.0 : F) - ewmaConstant) * vm.ewmaMetrics j
    else curMetric delta j
  ewmaInitialized := true

def vmMngrUpdateMetrics (m : Manager) (metrics : Fin maxNumVm → VmMetrics F) : Fin maxNumVm → VmMetrics F :=
  if m.count = 0 then metrics
  else fun i =>
    if (m.vms i).running then updateVmMetrics (m.vms i).deltaPerfEventCounts (metrics i) else metrics i

/-- What `vm_perf_counter_setup` makes of them. -/
def resetMetrics : VmMetrics F := ⟨fun _ => 0.0, fun _ => 0.0, false⟩

/-- The slot whose counters a request has set up: it starts a VM that does not run. -/
def setsUp (s : Server) (request : Text) : Option (Fin maxNumVm) :=
  match servedCommand s request with
  | some (.startVm, args) =>
    match sscanf "vid=%d" args with
    | [.int vid] =>
      if vid < 0 then none
      else (vmMngrGetInstance s.mngr vid).filter fun i => !(s.mngr.vms i).running
    | _ => none
  | _ => none

end Metrics

/-! ### The reply of a guest -/

/-- One node of a guest's `meminfo-list`. -/
structure MemInfo where
  index : ℤ
  memFree : ℤ
  memTotal : ℤ
  memAvailable : ℤ
  deriving DecidableEq, Repr

/-- `json_object_get_int` cuts a number to the range of an `int`, and takes a text for the number that it
begins with. -/
def jsonGetInt : Option Json → ℤ
  | some (.int n) => max intMin (min n intMax)
  | some (.bool b) => if b then 1 else 0
  | some (.str t) => max intMin (min ((written t).getD 0) intMax)
  | _ => 0

def memInfo (node : Json) : MemInfo where
  index := jsonGetInt (jsonField "index" node)
  memFree := jsonGetInt (jsonField "mem-free" node)
  memTotal := jsonGetInt (jsonField "mem-total" node)
  memAvailable := jsonGetInt (jsonField "mem-available" node)

def meminfoList (reply : Option Json) : Option Json :=
  (reply.bind (jsonField "return")).bind (jsonField "meminfo-list")

/-- The nodes that `upload_vm_cp_to_cloud_db` goes through. Only of an array is there a length. -/
def memInfos (reply : Option Json) : Outcome (List MemInfo) :=
  match meminfoList reply with
  | none => .ok []
  | some (.arr nodes) => .ok (nodes.map memInfo)
  | some _ => .error .jsonNotArray

def isArray : Json → Bool
  | .arr _ => true
  | _ => false

/-- The list of nodes, where a reply has one, is an array. -/
def ListsNodes (reply : Option Json) : Prop := ∀ nodes ∈ meminfoList reply, isArray nodes = true

instance decidableListsNodes (reply : Option Json) : Decidable (ListsNodes reply) :=
  inferInstanceAs (Decidable (∀ nodes ∈ meminfoList reply, isArray nodes = true))

def listedInfos (reply : Option Json) : List MemInfo :=
  match meminfoList reply with
  | some (.arr nodes) => nodes.map memInfo
  | _ => []

theorem memInfos_listed {reply : Option Json} (h : ListsNodes reply) :
    memInfos reply = .ok (listedInfos reply) := by
  rw [memInfos, listedInfos]
  cases hlist : meminfoList reply with
  | none => rfl
  | some nodes =>
    have harray := h nodes hlist
    cases nodes with
    | arr nodes => rfl
    | _ => cases harray

theorem memInfos_fault {reply : Option Json} (h : ¬ ListsNodes reply) :
    memInfos reply = .error .jsonNotArray := by
  obtain ⟨nodes, hlist, hnot⟩ : ∃ nodes ∈ meminfoList reply, isArray nodes ≠ true := by
    simpa only [ListsNodes, not_forall, exists_prop] using h
  rw [memInfos, Option.mem_def.mp hlist]
  cases nodes with
  | arr nodes => exact absurd rfl hnot
  | _ => rfl

/-! ### A turn -/

/-- What a turn of the monitor meets outside the process, and the blocks that `malloc` gives out for the
replies of the guests. -/
structure MonitorEnv where
  kernel : PerfKernel
  metrics : CoreMetrics
  guest : ℤ → Text
  heap : Fin maxNumVm → Buffer bufferSize
  timeNowS : ℕ

/-- What the monitor is started with: its configuration, and the JSON parser with which it reads a
guest's reply. -/
structure Monitor where
  config : MonitorConfig
  parse : Text → Option Json

/-- The server with the bandwidth fields and the metrics of its VM slots. -/
structure Process (F : Type) where
  server : Server
  bandwidth : Fin maxNumVm → VmBandwidth
  metrics : Fin maxNumVm → VmMetrics F

abbrev Uploads := List Text

variable {β F : Type} [Doubles F]

def vmMngrForEachVmRunning (m : Manager) (handler : β → Fin maxNumVm → Outcome β) (b : β) :
    Outcome β :=
  if m.count = 0 then .ok b
  else (List.finRange maxNumVm).foldlM
    (fun b i => if (m.vms i).initialized && (m.vms i).running then handler b i else .ok b) b

/-- `%lu` prints an unsigned number as `%d` does. -/
def memInfoLine (timeNowS : ℕ) (vmId : ℤ) (info : MemInfo) : Text :=
  snprintf influxdbDataLength
    "guest_memory,vm_id=%d,node=%d memory_free=%d,memory_total=%d,memory_available=%d %d"
    [.int vmId, .int info.index, .int info.memFree, .int info.memTotal, .int info.memAvailable,
      .int timeNowS]

def bandwidthLine (timeNowS : ℕ) (vmId : ℤ) (bw : VmBandwidth) : Text :=
  snprintf influxdbDataLength "vm_bandwidth,vm_id=%d bandwidth_local=%d,bandwidth_remote=%d %d"
    [.int vmId, .int bw.memBwLocal, .int bw.memBwRemote, .int timeNowS]

/-- `%f` of the latency is the text that is put in. -/
def latencyLine (timeNowS : ℕ) (vmId : ℤ) (latency : F) : Text :=
  snprintf influxdbDataLength "vm_latency,vm_id=%d l3_miss_latency=%s %d"
    [.int vmId, .text (Doubles.printed latency), .int timeNowS]

def uploadVmBw (timeNowS : ℕ) (vmId : ℤ) (bw : VmBandwidth) : Uploads :=
  if maxBwThresholdGb < bw.memBw / mbytesPerGb then [] else [bandwidthLine timeNowS vmId bw]

def latencyValid (bw : VmBandwidth) : Bool :=
  !(decide (maxBwThresholdGb < bw.memBw / mbytesPerGb) || decide (bw.memBw / mbytesPerGb < minBwThresholdGb))

def uploadVmLatency (timeNowS : ℕ) (vmId : ℤ) (bw : VmBandwidth) (vm : VmMetrics F) : Uploads :=
  [latencyLine timeNowS vmId (if latencyValid bw then vm.curMetrics .loadL3MissLat else 0.0)]

/-- `__get_vm_mem_cp`: the guest's reply, uploaded where the database is enabled. -/
def getVmMemCp (mon : Monitor) (env : MonitorEnv) (m : Manager) (uploads : Uploads)
    (i : Fin maxNumVm) : Outcome Uploads := do
  let vmId := (m.vms i).vmId
  let reply ← guestAgentGetMeminfo env.guest (env.heap i) m.agents vmId
  match reply with
  | none => .ok uploads
  | some response =>
    if mon.config.enableCloudDb then do
      let json ← asString response
      let infos ← memInfos (mon.parse json)
      .ok (uploads ++ infos.map (memInfoLine env.timeNowS vmId))
    else .ok uploads

/-- `__get_vm_mem_bw` on a slot. -/
def getSlotMemBw (mon : Monitor) (env : MonitorEnv) (m : Manager)
    (state : (Fin maxNumVm → VmBandwidth) × Uploads) (i : Fin maxNumVm) :
    Outcome ((Fin maxNumVm → VmBandwidth) × Uploads) := do
  let bw ← getVmMemBw mon.config env.metrics (m.vms i).coreSet (state.1 i)
  let uploads := if mon.config.enableCloudDb then uploadVmBw env.timeNowS (m.vms i).vmId bw else []
  .ok (Function.update state.1 i bw, state.2 ++ uploads)

/-- `__get_vm_mem_latency` -/
def getVmMemLatency (mon : Monitor) (env : MonitorEnv) (m : Manager) (bandwidth : Fin maxNumVm → VmBandwidth)
    (metrics : Fin maxNumVm → VmMetrics F) (uploads : Uploads) (i : Fin maxNumVm) : Outcome Uploads :=
  if mon.config.enableCloudDb then
    .ok (uploads ++ uploadVmLatency env.timeNowS (m.vms i).vmId (bandwidth i) (metrics i))
  else .ok uploads

/-- A turn of `__monitor_loop`. -/
def monitorTurn (mon : Monitor) (env : MonitorEnv) (p : Process F) : Outcome (Process F × Uploads) := do
  let m := p.server.mngr
  let uploads ← vmMngrForEachVmRunning m (getVmMemCp mon env m) []
  let (bandwidth, uploads) ← vmMngrForEachVmRunning m (getSlotMemBw mon env m) (p.bandwidth, uploads)
  let m ← vmMngrUpdatePerfCounters env.kernel m
  let metrics := vmMngrUpdateMetrics m p.metrics
  let uploads ← vmMngrForEachVmRunning m (getVmMemLatency mon env m bandwidth metrics) uploads
  .ok (⟨{ p.server with mngr := m }, bandwidth, metrics⟩, uploads)

/-- One thing that the process does: a request of the RPC thread, or a turn of the monitor's. -/
inductive Turn
  | request (env : ServerEnv) (text : Text)
  | monitor (env : MonitorEnv)

def metricsAfter (p : Process F) (request : Text) : Fin maxNumVm → VmMetrics F :=
  match setsUp p.server request with
  | none => p.metrics
  | some i => Function.update p.metrics i resetMetrics

def processStep (mon : Monitor) (p : Process F) : Turn → Outcome (Process F)
  | .request env text => (serverStep p.server (env, text)).map fun s =>
    { p with server := s, metrics := metricsAfter p text }
  | .monitor env => (monitorTurn mon env p).map Prod.fst

/-- The request of a turn. -/
def Turn.served : Turn → Option (ServerEnv × Text)
  | .request env text => some (env, text)
  | .monitor _ => none

/-! ### Passes whose steps do not depend on one another -/

section Pass

variable {ε α β : Type} {handler : β → α → Except ε β} {g : β → α → β} {good : α → Prop}
  {Q : ε → Prop} {l : List α}

theorem foldlM_good (hok : ∀ a ∈ l, ∀ b, handler b a = .ok (g b a)) (b : β) :
    l.foldlM handler b = .ok (l.foldl g b) := by
  induction l generalizing b with
  | nil => rfl
  | cons a l ih =>
    rw [List.foldlM_cons, hok a List.mem_cons_self b, List.foldl_cons]
    exact ih (fun c hc => hok c (List.mem_cons_of_mem a hc)) (g b a)

theorem foldlM_bad (hok : ∀ a ∈ l, good a → ∀ b, handler b a = .ok (g b a))
    (hbad : ∀ a ∈ l, ¬ good a → ∀ b, ∃ e, Q e ∧ handler b a = .error e) (h : ∃ a ∈ l, ¬ good a) (b : β) :
    ∃ e, Q e ∧ l.foldlM handler b = .error e := by
  induction l generalizing b with
  | nil => simp at h
  | cons a l ih =>
    by_cases ha : good a
    · have hrest : ∃ c ∈ l, ¬ good c := by
        obtain ⟨c, hc, hnot⟩ := h
        rcases List.mem_cons.mp hc with rfl | hc
        · exact absurd ha hnot
        · exact ⟨c, hc, hnot⟩
      obtain ⟨e, he, hfold⟩ := ih (fun c hc => hok c (List.mem_cons_of_mem a hc))
        (fun c hc => hbad c (List.mem_cons_of_mem a hc)) hrest (g b a)
      rw [List.foldlM_cons, hok a List.mem_cons_self ha b]
      exact ⟨e, he, hfold⟩
    · obtain ⟨e, he, hstep⟩ := hbad a List.mem_cons_self ha b
      rw [List.foldlM_cons, hstep]
      exact ⟨e, he, rfl⟩

end Pass

/-! ### What is measured -/

variable {m : Manager} {i : Fin maxNumVm} {config : MonitorConfig} {metrics : CoreMetrics}
  {coreSet : Text} {cores : List ℤ}

def coreCount (counts : Fin maxCores → ℕ) (core : ℤ) : ℕ :=
  ((coreIndex core).toOption.map counts).getD 0

/-- The sum over the cores as a `uint64_t`. -/
def counterSum (counts : Fin maxCores → ℕ) (cores : List ℤ) : ℕ :=
  (cores.map (coreCount counts)).sum % 2 ^ 64

def measuredBw (config : MonitorConfig) (metrics : CoreMetrics) (coreSet : Text) : VmBandwidth :=
  let cores := namedCores coreSet
  let memBwLocal := counterSum metrics.coreLocalBw cores / config.monitorIntervalInSecond
  let memBwRemote := counterSum metrics.coreRemoteBw cores / config.monitorIntervalInSecond
  ⟨memBwLocal, memBwRemote, (memBwLocal + memBwRemote) % 2 ^ 64⟩

def InArrays (core : ℤ) : Prop := 0 ≤ core ∧ core < (maxCores : ℤ)

/-- There is an interval to divide by, and the arrays have every core of the set. -/
structure Measurable (config : MonitorConfig) (coreSet : Text) : Prop where
  interval : config.monitorIntervalInSecond ≠ 0
  cores : ∀ core ∈ namedCores coreSet, InArrays core

instance decidableMeasurable (config : MonitorConfig) (coreSet : Text) :
    Decidable (Measurable config coreSet) :=
  decidable_of_iff (config.monitorIntervalInSecond ≠ 0 ∧
      ∀ core ∈ namedCores coreSet, 0 ≤ core ∧ core < (maxCores : ℤ))
    ⟨fun h => ⟨h.1, h.2⟩, fun h => ⟨h.interval, h.cores⟩⟩

/-- What stops a turn. -/
def TurnFault (e : Fault) : Prop := e = .bufferOverread ∨ e = .divisionByZero ∨ e = .jsonNotArray

def addCore (metrics : CoreMetrics) (bw : VmBandwidth) (core : ℤ) : VmBandwidth :=
  { bw with
    memBwLocal := (bw.memBwLocal + coreCount metrics.coreLocalBw core) % 2 ^ 64
    memBwRemote := (bw.memBwRemote + coreCount metrics.coreRemoteBw core) % 2 ^ 64 }

theorem accumulateBwPerCore_inArrays {core : ℤ} (h : InArrays core) (bw : VmBandwidth) :
    accumulateBwPerCore metrics bw core = .ok (addCore metrics bw core) := by
  obtain ⟨c, hc⟩ := coreIndex_of_range h
  simp only [accumulateBwPerCore, addCore, coreCount, hc, ok_bind, Except.toOption, Option.map_some,
    Option.getD_some]

theorem accumulateBwPerCore_outside {core : ℤ} (h : ¬ InArrays core) (bw : VmBandwidth) :
    ∃ e, TurnFault e ∧ accumulateBwPerCore metrics bw core = .error e := by
  have hindex : coreIndex core = .error .bufferOverread := dif_neg h
  refine ⟨.bufferOverread, .inl rfl, ?_⟩
  rw [accumulateBwPerCore, hindex]
  rfl

theorem foldl_addCore (cores : List ℤ) (bw : VmBandwidth) (hlocal : bw.memBwLocal < 2 ^ 64)
    (hremote : bw.memBwRemote < 2 ^ 64) :
    cores.foldl (addCore metrics) bw = { bw with
      memBwLocal := (bw.memBwLocal + (cores.map (coreCount metrics.coreLocalBw)).sum) % 2 ^ 64
      memBwRemote := (bw.memBwRemote + (cores.map (coreCount metrics.coreRemoteBw)).sum) % 2 ^ 64 } := by
  induction cores generalizing bw with
  | nil =>
    simp only [List.foldl_nil, List.map_nil, List.sum_nil, Nat.add_zero, Nat.mod_eq_of_lt hlocal,
      Nat.mod_eq_of_lt hremote]
  | cons core cores ih =>
    rw [List.foldl_cons, ih _ (Nat.mod_lt _ (by decide)) (Nat.mod_lt _ (by decide))]
    simp only [addCore, List.map_cons, List.sum_cons, Nat.mod_add_mod, Nat.add_assoc]

/-- Whatever a core set enumerates, it enumerates the cores that it names. -/
theorem enumerates_named (h : Enumerates coreSet cores) : Enumerates coreSet (namedCores coreSet) := by
  have hwalk : vmMngrForEachCore coreSet (fun (_ : Unit) _ => .ok ()) () = .ok () := by
    rw [h]
    exact foldlM_good (g := fun b _ => b) (fun _ _ _ => rfl) ()
  exact fun _ g c => vmMngrForEachCore_cores hwalk g c

theorem getVmMemBw_measured (h : Enumerates coreSet cores) (hm : Measurable config coreSet)
    (bw : VmBandwidth) : getVmMemBw config metrics coreSet bw = .ok (measuredBw config metrics coreSet) := by
  rw [getVmMemBw, enumerates_named h,
    foldlM_good fun core hcore => accumulateBwPerCore_inArrays (hm.cores core hcore), ok_bind,
    if_neg hm.interval, foldl_addCore _ _ (by simp) (by simp)]
  simp only [Nat.zero_add]
  rfl

theorem getVmMemBw_fault (h : Enumerates coreSet cores) (hm : ¬ Measurable config coreSet)
    (bw : VmBandwidth) : ∃ e, TurnFault e ∧ getVmMemBw config metrics coreSet bw = .error e := by
  rw [getVmMemBw, enumerates_named h]
  by_cases hcores : ∀ core ∈ namedCores coreSet, InArrays core
  · have hinterval : config.monitorIntervalInSecond = 0 := by
      by_contra hne
      exact hm ⟨hne, hcores⟩
    rw [foldlM_good fun core hcore => accumulateBwPerCore_inArrays (hcores core hcore), ok_bind,
      if_pos hinterval]
    exact ⟨_, .inr (.inl rfl), rfl⟩
  · push Not at hcores
    obtain ⟨e, he, hfold⟩ := foldlM_bad (fun _ _ => @accumulateBwPerCore_inArrays metrics _)
      (fun _ _ => accumulateBwPerCore_outside) hcores { bw with memBwLocal := 0, memBwRemote := 0 }
    rw [hfold]
    exact ⟨e, he, rfl⟩

/-! ### The passes over the VMs -/

/-- The slots that a pass visits, in order. -/
def runningList (m : Manager) : List (Fin maxNumVm) :=
  (List.finRange maxNumVm).filter fun i => (m.vms i).running

theorem mem_runningList : i ∈ runningList m ↔ (m.vms i).running = true := by
  simp [runningList]

/-- The block with the reply of a VM's guest. -/
def guestBytes (env : MonitorEnv) (m : Manager) (i : Fin maxNumVm) : Text :=
  ((agentIndex (m.vms i).vmId).toOption.map fun a =>
    replyBytes (env.guest (m.agents.guestAgents a).agentFd) (env.heap i)).getD []

def guestReply (mon : Monitor) (env : MonitorEnv) (m : Manager) (i : Fin maxNumVm) : Option Json :=
  mon.parse (cString (guestBytes env m i))

/-- Where the reply is read there is an end to it, and what it lists are nodes. -/
def Readable (mon : Monitor) (env : MonitorEnv) (m : Manager) (i : Fin maxNumVm) : Prop :=
  mon.config.enableCloudDb = true → '\x00' ∈ guestBytes env m i ∧ ListsNodes (guestReply mon env m i)

instance decidableReadable (mon : Monitor) (env : MonitorEnv) (m : Manager) (i : Fin maxNumVm) :
    Decidable (Readable mon env m i) :=
  inferInstanceAs (Decidable (mon.config.enableCloudDb = true →
    '\x00' ∈ guestBytes env m i ∧ ListsNodes (guestReply mon env m i)))

/-- What is uploaded of a VM's memory. -/
def memInfoUploads (mon : Monitor) (env : MonitorEnv) (m : Manager) (i : Fin maxNumVm) : Uploads :=
  if mon.config.enableCloudDb then
    (listedInfos (guestReply mon env m i)).map (memInfoLine env.timeNowS (m.vms i).vmId)
  else []

/-- What is uploaded of a VM's bandwidth. -/
def bwUploads (mon : Monitor) (env : MonitorEnv) (m : Manager) (i : Fin maxNumVm) : Uploads :=
  if mon.config.enableCloudDb then
    uploadVmBw env.timeNowS (m.vms i).vmId (measuredBw mon.config env.metrics (m.vms i).coreSet)
  else []

/-- What is uploaded of a VM's latency. -/
def latencyUploads (mon : Monitor) (env : MonitorEnv) (m : Manager) (bandwidth : Fin maxNumVm → VmBandwidth)
    (metrics : Fin maxNumVm → VmMetrics F) (i : Fin maxNumVm) : Uploads :=
  if mon.config.enableCloudDb then uploadVmLatency env.timeNowS (m.vms i).vmId (bandwidth i) (metrics i) else []

variable {mon : Monitor} {env : MonitorEnv}

theorem vmMngrForEachVmRunning_eq (hl : Consistent m) (handler : β → Fin maxNumVm → Outcome β) (b : β) :
    vmMngrForEachVmRunning m handler b = (runningList m).foldlM handler b := by
  have hslots : ∀ i, ((m.vms i).initialized && (m.vms i).running) = (m.vms i).running := fun i => by
    cases hrun : (m.vms i).running with
    | true => rw [hl.running i hrun]; rfl
    | false => rw [Bool.and_false]
  unfold vmMngrForEachVmRunning
  split_ifs with hcount
  · -- no slot is initialized, so none is visited
    have hnone : runningList m = [] := by
      refine List.eq_nil_iff_forall_not_mem.mpr fun i hi => ?_
      have hmem : i ∈ initializedSlots m := by
        simpa [initializedSlots] using hl.running i (mem_runningList.mp hi)
      have hempty : initializedSlots m = ∅ := by
        rw [← Finset.card_eq_zero]
        exact_mod_cast hl.count.symm.trans hcount
      rw [hempty] at hmem
      cases hmem
    rw [hnone]
    rfl
  · rw [runningList, List.foldlM_filter]
    simp only [hslots]
    rfl

/-- A VM that runs has an agent, so its guest is always asked. -/
theorem guestAgentGetMeminfo_running (hl : Consistent m) (hrun : (m.vms i).running = true) (env : MonitorEnv) :
    ∃ block, guestAgentGetMeminfo env.guest (env.heap i) m.agents (m.vms i).vmId = .ok (some block) ∧
      block.bytes = guestBytes env m i := by
  obtain ⟨a, ha⟩ := hl.agentId i hrun
  have hopen : (m.agents.guestAgents a).initialized = true := (hl.agent a).mpr ⟨i, hrun, ha⟩
  have hindex : agentIndex (m.vms i).vmId = .ok a := by rw [ha, agentIndex_natCast]
  obtain ⟨block, hblock, hbytes⟩ := guestAgentGetMeminfo_open hindex hopen env.guest (env.heap i)
  refine ⟨block, hblock, ?_⟩
  rw [hbytes, guestBytes, hindex]
  rfl

theorem getVmMemCp_running (hl : Consistent m) (hrun : (m.vms i).running = true) (hread : Readable mon env m i)
    (uploads : Uploads) : getVmMemCp mon env m uploads i = .ok (uploads ++ memInfoUploads mon env m i) := by
  obtain ⟨block, hblock, hbytes⟩ := guestAgentGetMeminfo_running hl hrun env
  simp only [getVmMemCp, hblock, ok_bind, memInfoUploads]
  split_ifs with hcloud
  · obtain ⟨hnul, hlists⟩ := hread hcloud
    rw [guestReply] at hlists
    rw [asString, if_pos (hbytes ▸ hnul), ok_bind, hbytes, memInfos_listed hlists, ok_bind, guestReply]
  · rw [List.append_nil]

theorem getVmMemCp_fault (hl : Consistent m) (hrun : (m.vms i).running = true) (hread : ¬ Readable mon env m i)
    (uploads : Uploads) : ∃ e, TurnFault e ∧ getVmMemCp mon env m uploads i = .error e := by
  obtain ⟨block, hblock, hbytes⟩ := guestAgentGetMeminfo_running hl hrun env
  obtain ⟨hcloud, hnot⟩ := Classical.not_imp.mp hread
  simp only [getVmMemCp, hblock, ok_bind, if_pos hcloud, asString, hbytes]
  by_cases hnul : '\x00' ∈ guestBytes env m i
  · have hlists : ¬ ListsNodes (mon.parse (cString (guestBytes env m i))) := fun h => hnot ⟨hnul, h⟩
    rw [if_pos hnul, ok_bind, memInfos_fault hlists]
    exact ⟨_, .inr (.inr rfl), rfl⟩
  · rw [if_neg hnul]
    exact ⟨_, .inl rfl, rfl⟩

theorem getSlotMemBw_measured (hl : Consistent m) (hrun : (m.vms i).running = true)
    (hm : Measurable mon.config (m.vms i).coreSet) (state : (Fin maxNumVm → VmBandwidth) × Uploads) :
    getSlotMemBw mon env m state i =
      .ok (Function.update state.1 i (measuredBw mon.config env.metrics (m.vms i).coreSet),
        state.2 ++ bwUploads mon env m i) := by
  obtain ⟨cores, hcores, _⟩ := hl.cores i (hl.running i hrun)
  rw [getSlotMemBw, getVmMemBw_measured hcores hm, ok_bind]
  rfl

theorem getSlotMemBw_fault (hl : Consistent m) (hrun : (m.vms i).running = true)
    (hm : ¬ Measurable mon.config (m.vms i).coreSet) (state : (Fin maxNumVm → VmBandwidth) × Uploads) :
    ∃ e, TurnFault e ∧ getSlotMemBw mon env m state i = .error e := by
  obtain ⟨cores, hcores, _⟩ := hl.cores i (hl.running i hrun)
  obtain ⟨e, he, hbw⟩ := getVmMemBw_fault hcores hm (state.1 i)
  rw [getSlotMemBw, hbw]
  exact ⟨e, he, rfl⟩

theorem vmMngrUpdatePerfCounters_total (hl : Consistent m) (kernel : PerfKernel) :
    ∃ m', vmMngrUpdatePerfCounters kernel m = .ok m' ∧ Updated kernel (List.finRange maxNumVm) m m' := by
  have htotal : ∃ m', vmMngrUpdatePerfCounters kernel m = .ok m' := by
    unfold vmMngrUpdatePerfCounters
    split_ifs with hcount
    · exact ⟨m, rfl⟩
    · obtain ⟨m', hupdate, _⟩ := @updateVms_updated m kernel (List.finRange maxNumVm)
        (List.nodup_finRange _) fun i hrun j => by
          have hfds := hl.fds i j
          rwa [hrun] at hfds
      exact ⟨m', hupdate⟩
  obtain ⟨m', hupdate⟩ := htotal
  exact ⟨m', hupdate, vmMngrUpdatePerfCounters_updated hl hupdate⟩

theorem foldl_slots (bw : Fin maxNumVm → VmBandwidth) (lines : Fin maxNumVm → Uploads)
    (slots : List (Fin maxNumVm)) (state : (Fin maxNumVm → VmBandwidth) × Uploads) :
    slots.foldl (fun state i => (Function.update state.1 i (bw i), state.2 ++ lines i)) state =
      (fun i => if i ∈ slots then bw i else state.1 i, state.2 ++ slots.flatMap lines) := by
  induction slots generalizing state with
  | nil => simp
  | cons i slots ih =>
    rw [List.foldl_cons, ih]
    refine Prod.ext (funext fun j => ?_) ?_
    · dsimp only
      by_cases hj : j ∈ slots
      · rw [if_pos hj, if_pos (List.mem_cons_of_mem i hj)]
      · by_cases hji : j = i
        · rw [if_neg hj, if_pos (List.mem_cons.mpr (.inl hji)), hji, Function.update_self]
        · rw [if_neg hj, if_neg (by simp [hj, hji]), Function.update_of_ne hji]
    · rw [List.flatMap_cons, ← List.append_assoc]

/-- What a turn that ends well has done: the counts, the bandwidth and the metrics of the VMs that run are
those of this turn, and what the configuration asks for is uploaded in three passes. -/
structure TurnDone (mon : Monitor) (env : MonitorEnv) (p p' : Process F) (uploads : Uploads) : Prop where
  args : p'.server.args = p.server.args
  counts : Updated env.kernel (List.finRange maxNumVm) p.server.mngr p'.server.mngr
  bandwidth : ∀ i, p'.bandwidth i = if (p.server.mngr.vms i).running then
    measuredBw mon.config env.metrics (p.server.mngr.vms i).coreSet else p.bandwidth i
  metrics : ∀ i, p'.metrics i = if (p.server.mngr.vms i).running then
    updateVmMetrics (p'.server.mngr.vms i).deltaPerfEventCounts (p.metrics i) else p.metrics i
  uploads : uploads = (runningList p.server.mngr).flatMap (memInfoUploads mon env p.server.mngr) ++
    (runningList p.server.mngr).flatMap (bwUploads mon env p.server.mngr) ++
    (runningList p.server.mngr).flatMap (latencyUploads mon env p.server.mngr p'.bandwidth p'.metrics)

/-- Every VM that runs can be measured, and the reply of its guest can be read. -/
def Measured (mon : Monitor) (env : MonitorEnv) (m : Manager) : Prop :=
  ∀ i, (m.vms i).running = true → Measurable mon.config (m.vms i).coreSet ∧ Readable mon env m i

instance decidableMeasured (mon : Monitor) (env : MonitorEnv) (m : Manager) : Decidable (Measured mon env m) :=
  inferInstanceAs (Decidable (∀ i, (m.vms i).running = true →
    Measurable mon.config (m.vms i).coreSet ∧ Readable mon env m i))

theorem memPass (hl : Consistent m) (hread : ∀ i, (m.vms i).running = true → Readable mon env m i) :
    vmMngrForEachVmRunning m (getVmMemCp mon env m) [] =
      .ok ((runningList m).flatMap (memInfoUploads mon env m)) := by
  rw [vmMngrForEachVmRunning_eq hl,
    foldlM_good fun i hi => getVmMemCp_running hl (mem_runningList.mp hi) (hread i (mem_runningList.mp hi)),
    List.foldl_append_eq_append, List.nil_append, List.flatMap_def]

theorem latencyPass {m' : Manager} (hl : Consistent m) (hu : Updated env.kernel (List.finRange maxNumVm) m m')
    (bandwidth : Fin maxNumVm → VmBandwidth) (metrics : Fin maxNumVm → VmMetrics F) (uploads : Uploads) :
    vmMngrForEachVmRunning m' (getVmMemLatency mon env m' bandwidth metrics) uploads =
      .ok (uploads ++ (runningList m).flatMap (latencyUploads mon env m bandwidth metrics)) := by
  have hlist : runningList m' = runningList m := by
    simp only [runningList, (hu.slot _).1.running]
  have hstep : ∀ i ∈ runningList m, ∀ uploads, getVmMemLatency mon env m' bandwidth metrics uploads i =
      .ok (uploads ++ latencyUploads mon env m bandwidth metrics i) := by
    intro i _ uploads
    rw [getVmMemLatency, latencyUploads, (hu.slot i).1.vmId]
    split_ifs
    · rfl
    · rw [List.append_nil]
  rw [vmMngrForEachVmRunning_eq (hl.lifeSame hu.same.2), hlist, foldlM_good hstep, List.foldl_append_eq_append,
    List.flatMap_def]

/-- Where no VM is counted none runs, so that the test of the count changes nothing. -/
theorem vmMngrUpdateMetrics_apply {m' : Manager} {kernel : PerfKernel} (hl : Consistent m)
    (hu : Updated kernel (List.finRange maxNumVm) m m') (metrics : Fin maxNumVm → VmMetrics F) (i : Fin maxNumVm) :
    vmMngrUpdateMetrics m' metrics i = if (m.vms i).running then
      updateVmMetrics (m'.vms i).deltaPerfEventCounts (metrics i) else metrics i := by
  rw [← (hu.slot i).1.running, vmMngrUpdateMetrics]
  by_cases hcount : m'.count = 0
  · rw [if_pos hcount, if_neg fun hrun => ?_]
    have hnone := vmMngrForEachVmRunning_eq (hl.lifeSame hu.same.2) (fun _ _ => (.error .perfEventFds : Outcome Unit)) ()
    rw [vmMngrForEachVmRunning, if_pos hcount] at hnone
    have hmem : i ∈ runningList m' := mem_runningList.mpr hrun
    cases hlist : runningList m' with
    | nil =>
      rw [hlist] at hmem
      cases hmem
    | cons j js =>
      rw [hlist] at hnone
      cases hnone
  · rw [if_neg hcount]

variable {p : Process F}

theorem monitorTurn_done (hl : Consistent p.server.mngr) (hm : Measured mon env p.server.mngr) :
    ∃ p' uploads, monitorTurn mon env p = .ok (p', uploads) ∧ TurnDone mon env p p' uploads := by
  obtain ⟨⟨m, args⟩, bandwidth, metrics⟩ := p
  obtain ⟨m', hupdate, hu⟩ := vmMngrUpdatePerfCounters_total hl env.kernel
  dsimp only at hl hm hupdate hu
  refine ⟨⟨⟨m', args⟩, fun i => if i ∈ runningList m then
    measuredBw mon.config env.metrics (m.vms i).coreSet else bandwidth i, vmMngrUpdateMetrics m' metrics⟩, _, ?_,
    rfl, hu, fun i => ?_, fun i => ?_, rfl⟩
  · simp only [monitorTurn]
    rw [memPass hl fun i hrun => (hm i hrun).2, ok_bind, vmMngrForEachVmRunning_eq hl,
      foldlM_good fun i hi => getSlotMemBw_measured hl (mem_runningList.mp hi)
        (hm i (mem_runningList.mp hi)).1, ok_bind, foldl_slots]
    dsimp only
    rw [hupdate, ok_bind, latencyPass hl hu]
    rfl
  · dsimp only
    simp only [mem_runningList]
  · exact vmMngrUpdateMetrics_apply hl hu metrics i

theorem monitorTurn_fault (hl : Consistent p.server.mngr) (hm : ¬ Measured mon env p.server.mngr) :
    ∃ e, TurnFault e ∧ monitorTurn mon env p = .error e := by
  obtain ⟨⟨m, args⟩, bandwidth, metrics⟩ := p
  dsimp only at hl hm
  simp only [monitorTurn]
  by_cases hread : ∀ i ∈ runningList m, Readable mon env m i
  · obtain ⟨i, hrun, hnot⟩ : ∃ i, (m.vms i).running = true ∧ ¬ Measurable mon.config (m.vms i).coreSet := by
      by_contra hall
      push Not at hall
      exact hm fun i hrun => ⟨hall i hrun, hread i (mem_runningList.mpr hrun)⟩
    obtain ⟨e, he, hpass⟩ := foldlM_bad
      (fun i hi hm => @getSlotMemBw_measured m i mon env hl (mem_runningList.mp hi) hm)
      (fun i hi hnot => getSlotMemBw_fault hl (mem_runningList.mp hi) hnot)
      ⟨i, mem_runningList.mpr hrun, hnot⟩
      (bandwidth, (runningList m).flatMap (memInfoUploads mon env m))
    rw [memPass hl fun i hrun => hread i (mem_runningList.mpr hrun), ok_bind, vmMngrForEachVmRunning_eq hl, hpass]
    exact ⟨e, he, rfl⟩
  · push Not at hread
    obtain ⟨e, he, hpass⟩ := foldlM_bad
      (fun i hi hread => @getVmMemCp_running m i mon env hl (mem_runningList.mp hi) hread)
      (fun i hi hnot => getVmMemCp_fault hl (mem_runningList.mp hi) hnot) hread []
    rw [vmMngrForEachVmRunning_eq hl, hpass]
    exact ⟨e, he, rfl⟩

/-! ### Runs -/

variable {pool : Pool} {args : Text} {bandwidth : Fin maxNumVm → VmBandwidth}
  {metrics : Fin maxNumVm → VmMetrics F} {p' : Process F}

/-- Step lemma: neither a request nor a turn breaks what is kept. -/
theorem processStep_kept (hk : Kept p.server.mngr) {turn : Turn} (h : processStep mon p turn = .ok p') :
    Kept p'.server.mngr := by
  cases turn with
  | request env text =>
    obtain ⟨s, hs, rfl⟩ := map_eq_ok.mp h
    exact serverStep_kept hk hs
  | monitor env =>
    obtain ⟨⟨_, uploads⟩, hturn, rfl⟩ := map_eq_ok.mp h
    by_cases hm : Measured mon env p.server.mngr
    · obtain ⟨q, uploads', hq, hdone⟩ := monitorTurn_done hk.consistent hm
      rw [hq] at hturn
      obtain ⟨rfl, rfl⟩ := Prod.mk.inj (Except.ok.inj hturn)
      obtain ⟨hmem, hlife⟩ := hdone.counts.same
      refine ⟨hk.owns.memSame hmem, hk.consistent.lifeSame hlife, ?_⟩
      rw [hdone.counts.pool]
      exact hk.accounted
    · obtain ⟨e, _, hfault⟩ := monitorTurn_fault hk.consistent hm
      rw [hfault] at hturn
      cases hturn

/-- Six places behind the point, as `%f` prints them. -/
def fixedPoint (x : ℚ) : Text :=
  let n := (x * 1000000 + 1 / 2).floor
  decimal (n / 1000000) ++ '.' :: (decimal (1000000 + n % 1000000)).drop 1

/-- Exact arithmetic. -/
instance : Doubles ℚ where
  less a b := decide (a < b)
  printed := fixedPoint

def oneNodeReply : Text :=
  ("\x7b\"return\": \x7b\"meminfo-list\": [\x7b\"index\": 0, \"mem-free\": 512, " ++
    "\"mem-total\": 2048, \"mem-available\": 1024\x7d]\x7d\x7d").toList

def oneNodeJson : Json :=
  .obj [("return".toList, .obj [("meminfo-list".toList, .arr [.obj [("index".toList, .int 0),
    ("mem-free".toList, .int 512), ("mem-total".toList, .int 2048), ("mem-available".toList, .int 1024)]])])]

/-- A monitor that uploads, and reads the reply of a guest with one node. -/
def cloudMonitor : Monitor where
  config := { defaultConfig with monitorIntervalInSecond := 2, enableCloudDb := true }
  parse := fun t => if t = oneNodeReply then some oneNodeJson else none

/-- Every core reads the same, every guest has one node, and every block from `malloc` is clear. -/
def flatEnv (localBw remoteBw : ℕ) : MonitorEnv where
  kernel := countingKernel 1
  metrics := ⟨fun _ => localBw, fun _ => remoteBw⟩
  guest := fun _ => oneNodeReply
  heap := fun _ => zeroed bufferSize
  timeNowS := 1700000000

def answeringEnv : ServerEnv := { silentEnv with start := ⟨countingKernel 0, fun _ => 5⟩ }

def idleProcess : Process ℚ := ⟨initialServer smallPool [], fun _ => ⟨0, 0, 0⟩, fun _ => resetMetrics⟩

/-- A VM with three cores is created and started. -/
def startedTurns : List Turn :=
  [.request answeringEnv "create-vm vid=3 coreset=[0-1,4]".toList,
    .request answeringEnv "start-vm vid=3".toList]

example : ((run (processStep cloudMonitor) idleProcess startedTurns).toOption.bind fun p =>
    (monitorTurn cloudMonitor (flatEnv 2000 500) p).toOption.map fun r =>
      (r.1.bandwidth ⟨0, by decide⟩, r.2)) =
    some (⟨3000, 750, 3750⟩,
      ["guest_memory,vm_id=3,node=0 memory_free=512,memory_total=2048,memory_available=1024 1700000000".toList,
        "vm_bandwidth,vm_id=3 bandwidth_local=3000,bandwidth_remote=750 1700000000".toList,
        "vm_latency,vm_id=3 l3_miss_latency=0.476190 1700000000".toList]) := by
  decide +kernel

/-- A core that the arrays do not have stops the monitor with the first turn. -/
example : (run (processStep cloudMonitor) idleProcess
    [.request answeringEnv "create-vm vid=3 coreset=[4096]".toList,
      .request answeringEnv "start-vm vid=3".toList, .monitor (flatEnv 10 3)]).map (fun _ => ()) =
    .error .bufferOverread := by
  decide +kernel

end Ramryder.MonitorLoop
