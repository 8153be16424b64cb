import Ramryder.CoreLoop
import Ramryder.CScan

/-! The guest monitor: what its configuration sets, and the interval arithmetic of its loop
over the per-core bandwidth counters. -/
namespace Ramryder.GuestMonitor
open CInt CMachine CScan CText CoreLoop CoreSet PoolConfig

def monitorValueSize : ℕ := 256
def maxCores : ℕ := 4096
def usPerSecond : ℕ := 1000000

/-- The globals that the configuration sets. -/
structure MonitorConfig where
  monitorIntervalInSecond : ℕ
  enableCloudDb : Bool
  influxdbUrl : Option Text
  influxdbToken : Option Text
  useProxy : Bool
  proxyAddr : Option Text
  deriving DecidableEq, Repr

def defaultConfig : MonitorConfig where
  monitorIntervalInSecond := 1
  enableCloudDb := false
  influxdbUrl := none
  influxdbToken := none
  useProxy := false
  proxyAddr := none

/-- Conversion to `uint32_t`. -/
def toUInt32 (n : ℤ) : ℕ := (n % 4294967296).toNat

def isTrue (value : Text) : Bool := value == "true".toList || value == "1".toList

/-- The `strcmp` chain over the keys. -/
def applySetting (config : MonitorConfig) (key value1 : Text) : MonitorConfig :=
  if key = "enable_clouddb".toList then { config with enableCloudDb := isTrue value1 }
  else if key = "influxdb_url".toList then { config with influxdbUrl := some value1 }
  else if key = "influxdb_token".toList then { config with influxdbToken := some value1 }
  else if key = "use_proxy".toList then { config with useProxy := isTrue value1 }
  else if key = "proxy_addr".toList then { config with proxyAddr := some value1 }
  else if key = "monitor_interval_second".toList then
    { config with monitorIntervalInSecond := toUInt32 (atoi value1) }
  else config

/-- The body of the line loop. Where two words are read, both are the line's own. -/
def monitorLine (config : MonitorConfig) (line : Text) : Outcome MonitorConfig :=
  if isSectionOrComment line then .ok config
  else do
    let items := sscanf "%s %s %s" line
    let key ← storeWord keySize [] items[0]?
    let value1 ← storeWord monitorValueSize [] items[1]?
    let _ ← storeWord monitorValueSize [] items[2]?
    if 2 ≤ items.length then .ok (applySetting config key value1) else .ok config

def configLines (text : Text) : List Text := (fgetsAll lineSize text.length text).map cString

/-- `none` where the file cannot be opened. -/
def guestMonitorLoadConfig (file : Option Text) : Outcome (Option MonitorConfig) :=
  match file with
  | none => .ok none
  | some text => do
    let config ← (configLines text).foldlM monitorLine defaultConfig
    .ok (some config)

/-- `SECOND_TO_US` of an unsigned 32-bit number. -/
def secondToUs (seconds : ℕ) : ℕ := seconds * usPerSecond % 4294967296

/-- What the monitor thread sleeps between two turns. -/
def monitorIntervalInUs (config : MonitorConfig) : ℕ := secondToUs config.monitorIntervalInSecond

/-! ### Bandwidth of a VM -/

/-- The 64-bit counters of one turn. -/
structure CoreMetrics where
  coreLocalBw : Fin maxCores → ℕ
  coreRemoteBw : Fin maxCores → ℕ

structure VmBandwidth where
  memBwLocal : ℕ
  memBwRemote : ℕ
  memBw : ℕ
  deriving DecidableEq, Repr

/-- The index expressions of the per-core arrays. -/
def coreIndex (coreId : ℤ) : Outcome (Fin maxCores) :=
  if h : 0 ≤ coreId ∧ coreId < maxCores then .ok ⟨coreId.toNat, by omega⟩
  else .error .bufferOverread

def accumulateBwPerCore (metrics : CoreMetrics) (bw : VmBandwidth) (coreId : ℤ) :
    Outcome VmBandwidth := do
  let c ← coreIndex coreId
  .ok { bw with
    memBwLocal := (bw.memBwLocal + metrics.coreLocalBw c) % 2 ^ 64
    memBwRemote := (bw.memBwRemote + metrics.coreRemoteBw c) % 2 ^ 64 }

def getVmMemBw (config : MonitorConfig) (metrics : CoreMetrics) (coreSet : Text)
    (bw : VmBandwidth) : Outcome VmBandwidth := do
  let bw ← vmMngrForEachCore coreSet (accumulateBwPerCore metrics)
    { bw with memBwLocal := 0, memBwRemote := 0 }
  if config.monitorIntervalInSecond = 0 then .error .divisionByZero
  else
    let memBwLocal := bw.memBwLocal / config.monitorIntervalInSecond
    let memBwRemote := bw.memBwRemote / config.monitorIntervalInSecond
    .ok ⟨memBwLocal, memBwRemote, (memBwLocal + memBwRemote) % 2 ^ 64⟩

/-! ### The interval that is configured -/

/-- The text a line gives the interval as. -/
def intervalText (line : Text) : Option Text :=
  if isSectionOrComment line then none
  else
    match sscanf "%s %s %s" line with
    | .text key :: .text value1 :: _ =>
      if key = "monitor_interval_second".toList then some value1 else none
    | _ => none

/-- The seconds the file asks for: the last setting, or the default. -/
def configuredSeconds (text : Text) : Option ℤ :=
  match ((configLines text).filterMap intervalText).getLast? with
  | none => some 1
  | some t => written t

/-- No division of the monitor has a zero divisor, and it sleeps for the positive number of seconds
that is configured. -/
structure IntervalSound (config : MonitorConfig) (text : Text) : Prop where
  divisor : ∀ metrics coreSet bw, getVmMemBw config metrics coreSet bw ≠ .error .divisionByZero
  sleep : ∃ seconds : ℤ, configuredSeconds text = some seconds ∧ 0 < seconds ∧
    (monitorIntervalInUs config : ℤ) = seconds * usPerSecond

variable {config config' : MonitorConfig} {line text : Text}

/-! ### The loader -/

theorem applySetting_interval (config : MonitorConfig) (key value1 : Text) :
    (applySetting config key value1).monitorIntervalInSecond =
      if key = "monitor_interval_second".toList then toUInt32 (atoi value1)
      else config.monitorIntervalInSecond := by
  by_cases hkey : key = "monitor_interval_second".toList
  · rw [if_pos hkey, hkey]
    rfl
  · rw [if_neg hkey, applySetting]
    split_ifs
    all_goals rfl

/-- A line keeps the interval, or sets it to the number its text begins with. -/
theorem monitorLine_interval (h : monitorLine config line = .ok config') :
    config'.monitorIntervalInSecond =
      ((intervalText line).map fun t => toUInt32 (atoi t)).getD config.monitorIntervalInSecond := by
  unfold monitorLine at h
  unfold intervalText
  by_cases hskip : isSectionOrComment line = true
  · rw [if_pos hskip] at h ⊢
    cases h
    rfl
  rw [if_neg hskip] at h ⊢
  have hwords : ∀ item ∈ sscanf "%s %s %s" line, ∃ w, item = .text w := by
    have hformat : directives none "%s %s %s".toList =
        [.str 0, .lit ' ', .str 0, .lit ' ', .str 0] := by rfl
    rw [sscanf, hformat]
    exact scan_words (by simp) line
  generalize sscanf "%s %s %s" line = items at h hwords
  simp only [bind_eq_ok] at h
  obtain ⟨key, hkey, value1, hvalue1, _, _, h⟩ := h
  cases items with
  | nil =>
    cases h
    rfl
  | cons item₁ items =>
    cases items with
    | nil =>
      cases h
      cases item₁ with
      | int n => rfl
      | text w => rfl
    | cons item₂ items =>
      obtain ⟨w₁, rfl⟩ := hwords item₁ List.mem_cons_self
      obtain ⟨w₂, rfl⟩ := hwords item₂ (List.mem_cons_of_mem _ List.mem_cons_self)
      rw [if_pos (by simp)] at h
      cases h
      rw [applySetting_interval, (storeWord_text.mp hkey).2, (storeWord_text.mp hvalue1).2]
      dsimp only
      split_ifs
      · rfl
      · rfl

/-- The last setting counts. -/
theorem loaded_interval {lines : List Text} (h : lines.foldlM monitorLine config = .ok config') :
    config'.monitorIntervalInSecond =
      (((lines.filterMap intervalText).getLast?).map fun t => toUInt32 (atoi t)).getD
        config.monitorIntervalInSecond := by
  induction lines generalizing config with
  | nil =>
    cases h
    rfl
  | cons line lines ih =>
    rw [List.foldlM_cons] at h
    obtain ⟨config₁, hline, h⟩ := bind_eq_ok.mp h
    rw [ih h, monitorLine_interval hline, List.filterMap_cons]
    cases intervalText line with
    | none => rfl
    | some t =>
      dsimp only
      rw [List.getLast?_cons]
      cases (lines.filterMap intervalText).getLast? with
      | none => rfl
      | some u => rfl

/-! ### The interval arithmetic -/

/-- What `atoi` makes of the number a text begins with. -/
theorem atoi_written (t : Text) :
    atoi t = ((written t).map fun n => toInt32 (clampLong n)).getD 0 := by
  rw [atoi, scanInt_written]

def inSeconds (n : ℤ) : ℕ := toUInt32 (toInt32 (clampLong n))

theorem loadConfig_seconds (h : guestMonitorLoadConfig (some text) = .ok (some config)) :
    config.monitorIntervalInSecond = ((configuredSeconds text).map inSeconds).getD 0 := by
  obtain ⟨config₁, hlines, h⟩ := bind_eq_ok.mp h
  cases h
  rw [loaded_interval hlines, configuredSeconds]
  cases ((configLines text).filterMap intervalText).getLast? with
  | none => rfl
  | some t =>
    dsimp only [Option.map_some, Option.getD_some]
    rw [atoi_written]
    cases written t with
    | none => rfl
    | some n => rfl

theorem inSeconds_of_fits {n : ℤ} (hmin : 0 ≤ n) (hmax : n ≤ intMax) : (inSeconds n : ℤ) = n := by
  have hin : InInt n := by
    simp only [InInt, intMin]
    omega
  simp only [intMax] at hmax
  rw [inSeconds, clampLong_of_inInt hin, toInt32_of_inInt hin, toUInt32]
  omega

theorem secondToUs_exact {seconds : ℕ} :
    secondToUs seconds = seconds * usPerSecond ↔ seconds ≤ 4294 := by
  simp only [secondToUs, usPerSecond]
  omega

/-- Only the interval can be the divisor that is zero. -/
theorem getVmMemBw_divides (hinterval : config.monitorIntervalInSecond ≠ 0) (metrics : CoreMetrics)
    (coreSet : Text) (bw : VmBandwidth) :
    getVmMemBw config metrics coreSet bw ≠ .error .divisionByZero := by
  intro h
  rcases bind_eq_error.mp h with h | ⟨bw₁, _, h⟩
  · have hfault : Fault.divisionByZero ≠ .divisionByZero := by
      refine vmMngrForEachCore_fault (Q := fun e => e ≠ .divisionByZero) (by simp) (by simp) ?_ h
      intro b core e he
      rcases bind_eq_error.mp he with he | ⟨_, _, he⟩
      · unfold coreIndex at he
        split_ifs at he
        cases he
        simp
      · cases he
    exact hfault rfl
  · rw [if_neg hinterval] at h
    cases h

theorem coreIndex_of_range {coreId : ℤ} (h : 0 ≤ coreId ∧ coreId < maxCores) :
    ∃ c, coreIndex coreId = .ok c := ⟨_, dif_pos h⟩

/-- A counter of one core is enough to reach the division. -/
theorem getVmMemBw_zero (hinterval : config.monitorIntervalInSecond = 0) (metrics : CoreMetrics)
    (bw : VmBandwidth) : getVmMemBw config metrics "0".toList bw = .error .divisionByZero := by
  have hrun : ∀ bw, vmMngrForEachCore "0".toList (accumulateBwPerCore metrics) bw =
      accumulateBwPerCore metrics bw 0 := by
    intro bw
    have hbug : bugOn .coreSetNonEmpty (decide ("0".toList = [])) = .ok () := by rfl
    have htokens : tokens "0".toList = ["0".toList] := by decide
    have hpair : sscanf "%d-%d" "0".toList = [.int 0] := by decide
    have hcore : sscanf "%d" "0".toList = [.int 0] := by decide
    rw [vmMngrForEachCore, hbug, ok_bind, htokens, forEachToken, coreToken, hpair]
    dsimp only
    rw [hcore]
    exact bind_pure _
  obtain ⟨c, hc⟩ := @coreIndex_of_range 0 (by decide)
  rw [getVmMemBw, hrun, accumulateBwPerCore, hc, ok_bind, ok_bind, if_pos hinterval]

/-- The interval arithmetic is sound just when the file asks for 1 to 4294 seconds. -/
theorem intervalSound_iff (haccepted : guestMonitorLoadConfig (some text) = .ok (some config)) :
    IntervalSound config text ↔
      ∃ seconds, configuredSeconds text = some seconds ∧ 1 ≤ seconds ∧ seconds ≤ 4294 := by
  have hload := loadConfig_seconds haccepted
  constructor
  · rintro ⟨_, seconds, hseconds, hpos, hsleep⟩
    refine ⟨seconds, hseconds, hpos, ?_⟩
    have hlt : monitorIntervalInUs config < 4294967296 := Nat.mod_lt _ (by norm_num)
    simp only [usPerSecond] at hsleep
    omega
  · rintro ⟨seconds, hseconds, hmin, hmax⟩
    have hinterval : (config.monitorIntervalInSecond : ℤ) = seconds := by
      rw [hload, hseconds]
      exact inSeconds_of_fits (by omega) (by simp only [intMax]; omega)
    refine ⟨fun metrics coreSet bw => getVmMemBw_divides (by omega) metrics coreSet bw, seconds,
      hseconds, hmin, ?_⟩
    rw [monitorIntervalInUs, secondToUs_exact.mpr (by omega), ← hinterval]
    push_cast
    ring

/-- The interval of the default configuration. -/
theorem intervalSound_iff_default :
    let text := "# seconds\nmonitor_interval_second 1\n".toList
    let config := defaultConfig
    IntervalSound config text ↔
      ∃ seconds, configuredSeconds text = some seconds ∧ 1 ≤ seconds ∧ seconds ≤ 4294 :=
  intervalSound_iff (by rfl)

/-- An interval of zero is accepted, and the first turn over a running VM divides by it. -/
theorem intervalSound_fails_zero :
    let text := "monitor_interval_second 0\n".toList
    ∃ config, guestMonitorLoadConfig (some text) = .ok (some config) ∧
      (∀ metrics bw, getVmMemBw config metrics "0".toList bw = .error .divisionByZero) ∧
      ¬ IntervalSound config text := by
  have hload : guestMonitorLoadConfig (some "monitor_interval_second 0\n".toList) =
      .ok (some { defaultConfig with monitorIntervalInSecond := 0 }) := by rfl
  have hzero := @getVmMemBw_zero { defaultConfig with monitorIntervalInSecond := 0 } rfl
  refine ⟨_, hload, hzero, fun h => ?_⟩
  exact h.divisor ⟨fun _ => 0, fun _ => 0⟩ "0".toList ⟨0, 0, 0⟩ (hzero _ _)

end Ramryder.GuestMonitor
