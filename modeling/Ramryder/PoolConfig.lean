import Ramryder.MemoryPoolSpec

/-! Reading the pool configuration and setting up the pool. The scan buffers of
the line loop outlive a line, so a short line leaves the earlier contents in them. -/
namespace Ramryder.PoolConfig
open CInt CMachine CText MemoryPool MemoryPoolSpec

def lineSize : ℕ := 512
def keySize : ℕ := 32
def valueSize : ℕ := 128

/-- The characters of the first line, its newline included. -/
def firstLine : Text → Text
  | [] => []
  | c :: t => if c = '\n' then [c] else c :: firstLine t

def fgets (size : ℕ) (t : Text) : Text := (firstLine t).take (size - 1)

/-- The successive results of `fgets` until the end of the file. -/
def fgetsAll (size : ℕ) : ℕ → Text → List Text
  | 0, _ => []
  | fuel+1, t =>
    if t = [] then []
    else
      let line := fgets size t
      line :: fgetsAll size fuel (t.drop line.length)

/-- `key`, `value1`, .., `value4`. -/
structure LineBuffers where
  key : Text
  value1 : Text
  value2 : Text
  value3 : Text
  value4 : Text
  deriving DecidableEq, Repr

/-- Storing a word into a buffer without a width in the format; where no word is read, the buffer
keeps what it held. -/
def storeWord (size : ℕ) (old : Text) : Option Item → Outcome Text
  | some (.text t) => if t.length < size then .ok t else .error .bufferOverflow
  | _ => .ok old

/-- `sscanf(line, "%s %s %s %s %s", ..)`: the number of words and the buffers after it. -/
def scanLine (buffers : LineBuffers) (line : Text) : Outcome (ℕ × LineBuffers) := do
  let items := sscanf "%s %s %s %s %s" line
  let key ← storeWord keySize buffers.key items[0]?
  let value1 ← storeWord valueSize buffers.value1 items[1]?
  let value2 ← storeWord valueSize buffers.value2 items[2]?
  let value3 ← storeWord valueSize buffers.value3 items[3]?
  let value4 ← storeWord valueSize buffers.value4 items[4]?
  .ok (items.length, ⟨key, value1, value2, value3, value4⟩)

def atoi (t : Text) : ℤ := ((scanInt t).map Prod.fst).getD 0

def isSectionOrComment (line : Text) : Bool :=
  line.head? == some '#' || "[global]".toList.isPrefixOf line ||
    "[devices]".toList.isPrefixOf line || "[clouddb]".toList.isPrefixOf line

/-- `memset(&mem_device, 0, ..)` followed by the four fields of a device line. -/
def configuredDev (path : Text) (sizeMb tierId daxId : ℤ) : MemoryDaxDev where
  devPath := path
  nodeId := 0
  tierId := tierId
  daxId := daxId
  totalSizeMb := sizeMb
  totalSegments := 0
  usedSegments := 0
  segments := fun _ => ⟨false, 0⟩

/-- The four fields of a device line, `none` where one of the scans fails. A path
that does not fit `dev_path` overruns it: the width in the format is 255. -/
def parseDev (buffers : LineBuffers) : Outcome (Option MemoryDaxDev) :=
  match sscanf "path=%255s" buffers.value1 with
  | [.text path] =>
    if path.length < devPathLen then
      match sscanf "size_mb=%d" buffers.value2, sscanf "tier_id=%d" buffers.value3,
        sscanf "dax_id=%d" buffers.value4 with
      | [.int sizeMb], [.int tierId], [.int daxId] =>
        .ok (some (configuredDev path sizeMb tierId daxId))
      | _, _, _ => .ok none
    else .error .bufferOverflow
  | _ => .ok none

def addDev (pool : Pool) (dev : MemoryDaxDev) : Pool :=
  { pool.setDev pool.numDevs dev with numDevs := pool.numDevs + 1 }

/-- The body of the line loop; `none` where the loader returns -1. Negative ids are
only logged. -/
def loadLine (buffers : LineBuffers) (pool : Pool) (line : Text) :
    Outcome (Option (LineBuffers × Pool)) := do
  if isSectionOrComment line then .ok (some (buffers, pool))
  else
    let (count, buffers) ← scanLine buffers line
    if count < 2 then .ok (some (buffers, pool))
    else if buffers.key = "segment_size_mb".toList then
      let size := atoi buffers.value1
      if size ≤ 0 then .ok none else .ok (some (buffers, { pool with segmentSizeMb := size }))
    else if buffers.key = "dev".toList then
      if maxDevices ≤ pool.numDevs then .ok none
      else do
        match ← parseDev buffers with
        | none => .ok none
        | some dev =>
          if dev.totalSizeMb ≤ 0 then .ok none else .ok (some (buffers, addDev pool dev))
    else .ok (some (buffers, pool))

def loadLines : LineBuffers → Pool → List Text → Outcome (Option Pool)
  | _, pool, [] => .ok (some pool)
  | buffers, pool, line :: lines => do
    match ← loadLine buffers pool (cString line) with
    | none => .ok none
    | some (buffers, pool) => loadLines buffers pool lines

/-- The zeroed globals. -/
def noPool : Pool := ⟨fun _ => configuredDev [] 0 0 0, 0, 0⟩

/-- `config` is the file's contents, `none` where it cannot be opened; `stack` is what the
line buffers hold before the first line. -/
def memoryPoolLoadConfig (stack : LineBuffers) (config : Option Text) : Outcome (Option Pool) :=
  match config with
  | none => .ok none
  | some text => loadLines stack noPool (fgetsAll lineSize text.length text)

def initDev (i : ℕ) (segmentSizeMb : ℤ) (dev : MemoryDaxDev) : MemoryDaxDev :=
  { dev with
    nodeId := i
    totalSegments := dev.totalSizeMb.tdiv segmentSizeMb
    usedSegments := 0
    segments := fun _ => freeSegment }

def initDevices : ℕ → ℕ → Pool → Outcome Pool
  | 0, _, pool => .ok pool
  | n+1, i, pool =>
    if pool.segmentSizeMb = 0 then .error .divisionByZero
    else initDevices n (i + 1) (pool.setDev i (initDev i pool.segmentSizeMb (pool.memDevs i)))

def initMemoryResource (stack : LineBuffers) (config : Option Text) : Outcome (Option Pool) := do
  match ← memoryPoolLoadConfig stack config with
  | none => .ok none
  | some pool => do
    let pool ← initDevices pool.numDevs 0 pool
    .ok (some pool)

/-- The pool where `memory_pool_init` returns 0, `none` where it returns -1. -/
def memoryPoolInit (stack : LineBuffers) (config : Option Text) : Outcome (Option Pool) :=
  initMemoryResource stack config

/-- A device path the loader can store: a word that fits `dev_path`. -/
structure PathText (path : Text) : Prop where
  nonempty : path ≠ []
  fits : path.length < devPathLen
  word : ∀ c ∈ path, isSpace c = false

/-- What no request changes: the devices, their node ids and their sizes in segments. -/
structure PoolGeometry (pool : Pool) : Prop where
  numDevs : pool.numDevs ≤ maxDevices
  segmentSize : 0 < pool.numDevs → 0 < pool.segmentSizeMb
  path : ∀ k < pool.numDevs, PathText (pool.memDevs k).devPath
  node : ∀ k < pool.numDevs, (pool.memDevs k).nodeId = k
  size : ∀ k < pool.numDevs, 0 < (pool.memDevs k).totalSizeMb ∧ InInt (pool.memDevs k).totalSizeMb
  total : ∀ k < pool.numDevs,
    (pool.memDevs k).totalSegments = (pool.memDevs k).totalSizeMb / pool.segmentSizeMb

/-- A pool no request has changed yet: every segment is free. -/
structure InitialPool (pool : Pool) : Prop extends PoolGeometry pool where
  unused : ∀ k < pool.numDevs, (pool.memDevs k).usedSegments = 0
  free : ∀ k < pool.numDevs, ∀ p, (pool.memDevs k).segments p = freeSegment

/-- What the loader keeps of the devices and the segment size. -/
structure LoadedPool (pool : Pool) : Prop where
  numDevs : pool.numDevs ≤ maxDevices
  segmentSize : 0 ≤ pool.segmentSizeMb
  path : ∀ k < pool.numDevs, PathText (pool.memDevs k).devPath
  size : ∀ k < pool.numDevs, 0 < (pool.memDevs k).totalSizeMb ∧ InInt (pool.memDevs k).totalSizeMb

theorem storeWord_text {size : ℕ} {old t t' : Text} :
    storeWord size old (some (.text t)) = .ok t' ↔ t.length < size ∧ t' = t := by
  rw [storeWord]
  split_ifs with hfits
  · rw [Except.ok.injEq]
    exact ⟨fun h => ⟨hfits, h.symm⟩, fun h => h.2.symm⟩
  · exact ⟨nofun, fun h => absurd h.1 hfits⟩

theorem scanInt_inInt {t rest : Text} {n : ℤ} (h : scanInt t = some (n, rest)) : InInt n := by
  unfold scanInt at h
  dsimp only at h
  split at h
  · cases h
  · cases h
    exact toInt32_inInt _

theorem scanWord_word {w : ℕ} {t : Text} {c : Char} (h : c ∈ (scanWord w t).1) :
    isSpace c = false := by
  unfold scanWord at h
  dsimp only at h
  have hmem : c ∈ (t.dropWhile isSpace).takeWhile (fun c => !isSpace c) := by
    split_ifs at h
    · exact h
    · exact List.mem_of_mem_take h
  simpa using List.mem_takeWhile_imp hmem

theorem scan_path {t path : Text} (h : sscanf "path=%255s" t = [.text path]) :
    path ≠ [] ∧ ∀ c ∈ path, isSpace c = false := by
  have hscan : ∀ r : Text, scan [.str 255] r = [.text path] → path ≠ [] ∧ ∀ c ∈ path,
      isSpace c = false := by
    intro r hr
    rw [scan] at hr
    split_ifs at hr with hne
    simp only [List.cons.injEq, Item.text.injEq] at hr
    rw [← hr.1]
    exact ⟨hne, fun c hc => scanWord_word hc⟩
  have hlit : ∀ c ds r, scan (.lit c :: ds) r = [.text path] → ∃ r', scan ds r' = [.text path] := by
    intro c ds r hr
    rw [scan] at hr
    split at hr
    · cases hr
    · exact ⟨_, hr⟩
  have hdir : directives none "path=%255s".toList =
      [.lit 'p', .lit 'a', .lit 't', .lit 'h', .lit '=', .str 255] := by decide
  rw [sscanf, hdir] at h
  obtain ⟨_, h⟩ := hlit _ _ _ h
  obtain ⟨_, h⟩ := hlit _ _ _ h
  obtain ⟨_, h⟩ := hlit _ _ _ h
  obtain ⟨_, h⟩ := hlit _ _ _ h
  obtain ⟨_, h⟩ := hlit _ _ _ h
  exact hscan _ h

/-- A value scanned by `%d` fits an `int`, wherever the directive stands. -/
theorem scan_int_inInt {ds : List Directive} {t : Text} {n : ℤ}
    (h : Item.int n ∈ scan ds t) : InInt n := by
  induction ds generalizing t with
  | nil => simp [scan] at h
  | cons d ds ih =>
    cases d with
    | lit c =>
      rw [scan] at h
      split at h
      · simp at h
      · exact ih h
    | int w =>
      rw [scan] at h
      split at h
      · simp at h
      · rename_i m rest hm
        rcases List.mem_cons.mp h with heq | h
        · cases heq
          exact scanInt_inInt hm
        · exact ih h
    | str w =>
      rw [scan] at h
      split_ifs at h
      · simp at h
      · exact ih (by simpa using h)
    | line =>
      rw [scan] at h
      split_ifs at h
      · simp at h
      · exact ih (by simpa using h)

theorem parseDev_ok {buffers : LineBuffers} {dev : MemoryDaxDev}
    (h : parseDev buffers = .ok (some dev)) :
    PathText dev.devPath ∧ InInt dev.totalSizeMb := by
  unfold parseDev at h
  split at h
  · rename_i path hpath
    obtain ⟨hne, hword⟩ := scan_path hpath
    split_ifs at h with hlen
    split at h
    · rename_i sizeMb tierId daxId hsize _ _
      cases h
      refine ⟨⟨hne, hlen, hword⟩, ?_⟩
      refine @scan_int_inInt (directives none "size_mb=%d".toList) buffers.value2 sizeMb ?_
      rw [← sscanf, hsize]
      exact List.mem_singleton_self _
    · cases h
  · cases h

theorem addDev_loaded {buffers : LineBuffers} {pool : Pool} {dev : MemoryDaxDev} (hp : LoadedPool pool)
    (hroom : pool.numDevs < maxDevices) (hparse : parseDev buffers = .ok (some dev))
    (hsize : 0 < dev.totalSizeMb) : LoadedPool (addDev pool dev) := by
  obtain ⟨hpath, hint⟩ := parseDev_ok hparse
  have hcase : ∀ k < pool.numDevs + 1, k = pool.numDevs ∨ k < pool.numDevs := fun k hk => by omega
  refine ⟨hroom, hp.segmentSize, ?_, ?_⟩
  · intro k hk
    rcases hcase k hk with rfl | hk
    · simpa [addDev, setDev_memDevs] using hpath
    · simpa [addDev, setDev_memDevs, hk.ne] using hp.path k hk
  · intro k hk
    rcases hcase k hk with rfl | hk
    · simpa [addDev, setDev_memDevs] using ⟨hsize, hint⟩
    · simpa [addDev, setDev_memDevs, hk.ne] using hp.size k hk

/-- What a line that is not rejected makes of the buffers and the pool. -/
inductive LineRead (buffers : LineBuffers) (pool : Pool) (line : Text) : LineBuffers → Pool → Prop
  | skipped (hskip : isSectionOrComment line = true) : LineRead buffers pool line buffers pool
  | short {count : ℕ} {scanned : LineBuffers} (hread : isSectionOrComment line = false)
      (hscan : scanLine buffers line = .ok (count, scanned)) (hshort : count < 2) :
      LineRead buffers pool line scanned pool
  | segmentSize {count : ℕ} {scanned : LineBuffers} (hread : isSectionOrComment line = false)
      (hscan : scanLine buffers line = .ok (count, scanned)) (hlong : 2 ≤ count)
      (hkey : scanned.key = "segment_size_mb".toList) (hpos : 0 < atoi scanned.value1) :
      LineRead buffers pool line scanned { pool with segmentSizeMb := atoi scanned.value1 }
  | dev {count : ℕ} {scanned : LineBuffers} {dev : MemoryDaxDev}
      (hread : isSectionOrComment line = false) (hscan : scanLine buffers line = .ok (count, scanned))
      (hlong : 2 ≤ count) (hkey : scanned.key = "dev".toList) (hroom : pool.numDevs < maxDevices)
      (hparse : parseDev scanned = .ok (some dev)) (hsize : 0 < dev.totalSizeMb) :
      LineRead buffers pool line scanned (addDev pool dev)
  | other {count : ℕ} {scanned : LineBuffers} (hread : isSectionOrComment line = false)
      (hscan : scanLine buffers line = .ok (count, scanned)) (hlong : 2 ≤ count)
      (hsize : scanned.key ≠ "segment_size_mb".toList) (hdev : scanned.key ≠ "dev".toList) :
      LineRead buffers pool line scanned pool

theorem loadLine_read {buffers buffers' : LineBuffers} {pool pool' : Pool} {line : Text}
    (h : loadLine buffers pool line = .ok (some (buffers', pool'))) :
    LineRead buffers pool line buffers' pool' := by
  unfold loadLine at h
  split at h
  · rename_i hskip
    cases h
    exact .skipped hskip
  rename_i hread
  have hread : isSectionOrComment line = false := by simpa using hread
  obtain ⟨⟨count, scanned⟩, hscan, h⟩ := bind_eq_ok.mp h
  dsimp only at h
  split at h
  · rename_i hshort
    cases h
    exact .short hread hscan hshort
  rename_i hlong
  split at h
  · rename_i hkey
    split at h
    · cases h
    · rename_i hpos
      cases h
      exact .segmentSize hread hscan (not_lt.mp hlong) hkey (not_le.mp hpos)
  rename_i hsize
  split at h
  · rename_i hkey
    split at h
    · cases h
    rename_i hroom
    obtain ⟨res, hparse, h⟩ := bind_eq_ok.mp h
    cases res with
    | none => cases h
    | some dev =>
      dsimp only at h
      split at h
      · cases h
      · rename_i hpos
        cases h
        exact .dev hread hscan (not_lt.mp hlong) hkey (not_le.mp hroom) hparse (not_le.mp hpos)
  · rename_i hdev
    cases h
    exact .other hread hscan (not_lt.mp hlong) hsize hdev

theorem loadLine_loaded {buffers buffers' : LineBuffers} {pool pool' : Pool} {line : Text}
    (hp : LoadedPool pool) (h : loadLine buffers pool line = .ok (some (buffers', pool'))) :
    LoadedPool pool' := by
  cases loadLine_read h with
  | skipped | short | other => exact hp
  | segmentSize _ _ _ _ hpos => exact ⟨hp.numDevs, hpos.le, hp.path, hp.size⟩
  | dev _ _ _ _ hroom hparse hsize => exact addDev_loaded hp hroom hparse hsize

theorem loadLines_loaded {lines : List Text} {buffers : LineBuffers} {pool pool' : Pool}
    (hp : LoadedPool pool) (h : loadLines buffers pool lines = .ok (some pool')) :
    LoadedPool pool' := by
  induction lines generalizing buffers pool with
  | nil =>
    cases h
    exact hp
  | cons line lines ih =>
    rw [loadLines] at h
    obtain ⟨res, hline, h⟩ := bind_eq_ok.mp h
    cases res with
    | none => cases h
    | some next => exact ih (loadLine_loaded hp hline) h

/-- The devices set up so far and those still to come. -/
theorem initDevices_ok {n i : ℕ} {pool pool' : Pool} (h : initDevices n i pool = .ok pool') :
    (0 < n → pool.segmentSizeMb ≠ 0) ∧ pool'.numDevs = pool.numDevs ∧
      pool'.segmentSizeMb = pool.segmentSizeMb ∧
      ∀ k, pool'.memDevs k =
        if i ≤ k ∧ k < i + n then initDev k pool.segmentSizeMb (pool.memDevs k)
        else pool.memDevs k := by
  induction n generalizing i pool with
  | zero =>
    cases h
    refine ⟨fun h => absurd h (lt_irrefl 0), rfl, rfl, fun k => ?_⟩
    rw [if_neg (by omega)]
  | succ n ih =>
    rw [initDevices] at h
    split_ifs at h with hseg
    obtain ⟨_, hnum, hsize, hdevs⟩ := ih h
    refine ⟨fun _ => hseg, hnum, hsize, fun k => ?_⟩
    rw [hdevs k, setDev_memDevs]
    rcases lt_trichotomy k i with hk | rfl | hk
    · rw [if_neg (by omega), if_neg (by omega), if_neg (by omega)]
    · rw [if_neg (by omega), if_pos rfl, if_pos (by omega)]
    · have : (i + 1 ≤ k ∧ k < i + 1 + n) ↔ (i ≤ k ∧ k < i + (n + 1)) := by omega
      simp only [this, if_neg (show k ≠ i by omega), setDev_segmentSizeMb]

/-- What `memory_pool_init` returns 0 for is an initial pool. -/
theorem memoryPoolInit_initial {stack : LineBuffers} {config : Option Text} {pool : Pool}
    (h : memoryPoolInit stack config = .ok (some pool)) : InitialPool pool := by
  unfold memoryPoolInit initMemoryResource at h
  obtain ⟨loaded, hload, h⟩ := bind_eq_ok.mp h
  cases loaded with
  | none => cases h
  | some raw =>
    obtain ⟨ready, hinit, h⟩ := bind_eq_ok.mp h
    cases h
    have hraw : LoadedPool raw := by
      unfold memoryPoolLoadConfig at hload
      cases config with
      | none => cases hload
      | some text =>
        refine loadLines_loaded ?_ hload
        exact ⟨by simp [noPool], le_rfl, by simp [noPool], by simp [noPool]⟩
    obtain ⟨hne, hnum, hseg, hdevs⟩ := initDevices_ok hinit
    have hdev : ∀ k < pool.numDevs,
        pool.memDevs k = initDev k raw.segmentSizeMb (raw.memDevs k) := fun k hk => by
      rw [hdevs k, if_pos (by omega)]
    refine ⟨⟨hnum ▸ hraw.numDevs, ?_, ?_, ?_, ?_, ?_⟩, ?_, ?_⟩
    · intro hpos
      have := hne (by omega)
      have := hraw.segmentSize
      omega
    · intro k hk
      rw [hdev k hk]
      exact hraw.path k (by omega)
    · intro k hk
      rw [hdev k hk]
      rfl
    · intro k hk
      rw [hdev k hk]
      exact hraw.size k (by omega)
    · intro k hk
      rw [hdev k hk, hseg]
      exact Int.tdiv_eq_ediv_of_nonneg (hraw.size k (by omega)).1.le
    · intro k hk
      rw [hdev k hk]
      rfl
    · intro k hk p
      rw [hdev k hk]
      rfl

end Ramryder.PoolConfig
