import Ramryder.ConfigLines
import Ramryder.PoolCalls
import Ramryder.SegmentBounds

/-! What a configuration file says line by line, against what the loader makes of it: its scan
buffers are not cleared between lines, and the segment size is set only where a line sets it. -/
namespace Ramryder.ConfigFile
open CInt CMachine CScan CText ConfigLines MemoryPool MemoryPoolSpec PoolCalls PoolConfig Runs
  SegmentBounds

variable {buffers buffers' : LineBuffers} {pool pool' : Pool} {line text : Text} {lines : List Text}

/-! ### The segment size -/

/-- A line that sets the segment size. -/
def SetsSegmentSize (line : Text) : Prop :=
  isSectionOrComment line = false ∧
    ∃ value rest, lineWords line = "segment_size_mb".toList :: value :: rest

theorem scanLine_long {count : ℕ} (hscan : scanLine buffers line = .ok (count, buffers')) (hlong : 2 ≤ count) :
    ∃ value rest, lineWords line = buffers'.key :: value :: rest := by
  rw [(scanLine_iff.mp hscan).2.1] at hlong
  match hwords : lineWords line with
  | [] | [_] =>
    rw [hwords] at hlong
    simp at hlong
  | w :: value :: rest => exact ⟨value, rest, by rw [key_own hwords hscan]⟩

theorem scanLine_unset {count : ℕ} (hscan : scanLine buffers line = .ok (count, buffers'))
    (hkey : buffers'.key ≠ "segment_size_mb".toList) : ¬ SetsSegmentSize line := by
  rintro ⟨_, value, rest, hwords⟩
  exact hkey (key_own hwords hscan)

theorem loadLine_segmentSize (h : loadLine buffers pool line = .ok (some (buffers', pool'))) :
    (SetsSegmentSize line ∧ 0 < pool'.segmentSizeMb) ∨
      (¬ SetsSegmentSize line ∧ pool'.segmentSizeMb = pool.segmentSizeMb) := by
  cases loadLine_read h with
  | skipped hskip =>
    refine .inr ⟨fun hsets => ?_, rfl⟩
    rw [hsets.1] at hskip
    cases hskip
  | short _ hscan hshort =>
    refine .inr ⟨?_, rfl⟩
    rintro ⟨_, value, rest, hwords⟩
    rw [(scanLine_iff.mp hscan).2.1, hwords, List.length_cons, List.length_cons] at hshort
    omega
  | segmentSize hread hscan hlong hkey hpos =>
    obtain ⟨value, rest, hwords⟩ := scanLine_long hscan hlong
    exact .inl ⟨⟨hread, value, rest, hkey ▸ hwords⟩, hpos⟩
  | dev _ hscan _ hkey =>
    refine .inr ⟨scanLine_unset hscan ?_, rfl⟩
    rw [hkey]
    decide
  | other _ hscan _ hsize => exact .inr ⟨scanLine_unset hscan hsize, rfl⟩

/-- The size that is loaded is zero just where no line has set it. -/
theorem loadLines_segmentSize (h : loadLines buffers pool lines = .ok (some pool')) :
    pool'.segmentSizeMb ≠ 0 ↔
      pool.segmentSizeMb ≠ 0 ∨ ∃ line ∈ lines.map cString, SetsSegmentSize line := by
  induction lines generalizing buffers pool with
  | nil =>
    cases h
    simp
  | cons line lines ih =>
    rw [loadLines] at h
    obtain ⟨res, hline, h⟩ := bind_eq_ok.mp h
    cases res with
    | none => cases h
    | some next =>
      rw [ih h, List.map_cons, List.exists_mem_cons_iff]
      rcases loadLine_segmentSize hline with ⟨hsets, hpos⟩ | ⟨hnot, hsame⟩
      · exact ⟨fun _ => .inr (.inl hsets), fun _ => .inl hpos.ne'⟩
      · rw [hsame]
        tauto

/-! ### Divisions by the segment size -/

/-- No division by the segment size has a zero divisor: not while the pool is set up, and not in any
sequence of requests after that. -/
structure DividesSafely (stack : LineBuffers) (text : Text) : Prop where
  init : memoryPoolInit stack (some text) ≠ .error .divisionByZero
  later : ∀ pool ops, memoryPoolInit stack (some text) = .ok (some pool) →
    run requestStep pool ops ≠ .error .divisionByZero

variable {dev dev' : MemoryDaxDev} {e : Fault} {nodeId vmId sizeMb : ℤ}

theorem allocate_divides (hne : pool.segmentSizeMb ≠ 0) :
    memoryPoolAllocateSegments pool nodeId vmId sizeMb ≠ .error .divisionByZero := by
  intro h
  obtain ⟨aligned, hal⟩ := @isAligned_total sizeMb pool.segmentSizeMb hne
  rw [memoryPoolAllocateSegments, hal, ok_bind] at h
  split at h
  · cases h
  split at h
  · cases h
  rcases bind_eq_error.mp h with h | ⟨⟨start, dev'⟩, _, h⟩
  · rcases allocateSegments_error h with ⟨hbug, _⟩ | ⟨_, p, hidx⟩
    · cases hbug
    · cases hidx
  · dsimp only at h
    split_ifs at h
    simp only [bind_eq_error] at h
    rcases h with h | ⟨_, _, h | ⟨_, _, h⟩⟩
    · cases cInt_eq_error h
    · cases cInt_eq_error h
    · cases h

theorem releasable_divides {idx : ℤ} : releasable dev vmId idx ≠ .error .divisionByZero := by
  intro h
  unfold releasable at h
  split_ifs at h
  rcases bind_eq_error.mp h with h | ⟨_, _, h⟩
  · cases (readSegment_eq_error h).1
  · cases h

theorem releaseSegment_divides {idx : ℤ} : releaseSegment dev idx ≠ .error .divisionByZero := by
  intro h
  rcases bind_eq_error.mp h with h | ⟨_, _, h⟩
  · unfold writeSegment at h
    split_ifs at h
    cases h
  · cases h

theorem releaseSegments_divides {start i : ℤ} {n : ℕ} :
    releaseSegments vmId start n i dev ≠ .error .divisionByZero := by
  intro h
  induction n generalizing i dev with
  | zero => cases h
  | succ n ih =>
    rw [releaseSegments] at h
    rcases bind_eq_error.mp h with h | ⟨found, _, h⟩
    · exact releasable_divides h
    · split at h
      · rcases bind_eq_error.mp h with h | ⟨_, _, h⟩
        · exact releaseSegment_divides h
        · exact ih h
      · rcases bind_eq_error.mp h with h | ⟨_, _, h⟩
        · cases (readSegment_eq_error h).1
        · cases h

theorem release_divides {offsetMb : ℤ} (hne : pool.segmentSizeMb ≠ 0) :
    memoryPoolReleaseSegments pool nodeId vmId offsetMb sizeMb ≠ .error .divisionByZero := by
  intro h
  obtain ⟨sizeAligned, hsize⟩ := @isAligned_total sizeMb pool.segmentSizeMb hne
  obtain ⟨offsetAligned, hoffset⟩ := @isAligned_total offsetMb pool.segmentSizeMb hne
  rw [memoryPoolReleaseSegments, hsize, hoffset, ok_bind, ok_bind] at h
  split at h
  · cases h
  split at h
  · cases h
  split at h
  · cases h
  · rcases bind_eq_error.mp h with h | ⟨_, _, h⟩
    · exact releaseSegments_divides h
    · cases h

/-- No request divides by zero where the segment size is not zero. -/
theorem requestStep_divides (hne : pool.segmentSizeMb ≠ 0) {op : PoolOp} :
    requestStep pool op ≠ .error .divisionByZero := by
  intro h
  cases op with
  | allocate nodeId vmId sizeMb => exact allocate_divides hne (map_eq_error.mp h)
  | release nodeId vmId offsetMb sizeMb => exact release_divides hne (map_eq_error.mp h)
  | releaseVm vmId =>
    obtain ⟨⟨p, hp⟩, _⟩ := releaseVmDevices_error h
    cases hp

/-- No request changes the segment size. -/
theorem requestStep_segmentSize {op : PoolOp} (h : requestStep pool op = .ok pool') :
    pool'.segmentSizeMb = pool.segmentSizeMb := by
  cases op with
  | allocate nodeId vmId sizeMb =>
    obtain ⟨⟨req, _⟩, halloc, rfl⟩ := map_eq_ok.mp h
    simp only [memoryPoolAllocateSegments, bind_eq_ok] at halloc
    obtain ⟨aligned, _, halloc⟩ := halloc
    split at halloc
    · cases halloc
      rfl
    split at halloc
    · cases halloc
      rfl
    simp only [bind_eq_ok] at halloc
    obtain ⟨⟨start, dev'⟩, _, halloc⟩ := halloc
    dsimp only at halloc
    split at halloc
    · cases halloc
      rfl
    · simp only [bind_eq_ok] at halloc
      obtain ⟨_, _, _, _, halloc⟩ := halloc
      cases halloc
      rfl
  | release nodeId vmId offsetMb sizeMb =>
    obtain ⟨⟨ret, _⟩, hrel, rfl⟩ := map_eq_ok.mp h
    simp only [memoryPoolReleaseSegments, bind_eq_ok] at hrel
    obtain ⟨aligned, _, hrel⟩ := hrel
    split at hrel
    · cases hrel
      rfl
    simp only [bind_eq_ok] at hrel
    obtain ⟨aligned', _, hrel⟩ := hrel
    split at hrel
    · cases hrel
      rfl
    split at hrel
    · cases hrel
      rfl
    simp only [bind_eq_ok] at hrel
    obtain ⟨_, _, hrel⟩ := hrel
    cases hrel
    rfl
  | releaseVm vmId =>
    rw [memoryPoolReleaseVmMemory_ok h]
    rfl

theorem initDevices_divides {n i : ℕ} (hne : pool.segmentSizeMb ≠ 0) :
    ∃ pool', initDevices n i pool = .ok pool' := by
  induction n generalizing i pool with
  | zero => exact ⟨pool, rfl⟩
  | succ n ih =>
    rw [initDevices, if_neg hne]
    exact ih hne

/-- The divisions are safe just when some line of the file sets the segment size. -/
theorem dividesSafely_iff {stack : LineBuffers}
    (haccepted : memoryPoolLoadConfig stack (some text) = .ok (some pool)) :
    DividesSafely stack text ↔ ∃ line ∈ fileLines text, SetsSegmentSize line := by
  have hsize : pool.segmentSizeMb ≠ 0 ↔ ∃ line ∈ fileLines text, SetsSegmentSize line := by
    rw [loadLines_segmentSize haccepted]
    simp [noPool, fileLines]
  have hinit : memoryPoolInit stack (some text) =
      (initDevices pool.numDevs 0 pool).map some := by
    rw [memoryPoolInit, initMemoryResource, haccepted, ok_bind]
    dsimp only
    cases initDevices pool.numDevs 0 pool with
    | error e => rfl
    | ok ready => rfl
  rw [← hsize]
  constructor
  · intro hsafe hzero
    cases hnum : pool.numDevs with
    | zero =>
      rw [hnum, initDevices] at hinit
      refine hsafe.later pool [.allocate 0 0 1] hinit ?_
      rw [run_cons_error _ (e := .divisionByZero)]
      rw [requestStep, memoryPoolAllocateSegments, isAligned, hzero]
      rfl
    | succ n =>
      rw [hnum, initDevices, if_pos hzero] at hinit
      exact hsafe.init hinit
  · intro hne
    refine ⟨fun h => ?_, fun ready ops h => ?_⟩
    · obtain ⟨ready, hready⟩ := @initDevices_divides pool pool.numDevs 0 hne
      rw [hinit, hready] at h
      cases h
    · rw [hinit] at h
      obtain ⟨_, hready, heq⟩ := map_eq_ok.mp h
      cases heq
      intro hrun
      have hfault : Fault.divisionByZero ≠ .divisionByZero :=
        run_fault (I := fun pool : Pool => pool.segmentSizeMb ≠ 0)
          (P := fun e => e ≠ .divisionByZero)
          (fun _ _ _ hne hstep => by rw [requestStep_segmentSize hstep]; exact hne)
          (fun _ _ _ hne hstep he => requestStep_divides hne (he ▸ hstep))
          (by rw [(initDevices_ok hready).2.2.1]; exact hne) hrun
      exact hfault rfl

theorem dividesSafely_iff_oneDev :
    let text := "segment_size_mb 128\ndev path=/dev/dax0.0 size_mb=1024 tier_id=0 dax_id=1\n".toList
    ∃ pool, memoryPoolLoadConfig zeroBuffers (some text) = .ok (some pool) ∧
      (DividesSafely zeroBuffers text ↔ ∃ line ∈ fileLines text, SetsSegmentSize line) := by
  obtain ⟨pool, hload, _⟩ := @exists_of_view _ _
    (memoryPoolLoadConfig zeroBuffers
      (some "segment_size_mb 128\ndev path=/dev/dax0.0 size_mb=1024 tier_id=0 dax_id=1\n".toList))
    Pool.numDevs 1 (by rfl)
  exact ⟨pool, hload, dividesSafely_iff hload⟩

/-- A file with only the devices is accepted, and its first device is divided by zero. -/
theorem dividesSafely_fails_devices :
    let text := "[devices]\ndev path=/dev/dax0.0 size_mb=1024 tier_id=0 dax_id=1\n".toList
    ∃ pool, memoryPoolLoadConfig zeroBuffers (some text) = .ok (some pool) ∧
      memoryPoolInit zeroBuffers (some text) = .error .divisionByZero ∧
      ¬ DividesSafely zeroBuffers text := by
  obtain ⟨pool, hload, hview⟩ := @exists_of_view _ _
    (memoryPoolLoadConfig zeroBuffers
      (some "[devices]\ndev path=/dev/dax0.0 size_mb=1024 tier_id=0 dax_id=1\n".toList))
    (fun pool => (pool.numDevs, pool.segmentSizeMb)) (1, 0) (by rfl)
  obtain ⟨hnum, hzero⟩ := Prod.mk.inj hview
  have hinit : memoryPoolInit zeroBuffers
      (some "[devices]\ndev path=/dev/dax0.0 size_mb=1024 tier_id=0 dax_id=1\n".toList) =
        .error .divisionByZero := by
    rw [memoryPoolInit, initMemoryResource, hload, ok_bind]
    dsimp only
    rw [hnum, initDevices, if_pos hzero, error_bind]
  exact ⟨pool, hload, hinit, fun hsafe => hsafe.init hinit⟩

/-! ### The devices -/

/-- What a device line says of its device. -/
structure DeviceFields where
  path : Text
  sizeMb : ℤ
  tierId : ℤ
  daxId : ℤ
  deriving DecidableEq, Repr

def fieldsOf (dev : MemoryDaxDev) : DeviceFields :=
  ⟨dev.devPath, dev.totalSizeMb, dev.tierId, dev.daxId⟩

/-- The devices that are registered, in the order of registration. -/
def registered (pool : Pool) : List DeviceFields :=
  (List.range pool.numDevs).map fun k => fieldsOf (pool.memDevs k)

def devLines (text : Text) : List Text := (fileLines text).filter IsDevLine

/-- The number that a text is, to its last character. -/
def wholeNumber (t : Text) : Option ℤ :=
  if (scanSign t).2.all Char.isDigit then written t else none

/-- The number behind the name of a field, as it is written. -/
def fieldNumber (name : String) (word : Text) : Option ℤ := (fieldText name word).bind wholeNumber

theorem fieldNumber_written {name : String} {word : Text} {n : ℤ}
    (h : fieldNumber name word = some n) : (fieldText name word).bind written = some n := by
  obtain ⟨t, ht, hwhole⟩ := Option.bind_eq_some_iff.mp h
  unfold wholeNumber at hwhole
  split_ifs at hwhole
  rw [ht, Option.bind_some, hwhole]

/-- The four fields that a device line has of its own. -/
def writtenDev (line : Text) : Option DeviceFields :=
  match lineWords line with
  | [_, value1, value2, value3, value4] => do
    let path ← fieldText "path=" value1
    let sizeMb ← fieldNumber "size_mb=" value2
    let tierId ← fieldNumber "tier_id=" value3
    let daxId ← fieldNumber "dax_id=" value4
    some ⟨path, sizeMb, tierId, daxId⟩
  | _ => none

/-- Every device line of the file has its four fields, and they are those of its device. -/
def FaithfulDevices (text : Text) (pool : Pool) : Prop :=
  (devLines text).map writtenDev = (registered pool).map some

/-- A device line with its own four fields, whose numbers fit an `int`. -/
def CompleteDev (line : Text) : Prop :=
  ∃ fields, writtenDev line = some fields ∧ InInt fields.sizeMb ∧ InInt fields.tierId ∧
    InInt fields.daxId

/-- What the conversions make of the written fields. -/
def DeviceFields.converted (fields : DeviceFields) : DeviceFields :=
  ⟨fields.path, readBack fields.sizeMb, readBack fields.tierId, readBack fields.daxId⟩

theorem converted_eq_iff (fields : DeviceFields) :
    fields.converted = fields ↔
      InInt fields.sizeMb ∧ InInt fields.tierId ∧ InInt fields.daxId := by
  obtain ⟨path, sizeMb, tierId, daxId⟩ := fields
  simp only [DeviceFields.converted, DeviceFields.mk.injEq, true_and, readBack_eq_iff]

/-- A number field is converted from what the text behind its name begins with. -/
theorem scan_number {name : String} (hname : ∀ c ∈ name.toList, isSpace c = false) (word : Text) :
    scan (lits name ++ [.int 0]) word =
      (((fieldText name word).bind written).map fun n => Item.int (readBack n)).toList := by
  rw [lits, scan_name hname, fieldText]
  by_cases hstarts : name.toList <+: word
  · rw [if_pos hstarts]
    generalize word.drop name.toList.length = rest
    have hwritten := scanInt_written rest
    have hscan : scan [.int 0] rest =
        ((scanInt rest).map fun r => Item.int r.1).toList := by
      rw [scan]
      cases scanInt rest with
      | none => rfl
      | some r => rfl
    rw [hscan]
    by_cases hrest : rest = []
    · subst hrest
      rw [if_neg fun h => h.2 rfl]
      rfl
    · rw [if_pos ⟨hstarts, hrest⟩, Option.bind_some]
      cases hint : scanInt rest with
      | none =>
        rw [hint, Option.map_none] at hwritten
        rw [Option.map_eq_none_iff.mp hwritten.symm]
        rfl
      | some r =>
        rw [hint, Option.map_some] at hwritten
        obtain ⟨n, hn, hr⟩ := Option.map_eq_some_iff.mp hwritten.symm
        rw [hn, Option.map_some, Option.map_some, ← hr]
        rfl
  · rw [if_neg hstarts, if_neg fun h => hstarts h.1]
    rfl

theorem scanned_number {name : String} {format : String} {word : Text} {n k : ℤ}
    (hname : ∀ c ∈ name.toList, isSpace c = false)
    (hformat : directives none format.toList = lits name ++ [.int 0])
    (h : sscanf format word = [.int n]) (hk : fieldNumber name word = some k) : n = readBack k := by
  rw [sscanf, hformat, scan_number hname, fieldNumber_written hk] at h
  exact (Item.int.inj (List.cons.inj h).1).symm

/-- Where the line has all four fields, its device gets them, converted. -/
theorem parseDev_own {fields : DeviceFields} {count : ℕ}
    (hscan : scanLine buffers line = .ok (count, buffers')) (hwritten : writtenDev line = some fields)
    (h : parseDev buffers' = .ok (some dev)) : fieldsOf dev = fields.converted := by
  unfold writtenDev at hwritten
  split at hwritten
  · rename_i w value1 value2 value3 value4 hwords
    obtain ⟨hfits, _, hbuffers⟩ := scanLine_iff.mp hscan
    rw [hwords] at hbuffers
    subst hbuffers
    simp only [Option.bind_eq_bind, Option.bind_eq_some_iff, Option.some.injEq] at hwritten
    obtain ⟨path, hpath, sizeMb, hsize, tierId, htier, daxId, hdax, rfl⟩ := hwritten
    have hvalue : ∀ c ∈ value1, isSpace c = false := lineWords_noSpace (by rw [hwords]; simp)
    have hlen : value1.length < valueSize := hfits.2 value1 (by rw [hwords]; simp)
    unfold parseDev at h
    split at h
    · rename_i path' hscanPath
      split_ifs at h
      split at h
      · rename_i sizeMb' tierId' daxId' hscanSize hscanTier hscanDax
        cases h
        have hpath' : sscanf "path=%255s" value1 = [.text path'] := hscanPath
        rw [scan_pathField hvalue hlen, hpath] at hpath'
        obtain rfl := Item.text.inj (List.cons.inj hpath').1
        obtain rfl := @scanned_number "size_mb=" _ _ _ _ (by simp [isSpace]) rfl hscanSize hsize
        obtain rfl := @scanned_number "tier_id=" _ _ _ _ (by simp [isSpace]) rfl hscanTier htier
        obtain rfl := @scanned_number "dax_id=" _ _ _ _ (by simp [isSpace]) rfl hscanDax hdax
        rfl
      · cases h
    · cases h
  · cases hwritten

theorem registered_addDev (pool : Pool) (dev : MemoryDaxDev) :
    registered (addDev pool dev) = registered pool ++ [fieldsOf dev] := by
  have hnum : (addDev pool dev).numDevs = pool.numDevs + 1 := rfl
  have hdevs : ∀ k, (addDev pool dev).memDevs k =
      if k = pool.numDevs then dev else pool.memDevs k :=
    fun k => setDev_memDevs pool pool.numDevs dev k
  rw [registered, hnum, List.range_succ, List.map_append, List.map_singleton, hdevs, if_pos rfl,
    registered]
  congr 1
  refine List.map_congr_left fun k hk => ?_
  rw [hdevs, if_neg (List.mem_range.mp hk).ne]

/-- An accepted line registers the device of its own four fields, or none. -/
theorem loadLine_registered (h : loadLine buffers pool line = .ok (some (buffers', pool')))
    (hcomplete : IsDevLine line → (writtenDev line).isSome) :
    registered pool' = registered pool ++
      if IsDevLine line then ((writtenDev line).map DeviceFields.converted).toList else [] := by
  cases loadLine_read h with
  | skipped hskip =>
    rw [if_neg, List.append_nil]
    intro hdev
    rw [hdev.1] at hskip
    cases hskip
  | short _ hscan hshort =>
    rw [if_neg, List.append_nil]
    intro hdev
    obtain ⟨fields, hfields⟩ := Option.isSome_iff_exists.mp (hcomplete hdev)
    rw [(scanLine_iff.mp hscan).2.1] at hshort
    unfold writtenDev at hfields
    split at hfields
    · rename_i hwords
      rw [hwords] at hshort
      simp only [List.length_cons] at hshort
      omega
    · cases hfields
  | segmentSize hread hscan hlong hkey =>
    rw [if_neg, List.append_nil]
    · rfl
    · rw [isDevLine_iff hread hscan hlong, hkey]
      decide
  | dev hread hscan hlong hkey _ hparse =>
    have hdev := (isDevLine_iff hread hscan hlong).mpr hkey
    obtain ⟨fields, hfields⟩ := Option.isSome_iff_exists.mp (hcomplete hdev)
    rw [registered_addDev, if_pos hdev, hfields, parseDev_own hscan hfields hparse]
    rfl
  | other hread hscan hlong _ hother =>
    rw [if_neg fun hdev => hother ((isDevLine_iff hread hscan hlong).mp hdev), List.append_nil]

theorem loadLines_registered (h : loadLines buffers pool lines = .ok (some pool'))
    (hcomplete : ∀ line ∈ lines.map cString, IsDevLine line → (writtenDev line).isSome) :
    registered pool' = registered pool ++
      (((lines.map cString).filter IsDevLine).filterMap writtenDev).map DeviceFields.converted := by
  induction lines generalizing buffers pool with
  | nil =>
    cases h
    rw [List.map_nil, List.filter_nil, List.filterMap_nil, List.map_nil, List.append_nil]
  | cons line lines ih =>
    rw [loadLines] at h
    obtain ⟨res, hline, h⟩ := bind_eq_ok.mp h
    cases res with
    | none => cases h
    | some next =>
      rw [List.map_cons] at hcomplete ⊢
      have hfirst := loadLine_registered hline (hcomplete _ List.mem_cons_self)
      rw [ih h fun l hl => hcomplete l (List.mem_cons_of_mem _ hl), hfirst, List.append_assoc]
      congr 1
      by_cases hdev : IsDevLine (cString line)
      · rw [if_pos hdev, List.filter_cons_of_pos (by simpa using hdev), List.filterMap_cons]
        cases writtenDev (cString line) with
        | none => rfl
        | some fields => rfl
      · rw [if_neg hdev, List.filter_cons_of_neg (by simpa using hdev), List.nil_append]

/-- Where every device line has its four fields, the devices are those lines, converted. -/
theorem load_registered {stack : LineBuffers}
    (h : memoryPoolLoadConfig stack (some text) = .ok (some pool))
    (hwritten : ∀ line ∈ devLines text, (writtenDev line).isSome) :
    registered pool = ((devLines text).filterMap writtenDev).map DeviceFields.converted := by
  have hregistered := loadLines_registered h fun line hline hdev =>
    hwritten line (List.mem_filter.mpr ⟨hline, by simpa using hdev⟩)
  rw [hregistered]
  rfl

theorem completeDev_iff : CompleteDev line ↔
    ∃ fields, writtenDev line = some fields ∧ fields.converted = fields :=
  exists_congr fun fields => by rw [converted_eq_iff]

theorem accepted_faithful {stack : LineBuffers}
    (haccepted : memoryPoolLoadConfig stack (some text) = .ok (some pool)) :
    FaithfulDevices text pool ↔ ∀ line ∈ devLines text, CompleteDev line := by
  have hload : (∀ line ∈ devLines text, (writtenDev line).isSome) →
      registered pool = ((devLines text).filterMap writtenDev).map DeviceFields.converted :=
    load_registered haccepted
  unfold FaithfulDevices
  generalize devLines text = lines at hload
  constructor
  · intro hfaithful
    have hsome : ∀ line ∈ lines, (writtenDev line).isSome := by
      intro line hline
      have hmem : writtenDev line ∈ (registered pool).map some :=
        hfaithful ▸ List.mem_map_of_mem hline
      obtain ⟨fields, _, hfields⟩ := List.mem_map.mp hmem
      rw [← hfields]
      rfl
    have hwritten : lines.filterMap writtenDev = registered pool := by
      have hcat : (lines.map writtenDev).filterMap id = registered pool := by
        rw [hfaithful, List.filterMap_map, Function.id_comp, List.filterMap_some]
      rwa [List.filterMap_map, Function.id_comp] at hcat
    have hfixed : (registered pool).map DeviceFields.converted = (registered pool).map id := by
      rw [List.map_id, ← hwritten, ← hload hsome]
      exact hwritten.symm
    intro line hline
    obtain ⟨fields, hfields⟩ := Option.isSome_iff_exists.mp (hsome line hline)
    have hmem : fields ∈ registered pool :=
      hwritten ▸ List.mem_filterMap.mpr ⟨line, hline, hfields⟩
    exact completeDev_iff.mpr ⟨fields, hfields, List.map_inj_left.mp hfixed fields hmem⟩
  · intro hcomplete
    rw [hload fun line hline => by
      obtain ⟨fields, hfields, _⟩ := hcomplete line hline
      rw [hfields]
      rfl]
    clear hload
    induction lines with
    | nil => rfl
    | cons line lines ih =>
      obtain ⟨fields, hfields, hsame⟩ := completeDev_iff.mp (hcomplete line List.mem_cons_self)
      rw [List.map_cons, List.filterMap_cons, hfields,
        ih fun l hl => hcomplete l (List.mem_cons_of_mem line hl)]
      dsimp only
      rw [List.map_cons, List.map_cons, hsame]

/-- A file that is not rejected is read with the devices of its own lines just when no line overruns
a buffer and every device line is complete. -/
theorem faithfulDevices_iff {stack : LineBuffers}
    (hread : memoryPoolLoadConfig stack (some text) ≠ .ok none) :
    (∃ pool, memoryPoolLoadConfig stack (some text) = .ok (some pool) ∧
      FaithfulDevices text pool) ↔ FitsBuffers text ∧ ∀ line ∈ devLines text, CompleteDev line := by
  constructor
  · rintro ⟨pool, hload, hfaithful⟩
    exact ⟨(load_fits_iff hread).mp ⟨pool, hload⟩, (accepted_faithful hload).mp hfaithful⟩
  · rintro ⟨hfits, hcomplete⟩
    obtain ⟨pool, hload⟩ := (load_fits_iff hread).mpr hfits
    exact ⟨pool, hload, (accepted_faithful hload).mpr hcomplete⟩

theorem faithfulDevices_iff_oneDev :
    let text := "segment_size_mb 128\ndev path=/dev/dax0.0 size_mb=1024 tier_id=0 dax_id=1\n".toList
    (∃ pool, memoryPoolLoadConfig zeroBuffers (some text) = .ok (some pool) ∧
      FaithfulDevices text pool) ↔
        FitsBuffers text ∧ ∀ line ∈ devLines text, CompleteDev line := by
  obtain ⟨pool, hload, _⟩ := @exists_of_view _ _
    (memoryPoolLoadConfig zeroBuffers
      (some "segment_size_mb 128\ndev path=/dev/dax0.0 size_mb=1024 tier_id=0 dax_id=1\n".toList))
    Pool.numDevs 1 (by rfl)
  exact faithfulDevices_iff fun h => by
    rw [hload] at h
    cases h

/-- The second device line has a path only; the device takes the rest from the line before it. -/
theorem faithfulDevices_fails_stale :
    let text := ("segment_size_mb 128\ndev path=/dev/dax0.0 size_mb=1024 tier_id=0 dax_id=0\n" ++
      "dev path=/dev/dax1.0\n").toList
    ∃ pool, memoryPoolLoadConfig zeroBuffers (some text) = .ok (some pool) ∧
      registered pool = [⟨"/dev/dax0.0".toList, 1024, 0, 0⟩, ⟨"/dev/dax1.0".toList, 1024, 0, 0⟩] ∧
      (devLines text).map writtenDev = [some ⟨"/dev/dax0.0".toList, 1024, 0, 0⟩, none] ∧
      ¬ FaithfulDevices text pool := by
  obtain ⟨pool, hload, hview⟩ := @exists_of_view _ _
    (memoryPoolLoadConfig zeroBuffers
      (some ("segment_size_mb 128\ndev path=/dev/dax0.0 size_mb=1024 tier_id=0 dax_id=0\n" ++
        "dev path=/dev/dax1.0\n").toList))
    registered [⟨"/dev/dax0.0".toList, 1024, 0, 0⟩, ⟨"/dev/dax1.0".toList, 1024, 0, 0⟩]
    (by decide +kernel)
  have hwritten : (devLines
      ("segment_size_mb 128\ndev path=/dev/dax0.0 size_mb=1024 tier_id=0 dax_id=0\n" ++
        "dev path=/dev/dax1.0\n").toList).map writtenDev =
      [some ⟨"/dev/dax0.0".toList, 1024, 0, 0⟩, none] := by rfl
  refine ⟨pool, hload, hview, hwritten, fun hfaithful => ?_⟩
  rw [FaithfulDevices, hwritten, hview] at hfaithful
  simp at hfaithful

end Ramryder.ConfigFile
