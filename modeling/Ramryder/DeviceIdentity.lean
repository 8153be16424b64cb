import Ramryder.ConfigLines
import Ramryder.SegmentBounds

/-! What a configuration says about the physical devices, and when the ranges of live
devices are disjoint memory. -/
namespace Ramryder.DeviceIdentity
open CMachine CText ConfigLines GuestAgents MemoryPool MemoryPoolSpec Ownership PoolConfig Runs SegmentBounds
  VmManager

variable {m : Manager} {pool pool' : Pool} {buffers : LineBuffers} {lines : List Text}

/-! ### The device lines of a file -/

/-- What a device line calls its device. -/
structure DeviceName where
  path : Text
  tierId : ℤ
  daxId : ℤ
  deriving DecidableEq, Repr

def nameOf (dev : MemoryDaxDev) : DeviceName := ⟨dev.devPath, dev.tierId, dev.daxId⟩

/-- The names on the device lines, in order; the scan buffers go from line to line. -/
def deviceLines : LineBuffers → List Text → List DeviceName
  | _, [] => []
  | buffers, line :: lines =>
    if isSectionOrComment (cString line) then deviceLines buffers lines
    else
      match scanLine buffers (cString line) with
      | .error _ => []
      | .ok (count, buffers) =>
        if 2 ≤ count ∧ buffers.key = "dev".toList then
          match parseDev buffers with
          | .ok (some dev) => nameOf dev :: deviceLines buffers lines
          | _ => []
        else deviceLines buffers lines

/-- The lines `memory_pool_load_config` reads. -/
def configLines : Option Text → List Text
  | none => []
  | some text => fgetsAll lineSize text.length text

/-- The names of the devices, in the order of the node ids. -/
def deviceNames (pool : Pool) : List DeviceName :=
  (List.range pool.numDevs).map fun k => nameOf (pool.memDevs k)

theorem deviceNames_addDev (pool : Pool) (dev : MemoryDaxDev) :
    deviceNames (addDev pool dev) = deviceNames pool ++ [nameOf dev] := by
  rw [deviceNames, show (addDev pool dev).numDevs = pool.numDevs + 1 from rfl, List.range_succ,
    List.map_append, List.map_singleton, deviceNames]
  congr 1
  · refine List.map_congr_left fun k hk => ?_
    rw [show (addDev pool dev).memDevs k = _ from setDev_memDevs pool pool.numDevs dev k,
      if_neg (List.mem_range.mp hk).ne]
  · rw [show (addDev pool dev).memDevs pool.numDevs = _ from
      setDev_memDevs pool pool.numDevs dev pool.numDevs, if_pos rfl]

/-- A line that is accepted adds the device it names, or none. -/
theorem loadLine_names {buffers' : LineBuffers} {line : Text}
    (h : loadLine buffers pool (cString line) = .ok (some (buffers', pool'))) :
    deviceNames pool' ++ deviceLines buffers' lines =
      deviceNames pool ++ deviceLines buffers (line :: lines) := by
  rw [deviceLines]
  cases loadLine_read h with
  | skipped hskip => rw [if_pos hskip]
  | short hread hscan hshort =>
    rw [if_neg (by simp [hread]), hscan]
    dsimp only
    rw [if_neg fun hdev => by omega]
  | segmentSize hread hscan _ hkey =>
    rw [if_neg (by simp [hread]), hscan]
    dsimp only
    rw [if_neg fun hdev => by rw [hdev.2] at hkey; exact absurd hkey (by decide)]
    rfl
  | dev hread hscan hlong hkey _ hparse =>
    rw [if_neg (by simp [hread]), hscan]
    dsimp only
    rw [if_pos ⟨hlong, hkey⟩, hparse]
    dsimp only
    rw [deviceNames_addDev, List.append_assoc, List.singleton_append]
  | other hread hscan _ _ hother =>
    rw [if_neg (by simp [hread]), hscan]
    dsimp only
    rw [if_neg fun hdev => hother hdev.2]

theorem loadLines_names (h : loadLines buffers pool lines = .ok (some pool')) :
    deviceNames pool' = deviceNames pool ++ deviceLines buffers lines := by
  induction lines generalizing buffers pool with
  | nil =>
    cases h
    rw [deviceLines, List.append_nil]
  | cons line lines ih =>
    rw [loadLines] at h
    obtain ⟨res, hline, h⟩ := bind_eq_ok.mp h
    cases res with
    | none => cases h
    | some next => rw [ih h, loadLine_names hline]

/-- An accepted file gives exactly the devices of its device lines. -/
theorem memoryPoolInit_names {config : Option Text}
    (h : memoryPoolInit buffers config = .ok (some pool)) :
    deviceNames pool = deviceLines buffers (configLines config) := by
  unfold memoryPoolInit initMemoryResource at h
  obtain ⟨loaded, hload, h⟩ := bind_eq_ok.mp h
  cases loaded with
  | none => cases h
  | some raw =>
    obtain ⟨ready, hinit, h⟩ := bind_eq_ok.mp h
    cases h
    obtain ⟨_, hnum, _, hdevs⟩ := initDevices_ok hinit
    have hraw : deviceNames pool = deviceNames raw := by
      rw [deviceNames, deviceNames, hnum]
      refine List.map_congr_left fun k hk => ?_
      rw [hdevs k, if_pos ⟨Nat.zero_le k, by rw [Nat.zero_add]; exact List.mem_range.mp hk⟩]
      rfl
    rw [hraw]
    unfold memoryPoolLoadConfig at hload
    cases config with
    | none => cases hload
    | some text => exact loadLines_names hload

/-! ### Physical memory -/

/-- Two requests name a common megabyte of one DAX path. -/
def Overlap (a b : MemoryRequest) : Prop :=
  a.devPath = b.devPath ∧ ∃ mb : ℤ, (a.offsetMb ≤ mb ∧ mb < a.offsetMb + a.sizeMb) ∧
    b.offsetMb ≤ mb ∧ mb < b.offsetMb + b.sizeMb

/-- The devices are pairwise different, named by ids that are not negative, and in no run do two
live memory devices overlap. -/
structure PhysicallyDisjoint (pool : Pool) : Prop where
  path : ∀ k < pool.numDevs, ∀ l < pool.numDevs, k ≠ l →
    (pool.memDevs k).devPath ≠ (pool.memDevs l).devPath
  ids : ∀ k < pool.numDevs, ∀ l < pool.numDevs, k ≠ l →
    ((pool.memDevs k).tierId, (pool.memDevs k).daxId) ≠
      ((pool.memDevs l).tierId, (pool.memDevs l).daxId)
  nonneg : ∀ k < pool.numDevs, 0 ≤ (pool.memDevs k).tierId ∧ 0 ≤ (pool.memDevs k).daxId
  disjoint : ∀ m, Reaches step (initialManager pool) m → ∀ i j dev dev', LiveDev m i dev →
    LiveDev m j dev' → i ≠ j ∨ dev.memdevIdx ≠ dev'.memdevIdx →
      ¬ Overlap dev.memoryReq dev'.memoryReq

/-- What the comment in the configuration asks for, of the lines of a file. -/
def UniqueLines (names : List DeviceName) : Prop :=
  (names.Pairwise fun a b => a.path ≠ b.path ∧ (a.tierId, a.daxId) ≠ (b.tierId, b.daxId)) ∧
    ∀ a ∈ names, 0 ≤ a.tierId ∧ 0 ≤ a.daxId

theorem reaches_sameGeometry (hp : InitialPool pool) (h : Reaches step (initialManager pool) m) :
    SameGeometry pool m.pool := by
  have hboth := h.invariant (I := fun m => Owns m ∧ SameGeometry pool m.pool)
    (fun s op t hs hstep => ⟨owns_step hs.1 hstep, hs.2.trans (step_sameGeometry hs.1 hstep)⟩)
    ⟨owns_initial hp, .refl pool⟩
  exact hboth.2

/-- Where the paths differ, two live devices on one path are on one node. -/
theorem overlap_covered (ho : Owns m) {i j : Fin maxNumVm} {dev dev' : MemoryDev}
    (hpath : ∀ k < m.pool.numDevs, ∀ l < m.pool.numDevs, k ≠ l →
      (m.pool.memDevs k).devPath ≠ (m.pool.memDevs l).devPath)
    (hd : LiveDev m i dev) (hd' : LiveDev m j dev') (h : Overlap dev.memoryReq dev'.memoryReq) :
    ∃ k p, Covers m.pool.segmentSizeMb k p dev ∧ Covers m.pool.segmentSizeMb k p dev' := by
  obtain ⟨k, lo, n, hr⟩ := ho.range i dev hd
  obtain ⟨l, lo', n', hr'⟩ := ho.range j dev' hd'
  have hseg := hr.segmentSize ho.geometry
  obtain ⟨hsame, mb, ⟨h1, h2⟩, h3, h4⟩ := h
  rw [hr.request] at hsame h1 h2
  rw [hr'.request] at hsame h3 h4
  have hfits := fun q hq => (ho.geometry.path q hq).fits
  have hk := hfits k hr.device
  have hl := hfits l hr'.device
  have hkl : k = l := by
    by_contra hne
    refine hpath k hr.device l hr'.device hne ?_
    rwa [List.take_of_length_le (by omega), List.take_of_length_le (by omega)] at hsame
  subst hkl
  have hmb : 0 ≤ mb := le_trans (by positivity) h1
  -- the megabyte lies in this segment
  obtain ⟨p, hp⟩ := Int.eq_ofNat_of_zero_le (Int.ediv_nonneg hmb hseg.le)
  have hbounds : ∀ a c : ℕ, (a : ℤ) * m.pool.segmentSizeMb ≤ mb →
      mb < a * m.pool.segmentSizeMb + c * m.pool.segmentSizeMb → a ≤ p ∧ p < a + c := by
    intro a c hlow hhigh
    have hlow' := (Int.le_ediv_iff_mul_le hseg).mpr hlow
    rw [← add_mul] at hhigh
    have hhigh' := (Int.ediv_lt_iff_lt_mul hseg).mpr hhigh
    rw [hp] at hlow' hhigh'
    omega
  obtain ⟨hlow, hhigh⟩ := hbounds lo n h1 h2
  obtain ⟨hlow', hhigh'⟩ := hbounds lo' n' h3 h4
  exact ⟨k, p, (hr.covers_iff ho.geometry k p).mpr ⟨rfl, hlow, hhigh⟩,
    (hr'.covers_iff ho.geometry k p).mpr ⟨rfl, hlow', hhigh'⟩⟩

theorem uniqueLines_iff (pool : Pool) :
    UniqueLines (deviceNames pool) ↔
      (∀ k < pool.numDevs, ∀ l < pool.numDevs, k ≠ l →
        (pool.memDevs k).devPath ≠ (pool.memDevs l).devPath ∧
        ((pool.memDevs k).tierId, (pool.memDevs k).daxId) ≠
          ((pool.memDevs l).tierId, (pool.memDevs l).daxId)) ∧
      ∀ k < pool.numDevs, 0 ≤ (pool.memDevs k).tierId ∧ 0 ≤ (pool.memDevs k).daxId := by
  rw [UniqueLines, deviceNames, List.pairwise_map]
  refine and_congr ?_ ?_
  · rw [List.pairwise_iff_getElem]
    simp only [List.length_range, List.getElem_range, nameOf]
    constructor
    · intro h k hk l hl hne
      rcases Nat.lt_or_gt_of_ne hne with hlt | hgt
      · exact h k l hk hl hlt
      · obtain ⟨hpath, hids⟩ := h l k hl hk hgt
        exact ⟨hpath.symm, hids.symm⟩
    · intro h k l hk hl hlt
      exact h k hk l hl hlt.ne
  · simp [nameOf]

theorem accepted_disjoint {config : Option Text}
    (h : memoryPoolInit buffers config = .ok (some pool)) :
    PhysicallyDisjoint pool ↔ UniqueLines (deviceLines buffers (configLines config)) := by
  have hp := memoryPoolInit_initial h
  rw [← memoryPoolInit_names h, uniqueLines_iff]
  constructor
  · intro hd
    exact ⟨fun k hk l hl hne => ⟨hd.path k hk l hl hne, hd.ids k hk l hl hne⟩, hd.nonneg⟩
  · rintro ⟨hdistinct, hnonneg⟩
    refine ⟨fun k hk l hl hne => (hdistinct k hk l hl hne).1,
      fun k hk l hl hne => (hdistinct k hk l hl hne).2, hnonneg, ?_⟩
    intro m hreach i j dev dev' hd hd' hne hover
    have ho := owns_reachable hp hreach
    have hsame := reaches_sameGeometry hp hreach
    have hpath : ∀ k < m.pool.numDevs, ∀ l < m.pool.numDevs, k ≠ l →
        (m.pool.memDevs k).devPath ≠ (m.pool.memDevs l).devPath := by
      intro k hk l hl hkl
      rw [(hsame.dev k).1, (hsame.dev l).1]
      exact (hdistinct k (hsame.numDevs ▸ hk) l (hsame.numDevs ▸ hl) hkl).1
    obtain ⟨k, p, hboth⟩ := overlap_covered ho hpath hd hd' hover
    exact ho.disjoint hd hd' hne k p hboth

theorem initDevices_error {n i : ℕ} {e : Fault} (h : initDevices n i pool = .error e) :
    e = .divisionByZero := by
  induction n generalizing i pool with
  | zero => cases h
  | succ n ih =>
    rw [initDevices] at h
    split_ifs at h
    · cases h
      rfl
    · exact ih h

/-- Where the set-up does not divide by zero, it accepts what the loader reads to its end. -/
theorem init_fits_iff {text : Text} (hread : memoryPoolInit buffers (some text) ≠ .ok none)
    (hdivides : memoryPoolInit buffers (some text) ≠ .error .divisionByZero) :
    (∃ pool, memoryPoolInit buffers (some text) = .ok (some pool)) ↔ FitsBuffers text := by
  unfold memoryPoolInit initMemoryResource at hread hdivides ⊢
  have hload : memoryPoolLoadConfig buffers (some text) ≠ .ok none := by
    intro h
    rw [h] at hread
    exact hread rfl
  rw [← load_fits_iff hload]
  constructor
  · rintro ⟨pool, h⟩
    obtain ⟨res, hres, _⟩ := bind_eq_ok.mp h
    cases res with
    | none => exact absurd hres hload
    | some raw => exact ⟨raw, hres⟩
  · rintro ⟨raw, hraw⟩
    rw [hraw, ok_bind] at hdivides ⊢
    dsimp only at hdivides ⊢
    cases hinit : initDevices raw.numDevs 0 raw with
    | error e =>
      rw [hinit, initDevices_error hinit] at hdivides
      exact absurd rfl hdivides
    | ok ready => exact ⟨ready, rfl⟩

def twoDevConfig (first second : String) : Text :=
  "segment_size_mb 4\n".toList ++ sprintf "dev path=%s size_mb=8 tier_id=0 dax_id=0\n"
    [.text first.toList] ++ sprintf "dev path=%s size_mb=8 tier_id=0 dax_id=1\n" [.text second.toList]

/-- The slot of the first VM. -/
def firstSlot : Fin maxNumVm := ⟨0, by decide⟩

end Ramryder.DeviceIdentity
