import Ramryder.Ownership

/-! Where the segment arrays are accessed. The loader checks the number of devices
but not the number of segments of a device, so the loops stay inside the array
exactly when every configured device is small enough. -/
namespace Ramryder.SegmentBounds
open CInt CMachine CText CoreSet GuestAgents MemoryPool MemoryPoolSpec Ownership PerfCounter
  PoolConfig Runs VmManager VmManagerSpec

variable {m : Manager} {pool : Pool} {vmId : ℤ} {e : Fault}

/-- A fault that is not an access outside a `segments` array. -/
def OffArrays (e : Fault) : Prop := ∀ idx, e ≠ .segmentIndex idx

/-- No request sequence makes a `segments` access leave the array. -/
def SegmentsInBounds (pool : Pool) : Prop :=
  ∀ ops e, run step (initialManager pool) ops = .error e → OffArrays e

/-- Every configured device has at most `MAX_SEGMENTS` segments. -/
def DevicesFit (pool : Pool) : Prop :=
  ∀ k < pool.numDevs, (pool.memDevs k).totalSizeMb / pool.segmentSizeMb ≤ maxSegments

theorem offArrays_callFaults : CallFaults OffArrays where
  bugOn := fun _ _ => by simp
  divisionByZero := fun _ => by simp
  intOverflow := fun _ => by simp
  guestAgentIndex := fun _ _ => by simp
  perfEventFds := fun _ => by simp

/-- What the segment arrays of a small enough pool allow. -/
structure FitsArrays (m : Manager) : Prop where
  owns : Owns m
  total : ¬ OversizedDev m.pool

theorem step_offArrays (hf : FitsArrays m) {op : Op} (h : step m op = .error e) : OffArrays e := by
  have hQ := offArrays_callFaults
  have hseg : OversizedDev m.pool → ∀ p, OffArrays (.segmentIndex p) := fun h => absurd h hf.total
  cases op with
  | create vmId coreSet => exact vmMngrInstanceCreate_fault hQ.toVmFaults (map_eq_error.mp h)
  | destroy vmId => exact vmMngrInstanceDestroy_fault hseg (map_eq_error.mp h)
  | start vmId env => exact vmMngrInstanceStart_fault hQ (map_eq_error.mp h)
  | stop vmId kernel => exact vmMngrInstanceStop_fault hQ (map_eq_error.mp h)
  | allocMem nodeId vmId sizeMb => exact vmMngrInstanceAllocMem_fault hQ.toVmFaults hseg (map_eq_error.mp h)
  | freeMem vmId memdevIdx =>
    obtain ⟨r, hr⟩ := hf.owns.freeMem_total vmId memdevIdx
    rw [step, hr] at h
    cases h

theorem step_fitsArrays {m' : Manager} (hf : FitsArrays m) {op : Op} (h : step m op = .ok m') :
    FitsArrays m' := by
  have hs := step_sameGeometry hf.owns h
  refine ⟨owns_step hf.owns h, ?_⟩
  rintro ⟨k, hk, hmax⟩
  rw [(hs.dev k).2.2.2] at hmax
  exact hf.total ⟨k, hs.numDevs ▸ hk, hmax⟩

theorem initial_fitsArrays (hp : InitialPool pool) (hfit : DevicesFit pool) :
    FitsArrays (initialManager pool) := by
  refine ⟨owns_initial hp, ?_⟩
  rintro ⟨k, hk, hmax⟩
  rw [show (initialManager pool).pool = pool from rfl] at hk hmax
  rw [hp.total k hk] at hmax
  exact absurd hmax (not_lt.mpr (hfit k hk))

/-- Creating a VM on one core and destroying it again walks every device to its end. -/
theorem createDestroy_outside {k : ℕ} (hk : k < pool.numDevs)
    (hmax : (maxSegments : ℤ) < (pool.memDevs k).totalSegments) :
    ∃ p, run step (initialManager pool) [.create 0 "0".toList, .destroy 0] =
      .error (.segmentIndex p) := by
  have hcreate : ∃ m, step (initialManager pool) (.create 0 "0".toList) = .ok m ∧
      m.pool = pool ∧ ∃ i, vmMngrGetInstance m 0 = some i ∧ (m.vms i).running = false ∧
      (m.vms i).vmId = 0 := ⟨_, rfl, rfl, ⟨0, by decide⟩, rfl, rfl, rfl⟩
  obtain ⟨m, hm, hpool, i, hget, hrun, hid⟩ := hcreate
  obtain ⟨p, hrel⟩ := @releaseVmDevices_outside 0 pool pool.numDevs 0 k (Nat.zero_le _)
    (by omega) hmax
  refine ⟨p, ?_⟩
  rw [run_cons_ok _ hm, run_cons_error]
  simp only [step, vmMngrInstanceDestroy, hget, hrun, hid, hpool, memoryPoolReleaseVmMemory, hrel]
  rfl

/-- For every accepted configuration: the arrays are never left if and only if every device
fits them. -/
theorem segmentsInBounds_iff {stack : LineBuffers} {config : Option Text}
    (h : memoryPoolInit stack config = .ok (some pool)) :
    SegmentsInBounds pool ↔ DevicesFit pool := by
  have hp := memoryPoolInit_initial h
  constructor
  · intro hin k hk
    rw [← hp.total k hk]
    by_contra hmax
    obtain ⟨p, hrun⟩ := createDestroy_outside hk (not_le.mp hmax)
    exact hin _ _ hrun p rfl
  · intro hfit ops e hrun
    exact run_fault (fun _ _ _ hf hs => step_fitsArrays hf hs)
      (fun _ _ _ hf hs => step_offArrays hf hs) (initial_fitsArrays hp hfit) hrun

/-- A configuration with one device of segments of 1 MB. -/
def oneDevConfig (sizeMb : String) : Text :=
  ("segment_size_mb 1\ndev path=/dev/dax0.0 size_mb=" ++ sizeMb ++ " tier_id=0 dax_id=0\n").toList

def zeroBuffers : LineBuffers := ⟨[], [], [], [], []⟩

/-- What the bound depends on. -/
def poolView (pool : Pool) : ℕ × ℤ × ℤ :=
  (pool.numDevs, (pool.memDevs 0).totalSizeMb, pool.segmentSizeMb)

theorem segmentsInBounds_iff_4096 : ∃ pool,
    memoryPoolInit zeroBuffers (some (oneDevConfig "4096")) = .ok (some pool) ∧
      (SegmentsInBounds pool ↔ DevicesFit pool) := by
  obtain ⟨pool, hload, _⟩ := exists_of_view (f := poolView) (b := (1, 4096, 1))
    (x := memoryPoolInit zeroBuffers (some (oneDevConfig "4096"))) (by decide +kernel)
  exact ⟨pool, hload, segmentsInBounds_iff hload⟩

/-- The loader accepts a device of 4097 segments, and a destroy then leaves its array. -/
theorem segmentsInBounds_fails_4097 : ∃ pool,
    memoryPoolInit zeroBuffers (some (oneDevConfig "4097")) = .ok (some pool) ∧
      (∃ p, run step (initialManager pool) [.create 0 "0".toList, .destroy 0] =
        .error (.segmentIndex p)) ∧ ¬ SegmentsInBounds pool := by
  obtain ⟨pool, hload, hview⟩ := exists_of_view (f := poolView) (b := (1, 4097, 1))
    (x := memoryPoolInit zeroBuffers (some (oneDevConfig "4097"))) (by decide +kernel)
  simp only [poolView, Prod.mk.injEq] at hview
  obtain ⟨hnum, hsize, hseg⟩ := hview
  have htotal := (memoryPoolInit_initial hload).total 0 (by omega)
  rw [hsize, hseg] at htotal
  have hmax : (maxSegments : ℤ) < (pool.memDevs 0).totalSegments := by
    rw [htotal]
    decide
  obtain ⟨p, hrun⟩ := createDestroy_outside (show 0 < pool.numDevs by omega) hmax
  exact ⟨pool, hload, ⟨p, hrun⟩, fun hin => hin _ _ hrun p rfl⟩

end Ramryder.SegmentBounds
