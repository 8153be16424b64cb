import Ramryder.Ownership

/-! The calls of the memory pool by themselves, with arbitrary arguments: what an
allocation finds, what a release reads and undoes, and the counters of free segments. -/
namespace Ramryder.PoolCalls
open CInt CMachine FreeRuns MemoryPool MemoryPoolSpec Ownership PoolConfig Runs VmManager VmManagerSpec

variable {dev dev' : MemoryDaxDev} {pool pool' : Pool} {nodeId vmId : ℤ}

/-! ### The reads of a release -/

/-- `release_segments` with the indexes of the entries it reads. Each turn reads its own entry:
in the condition where the index is inside the device, and else for the log line. -/
structure ReleaseRun where
  ret : ℤ
  dev : MemoryDaxDev
  reads : List ℤ

/-- The loop, where reading outside the array gives some value, which decides nothing. -/
def releaseRun (vmId start : ℤ) : ℕ → ℤ → MemoryDaxDev → ReleaseRun
  | 0, _, dev => ⟨0, dev, []⟩
  | n+1, i, dev =>
    let idx := start + i
    if (0 ≤ idx ∧ idx < dev.totalSegments) ∧ Owned dev vmId idx.toNat then
      let r := releaseRun vmId start n (i + 1) (freedAt dev idx.toNat)
      { r with reads := idx :: r.reads }
    else ⟨-1, dev, [idx]⟩

def memoryPoolReleaseRun (pool : Pool) (nodeId vmId offsetMb sizeMb : ℤ) :
    Outcome (ℤ × Pool × List ℤ) := do
  if !(← isAligned sizeMb pool.segmentSizeMb) then .ok (-1, pool, [])
  else if !(← isAligned offsetMb pool.segmentSizeMb) then .ok (-1, pool, [])
  else
    match findMemDev pool nodeId with
    | none => .ok (-1, pool, [])
    | some k =>
      let r := releaseRun vmId (offsetMb.tdiv pool.segmentSizeMb)
        (sizeMb.tdiv pool.segmentSizeMb).toNat 0 (pool.memDevs k)
      .ok (if r.ret < 0 then -1 else 0, pool.setDev k r.dev, r.reads)

/-- A release that reads inside the array does what the run does. -/
theorem releaseSegments_eq_run {start : ℤ} {n : ℕ} {i : ℤ}
    (h : ∀ idx ∈ (releaseRun vmId start n i dev).reads, SegmentIndex idx) :
    releaseSegments vmId start n i dev =
      .ok ((releaseRun vmId start n i dev).ret, (releaseRun vmId start n i dev).dev) := by
  induction n generalizing i dev with
  | zero => rfl
  | succ n ih =>
    rw [releaseRun] at h ⊢
    dsimp only at h ⊢
    rw [releaseSegments]
    split_ifs at h ⊢ with hown
    · have hidx : SegmentIndex (start + i) := h _ List.mem_cons_self
      have hread : releasable dev vmId (start + i) = .ok true := by
        simp [releasable, hown.1, readSegment, hidx, hown.2.1, hown.2.2]
      have hrel : releaseSegment dev (start + i) = .ok (freedAt dev (start + i).toNat) := by
        simp [releaseSegment, writeSegment, hidx, freedAt]
      rw [hread, ok_bind, if_pos rfl, hrel, ok_bind]
      exact ih fun idx hmem => h idx (List.mem_cons_of_mem _ hmem)
    · have hidx : SegmentIndex (start + i) := h _ List.mem_cons_self
      have hread : releasable dev vmId (start + i) = .ok false := by
        by_cases hin : 0 ≤ start + i ∧ start + i < dev.totalSegments
        · have hno : ¬ Owned dev vmId (start + i).toNat := fun ho => hown ⟨hin, ho⟩
          simp only [releasable, if_pos hin, readSegment, if_pos hidx, ok_bind]
          congr 1
          rw [Bool.eq_false_iff]
          simpa [Owned] using hno
        · simp only [releasable, if_neg hin]
      rw [hread, ok_bind, if_neg (by simp), readSegment, if_pos hidx, ok_bind]

/-- Otherwise it ends with the first of these reads. -/
theorem releaseSegments_fault {start : ℤ} {n : ℕ} {i : ℤ}
    (h : ∃ idx ∈ (releaseRun vmId start n i dev).reads, ¬ SegmentIndex idx) :
    ∃ idx, releaseSegments vmId start n i dev = .error (.segmentIndex idx) := by
  induction n generalizing i dev with
  | zero => simp [releaseRun] at h
  | succ n ih =>
    rw [releaseRun] at h
    dsimp only at h
    rw [releaseSegments]
    split_ifs at h with hown
    · by_cases hidx : SegmentIndex (start + i)
      · have hread : releasable dev vmId (start + i) = .ok true := by
          simp [releasable, hown.1, readSegment, hidx, hown.2.1, hown.2.2]
        have hrel : releaseSegment dev (start + i) = .ok (freedAt dev (start + i).toNat) := by
          simp [releaseSegment, writeSegment, hidx, freedAt]
        rw [hread, ok_bind, if_pos rfl, hrel, ok_bind]
        refine ih ?_
        obtain ⟨idx, hmem, hout⟩ := h
        rcases List.mem_cons.mp hmem with rfl | hmem
        · exact absurd hidx hout
        · exact ⟨idx, hmem, hout⟩
      · refine ⟨start + i, ?_⟩
        simp [releasable, hown.1, readSegment, hidx]
    · obtain ⟨idx, hmem, hout⟩ := h
      obtain rfl := List.mem_singleton.mp hmem
      refine ⟨start + i, ?_⟩
      by_cases hin : 0 ≤ start + i ∧ start + i < dev.totalSegments
      · simp [releasable, hin, readSegment, hout]
      · rw [releasable, if_neg hin, ok_bind, if_neg (by simp), readSegment, if_neg hout, error_bind]

/-- Owned segments in front of the rest are released. -/
theorem releaseRun_front {lo k c rest : ℕ}
    (hown : ∀ p, lo + k ≤ p → p < lo + k + c → (p : ℤ) < dev.totalSegments ∧ Owned dev vmId p) :
    releaseRun vmId lo (c + rest) k dev =
      { releaseRun vmId lo rest (k + c : ℕ) (released dev (lo + k) c) with
        reads := (List.range' (lo + k) c).map Nat.cast ++
          (releaseRun vmId lo rest (k + c : ℕ) (released dev (lo + k) c)).reads } := by
  induction c generalizing k dev with
  | zero => simp [released, setRange_zero]
  | succ c ih =>
    obtain ⟨htotal, hhere⟩ := hown (lo + k) le_rfl (by omega)
    have hrest : ∀ p, lo + (k + 1) ≤ p → p < lo + (k + 1) + c →
        (p : ℤ) < (freedAt dev (lo + k)).totalSegments ∧ Owned (freedAt dev (lo + k)) vmId p := by
      intro p h1 h2
      obtain ⟨hp, hpo⟩ := hown p (by omega) (by omega)
      exact ⟨hp, (owned_freedAt (by omega)).mpr hpo⟩
    have hnext := ih hrest
    rw [← Nat.add_assoc, released_succ, Nat.cast_succ] at hnext
    rw [Nat.add_right_comm, releaseRun, ← Nat.cast_add, Int.toNat_natCast]
    dsimp only
    rw [if_pos ⟨⟨by omega, htotal⟩, hhere⟩, hnext, List.range'_succ,
      show k + 1 + c = k + (c + 1) by omega]
    rfl

theorem memoryPoolReleaseRun_found {k lo n : ℕ} (hseg : 0 < pool.segmentSizeMb)
    (hfind : findMemDev pool nodeId = some k) :
    memoryPoolReleaseRun pool nodeId vmId (lo * pool.segmentSizeMb) (n * pool.segmentSizeMb) =
      .ok (if (releaseRun vmId lo n 0 (pool.memDevs k)).ret < 0 then -1 else 0,
        pool.setDev k (releaseRun vmId lo n 0 (pool.memDevs k)).dev,
        (releaseRun vmId lo n 0 (pool.memDevs k)).reads) := by
  simp only [memoryPoolReleaseRun, isAligned_natMul hseg, ok_bind, hfind, natMul_tdiv hseg,
    Int.toNat_natCast]
  rfl

theorem memoryPoolReleaseSegments_found {k lo n : ℕ} (hseg : 0 < pool.segmentSizeMb)
    (hfind : findMemDev pool nodeId = some k) :
    memoryPoolReleaseSegments pool nodeId vmId (lo * pool.segmentSizeMb)
        (n * pool.segmentSizeMb) =
      (releaseSegments vmId lo n 0 (pool.memDevs k)).map fun r =>
        (if r.1 < 0 then -1 else 0, pool.setDev k r.2) := by
  simp only [memoryPoolReleaseSegments, isAligned_natMul hseg, ok_bind, hfind, natMul_tdiv hseg,
    Int.toNat_natCast]
  cases releaseSegments vmId lo n 0 (pool.memDevs k) with
  | error e => rfl
  | ok r => rfl

/-- What the log line reads aside, a release that does not fault is its run. -/
theorem memoryPoolReleaseSegments_run {offsetMb sizeMb ret : ℤ}
    (h : memoryPoolReleaseSegments pool nodeId vmId offsetMb sizeMb = .ok (ret, pool')) :
    ∃ reads, memoryPoolReleaseRun pool nodeId vmId offsetMb sizeMb = .ok (ret, pool', reads) := by
  rw [memoryPoolReleaseSegments] at h
  obtain ⟨size, hsize, h⟩ := bind_eq_ok.mp h
  rw [memoryPoolReleaseRun, hsize, ok_bind]
  cases size with
  | false =>
    cases h
    exact ⟨[], rfl⟩
  | true =>
    rw [if_neg (by simp)] at h ⊢
    obtain ⟨offset, hoffset, h⟩ := bind_eq_ok.mp h
    rw [hoffset, ok_bind]
    cases offset with
    | false =>
      cases h
      exact ⟨[], rfl⟩
    | true =>
      rw [if_neg (by simp)] at h ⊢
      cases hfind : findMemDev pool nodeId with
      | none =>
        rw [hfind] at h
        cases h
        exact ⟨[], rfl⟩
      | some k =>
        rw [hfind] at h
        obtain ⟨⟨r, dev⟩, hrel, h⟩ := bind_eq_ok.mp h
        cases h
        by_cases hin : ∀ idx ∈ (releaseRun vmId (offsetMb.tdiv pool.segmentSizeMb)
            (sizeMb.tdiv pool.segmentSizeMb).toNat 0 (pool.memDevs k)).reads, SegmentIndex idx
        · rw [releaseSegments_eq_run hin] at hrel
          cases hrel
          exact ⟨_, rfl⟩
        · push Not at hin
          obtain ⟨idx, hfault⟩ := releaseSegments_fault hin
          rw [hfault] at hrel
          cases hrel

/-! ### All or nothing -/

/-- A segment of the device, and of its array. -/
def InDevice (dev : MemoryDaxDev) (p : ℕ) : Prop := (p : ℤ) < dev.totalSegments ∧ p < maxSegments

/-- The release of `n` segments from `lo` on reads only segments of the device, and releases
them all or leaves the pool as it was. -/
def ReleasesAllOrNothing (pool : Pool) (nodeId vmId : ℤ) (lo n : ℕ) : Prop :=
  ∃ ret pool' reads,
    memoryPoolReleaseSegments pool nodeId vmId (lo * pool.segmentSizeMb)
      (n * pool.segmentSizeMb) = .ok (ret, pool') ∧
    memoryPoolReleaseRun pool nodeId vmId (lo * pool.segmentSizeMb)
      (n * pool.segmentSizeMb) = .ok (ret, pool', reads) ∧
    (∀ k, findMemDev pool nodeId = some k →
      ∀ idx ∈ reads, 0 ≤ idx ∧ idx < (pool.memDevs k).totalSegments) ∧
    ((ret = -1 ∧ pool' = pool) ∨
      (ret = 0 ∧ ∃ k, findMemDev pool nodeId = some k ∧
        (∀ p, lo ≤ p → p < lo + n →
          (p : ℤ) < (pool.memDevs k).totalSegments ∧ Owned (pool.memDevs k) vmId p) ∧
        pool' = pool.setDev k (released (pool.memDevs k) lo n)))

/-- There is a segment size, and on the device, if there is one, either all the segments are
inside and owned, or the first one is inside and not owned. -/
def ReleaseClean (pool : Pool) (nodeId vmId : ℤ) (lo n : ℕ) : Prop :=
  0 < pool.segmentSizeMb ∧ ∀ k, findMemDev pool nodeId = some k →
    (∀ p, lo ≤ p → p < lo + n →
      InDevice (pool.memDevs k) p ∧ Owned (pool.memDevs k) vmId p) ∨
    (0 < n ∧ InDevice (pool.memDevs k) lo ∧ ¬ Owned (pool.memDevs k) vmId lo)

theorem releaseRun_owned {lo n : ℕ}
    (hown : ∀ p, lo ≤ p → p < lo + n → (p : ℤ) < dev.totalSegments ∧ Owned dev vmId p) :
    releaseRun vmId lo n 0 dev = ⟨0, released dev lo n, (List.range' lo n).map Nat.cast⟩ := by
  have h := @releaseRun_front dev vmId lo 0 n 0 hown
  simpa [releaseRun] using h

theorem releaseRun_foreign {lo n : ℕ} (hn : 0 < n)
    (hno : ¬ ((lo : ℤ) < dev.totalSegments ∧ Owned dev vmId lo)) :
    releaseRun vmId lo n 0 dev = ⟨-1, dev, [(lo : ℤ)]⟩ := by
  obtain ⟨r, rfl⟩ : ∃ r, n = r + 1 := ⟨n - 1, by omega⟩
  rw [releaseRun]
  dsimp only
  rw [add_zero, Int.toNat_natCast, if_neg fun h => hno ⟨h.1.2, h.2⟩]

/-- The run up to the first segment that is outside or not owned. -/
theorem releaseRun_stops {lo n c : ℕ} (hc : c < n)
    (hown : ∀ p, lo ≤ p → p < lo + c → (p : ℤ) < dev.totalSegments ∧ Owned dev vmId p)
    (hno : ¬ (((lo + c : ℕ) : ℤ) < dev.totalSegments ∧ Owned dev vmId (lo + c))) :
    releaseRun vmId lo n 0 dev =
      ⟨-1, released dev lo c, (List.range' lo c).map Nat.cast ++ [((lo + c : ℕ) : ℤ)]⟩ := by
  obtain ⟨r, rfl⟩ : ∃ r, n = c + (r + 1) := ⟨n - c - 1, by omega⟩
  have h := @releaseRun_front dev vmId lo 0 c (r + 1) hown
  have hlast : releaseRun vmId lo (r + 1) (0 + c : ℕ) (released dev lo c) =
      ⟨-1, released dev lo c, [((lo + c : ℕ) : ℤ)]⟩ := by
    have hno' : ¬ (((lo + c : ℕ) : ℤ) < (released dev lo c).totalSegments ∧
        Owned (released dev lo c) vmId (lo + c)) := by
      rw [released_owned]
      exact fun hboth => hno ⟨hboth.1, hboth.2.2⟩
    rw [releaseRun, zero_add, ← Nat.cast_add, Int.toNat_natCast]
    dsimp only
    rw [if_neg fun hin => hno' ⟨hin.1.2, hin.2⟩]
  rw [add_zero, hlast] at h
  exact_mod_cast h

theorem released_changed {k lo c : ℕ} (hc : 0 < c) (hown : Owned (pool.memDevs k) vmId lo) :
    pool.setDev k (released (pool.memDevs k) lo c) ≠ pool := by
  intro h
  have hdev : (pool.setDev k (released (pool.memDevs k) lo c)).memDevs k = pool.memDevs k := by
    rw [h]
  rw [setDev_memDevs, if_pos rfl] at hdev
  rw [← hdev] at hown
  exact (released_owned.mp hown).1 ⟨le_rfl, by omega⟩

theorem releaseClean_sound {lo n : ℕ} (h : ReleaseClean pool nodeId vmId lo n) :
    ReleasesAllOrNothing pool nodeId vmId lo n := by
  obtain ⟨hseg, hclean⟩ := h
  cases hfind : findMemDev pool nodeId with
  | none =>
    refine ⟨-1, pool, [], ?_, ?_, by simp, .inl ⟨rfl, rfl⟩⟩
    · simp [memoryPoolReleaseSegments, isAligned_natMul hseg, hfind]
    · simp [memoryPoolReleaseRun, isAligned_natMul hseg, hfind]
  | some k =>
    have hrun := @memoryPoolReleaseRun_found pool nodeId vmId k lo n hseg hfind
    have hcall := @memoryPoolReleaseSegments_found pool nodeId vmId k lo n hseg hfind
    rcases hclean k hfind with hall | ⟨hn, hin, hno⟩
    · have hown : ∀ p, lo ≤ p → p < lo + n →
          (p : ℤ) < (pool.memDevs k).totalSegments ∧ Owned (pool.memDevs k) vmId p :=
        fun p h1 h2 => ⟨(hall p h1 h2).1.1, (hall p h1 h2).2⟩
      have hreads : ∀ idx ∈ (releaseRun vmId lo n 0 (pool.memDevs k)).reads, SegmentIndex idx := by
        rw [releaseRun_owned hown]
        intro idx hidx
        obtain ⟨p, hp, rfl⟩ := List.mem_map.mp hidx
        rw [List.mem_range'_1] at hp
        exact segmentIndex_natCast.mpr (hall p hp.1 hp.2).1.2
      rw [releaseSegments_eq_run hreads, releaseRun_owned hown] at hcall
      rw [releaseRun_owned hown] at hrun
      refine ⟨0, _, _, hcall, hrun, ?_, .inr ⟨rfl, k, hfind, hown, rfl⟩⟩
      rintro k' hk' idx hidx
      obtain rfl : k' = k := Option.some.inj (hk'.symm.trans hfind)
      obtain ⟨p, hp, rfl⟩ := List.mem_map.mp hidx
      rw [List.mem_range'_1] at hp
      exact ⟨by omega, (hown p hp.1 hp.2).1⟩
    · have hno' : ¬ ((lo : ℤ) < (pool.memDevs k).totalSegments ∧ Owned (pool.memDevs k) vmId lo) :=
        fun hboth => hno hboth.2
      have hreads : ∀ idx ∈ (releaseRun vmId lo n 0 (pool.memDevs k)).reads, SegmentIndex idx := by
        rw [releaseRun_foreign hn hno']
        intro idx hidx
        rw [List.mem_singleton.mp hidx]
        exact segmentIndex_natCast.mpr hin.2
      rw [releaseSegments_eq_run hreads, releaseRun_foreign hn hno'] at hcall
      rw [releaseRun_foreign hn hno'] at hrun
      refine ⟨-1, pool, [(lo : ℤ)], ?_, ?_, ?_, .inl ⟨rfl, rfl⟩⟩
      · rw [hcall, Except.map, setDev_self]
        rfl
      · rw [hrun, setDev_self]
        rfl
      · rintro k' hk' idx hidx
        obtain rfl : k' = k := Option.some.inj (hk'.symm.trans hfind)
        rw [List.mem_singleton.mp hidx]
        exact ⟨by omega, hin.1⟩

/-- A range that is not the VM's own throughout has a first segment that cannot be released. -/
theorem first_unreleasable {dev : MemoryDaxDev} {lo n : ℕ}
    (h : ¬ ∀ p, lo ≤ p → p < lo + n → InDevice dev p ∧ Owned dev vmId p) :
    ∃ c < n, (∀ p, lo ≤ p → p < lo + c → InDevice dev p ∧ Owned dev vmId p) ∧
      ¬ (InDevice dev (lo + c) ∧ Owned dev vmId (lo + c)) := by
  induction n with
  | zero => exact absurd (fun p h1 h2 => absurd h2 (by omega)) h
  | succ n ih =>
    by_cases hfront : ∀ p, lo ≤ p → p < lo + n → InDevice dev p ∧ Owned dev vmId p
    · refine ⟨n, n.lt_succ_self, hfront, fun hlast => h fun p h1 h2 => ?_⟩
      rcases Nat.lt_succ_iff_lt_or_eq.mp (show p < lo + n + 1 by omega) with h3 | rfl
      · exact hfront p h1 h3
      · exact hlast
    · obtain ⟨c, hc, hrest⟩ := ih hfront
      exact ⟨c, hc.trans n.lt_succ_self, hrest⟩

/-- A segment that is released is read, and so has a place in the array. -/
theorem released_index {dev : MemoryDaxDev} {lo n c : ℕ}
    (hreads : ∀ idx ∈ (releaseRun vmId lo n 0 dev).reads, SegmentIndex idx) (hc : c < n)
    (hwalked : ∀ p, lo ≤ p → p < lo + (c + 1) → (p : ℤ) < dev.totalSegments ∧ Owned dev vmId p) :
    lo + c < maxSegments := by
  have hrest : n = c + 1 + (n - c - 1) := by omega
  have hfront := @releaseRun_front dev vmId lo 0 (c + 1) (n - c - 1) hwalked
  rw [← hrest, Nat.cast_zero] at hfront
  rw [hfront] at hreads
  exact segmentIndex_natCast.mp (hreads (lo + c : ℕ) (List.mem_append_left _ (List.mem_map.mpr
    ⟨lo + c, List.mem_range'_1.mpr (by omega), rfl⟩)))

/-- For every pool, node, VM and aligned range: the release is all or nothing, with reads
inside the device, exactly when the range is clean. -/
theorem releasesAllOrNothing_iff (hsize : 0 ≤ pool.segmentSizeMb) (lo n : ℕ) :
    ReleasesAllOrNothing pool nodeId vmId lo n ↔ ReleaseClean pool nodeId vmId lo n := by
  refine ⟨?_, releaseClean_sound⟩
  rintro ⟨ret, pool', reads, hcall, hrun, hinside, hresult⟩
  have hseg : 0 < pool.segmentSizeMb := by
    refine lt_of_le_of_ne hsize fun hzero => ?_
    simp [memoryPoolReleaseSegments, ← hzero, isAligned] at hcall
  refine ⟨hseg, fun k hfind => ?_⟩
  by_contra hdirty
  rw [not_or] at hdirty
  obtain ⟨hbad, hfirst⟩ := hdirty
  -- `lo + c` is the first segment that cannot be released
  obtain ⟨c, hc, hown, hno⟩ := first_unreleasable hbad
  have hwalked : ∀ p, lo ≤ p → p < lo + c →
      (p : ℤ) < (pool.memDevs k).totalSegments ∧ Owned (pool.memDevs k) vmId p :=
    fun p h1 h2 => ⟨(hown p h1 h2).1.1, (hown p h1 h2).2⟩
  rw [memoryPoolReleaseSegments_found hseg hfind] at hcall
  have hreads : ∀ idx ∈ (releaseRun vmId lo n 0 (pool.memDevs k)).reads, SegmentIndex idx := by
    by_contra hout
    push Not at hout
    obtain ⟨idx, hfault⟩ := releaseSegments_fault hout
    rw [hfault] at hcall
    cases hcall
  by_cases hhere : ((lo + c : ℕ) : ℤ) < (pool.memDevs k).totalSegments ∧
      Owned (pool.memDevs k) vmId (lo + c)
  · have hmax := released_index hreads hc fun p h1 h2 => by
      rcases Nat.lt_succ_iff_lt_or_eq.mp (show p < lo + c + 1 by omega) with h3 | rfl
      · exact hwalked p h1 h3
      · exact hhere
    exact hno ⟨⟨hhere.1, hmax⟩, hhere.2⟩
  · rw [memoryPoolReleaseRun_found hseg hfind, releaseRun_stops hc hwalked hhere] at hrun
    rw [releaseRun_stops hc hwalked hhere] at hreads
    cases hrun
    have hlast : ((lo + c : ℕ) : ℤ) ∈
        (List.range' lo c).map Nat.cast ++ [((lo + c : ℕ) : ℤ)] := by simp
    have hmax := segmentIndex_natCast.mp (hreads _ hlast)
    have htotal := (hinside k hfind _ hlast).2
    rcases hresult with ⟨_, hsame⟩ | ⟨hzero, _⟩
    · rcases Nat.eq_zero_or_pos c with rfl | hpos
      · exact hfirst ⟨hc, ⟨htotal, hmax⟩, fun ho => hhere ⟨htotal, ho⟩⟩
      · exact released_changed hpos (hown lo le_rfl (by omega)).2 hsame
    · cases hzero

theorem releasesAllOrNothing_iff_smallPool :
    ReleasesAllOrNothing smallPool 0 3 0 2 ↔ ReleaseClean smallPool 0 3 0 2 :=
  releasesAllOrNothing_iff (by decide) 0 2

/-- A range whose second segment is free: the first one is released, and the call returns -1. -/
theorem releasesAllOrNothing_fails_partly : ∃ req pool,
    memoryPoolAllocateSegments smallPool 0 3 4 = .ok (some req, pool) ∧
      ¬ ReleasesAllOrNothing pool 0 3 0 2 := by
  have heval : ((memoryPoolAllocateSegments smallPool 0 3 4).toOption.bind fun r =>
      (memoryPoolReleaseSegments r.2 0 3 ((0 : ℕ) * r.2.segmentSizeMb)
        ((2 : ℕ) * r.2.segmentSizeMb)).toOption.map fun q =>
          (r.1.isSome, q.1, ((r.2.memDevs 0).segments 0).allocated,
            ((q.2.memDevs 0).segments 0).allocated)) = some (true, -1, true, false) := by
    rfl
  cases halloc : memoryPoolAllocateSegments smallPool 0 3 4 with
  | error e =>
    rw [halloc] at heval
    cases heval
  | ok r =>
    obtain ⟨res, pool⟩ := r
    rw [halloc] at heval
    cases res with
    | none => simp [Except.toOption] at heval
    | some req =>
      refine ⟨req, pool, rfl, ?_⟩
      rintro ⟨ret, pool', reads, hcall, _, _, hresult⟩
      simp only [Except.toOption, Option.bind_some, hcall, Option.map_some, Option.some.injEq,
        Prod.mk.injEq] at heval
      obtain ⟨_, hret, hbefore, hafter⟩ := heval
      rcases hresult with ⟨_, hsame⟩ | ⟨hzero, _⟩
      · rw [hsame, hbefore] at hafter
        cases hafter
      · omega

/-! ### Exact allocation -/

/-- Every device fits its array. -/
def DevicesInArray (pool : Pool) : Prop :=
  ∀ k < pool.numDevs, (pool.memDevs k).totalSegments ≤ maxSegments

instance (pool : Pool) : Decidable (DevicesInArray pool) :=
  inferInstanceAs (Decidable (∀ k < pool.numDevs, (pool.memDevs k).totalSegments ≤ maxSegments))

theorem range_inside (hg : PoolGeometry pool) {k lo n : ℕ} (hseg : 0 < pool.segmentSizeMb)
    (hk : k < pool.numDevs) (hfits : lo + n ≤ (pool.memDevs k).totalSegments.toNat) :
    (lo : ℤ) * pool.segmentSizeMb + n * pool.segmentSizeMb ≤ (pool.memDevs k).totalSizeMb := by
  have hsize := (hg.size k hk).1
  have htotal := hg.total k hk
  have hle : (lo : ℤ) + n ≤ (pool.memDevs k).totalSizeMb / pool.segmentSizeMb := by
    have hnonneg := Int.ediv_nonneg hsize.le hseg.le
    rw [htotal] at hfits
    omega
  calc (lo : ℤ) * pool.segmentSizeMb + n * pool.segmentSizeMb
      = (lo + n) * pool.segmentSizeMb := by ring
    _ ≤ (pool.memDevs k).totalSizeMb / pool.segmentSizeMb * pool.segmentSizeMb :=
        mul_le_mul_of_nonneg_right hle hseg.le
    _ ≤ (pool.memDevs k).totalSizeMb := Int.ediv_mul_le _ hseg.ne'

theorem inInt_of_range {a b c : ℤ} (ha : 0 ≤ a) (hb : 0 ≤ b) (hle : a + b ≤ c) (hc : InInt c) :
    InInt a ∧ InInt b := by
  simp only [InInt, intMin, intMax] at hc ⊢
  omega

theorem isAligned_eq_ok_false {value alignment : ℤ} (hal : 0 < alignment)
    (hno : ¬ alignment ∣ value) : isAligned value alignment = .ok false := by
  unfold isAligned
  split_ifs with hneg hzero
  · rfl
  · omega
  · congr 1
    rw [beq_eq_false_iff_ne]
    exact fun h => hno (Int.dvd_of_tmod_eq_zero h)

/-- Where nothing fits, the search returns -1 and the device is as it was. -/
theorem allocateSegments_none {n : ℕ} (hn : 0 < n) (hmax : dev.totalSegments ≤ maxSegments)
    (hno : ¬ ∃ lo, FirstFit (Busy dev) n dev.totalSegments.toNat lo) :
    allocateSegments dev n vmId = .ok (-1, dev) := by
  cases h : allocateSegments dev n vmId with
  | error e =>
    rcases allocateSegments_error h with ⟨_, hneg⟩ | ⟨hbig, _⟩
    · omega
    · omega
  | ok r =>
    obtain ⟨ret, dev'⟩ := r
    rcases (allocateSegments_ok h).2 with ⟨rfl, rfl, _⟩ | ⟨lo, _, hfit, _⟩
    · rfl
    · rw [Int.toNat_natCast] at hfit
      exact absurd ⟨lo, hfit⟩ hno

/-- The node exists, the size is a number of segments, and so many are free in a row. -/
def CanAllocate (pool : Pool) (nodeId sizeMb : ℤ) : Prop :=
  ∃ k < pool.numDevs, (pool.memDevs k).nodeId = nodeId ∧ pool.segmentSizeMb ∣ sizeMb ∧
    ∃ lo, lo + (sizeMb / pool.segmentSizeMb).toNat ≤ (pool.memDevs k).totalSegments.toNat ∧
      FreeRun (Busy (pool.memDevs k)) lo (sizeMb / pool.segmentSizeMb).toNat

theorem findMemDev_of_node (hg : PoolGeometry pool) {k : ℕ} (hk : k < pool.numDevs)
    (hnode : (pool.memDevs k).nodeId = nodeId) : findMemDev pool nodeId = some k := by
  cases hfind : findMemDev pool nodeId with
  | none => exact absurd hnode (findMemDev_eq_none hfind k hk)
  | some q =>
    obtain ⟨hq, hqnode⟩ := findMemDev_eq_some hfind
    rw [hg.node q hq] at hqnode
    rw [hg.node k hk] at hnode
    congr 1
    omega

/-- An allocation of a positive size returns, and the two cases exclude each other. -/
theorem memoryPoolAllocateSegments_cases (hg : PoolGeometry pool) (hfit : DevicesInArray pool)
    (hseg : 0 < pool.segmentSizeMb) {sizeMb : ℤ} (hsize : 0 < sizeMb) :
    (memoryPoolAllocateSegments pool nodeId vmId sizeMb = .ok (none, pool) ∧
      ¬ CanAllocate pool nodeId sizeMb) ∨
    (CanAllocate pool nodeId sizeMb ∧ ∃ req pool' k lo n,
      memoryPoolAllocateSegments pool nodeId vmId sizeMb = .ok (some req, pool') ∧
      Allocation pool nodeId vmId sizeMb req pool' k lo n) := by
  by_cases hdvd : pool.segmentSizeMb ∣ sizeMb
  · obtain ⟨c, rfl⟩ := exists_eq_mul_left_of_dvd hdvd
    have hc : 0 < c := (mul_pos_iff_of_pos_right hseg).mp hsize
    obtain ⟨n, rfl⟩ := Int.eq_ofNat_of_zero_le hc.le
    have hquot : ((n : ℤ) * pool.segmentSizeMb / pool.segmentSizeMb).toNat = n := by
      rw [Int.mul_ediv_cancel _ hseg.ne', Int.toNat_natCast]
    have hn : 0 < n := by omega
    by_cases hcan : CanAllocate pool nodeId (n * pool.segmentSizeMb)
    · right
      obtain ⟨k, hk, hnode, _, hrun⟩ := hcan
      rw [hquot] at hrun
      obtain ⟨lo, hfirst⟩ := exists_firstFit_iff.mpr hrun
      have hle := range_inside hg hseg hk hfirst.fits
      have hnonneg : ∀ q : ℕ, 0 ≤ (q : ℤ) * pool.segmentSizeMb := fun q => by positivity
      obtain ⟨hoffset, hlen⟩ := inInt_of_range (hnonneg lo) (hnonneg n) hle (hg.size k hk).2
      have htotal := hfit k hk
      have hfits := hfirst.fits
      have hfind := findMemDev_of_node hg hk hnode
      refine ⟨⟨k, hk, hnode, hdvd, ?_⟩, _, _, k, lo, n,
        memoryPoolAllocateSegments_firstFit hseg hfind hn hfirst (by omega) hoffset hlen,
        ⟨hfind, hn, rfl, hfirst, by omega, rfl, rfl⟩⟩
      rw [hquot]
      exact hrun
    · left
      refine ⟨?_, hcan⟩
      rw [memoryPoolAllocateSegments, isAligned_natMul hseg, ok_bind, if_neg (by simp)]
      cases hfind : findMemDev pool nodeId with
      | none => rfl
      | some k =>
        obtain ⟨hk, hnode⟩ := findMemDev_eq_some hfind
        have hno : ¬ ∃ lo, FirstFit (Busy (pool.memDevs k)) n
            (pool.memDevs k).totalSegments.toNat lo := by
          intro hfirst
          refine hcan ⟨k, hk, hnode, hdvd, ?_⟩
          rw [hquot]
          exact exists_firstFit_iff.mp hfirst
        simp only [natMul_tdiv hseg, allocateSegments_none hn (hfit k hk) hno, ok_bind, setDev_self]
        rfl
  · left
    have hcannot : ¬ CanAllocate pool nodeId sizeMb := by
      rintro ⟨k, _, _, hd, _⟩
      exact hdvd hd
    refine ⟨?_, hcannot⟩
    rw [memoryPoolAllocateSegments, isAligned_eq_ok_false hseg hdvd, ok_bind]
    rfl

/-- What a successful allocation hands out: segments `[lo, lo+n)` of device `k`. -/
structure Granted (pool : Pool) (nodeId vmId sizeMb : ℤ) (req : MemoryRequest) (pool' : Pool)
    (k lo n : ℕ) : Prop where
  device : k < pool.numDevs ∧ (pool.memDevs k).nodeId = nodeId
  size : 0 < n ∧ sizeMb = n * pool.segmentSizeMb
  request : req = ⟨nodeId, (pool.memDevs k).devPath, lo * pool.segmentSizeMb, sizeMb,
    pool.segmentSizeMb⟩
  inside : 0 ≤ req.offsetMb ∧ req.offsetMb + req.sizeMb ≤ (pool.memDevs k).totalSizeMb
  fitsInt : InInt req.offsetMb ∧ InInt req.sizeMb
  segments : ∀ p, lo ≤ p → p < lo + n →
    (p : ℤ) < (pool.memDevs k).totalSegments ∧ ¬ Busy (pool.memDevs k) p ∧
      (pool'.memDevs k).segments p = ⟨true, vmId⟩
  others : ∀ p, ¬ (lo ≤ p ∧ p < lo + n) →
    (pool'.memDevs k).segments p = (pool.memDevs k).segments p
  used : (pool'.memDevs k).usedSegments = (pool.memDevs k).usedSegments + n
  frame : pool' = pool.setDev k { pool.memDevs k with
    segments := (pool'.memDevs k).segments
    usedSegments := (pool'.memDevs k).usedSegments }

theorem allocation_granted (hg : PoolGeometry pool) (hseg : 0 < pool.segmentSizeMb) {sizeMb : ℤ}
    {req : MemoryRequest} {k lo n : ℕ}
    (hal : Allocation pool nodeId vmId sizeMb req pool' k lo n) :
    Granted pool nodeId vmId sizeMb req pool' k lo n := by
  have hdev := findMemDev_eq_some hal.found
  have hpath := (hg.path k hdev.1).fits
  have hle := range_inside hg hseg hdev.1 hal.fit.fits
  have hnonneg : ∀ q : ℕ, 0 ≤ (q : ℤ) * pool.segmentSizeMb := fun q => by positivity
  have hfits := hal.fit.fits
  have hsize := hal.size
  have hself : pool'.memDevs k = allocated (pool.memDevs k) vmId lo n := by
    rw [hal.after, setDev_memDevs, if_pos rfl]
  have hreq : req = ⟨nodeId, (pool.memDevs k).devPath, lo * pool.segmentSizeMb, sizeMb,
      pool.segmentSizeMb⟩ := by
    rw [hal.request, hsize, List.take_of_length_le (by omega)]
  have hbounds : 0 ≤ req.offsetMb ∧ req.offsetMb + req.sizeMb ≤ (pool.memDevs k).totalSizeMb := by
    rw [hreq, hsize]
    exact ⟨hnonneg lo, hle⟩
  refine ⟨hdev, ⟨hal.positive, hsize⟩, hreq, hbounds, ?_, ?_, ?_, ?_, ?_⟩
  · rw [hreq, hsize]
    exact inInt_of_range (hnonneg lo) (hnonneg n) hle (hg.size k hdev.1).2
  · intro p h1 h2
    refine ⟨by omega, hal.fit.free.not_busy h1 h2, ?_⟩
    rw [hself, allocated, setRange_segments, if_pos ⟨h1, h2⟩]
  · intro p hp
    rw [hself, allocated, setRange_segments, if_neg hp]
  · rw [hself, allocated]
  · rw [hself]
    exact hal.after

/-- For every pool, node, VM and positive size: the call returns without a fault; it succeeds
exactly where the segments are there; it hands out what it reports and touches nothing else, or
changes nothing. -/
theorem memoryPoolAllocateSegments_exact (hg : PoolGeometry pool) (hfit : DevicesInArray pool)
    (hseg : 0 < pool.segmentSizeMb) {sizeMb : ℤ} (hsize : 0 < sizeMb) :
    ∃ res pool', memoryPoolAllocateSegments pool nodeId vmId sizeMb = .ok (res, pool') ∧
      (res.isSome = true ↔ CanAllocate pool nodeId sizeMb) ∧
      (∀ req, res = some req → ∃ k lo n, Granted pool nodeId vmId sizeMb req pool' k lo n) ∧
      (res = none → pool' = pool) := by
  rcases memoryPoolAllocateSegments_cases hg hfit hseg hsize with
    ⟨h, hno⟩ | ⟨hcan, req, pool', k, lo, n, h, hal⟩
  · refine ⟨none, pool, h, ?_, ?_, fun _ => rfl⟩
    · simpa using hno
    · intro req hreq
      cases hreq
  · refine ⟨some req, pool', h, ?_, ?_, ?_⟩
    · simpa using hcan
    · intro req' hreq
      cases hreq
      exact ⟨k, lo, n, allocation_granted hg hseg hal⟩
    · intro hnone
      cases hnone

theorem memoryPoolAllocateSegments_exact_smallPool :
    ∃ res pool', memoryPoolAllocateSegments smallPool 0 3 8 = .ok (res, pool') ∧
      (res.isSome = true ↔ CanAllocate smallPool 0 8) ∧
      (∀ req, res = some req → ∃ k lo n, Granted smallPool 0 3 8 req pool' k lo n) ∧
      (res = none → pool' = smallPool) :=
  memoryPoolAllocateSegments_exact smallPool_initial.toPoolGeometry (by decide) (by decide)
    (by decide)

/-! ### The counters -/

instance (dev : MemoryDaxDev) (p : ℕ) : Decidable (Busy dev p) :=
  inferInstanceAs (Decidable (_ = _))

/-- The allocated segments below `total_segments`. -/
def busyCount (dev : MemoryDaxDev) : ℕ :=
  ((Finset.range dev.totalSegments.toNat).filter fun p => Busy dev p).card

/-- The counter of a device and its segments agree. -/
structure Accounted (dev : MemoryDaxDev) : Prop where
  used : dev.usedSegments = busyCount dev
  free : ∀ p, ¬ Busy dev p → (dev.segments p).usedVmId = -1
  above : ∀ p : ℕ, dev.totalSegments ≤ p → ¬ Busy dev p

theorem Accounted.bounds (h : Accounted dev) (htotal : 0 ≤ dev.totalSegments) :
    0 ≤ dev.usedSegments ∧ dev.usedSegments ≤ dev.totalSegments := by
  have hcard := Finset.card_filter_le (Finset.range dev.totalSegments.toNat) (fun p => Busy dev p)
  rw [Finset.card_range] at hcard
  have hused := h.used
  rw [busyCount] at hused
  omega

theorem busy_freedAt {p q : ℕ} : Busy (freedAt dev q) p ↔ p ≠ q ∧ Busy dev p := by
  by_cases hp : p = q
  · simp [Busy, freedAt, hp, freeSegment]
  · simp [Busy, freedAt, hp]

/-- Giving one segment back takes one from the counter. -/
theorem Accounted.freedAt (h : Accounted dev) {q : ℕ} (hq : Busy dev q) :
    Accounted (freedAt dev q) := by
  have hin : q < dev.totalSegments.toNat := by
    by_contra hout
    exact h.above q (by omega) hq
  have hfilter : (Finset.range dev.totalSegments.toNat).filter (fun p => Busy (MemoryPoolSpec.freedAt dev q) p) =
      ((Finset.range dev.totalSegments.toNat).filter fun p => Busy dev p).erase q := by
    ext p
    simp only [Finset.mem_filter, Finset.mem_erase, busy_freedAt]
    tauto
  have hmem : q ∈ (Finset.range dev.totalSegments.toNat).filter fun p => Busy dev p :=
    Finset.mem_filter.mpr ⟨Finset.mem_range.mpr hin, hq⟩
  have hpos : 0 < busyCount dev := Finset.card_pos.mpr ⟨q, hmem⟩
  refine ⟨?_, ?_, ?_⟩
  · have hcount : busyCount (MemoryPoolSpec.freedAt dev q) = busyCount dev - 1 := by
      rw [busyCount, show (MemoryPoolSpec.freedAt dev q).totalSegments = dev.totalSegments from rfl,
        hfilter, Finset.card_erase_of_mem hmem, busyCount]
    have hused := h.used
    rw [hcount, show (MemoryPoolSpec.freedAt dev q).usedSegments = dev.usedSegments - 1 from rfl]
    omega
  · intro p hp
    by_cases hpq : p = q
    · simp [MemoryPoolSpec.freedAt, hpq, freeSegment]
    · have hfree : ¬ Busy dev p := fun hb => hp (busy_freedAt.mpr ⟨hpq, hb⟩)
      simpa [MemoryPoolSpec.freedAt, Function.update_of_ne hpq] using h.free p hfree
  · intro p hp hb
    exact h.above p hp (busy_freedAt.mp hb).2

theorem busy_allocated {p lo n : ℕ} :
    Busy (allocated dev vmId lo n) p ↔ (lo ≤ p ∧ p < lo + n) ∨ Busy dev p := by
  simp only [Busy, allocated, setRange_segments]
  split_ifs with hp
  · simp [hp]
  · simp [hp]

/-- Handing out a free run adds its length to the counter. -/
theorem Accounted.allocated (h : Accounted dev) {lo n : ℕ} (hfree : FreeRun (Busy dev) lo n)
    (hfits : lo + n ≤ dev.totalSegments.toNat) : Accounted (allocated dev vmId lo n) := by
  have hfilter : (Finset.range dev.totalSegments.toNat).filter
        (fun p => Busy (MemoryPoolSpec.allocated dev vmId lo n) p) =
      ((Finset.range dev.totalSegments.toNat).filter fun p => Busy dev p) ∪ Finset.Ico lo (lo + n) := by
    ext p
    simp only [Finset.mem_filter, Finset.mem_union, Finset.mem_range, Finset.mem_Ico, busy_allocated]
    constructor
    · rintro ⟨hp, hr | hb⟩
      · exact .inr hr
      · exact .inl ⟨hp, hb⟩
    · rintro (⟨hp, hb⟩ | hr)
      · exact ⟨hp, .inr hb⟩
      · exact ⟨by omega, .inl hr⟩
  have hdisj : Disjoint ((Finset.range dev.totalSegments.toNat).filter fun p => Busy dev p)
      (Finset.Ico lo (lo + n)) := by
    rw [Finset.disjoint_left]
    intro p hp hr
    obtain ⟨h1, h2⟩ := Finset.mem_Ico.mp hr
    exact hfree.not_busy h1 h2 (Finset.mem_filter.mp hp).2
  refine ⟨?_, ?_, ?_⟩
  · have hcount : busyCount (MemoryPoolSpec.allocated dev vmId lo n) = busyCount dev + n := by
      rw [busyCount, show (MemoryPoolSpec.allocated dev vmId lo n).totalSegments = dev.totalSegments
        from rfl, hfilter, Finset.card_union_of_disjoint hdisj, Nat.card_Ico, busyCount]
      omega
    have hused := h.used
    rw [hcount, show (MemoryPoolSpec.allocated dev vmId lo n).usedSegments = dev.usedSegments + n
      from rfl, hused, Nat.cast_add]
  · intro p hp
    rw [busy_allocated, not_or] at hp
    rw [MemoryPoolSpec.allocated, setRange_segments, if_neg hp.1]
    exact h.free p hp.2
  · intro p hp hb
    rw [show (MemoryPoolSpec.allocated dev vmId lo n).totalSegments = dev.totalSegments from rfl] at hp
    rcases busy_allocated.mp hb with hr | hb
    · omega
    · exact h.above p hp hb

theorem releaseRun_accounted {start i : ℤ} {n : ℕ} (h : Accounted dev) :
    Accounted (releaseRun vmId start n i dev).dev := by
  induction n generalizing i dev with
  | zero => exact h
  | succ n ih =>
    rw [releaseRun]
    dsimp only
    split_ifs with hown
    · exact ih (h.freedAt hown.2.1)
    · exact h

theorem Accounted.released {lo n : ℕ} (h : Accounted dev)
    (hown : ∀ p, lo ≤ p → p < lo + n → (p : ℤ) < dev.totalSegments ∧ Owned dev vmId p) :
    Accounted (released dev lo n) := by
  have hrun := @releaseRun_accounted dev vmId lo 0 n h
  rwa [releaseRun_owned hown] at hrun

theorem Accounted.vmReleased {n j : ℕ} (h : Accounted dev) :
    Accounted (vmReleased dev vmId j n) := by
  induction n generalizing j dev with
  | zero =>
    rw [vmReleased_zero]
    exact h
  | succ n ih =>
    by_cases hown : Owned dev vmId j
    · rw [← vmReleased_succ_owned hown]
      exact ih (h.freedAt hown.1)
    · rw [← vmReleased_succ_foreign hown]
      exact ih h

/-! ### Runs of calls -/

/-- The calls that change the pool, with arbitrary arguments. -/
inductive PoolOp
  | allocate (nodeId vmId sizeMb : ℤ)
  | release (nodeId vmId offsetMb sizeMb : ℤ)
  | releaseVm (vmId : ℤ)

/-- The only restriction: an allocation asks for a positive size. -/
def PoolOp.Positive : PoolOp → Prop
  | .allocate _ _ sizeMb => 0 < sizeMb
  | _ => True

/-- The pool after a call, whatever it returned. -/
def requestStep (pool : Pool) : PoolOp → Outcome Pool
  | .allocate nodeId vmId sizeMb => (memoryPoolAllocateSegments pool nodeId vmId sizeMb).map Prod.snd
  | .release nodeId vmId offsetMb sizeMb =>
    (memoryPoolReleaseSegments pool nodeId vmId offsetMb sizeMb).map Prod.snd
  | .releaseVm vmId => memoryPoolReleaseVmMemory pool vmId

/-- The same, where what a release reads for its log line does no harm. -/
def poolStep (pool : Pool) : PoolOp → Outcome Pool
  | .allocate nodeId vmId sizeMb => (memoryPoolAllocateSegments pool nodeId vmId sizeMb).map Prod.snd
  | .release nodeId vmId offsetMb sizeMb =>
    (memoryPoolReleaseRun pool nodeId vmId offsetMb sizeMb).map fun r => r.2.1
  | .releaseVm vmId => memoryPoolReleaseVmMemory pool vmId

/-- What every call keeps of a pool of devices that fit their arrays. -/
structure PoolAccounted (pool : Pool) : Prop where
  geometry : PoolGeometry pool
  segmentSize : 0 < pool.segmentSizeMb
  fits : DevicesInArray pool
  accounted : ∀ k < pool.numDevs, Accounted (pool.memDevs k)

theorem PoolAccounted.setDev (h : PoolAccounted pool) {k : ℕ} {d : MemoryDaxDev}
    (hpath : d.devPath = (pool.memDevs k).devPath) (hnode : d.nodeId = (pool.memDevs k).nodeId)
    (hsize : d.totalSizeMb = (pool.memDevs k).totalSizeMb)
    (htotal : d.totalSegments = (pool.memDevs k).totalSegments) (hd : Accounted d) :
    PoolAccounted (pool.setDev k d) := by
  refine ⟨(setDev_sameGeometry hpath hnode hsize htotal).geometry h.geometry, h.segmentSize,
    fun q hq => ?_, fun q hq => ?_⟩
  · rw [setDev_memDevs]
    split_ifs with hqk
    · rw [htotal, ← hqk]
      exact h.fits q hq
    · exact h.fits q hq
  · rw [setDev_memDevs]
    split_ifs with hqk
    · exact hd
    · exact h.accounted q hq

theorem releaseRun_frame (vmId start : ℤ) (n : ℕ) (i : ℤ) (dev : MemoryDaxDev) :
    (releaseRun vmId start n i dev).dev.devPath = dev.devPath ∧
      (releaseRun vmId start n i dev).dev.nodeId = dev.nodeId ∧
      (releaseRun vmId start n i dev).dev.totalSizeMb = dev.totalSizeMb ∧
      (releaseRun vmId start n i dev).dev.totalSegments = dev.totalSegments := by
  induction n generalizing i dev with
  | zero => exact ⟨rfl, rfl, rfl, rfl⟩
  | succ n ih =>
    rw [releaseRun]
    dsimp only
    split_ifs
    · exact ih (i + 1) (freedAt dev (start + i).toNat)
    · exact ⟨rfl, rfl, rfl, rfl⟩

theorem isAligned_total {value alignment : ℤ} (hne : alignment ≠ 0) :
    ∃ b, isAligned value alignment = .ok b := by
  unfold isAligned
  rw [if_neg hne]
  split_ifs
  · exact ⟨false, rfl⟩
  · exact ⟨_, rfl⟩

theorem memoryPoolReleaseRun_accounted (h : PoolAccounted pool) (nodeId vmId offsetMb sizeMb : ℤ) :
    ∃ r, memoryPoolReleaseRun pool nodeId vmId offsetMb sizeMb = .ok r ∧ PoolAccounted r.2.1 ∧
      SameGeometry pool r.2.1 := by
  obtain ⟨size, hsize⟩ := @isAligned_total sizeMb _ h.segmentSize.ne'
  obtain ⟨offset, hoffset⟩ := @isAligned_total offsetMb _ h.segmentSize.ne'
  rw [memoryPoolReleaseRun, hsize, ok_bind]
  cases size with
  | false => exact ⟨_, rfl, h, .refl pool⟩
  | true =>
    rw [if_neg (by simp), hoffset, ok_bind]
    cases offset with
    | false => exact ⟨_, rfl, h, .refl pool⟩
    | true =>
      rw [if_neg (by simp)]
      cases hfind : findMemDev pool nodeId with
      | none => exact ⟨_, rfl, h, .refl pool⟩
      | some k =>
        obtain ⟨hpath, hnode, hlen, htotal⟩ := releaseRun_frame vmId
          (offsetMb.tdiv pool.segmentSizeMb) (sizeMb.tdiv pool.segmentSizeMb).toNat 0 (pool.memDevs k)
        have hdev := @releaseRun_accounted _ vmId (offsetMb.tdiv pool.segmentSizeMb) 0
          (sizeMb.tdiv pool.segmentSizeMb).toNat (h.accounted k (findMemDev_eq_some hfind).1)
        exact ⟨_, rfl, h.setDev hpath hnode hlen htotal hdev,
          setDev_sameGeometry hpath hnode hlen htotal⟩

theorem releaseVmDevices_accounted {n i : ℕ} (h : PoolAccounted pool) (hn : i + n ≤ pool.numDevs) :
    ∃ pool', releaseVmDevices vmId n i pool = .ok pool' ∧ PoolAccounted pool' := by
  induction n generalizing i pool with
  | zero => exact ⟨pool, rfl, h⟩
  | succ n ih =>
    have hi : i < pool.numDevs := by omega
    have hfit := h.fits i hi
    have hrel := @releaseVmSegments_inArray (pool.memDevs i) vmId
      (pool.memDevs i).totalSegments.toNat 0 (by omega)
    rw [Nat.cast_zero] at hrel
    rw [releaseVmDevices, hrel, ok_bind]
    refine ih (h.setDev rfl rfl rfl rfl (h.accounted i hi).vmReleased) ?_
    rw [setDev_numDevs]
    omega

/-- Step lemma: a call returns, and the counters still agree. -/
theorem poolStep_accounted (h : PoolAccounted pool) {op : PoolOp} (hop : op.Positive) :
    ∃ pool', poolStep pool op = .ok pool' ∧ PoolAccounted pool' ∧ SameGeometry pool pool' := by
  cases op with
  | allocate nodeId vmId sizeMb =>
    rw [poolStep]
    rcases @memoryPoolAllocateSegments_cases pool nodeId vmId h.geometry h.fits h.segmentSize _ hop with
      ⟨heq, _⟩ | ⟨_, req, pool', k, lo, n, heq, hal⟩
    · rw [heq]
      exact ⟨pool, rfl, h, .refl pool⟩
    · rw [heq]
      refine ⟨pool', rfl, ?_, allocation_sameGeometry hal⟩
      rw [hal.after]
      exact h.setDev rfl rfl rfl rfl
        ((h.accounted k (findMemDev_eq_some hal.found).1).allocated hal.fit.free hal.fit.fits)
  | release nodeId vmId offsetMb sizeMb =>
    obtain ⟨r, heq, hr⟩ := memoryPoolReleaseRun_accounted h nodeId vmId offsetMb sizeMb
    rw [poolStep, heq]
    exact ⟨_, rfl, hr⟩
  | releaseVm vmId =>
    obtain ⟨pool', heq, hpool'⟩ := @releaseVmDevices_accounted pool vmId pool.numDevs 0 h (by omega)
    refine ⟨pool', heq, hpool', ?_⟩
    rw [releaseVmDevices_ok heq]
    exact vmReleasedPool_sameGeometry _ _ _ _

theorem initialDev_accounted (hp : InitialPool pool) {k : ℕ} (hk : k < pool.numDevs) :
    Accounted (pool.memDevs k) := by
  have hfree := hp.free k hk
  have hno : ∀ p, ¬ Busy (pool.memDevs k) p := fun p => by simp [Busy, hfree, freeSegment]
  refine ⟨?_, fun p _ => by rw [hfree]; rfl, fun p _ => hno p⟩
  rw [hp.unused k hk, busyCount, Finset.filter_false_of_mem fun p _ => hno p]
  rfl

theorem initial_accounted (hp : InitialPool pool) (hseg : 0 < pool.segmentSizeMb)
    (hfit : DevicesInArray pool) : PoolAccounted pool :=
  ⟨hp.toPoolGeometry, hseg, hfit, fun _ hk => initialDev_accounted hp hk⟩

theorem run_accounted {ops : List PoolOp} (h : PoolAccounted pool) (hops : ∀ op ∈ ops, op.Positive) :
    ∃ pool', run poolStep pool ops = .ok pool' ∧ PoolAccounted pool' ∧ SameGeometry pool pool' := by
  induction ops generalizing pool with
  | nil => exact ⟨pool, rfl, h, .refl pool⟩
  | cons op ops ih =>
    obtain ⟨mid, hstep, hmid, hsame⟩ := poolStep_accounted h (hops op List.mem_cons_self)
    obtain ⟨pool', hrun, hpool', hsame'⟩ := ih hmid fun o ho => hops o (List.mem_cons_of_mem op ho)
    exact ⟨pool', by rw [run_cons_ok _ hstep, hrun], hpool', hsame.trans hsame'⟩

/-- A call that does not fault leaves the pool that its step does. -/
theorem requestStep_poolStep {op : PoolOp} (h : requestStep pool op = .ok pool') :
    poolStep pool op = .ok pool' := by
  cases op with
  | allocate nodeId vmId sizeMb => exact h
  | release nodeId vmId offsetMb sizeMb =>
    obtain ⟨⟨ret, _⟩, hrel, rfl⟩ := map_eq_ok.mp h
    obtain ⟨reads, hrun⟩ := memoryPoolReleaseSegments_run hrel
    rw [poolStep, hrun]
    rfl
  | releaseVm vmId => exact h

theorem run_requestStep {ops : List PoolOp} (h : run requestStep pool ops = .ok pool') :
    run poolStep pool ops = .ok pool' := by
  induction ops generalizing pool with
  | nil => exact h
  | cons op ops ih =>
    obtain ⟨mid, hstep, h⟩ := run_cons_eq_ok.mp h
    rw [run_cons_ok _ (requestStep_poolStep hstep)]
    exact ih h

/-- From an initialised pool no call of any sequence stops, and on every device the counter is
the number of allocated segments below `total_segments`; the pool is the one that the calls leave
where none of them faults. -/
theorem counters_exact (hp : InitialPool pool) (hseg : 0 < pool.segmentSizeMb)
    (hfit : DevicesInArray pool) {ops : List PoolOp} (hops : ∀ op ∈ ops, op.Positive) :
    ∃ pool', run poolStep pool ops = .ok pool' ∧
      (∀ after, run requestStep pool ops = .ok after → after = pool') ∧ SameGeometry pool pool' ∧
      ∀ k < pool.numDevs, Accounted (pool'.memDevs k) ∧
        0 ≤ (pool'.memDevs k).usedSegments ∧
        (pool'.memDevs k).usedSegments ≤ (pool'.memDevs k).totalSegments := by
  obtain ⟨pool', hrun, hpool', hsame⟩ := run_accounted (initial_accounted hp hseg hfit) hops
  refine ⟨pool', hrun, fun after hafter => ?_, hsame, fun k hk => ?_⟩
  · rw [run_requestStep hafter] at hrun
    exact Except.ok.inj hrun
  rw [← hsame.numDevs] at hk
  have htotal : 0 ≤ (pool'.memDevs k).totalSegments := by
    rw [hpool'.geometry.total k hk]
    exact Int.ediv_nonneg (hpool'.geometry.size k hk).1.le hpool'.segmentSize.le
  exact ⟨hpool'.accounted k hk, (hpool'.accounted k hk).bounds htotal⟩

/-- With a release that fails half way. -/
theorem counters_exact_smallPool : ∃ pool',
    run poolStep smallPool [.allocate 0 3 4, .release 0 3 0 8, .releaseVm 3] = .ok pool' ∧
      (∀ after, run requestStep smallPool [.allocate 0 3 4, .release 0 3 0 8, .releaseVm 3] =
        .ok after → after = pool') ∧ SameGeometry smallPool pool' ∧
      ∀ k < smallPool.numDevs, Accounted (pool'.memDevs k) ∧
        0 ≤ (pool'.memDevs k).usedSegments ∧
        (pool'.memDevs k).usedSegments ≤ (pool'.memDevs k).totalSegments :=
  counters_exact smallPool_initial (by decide) (by decide) (by simp [PoolOp.Positive])

/-! ### The counters under the manager -/

theorem setDev_accounted {k : ℕ} {d : MemoryDaxDev}
    (h : ∀ q < pool.numDevs, Accounted (pool.memDevs q)) (hd : Accounted d) :
    ∀ q < (pool.setDev k d).numDevs, Accounted ((pool.setDev k d).memDevs q) := by
  intro q hq
  rw [setDev_memDevs]
  split_ifs with hqk
  · exact hd
  · exact h q hq

/-- Every request the manager takes leaves the counters in agreement. -/
theorem accounted_step {m m' : Manager} (ho : Owns m)
    (ha : ∀ k < m.pool.numDevs, Accounted (m.pool.memDevs k)) {op : Op} (h : step m op = .ok m') :
    ∀ k < m'.pool.numDevs, Accounted (m'.pool.memDevs k) := by
  cases op with
  | create vmId coreSet =>
    obtain ⟨⟨ret, _⟩, hres, rfl⟩ := map_eq_ok.mp h
    rcases vmMngrInstanceCreate_ok hres with ⟨_, rfl⟩ | ⟨_, _, _, i, n, _, _, rfl⟩
    · exact ha
    · exact ha
  | destroy vmId =>
    obtain ⟨⟨ret, _⟩, hres, rfl⟩ := map_eq_ok.mp h
    rcases vmMngrInstanceDestroy_ok hres with ⟨_, rfl⟩ | ⟨_, i, _, _, rfl⟩
    · exact ha
    · intro k hk
      have hk : k < m.pool.numDevs := hk
      have hdev : (vmReleasedPool m.pool vmId 0 m.pool.numDevs).memDevs k =
          vmReleased (m.pool.memDevs k) vmId 0 (m.pool.memDevs k).totalSegments.toNat := by
        simp [vmReleasedPool, hk]
      dsimp only
      rw [hdev]
      exact (ha k hk).vmReleased
  | start vmId env =>
    obtain ⟨⟨ret, _⟩, hres, rfl⟩ := map_eq_ok.mp h
    rw [(vmMngrInstanceStart_memSame hres).pool]
    exact ha
  | stop vmId kernel =>
    obtain ⟨⟨ret, _⟩, hres, rfl⟩ := map_eq_ok.mp h
    rw [(vmMngrInstanceStop_memSame hres).pool]
    exact ha
  | allocMem nodeId vmId sizeMb =>
    obtain ⟨⟨ret, _⟩, hres, rfl⟩ := map_eq_ok.mp h
    rcases vmMngrInstanceAllocMem_ok ho.geometry.segmentSize hres with
      ⟨_, rfl⟩ | ⟨i, req, pool, k, lo, n, _, hal, _, _, rfl⟩
    · exact ha
    · dsimp only
      rw [hal.after]
      exact setDev_accounted ha
        ((ha k (findMemDev_eq_some hal.found).1).allocated hal.fit.free hal.fit.fits)
  | freeMem vmId memdevIdx =>
    obtain ⟨⟨ret, _⟩, hres, rfl⟩ := map_eq_ok.mp h
    rcases ho.freeMem_ok hres with ⟨_, rfl⟩ | ⟨_, i, dev, k, lo, n, _, hd, _, hr, rfl⟩
    · exact ha
    · have hown : ∀ p, lo ≤ p → p < lo + n →
          (p : ℤ) < (m.pool.memDevs k).totalSegments ∧
            Owned (m.pool.memDevs k) (m.vms i).vmId p := by
        intro p hlo hp
        have hp := ho.owned_of_covers hd hr.device
          ((hr.covers_iff ho.geometry k p).mpr ⟨rfl, hlo, hp⟩)
        exact ⟨(ho.limit hr.device hp.1).1, hp⟩
      exact setDev_accounted ha ((ha k hr.device).released hown)

theorem accounted_reachable {m : Manager} (hp : InitialPool pool)
    (h : Reaches step (initialManager pool) m) :
    ∀ k < m.pool.numDevs, Accounted (m.pool.memDevs k) :=
  (h.invariant (I := fun m => Owns m ∧ ∀ k < m.pool.numDevs, Accounted (m.pool.memDevs k))
    (fun _ _ _ hi hs => ⟨owns_step hi.1 hs, accounted_step hi.1 hi.2 hs⟩)
    ⟨owns_initial hp, fun _ hk => initialDev_accounted hp hk⟩).2

end Ramryder.PoolCalls
