import Ramryder.MemoryPool
import Ramryder.FreeRuns

/-! What each operation of the memory pool does: one inversion lemma and one fault
lemma for every loop and every entry point. -/
namespace Ramryder.MemoryPoolSpec
open CInt CMachine MemoryPool FreeRuns

variable {dev dev' : MemoryDaxDev} {vmId : ℤ}

def Busy (dev : MemoryDaxDev) (p : ℕ) : Prop := (dev.segments p).allocated = true

def Owned (dev : MemoryDaxDev) (vmId : ℤ) (p : ℕ) : Prop :=
  (dev.segments p).allocated = true ∧ (dev.segments p).usedVmId = vmId

instance (dev : MemoryDaxDev) (vmId : ℤ) (p : ℕ) : Decidable (Owned dev vmId p) :=
  inferInstanceAs (Decidable (_ ∧ _))

/-- The device with the segments `[lo, lo+n)` replaced. -/
def setRange (dev : MemoryDaxDev) (lo n : ℕ) (seg : MemorySegment) : MemoryDaxDev :=
  { dev with segments := fun p => if lo ≤ p ∧ p < lo + n then seg else dev.segments p }

theorem setRange_segments (dev : MemoryDaxDev) (lo n : ℕ) (seg : MemorySegment) (p : ℕ) :
    (setRange dev lo n seg).segments p = if lo ≤ p ∧ p < lo + n then seg else dev.segments p := rfl

theorem setRange_zero (dev : MemoryDaxDev) (lo : ℕ) (seg : MemorySegment) :
    setRange dev lo 0 seg = dev := by
  have : ∀ p, ¬ (lo ≤ p ∧ p < lo + 0) := fun p => by omega
  simp only [setRange, if_neg (this _)]

theorem setRange_succ (dev : MemoryDaxDev) (lo n : ℕ) (seg : MemorySegment) :
    setRange { dev with segments := Function.update dev.segments lo seg } (lo + 1) n seg =
      setRange dev lo (n + 1) seg := by
  simp only [setRange, MemoryDaxDev.mk.injEq, true_and]
  funext p
  by_cases hp : p = lo
  · subst hp
    simp
  · simp only [Function.update_of_ne hp]
    have : (lo + 1 ≤ p ∧ p < lo + 1 + n) ↔ (lo ≤ p ∧ p < lo + (n + 1)) := by omega
    simp only [this]

theorem segmentIndex_natCast {p : ℕ} : SegmentIndex p ↔ p < maxSegments := by
  simp [SegmentIndex]

theorem readSegment_natCast {p : ℕ} (hp : p < maxSegments) :
    readSegment dev p = .ok (dev.segments p) := by
  simp [readSegment, segmentIndex_natCast.mpr hp]

theorem readSegment_eq_ok {idx : ℤ} {seg : MemorySegment} (h : readSegment dev idx = .ok seg) :
    SegmentIndex idx ∧ seg = dev.segments idx.toNat := by
  unfold readSegment at h
  split_ifs at h with hi
  exact ⟨hi, (Except.ok.inj h).symm⟩

theorem readSegment_eq_error {idx : ℤ} {e : Fault} (h : readSegment dev idx = .error e) :
    e = .segmentIndex idx ∧ ¬ SegmentIndex idx := by
  unfold readSegment at h
  split_ifs at h with hi
  exact ⟨(Except.error.inj h).symm, hi⟩

theorem writeSegment_natCast {p : ℕ} (hp : p < maxSegments) (seg : MemorySegment) :
    writeSegment dev p seg =
      .ok { dev with segments := Function.update dev.segments p seg } := by
  simp [writeSegment, segmentIndex_natCast.mpr hp]

/-! ### The free-run search -/

/-- The inner loop stops at the first busy place; everything it passed is free and inside the
array. -/
theorem scanRun_ok {lo n j : ℕ} {r : ℤ} (h : scanRun dev lo n j = .ok r) :
    ∃ k : ℕ, r = k ∧ j ≤ k ∧ k ≤ j + n ∧
      (∀ q, j ≤ q → q < k → ¬ Busy dev (lo + q) ∧ lo + q < maxSegments) ∧
      (k < j + n → Busy dev (lo + k)) := by
  induction n generalizing j with
  | zero =>
    cases h
    exact ⟨j, rfl, le_rfl, le_rfl, fun q h1 h2 => by omega, fun h => by omega⟩
  | succ n ih =>
    simp only [scanRun, bind_eq_ok] at h
    obtain ⟨seg, hread, h⟩ := h
    obtain ⟨hidx, rfl⟩ := readSegment_eq_ok hread
    rw [← Nat.cast_add] at hidx
    have hlt := segmentIndex_natCast.mp hidx
    rw [← Nat.cast_add, Int.toNat_natCast] at h
    split_ifs at h with hb
    · cases h
      exact ⟨j, rfl, le_rfl, by omega, fun q h1 h2 => by omega, fun _ => hb⟩
    · obtain ⟨k, hr, hjk, hk, hfree, hbusy⟩ := ih (j := j + 1) (by exact_mod_cast h)
      refine ⟨k, hr, by omega, by omega, ?_, fun hlt => hbusy (by omega)⟩
      intro q hjq hqk
      rcases Nat.eq_or_lt_of_le hjq with rfl | hq
      · exact ⟨hb, hlt⟩
      · exact hfree q (by omega) hqk

theorem scanRun_error {lo n j : ℕ} {e : Fault} (h : scanRun dev lo n j = .error e) :
    maxSegments < lo + j + n ∧ ∃ p, e = .segmentIndex p := by
  induction n generalizing j with
  | zero => cases h
  | succ n ih =>
    simp only [scanRun, bind_eq_error] at h
    rcases h with hread | ⟨seg, _, h⟩
    · obtain ⟨he, hidx⟩ := readSegment_eq_error hread
      rw [← Nat.cast_add, segmentIndex_natCast] at hidx
      exact ⟨by omega, _, he⟩
    · split_ifs at h with hb
      have := ih (j := j + 1) (by exact_mod_cast h)
      exact ⟨by omega, this.2⟩

/-- The scan of a free run inside the array passes all of it. -/
theorem scanRun_free {lo n j : ℕ} (hmax : lo + j + n ≤ maxSegments)
    (hfree : ∀ q, j ≤ q → q < j + n → ¬ Busy dev (lo + q)) :
    scanRun dev lo n j = .ok ((j + n : ℕ) : ℤ) := by
  induction n generalizing j with
  | zero => rfl
  | succ n ih =>
    have hj : ¬ (dev.segments (lo + j)).allocated = true := hfree j le_rfl (by omega)
    rw [scanRun, ← Nat.cast_add, readSegment_natCast (by omega)]
    simp only [ok_bind, if_neg hj]
    have := ih (j := j + 1) (by omega) (fun q h1 h2 => hfree q (by omega) (by omega))
    rw [show j + (n + 1) = j + 1 + n by omega, ← this]
    push_cast
    rfl

/-- Below the first fit the scan stops at a busy place before the fit. -/
theorem scanRun_below {lo n i fit : ℕ} (hfit : FirstFit (Busy dev) n lo fit)
    (hmax : fit + n ≤ maxSegments) (hi : i < fit) :
    ∃ k : ℕ, scanRun dev i n (0 : ℕ) = .ok k ∧ k < n ∧ i + k < fit ∧ Busy dev (i + k) := by
  have hbusy : ∃ k, k < n ∧ Busy dev (i + k) := by
    by_contra hno
    push Not at hno
    exact hfit.least i hi fun k hk => hno k hk
  cases hs : scanRun dev i n (0 : ℕ) with
  | error e =>
    have := (scanRun_error hs).1
    omega
  | ok r =>
    obtain ⟨k, rfl, _, hkn, hpass, hstop⟩ := scanRun_ok hs
    obtain ⟨m, hm, hmb⟩ := hbusy
    have hk : k < n := by
      by_contra hge
      exact (hpass m (by omega) (by omega)).1 hmb
    have hkb := hstop (by omega)
    refine ⟨k, rfl, hk, ?_, hkb⟩
    by_contra hge
    exact hfit.free.not_busy (by omega) (by omega) hkb

/-- The search returns -1 only where no run fits, and otherwise the first fit. -/
theorem findLoop_ok {num fuel i : ℕ} {r : ℤ} (hnum : 0 < num)
    (hbelow : ∀ k < i, ¬ FreeRun (Busy dev) k num) (h : findLoop dev num fuel i = .ok r) :
    (r = -1 ∧ ∀ lo : ℕ, (lo : ℤ) + num ≤ dev.totalSegments → ¬ FreeRun (Busy dev) lo num) ∨
    ∃ lo : ℕ, r = lo ∧ FirstFit (Busy dev) num dev.totalSegments.toNat lo ∧
      lo + num ≤ maxSegments := by
  induction fuel generalizing i with
  | zero => cases h
  | succ fuel ih =>
    rw [findLoop] at h
    split_ifs at h with hle
    · obtain ⟨j, hscan, h⟩ := bind_eq_ok.mp h
      rw [Int.toNat_natCast] at hscan
      obtain ⟨k, rfl, _, hk, hpass, hstop⟩ := scanRun_ok (j := 0) (by exact_mod_cast hscan)
      split_ifs at h with hj
      · cases h
        have hkn : k = num := by exact_mod_cast hj
        subst hkn
        refine .inr ⟨i, rfl, ⟨by omega, fun q hq => (hpass q (by omega) hq).1, hbelow⟩, ?_⟩
        have := (hpass (k - 1) (by omega) (by omega)).2
        omega
      · have hkn : k < num := by
          have : (k : ℤ) ≠ num := hj
          omega
        have hskip := skip_busy (hstop (by omega)) (by omega) hbelow
        exact ih hskip (by exact_mod_cast h)
    · cases h
      refine .inl ⟨rfl, fun lo hlo => hbelow lo (by omega)⟩

theorem findLoop_error {num fuel i : ℕ} {e : Fault}
    (hfuel : dev.totalSegments - num - i + 2 ≤ fuel) (hpos : 0 < fuel)
    (h : findLoop dev num fuel i = .error e) :
    (maxSegments : ℤ) < dev.totalSegments ∧ ∃ p, e = .segmentIndex p := by
  induction fuel generalizing i with
  | zero => omega
  | succ fuel ih =>
    rw [findLoop] at h
    split_ifs at h with hle
    rcases bind_eq_error.mp h with hscan | ⟨j, hscan, h⟩
    · rw [Int.toNat_natCast] at hscan
      have := scanRun_error (j := 0) (by exact_mod_cast hscan)
      exact ⟨by omega, this.2⟩
    · rw [Int.toNat_natCast] at hscan
      obtain ⟨k, rfl, _, hk, _⟩ := scanRun_ok (j := 0) (by exact_mod_cast hscan)
      split_ifs at h with hj
      exact ih (i := i + k + 1) (by push_cast; omega) (by omega) (by exact_mod_cast h)

/-- Where a first fit exists inside the array the search finds it. -/
theorem findLoop_firstFit {num fuel i fit : ℕ} (hnum : 0 < num)
    (hfit : FirstFit (Busy dev) num dev.totalSegments.toNat fit)
    (hmax : fit + num ≤ maxSegments) (hi : i ≤ fit) (hfuel : fit < fuel + i) :
    findLoop dev num fuel i = .ok fit := by
  induction fuel generalizing i with
  | zero => omega
  | succ fuel ih =>
    have hfits := hfit.fits
    rw [findLoop, if_pos (by omega), Int.toNat_natCast]
    rcases Nat.eq_or_lt_of_le hi with rfl | hlt
    · have hscan : scanRun dev i num (0 : ℕ) = .ok ((0 + num : ℕ) : ℤ) :=
        scanRun_free (by omega) fun q _ hq => hfit.free q (by omega)
      rw [Nat.cast_zero] at hscan
      rw [hscan]
      simp
    · obtain ⟨k, hscan, hk, hik, _⟩ := scanRun_below hfit hmax hlt
      rw [Nat.cast_zero] at hscan
      rw [hscan, ok_bind, if_neg (by omega)]
      exact_mod_cast ih (i := i + k + 1) (by omega) (by omega)

theorem findFreeSegments_ok {n : ℕ} {r : ℤ} (hn : 0 < n) (h : findFreeSegments dev n = .ok r) :
    (r = -1 ∧ ∀ lo : ℕ, (lo : ℤ) + n ≤ dev.totalSegments → ¬ FreeRun (Busy dev) lo n) ∨
    ∃ lo : ℕ, r = lo ∧ FirstFit (Busy dev) n dev.totalSegments.toNat lo ∧ lo + n ≤ maxSegments :=
  findLoop_ok hn (fun k hk => absurd hk (Nat.not_lt_zero k)) (i := 0) (by exact_mod_cast h)

theorem findFreeSegments_error {n : ℕ} {e : Fault} (h : findFreeSegments dev n = .error e) :
    (maxSegments : ℤ) < dev.totalSegments ∧ ∃ p, e = .segmentIndex p := by
  have hfuel : dev.totalSegments - n - (0 : ℕ) + 2 ≤ ((dev.totalSegments - n).toNat + 2 : ℕ) := by
    push_cast
    omega
  exact findLoop_error hfuel (by omega) (by exact_mod_cast h)

theorem findFreeSegments_firstFit {n fit : ℕ} (hn : 0 < n)
    (hfit : FirstFit (Busy dev) n dev.totalSegments.toNat fit) (hmax : fit + n ≤ maxSegments) :
    findFreeSegments dev n = .ok fit := by
  have hfits := hfit.fits
  have hfuel : fit < (dev.totalSegments - n).toNat + 2 + 0 := by omega
  exact_mod_cast findLoop_firstFit hn hfit hmax (Nat.zero_le _) hfuel

/-! ### Allocation -/

theorem fillSegments_ok {lo k n : ℕ} (hmax : lo + k + n ≤ maxSegments) :
    fillSegments vmId lo n k dev = .ok (setRange dev (lo + k) n ⟨true, vmId⟩) := by
  induction n generalizing dev k with
  | zero => rw [fillSegments, setRange_zero]
  | succ n ih =>
    rw [fillSegments, ← Nat.cast_add, writeSegment_natCast (by omega), ok_bind]
    have hrest : ∀ dev : MemoryDaxDev, fillSegments vmId lo n (k + 1 : ℕ) dev =
        .ok (setRange dev (lo + (k + 1)) n ⟨true, vmId⟩) := fun _ => ih (by omega)
    push_cast at hrest
    rw [hrest, ← Nat.add_assoc, setRange_succ]

theorem fillSegments_range (dev : MemoryDaxDev) (vmId : ℤ) {lo n : ℕ} (hmax : lo + n ≤ maxSegments) :
    fillSegments vmId lo n 0 dev = .ok (setRange dev lo n ⟨true, vmId⟩) :=
  fillSegments_ok (k := 0) hmax

/-- The device after `n` segments from `lo` on went to the VM. -/
def allocated (dev : MemoryDaxDev) (vmId : ℤ) (lo n : ℕ) : MemoryDaxDev :=
  { setRange dev lo n ⟨true, vmId⟩ with usedSegments := dev.usedSegments + n }

theorem allocateSegments_ok {num : ℤ} {r : ℤ}
    (h : allocateSegments dev num vmId = .ok (r, dev')) :
    0 < num ∧
      ((r = -1 ∧ dev' = dev ∧
          ∀ lo : ℕ, (lo : ℤ) + num ≤ dev.totalSegments → ¬ FreeRun (Busy dev) lo num.toNat) ∨
        ∃ lo : ℕ, r = lo ∧ FirstFit (Busy dev) num.toNat dev.totalSegments.toNat lo ∧
          lo + num.toNat ≤ maxSegments ∧ dev' = allocated dev vmId lo num.toNat) := by
  simp only [allocateSegments, bind_eq_ok, bugOn_eq_ok, decide_eq_false_iff_not] at h
  obtain ⟨_, hpos, start, hfind, h⟩ := h
  have hnum : 0 < num := by omega
  obtain ⟨n, rfl⟩ := Int.eq_ofNat_of_zero_le hnum.le
  refine ⟨hnum, ?_⟩
  rcases findFreeSegments_ok (by omega) hfind with ⟨rfl, hnone⟩ | ⟨lo, rfl, hfit, hmax⟩
  · rw [if_pos rfl] at h
    cases h
    exact .inl ⟨rfl, rfl, hnone⟩
  · rw [if_neg (by omega), Int.toNat_natCast, fillSegments_range dev vmId hmax, ok_bind] at h
    cases h
    exact .inr ⟨lo, rfl, hfit, hmax, rfl⟩

theorem allocateSegments_error {num : ℤ} {e : Fault}
    (h : allocateSegments dev num vmId = .error e) :
    (e = .bugOn .numSegmentsPositive ∧ num ≤ 0) ∨
      (maxSegments : ℤ) < dev.totalSegments ∧ ∃ p, e = .segmentIndex p := by
  rw [allocateSegments] at h
  rcases bind_eq_error.mp h with hbug | ⟨_, hpos, h⟩
  · obtain ⟨he, hnum⟩ := bugOn_eq_error hbug
    exact .inl ⟨he, by simpa using hnum⟩
  · have hnum : 0 < num := by simpa using hpos
    obtain ⟨n, rfl⟩ := Int.eq_ofNat_of_zero_le hnum.le
    rcases bind_eq_error.mp h with hfind | ⟨start, hfind, h⟩
    · exact .inr (findFreeSegments_error hfind)
    · rcases findFreeSegments_ok (by omega) hfind with ⟨rfl, _⟩ | ⟨lo, rfl, _, hmax⟩
      · rw [if_pos rfl] at h
        cases h
      · rw [if_neg (by omega), Int.toNat_natCast, fillSegments_range dev vmId hmax, ok_bind] at h
        cases h

theorem allocateSegments_firstFit {n fit : ℕ} (hn : 0 < n)
    (hfit : FirstFit (Busy dev) n dev.totalSegments.toNat fit) (hmax : fit + n ≤ maxSegments) :
    allocateSegments dev n vmId = .ok (fit, allocated dev vmId fit n) := by
  have hpos : ¬ (n : ℤ) ≤ 0 := by omega
  simp only [allocateSegments, hpos, decide_false, bugOn, findFreeSegments_firstFit hn hfit hmax,
    ok_bind, Int.toNat_natCast, fillSegments_range dev vmId hmax]
  rw [if_neg (by simp), if_neg (by omega)]
  rfl

variable {pool pool' : Pool} {nodeId : ℤ} {k : ℕ}

theorem findMemDev_eq_some (h : findMemDev pool nodeId = some k) :
    k < pool.numDevs ∧ (pool.memDevs k).nodeId = nodeId := by
  have hmem := List.mem_of_find?_eq_some h
  have hp := List.find?_some h
  exact ⟨List.mem_range.mp hmem, by simpa using hp⟩

theorem findMemDev_eq_none (h : findMemDev pool nodeId = none) :
    ∀ i < pool.numDevs, (pool.memDevs i).nodeId ≠ nodeId := by
  intro i hi
  have := List.find?_eq_none.mp h i (List.mem_range.mpr hi)
  simpa using this

theorem setDev_self (pool : Pool) (k : ℕ) : pool.setDev k (pool.memDevs k) = pool := by
  simp [Pool.setDev]

@[simp] theorem setDev_numDevs (pool : Pool) (k : ℕ) (dev : MemoryDaxDev) :
    (pool.setDev k dev).numDevs = pool.numDevs := rfl

@[simp] theorem setDev_segmentSizeMb (pool : Pool) (k : ℕ) (dev : MemoryDaxDev) :
    (pool.setDev k dev).segmentSizeMb = pool.segmentSizeMb := rfl

theorem setDev_memDevs (pool : Pool) (k : ℕ) (dev : MemoryDaxDev) (i : ℕ) :
    (pool.setDev k dev).memDevs i = if i = k then dev else pool.memDevs i := by
  simp [Pool.setDev, Function.update_apply]

theorem isAligned_eq_ok_true {value alignment : ℤ} (hal : 0 < alignment)
    (h : isAligned value alignment = .ok true) :
    ∃ n : ℕ, value = n * alignment ∧ value.tdiv alignment = n := by
  unfold isAligned at h
  rw [if_neg hal.ne'] at h
  split_ifs at h with hneg
  · cases h
  · have hdvd : alignment ∣ value := Int.dvd_of_tmod_eq_zero (by simpa using Except.ok.inj h)
    obtain ⟨c, rfl⟩ := hdvd
    have hc : 0 ≤ c := by
      by_contra hlt
      have : alignment * c < 0 := mul_neg_of_pos_of_neg hal (by omega)
      contradiction
    obtain ⟨n, rfl⟩ := Int.eq_ofNat_of_zero_le hc
    exact ⟨n, mul_comm _ _, Int.mul_tdiv_cancel_left _ hal.ne'⟩

theorem isAligned_natMul {alignment : ℤ} (hal : 0 < alignment) (n : ℕ) :
    isAligned (n * alignment) alignment = .ok true := by
  have : ¬ (n : ℤ) * alignment < 0 := not_lt.mpr (by positivity)
  simp [isAligned, this, hal.ne']

theorem natMul_tdiv {alignment : ℤ} (hal : 0 < alignment) (n : ℕ) :
    ((n : ℤ) * alignment).tdiv alignment = n := Int.mul_tdiv_cancel _ hal.ne'

/-- What a successful allocation found and did. -/
structure Allocation (pool : Pool) (nodeId vmId sizeMb : ℤ) (req : MemoryRequest) (pool' : Pool)
    (k lo n : ℕ) : Prop where
  found : findMemDev pool nodeId = some k
  positive : 0 < n
  size : sizeMb = n * pool.segmentSizeMb
  fit : FirstFit (Busy (pool.memDevs k)) n (pool.memDevs k).totalSegments.toNat lo
  inArray : lo + n ≤ maxSegments
  request : req = ⟨nodeId, (pool.memDevs k).devPath.take (devPathLen - 1),
    lo * pool.segmentSizeMb, n * pool.segmentSizeMb, pool.segmentSizeMb⟩
  after : pool' = pool.setDev k (allocated (pool.memDevs k) vmId lo n)

theorem memoryPoolAllocateSegments_ok {sizeMb : ℤ} {res : Option MemoryRequest}
    (hseg : 0 < pool.numDevs → 0 < pool.segmentSizeMb)
    (h : memoryPoolAllocateSegments pool nodeId vmId sizeMb = .ok (res, pool')) :
    (res = none ∧ pool' = pool) ∨
      ∃ req k lo n, res = some req ∧ Allocation pool nodeId vmId sizeMb req pool' k lo n := by
  rw [memoryPoolAllocateSegments] at h
  obtain ⟨al, hal, h⟩ := bind_eq_ok.mp h
  cases al with
  | false =>
    cases h
    exact .inl ⟨rfl, rfl⟩
  | true =>
    rw [if_neg (by simp)] at h
    cases hfind : findMemDev pool nodeId with
    | none =>
      rw [hfind] at h
      cases h
      exact .inl ⟨rfl, rfl⟩
    | some k =>
      have hpos := hseg (Nat.zero_lt_of_lt (findMemDev_eq_some hfind).1)
      obtain ⟨n, hsize, hdiv⟩ := isAligned_eq_ok_true hpos hal
      rw [hfind] at h
      simp only [hdiv] at h
      obtain ⟨⟨start, dev'⟩, halloc, h⟩ := bind_eq_ok.mp h
      obtain ⟨hn, hres⟩ := allocateSegments_ok halloc
      rcases hres with ⟨rfl, rfl, _⟩ | ⟨lo, rfl, hfit, hmax, rfl⟩
      · simp only [if_pos (show (-1 : ℤ) < 0 by decide), setDev_self] at h
        cases h
        exact .inl ⟨rfl, rfl⟩
      · rw [Int.toNat_natCast] at *
        simp only [if_neg (show ¬ (lo : ℤ) < 0 by omega), bind_eq_ok, cInt_eq_ok] at h
        obtain ⟨_, ⟨_, rfl⟩, _, ⟨_, rfl⟩, h⟩ := h
        cases h
        exact .inr ⟨_, k, lo, n, rfl, hfind, by omega, hsize, hfit, hmax, rfl, rfl⟩

theorem memoryPoolAllocateSegments_firstFit {lo n : ℕ} (hseg : 0 < pool.segmentSizeMb)
    (hfind : findMemDev pool nodeId = some k) (hn : 0 < n)
    (hfit : FirstFit (Busy (pool.memDevs k)) n (pool.memDevs k).totalSegments.toNat lo)
    (hmax : lo + n ≤ maxSegments) (hoffset : InInt (lo * pool.segmentSizeMb))
    (hsize : InInt (n * pool.segmentSizeMb)) :
    memoryPoolAllocateSegments pool nodeId vmId (n * pool.segmentSizeMb) =
      .ok (some ⟨nodeId, (pool.memDevs k).devPath.take (devPathLen - 1),
        lo * pool.segmentSizeMb, n * pool.segmentSizeMb, pool.segmentSizeMb⟩,
        pool.setDev k (allocated (pool.memDevs k) vmId lo n)) := by
  have hneg : ¬ (lo : ℤ) < 0 := by omega
  simp only [memoryPoolAllocateSegments, isAligned_natMul hseg, ok_bind, hfind, natMul_tdiv hseg,
    allocateSegments_firstFit hn hfit hmax, if_neg hneg, cInt_of_inInt hoffset,
    cInt_of_inInt hsize]
  rfl

theorem memoryPoolAllocateSegments_error {sizeMb : ℤ} {e : Fault}
    (h : memoryPoolAllocateSegments pool nodeId vmId sizeMb = .error e) :
    (e = .divisionByZero ∨ e = .bugOn .numSegmentsPositive ∨ e = .intOverflow) ∨
      (∃ p, e = .segmentIndex p) ∧
        ∃ k < pool.numDevs, (maxSegments : ℤ) < (pool.memDevs k).totalSegments := by
  rw [memoryPoolAllocateSegments] at h
  rcases bind_eq_error.mp h with hal | ⟨al, _, h⟩
  · unfold isAligned at hal
    split_ifs at hal
    cases hal
    exact .inl (.inl rfl)
  · split_ifs at h
    split at h
    · cases h
    · rename_i k hfind
      rcases bind_eq_error.mp h with halloc | ⟨⟨start, dev'⟩, _, h⟩
      · rcases allocateSegments_error halloc with ⟨rfl, _⟩ | ⟨hmax, hidx⟩
        · exact .inl (.inr (.inl rfl))
        · exact .inr ⟨hidx, k, (findMemDev_eq_some hfind).1, hmax⟩
      · dsimp only at h
        split_ifs at h
        simp only [bind_eq_error] at h
        rcases h with h | ⟨_, _, h | ⟨_, _, h⟩⟩
        · exact .inl (.inr (.inr (cInt_eq_error h)))
        · exact .inl (.inr (.inr (cInt_eq_error h)))
        · cases h

/-! ### Release -/

/-- The device after one segment was given back. -/
def freedAt (dev : MemoryDaxDev) (p : ℕ) : MemoryDaxDev :=
  { dev with
    segments := Function.update dev.segments p freeSegment
    usedSegments := dev.usedSegments - 1 }

/-- The device after the segments `[lo, lo+n)` were given back. -/
def released (dev : MemoryDaxDev) (lo n : ℕ) : MemoryDaxDev :=
  { setRange dev lo n freeSegment with usedSegments := dev.usedSegments - n }

theorem released_succ (dev : MemoryDaxDev) (lo n : ℕ) :
    released (freedAt dev lo) (lo + 1) n = released dev lo (n + 1) := by
  have := setRange_succ dev lo n freeSegment
  simp only [setRange, MemoryDaxDev.mk.injEq, true_and] at this
  simp only [released, freedAt, setRange, MemoryDaxDev.mk.injEq, true_and, this, and_true]
  push_cast
  ring

theorem releasable_owned {p : ℕ} (hmax : p < maxSegments) (htotal : (p : ℤ) < dev.totalSegments)
    (hown : Owned dev vmId p) : releasable dev vmId p = .ok true := by
  simp [releasable, htotal, readSegment_natCast hmax, hown.1, hown.2]

theorem releaseSegment_natCast {p : ℕ} (hmax : p < maxSegments) :
    releaseSegment dev p = .ok (freedAt dev p) := by
  simp [releaseSegment, writeSegment_natCast hmax, freedAt]

/-- Releasing owned segments of the device succeeds and frees exactly these. -/
theorem releaseSegments_owned {lo k n : ℕ}
    (hown : ∀ p, lo + k ≤ p → p < lo + k + n →
      Owned dev vmId p ∧ p < maxSegments ∧ (p : ℤ) < dev.totalSegments) :
    releaseSegments vmId lo n k dev = .ok (0, released dev (lo + k) n) := by
  induction n generalizing dev k with
  | zero => simp [releaseSegments, released, setRange_zero]
  | succ n ih =>
    obtain ⟨hhere, hmax, htotal⟩ := hown (lo + k) le_rfl (by omega)
    rw [releaseSegments, ← Nat.cast_add, releasable_owned hmax htotal hhere, ok_bind,
      if_pos rfl, releaseSegment_natCast hmax, ok_bind]
    have hrest : ∀ p, lo + (k + 1) ≤ p → p < lo + (k + 1) + n →
        Owned (freedAt dev (lo + k)) vmId p ∧ p < maxSegments ∧
          (p : ℤ) < (freedAt dev (lo + k)).totalSegments := by
      intro p h1 h2
      obtain ⟨hp, hpmax, hptotal⟩ := hown p (by omega) (by omega)
      refine ⟨?_, hpmax, hptotal⟩
      have hne : p ≠ lo + k := by omega
      simpa [Owned, freedAt, Function.update_of_ne hne] using hp
    have := ih hrest
    rw [← Nat.add_assoc, released_succ] at this
    exact_mod_cast this

theorem memoryPoolReleaseSegments_owned {lo n : ℕ} (hseg : 0 < pool.segmentSizeMb)
    (hfind : findMemDev pool nodeId = some k)
    (hown : ∀ p, lo ≤ p → p < lo + n → Owned (pool.memDevs k) vmId p ∧ p < maxSegments ∧
      (p : ℤ) < (pool.memDevs k).totalSegments) :
    memoryPoolReleaseSegments pool nodeId vmId (lo * pool.segmentSizeMb)
      (n * pool.segmentSizeMb) = .ok (0, pool.setDev k (released (pool.memDevs k) lo n)) := by
  have hrel : releaseSegments vmId lo n (0 : ℕ) (pool.memDevs k) =
      .ok (0, released (pool.memDevs k) lo n) := releaseSegments_owned hown
  rw [Nat.cast_zero] at hrel
  simp only [memoryPoolReleaseSegments, isAligned_natMul hseg, ok_bind, hfind, natMul_tdiv hseg,
    Int.toNat_natCast, hrel]
  rfl

/-- The device after all its segments in `[j, j+n)` that belong to the VM were given back. -/
def vmReleased (dev : MemoryDaxDev) (vmId : ℤ) (j n : ℕ) : MemoryDaxDev :=
  { dev with
    segments := fun p =>
      if (j ≤ p ∧ p < j + n) ∧ Owned dev vmId p then freeSegment else dev.segments p
    usedSegments := dev.usedSegments - ∑ p ∈ Finset.Ico j (j + n), if Owned dev vmId p then 1 else 0 }

theorem vmReleased_segments (dev : MemoryDaxDev) (vmId : ℤ) (j n p : ℕ) :
    (vmReleased dev vmId j n).segments p =
      if (j ≤ p ∧ p < j + n) ∧ Owned dev vmId p then freeSegment else dev.segments p := rfl

theorem vmReleased_zero (dev : MemoryDaxDev) (vmId : ℤ) (j : ℕ) : vmReleased dev vmId j 0 = dev := by
  have : ∀ p, ¬ ((j ≤ p ∧ p < j + 0) ∧ Owned dev vmId p) := fun p h => by omega
  simp only [vmReleased, if_neg (this _)]
  simp

theorem owned_freedAt {p j : ℕ} (hne : p ≠ j) :
    Owned (freedAt dev j) vmId p ↔ Owned dev vmId p := by
  simp [Owned, freedAt, Function.update_of_ne hne]

theorem vmReleased_succ_owned {j n : ℕ} (hown : Owned dev vmId j) :
    vmReleased (freedAt dev j) vmId (j + 1) n = vmReleased dev vmId j (n + 1) := by
  have hsum : ∀ f : ℕ → ℤ, ∑ p ∈ Finset.Ico j (j + (n + 1)), f p =
      f j + ∑ p ∈ Finset.Ico (j + 1) (j + 1 + n), f p := by
    intro f
    rw [Finset.sum_eq_sum_Ico_succ_bot (by omega), show j + (n + 1) = j + 1 + n by omega]
  simp only [vmReleased, MemoryDaxDev.mk.injEq, hsum, if_pos hown]
  refine ⟨rfl, rfl, rfl, rfl, rfl, rfl, ?_, ?_⟩
  · have : ∀ p ∈ Finset.Ico (j + 1) (j + 1 + n),
        (if Owned (freedAt dev j) vmId p then (1 : ℤ) else 0) = if Owned dev vmId p then 1 else 0 := by
      intro p hp
      have := (Finset.mem_Ico.mp hp).1
      simp only [owned_freedAt (show p ≠ j by omega)]
    rw [Finset.sum_congr rfl this]
    simp only [freedAt]
    ring
  · funext p
    by_cases hp : p = j
    · subst hp
      simp [hown, freedAt]
    · simp only [owned_freedAt hp]
      have : (j + 1 ≤ p ∧ p < j + 1 + n) ↔ (j ≤ p ∧ p < j + (n + 1)) := by omega
      simp only [this, freedAt, Function.update_of_ne hp]

theorem vmReleased_succ_foreign {j n : ℕ} (hown : ¬ Owned dev vmId j) :
    vmReleased dev vmId (j + 1) n = vmReleased dev vmId j (n + 1) := by
  simp only [vmReleased, MemoryDaxDev.mk.injEq, true_and]
  constructor
  · rw [Finset.sum_eq_sum_Ico_succ_bot (show j < j + (n + 1) by omega), if_neg hown, zero_add,
      show j + (n + 1) = j + 1 + n by omega]
  · funext p
    by_cases hp : p = j
    · subst hp
      simp [hown]
    · have : (j + 1 ≤ p ∧ p < j + 1 + n) ↔ (j ≤ p ∧ p < j + (n + 1)) := by omega
      simp only [this]

theorem releaseVmSegments_ok {n j : ℕ} (h : releaseVmSegments vmId n j dev = .ok dev') :
    dev' = vmReleased dev vmId j n := by
  induction n generalizing j dev with
  | zero =>
    cases h
    rw [vmReleased_zero]
  | succ n ih =>
    simp only [releaseVmSegments, bind_eq_ok] at h
    obtain ⟨seg, hread, h⟩ := h
    obtain ⟨hidx, rfl⟩ := readSegment_eq_ok hread
    rw [Int.toNat_natCast] at h
    split_ifs at h with hown
    · obtain ⟨dev₁, hrel, h⟩ := bind_eq_ok.mp h
      rw [releaseSegment_natCast (segmentIndex_natCast.mp hidx)] at hrel
      cases hrel
      have hown' : Owned dev vmId j := by simpa [Owned] using hown
      rw [← vmReleased_succ_owned hown']
      exact ih (j := j + 1) (by exact_mod_cast h)
    · have hown' : ¬ Owned dev vmId j := by simpa [Owned] using hown
      rw [← vmReleased_succ_foreign hown']
      exact ih (j := j + 1) (by exact_mod_cast h)

/-- The scan leaves the array exactly when the device has more segments than the array. -/
theorem releaseVmSegments_error {n j : ℕ} {e : Fault}
    (h : releaseVmSegments vmId n j dev = .error e) :
    maxSegments < j + n ∧ ∃ p, e = .segmentIndex p := by
  induction n generalizing j dev with
  | zero => cases h
  | succ n ih =>
    simp only [releaseVmSegments, bind_eq_error] at h
    rcases h with hread | ⟨seg, hread, h⟩
    · obtain ⟨he, hidx⟩ := readSegment_eq_error hread
      rw [segmentIndex_natCast] at hidx
      exact ⟨by omega, _, he⟩
    · have hidx := segmentIndex_natCast.mp (readSegment_eq_ok hread).1
      split_ifs at h
      · rw [releaseSegment_natCast hidx, ok_bind] at h
        have := ih (j := j + 1) (by exact_mod_cast h)
        exact ⟨by omega, this.2⟩
      · have := ih (j := j + 1) (by exact_mod_cast h)
        exact ⟨by omega, this.2⟩

theorem releaseVmSegments_inArray {n j : ℕ} (hmax : j + n ≤ maxSegments) :
    releaseVmSegments vmId n j dev = .ok (vmReleased dev vmId j n) := by
  cases h : releaseVmSegments vmId n j dev with
  | error e =>
    have := (releaseVmSegments_error h).1
    omega
  | ok dev' => rw [releaseVmSegments_ok h]

theorem releaseVmSegments_outside {n j : ℕ} (hmax : maxSegments < j + n) (hn : 0 < n) :
    ∃ p, releaseVmSegments vmId n j dev = .error (.segmentIndex p) := by
  induction n generalizing j dev with
  | zero => omega
  | succ n ih =>
    rw [releaseVmSegments]
    by_cases hj : j < maxSegments
    · rw [readSegment_natCast hj, ok_bind]
      have hn' : 0 < n := by omega
      split_ifs
      · rw [releaseSegment_natCast hj, ok_bind]
        exact_mod_cast ih (j := j + 1) (by omega) hn'
      · exact_mod_cast ih (j := j + 1) (by omega) hn'
    · refine ⟨j, ?_⟩
      simp [readSegment, segmentIndex_natCast, hj]

/-- The pool after every segment of the VM was given back. -/
def vmReleasedPool (pool : Pool) (vmId : ℤ) (i n : ℕ) : Pool :=
  { pool with
    memDevs := fun q =>
      if i ≤ q ∧ q < i + n then
        vmReleased (pool.memDevs q) vmId 0 (pool.memDevs q).totalSegments.toNat
      else pool.memDevs q }

theorem vmReleasedPool_succ (pool : Pool) (vmId : ℤ) (i n : ℕ) :
    vmReleasedPool (pool.setDev i
      (vmReleased (pool.memDevs i) vmId 0 (pool.memDevs i).totalSegments.toNat)) vmId (i + 1) n =
      vmReleasedPool pool vmId i (n + 1) := by
  simp only [vmReleasedPool, Pool.setDev, Pool.mk.injEq, and_true]
  funext q
  by_cases hq : q = i
  · subst hq
    simp
  · simp only [Function.update_of_ne hq]
    have : (i + 1 ≤ q ∧ q < i + 1 + n) ↔ (i ≤ q ∧ q < i + (n + 1)) := by omega
    simp only [this]

theorem releaseVmDevices_ok {n i : ℕ} (h : releaseVmDevices vmId n i pool = .ok pool') :
    pool' = vmReleasedPool pool vmId i n := by
  induction n generalizing i pool with
  | zero =>
    cases h
    have : ∀ q, ¬ (i ≤ q ∧ q < i + 0) := fun q => by omega
    simp only [vmReleasedPool, if_neg (this _)]
  | succ n ih =>
    simp only [releaseVmDevices, bind_eq_ok] at h
    obtain ⟨dev, hdev, h⟩ := h
    have := releaseVmSegments_ok (j := 0) (by exact_mod_cast hdev)
    subst this
    rw [← vmReleasedPool_succ]
    exact ih h

theorem memoryPoolReleaseVmMemory_ok (h : memoryPoolReleaseVmMemory pool vmId = .ok pool') :
    pool' = vmReleasedPool pool vmId 0 pool.numDevs := releaseVmDevices_ok h

theorem releaseVmDevices_error {n i : ℕ} {e : Fault}
    (h : releaseVmDevices vmId n i pool = .error e) :
    (∃ p, e = .segmentIndex p) ∧
      ∃ k, i ≤ k ∧ k < i + n ∧ (maxSegments : ℤ) < (pool.memDevs k).totalSegments := by
  induction n generalizing i pool with
  | zero => cases h
  | succ n ih =>
    rw [releaseVmDevices] at h
    rcases bind_eq_error.mp h with hdev | ⟨dev, hdev, h⟩
    · obtain ⟨hmax, hidx⟩ := releaseVmSegments_error (j := 0) (by exact_mod_cast hdev)
      exact ⟨hidx, i, le_rfl, by omega, by omega⟩
    · obtain ⟨hidx, k, h1, h2, h3⟩ := ih h
      rw [setDev_memDevs, if_neg (by omega)] at h3
      exact ⟨hidx, k, by omega, by omega, h3⟩

theorem releaseVmDevices_outside {n i k : ℕ} (hik : i ≤ k) (hk : k < i + n)
    (hmax : (maxSegments : ℤ) < (pool.memDevs k).totalSegments) :
    ∃ p, releaseVmDevices vmId n i pool = .error (.segmentIndex p) := by
  induction n generalizing i pool with
  | zero => omega
  | succ n ih =>
    rw [releaseVmDevices]
    by_cases hlen : (pool.memDevs i).totalSegments.toNat ≤ maxSegments
    · have hdev := @releaseVmSegments_inArray (pool.memDevs i) vmId _ 0
        ((Nat.zero_add _).trans_le hlen)
      rw [Nat.cast_zero] at hdev
      rw [hdev, ok_bind]
      have hne : k ≠ i := by
        rintro rfl
        omega
      refine ih (by omega) (by omega) ?_
      rwa [setDev_memDevs, if_neg hne]
    · obtain ⟨p, hp⟩ := @releaseVmSegments_outside (pool.memDevs i) vmId
        (pool.memDevs i).totalSegments.toNat 0 (by omega) (by omega)
      rw [Nat.cast_zero] at hp
      exact ⟨p, by rw [hp, error_bind]⟩

/-! ### The usage table -/

theorem usageLoop_eq {size : ℕ} (hsize : 0 < size) (n i : ℕ) {buffer : CText.Text}
    (hfits : buffer.length ≤ size - 1) :
    usageLoop pool size n i buffer buffer.length =
      .ok ((buffer ++ (List.range' i n).flatMap (usageRow pool)).take (size - 1)) := by
  induction n generalizing i buffer with
  | zero =>
    rw [List.range'_zero, List.flatMap_nil, List.append_nil, List.take_of_length_le hfits]
    rfl
  | succ n ih =>
    have hlt : buffer.length < size := by omega
    have hrest : size - buffer.length - 1 = size - 1 - buffer.length := by omega
    rw [usageLoop, if_pos hlt, appendf, if_pos hlt.le, ok_bind, List.range'_succ,
      List.flatMap_cons, hrest]
    dsimp only
    split
    · rename_i hfull
      rw [List.take_append, List.take_append_of_le_length (by omega), List.take_of_length_le hfits]
    · rename_i hroom
      rw [not_le] at hroom
      have hrow : (usageRow pool i).take (size - 1 - buffer.length) = usageRow pool i :=
        List.take_of_length_le (by omega)
      have hlen : buffer.length + (usageRow pool i).length =
          (buffer ++ usageRow pool i).length := List.length_append.symm
      rw [hrow, hlen, ih (i + 1) (by omega), List.append_assoc]

/-- The table of devices, cut to the buffer; it is printed without a fault. -/
theorem memoryPoolGetUsage_eq {size : ℕ} (hheader : usageHeader.length < size)
    (hdevs : 0 < pool.numDevs) :
    memoryPoolGetUsage pool size =
      .ok ((usageHeader ++ (List.range pool.numDevs).flatMap (usageRow pool)).take (size - 1)) := by
  have hsize : 0 < size := Nat.zero_lt_of_lt hheader
  have happend : appendf size [] 0 usageHeader = .ok (usageHeader, usageHeader.length) := by
    rw [appendf, if_pos (Nat.zero_le _), List.take_of_length_le (by omega)]
    simp
  rw [memoryPoolGetUsage, if_neg hdevs.ne', happend, ok_bind, List.range_eq_range']
  exact usageLoop_eq hsize _ _ (by omega)

theorem memoryPoolGetUsage_total {size : ℕ} (hheader : usageHeader.length < size) :
    ∃ t, memoryPoolGetUsage pool size = .ok t := by
  by_cases hdevs : 0 < pool.numDevs
  · exact ⟨_, memoryPoolGetUsage_eq hheader hdevs⟩
  · rw [memoryPoolGetUsage, if_pos (by omega)]
    exact ⟨_, rfl⟩

end Ramryder.MemoryPoolSpec
