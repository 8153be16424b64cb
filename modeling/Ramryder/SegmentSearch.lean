import Ramryder.MemoryPoolSpec

/-! The search for free segments against the scan that tries every start in turn, and the segments
it looks at on its way. -/
namespace Ramryder.SegmentSearch
open CMachine FreeRuns MemoryPool MemoryPoolSpec

variable {dev : MemoryDaxDev} {num total : ℤ}

/-- The run fits into the device and all of it is free. -/
def FreeStart (dev : MemoryDaxDev) (num : ℤ) (i : ℕ) : Prop :=
  (i : ℤ) + num ≤ dev.totalSegments ∧ FreeRun (Busy dev) i num.toNat

/-- The least start of a free run, or -1 where there is none. -/
def FirstStart (dev : MemoryDaxDev) (num r : ℤ) : Prop :=
  (r = -1 ∧ ∀ i, ¬ FreeStart dev num i) ∨ ∃ i : ℕ, r = i ∧ IsLeast {i | FreeStart dev num i} i

/-! ### The scan that tries every start -/

def freeAt (dev : MemoryDaxDev) (num : ℤ) (i : ℕ) : Bool :=
  decide ((i : ℤ) + num ≤ dev.totalSegments) &&
    (List.range num.toNat).all fun j => !(dev.segments (i + j)).allocated

/-- Every start of the device in turn, each with its whole run. -/
def naiveSearch (dev : MemoryDaxDev) (num : ℤ) : ℤ :=
  match (List.range dev.totalSegments.toNat).find? (freeAt dev num) with
  | some i => i
  | none => -1

theorem freeAt_iff {i : ℕ} : freeAt dev num i = true ↔ FreeStart dev num i := by
  simp [freeAt, FreeStart, FreeRun, Busy]

theorem naiveSearch_first (hnum : 1 ≤ num) : FirstStart dev num (naiveSearch dev num) := by
  have hlisted : ∀ i, FreeStart dev num i → i < dev.totalSegments.toNat := by
    rintro i ⟨hfits, _⟩
    omega
  unfold naiveSearch
  split
  · rename_i i hfind
    obtain ⟨hfree, as, bs, hsplit, hbefore⟩ := List.find?_eq_some_iff_append.mp hfind
    refine .inr ⟨i, rfl, freeAt_iff.mp hfree, fun q hq => ?_⟩
    -- the starts before `i` are the first `i` of the list
    have hlen : as.length = i := by
      have hat : (List.range dev.totalSegments.toNat)[as.length]? = some i := by
        rw [hsplit, List.getElem?_append_right le_rfl, Nat.sub_self]
        rfl
      obtain ⟨_, hsame⟩ := List.getElem?_eq_some_iff.mp hat
      rwa [List.getElem_range] at hsame
    by_contra hlt
    rw [not_le] at hlt
    have hmem : q ∈ as := by
      have hat : (List.range dev.totalSegments.toNat)[q]? = some q :=
        List.getElem?_range (hlisted q hq)
      rw [hsplit, List.getElem?_append_left (by omega)] at hat
      exact List.mem_of_getElem? hat
    have hno := hbefore q hmem
    rw [freeAt_iff.mpr hq] at hno
    cases hno
  · rename_i hfind
    refine .inl ⟨rfl, fun i hi => ?_⟩
    have hno := List.find?_eq_none.mp hfind i (List.mem_range.mpr (hlisted i hi))
    exact hno (freeAt_iff.mpr hi)

theorem FirstStart.unique {r r' : ℤ} (h : FirstStart dev num r) (h' : FirstStart dev num r') : r = r' := by
  rcases h with ⟨rfl, hnone⟩ | ⟨i, rfl, hi⟩
  · rcases h' with ⟨rfl, _⟩ | ⟨i', _, hi'⟩
    · rfl
    · exact absurd hi'.1 (hnone i')
  · rcases h' with ⟨_, hnone⟩ | ⟨i', rfl, hi'⟩
    · exact absurd hi.1 (hnone i)
    · exact congrArg _ (hi.unique hi')

/-! ### The search -/

theorem findFreeSegments_first (htotal : dev.totalSegments ≤ maxSegments) (hnum : 1 ≤ num) :
    ∃ r, findFreeSegments dev num = .ok r ∧ FirstStart dev num r := by
  obtain ⟨n, rfl⟩ := Int.eq_ofNat_of_zero_le (show 0 ≤ num by omega)
  cases hfind : findFreeSegments dev n with
  | error e =>
    have hmax := (findFreeSegments_error hfind).1
    omega
  | ok r =>
    refine ⟨r, rfl, ?_⟩
    rcases findFreeSegments_ok (by omega) hfind with ⟨rfl, hnone⟩ | ⟨lo, rfl, hfit, _⟩
    · exact .inl ⟨rfl, fun i hi => hnone i hi.1 hi.2⟩
    · have hend := hfit.fits
      refine .inr ⟨lo, rfl, ⟨?_, hfit.free⟩, fun q hq => ?_⟩
      · omega
      · by_contra hlt
        exact hfit.least q (not_le.mp hlt) hq.2

/-! ### What the search reads -/

variable {read read' : ℤ → Outcome MemorySegment}

/-- `scanRun` over any way to read a segment. -/
def scanRunBy (read : ℤ → Outcome MemorySegment) (i : ℤ) : ℕ → ℤ → Outcome ℤ
  | 0, j => .ok j
  | n+1, j => do
    let seg ← read (i + j)
    if seg.allocated then .ok j else scanRunBy read i n (j + 1)

def findLoopBy (read : ℤ → Outcome MemorySegment) (total numSegments : ℤ) : ℕ → ℤ → Outcome ℤ
  | 0, _ => .error .outOfFuel
  | fuel+1, i =>
    if i ≤ total - numSegments then do
      let j ← scanRunBy read i numSegments.toNat 0
      if j = numSegments then .ok i else findLoopBy read total numSegments fuel (i + j + 1)
    else .ok (-1)

def findFreeSegmentsBy (read : ℤ → Outcome MemorySegment) (total numSegments : ℤ) : Outcome ℤ :=
  findLoopBy read total numSegments ((total - numSegments).toNat + 2) 0

/-- A device whose array ends with its segments. -/
def readInside (dev : MemoryDaxDev) (idx : ℤ) : Outcome MemorySegment :=
  if 0 ≤ idx ∧ idx < dev.totalSegments then .ok (dev.segments idx.toNat) else .error (.segmentIndex idx)

theorem scanRunBy_readSegment (n : ℕ) (i j : ℤ) :
    scanRunBy (readSegment dev) i n j = scanRun dev i n j := by
  induction n generalizing j with
  | zero => rfl
  | succ n ih => simp only [scanRunBy, scanRun, ih]

theorem findLoopBy_readSegment (fuel : ℕ) (i : ℤ) :
    findLoopBy (readSegment dev) dev.totalSegments num fuel i = findLoop dev num fuel i := by
  induction fuel generalizing i with
  | zero => rfl
  | succ fuel ih => simp only [findLoopBy, findLoop, scanRunBy_readSegment, ih]

theorem findFreeSegmentsBy_readSegment (dev : MemoryDaxDev) (num : ℤ) :
    findFreeSegmentsBy (readSegment dev) dev.totalSegments num = findFreeSegments dev num :=
  findLoopBy_readSegment _ _

theorem scanRunBy_le {n : ℕ} {i j r : ℤ} (h : scanRunBy read i n j = .ok r) : j ≤ r := by
  induction n generalizing j with
  | zero =>
    cases h
    exact le_rfl
  | succ n ih =>
    obtain ⟨seg, _, h⟩ := bind_eq_ok.mp h
    split_ifs at h
    · cases h
      exact le_rfl
    · have hrest := ih h
      omega

/-- A scan that ends inside the device does not depend on what is read elsewhere. -/
theorem scanRunBy_congr {n : ℕ} {i j : ℤ} (hread : ∀ idx, 0 ≤ idx → idx < total → read idx = read' idx)
    (hi : 0 ≤ i) (hj : 0 ≤ j) (hend : i + j + n ≤ total) :
    scanRunBy read i n j = scanRunBy read' i n j := by
  induction n generalizing j with
  | zero => rfl
  | succ n ih =>
    push_cast at hend
    have hrest := @ih (j + 1) (by omega) (by omega)
    simp only [scanRunBy, hread (i + j) (by omega) (by omega), hrest]

theorem findLoopBy_congr {fuel : ℕ} {i : ℤ}
    (hread : ∀ idx, 0 ≤ idx → idx < total → read idx = read' idx) (hnum : 1 ≤ num) (hi : 0 ≤ i) :
    findLoopBy read total num fuel i = findLoopBy read' total num fuel i := by
  induction fuel generalizing i with
  | zero => rfl
  | succ fuel ih =>
    rw [findLoopBy, findLoopBy]
    split_ifs with hle
    · rw [scanRunBy_congr hread hi le_rfl (by omega)]
      cases hscan : scanRunBy read' i num.toNat 0 with
      | error e => rfl
      | ok j =>
        have hj := scanRunBy_le hscan
        rw [ok_bind, ok_bind, ih (by omega)]
    · rfl

/-- The search looks at the segments of the device only. -/
theorem findFreeSegmentsBy_congr (hread : ∀ idx, 0 ≤ idx → idx < total → read idx = read' idx)
    (hnum : 1 ≤ num) : findFreeSegmentsBy read total num = findFreeSegmentsBy read' total num :=
  findLoopBy_congr hread hnum le_rfl

/-- The search ends, with the result of the scan that tries every start, and the same is true where a
read outside the segments of the device is a fault. -/
theorem findFreeSegments_naive (dev : MemoryDaxDev) (htotal : dev.totalSegments ≤ maxSegments)
    {num : ℤ} (hnum : 1 ≤ num) :
    findFreeSegments dev num = .ok (naiveSearch dev num) ∧
      findFreeSegmentsBy (readInside dev) dev.totalSegments num = .ok (naiveSearch dev num) ∧
      FirstStart dev num (naiveSearch dev num) := by
  obtain ⟨r, hfind, hfirst⟩ := findFreeSegments_first htotal hnum
  have hnaive := @naiveSearch_first dev num hnum
  obtain rfl := hfirst.unique hnaive
  have hinside : findFreeSegmentsBy (readInside dev) dev.totalSegments num =
      findFreeSegments dev num := by
    rw [← findFreeSegmentsBy_readSegment]
    refine findFreeSegmentsBy_congr (fun idx hlow hhigh => ?_) hnum
    rw [readInside, readSegment, if_pos ⟨hlow, hhigh⟩, if_pos ⟨hlow, by omega⟩]
  exact ⟨hfind, hinside.trans hfind, hnaive⟩

/-- A device of five segments with the third one allocated. -/
def holedDev : MemoryDaxDev :=
  ⟨[], 0, 0, 0, 20, 5, 1, fun p => if p = 2 then ⟨true, 7⟩ else freeSegment⟩

theorem findFreeSegments_naive_holedDev :
    (findFreeSegments holedDev 2 = .ok (naiveSearch holedDev 2) ∧
      findFreeSegmentsBy (readInside holedDev) holedDev.totalSegments 2 = .ok (naiveSearch holedDev 2) ∧
      FirstStart holedDev 2 (naiveSearch holedDev 2)) ∧
    findFreeSegments holedDev 3 = .ok (-1) :=
  ⟨findFreeSegments_naive holedDev (by decide) (by decide), by decide⟩

end Ramryder.SegmentSearch
