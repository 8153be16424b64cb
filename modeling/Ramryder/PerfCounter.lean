import Ramryder.CMachine

/-! The perf events of a VM: the event tables, what the kernel is asked for, and
the per-event arrays of file descriptors with the life of each descriptor. -/
namespace Ramryder.PerfCounter
open CMachine

inductive PerfEventType
  | instRetired
  | cpuClkUnhaltedThread
  | cpuClkUnhaltedRefTsc
  | ocrOutstandingL3MissDemandDataRd
  | ocrL3MissDemandDataRd
  deriving DecidableEq, Repr

/-- In the order of the enumeration, as the loops over `PERF_EVENT_TYPE_MAX` visit them. -/
def perfEventTypes : List PerfEventType :=
  [.instRetired, .cpuClkUnhaltedThread, .cpuClkUnhaltedRefTsc,
    .ocrOutstandingL3MissDemandDataRd, .ocrL3MissDemandDataRd]

def perfEventConfigArr : PerfEventType → ℕ
  | .instRetired => 0xC0
  | .cpuClkUnhaltedThread => 0x3C
  | .cpuClkUnhaltedRefTsc => 0x300
  | .ocrOutstandingL3MissDemandDataRd => 0x1060
  | .ocrL3MissDemandDataRd => 0x10b0

def perfEventConfig1Arr : PerfEventType → ℕ := fun _ => 0

def perfEventIsLeaderArr : PerfEventType → Bool := fun _ => true

def perfEventPinArr : PerfEventType → Bool
  | .ocrL3MissDemandDataRd => false
  | _ => true

/-- The arguments of `perf_event_setup` that differ between calls; the exclusions are all off. -/
structure PerfEventSetup where
  core : ℤ
  config : ℕ
  config1 : ℕ
  pinEvent : Bool
  groupFd : ℤ
  deriving DecidableEq, Repr

/-- The kernel during one call: the descriptor for the `n`-th core's request, negative where
it refuses, and the scaled 64-bit count behind a descriptor. -/
structure PerfKernel where
  setup : ℕ → PerfEventSetup → ℤ
  read : ℤ → ℕ

inductive FdCell
  | unset
  | opened (fd : ℤ)
  | closed (fd : ℤ)
  deriving DecidableEq, Repr

/-- `perf_event_fds[j]`: no block yet, a block from `malloc`, or a block given back. -/
inductive FdArray
  | null
  | live (cells : List FdCell)
  | freed
  deriving DecidableEq, Repr

def FdArray.alloc (n : ℕ) : FdArray := .live (List.replicate n .unset)

def FdArray.store (array : FdArray) (k : ℕ) (fd : ℤ) : Outcome FdArray :=
  match array with
  | .live cells =>
    if k < cells.length then .ok (.live (cells.set k (.opened fd))) else .error .perfEventFds
  | _ => .error .perfEventFds

/-- Reading a count: only an open descriptor has one. -/
def FdArray.read (array : FdArray) (k : ℕ) : Outcome ℤ :=
  match array with
  | .live cells =>
    match cells[k]? with
    | some (.opened fd) => .ok fd
    | _ => .error .perfEventFds
  | _ => .error .perfEventFds

/-- Reading a count and closing its descriptor: only an open one has either. -/
def FdArray.close (array : FdArray) (k : ℕ) : Outcome (ℤ × FdArray) :=
  match array with
  | .live cells =>
    match cells[k]? with
    | some (.opened fd) => .ok (fd, .live (cells.set k (.closed fd)))
    | _ => .error .perfEventFds
  | _ => .error .perfEventFds

def FdArray.free (array : FdArray) : Outcome FdArray :=
  match array with
  | .live _ => .ok .freed
  | _ => .error .perfEventFds

/-- `n` descriptors, all open. -/
def FdArray.Filled (array : FdArray) (n : ℕ) : Prop :=
  ∃ fds : List ℤ, fds.length = n ∧ array = .live (fds.map .opened)

/-- No open descriptor: never set up, or torn down. -/
def FdArray.Idle (array : FdArray) : Prop := array = .null ∨ array = .freed

/-- The first `k` of `n` descriptors are open, the others were never stored. -/
def FdArray.Filling (array : FdArray) (k n : ℕ) : Prop :=
  ∃ fds : List ℤ, fds.length = k ∧ k ≤ n ∧
    array = .live (fds.map .opened ++ List.replicate (n - k) .unset)

/-- The open descriptors, in the order of the cores. -/
def FdArray.fds : FdArray → List ℤ
  | .live cells => cells.filterMap fun
    | .opened fd => some fd
    | _ => none
  | _ => []

theorem fds_opened (fds : List ℤ) : (FdArray.live (fds.map .opened)).fds = fds := by
  rw [FdArray.fds, List.filterMap_map]
  exact List.filterMap_some

theorem alloc_filling (n : ℕ) : (FdArray.alloc n).Filling 0 n :=
  ⟨[], rfl, Nat.zero_le n, rfl⟩

/-- A store behind the open descriptors stays inside the block. -/
theorem FdArray.Filling.store {array : FdArray} {k n : ℕ} (h : array.Filling k n) (hk : k < n)
    (fd : ℤ) : ∃ array', array.store k fd = .ok array' ∧ array'.Filling (k + 1) n := by
  obtain ⟨fds, hlen, _, rfl⟩ := h
  obtain ⟨r, hr⟩ : ∃ r, n - k = r + 1 := ⟨n - k - 1, by omega⟩
  have hrest : n - (k + 1) = r := by omega
  have hcells : (fds.map FdCell.opened ++ List.replicate (n - k) FdCell.unset).set k (.opened fd) =
      (fds ++ [fd]).map FdCell.opened ++ List.replicate (n - (k + 1)) FdCell.unset := by
    rw [hr, hrest, List.replicate_succ, List.set_append_right _ _ (by simp [hlen])]
    simp [hlen]
  refine ⟨_, ?_, fds ++ [fd], by simp [hlen], hk, rfl⟩
  rw [FdArray.store, if_pos (by simp [hlen]; omega), hcells]

theorem FdArray.Filling.filled {array : FdArray} {n : ℕ} (h : array.Filling n n) :
    array.Filled n := by
  obtain ⟨fds, hlen, _, rfl⟩ := h
  exact ⟨fds, hlen, by simp⟩

/-- Reading an open descriptor behind others. -/
theorem read_next (done : List FdCell) (fd : ℤ) (rest : List ℤ) :
    (FdArray.live (done ++ (fd :: rest).map .opened)).read done.length = .ok fd := by
  simp [FdArray.read]

/-- Reading and closing an open descriptor behind the closed ones. -/
theorem close_next (done : List FdCell) (fd : ℤ) (rest : List ℤ) :
    (FdArray.live (done ++ (fd :: rest).map .opened)).close done.length =
      .ok (fd, .live ((done ++ [.closed fd]) ++ rest.map .opened)) := by
  simp [FdArray.close]

end Ramryder.PerfCounter
