import Ramryder.Lifecycle
import Ramryder.PoolConfig

/-! The loops of `vm_mngr_for_each_core` as they run: the range counter against the largest
`int`, and the number of handler calls against the lengths of the ranges. -/
namespace Ramryder.CoreLoop
open CInt CMachine CText CoreSet Lifecycle PoolConfig VmManager

variable {β : Type} {handler : β → ℤ → Outcome β} {t : Text}

/-- The loop over a range: the counter is tested, used and incremented. -/
def rangeLoop (handler : β → ℤ → Outcome β) (stop : ℤ) : ℕ → ℤ → β → Outcome β
  | 0, _, _ => .error .outOfFuel
  | fuel+1, i, b =>
    if i ≤ stop then do
      let b ← handler b i
      let i ← cInt (i + 1)
      rangeLoop handler stop fuel i b
    else .ok b

/-- `coreToken` with the loop itself, which `fuel` bounds. -/
def loopToken (fuel : ℕ) (handler : β → ℤ → Outcome β) (b : β) (token : Text) : Outcome β :=
  match sscanf "%d-%d" token with
  | [.int start, .int stop] =>
    if start ≤ stop then rangeLoop handler stop fuel start b else .ok b
  | _ =>
    match sscanf "%d" token with
    | [.int start] => handler b start
    | _ => .ok b

def forEachCoreLoop (fuel : ℕ) (coreSet : Text) (handler : β → ℤ → Outcome β) (b : β) :
    Outcome β := do
  bugOn .coreSetNonEmpty (coreSet = [])
  (tokens coreSet).foldlM (loopToken fuel handler) b

/-- The values the counter of `start-stop` takes, up to the one that ends the loop. -/
def rangeCounters (start stop : ℤ) : List ℤ :=
  if start ≤ stop then rangeCores start (stop + 1) else []

def tokenCounters (token : Text) : List ℤ :=
  match sscanf "%d-%d" token with
  | [.int start, .int stop] => rangeCounters start stop
  | _ => []

/-- The length of the range that one piece of a core set spells. -/
def tokenLength (token : Text) : ℕ :=
  match sscanf "%d-%d" token with
  | [.int start, .int stop] => (stop - start + 1).toNat
  | _ =>
    match sscanf "%d" token with
    | [.int _] => 1
    | _ => 0

def coreTotal (coreSet : Text) : ℕ := ((tokens coreSet).map tokenLength).sum

/-- A handler that only counts its calls. -/
def countCore (calls : ℕ) (_coreId : ℤ) : Outcome ℕ := .ok (calls + 1)

/-- The loops end, their counter stays an `int`, and the calls they make are as many as the ranges
have cores, for which `num_cores` has room. -/
structure CountsCores (coreSet : Text) : Prop where
  calls : ∃ fuel, forEachCoreLoop fuel coreSet countCore 0 = .ok (coreTotal coreSet)
  counter : ∀ token ∈ tokens coreSet, ∀ i ∈ tokenCounters token, i ≤ intMax
  fits : (coreTotal coreSet : ℤ) ≤ intMax
  numCores : ∀ vm : VmInstance, vm.numCores = 0 →
    (vmMngrForEachCore coreSet vmNumCoreUpdate vm).map VmInstance.numCores =
      .ok (coreTotal coreSet : ℤ)

/-- No range goes up to the largest `int`. -/
def EndsBelowMax (coreSet : Text) : Prop :=
  ∀ token ∈ tokens coreSet, ∀ start stop : ℤ,
    sscanf "%d-%d" token = [.int start, .int stop] → start ≤ stop → stop < intMax

/-! ### The loop and its count of turns -/

/-- With fuel for one more test than the range has cores, the loop runs to its end. -/
theorem rangeLoop_eq {stop : ℤ} {fuel : ℕ} {i : ℤ} (hfuel : (stop - i + 1).toNat < fuel) (b : β) :
    rangeLoop handler stop fuel i b = coreRange handler (stop - i + 1).toNat i b := by
  induction fuel generalizing i b with
  | zero => omega
  | succ fuel ih =>
    rw [rangeLoop]
    by_cases hle : i ≤ stop
    · have hturns : (stop - i + 1).toNat = (stop - (i + 1) + 1).toNat + 1 := by omega
      rw [if_pos hle, hturns, coreRange]
      refine bind_congr fun c => ?_
      by_cases hin : InInt (i + 1)
      · rw [cInt_of_inInt hin, ok_bind, ok_bind]
        exact ih (by omega) c
      · rw [cInt, if_neg hin, error_bind, error_bind]
    · have hturns : (stop - i + 1).toNat = 0 := by omega
      rw [if_neg hle, hturns, coreRange]

theorem tokenLength_eq (token : Text) : (tokenCores token).length = tokenLength token := by
  have hrange : ∀ start stop, (rangeCores start stop).length = (stop - start + 1).toNat := by
    intro start stop
    rw [rangeCores, List.length_map, List.length_range]
  grind [tokenCores, tokenLength]

theorem namedCores_length (coreSet : Text) : (namedCores coreSet).length = coreTotal coreSet := by
  rw [namedCores, List.length_flatMap, coreTotal]
  congr 1
  exact List.map_congr_left fun token _ => tokenLength_eq token

/-! ### Ranges that end below the largest `int` -/

theorem scan_intPair {start stop : ℤ} (h : sscanf "%d-%d" t = [.int start, .int stop]) :
    InInt start ∧ InInt stop := by
  have hformat : directives none "%d-%d".toList = [.int 0, .lit '-', .int 0] := by rfl
  rw [sscanf, hformat, scan] at h
  split at h
  · cases h
  rename_i n rest hstart
  rw [List.cons.injEq, Item.int.injEq] at h
  obtain ⟨rfl, h⟩ := h
  refine ⟨scanInt_inInt hstart, ?_⟩
  rw [scan] at h
  split at h
  · cases h
  rw [scan] at h
  split at h
  · cases h
  rename_i hstop
  rw [List.cons.injEq, Item.int.injEq] at h
  rw [← h.1]
  exact scanInt_inInt hstop

/-- No range has more than 2³² cores. -/
theorem loopToken_eq {fuel : ℕ} (hfuel : 2 ^ 32 < fuel) (b : β) (token : Text) :
    loopToken fuel handler b token = coreToken handler b token := by
  have hloop : ∀ start stop, sscanf "%d-%d" token = [.int start, .int stop] →
      rangeLoop handler stop fuel start b =
        coreRange handler (stop - start + 1).toNat start b := by
    intro start stop hscan
    obtain ⟨hstart, hstop⟩ := scan_intPair hscan
    simp only [InInt, intMin, intMax] at hstart hstop
    exact rangeLoop_eq (by omega) b
  grind [loopToken, coreToken]

theorem forEachCoreLoop_eq {fuel : ℕ} (hfuel : 2 ^ 32 < fuel) (coreSet : Text) (b : β) :
    forEachCoreLoop fuel coreSet handler b = vmMngrForEachCore coreSet handler b := by
  have htokens : ∀ (ts : List Text) (b : β),
      ts.foldlM (loopToken fuel handler) b = forEachToken handler ts b := by
    intro ts
    induction ts with
    | nil =>
      intro b
      rfl
    | cons token ts ih =>
      intro b
      rw [List.foldlM_cons, forEachToken, loopToken_eq hfuel]
      exact bind_congr ih
  unfold forEachCoreLoop vmMngrForEachCore
  exact bind_congr fun _ => htokens _ b

theorem coreRange_runs {n : ℕ} {i : ℤ} (hmin : intMin ≤ i) (hmax : i + n ≤ intMax) (b : β) :
    coreRange handler n i b = ((List.range n).map fun k : ℕ => i + k).foldlM handler b := by
  induction n generalizing i b with
  | zero => rfl
  | succ n ih =>
    push_cast at hmax
    have hin : InInt (i + 1) := ⟨by omega, by omega⟩
    rw [range_succ_shift, List.foldlM_cons, coreRange]
    refine bind_congr fun c => ?_
    rw [cInt_of_inInt hin, ok_bind]
    exact ih (by omega) (by omega) c

theorem coreToken_runs {token : Text}
    (h : ∀ start stop : ℤ, sscanf "%d-%d" token = [.int start, .int stop] → start ≤ stop →
      stop < intMax) (b : β) :
    coreToken handler b token = (tokenCores token).foldlM handler b := by
  unfold coreToken tokenCores
  split
  · rename_i start stop hscan
    split_ifs with hle
    · have hin := (scan_intPair hscan).1
      have hmax := h start stop hscan hle
      exact coreRange_runs hin.1 (by omega) b
    · have hempty : rangeCores start stop = [] := by
        rw [rangeCores, Int.toNat_of_nonpos (by omega)]
        rfl
      rw [hempty]
      rfl
  · split
    · exact (bind_pure _).symm
    · rfl

/-- Every iteration over such a text visits the cores that the text names. -/
theorem EndsBelowMax.enumerates (hne : t ≠ []) (h : EndsBelowMax t) :
    Enumerates t (namedCores t) := by
  intro β handler b
  have htokens : ∀ (ts : List Text) (b : β), (∀ token ∈ ts, token ∈ tokens t) →
      forEachToken handler ts b = (ts.flatMap tokenCores).foldlM handler b := by
    intro ts
    induction ts with
    | nil =>
      intro b _
      rfl
    | cons token ts ih =>
      intro b hmem
      rw [forEachToken, coreToken_runs (h token (hmem token List.mem_cons_self)),
        List.flatMap_cons, List.foldlM_append]
      exact bind_congr fun c => ih c fun u hu => hmem u (List.mem_cons_of_mem token hu)
  have hbug : bugOn .coreSetNonEmpty (decide (t = [])) = .ok () := by simp [bugOn, hne]
  rw [vmMngrForEachCore, hbug, ok_bind, htokens _ b fun _ hmem => hmem, namedCores]

theorem coreRange_max {n : ℕ} {i : ℤ} {b b' : β} (h : coreRange handler n i b = .ok b')
    (hn : 0 < n) : i + n ≤ intMax := by
  induction n generalizing i b with
  | zero => omega
  | succ n ih =>
    simp only [coreRange, bind_eq_ok, cInt_eq_ok] at h
    obtain ⟨_, _, _, ⟨hin, rfl⟩, h⟩ := h
    rcases Nat.eq_zero_or_pos n with rfl | hn
    · exact hin.2
    · have hrest := ih h hn
      push_cast
      omega

theorem forEachToken_max {ts : List Text} {b b' : β} (h : forEachToken handler ts b = .ok b')
    {token : Text} (htoken : token ∈ ts) {start stop : ℤ}
    (hscan : sscanf "%d-%d" token = [.int start, .int stop]) (hle : start ≤ stop) :
    stop < intMax := by
  induction ts generalizing b with
  | nil => cases htoken
  | cons u ts ih =>
    obtain ⟨c, hc, h⟩ := bind_eq_ok.mp h
    rcases List.mem_cons.mp htoken with rfl | htoken
    · rw [coreToken, hscan] at hc
      dsimp only at hc
      rw [if_pos hle] at hc
      have hmax := coreRange_max hc (by omega)
      omega
    · exact ih h htoken

/-- Where one iteration returns, no range goes up to the largest `int`. -/
theorem endsBelowMax_of_ok {b b' : β} (h : vmMngrForEachCore t handler b = .ok b') :
    EndsBelowMax t := by
  obtain ⟨_, _, h⟩ := bind_eq_ok.mp h
  exact fun token htoken start stop hscan hle => forEachToken_max h htoken hscan hle

theorem foldlM_countCore (cores : List ℤ) (calls : ℕ) :
    cores.foldlM countCore calls = .ok (calls + cores.length) := by
  induction cores generalizing calls with
  | nil => rfl
  | cons core cores ih =>
    rw [List.foldlM_cons, countCore, ok_bind, ih, List.length_cons, Nat.add_right_comm, Nat.add_assoc]

theorem foldlM_numCores_fits {cores : List ℤ} {vm : VmInstance} (hmin : 0 ≤ vm.numCores)
    (hfits : vm.numCores + cores.length ≤ intMax) :
    (cores.foldlM vmNumCoreUpdate vm).map VmInstance.numCores =
      .ok (vm.numCores + cores.length) := by
  induction cores generalizing vm with
  | nil => simp [pure, Except.pure, Except.map]
  | cons core cores ih =>
    rw [List.length_cons] at hfits ⊢
    push_cast at hfits ⊢
    have hin : InInt (vm.numCores + 1) := by
      simp only [InInt, intMin]
      omega
    rw [List.foldlM_cons, vmNumCoreUpdate, cInt_of_inInt hin, ok_bind, ok_bind,
      ih (by dsimp only; omega) (by dsimp only; omega)]
    dsimp only
    rw [add_assoc, add_comm 1]

/-- Where the cores were counted, `num_cores` had room for them. -/
theorem foldlM_numCores_le {cores : List ℤ} {vm vm' : VmInstance}
    (h : cores.foldlM vmNumCoreUpdate vm = .ok vm') (hmax : vm.numCores ≤ intMax) :
    vm'.numCores ≤ intMax := by
  induction cores generalizing vm with
  | nil =>
    cases h
    exact hmax
  | cons core cores ih =>
    obtain ⟨vm₁, hvm₁, h⟩ := bind_eq_ok.mp h
    simp only [vmNumCoreUpdate, bind_eq_ok, cInt_eq_ok] at hvm₁
    obtain ⟨_, ⟨hin, rfl⟩, hvm₁⟩ := hvm₁
    cases hvm₁
    exact ih h hin.2

/-! ### When the cores are counted -/

/-- A core set that can be counted, if it is not empty. -/
def Countable (coreSet : Text) : Prop := EndsBelowMax coreSet ∧ (coreTotal coreSet : ℤ) ≤ intMax

theorem countable_of_ok {vm vm' : VmInstance} (hvm : vm.numCores = 0)
    (h : vmMngrForEachCore t vmNumCoreUpdate vm = .ok vm') : Countable t := by
  refine ⟨endsBelowMax_of_ok h, ?_⟩
  rw [vmMngrForEachCore_cores h] at h
  have hmax := foldlM_numCores_le h (by rw [hvm]; decide)
  rwa [foldlM_numCores h, hvm, zero_add, namedCores_length] at hmax

theorem mem_rangeCores {start stop i : ℤ} : i ∈ rangeCores start stop ↔ start ≤ i ∧ i ≤ stop := by
  simp only [rangeCores, List.mem_map, List.mem_range]
  constructor
  · rintro ⟨k, hk, rfl⟩
    omega
  · rintro ⟨hstart, hstop⟩
    exact ⟨(i - start).toNat, by omega, by omega⟩

theorem endsBelowMax_iff : EndsBelowMax t ↔
    ∀ token ∈ tokens t, ∀ i ∈ tokenCounters token, i ≤ intMax := by
  constructor
  · intro h token htoken i hi
    unfold tokenCounters at hi
    split at hi
    · rename_i start stop hscan
      unfold rangeCounters at hi
      split_ifs at hi with hle
      · have hstop := h token htoken start stop hscan hle
        have hi := (mem_rangeCores.mp hi).2
        omega
      · cases hi
    · cases hi
  · intro h token htoken start stop hscan hle
    have hlast : stop + 1 ∈ tokenCounters token := by
      rw [tokenCounters, hscan]
      dsimp only
      rw [rangeCounters, if_pos hle, mem_rangeCores]
      omega
    have hmax := h token htoken (stop + 1) hlast
    omega

theorem Countable.numCores (h : Countable t) (hne : t ≠ []) (vm : VmInstance)
    (hvm : vm.numCores = 0) : (vmMngrForEachCore t vmNumCoreUpdate vm).map VmInstance.numCores =
      .ok (coreTotal t : ℤ) := by
  have hfits := h.2
  rw [h.1.enumerates hne, foldlM_numCores_fits (by omega) (by rw [namedCores_length]; omega),
    namedCores_length, hvm, zero_add]

/-- The cores of a text are counted just when it is not empty, none of its ranges goes up to the
largest `int`, and they have no more cores in all than `num_cores` has room for. -/
theorem countsCores_iff (coreSet : Text) :
    CountsCores coreSet ↔ coreSet ≠ [] ∧ Countable coreSet := by
  constructor
  · intro h
    refine ⟨?_, endsBelowMax_iff.mpr h.counter, h.fits⟩
    rintro rfl
    obtain ⟨fuel, hcalls⟩ := h.calls
    cases hcalls
  · rintro ⟨hne, hcountable⟩
    refine ⟨⟨2 ^ 32 + 1, ?_⟩, endsBelowMax_iff.mp hcountable.1, hcountable.2,
      hcountable.numCores hne⟩
    rw [forEachCoreLoop_eq (Nat.lt_succ_self _), hcountable.1.enumerates hne, foldlM_countCore,
      namedCores_length, Nat.zero_add]

/-- A range that reaches the largest `int` overflows the counter, whatever its start. -/
theorem coreRange_overflows {n : ℕ} {i : ℤ} (hi : i ≤ intMax) (hover : intMax < i + n) (calls : ℕ) :
    coreRange countCore n i calls = .error .intOverflow := by
  induction n generalizing i calls with
  | zero => omega
  | succ n ih =>
    rw [coreRange, countCore, ok_bind]
    by_cases hin : InInt (i + 1)
    · rw [cInt_of_inInt hin, ok_bind]
      exact ih hin.2 (by push_cast at hover; omega) _
    · rw [cInt, if_neg hin, error_bind]

/-- The range up to the largest `int` is never left. -/
theorem countsCores_fails_maxEnd :
    vmMngrForEachCore "0-2147483647".toList countCore 0 = .error .intOverflow ∧
      ¬ CountsCores "0-2147483647".toList := by
  have hrun : vmMngrForEachCore "0-2147483647".toList countCore 0 = .error .intOverflow := by
    have htokens : tokens "0-2147483647".toList = ["0-2147483647".toList] := by decide
    have hscan : sscanf "%d-%d" "0-2147483647".toList = [.int 0, .int 2147483647] := by decide
    have hbug : bugOn .coreSetNonEmpty (decide ("0-2147483647".toList = [])) = .ok () := by rfl
    rw [vmMngrForEachCore, hbug, ok_bind, htokens, forEachToken, coreToken, hscan]
    dsimp only
    rw [if_pos (by decide), coreRange_overflows (by decide) (by decide), error_bind]
  refine ⟨hrun, fun h => ?_⟩
  have hends := endsBelowMax_iff.mpr h.counter "0-2147483647".toList (by decide) 0 2147483647
    (by decide) (by decide)
  exact absurd hends (by decide)

end Ramryder.CoreLoop
