import Ramryder.ClientRequests
import Ramryder.Cli
import Ramryder.Lifecycle

/-! The two readers of a CPU set: the CPUs the client expands it to are the cores the
server visits. -/
namespace Ramryder.CpuSet
open CInt CMachine CText ClientRequests CScan Cli CoreSet GuestAgents Lifecycle MemoryPool Ownership
  PoolConfig PyText ResourceManager ResourceManagerSpec Runs VmManager VmManagerSpec

variable {t : Text} {cpus : List ℤ} {β : Type} {handler : β → ℤ → Outcome β}

/-- The characters of a CPU set. -/
def IsCpuSet (t : Text) : Prop := ∀ c ∈ t, c.isDigit = true ∨ c = '-' ∨ c = ','

/-- The number digits stand for. -/
def value (ds : Text) : ℕ := Nat.ofDigitChars 10 ds 0

/-- The numbers that are written in a text. -/
def numbers (t : Text) : List ℕ := ((t.splitOnP fun c => !c.isDigit).filter (· ≠ [])).map value

def Digits (ds : Text) : Prop := ds ≠ [] ∧ ∀ c ∈ ds, c.isDigit = true

/-- The characters of one part of a CPU set. -/
def IsPart (t : Text) : Prop := ∀ c ∈ t, c.isDigit = true ∨ c = '-'

/-! ### Parts of digits -/

theorem digit_notWhitespace {c : Char} (h : c.isDigit = true) : isWhitespace c = false := by
  have hc : 48 ≤ c.toNat ∧ c.toNat ≤ 57 := by
    simpa [Char.isDigit, UInt32.le_iff_toNat_le] using h
  simp only [isWhitespace, Bool.or_eq_false_iff, Bool.and_eq_false_iff, decide_eq_false_iff_not,
    beq_eq_false_iff_ne]
  omega

theorem IsPart.notWhitespace (h : IsPart t) : ∀ c ∈ t, isWhitespace c = false := by
  intro c hc
  rcases h c hc with hd | rfl
  · exact digit_notWhitespace hd
  · decide

theorem IsPart.strip_eq (h : IsPart t) : strip t = t := by
  have := @strip_padded [] t [] (by simp) h.notWhitespace (by simp)
  simpa using this

theorem digitValue_minus : digitValue '-' = none := by decide

/-- What `int` reads in a part are digits. -/
theorem IsPart.readDigits (h : IsPart t) {k n : ℕ} (hread : readDigits k t = some n) :
    ∀ c ∈ t, c.isDigit = true := by
  induction t generalizing k with
  | nil => simp
  | cons c t ih =>
    have hc : c.isDigit = true := by
      refine (h c List.mem_cons_self).resolve_right ?_
      rintro rfl
      rw [PyText.readDigits, digitValue_minus] at hread
      · cases hread
      · exact fun _ _ hc _ => absurd hc (by decide)
    have hne : c ≠ '_' := by
      rintro rfl
      exact absurd hc (by decide)
    rw [PyText.readDigits, digitValue_ascii hc, Option.bind_some] at hread
    · have hrest := ih (fun d hd => h d (List.mem_cons_of_mem c hd)) hread
      intro d hd
      rcases List.mem_cons.mp hd with rfl | hd
      · exact hc
      · exact hrest d hd
    · exact fun _ _ hc _ => hne hc

theorem IsPart.readNat (h : IsPart t) {n : ℕ} (hread : readNat t = some n) :
    Digits t ∧ n = value t := by
  cases t with
  | nil => cases hread
  | cons c t =>
    have hc : c.isDigit = true := by
      refine (h c List.mem_cons_self).resolve_right ?_
      rintro rfl
      rw [PyText.readNat, digitValue_minus] at hread
      cases hread
    rw [PyText.readNat, digitValue_ascii hc, Option.bind_some] at hread
    have hrest := IsPart.readDigits (fun d hd => h d (List.mem_cons_of_mem c hd)) hread
    rw [readDigits_decimal hrest] at hread
    refine ⟨⟨List.cons_ne_nil c t, List.forall_mem_cons.mpr ⟨hc, hrest⟩⟩, ?_⟩
    rw [value, ← Option.some.inj hread, Nat.ofDigitChars_cons]
    simp

/-- A number of a part: digits, or a minus and digits. -/
theorem IsPart.pyInt (h : IsPart t) {n : ℤ} (hread : pyInt t = some n) :
    (Digits t ∧ n = value t) ∨ ∃ ds, t = '-' :: ds ∧ Digits ds ∧ n = -(value ds : ℤ) := by
  rw [PyText.pyInt, stripInt_self h.notWhitespace] at hread
  split at hread
  · rename_i ds
    obtain ⟨k, hk, rfl⟩ := Option.map_eq_some_iff.mp hread
    obtain ⟨hds, rfl⟩ := IsPart.readNat (fun c hc => h c (List.mem_cons_of_mem _ hc)) hk
    exact .inr ⟨ds, rfl, hds, rfl⟩
  · rename_i ds
    rcases h '+' List.mem_cons_self with hc | hc
    · exact absurd hc (by decide)
    · exact absurd hc (by decide)
  · obtain ⟨k, hk, rfl⟩ := Option.map_eq_some_iff.mp hread
    obtain ⟨hds, rfl⟩ := h.readNat hk
    exact .inl ⟨hds, rfl⟩

/-- What an accepted part is: a number, or two with a minus between them. A second minus stands
before a zero only. -/
theorem partCpus_shape (h : IsPart t) (hne : t ≠ []) (hread : partCpus t = some cpus) :
    (Digits t ∧ cpus = [(value t : ℤ)]) ∨
      ∃ ds sign es, t = ds ++ '-' :: (sign ++ es) ∧ Digits ds ∧ Digits es ∧
        (sign = [] ∨ sign = ['-'] ∧ value es = 0) ∧ value ds ≤ value es ∧
        cpus = pyRange (value ds) (value es + 1) := by
  unfold partCpus at hread
  rw [h.strip_eq, if_neg hne] at hread
  split_ifs at hread with hminus
  · right
    obtain ⟨ds, rest, rfl, hds⟩ := List.eq_append_cons_of_mem hminus
    rw [splitFirst_append hds] at hread
    simp only [Option.bind_eq_bind, Option.bind_eq_some_iff] at hread
    obtain ⟨start, hstart, stop, hstop, hread⟩ := hread
    split_ifs at hread with hlt
    rw [← Option.some.inj hread]
    have hleft : IsPart ds := fun c hc => h c (List.mem_append_left _ hc)
    have hright : IsPart rest := fun c hc => h c (by simp [hc])
    rcases hleft.pyInt hstart with ⟨hdigits, rfl⟩ | ⟨_, rfl, _⟩
    · rcases hright.pyInt hstop with ⟨hes, rfl⟩ | ⟨es, rfl, hes, rfl⟩
      · exact ⟨ds, [], rest, rfl, hdigits, hes, .inl rfl, by omega, rfl⟩
      · -- the end is not below the start, so both are zero
        have hzero : value ds = 0 ∧ value es = 0 := by omega
        refine ⟨ds, ['-'], es, rfl, hdigits, hes, .inr ⟨rfl, hzero.2⟩, by omega, ?_⟩
        rw [hzero.1, hzero.2]
        rfl
    · exact absurd List.mem_cons_self hds
  · left
    obtain ⟨n, hn, rfl⟩ := Option.map_eq_some_iff.mp hread
    rcases h.pyInt hn with ⟨hds, rfl⟩ | ⟨ds, rfl, _⟩
    · exact ⟨hds, rfl⟩
    · exact absurd List.mem_cons_self hminus

/-! ### The server's reading of a part -/

theorem scanInt_value {ds : Text} (hds : Digits ds) (hmax : (value ds : ℤ) < intMax)
    (ht : NoDigit t) : scanInt (ds ++ t) = some ((value ds : ℤ), t) := by
  have hint : InInt (value ds : ℤ) := by
    simp only [InInt, intMin, intMax] at hmax ⊢
    omega
  rw [scanInt_digits hds.1 hds.2 ht, ← value, clampLong_of_inInt hint, toInt32_of_inInt hint]

theorem scanInt_end {sign es : Text} (hes : Digits es) (hmax : (value es : ℤ) < intMax)
    (hsign : sign = [] ∨ sign = ['-'] ∧ value es = 0) :
    scanInt (sign ++ es) = some ((value es : ℤ), []) := by
  rcases hsign with rfl | ⟨rfl, hzero⟩
  · have h := scanInt_value hes hmax noDigit_nil
    rwa [List.append_nil] at h
  · obtain ⟨htake, hdrop⟩ := takeWhile_digits hes.2 noDigit_nil
    rw [List.append_nil] at htake hdrop
    have hspace : (['-'] ++ es).dropWhile isSpace = '-' :: es :=
      List.dropWhile_cons_of_neg (by decide)
    rw [scanInt]
    dsimp only
    rw [hspace, scanSign]
    dsimp only
    rw [htake, hdrop, if_neg hes.1, ← value, hzero]
    rfl

theorem rangeFormat : directives none "%d-%d".toList = [.int 0, .lit '-', .int 0] := by
  rfl

theorem intFormat : directives none "%d".toList = [.int 0] := by rfl

/-- The cores of a range, one by one. -/
theorem coreRange_foldlM {n : ℕ} {i : ℤ} (hmin : 0 ≤ i) (hmax : i + n ≤ intMax) (b : β) :
    coreRange handler n i b = ((List.range n).map fun k : ℕ => i + k).foldlM handler b := by
  induction n generalizing i b with
  | zero => rfl
  | succ n ih =>
    have hint : InInt (i + 1) := by
      simp only [InInt, intMin, intMax] at hmax ⊢
      omega
    rw [range_succ_shift, List.foldlM_cons, coreRange]
    simp only [cInt_of_inInt hint, ok_bind]
    exact bind_congr fun c => ih (by omega) (by push_cast at hmax; omega) c

/-- A part the client accepts: the server visits its CPUs. -/
theorem coreToken_expanded (h : IsPart t) (hne : t ≠ []) (hread : partCpus t = some cpus)
    (hmax : ∀ cpu ∈ cpus, cpu < intMax) (b : β) :
    coreToken handler b t = cpus.foldlM handler b := by
  rcases partCpus_shape h hne hread with ⟨hds, rfl⟩ | ⟨ds, sign, es, rfl, hds, hes, hsign, hle, rfl⟩
  · have hint := scanInt_value hds (hmax _ List.mem_cons_self) noDigit_nil
    rw [List.append_nil] at hint
    have hrange : sscanf "%d-%d" t = [.int (value t)] := by
      rw [sscanf, rangeFormat]
      simp [scan, hint, matchLit, isSpace]
    have hone : sscanf "%d" t = [.int (value t)] := by
      rw [sscanf, intFormat]
      simp [scan, hint]
    rw [coreToken, hrange, hone]
    simp only [List.foldlM_cons, List.foldlM_nil]
    exact (bind_pure _).symm
  · have hmem : ∀ k : ℕ, value ds ≤ k → k ≤ value es →
        (k : ℤ) ∈ pyRange (value ds) (value es + 1) := by
      intro k hlow hhigh
      exact List.mem_map.mpr ⟨k - value ds, List.mem_range.mpr (by omega), by omega⟩
    have hstop := hmax _ (hmem (value es) hle le_rfl)
    have hstart := hmax _ (hmem (value ds) le_rfl hle)
    have hrange : sscanf "%d-%d" (ds ++ '-' :: (sign ++ es)) = [.int (value ds), .int (value es)] := by
      have hfirst : scanInt (ds ++ '-' :: (sign ++ es)) = some ((value ds : ℤ), '-' :: (sign ++ es)) :=
        scanInt_value hds hstart (noDigit_cons (by decide))
      have hsecond := scanInt_end hes hstop hsign
      rw [sscanf, rangeFormat]
      simp [scan, hfirst, matchLit, isSpace, hsecond]
    rw [coreToken, hrange]
    dsimp only
    rw [if_pos (by omega), coreRange_foldlM (by omega) (by omega), pyRange]
    congr 3
    omega

/-! ### Whole CPU sets -/

/-- A text is taken apart at its commas. -/
theorem comma_induction {P : Text → Prop} (hlast : ∀ t, ',' ∉ t → P t)
    (hcons : ∀ a b, ',' ∉ a → P b → P (a ++ ',' :: b)) (t : Text) : P t := by
  induction hn : t.length using Nat.strong_induction_on generalizing t with
  | _ n ih =>
    by_cases hcomma : ',' ∈ t
    · obtain ⟨a, b, rfl, ha⟩ := List.eq_append_cons_of_mem hcomma
      refine hcons a b ha (ih b.length ?_ b rfl)
      rw [← hn]
      simp only [List.length_append, List.length_cons]
      omega
    · exact hlast t hcomma

theorem splitOn_comma {a : Text} (ha : ',' ∉ a) (b : Text) :
    (a ++ ',' :: b).splitOn ',' = a :: b.splitOn ',' := by
  rw [List.splitOn_append_cons_self_of_not_mem ha]

theorem numbers_append {sep : Char} (hsep : sep.isDigit = false) (a b : Text) :
    numbers (a ++ sep :: b) = numbers a ++ numbers b := by
  rw [numbers, List.splitOnP_append_cons _ _ (by simp [hsep]), List.filter_append, List.map_append,
    numbers, numbers]

theorem numbers_digits {ds : Text} (hds : Digits ds) : numbers ds = [value ds] := by
  have hsplit : (ds.splitOnP fun c => !c.isDigit) = [ds] :=
    List.splitOnP_eq_singleton fun c hc => by simp [hds.2 c hc]
  simp [numbers, hsplit, hds.1]

/-- No CPU of a part is larger than the numbers in it. -/
theorem partCpus_le_numbers (h : IsPart t) (hread : partCpus t = some cpus) {cpu : ℤ}
    (hcpu : cpu ∈ cpus) : ∃ n ∈ numbers t, cpu ≤ n := by
  by_cases hne : t = []
  · subst hne
    cases hread
    cases hcpu
  rcases partCpus_shape h hne hread with ⟨hds, rfl⟩ | ⟨ds, sign, es, rfl, hds, hes, hsign, hle, rfl⟩
  · refine ⟨value t, by simp [numbers_digits hds], ?_⟩
    rw [List.mem_singleton.mp hcpu]
  · refine ⟨value es, ?_, ?_⟩
    · rw [numbers_append (by decide)]
      rcases hsign with rfl | ⟨rfl, _⟩
      · simp [numbers_digits hes]
      · have hempty : numbers ('-' :: es) = numbers [] ++ numbers es :=
          numbers_append (by decide) [] es
        simp [hempty, numbers_digits hes]
    · obtain ⟨k, hk, rfl⟩ := List.mem_map.mp hcpu
      rw [List.mem_range] at hk
      omega

theorem expandCpuList_last (ht : ',' ∉ t) : expandCpuList t = partCpus t := by
  simp only [expandCpuList, List.splitOn_eq_singleton ht, List.mapM_cons, List.mapM_nil]
  cases partCpus t with
  | none => rfl
  | some cpus => simp

theorem expandCpuList_append {a : Text} (ha : ',' ∉ a) (b : Text) :
    expandCpuList (a ++ ',' :: b) =
      (partCpus a).bind fun xs => (expandCpuList b).map fun ys => xs ++ ys := by
  simp only [expandCpuList, splitOn_comma ha, List.mapM_cons]
  cases partCpus a with
  | none => rfl
  | some xs =>
    cases (b.splitOn ',').mapM partCpus with
    | none => rfl
    | some ys => simp

theorem tokens_last (ht : ',' ∉ t) : tokens t = if t = [] then [] else [t] := by
  by_cases h : t = [] <;> simp [tokens, List.splitOn_eq_singleton ht, h]

theorem tokens_append {a : Text} (ha : ',' ∉ a) (b : Text) :
    tokens (a ++ ',' :: b) = (if a = [] then [] else [a]) ++ tokens b := by
  by_cases h : a = []
  · have hcomma : (',' :: b).splitOn ',' = [] :: b.splitOn ',' := splitOn_comma (a := []) (by simp) b
    simp [tokens, h, hcomma]
  · simp [tokens, splitOn_comma ha, h]

theorem IsCpuSet.part (h : IsCpuSet t) (ht : ',' ∉ t) : IsPart t := by
  intro c hc
  rcases h c hc with hd | rfl | rfl
  · exact .inl hd
  · exact .inr rfl
  · exact absurd hc ht

/-- The tokens of one part. -/
theorem partTokens_expanded (h : IsPart t) (hread : partCpus t = some cpus)
    (hmax : ∀ n ∈ numbers t, (n : ℤ) < intMax) (b : β) :
    forEachToken handler (if t = [] then [] else [t]) b = cpus.foldlM handler b := by
  by_cases hne : t = []
  · subst hne
    cases hread
    rfl
  · have hcpus : ∀ cpu ∈ cpus, cpu < intMax := by
      intro cpu hcpu
      obtain ⟨n, hn, hle⟩ := partCpus_le_numbers h hread hcpu
      exact lt_of_le_of_lt hle (hmax n hn)
    rw [if_neg hne, forEachToken, coreToken_expanded h hne hread hcpus]
    exact bind_pure _

theorem forEachToken_append (ts us : List Text) (b : β) :
    forEachToken handler (ts ++ us) b =
      (forEachToken handler ts b >>= forEachToken handler us) := by
  induction ts generalizing b with
  | nil => rfl
  | cons token ts ih =>
    simp only [List.cons_append, forEachToken, ih, bind_assoc]

theorem tokens_expanded (h : IsCpuSet t) (hread : expandCpuList t = some cpus)
    (hmax : ∀ n ∈ numbers t, (n : ℤ) < intMax) (b : β) :
    forEachToken handler (tokens t) b = cpus.foldlM handler b := by
  induction t using comma_induction generalizing cpus b with
  | hlast t ht =>
    rw [expandCpuList_last ht] at hread
    rw [tokens_last ht]
    exact partTokens_expanded (h.part ht) hread hmax b
  | hcons a rest ha ih =>
    rw [expandCpuList_append ha] at hread
    obtain ⟨xs, hxs, hread⟩ := Option.bind_eq_some_iff.mp hread
    obtain ⟨ys, hys, rfl⟩ := Option.map_eq_some_iff.mp hread
    rw [numbers_append (by decide)] at hmax
    have hleft : IsCpuSet a := fun c hc => h c (List.mem_append_left _ hc)
    have hright : IsCpuSet rest := fun c hc => h c (by simp [hc])
    have hfirst : forEachToken handler (if a = [] then [] else [a]) b = xs.foldlM handler b :=
      partTokens_expanded (hleft.part ha) hxs (fun n hn => hmax n (List.mem_append_left _ hn)) b
    rw [tokens_append ha, forEachToken_append, hfirst, List.foldlM_append]
    exact bind_congr fun c => ih hright hys (fun n hn => hmax n (List.mem_append_right _ hn)) c

/-- The server visits the CPUs the client expands, in their order. -/
theorem enumerates_expanded (h : IsCpuSet t) (hne : t ≠ []) (hread : expandCpuList t = some cpus)
    (hmax : ∀ n ∈ numbers t, (n : ℤ) < intMax) : Enumerates t cpus := by
  intro γ g c
  rw [vmMngrForEachCore, bugOn_eq_ok (u := ()) |>.mpr (by simpa using hne), ok_bind]
  exact tokens_expanded h hread hmax c

/-! ### The VM of a request -/

theorem parseCpuSet_accepts (h : parseCpuSet t ≠ none) :
    t ≠ [] ∧ ∃ cpus, expandCpuList t = some cpus := by
  constructor
  · rintro rfl
    exact h (by decide)
  · unfold parseCpuSet at h
    unfold expandCpuList
    cases hparts : (t.splitOn ',').mapM partCpus with
    | none => simp [hparts] at h
    | some parts => exact ⟨parts.flatten, rfl⟩

theorem foldlM_numCores_ok {vm : VmInstance} (hmin : 0 ≤ vm.numCores)
    (hmax : vm.numCores + cpus.length ≤ intMax) :
    cpus.foldlM vmNumCoreUpdate vm = .ok { vm with numCores := vm.numCores + cpus.length } := by
  induction cpus generalizing vm with
  | nil => simp [pure, Except.pure]
  | cons cpu cpus ih =>
    rw [List.length_cons] at hmax
    push_cast at hmax
    have hint : InInt (vm.numCores + 1) := by
      simp only [InInt, intMin]
      omega
    have hstep : vmNumCoreUpdate vm cpu = .ok { vm with numCores := vm.numCores + 1 } := by
      rw [vmNumCoreUpdate, cInt_of_inInt hint, ok_bind]
    rw [List.foldlM_cons, hstep, ok_bind, ih (by simp only; omega) (by simp only; omega)]
    simp only [List.length_cons]
    push_cast
    ring_nf

/-- Below the limit, a new id with a core set that can be visited gets a VM. -/
theorem create_enumerated {m : Manager} {vid : ℤ} (hl : Consistent m) (hcount : m.count < maxNumVm)
    (hnew : vmMngrGetInstance m vid = none) (hlen : t.length ≤ 255) (hcores : Enumerates t cpus)
    (hcpus : (cpus.length : ℤ) ≤ intMax) :
    ∃ m' i, vmMngrInstanceCreate m vid t = .ok (0, m') ∧ vmMngrGetInstance m' vid = some i ∧
      (m'.vms i).coreSet = t ∧ (m'.vms i).numCores = cpus.length := by
  have hfree := hl.freeEntry hcount
  have htake : t.take (coreSetLen - 1) = t := List.take_of_length_le hlen
  have hfold : vmMngrForEachCore (t.take (coreSetLen - 1)) vmNumCoreUpdate
      { m.vms (freeEntry m) with
        vmId := vid
        numCores := 0
        memdevCounter := 0
        coreSet := t.take (coreSetLen - 1) } =
      .ok { m.vms (freeEntry m) with
        vmId := vid
        numCores := cpus.length
        memdevCounter := 0
        coreSet := t.take (coreSetLen - 1) } := by
    rw [htake, hcores, foldlM_numCores_ok (by simp) (by simpa using hcpus)]
    simp
  set m' : Manager := { m.setVm (freeEntry m) (createdVm (m.vms (freeEntry m)) vid t cpus.length) with
    count := m.count + 1 } with hm'
  have hself : m'.vms (freeEntry m) = createdVm (m.vms (freeEntry m)) vid t cpus.length :=
    setVm_vms_self m _ _
  have hcreate : vmMngrInstanceCreate m vid t = .ok (0, m') := by
    rw [vmMngrInstanceCreate, if_neg (by omega), if_neg (by simp [vmMngrCheckExit, hnew])]
    simp only [bugOn_eq_ok (u := ()) |>.mpr hfree, ok_bind, hfold]
    rfl
  have hids : UniqueIds m' := (hl.created hfree hnew hfold).ids
  refine ⟨m', freeEntry m, hcreate, hids.getInstance ?_ ?_, ?_, ?_⟩
  · rw [hself]
    rfl
  · rw [hself]
    rfl
  · rw [hself]
    exact htake
  · rw [hself]
    rfl

theorem IsCpuSet.valid (h : IsCpuSet t) (hne : t ≠ []) (hlen : t.length ≤ 255) {vid : ℤ}
    (hvid : NonNegInt vid) : (ClientCall.createVm vid t).Valid ∧ encode t = t := by
  have hchar : ∀ c ∈ t, IsAscii c ∧ c ≠ '\n' ∧ c ≠ '\x00' ∧ c ≠ ']' := by
    intro c hc
    rcases h c hc with hd | rfl | rfl
    · have hle : 48 ≤ c.toNat ∧ c.toNat ≤ 57 := by
        simpa [Char.isDigit, UInt32.le_iff_toNat_le] using hd
      refine ⟨by simp only [IsAscii]; omega, ?_, ?_, ?_⟩ <;>
      · rintro rfl
        exact absurd hd (by decide)
    · decide
    · decide
  have hencode : encode t = t := encode_ascii fun c hc => (hchar c hc).1
  have hvidLen : (decimal vid).length ≤ 11 := decimal_length (by
    obtain ⟨h0, hmax⟩ := hvid
    simp only [InInt, intMin, intMax] at hmax ⊢
    omega)
  have hwords : "create-vm".toList.length = 9 ∧ "vid=".toList.length = 4 ∧
      "coreset=".toList.length = 8 := by
    decide
  have hfits : (ClientCall.createVm vid t).request.length < bufferSize := by
    rw [createVm_request, coresetArgs, hencode]
    simp only [List.length_append, List.length_cons, List.length_nil, hwords, bufferSize]
    omega
  exact ⟨⟨hvid, hne, fun hc => (hchar _ hc).2.1 rfl, fun hc => (hchar _ hc).2.2.1 rfl,
    fun hc => (hchar _ hc).2.2.2 rfl, hfits⟩, hencode⟩

/-- The VM that a request with an accepted CPU set creates is iterated over the CPUs the client
expands the set to, and counts them. -/
theorem created_iterates {pool : Pool} {args : Text} {s : Server} {vid : ℤ} (hp : InitialPool pool)
    (h : Reaches serverStep (initialServer pool args) s) (hvid : NonNegInt vid)
    (hcount : s.mngr.count < maxNumVm) (hnew : vmMngrGetInstance s.mngr vid = none)
    (hset : IsCpuSet t) (hlen : t.length ≤ 255) (haccepts : parseCpuSet t ≠ none)
    (hnumbers : ∀ n ∈ numbers t, n < 2 ^ 31 - 1)
    (htotal : ∀ cpus, expandCpuList t = some cpus → cpus.length < 2 ^ 31) (env : ServerEnv) :
    ∃ cpus, expandCpuList t = some cpus ∧ ∃ response s' i,
      rpcServe env s (ClientCall.createVm vid t).request = .ok (response, s') ∧
      vmMngrGetInstance s'.mngr vid = some i ∧ Enumerates (s'.mngr.vms i).coreSet cpus ∧
      (s'.mngr.vms i).numCores = cpus.length := by
  obtain ⟨hne, cpus, hcpus⟩ := parseCpuSet_accepts haccepts
  have hcores : Enumerates t cpus := by
    refine enumerates_expanded hset hne hcpus fun n hn => ?_
    have := hnumbers n hn
    simp only [intMax]
    omega
  have hfits : (cpus.length : ℤ) ≤ intMax := by
    have := htotal cpus hcpus
    simp only [intMax]
    omega
  have hl := (consistent_reachable hp (server_refines hp h)).2
  obtain ⟨m', i, hcreate, hget, hcoreSet, hnumCores⟩ :=
    create_enumerated hl hcount hnew hlen hcores hfits
  obtain ⟨hvalid, hencode⟩ := hset.valid hne hlen hvid
  obtain ⟨scanned, ⟨a, coresetStr, rfl, hscan, hbracket⟩, hserve⟩ := createVm_decoded hvalid
  have hhandle : ∃ response, rpcHandleCreateVm s.mngr a = .ok (response, m') := by
    rw [rpcHandleCreateVm, hscan]
    dsimp only
    rw [if_neg (by simpa using hvid.1), hbracket, hencode]
    dsimp only
    rw [hcreate]
    exact ⟨_, rfl⟩
  obtain ⟨response, hresponse⟩ := hhandle
  have hok : rpcServe env s (ClientCall.createVm vid t).request = .ok (response, ⟨m', a⟩) := by
    rw [hserve]
    simp only [Option.getD_some, ClientCall.command, rpcHandle, hresponse]
    rfl
  refine ⟨cpus, hcpus, response, ⟨m', a⟩, i, hok, hget, ?_, hnumCores⟩
  rwa [hcoreSet]

/-- A CPU set with an empty item, leading zeros and a signed end. -/
theorem created_iterates_smallPool :
    let t := "3,,07-10,0--0,5".toList
    ∃ cpus, expandCpuList t = some cpus ∧ ∃ response s' i,
      rpcServe silentEnv (initialServer smallPool []) (ClientCall.createVm 3 t).request =
        .ok (response, s') ∧
      vmMngrGetInstance s'.mngr 3 = some i ∧ Enumerates (s'.mngr.vms i).coreSet cpus ∧
      (s'.mngr.vms i).numCores = cpus.length :=
  created_iterates smallPool_initial (.refl _) (by simp [NonNegInt, intMax]) (by decide) (by decide)
    (by simp [IsCpuSet]) (by decide) (by decide) (by decide)
    (fun cpus hcpus => by
      have hwritten : expandCpuList "3,,07-10,0--0,5".toList = some [3, 7, 8, 9, 10, 0, 5] := by
        rfl
      obtain rfl := Option.some.inj (hwritten.symm.trans hcpus)
      decide)
    silentEnv

end Ramryder.CpuSet
