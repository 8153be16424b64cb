import Ramryder.Cli
import Ramryder.ResourceManagerSpec
import Ramryder.SegmentBounds

/-! The pool table, printed by the manager into its response buffer and read back by
the CLI: which devices come through, and with what numbers. -/
namespace Ramryder.MemPoolTable
open Cli CMachine CText GuestAgents MemoryPool MemoryPoolSpec Ownership PoolConfig PyText
  ResourceManager Runs SegmentBounds VmManager

variable {m : Manager} {pool : Pool} {raw : Text}

/-! ### Reading lines -/

theorem poolNode_strip (raw : Text) : poolNode (strip raw) = poolNode raw := by
  simp only [poolNode, strip_strip]

theorem poolNode_nil : poolNode [] = none := by decide

/-- A line with fewer than eight bars is skipped. -/
theorem poolNode_short (h : raw.count '|' < 8) : poolNode raw = none := by
  have hparts : (((strip raw).splitOn '|').map strip).length < 9 := by
    rw [map_strip_splitOn_strip (by decide), List.length_map, splitOn_length]
    omega
  simp only [poolNode, nodeOfParts, if_pos hparts, ite_self]

theorem strip_spaces (n : ℕ) (t : Text) : strip (List.replicate n ' ' ++ t) = strip t := by
  induction n with
  | zero => rfl
  | succ n ih => rw [List.replicate_succ, List.cons_append, strip_cons (by decide), ih]

/-- A padded number keeps its first digit when the line is stripped. -/
theorem strip_padded_decimal (w k : ℕ) (t : Text) :
    ∃ c t', strip (padLeft w (decimal k) ++ t) = c :: t' ∧ c.isDigit = true := by
  cases hk : decimal k with
  | nil => exact absurd hk (decimal_ne_nil k)
  | cons c ds =>
    have hmem : c ∈ decimal k := hk ▸ List.mem_cons_self
    obtain ⟨t', ht'⟩ := strip_cons_of_not (decimal_notWhitespace hmem) (ds ++ t)
    refine ⟨c, t', ?_, ?_⟩
    · rw [padLeft, List.append_assoc, strip_spaces, List.cons_append, ht']
    · rw [decimal_natCast] at hmem
      exact Nat.isDigit_of_mem_toDigits (by decide) (by decide) hmem

theorem bar_notMem_padded (w : ℕ) (n : ℤ) : '|' ∉ padLeft w (decimal n) := by
  intro h
  rcases List.mem_append.mp h with h | h
  · exact absurd (List.eq_of_mem_replicate h) (by decide)
  · exact notMem_decimal (by decide) (by decide) n h

/-- A line whose first eight fields are closed by bars, the first of them a number. -/
theorem poolNode_fields {w k : ℕ} {fs : List Text} {r : Text} (hfs : ∀ f ∈ fs, '|' ∉ f)
    (hr : '|' ∉ r) :
    poolNode ((((padLeft w (decimal k) ++ [' ']) :: fs).flatMap (· ++ ['|'])) ++ r) =
      nodeOfParts ((((padLeft w (decimal k) ++ [' ']) :: fs) ++ [r]).map strip) := by
  have hall : ∀ f ∈ (padLeft w (decimal k) ++ [' ']) :: fs, '|' ∉ f := by
    intro f hf
    rcases List.mem_cons.mp hf with rfl | hf
    · simp [bar_notMem_padded]
    · exact hfs f hf
  have hparts := map_strip_splitOn_strip (by decide : isWhitespace '|' = false)
    ((((padLeft w (decimal k) ++ [' ']) :: fs).flatMap (· ++ ['|'])) ++ r)
  rw [splitOn_flatMap hall hr] at hparts
  obtain ⟨c, t', hline, hc⟩ := strip_padded_decimal w k
    ([' '] ++ ['|'] ++ fs.flatMap (· ++ ['|']) ++ r)
  have hshape : (((padLeft w (decimal k) ++ [' ']) :: fs).flatMap (· ++ ['|'])) ++ r =
      padLeft w (decimal k) ++ ([' '] ++ ['|'] ++ fs.flatMap (· ++ ['|']) ++ r) := by
    simp [List.flatMap_cons]
  have hkept : ¬ (c :: t' = [] ∨ "Index".toList <+: c :: t') := by
    rintro (h | ⟨rest, h⟩)
    · cases h
    · obtain rfl : 'I' = c := (List.cons.inj h).1
      exact absurd hc (by decide)
  rw [poolNode, hshape]
  rw [hline, if_neg hkept, ← hline, ← hshape, hparts]

/-! ### Rows -/

/-- The node the CLI should make of device `i`. -/
def deviceNode (pool : Pool) (i : ℕ) : MemPoolNode :=
  let dev := pool.memDevs i
  ⟨dev.nodeId, dev.tierId, (dev.totalSegments - dev.usedSegments) * pool.segmentSizeMb⟩

def boxed (t : Text) : Text := ' ' :: (t ++ [' '])

/-- The fields behind the path that are closed by a bar. -/
def numberFields (pool : Pool) (i : ℕ) : List Text :=
  let dev := pool.memDevs i
  [boxed (padLeft 9 (decimal dev.totalSizeMb)), boxed (padLeft 12 (decimal pool.segmentSizeMb)),
    boxed (padLeft 8 (decimal dev.usedSegments)), boxed (padLeft 9 (decimal dev.totalSegments)),
    boxed (padLeft 7 (decimal dev.nodeId)), boxed (padLeft 7 (decimal dev.tierId))]

def rowStart (i : ℕ) : Text := padLeft 5 (decimal i) ++ [' ', '|', ' ']

def rowRest (pool : Pool) (i : ℕ) : Text :=
  [' ', '|'] ++ (numberFields pool i).flatMap (· ++ ['|'])

/-- A row up to its eighth bar. -/
def rowHead (pool : Pool) (i : ℕ) (path : Text) : Text := rowStart i ++ (path ++ rowRest pool i)

def rowEnd (pool : Pool) (i : ℕ) : Text := ' ' :: padLeft 6 (decimal (pool.memDevs i).daxId)

theorem usageRow_eq (pool : Pool) (i : ℕ) :
    usageRow pool i =
      rowHead pool i (pool.memDevs i).devPath ++ rowEnd pool i ++ ['\n'] := by
  have hformat : directives none "%5d | %s | %9d | %12d | %8d | %9d | %7d | %7d | %6d\n".toList =
      .int 5 :: (lits " | " ++ .str 0 :: (lits " | " ++ .int 9 :: (lits " | " ++ .int 12 ::
        (lits " | " ++ .int 8 :: (lits " | " ++ .int 9 :: (lits " | " ++ .int 7 ::
          (lits " | " ++ .int 7 :: (lits " | " ++ .int 6 :: lits "\n")))))))) := by
    rfl
  have hbar : " | ".toList = [' ', '|', ' '] := rfl
  have hend : "\n".toList = ['\n'] := rfl
  rw [usageRow, sprintf, hformat]
  rw [render_int, render_lits, render_str, render_lits, render_int, render_lits, render_int,
    render_lits, render_int, render_lits, render_int, render_lits, render_int, render_lits,
    render_int, render_lits, render_int, render_end, padLeft_zero, hbar, hend]
  simp [rowHead, rowStart, rowRest, rowEnd, numberFields, boxed]

theorem rowHead_fields (pool : Pool) (i : ℕ) (path : Text) :
    rowHead pool i path =
      ((padLeft 5 (decimal i) ++ [' ']) :: boxed path :: numberFields pool i).flatMap
        (· ++ ['|']) := by
  simp [rowHead, rowStart, rowRest, boxed]

/-- Characters that are one byte each and end no line. -/
def Plain (t : Text) : Prop := ∀ c ∈ t, IsAscii c ∧ isLineBreak c = false

theorem Plain.append {a b : Text} (ha : Plain a) (hb : Plain b) : Plain (a ++ b) := by
  intro c hc
  rcases List.mem_append.mp hc with hc | hc
  · exact ha c hc
  · exact hb c hc

theorem plain_padded (w : ℕ) (n : ℤ) : Plain (padLeft w (decimal n)) := by
  intro c hc
  rcases List.mem_append.mp hc with hc | hc
  · rw [List.eq_of_mem_replicate hc]
    decide
  · refine ⟨?_, ?_⟩
    · rcases isDigit_of_mem_decimal hc with hd | rfl
      · have hle : 48 ≤ c.toNat ∧ c.toNat ≤ 57 := by
          simpa [Char.isDigit, UInt32.le_iff_toNat_le] using hd
        simp only [IsAscii]
        omega
      · decide
    · by_contra hbreak
      have hwhite := isWhitespace_of_isLineBreak (Bool.eq_true_of_not_eq_false hbreak)
      rw [decimal_notWhitespace hc] at hwhite
      cases hwhite

theorem plain_boxed {t : Text} (ht : Plain t) : Plain (boxed t) := by
  have hspace : Plain [' '] := by
    intro c hc
    rw [List.mem_singleton.mp hc]
    decide
  exact hspace.append (ht.append hspace)

theorem plain_rowRest (pool : Pool) (i : ℕ) : Plain (rowRest pool i) := by
  have hbar : Plain ['|'] := by
    intro c hc
    rw [List.mem_singleton.mp hc]
    decide
  have hstart : Plain [' ', '|'] := by
    intro c hc
    simp only [List.mem_cons, List.not_mem_nil, or_false] at hc
    rcases hc with rfl | rfl
    · decide
    · decide
  refine hstart.append fun c hc => ?_
  obtain ⟨f, hf, hc⟩ := List.mem_flatMap.mp hc
  have hplain : Plain f := by
    simp only [numberFields, List.mem_cons, List.not_mem_nil, or_false] at hf
    rcases hf with rfl | rfl | rfl | rfl | rfl | rfl
    all_goals exact plain_boxed (plain_padded _ _)
  exact (hplain.append hbar) c hc

theorem plain_rowStart (i : ℕ) : Plain (rowStart i) := by
  refine (plain_padded 5 i).append fun c hc => ?_
  simp only [List.mem_cons, List.not_mem_nil, or_false] at hc
  rcases hc with rfl | rfl | rfl
  · decide
  · decide
  · decide

theorem plain_rowEnd (pool : Pool) (i : ℕ) : Plain (rowEnd pool i) := by
  intro c hc
  rcases List.mem_cons.mp hc with rfl | hc
  · decide
  · exact plain_padded 6 _ c hc

/-- Decoding reaches into a row only at its path. -/
theorem decode_rowHead (pool : Pool) (i : ℕ) (path t : Text) :
    decode (rowHead pool i path ++ t) = rowHead pool i (decode path) ++ decode t := by
  have hrest : rowRest pool i ++ t = ' ' :: ('|' :: ((numberFields pool i).flatMap (· ++ ['|']) ++ t)) := by
    simp [rowRest]
  have hdecoded : decode (rowRest pool i ++ t) = rowRest pool i ++ decode t :=
    decode_ascii_append (fun c hc => (plain_rowRest pool i c hc).1) t
  rw [rowHead, List.append_assoc, decode_ascii_append fun c hc => (plain_rowStart i c hc).1,
    List.append_assoc, hrest, decode_append (by decide)]
  have hspace : ' ' :: decode ('|' :: ((numberFields pool i).flatMap (· ++ ['|']) ++ t)) =
      decode (rowRest pool i ++ t) := by
    have h := @decode_append ' ' (by decide) [] ('|' :: ((numberFields pool i).flatMap (· ++ ['|']) ++ t))
    rw [hrest]
    simpa [decode, decodeFrom] using h.symm
  rw [hspace, hdecoded]
  simp [rowHead]

/-! ### Reading a row -/

/-- The nodes read from a text; blank lines and line ends around it do not matter. -/
def readNodes (t : Text) : List MemPoolNode := (t.splitOnP isLineBreak).filterMap poolNode

theorem readNodes_splitlines (t : Text) : (splitlines t).filterMap poolNode = readNodes t :=
  splitlines_filterMap poolNode_nil t

theorem readNodes_strip (t : Text) : readNodes (strip t) = readNodes t :=
  readLines_strip poolNode_strip poolNode_nil t

theorem readNodes_break {c : Char} (hc : isLineBreak c = true) (a b : Text) :
    readNodes (a ++ c :: b) = readNodes a ++ readNodes b :=
  readLines_break hc a b

/-- A text `splitlines` keeps whole. -/
def OneLine (t : Text) : Prop := ∀ c ∈ t, isLineBreak c = false

instance (t : Text) : Decidable (OneLine t) :=
  List.decidableBAll (fun c => isLineBreak c = false) t

theorem readNodes_line {t : Text} (ht : OneLine t) : readNodes t = (poolNode t).toList :=
  readLines_line ht

theorem readNodes_short {t : Text} (ht : t.count '|' < 8) : readNodes t = [] := by
  rw [readNodes, List.filterMap_eq_nil_iff]
  intro l hl
  exact poolNode_short ((splitOnP_count_le hl '|').trans_lt ht)

theorem strip_boxed (w : ℕ) (n : ℤ) : strip (boxed (padLeft w (decimal n))) = decimal n := by
  have hshape : boxed (padLeft w (decimal n)) =
      (' ' :: List.replicate (w - (decimal n).length) ' ') ++ decimal n ++ [' '] := by
    simp [boxed, padLeft]
  rw [hshape]
  refine strip_padded (fun c hc => ?_) (fun c hc => decimal_notWhitespace hc) (fun c hc => ?_)
  · rcases List.mem_cons.mp hc with rfl | hc
    · decide
    · rw [List.eq_of_mem_replicate hc]
      decide
  · rw [List.mem_singleton.mp hc]
    decide

theorem bar_notMem_boxed {t : Text} (ht : '|' ∉ t) : '|' ∉ boxed t := by
  simp [boxed, ht]

theorem bar_notMem_numberFields {pool : Pool} {i : ℕ} {f : Text} (hf : f ∈ numberFields pool i) :
    '|' ∉ f := by
  simp only [numberFields, List.mem_cons, List.not_mem_nil, or_false] at hf
  rcases hf with rfl | rfl | rfl | rfl | rfl | rfl
  all_goals exact bar_notMem_boxed (bar_notMem_padded _ _)

theorem poolNode_row (pool : Pool) (i : ℕ) {path r : Text} (hpath : '|' ∉ path) (hr : '|' ∉ r) :
    poolNode (rowHead pool i path ++ r) = some (deviceNode pool i) := by
  have hfields : ∀ f ∈ boxed path :: numberFields pool i, '|' ∉ f := by
    intro f hf
    rcases List.mem_cons.mp hf with rfl | hf
    · exact bar_notMem_boxed hpath
    · exact bar_notMem_numberFields hf
  rw [rowHead_fields, poolNode_fields hfields hr]
  simp [nodeOfParts, numberFields, strip_boxed, pyInt_decimal, deviceNode]

theorem rowStart_bars (i : ℕ) : (rowStart i).count '|' = 1 := by
  have hnumber : (padLeft 5 (decimal i)).count '|' = 0 :=
    List.count_eq_zero.mpr (bar_notMem_padded 5 i)
  rw [rowStart, List.count_append, hnumber]
  rfl

theorem rowRest_bars (pool : Pool) (i : ℕ) : (rowRest pool i).count '|' = 7 := by
  have hfield : ∀ {f}, f ∈ numberFields pool i → f.count '|' = 0 := fun hf =>
    List.count_eq_zero.mpr (bar_notMem_numberFields hf)
  have hsum : ∀ fs : List Text, (∀ f ∈ fs, f.count '|' = 0) →
      (fs.flatMap (· ++ ['|'])).count '|' = fs.length := by
    intro fs hfs
    induction fs with
    | nil => rfl
    | cons f fs ih =>
      rw [List.flatMap_cons, List.count_append, List.count_append, hfs f List.mem_cons_self,
        ih fun f' hf' => hfs f' (List.mem_cons_of_mem f hf')]
      simp [add_comm]
  rw [rowRest, List.count_append, hsum _ fun f hf => hfield hf]
  rfl

/-- A row read as far as its eighth bar gives its device, unless its path breaks the line. -/
theorem readNodes_row (pool : Pool) (i : ℕ) {path r : Text} (hpath : '|' ∉ path) (hr : '|' ∉ r)
    (hplain : Plain r) :
    readNodes (rowHead pool i path ++ r) =
      if OneLine path then [deviceNode pool i] else [] := by
  split_ifs with hline
  · rw [readNodes_line, poolNode_row pool i hpath hr, Option.toList_some]
    intro c hc
    simp only [rowHead, List.mem_append] at hc
    rcases hc with (hc | hc | hc) | hc
    · exact (plain_rowStart i c hc).2
    · exact hline c hc
    · exact (plain_rowRest pool i c hc).2
    · exact (hplain c hc).2
  · simp only [OneLine, not_forall] at hline
    obtain ⟨c, hc, hbreak⟩ := hline
    obtain ⟨p₁, p₂, rfl⟩ := List.append_of_mem hc
    have hp₁ : p₁.count '|' = 0 := List.count_eq_zero.mpr fun h => hpath (by simp [h])
    have hp₂ : p₂.count '|' = 0 := List.count_eq_zero.mpr fun h => hpath (by simp [h])
    have hshape : rowHead pool i (p₁ ++ c :: p₂) ++ r =
        (rowStart i ++ p₁) ++ c :: (p₂ ++ (rowRest pool i ++ r)) := by
      simp [rowHead]
    rw [hshape, readNodes_break (Bool.eq_true_of_not_eq_false hbreak), readNodes_short, readNodes_short]
    · rfl
    · rw [List.count_append, List.count_append, hp₂, rowRest_bars, List.count_eq_zero.mpr hr]
      decide
    · rw [List.count_append, hp₁, rowStart_bars]
      decide

/-- A row cut before its eighth bar gives nothing. -/
theorem readNodes_cut (pool : Pool) (i : ℕ) {path : Text} (hpath : '|' ∉ path) {n : ℕ}
    (hn : n < (rowHead pool i path).length) :
    readNodes (decode ((rowHead pool i path).take n)) = [] := by
  refine readNodes_short ?_
  rw [decode_count (by decide)]
  obtain ⟨t, ht⟩ : ∃ t, rowHead pool i path = t ++ ['|'] := by
    obtain ⟨fs, f, hfs⟩ := (List.eq_nil_or_concat (numberFields pool i)).resolve_left (by simp [numberFields])
    refine ⟨rowStart i ++ path ++ [' ', '|'] ++ fs.flatMap (· ++ ['|']) ++ f, ?_⟩
    simp [rowHead, rowRest, hfs]
  have htotal : (rowHead pool i path).count '|' = 8 := by
    rw [rowHead, List.count_append, List.count_append, rowStart_bars, rowRest_bars,
      List.count_eq_zero.mpr hpath]
  rw [ht, List.length_append, List.length_singleton] at hn
  rw [ht, List.count_append, List.count_singleton_self] at htotal
  rw [ht, List.take_append_of_le_length (by omega)]
  have := (List.take_sublist n t).count_le '|'
  omega

/-! ### The table -/

/-- The devices whose rows are read from the first `n` bytes of a table. -/
def keptNodes (pool : Pool) : List ℕ → ℕ → List MemPoolNode
  | [], _ => []
  | i :: is, n =>
    let path := (pool.memDevs i).devPath
    (if OneLine (decode path) ∧ (rowHead pool i path).length ≤ n then
      [deviceNode pool i] else []) ++ keptNodes pool is (n - (usageRow pool i).length)

theorem rowHead_pos (pool : Pool) (i : ℕ) (path : Text) : 0 < (rowHead pool i path).length := by
  simp only [rowHead, rowStart, List.length_append, List.length_cons]
  omega

theorem keptNodes_zero (pool : Pool) (is : List ℕ) : keptNodes pool is 0 = [] := by
  induction is with
  | nil => rfl
  | cons i is ih =>
    have hpos := rowHead_pos pool i (pool.memDevs i).devPath
    rw [keptNodes, if_neg (by omega), Nat.zero_sub, ih, List.nil_append]

theorem usageRow_length (pool : Pool) (i : ℕ) :
    (usageRow pool i).length =
      (rowHead pool i (pool.memDevs i).devPath).length + (rowEnd pool i).length + 1 := by
  rw [usageRow_eq]
  simp only [List.length_append, List.length_singleton]

/-- What is left of a row after a cut behind its last number or before. -/
theorem readNodes_take (pool : Pool) (i : ℕ) (hbar : '|' ∉ (pool.memDevs i).devPath) {n : ℕ}
    (hn : n < (usageRow pool i).length) :
    readNodes (decode ((usageRow pool i).take n)) =
      if OneLine (decode (pool.memDevs i).devPath) ∧
        (rowHead pool i (pool.memDevs i).devPath).length ≤ n then [deviceNode pool i] else [] := by
  have hdecoded : '|' ∉ decode (pool.memDevs i).devPath := fun h =>
    hbar ((mem_decode (by decide)).mp h)
  rw [usageRow_length] at hn
  rw [usageRow_eq, List.append_assoc]
  generalize (pool.memDevs i).devPath = path at *
  by_cases hhead : (rowHead pool i path).length ≤ n
  · have htake : (rowHead pool i path ++ (rowEnd pool i ++ ['\n'])).take n =
        rowHead pool i path ++ (rowEnd pool i).take (n - (rowHead pool i path).length) := by
      rw [List.take_append, List.take_of_length_le hhead, List.take_append_of_le_length (by omega)]
    have hplain : Plain ((rowEnd pool i).take (n - (rowHead pool i path).length)) := fun c hc =>
      plain_rowEnd pool i c (List.mem_of_mem_take hc)
    have hend : '|' ∉ (rowEnd pool i).take (n - (rowHead pool i path).length) := fun h => by
      rcases List.mem_cons.mp (List.mem_of_mem_take h) with h | h
      · cases h
      · exact bar_notMem_padded _ _ h
    rw [htake, decode_rowHead, decode_ascii fun c hc => (hplain c hc).1,
      readNodes_row pool i hdecoded hend hplain]
    simp only [hhead, and_true]
  · rw [List.take_append_of_le_length (by omega), readNodes_cut pool i hbar (by omega),
      if_neg fun h => hhead h.2]

/-- The devices read from the first bytes of the rows. -/
theorem readNodes_rows (is : List ℕ) (hbar : ∀ i ∈ is, '|' ∉ (pool.memDevs i).devPath) (n : ℕ) :
    readNodes (decode ((is.flatMap (usageRow pool)).take n)) = keptNodes pool is n := by
  induction is generalizing n with
  | nil =>
    rw [List.flatMap_nil, List.take_nil]
    rfl
  | cons i is ih =>
    have hi := hbar i List.mem_cons_self
    have his := ih (fun j hj => hbar j (List.mem_cons_of_mem i hj)) (n - (usageRow pool i).length)
    rw [List.flatMap_cons, keptNodes]
    by_cases hn : n < (usageRow pool i).length
    · rw [List.take_append_of_le_length hn.le, readNodes_take pool i hi hn,
        Nat.sub_eq_zero_of_le hn.le, keptNodes_zero, List.append_nil]
    · rw [not_lt] at hn
      have hlen := usageRow_length pool i
      have hbody := readNodes_take pool i hi (Nat.sub_one_lt (by omega : (usageRow pool i).length ≠ 0))
      obtain ⟨body, hrow⟩ : ∃ body, usageRow pool i = body ++ ['\n'] := ⟨_, usageRow_eq pool i⟩
      have hcut : (usageRow pool i).take ((usageRow pool i).length - 1) = body := by
        rw [hrow, List.length_append, List.length_singleton, Nat.add_sub_cancel,
          List.take_append_of_le_length le_rfl, List.take_length]
      have hcond : (rowHead pool i (pool.memDevs i).devPath).length ≤
          (usageRow pool i).length - 1 ↔ (rowHead pool i (pool.memDevs i).devPath).length ≤ n := by
        omega
      simp only [hcut, hcond] at hbody
      rw [List.take_append, List.take_of_length_le hn, ← his, ← hbody]
      generalize (is.flatMap (usageRow pool)).take (n - (usageRow pool i).length) = rest
      rw [hrow, List.append_assoc, List.singleton_append, decode_append (by decide),
        readNodes_break (by decide)]

/-! ### Which tables come through -/

/-- What a number takes in a column of this width. -/
def width (w : ℕ) (n : ℤ) : ℕ := max w (decimal n).length

/-- The bytes of a row up to its eighth bar, and of the whole row. -/
def headWidth (pool : Pool) (k : ℕ) : ℕ :=
  let dev := pool.memDevs k
  width 5 k + dev.devPath.length + width 9 dev.totalSizeMb + width 12 pool.segmentSizeMb +
    width 8 dev.usedSegments + width 9 dev.totalSegments + width 7 dev.nodeId +
    width 7 dev.tierId + 23

def rowWidth (pool : Pool) (k : ℕ) : ℕ := headWidth pool k + width 6 (pool.memDevs k).daxId + 2

/-- Where row `k` of the table begins. -/
def rowOffset (pool : Pool) (k : ℕ) : ℕ := usageHeader.length + ∑ j ∈ Finset.range k, rowWidth pool j

theorem headWidth_eq (pool : Pool) (k : ℕ) :
    (rowHead pool k (pool.memDevs k).devPath).length = headWidth pool k := by
  simp only [rowHead, rowStart, rowRest, numberFields, boxed, headWidth, width, padLeft_length,
    List.flatMap_cons, List.flatMap_nil, List.length_append, List.length_cons, List.length_nil]
  omega

theorem rowWidth_eq (pool : Pool) (k : ℕ) : (usageRow pool k).length = rowWidth pool k := by
  rw [usageRow_length, headWidth_eq, rowWidth, rowEnd, List.length_cons, padLeft_length, width]
  omega

theorem keptNodes_sublist (pool : Pool) (is : List ℕ) (n : ℕ) :
    (keptNodes pool is n).Sublist (is.map (deviceNode pool)) := by
  induction is generalizing n with
  | nil => exact List.Sublist.refl _
  | cons i is ih =>
    rw [keptNodes, List.map_cons]
    split_ifs
    · exact (ih _).cons_cons _
    · exact (ih _).cons _

/-- Every device is kept exactly when every path is one line and every row's eighth bar is
inside the first `n` bytes. -/
theorem keptNodes_eq_iff (i c n : ℕ) :
    keptNodes pool (List.range' i c) n = (List.range' i c).map (deviceNode pool) ↔
      ∀ k, i ≤ k → k < i + c → OneLine (decode (pool.memDevs k).devPath) ∧
        ∑ j ∈ Finset.Ico i k, rowWidth pool j + headWidth pool k ≤ n := by
  induction c generalizing i n with
  | zero =>
    refine iff_of_true rfl fun k hik hk => ?_
    omega
  | succ c ih =>
    rw [List.range'_succ, keptNodes, List.map_cons, headWidth_eq, rowWidth_eq]
    have hsplit : ∀ k, i + 1 ≤ k → (∑ j ∈ Finset.Ico (i + 1) k, rowWidth pool j + headWidth pool k ≤
        n - rowWidth pool i ↔ ∑ j ∈ Finset.Ico i k, rowWidth pool j + headWidth pool k ≤ n) := by
      intro k hk
      have hpos := rowHead_pos pool k (pool.memDevs k).devPath
      rw [headWidth_eq] at hpos
      rw [Finset.sum_eq_sum_Ico_succ_bot (show i < k by omega)]
      omega
    by_cases hhere : OneLine (decode (pool.memDevs i).devPath) ∧ headWidth pool i ≤ n
    · rw [if_pos hhere, List.singleton_append, List.cons_inj_right, ih]
      constructor
      · intro h k hik hk
        rcases Nat.eq_or_lt_of_le hik with rfl | hlt
        · simpa using hhere
        · obtain ⟨hline, hle⟩ := h k hlt (by omega)
          exact ⟨hline, (hsplit k hlt).mp hle⟩
      · intro h k hik hk
        obtain ⟨hline, hle⟩ := h k (by omega) (by omega)
        exact ⟨hline, (hsplit k hik).mpr hle⟩
    · rw [if_neg hhere, List.nil_append]
      constructor
      · intro h
        have hlen := (keptNodes_sublist pool (List.range' (i + 1) c) (n - rowWidth pool i)).length_le
        rw [h, List.length_cons] at hlen
        omega
      · intro h
        refine absurd ?_ hhere
        simpa using h i le_rfl (by omega)

/-- One node for each device, in the order of the node ids. -/
def poolNodes (pool : Pool) : List MemPoolNode := (List.range pool.numDevs).map (deviceNode pool)

theorem readNodes_header (rows : Text) :
    readNodes (decode (usageHeader ++ rows)) = readNodes (decode rows) := by
  obtain ⟨line, hline, hnone⟩ : ∃ line, usageHeader = line ++ ['\n'] ∧ readNodes (decode line) = [] :=
    ⟨usageHeader.dropLast, by rfl, by rfl⟩
  rw [hline, List.append_assoc, List.singleton_append, decode_append (by decide),
    readNodes_break (by decide), hnone, List.nil_append]

theorem usageHeader_fits : usageHeader.length < bufferSize := by decide

theorem readNodes_usage (hdevs : 0 < pool.numDevs)
    (hbar : ∀ k < pool.numDevs, '|' ∉ (pool.memDevs k).devPath) :
    ∃ response, memoryPoolGetUsage pool bufferSize = .ok response ∧
      (splitlines (clientText response)).filterMap poolNode =
        keptNodes pool (List.range pool.numDevs) (bufferSize - 1 - usageHeader.length) := by
  refine ⟨_, memoryPoolGetUsage_eq usageHeader_fits hdevs, ?_⟩
  have hfits := usageHeader_fits
  rw [readNodes_splitlines, clientText, readNodes_strip, List.take_append,
    List.take_of_length_le (by omega), readNodes_header,
    readNodes_rows _ fun i hi => hbar i (List.mem_range.mp hi)]

theorem noDevices_unread :
    getMemPoolNodes (clientText (snprintf bufferSize "No memory devices initialized.\n" [])) = none := by
  rfl

/-- The CLI decodes the pool table: one node for each device. -/
def DecodesPool (m : Manager) : Prop :=
  ∃ response, rpcHandleGetMemPool m = .ok response ∧
    getMemPoolNodes (clientText response) = some (poolNodes m.pool)

/-- There is a device, no path is broken into lines, and the eighth bar of every row is
inside the response. -/
def TableReadable (pool : Pool) : Prop :=
  0 < pool.numDevs ∧ ∀ k < pool.numDevs, OneLine (decode (pool.memDevs k).devPath) ∧
    rowOffset pool k + headWidth pool k < bufferSize

theorem poolNodes_sorted (hg : PoolGeometry pool) :
    (poolNodes pool).Pairwise fun a b => a.nodeId ≤ b.nodeId := by
  rw [poolNodes, List.pairwise_map]
  refine (List.pairwise_lt_range).imp_of_mem ?_
  intro i j hi hj hij
  have hnode : ∀ k, k ∈ List.range pool.numDevs → (deviceNode pool k).nodeId = k :=
    fun k hk => hg.node k (List.mem_range.mp hk)
  rw [hnode i hi, hnode j hj]
  exact_mod_cast hij.le

theorem sortedNodes_eq_iff (hg : PoolGeometry pool) (n : ℕ) :
    (keptNodes pool (List.range pool.numDevs) n).insertionSort (fun a b => a.nodeId ≤ b.nodeId) =
        poolNodes pool ↔
      keptNodes pool (List.range pool.numDevs) n = poolNodes pool := by
  constructor
  · intro h
    refine (keptNodes_sublist pool _ n).eq_of_length ?_
    rw [← List.length_insertionSort (fun a b : MemPoolNode => a.nodeId ≤ b.nodeId), h, poolNodes]
  · intro h
    rw [h]
    exact (poolNodes_sorted hg).insertionSort_eq

/-- All rows are read just when the table is readable. -/
theorem keptNodes_all_iff (hdevs : 0 < pool.numDevs) :
    keptNodes pool (List.range pool.numDevs) (bufferSize - 1 - usageHeader.length) = poolNodes pool ↔
      TableReadable pool := by
  have hfits := usageHeader_fits
  rw [poolNodes, List.range_eq_range', keptNodes_eq_iff, TableReadable]
  simp only [hdevs, true_and, Nat.zero_le, forall_const, zero_add, Nat.Ico_zero_eq_range, rowOffset]
  have hbound : ∀ s h : ℕ, s + h ≤ bufferSize - 1 - usageHeader.length ↔
      usageHeader.length + s + h < bufferSize := by omega
  simp only [hbound]

/-- For every state of the manager: the table comes through exactly when it is readable. -/
theorem decodesPool_iff (hp : InitialPool pool) (hreach : Reaches step (initialManager pool) m)
    (hbar : ∀ k < m.pool.numDevs, '|' ∉ (m.pool.memDevs k).devPath) :
    DecodesPool m ↔ TableReadable m.pool := by
  have hg := (owns_reachable hp hreach).geometry
  by_cases hdevs : 0 < m.pool.numDevs
  · obtain ⟨response, hresponse, hnodes⟩ := readNodes_usage hdevs hbar
    have hfits := usageHeader_fits
    have hne : poolNodes m.pool ≠ [] := by
      simpa [poolNodes] using hdevs.ne'
    have hdecode : DecodesPool m ↔
        keptNodes m.pool (List.range m.pool.numDevs) (bufferSize - 1 - usageHeader.length) =
          poolNodes m.pool := by
      rw [← sortedNodes_eq_iff hg, ← hnodes]
      constructor
      · rintro ⟨other, hother, hread⟩
        obtain rfl : response = other := Except.ok.inj (hresponse.symm.trans hother)
        unfold getMemPoolNodes at hread
        dsimp only at hread
        split_ifs at hread
        exact Option.some.inj hread
      · intro h
        refine ⟨response, hresponse, ?_⟩
        unfold getMemPoolNodes
        dsimp only
        rw [if_neg, h]
        intro hnil
        rw [hnil, List.insertionSort_nil] at h
        exact hne h.symm
    rw [hdecode, keptNodes_all_iff hdevs]
  · refine iff_of_false ?_ fun h => hdevs h.1
    rintro ⟨response, hresponse, hread⟩
    rw [rpcHandleGetMemPool, memoryPoolGetUsage, if_pos (by omega)] at hresponse
    rw [← Except.ok.inj hresponse, noDevices_unread] at hread
    cases hread

theorem decodesPool_iff_smallPool :
    DecodesPool (initialManager smallPool) ↔ TableReadable smallPool :=
  decodesPool_iff smallPool_initial (.refl _) (by decide)

/-- Ten devices, as many as the pool can have, of 8 GB each. -/
def tenDevConfig : Text :=
  "segment_size_mb 128\n".toList ++ (List.range 10).flatMap fun k =>
    sprintf "dev path=/dev/dax%d.0 size_mb=8192 tier_id=0 dax_id=%d\n" [.int k, .int k]

/-- The row of the last of ten devices does not fit the response. -/
theorem decodesPool_fails_tenDevs : ∃ pool,
    memoryPoolInit zeroBuffers (some tenDevConfig) = .ok (some pool) ∧
      (∀ k < pool.numDevs, '|' ∉ (pool.memDevs k).devPath) ∧
      ¬ DecodesPool (initialManager pool) := by
  obtain ⟨pool, hload, hview⟩ := exists_of_view
    (f := fun pool => (decide (∀ k < pool.numDevs, '|' ∉ (pool.memDevs k).devPath), pool.numDevs,
      (rpcHandleGetMemPool (initialManager pool)).toOption.map fun response =>
        (getMemPoolNodes (clientText response)).map List.length))
    (b := (true, 10, some (some 9))) (x := memoryPoolInit zeroBuffers (some tenDevConfig))
    (by decide +kernel)
  simp only [Prod.mk.injEq, decide_eq_true_eq] at hview
  obtain ⟨hbar, hnum, hlen⟩ := hview
  refine ⟨pool, hload, hbar, ?_⟩
  rintro ⟨response, hresponse, hread⟩
  rw [hresponse, Except.toOption, Option.map_some, hread, Option.map_some, poolNodes,
    List.length_map, List.length_range] at hlen
  have : pool.numDevs = 9 := Option.some.inj (Option.some.inj hlen)
  omega

end Ramryder.MemPoolTable
