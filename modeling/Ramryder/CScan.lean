import Ramryder.CText

/-! `sscanf` on text that was printed: literals are passed, numbers and words come back. -/
namespace Ramryder.CScan
open CInt CText

variable {c : Char} {t : Text} {ds : List Directive} {n : ℤ}

/-- The text does not go on with a digit. -/
def NoDigit (t : Text) : Prop := ∀ c ∈ t.head?, c.isDigit = false

/-- The text does not go on with white space. -/
def NoSpace (t : Text) : Prop := ∀ c ∈ t.head?, isSpace c = false

theorem noDigit_nil : NoDigit [] := by simp [NoDigit]

theorem noDigit_cons (hc : c.isDigit = false) : NoDigit (c :: t) := by simpa [NoDigit] using hc

theorem noSpace_cons (hc : isSpace c = false) : NoSpace (c :: t) := by simpa [NoSpace] using hc

theorem NoSpace.dropWhile (h : NoSpace t) : t.dropWhile isSpace = t := by
  cases t with
  | nil => rfl
  | cons c t => rw [List.dropWhile_cons_of_neg (by simp [h c rfl])]

theorem NoSpace.append (h : NoSpace t) (ht : t ≠ []) (rest : Text) : NoSpace (t ++ rest) := by
  cases t with
  | nil => exact absurd rfl ht
  | cons c t => exact noSpace_cons (h c rfl)

/-! ### Numbers -/

theorem takeWhile_digits {ds t : Text} (hds : ∀ c ∈ ds, c.isDigit = true) (ht : NoDigit t) :
    (ds ++ t).takeWhile Char.isDigit = ds ∧ (ds ++ t).dropWhile Char.isDigit = t := by
  have htake : t.takeWhile Char.isDigit = [] ∧ t.dropWhile Char.isDigit = t := by
    cases t with
    | nil => exact ⟨rfl, rfl⟩
    | cons c t =>
      have hc : ¬ c.isDigit = true := by simp [ht c rfl]
      exact ⟨List.takeWhile_cons_of_neg hc, List.dropWhile_cons_of_neg hc⟩
  rw [List.takeWhile_append_of_pos hds, List.dropWhile_append_of_pos hds, htake.1, htake.2,
    List.append_nil]
  exact ⟨rfl, rfl⟩

theorem digit_notSpace (h : c.isDigit = true) : isSpace c = false := by
  have hc : 48 ≤ c.toNat ∧ c.toNat ≤ 57 := by
    simpa [Char.isDigit, UInt32.le_iff_toNat_le] using h
  have hne : c ≠ ' ' := by
    rintro rfl
    exact absurd h (by decide)
  simp only [isSpace, Bool.or_eq_false_iff, beq_eq_false_iff_ne, Bool.and_eq_false_iff,
    decide_eq_false_iff_not]
  exact ⟨hne, .inr (by omega)⟩

theorem digit_noSign (h : c.isDigit = true) : c ≠ '-' ∧ c ≠ '+' := by
  constructor
  · rintro rfl
    exact absurd h (by decide)
  · rintro rfl
    exact absurd h (by decide)

/-- Digits are read to their end. -/
theorem scanInt_digits {ds : Text} (hne : ds ≠ []) (hds : ∀ c ∈ ds, c.isDigit = true)
    (ht : NoDigit t) :
    scanInt (ds ++ t) = some (toInt32 (clampLong (Nat.ofDigitChars 10 ds 0 : ℕ)), t) := by
  obtain ⟨htake, hdrop⟩ := takeWhile_digits hds ht
  have hfirst : ∃ c ds', ds = c :: ds' ∧ c.isDigit = true := by
    cases ds with
    | nil => exact absurd rfl hne
    | cons c ds' => exact ⟨c, ds', rfl, hds c List.mem_cons_self⟩
  obtain ⟨c, ds', rfl, hc⟩ := hfirst
  have hspace : ((c :: ds') ++ t).dropWhile isSpace = (c :: ds') ++ t :=
    List.dropWhile_cons_of_neg (by simp [digit_notSpace hc])
  have hsign : scanSign ((c :: ds') ++ t) = (false, (c :: ds') ++ t) := by
    obtain ⟨hminus, hplus⟩ := digit_noSign hc
    rw [List.cons_append]
    unfold scanSign
    split
    · rename_i heq
      exact absurd (List.cons.inj heq).1 hminus
    · rename_i heq
      exact absurd (List.cons.inj heq).1 hplus
    · rfl
  rw [scanInt]
  dsimp only
  rw [hspace, hsign]
  dsimp only
  rw [htake, hdrop, if_neg hne]
  rfl

/-- What `%d` reads of a printed number: the number itself where it fits an `int`. -/
def readBack (n : ℤ) : ℤ := toInt32 (clampLong n)

theorem readBack_inInt (n : ℤ) : InInt (readBack n) := toInt32_inInt _

theorem readBack_of_inInt (h : InInt n) : readBack n = n := by
  rw [readBack, clampLong_of_inInt h, toInt32_of_inInt h]

theorem scanInt_printed (ht : NoDigit t) : scanInt (decimal n ++ t) = some (readBack n, t) := by
  rcases lt_or_ge n 0 with hneg | hn
  · have hdecimal : decimal n = '-' :: Nat.toDigits 10 n.natAbs := if_pos hneg
    have hdigits : ∀ c ∈ Nat.toDigits 10 n.natAbs, c.isDigit = true :=
      fun c hc => Nat.isDigit_of_mem_toDigits (by decide) (by decide) hc
    obtain ⟨htake, hdrop⟩ := takeWhile_digits hdigits ht
    have hspace : (decimal n ++ t).dropWhile isSpace = '-' :: (Nat.toDigits 10 n.natAbs ++ t) := by
      rw [hdecimal, List.cons_append]
      exact List.dropWhile_cons_of_neg (by decide)
    have hvalue : -((n.natAbs : ℕ) : ℤ) = n := by omega
    rw [scanInt]
    dsimp only
    rw [hspace, scanSign]
    dsimp only
    rw [htake, hdrop, if_neg Nat.toDigits_ne_nil, if_pos rfl, Nat.ofDigitChars_ten_toDigits, hvalue,
      readBack]
  · obtain ⟨k, rfl⟩ := Int.eq_ofNat_of_zero_le hn
    rw [decimal_natCast, scanInt_digits Nat.toDigits_ne_nil
      (fun c hc => Nat.isDigit_of_mem_toDigits (by decide) (by decide) hc) ht,
      Nat.ofDigitChars_ten_toDigits, readBack]

theorem scan_printed {w : ℕ} (ht : NoDigit t) :
    scan (.int w :: ds) (decimal n ++ t) = .int (readBack n) :: scan ds t := by
  rw [scan, scanInt_printed ht]

theorem scan_lastPrinted {w : ℕ} : scan [.int w] (decimal n) = [.int (readBack n)] := by
  have h : scan [.int w] (decimal n ++ []) = .int (readBack n) :: scan [] [] :=
    scan_printed noDigit_nil
  simpa [scan] using h

/-- A printed `int` is read back. -/
theorem scan_int {w : ℕ} (hint : InInt n) (ht : NoDigit t) :
    scan (.int w :: ds) (decimal n ++ t) = .int n :: scan ds t := by
  rw [scan_printed ht, readBack_of_inInt hint]

/-! ### Literals and words -/

theorem scan_lits {s : String} (hs : ∀ c ∈ s.toList, isSpace c = false) (t : Text) :
    scan (lits s ++ ds) (s.toList ++ t) = scan ds t := by
  unfold lits
  generalize s.toList = cs at hs
  induction cs with
  | nil => rfl
  | cons c cs ih =>
    have hc := hs c List.mem_cons_self
    rw [List.map_cons, List.cons_append, List.cons_append, scan, matchLit, if_neg (by simp [hc]),
      if_pos rfl]
    exact ih fun d hd => hs d (List.mem_cons_of_mem c hd)

/-- One blank in the format for one blank in the text. -/
theorem scan_blank (ht : NoSpace t) : scan (.lit ' ' :: ds) (' ' :: t) = scan ds t := by
  rw [scan, matchLit, if_pos (by decide)]
  dsimp only
  rw [List.dropWhile_cons_of_pos (by decide), ht.dropWhile]

/-- A word is read up to the blank behind it. -/
theorem scanWord_append {w : ℕ} {word : Text} (hword : ∀ c ∈ word, isSpace c = false)
    (hfits : word.length ≤ w) (hne : word ≠ []) (ht : ∀ c ∈ t.head?, isSpace c = true) :
    scanWord w (word ++ t) = (word, t) := by
  have hspace : (word ++ t).dropWhile isSpace = word ++ t := by
    have hno : NoSpace word := by
      intro c hc
      exact hword c (List.mem_of_mem_head? hc)
    exact (hno.append hne t).dropWhile
  have htake : (word ++ t).takeWhile (fun c => !isSpace c) = word := by
    have hrest : t.takeWhile (fun c => !isSpace c) = [] := by
      cases t with
      | nil => rfl
      | cons c t => exact List.takeWhile_cons_of_neg (by simp [ht c rfl])
    rw [List.takeWhile_append_of_pos (by simpa using hword), hrest, List.append_nil]
  rw [scanWord, hspace, htake, List.take_of_length_le hfits, ite_self, List.drop_left]

theorem scan_word {w : ℕ} {word : Text} (hword : ∀ c ∈ word, isSpace c = false)
    (hfits : word.length ≤ w) (hne : word ≠ []) (ht : ∀ c ∈ t.head?, isSpace c = true) :
    scan (.str w :: ds) (word ++ t) = .text word :: scan ds t := by
  rw [scan, scanWord_append hword hfits hne ht]
  dsimp only
  rw [if_neg hne]

/-- The rest of a line is read up to its end. -/
theorem scan_line (hne : t.takeWhile (· != '\n') ≠ []) :
    scan [.line] t = [.text (t.takeWhile (· != '\n'))] := by
  rw [scan, if_neg hne, scan]

theorem takeWhile_line (ht : '\n' ∉ t) : t.takeWhile (· != '\n') = t := by
  rw [List.takeWhile_eq_self_iff]
  intro c hc
  have hcne : c ≠ '\n' := fun h => ht (h ▸ hc)
  simpa using hcne

/-! ### Keys and numbers -/

/-- `key` and number pairs with one blank between them. -/
def argText : List (String × ℤ) → Text
  | [] => []
  | [(k, n)] => k.toList ++ decimal n
  | (k, n) :: kv :: kvs => k.toList ++ (decimal n ++ ' ' :: argText (kv :: kvs))

/-- The format of the same shape, with `%d` for each number. -/
def argFormat : List String → List Directive
  | [] => []
  | [k] => lits k ++ [.int 0]
  | k :: l :: ks => lits k ++ .int 0 :: .lit ' ' :: argFormat (l :: ks)

/-- A key begins with a character, and has no white space. -/
def Key (k : String) : Prop := k.toList ≠ [] ∧ ∀ c ∈ k.toList, isSpace c = false

theorem argText_noSpace {kv : String × ℤ} {kvs : List (String × ℤ)} (hk : Key kv.1) :
    NoSpace (argText (kv :: kvs)) := by
  have hhead : NoSpace kv.1.toList := fun c hc => hk.2 c (List.mem_of_mem_head? hc)
  cases kvs with
  | nil => exact hhead.append hk.1 _
  | cons kv' kvs => exact hhead.append hk.1 _

/-- Pairs printed with one blank between them are read back. -/
theorem scan_argText {kvs : List (String × ℤ)} (h : ∀ kv ∈ kvs, Key kv.1) :
    scan (argFormat (kvs.map Prod.fst)) (argText kvs) = kvs.map fun kv => .int (readBack kv.2) := by
  induction kvs with
  | nil => rfl
  | cons kv kvs ih =>
    have hk := h kv List.mem_cons_self
    have hrest := ih fun q hq => h q (List.mem_cons_of_mem kv hq)
    cases kvs with
    | nil =>
      change scan (lits kv.1 ++ [.int 0]) (kv.1.toList ++ decimal kv.2) = [.int (readBack kv.2)]
      rw [scan_lits hk.2, scan_lastPrinted]
    | cons kv' kvs =>
      have hk' := h kv' (List.mem_cons_of_mem kv List.mem_cons_self)
      change scan (lits kv.1 ++ .int 0 :: .lit ' ' :: argFormat ((kv' :: kvs).map Prod.fst))
        (kv.1.toList ++ (decimal kv.2 ++ ' ' :: argText (kv' :: kvs))) = _
      rw [scan_lits hk.2, scan_printed (noDigit_cons (by decide)), scan_blank (argText_noSpace hk'),
        hrest]
      rfl

/-! ### Words and numbers of any text -/

/-- A format of words alone stores words alone. -/
theorem scan_words {ds : List Directive} (hds : ∀ d ∈ ds, d = .lit ' ' ∨ d = .str 0) (t : Text) :
    ∀ item ∈ scan ds t, ∃ w, item = .text w := by
  induction ds generalizing t with
  | nil =>
    intro item h
    cases h
  | cons d ds ih =>
    have hrest := ih fun e he => hds e (List.mem_cons_of_mem d he)
    intro item h
    rcases hds d List.mem_cons_self with rfl | rfl
    · rw [scan] at h
      split at h
      · cases h
      · exact hrest _ item h
    · rw [scan] at h
      split_ifs at h
      · cases h
      · rcases List.mem_cons.mp h with rfl | h
        · exact ⟨_, rfl⟩
        · exact hrest _ item h

/-- The number a text begins with, as it is written. -/
def written (t : Text) : Option ℤ :=
  let s := scanSign (t.dropWhile isSpace)
  let digits := s.2.takeWhile Char.isDigit
  if digits = [] then none
  else
    let n : ℤ := Nat.ofDigitChars 10 digits 0
    some (if s.1 then -n else n)

theorem scanInt_written (t : Text) :
    (scanInt t).map Prod.fst = (written t).map fun n => toInt32 (clampLong n) := by
  unfold scanInt written
  dsimp only
  split_ifs
  · rfl
  · rfl
  · rfl

/-- A conversion of a written number gives it back only where it fits an `int`. -/
theorem readBack_eq_iff (n : ℤ) : readBack n = n ↔ InInt n := by
  constructor
  · intro h
    rw [← h]
    exact readBack_inInt n
  · exact readBack_of_inInt

end Ramryder.CScan
