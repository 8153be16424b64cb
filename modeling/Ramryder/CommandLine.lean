import Ramryder.QemuBackend
import Ramryder.QemuCommand

/-! What QEMU reads in a command line: the values that an option is given, and the keys and sizes
inside a value. -/
namespace Ramryder.CommandLine
open CText PyText QemuBackend QemuCommand

variable {option key : String} {t : Text} {args rest : List Text} {kvs : List (Text × Text)}

/-- The words QEMU gets: those behind `sudo taskset -c CPUS QEMU`. -/
def qemuArgs (words : List Text) : List Text := words.drop 5

/-- The values an option is given, in order. -/
def valuesOf (option : String) : List Text → List Text
  | a :: b :: args =>
    if a = option.toList then b :: valuesOf option args else valuesOf option (b :: args)
  | _ => []

/-- A size with a suffix, in megabytes. -/
def readMb (t : Text) : Option ℤ :=
  let digits := t.takeWhile Char.isDigit
  let suffix := t.dropWhile Char.isDigit
  if digits = [] then none
  else if suffix = ['M'] then some (Nat.ofDigitChars 10 digits 0)
  else if suffix = ['G'] then some (Nat.ofDigitChars 10 digits 0 * 1024)
  else none

/-! ### The values of an option -/

theorem valuesOf_cons_of_ne {a : Text} (ha : a ≠ option.toList) :
    valuesOf option (a :: args) = valuesOf option args := by
  cases args with
  | nil => rfl
  | cons b args => rw [valuesOf, if_neg ha]

theorem valuesOf_skip (hargs : option.toList ∉ args) :
    valuesOf option (args ++ rest) = valuesOf option rest := by
  induction args with
  | nil => rfl
  | cons a args ih =>
    rw [List.mem_cons, not_or] at hargs
    rw [List.cons_append, valuesOf_cons_of_ne (Ne.symm hargs.1), ih hargs.2]

theorem valuesOf_none (hargs : option.toList ∉ args) : valuesOf option args = [] := by
  have h : valuesOf option (args ++ []) = valuesOf option [] := valuesOf_skip hargs
  rwa [List.append_nil] at h

/-- The option once for each of the values. -/
def given (option : String) (values : List Text) : List Text :=
  values.flatMap fun v => [option.toList, v]

theorem valuesOf_given (values : List Text) :
    valuesOf option (given option values ++ rest) = values ++ valuesOf option rest := by
  induction values with
  | nil => rfl
  | cons v values ih =>
    have hshape : given option (v :: values) ++ rest =
        option.toList :: v :: (given option values ++ rest) := rfl
    rw [hshape, valuesOf, if_pos rfl, ih, List.cons_append]

/-! ### The keys in a value -/

/-- Options with a key, each behind a comma. -/
def pairText (kvs : List (Text × Text)) : Text := kvs.flatMap fun kv => ',' :: (kv.1 ++ '=' :: kv.2)

/-- A key and a value that stay what they are in an option text. -/
def PlainPair (kv : Text × Text) : Prop := kv.1 ≠ [] ∧ ',' ∉ kv.1 ∧ '=' ∉ kv.1 ∧ ',' ∉ kv.2

theorem options_pairText {head : Text} (hhead : ',' ∉ head) (hkvs : ∀ kv ∈ kvs, PlainPair kv) :
    options (head ++ pairText kvs) = head :: kvs.map fun kv => kv.1 ++ '=' :: kv.2 := by
  induction kvs generalizing head with
  | nil => rw [pairText, List.flatMap_nil, List.append_nil, options_plain hhead, List.map_nil]
  | cons kv kvs ih =>
    obtain ⟨hne, hkey, _, hvalue⟩ := hkvs kv List.mem_cons_self
    have hitem : ',' ∉ kv.1 ++ '=' :: kv.2 := by simp [hkey, hvalue]
    have hfirst : ((kv.1 ++ '=' :: kv.2) ++ pairText kvs).head? ≠ some ',' := by
      obtain ⟨c, cs, hcs⟩ := List.exists_cons_of_ne_nil hne
      rw [hcs] at hkey ⊢
      intro hc
      obtain rfl : c = ',' := Option.some.inj hc
      exact hkey List.mem_cons_self
    rw [pairText, List.flatMap_cons, ← pairText, List.cons_append, options_append hhead hfirst,
      ih hitem fun q hq => hkvs q (List.mem_cons_of_mem _ hq), List.map_cons]

theorem keyValue_plain (ht : '=' ∉ t) : keyValue t = (t, []) := by
  have hall : ∀ c ∈ t, (c != '=') = true := by
    intro c hc
    have hne : c ≠ '=' := fun h => ht (h ▸ hc)
    simpa using hne
  rw [keyValue, List.takeWhile_eq_self_iff.mpr hall, List.dropWhile_eq_nil_iff.mpr hall, List.drop_nil]

/-- What is read for a key: the last of its values. -/
theorem optionValue_pairText {head : Text} (hhead : ',' ∉ head ∧ '=' ∉ head)
    (hkvs : ∀ kv ∈ kvs, PlainPair kv) :
    optionValue (head ++ pairText kvs) key = ((head, []) :: kvs).reverse.lookup key.toList := by
  have hpairs : (kvs.map fun kv => kv.1 ++ '=' :: kv.2).map keyValue = kvs := by
    rw [List.map_map]
    exact (List.map_congr_left fun kv hkv => keyValue_append (hkvs kv hkv).2.2.1 kv.2).trans
      (List.map_id kvs)
  rw [optionValue, options_pairText hhead.1 hkvs, List.map_cons, keyValue_plain hhead.2, hpairs]

/-! ### Sizes -/

theorem readMb_decimal (n : ℕ) (suffix : Char) (hsuffix : suffix.isDigit = false) :
    readMb (decimal n ++ [suffix]) =
      if suffix = 'M' then some (n : ℤ) else if suffix = 'G' then some (n * 1024) else none := by
  have hdigit : ∀ c ∈ Nat.toDigits 10 n, c.isDigit = true := fun c hc =>
    Nat.isDigit_of_mem_toDigits (by decide) (by decide) hc
  rw [decimal_natCast, readMb, List.takeWhile_append_of_pos hdigit,
    List.dropWhile_append_of_pos hdigit]
  simp [hsuffix, Nat.toDigits_ne_nil, Nat.ofDigitChars_ten_toDigits]

theorem readMb_negative {n : ℤ} (hn : n < 0) (t : Text) : readMb (decimal n ++ t) = none := by
  rw [decimal, if_pos hn, readMb]
  simp

/-- What QEMU reads for `-m`, where the size is one. -/
theorem readMb_toMArg (n : ℤ) : readMb (toMArg n) = if 0 ≤ n then some n else none := by
  by_cases hn : 0 ≤ n
  · obtain ⟨k, rfl⟩ := Int.eq_ofNat_of_zero_le hn
    rw [if_pos hn, toMArg]
    split_ifs with hwhole
    · have hquot : (k : ℤ) / 1024 = ((k / 1024 : ℕ) : ℤ) := by norm_num
      rw [hquot, readMb_decimal _ _ (by decide), if_neg (by decide), if_pos rfl]
      exact congrArg some (by push_cast; omega)
    · rw [readMb_decimal _ _ (by decide), if_pos rfl]
  · rw [if_neg hn, toMArg]
    split_ifs
    · exact readMb_negative (by omega) _
    · exact readMb_negative (by omega) _

/-! ### `shlex.split` -/

/-- No character that `shlex` treats in a way of its own. -/
def ShlexPlain (t : Text) : Prop :=
  ∀ c ∈ t, isShlexSpace c = false ∧ c ≠ '\\' ∧ c ≠ '\'' ∧ c ≠ '"'

theorem shlexFrom_plain (ht : ShlexPlain t) (token tail : Text) :
    shlexFrom .word token false (t ++ tail) = shlexFrom .word (token ++ t) false tail := by
  induction t generalizing token with
  | nil => simp
  | cons c t ih =>
    obtain ⟨hspace, hslash, hquote, hdouble⟩ := ht c List.mem_cons_self
    rw [List.cons_append, shlexFrom]
    simp only [hspace, hslash, hquote, hdouble, Bool.false_eq_true, or_self, if_false]
    rw [ih (fun d hd => ht d (List.mem_cons_of_mem _ hd)), List.append_assoc, List.singleton_append]

theorem shlexFrom_start {c : Char} (ht : ShlexPlain (c :: t)) (tail : Text) :
    shlexFrom .space [] false (c :: t ++ tail) = shlexFrom .word (c :: t) false tail := by
  obtain ⟨hspace, hslash, hquote, hdouble⟩ := ht c List.mem_cons_self
  rw [List.cons_append, shlexFrom]
  simp only [hspace, hslash, hquote, hdouble, Bool.false_eq_true, or_self, if_false]
  rw [shlexFrom_plain fun d hd => ht d (List.mem_cons_of_mem _ hd), List.singleton_append]

/-- Two plain words. -/
theorem shlexSplit_two {a b : Text} (ha : ShlexPlain a) (hb : ShlexPlain b) (hane : a ≠ [])
    (hbne : b ≠ []) : shlexSplit (a ++ ' ' :: b) = some [a, b] := by
  obtain ⟨c, cs, rfl⟩ := List.exists_cons_of_ne_nil hane
  obtain ⟨d, ds, rfl⟩ := List.exists_cons_of_ne_nil hbne
  have hsecond : shlexFrom .space [] false (d :: ds) = some [d :: ds] := by
    have h := shlexFrom_start hb []
    rw [List.append_nil] at h
    rw [h]
    simp [shlexFrom]
  rw [shlexSplit, shlexFrom_start ha, shlexFrom]
  simp [isShlexSpace, hsecond]

end Ramryder.CommandLine
