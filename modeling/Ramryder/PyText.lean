import Ramryder.CText

/-! Python strings as the admin scripts use them: decoding of received bytes, stripping,
splitting into lines and fields, and `int`. -/
namespace Ramryder.PyText
open CText

/-! ### Decoding -/

def replacement : Char := '\uFFFD'

/-- The inside of a UTF-8 sequence: the range of its next byte and the bits read so far. -/
structure Pending where
  missing : ℕ
  lower : ℕ
  upper : ℕ
  bits : ℕ
  continuation : 128 ≤ lower

/-- What the first byte of a sequence gives at once, or leaves pending. -/
def decodeStart (c : Char) : Text × Option Pending :=
  let b := c.toNat
  if b < 0x80 then ([c], none)
  else if 0xC2 ≤ b ∧ b ≤ 0xDF then ([], some ⟨1, 0x80, 0xBF, b - 0xC0, le_refl _⟩)
  else if b = 0xE0 then ([], some ⟨2, 0xA0, 0xBF, 0, by decide⟩)
  else if b = 0xED then ([], some ⟨2, 0x80, 0x9F, 0xD, le_refl _⟩)
  else if 0xE1 ≤ b ∧ b ≤ 0xEF then ([], some ⟨2, 0x80, 0xBF, b - 0xE0, le_refl _⟩)
  else if b = 0xF0 then ([], some ⟨3, 0x90, 0xBF, 0, by decide⟩)
  else if b = 0xF4 then ([], some ⟨3, 0x80, 0x8F, 4, le_refl _⟩)
  else if 0xF1 ≤ b ∧ b ≤ 0xF3 then ([], some ⟨3, 0x80, 0xBF, b - 0xF0, le_refl _⟩)
  else ([replacement], none)

/-- The character of a sequence; the byte ranges leave no other case than the first. -/
def sequenceChar (bits : ℕ) : Char :=
  if 0x80 ≤ bits ∧ bits.isValidChar then Char.ofNat bits else replacement

def decodeFrom : Option Pending → Text → Text
  | none, [] => []
  | some _, [] => [replacement]
  | none, c :: t => (decodeStart c).1 ++ decodeFrom (decodeStart c).2 t
  | some p, c :: t =>
    if p.lower ≤ c.toNat ∧ c.toNat ≤ p.upper then
      let bits := 64*p.bits + (c.toNat - 0x80)
      if p.missing = 1 then sequenceChar bits :: decodeFrom none t
      else decodeFrom (some ⟨p.missing - 1, 0x80, 0xBF, bits, le_refl _⟩) t
    else replacement :: ((decodeStart c).1 ++ decodeFrom (decodeStart c).2 t)

/-- `data.decode("utf-8", errors="replace")`. -/
def decode (data : Text) : Text := decodeFrom none data

/-! ### Encoding -/

/-- The bytes of one character. -/
def encodeChar (c : Char) : Text :=
  let n := c.toNat
  if n < 0x80 then [c]
  else if n < 0x800 then [0xC0 + n/64, 0x80 + n % 64].map Char.ofNat
  else if n < 0x10000 then [0xE0 + n/4096, 0x80 + n/64 % 64, 0x80 + n % 64].map Char.ofNat
  else [0xF0 + n/262144, 0x80 + n/4096 % 64, 0x80 + n/64 % 64, 0x80 + n % 64].map Char.ofNat

/-- `t.encode("utf-8")`. -/
def encode (t : Text) : Text := t.flatMap encodeChar

/-! ### Strings -/

/-- `c.isspace()`. -/
def isWhitespace (c : Char) : Bool :=
  let n := c.toNat
  (9 ≤ n && n ≤ 13) || (28 ≤ n && n ≤ 32) || n == 0x85 || n == 0xA0 || n == 0x1680 ||
    (0x2000 ≤ n && n ≤ 0x200A) || n == 0x2028 || n == 0x2029 || n == 0x202F || n == 0x205F ||
    n == 0x3000

/-- Where `splitlines` ends a line. -/
def isLineBreak (c : Char) : Bool :=
  let n := c.toNat
  (10 ≤ n && n ≤ 13) || (28 ≤ n && n ≤ 30) || n == 0x85 || n == 0x2028 || n == 0x2029

def strip (t : Text) : Text := (t.dropWhile isWhitespace).rdropWhile isWhitespace

def splitlines : Text → List Text
  | [] => []
  | '\r' :: '\n' :: t => [] :: splitlines t
  | c :: t => if isLineBreak c then [] :: splitlines t else push c (splitlines t)

/-- `t.split()`. -/
def fields (t : Text) : List Text := (t.splitOnP isWhitespace).filter (· ≠ [])

/-- `t.split(sep, 1)` where the separator is in the text. -/
def splitFirst (sep : Char) (t : Text) : Text × Text :=
  (t.takeWhile (· ≠ sep), (t.dropWhile (· ≠ sep)).drop 1)

/-- The zeros of the decimal digits of Unicode; the nine other digits follow each. -/
def digitZeros : List ℕ :=
  [0x30, 0x660, 0x6f0, 0x7c0, 0x966, 0x9e6, 0xa66, 0xae6, 0xb66, 0xbe6, 0xc66, 0xce6, 0xd66,
    0xde6, 0xe50, 0xed0, 0xf20, 0x1040, 0x1090, 0x17e0, 0x1810, 0x1946, 0x19d0, 0x1a80, 0x1a90,
    0x1b50, 0x1bb0, 0x1c40, 0x1c50, 0xa620, 0xa8d0, 0xa900, 0xa9d0, 0xa9f0, 0xaa50, 0xabf0,
    0xff10, 0x104a0, 0x10d30, 0x11066, 0x110f0, 0x11136, 0x111d0, 0x112f0, 0x11450, 0x114d0,
    0x11650, 0x116c0, 0x11730, 0x118e0, 0x11950, 0x11c50, 0x11d50, 0x11da0, 0x16a60, 0x16ac0,
    0x16b50, 0x1d7ce, 0x1d7d8, 0x1d7e2, 0x1d7ec, 0x1d7f6, 0x1e140, 0x1e2f0, 0x1e950, 0x1fbf0]

def digitValue (c : Char) : Option ℕ :=
  (digitZeros.find? fun z => z ≤ c.toNat && c.toNat ≤ z + 9).map fun z => c.toNat - z

/-- The digits after the first; an underscore may stand between two digits. -/
def readDigits : ℕ → Text → Option ℕ
  | n, [] => some n
  | n, '_' :: c :: t => (digitValue c).bind fun d => readDigits (10*n + d) t
  | n, c :: t => (digitValue c).bind fun d => readDigits (10*n + d) t

def readNat : Text → Option ℕ
  | [] => none
  | c :: t => (digitValue c).bind fun d => readDigits d t

/-- The white space that `int` passes at the ends of its text: not the four separators of ASCII. -/
def isIntSpace (c : Char) : Bool := isWhitespace c && !(28 ≤ c.toNat && c.toNat ≤ 31)

def stripInt (t : Text) : Text := (t.dropWhile isIntSpace).rdropWhile isIntSpace

/-- `int(t)`, `none` where it raises; the number of digits has no limit. -/
def pyInt (t : Text) : Option ℤ :=
  match stripInt t with
  | '-' :: t => (readNat t).map fun n : ℕ => -(n : ℤ)
  | '+' :: t => (readNat t).map fun n : ℕ => (n : ℤ)
  | t => (readNat t).map fun n : ℕ => (n : ℤ)

/-- `sorted(set(ns))`. -/
def sortedSet (ns : List ℤ) : List ℤ := ns.dedup.insertionSort (· ≤ ·)

/-! ### Decoding ASCII -/

def IsAscii (c : Char) : Prop := c.toNat < 128

instance : DecidablePred IsAscii := fun c => inferInstanceAs (Decidable (c.toNat < 128))

theorem decodeStart_ascii {c : Char} (hc : IsAscii c) : decodeStart c = ([c], none) := if_pos hc

theorem decodeFrom_ascii {c : Char} (hc : IsAscii c) (s : Option Pending) (t : Text) :
    decodeFrom s (c :: t) = decodeFrom s [] ++ c :: decodeFrom none t := by
  cases s with
  | none => simp [decodeFrom, decodeStart_ascii hc]
  | some p =>
    have hout : ¬ (p.lower ≤ c.toNat ∧ c.toNat ≤ p.upper) := by
      have := p.continuation
      simp only [IsAscii] at hc
      omega
    simp [decodeFrom, decodeStart_ascii hc, if_neg hout]

theorem encode_append (a b : Text) : encode (a ++ b) = encode a ++ encode b := List.flatMap_append

theorem encode_ascii {t : Text} (ht : ∀ c ∈ t, IsAscii c) : encode t = t := by
  induction t with
  | nil => rfl
  | cons c t ih =>
    have hc : encodeChar c = [c] := if_pos (ht c List.mem_cons_self)
    rw [encode, List.flatMap_cons, hc, List.singleton_append, ← encode,
      ih fun d hd => ht d (List.mem_cons_of_mem c hd)]

/-- An ASCII byte of an encoding is a character of the text. -/
theorem mem_encode {c : Char} (hc : IsAscii c) {t : Text} : c ∈ encode t ↔ c ∈ t := by
  have hbyte : ∀ n : ℕ, 128 ≤ n → n < 256 → Char.ofNat n ≠ c := by
    rintro n hlow hhigh rfl
    have hvalid : n.isValidChar := .inl (by omega)
    rw [IsAscii, Char.toNat_ofNat, if_pos hvalid] at hc
    omega
  have hchar : ∀ d, c ∈ encodeChar d ↔ c = d := by
    intro d
    simp only [IsAscii] at hc
    have hd : d.toNat < 0x110000 := by
      have := d.valid
      simp only [UInt32.isValidChar, Nat.isValidChar] at this
      simp only [Char.toNat]
      omega
    unfold encodeChar
    dsimp only
    split_ifs with h1 h2 h3
    · simp
    · have hne : c ≠ d := fun h => h1 (h ▸ hc)
      simp only [List.map_cons, List.map_nil, List.mem_cons, List.not_mem_nil, or_false, hne, iff_false,
        not_or]
      exact ⟨(hbyte _ (by omega) (by omega)).symm, (hbyte _ (by omega) (by omega)).symm⟩
    · have hne : c ≠ d := fun h => h1 (h ▸ hc)
      simp only [List.map_cons, List.map_nil, List.mem_cons, List.not_mem_nil, or_false, hne, iff_false,
        not_or]
      exact ⟨(hbyte _ (by omega) (by omega)).symm, (hbyte _ (by omega) (by omega)).symm,
        (hbyte _ (by omega) (by omega)).symm⟩
    · have hne : c ≠ d := fun h => h1 (h ▸ hc)
      simp only [List.map_cons, List.map_nil, List.mem_cons, List.not_mem_nil, or_false, hne, iff_false,
        not_or]
      exact ⟨(hbyte _ (by omega) (by omega)).symm, (hbyte _ (by omega) (by omega)).symm,
        (hbyte _ (by omega) (by omega)).symm, (hbyte _ (by omega) (by omega)).symm⟩
  simp only [encode, List.mem_flatMap, hchar]
  constructor
  · rintro ⟨d, hd, rfl⟩
    exact hd
  · intro h
    exact ⟨c, h, rfl⟩

/-- An ASCII byte ends whatever sequence it interrupts. -/
theorem decodeFrom_append {c : Char} (hc : IsAscii c) (s : Option Pending) (a b : Text) :
    decodeFrom s (a ++ c :: b) = decodeFrom s a ++ c :: decodeFrom none b := by
  induction a generalizing s with
  | nil => exact decodeFrom_ascii hc s b
  | cons x a ih =>
    cases s with
    | none => simp [decodeFrom, ih]
    | some p =>
      simp only [List.cons_append, decodeFrom]
      split_ifs with hrange hlast
      · simp [ih]
      · exact ih _
      · simp [ih]

theorem decode_append {c : Char} (hc : IsAscii c) (a b : Text) :
    decode (a ++ c :: b) = decode a ++ c :: decode b := decodeFrom_append hc none a b

theorem decode_ascii_append {a : Text} (ha : ∀ c ∈ a, IsAscii c) (b : Text) :
    decode (a ++ b) = a ++ decode b := by
  induction a with
  | nil => rfl
  | cons c a ih =>
    have hc := decodeFrom_ascii (ha c List.mem_cons_self) none (a ++ b)
    rw [List.cons_append, decode, hc]
    exact congrArg (c :: ·) (ih fun d hd => ha d (List.mem_cons_of_mem c hd))

theorem decode_ascii {a : Text} (ha : ∀ c ∈ a, IsAscii c) : decode a = a := by
  have h := decode_ascii_append ha []
  simpa [decode, decodeFrom] using h

theorem not_ascii_replacement : ¬ IsAscii replacement := by decide

theorem not_ascii_sequenceChar (bits : ℕ) : ¬ IsAscii (sequenceChar bits) := by
  unfold sequenceChar
  split_ifs with h
  · rw [IsAscii, Char.toNat_ofNat, if_pos h.2]
    omega
  · exact not_ascii_replacement

theorem decodeStart_count {d : Char} (hd : IsAscii d) (c : Char) :
    (decodeStart c).1.count d = if c = d then 1 else 0 := by
  by_cases hc : IsAscii c
  · rw [decodeStart_ascii hc, List.count_singleton]
    simp
  · have hne : c ≠ d := fun h => hc (h ▸ hd)
    have hrep : replacement ≠ d := fun h => not_ascii_replacement (h ▸ hd)
    rw [if_neg hne]
    unfold decodeStart
    simp only [IsAscii] at hc
    rw [if_neg hc]
    split_ifs <;> simp [hrep]

/-- Decoding neither loses nor adds an ASCII character. -/
theorem decodeFrom_count {d : Char} (hd : IsAscii d) (s : Option Pending) (t : Text) :
    (decodeFrom s t).count d = t.count d := by
  have hrep : replacement ≠ d := fun h => not_ascii_replacement (h ▸ hd)
  induction t generalizing s with
  | nil =>
    cases s with
    | none => rfl
    | some p => simp [decodeFrom, hrep]
  | cons c t ih =>
    cases s with
    | none =>
      rw [decodeFrom, List.count_append, decodeStart_count hd, ih, List.count_cons]
      simp [add_comm]
    | some p =>
      rw [decodeFrom]
      split_ifs with hrange hlast
      · have hc : c ≠ d := by
          rintro rfl
          have := p.continuation
          simp only [IsAscii] at hd
          omega
        have hseq : sequenceChar (64*p.bits + (c.toNat - 0x80)) ≠ d :=
          fun h => not_ascii_sequenceChar _ (h ▸ hd)
        simp only [List.count_cons_of_ne hc, List.count_cons_of_ne hseq, ih]
      · have hc : c ≠ d := by
          rintro rfl
          have := p.continuation
          simp only [IsAscii] at hd
          omega
        simp only [List.count_cons_of_ne hc, ih]
      · rw [List.count_cons_of_ne hrep, List.count_append, decodeStart_count hd, ih, List.count_cons]
        simp [add_comm]

theorem decode_count {d : Char} (hd : IsAscii d) (t : Text) : (decode t).count d = t.count d :=
  decodeFrom_count hd none t

theorem mem_decode {d : Char} (hd : IsAscii d) {t : Text} : d ∈ decode t ↔ d ∈ t := by
  rw [← List.count_pos_iff, ← List.count_pos_iff, decode_count hd]

/-! ### Stripping -/

theorem isWhitespace_of_isLineBreak {c : Char} (h : isLineBreak c = true) :
    isWhitespace c = true := by
  simp only [isLineBreak, isWhitespace, Bool.or_eq_true, Bool.and_eq_true, decide_eq_true_eq,
    beq_iff_eq] at h ⊢
  omega

/-- White space around a text without any. -/
theorem strip_padded {a t b : Text} (ha : ∀ c ∈ a, isWhitespace c = true)
    (ht : ∀ c ∈ t, isWhitespace c = false) (hb : ∀ c ∈ b, isWhitespace c = true) :
    strip (a ++ t ++ b) = t := by
  have hleft : (a ++ t ++ b).dropWhile isWhitespace = (t ++ b).dropWhile isWhitespace := by
    rw [List.append_assoc, List.dropWhile_append_of_pos ha]
  rw [strip, hleft]
  cases t with
  | nil =>
    have hnil : ([] ++ b).dropWhile isWhitespace = [] := by
      simpa [List.dropWhile_eq_nil_iff] using hb
    rw [hnil, List.rdropWhile_nil]
  | cons c t =>
    rw [List.cons_append, List.dropWhile_cons_of_neg (by simp [ht c List.mem_cons_self]),
      ← List.cons_append, List.rdropWhile, List.reverse_append,
      List.dropWhile_append_of_pos fun d hd => hb d (List.mem_reverse.mp hd)]
    have hlast : (c :: t).reverse.dropWhile isWhitespace = (c :: t).reverse := by
      rw [List.dropWhile_eq_self_iff]
      intro hl
      rw [Bool.not_eq_true]
      exact ht _ (List.mem_reverse.mp (List.getElem_mem hl))
    rw [hlast, List.reverse_reverse]

theorem strip_cons {c : Char} (hc : isWhitespace c = true) (t : Text) : strip (c :: t) = strip t := by
  rw [strip, List.dropWhile_cons_of_pos hc, strip]

theorem strip_concat {c : Char} (hc : isWhitespace c = true) (t : Text) :
    strip (t ++ [c]) = strip t := by
  by_cases hall : ∀ d ∈ t, isWhitespace d = true
  · have h₁ : strip (t ++ [c]) = [] := by
      have hall' : ∀ d ∈ t ++ [c], isWhitespace d = true := by
        intro d hd
        rcases List.mem_append.mp hd with hd | hd
        · exact hall d hd
        · rwa [List.mem_singleton.mp hd]
      have := @strip_padded (t ++ [c]) [] [] hall' (by simp) (by simp)
      simpa using this
    have h₂ : strip t = [] := by
      have := @strip_padded t [] [] hall (by simp) (by simp)
      simpa using this
    rw [h₁, h₂]
  · have hdrop : (t ++ [c]).dropWhile isWhitespace = t.dropWhile isWhitespace ++ [c] := by
      rw [List.dropWhile_append, if_neg]
      simpa [List.isEmpty_iff, List.dropWhile_eq_nil_iff] using hall
    rw [strip, hdrop, List.rdropWhile_concat_pos _ _ _ hc, strip]

/-- A first character that is kept. -/
theorem strip_cons_of_not {c : Char} (hc : isWhitespace c = false) (t : Text) :
    ∃ t', strip (c :: t) = c :: t' := by
  rw [strip, List.dropWhile_cons_of_neg (by simp [hc])]
  have hne : (c :: t).rdropWhile isWhitespace ≠ [] := fun h => by
    have hall := List.rdropWhile_eq_nil_iff.mp h c List.mem_cons_self
    rw [hc] at hall
    cases hall
  obtain ⟨rest, hrest⟩ := List.rdropWhile_prefix isWhitespace (c :: t)
  cases hs : (c :: t).rdropWhile isWhitespace with
  | nil => exact absurd hs hne
  | cons d t' =>
    rw [hs] at hrest
    exact ⟨t', congrArg (· :: t') (List.cons.inj hrest).1⟩

/-- A beginning without white space at its own ends is kept. -/
theorem strip_append {a : Text} (hne : a ≠ []) (hfirst : ∀ c ∈ a.head?, isWhitespace c = false)
    (hlast : ∀ c ∈ a.getLast?, isWhitespace c = false) (b : Text) : ∃ b', strip (a ++ b) = a ++ b' := by
  have hdrop : ∀ b : Text, (a ++ b).dropWhile isWhitespace = a ++ b := by
    intro b
    cases a with
    | nil => exact absurd rfl hne
    | cons c a => exact List.dropWhile_cons_of_neg (by simp [hfirst c rfl])
  induction b using List.reverseRecOn with
  | nil =>
    refine ⟨[], ?_⟩
    rw [strip, hdrop, List.append_nil, List.rdropWhile_eq_self_iff]
    intro h
    simp [hlast _ (List.getLast_mem_getLast? h)]
  | append_singleton b c ih =>
    by_cases hc : isWhitespace c = true
    · obtain ⟨b', hb'⟩ := ih
      exact ⟨b', by rw [← List.append_assoc, strip_concat hc, hb']⟩
    · refine ⟨b ++ [c], ?_⟩
      rw [strip, hdrop, ← List.append_assoc, List.rdropWhile_concat_neg _ _ _ hc]

/-- A key is at the beginning of a stripped text when it follows the white space there. -/
theorem prefix_strip_iff {key : Text} (hne : key ≠ [])
    (hfirst : ∀ c ∈ key.head?, isWhitespace c = false)
    (hlast : ∀ c ∈ key.getLast?, isWhitespace c = false) {t : Text} :
    key <+: strip t ↔ key <+: t.dropWhile isWhitespace := by
  constructor
  · intro h
    exact h.trans (List.rdropWhile_prefix _ _)
  · rintro ⟨rest, hrest⟩
    obtain ⟨rest', hstrip⟩ := strip_append hne hfirst hlast rest
    have hdrop : strip (t.dropWhile isWhitespace) = strip t := by
      rw [strip, strip, List.dropWhile_idempotent]
    rw [← hdrop, ← hrest, hstrip]
    exact List.prefix_append _ _

theorem strip_strip (t : Text) : strip (strip t) = strip t := by
  cases h : t.dropWhile isWhitespace with
  | nil => simp [strip, h]
  | cons c t' =>
    have hc : isWhitespace c = false := by
      have := List.head?_dropWhile_not isWhitespace t
      rw [h] at this
      simpa using this
    have hstrip : strip t = strip (c :: t') := by
      rw [strip, h, strip, List.dropWhile_cons_of_neg (by simp [hc])]
    obtain ⟨t'', ht''⟩ := strip_cons_of_not hc t'
    rw [hstrip, ht'', strip, List.dropWhile_cons_of_neg (by simp [hc]), ← ht'', strip,
      List.rdropWhile_idempotent]

/-! ### Lines and fields -/

section Split
variable {β : Type*} {q : Char → Bool} {g : Text → Option β}

theorem filterMap_modifyHead {f : Text → Text} (hf : ∀ l, g (f l) = g l) (ls : List Text) :
    (ls.modifyHead f).filterMap g = ls.filterMap g := by
  cases ls with
  | nil => rfl
  | cons l ls => simp [List.filterMap_cons, hf]

/-- A character that does not split extends the last part. -/
theorem splitOnP_concat {c : Char} (hc : q c = false) (t : Text) :
    ∃ ls l, t.splitOnP q = ls ++ [l] ∧ (t ++ [c]).splitOnP q = ls ++ [l ++ [c]] := by
  induction t with
  | nil => exact ⟨[], [], by simp, by simp [List.splitOnP_cons_eq_if_modifyHead, hc]⟩
  | cons x t ih =>
    obtain ⟨ls, l, h₁, h₂⟩ := ih
    rw [List.cons_append, List.splitOnP_cons_eq_if_modifyHead, List.splitOnP_cons_eq_if_modifyHead,
      h₁, h₂]
    by_cases hx : q x = true
    · exact ⟨[] :: ls, l, by simp [hx], by simp [hx]⟩
    · cases ls with
      | nil => exact ⟨[], x :: l, by simp [hx], by simp [hx]⟩
      | cons a ls => exact ⟨(x :: a) :: ls, l, by simp [hx], by simp [hx]⟩

/-- What does not split extends the last part. -/
theorem splitOnP_append_line {t : Text} (ht : ∀ c ∈ t, q c = false) (d : Text) :
    ∃ ls l, d.splitOnP q = ls ++ [l] ∧ (d ++ t).splitOnP q = ls ++ [l ++ t] := by
  induction t using List.reverseRecOn with
  | nil =>
    obtain ⟨ls, l, h⟩ := (List.eq_nil_or_concat (d.splitOnP q)).resolve_left (List.splitOnP_ne_nil q d)
    rw [List.concat_eq_append] at h
    exact ⟨ls, l, h, by rw [List.append_nil, List.append_nil, h]⟩
  | append_singleton t c ih =>
    obtain ⟨ls, l, hd, hdt⟩ := ih fun c' hc' => ht c' (List.mem_append_left _ hc')
    obtain ⟨ls', l', h, hc⟩ := splitOnP_concat (ht c (by simp)) (d ++ t)
    obtain ⟨rfl, hl⟩ := List.append_inj' (hdt.symm.trans h) rfl
    refine ⟨ls, l, hd, ?_⟩
    rw [← List.append_assoc, hc, ← (List.cons.inj hl).1, List.append_assoc]

/-- What does not split extends the first part. -/
theorem splitOnP_line_append {a : Text} (ha : ∀ c ∈ a, q c = false) (d : Text) :
    (a ++ d).splitOnP q = (d.splitOnP q).modifyHead (a ++ ·) := by
  induction a with
  | nil =>
    rw [List.nil_append]
    cases d.splitOnP q <;> rfl
  | cons c a ih =>
    rw [List.cons_append, List.splitOnP_cons_eq_if_modifyHead, if_neg (by simp [ha c List.mem_cons_self]),
      ih fun c' hc' => ha c' (List.mem_cons_of_mem c hc')]
    cases d.splitOnP q <;> rfl

/-- Stripping a text does not change what its parts are read as, where reading a part strips it
and a separator that can be stripped leaves nothing to read. -/
theorem splitOnP_strip (hg : ∀ l, g (strip l) = g l)
    (hsep : ∀ c, q c = true → isWhitespace c = true → g [] = none) (t : Text) :
    ((strip t).splitOnP q).filterMap g = (t.splitOnP q).filterMap g := by
  have hcons : ∀ {c}, isWhitespace c = true → ∀ l, g (c :: l) = g l := by
    intro c hc l
    rw [← hg (c :: l), strip_cons hc, hg]
  have hconcat : ∀ {c}, isWhitespace c = true → ∀ l, g (l ++ [c]) = g l := by
    intro c hc l
    rw [← hg (l ++ [c]), strip_concat hc, hg]
  have hright : ∀ t : Text, ((t.rdropWhile isWhitespace).splitOnP q).filterMap g =
      (t.splitOnP q).filterMap g := by
    intro t
    induction t using List.reverseRecOn with
    | nil => rfl
    | append_singleton t c ih =>
      by_cases hc : isWhitespace c = true
      · rw [List.rdropWhile_concat_pos _ _ _ hc, ih]
        by_cases hq : q c = true
        · rw [List.splitOnP_append_cons _ _ hq]
          simp [hsep c hq hc]
        · obtain ⟨ls, l, h₁, h₂⟩ := splitOnP_concat (Bool.eq_false_of_not_eq_true hq) t
          rw [h₁, h₂]
          simp [List.filterMap_cons, hconcat hc]
      · rw [List.rdropWhile_concat_neg _ _ _ hc]
  have hleft : ∀ t : Text, ((t.dropWhile isWhitespace).splitOnP q).filterMap g =
      (t.splitOnP q).filterMap g := by
    intro t
    induction t with
    | nil => rfl
    | cons c t ih =>
      by_cases hc : isWhitespace c = true
      · rw [List.dropWhile_cons_of_pos hc, ih, List.splitOnP_cons_eq_if_modifyHead]
        by_cases hq : q c = true
        · simp [hq, hsep c hq hc]
        · rw [if_neg hq, filterMap_modifyHead (hcons hc)]
      · rw [List.dropWhile_cons_of_neg hc]
  rw [strip, hright, hleft]

/-- Lines are the parts between line breaks, but for empty ones. -/
theorem splitlines_filterMap (hnil : g [] = none) (t : Text) :
    (splitlines t).filterMap g = (t.splitOnP isLineBreak).filterMap g := by
  have hlines : t = [] ∨ ∃ l ls ls', splitlines t = l :: ls ∧ t.splitOnP isLineBreak = l :: ls' ∧
      ls.filterMap g = ls'.filterMap g := by
    fun_induction splitlines t with
    | case1 => exact .inl rfl
    | case2 t ih =>
      refine .inr ⟨[], splitlines t, [] :: t.splitOnP isLineBreak, rfl, ?_, ?_⟩
      · simp [List.splitOnP_cons_eq_if_modifyHead, isLineBreak]
      · rcases ih with rfl | ⟨l, ls, ls', h₁, h₂, h₃⟩
        · simp [splitlines, hnil]
        · simp [h₁, h₂, hnil, List.filterMap_cons, h₃]
    | case3 c t hcr hc ih =>
      refine .inr ⟨[], splitlines t, t.splitOnP isLineBreak, rfl, ?_, ?_⟩
      · simp [List.splitOnP_cons_eq_if_modifyHead, hc]
      · rcases ih with rfl | ⟨l, ls, ls', h₁, h₂, h₃⟩
        · simp [splitlines, hnil]
        · simp [h₁, h₂, List.filterMap_cons, h₃]
    | case4 c t hcr hc ih =>
      right
      rw [List.splitOnP_cons_eq_if_modifyHead, if_neg hc]
      rcases ih with rfl | ⟨l, ls, ls', h₁, h₂, h₃⟩
      · exact ⟨[c], [], [], by simp [splitlines, push], by simp, rfl⟩
      · exact ⟨c :: l, ls, ls', by simp [h₁, push], by simp [h₂], h₃⟩
  rcases hlines with rfl | ⟨l, ls, ls', h₁, h₂, h₃⟩
  · simp [splitlines, hnil]
  · simp [h₁, h₂, List.filterMap_cons, h₃]

/-- What a reader makes of the lines of a text. -/
def readLines (g : Text → Option β) (t : Text) : List β := (t.splitOnP isLineBreak).filterMap g

theorem readLines_strip (hg : ∀ l, g (strip l) = g l) (hnil : g [] = none) (t : Text) :
    readLines g (strip t) = readLines g t :=
  splitOnP_strip hg (fun _ _ _ => hnil) t

theorem readLines_break {c : Char} (hc : isLineBreak c = true) (a b : Text) :
    readLines g (a ++ c :: b) = readLines g a ++ readLines g b := by
  rw [readLines, List.splitOnP_append_cons _ _ hc, List.filterMap_append, readLines, readLines]

theorem readLines_line {t : Text} (ht : ∀ c ∈ t, isLineBreak c = false) :
    readLines g t = (g t).toList := by
  rw [readLines, List.splitOnP_eq_singleton ht]
  cases h : g t with
  | none => simp [h]
  | some b => simp [h]

/-- What is read of the first `n` bytes of a text of records. -/
def readRecords (g : Text → Option β) : List Text → ℕ → List β
  | [], _ => []
  | r :: rs, n => readLines g (decode (r.take n)) ++ readRecords g rs (n - r.length)

theorem readLines_nil (hnil : g [] = none) : readLines g (decode []) = [] := by
  have h : decode [] = [] := rfl
  rw [h, readLines_line (by simp), hnil]
  rfl

theorem readRecords_zero (hnil : g [] = none) (rs : List Text) : readRecords g rs 0 = [] := by
  induction rs with
  | nil => rfl
  | cons r rs ih => rw [readRecords, List.take_zero, readLines_nil hnil, Nat.zero_sub, ih, List.append_nil]

theorem readRecords_append (rs rs' : List Text) (n : ℕ) :
    readRecords g (rs ++ rs') n = readRecords g rs n ++ readRecords g rs' (n - rs.flatten.length) := by
  induction rs generalizing n with
  | nil => rfl
  | cons r rs ih =>
    rw [List.cons_append, readRecords, readRecords, ih, List.append_assoc, List.flatten_cons,
      List.length_append, Nat.sub_sub]

/-- A line end at the end adds nothing. -/
theorem readLines_newline (hnil : g [] = none) (body : Text) (n : ℕ) :
    readLines g (decode ((body ++ ['\n']).take n)) = readLines g (decode (body.take n)) := by
  by_cases hn : n ≤ body.length
  · rw [List.take_append_of_le_length hn]
  · have hwhole : (body ++ ['\n']).length ≤ n := by
      rw [List.length_append, List.length_singleton]
      omega
    rw [List.take_of_length_le hwhole, List.take_of_length_le (by omega), decode_append (by decide),
      readLines_break (by decide), readLines_nil hnil, List.append_nil]

/-- Records that end their line are read one by one. -/
theorem readLines_records (hnil : g [] = none) {rs : List Text}
    (hrs : ∀ r ∈ rs, ∃ body, r = body ++ ['\n']) (n : ℕ) :
    readLines g (decode (rs.flatten.take n)) = readRecords g rs n := by
  induction rs generalizing n with
  | nil =>
    rw [List.flatten_nil, List.take_nil, readLines_nil hnil]
    rfl
  | cons r rs ih =>
    have hrest := ih (fun r' hr' => hrs r' (List.mem_cons_of_mem r hr')) (n - r.length)
    rw [List.flatten_cons, readRecords]
    by_cases hn : n < r.length
    · rw [List.take_append_of_le_length hn.le, Nat.sub_eq_zero_of_le hn.le, readRecords_zero hnil,
        List.append_nil]
    · rw [not_lt] at hn
      obtain ⟨body, rfl⟩ := hrs r List.mem_cons_self
      have hbody : ∀ t : Text, readLines g (decode (body ++ ['\n'] ++ t)) =
          readLines g (decode body) ++ readLines g (decode t) := by
        intro t
        rw [List.append_assoc, List.singleton_append, decode_append (by decide),
          readLines_break (by decide)]
      have hwhole := hbody []
      rw [List.append_nil, readLines_nil hnil, List.append_nil] at hwhole
      rw [List.take_append, List.take_of_length_le hn, hbody, hrest, hwhole]

/-! Fields are the parts between white space. -/

theorem splitOnP_piece {l t : Text} (h : l ∈ t.splitOnP q) : ∀ c ∈ l, q c = false := by
  induction t generalizing l with
  | nil => simp_all
  | cons x t ih =>
    rw [List.splitOnP_cons_eq_if_modifyHead] at h
    split_ifs at h with hx
    · rcases List.mem_cons.mp h with rfl | h
      · simp
      · exact ih h
    · cases hs : t.splitOnP q with
      | nil => exact absurd hs (List.splitOnP_ne_nil q t)
      | cons a as =>
        rw [hs, List.modifyHead_cons] at h
        rcases List.mem_cons.mp h with rfl | h
        · exact List.forall_mem_cons.mpr ⟨by simpa using hx, ih (hs ▸ List.mem_cons_self)⟩
        · exact ih (hs ▸ List.mem_cons_of_mem a h)

theorem fields_append {c : Char} (hc : isWhitespace c = true) (a b : Text) :
    fields (a ++ c :: b) = fields a ++ fields b := by
  rw [fields, List.splitOnP_append_cons _ _ hc, List.filter_append, fields, fields]

theorem fields_word {t : Text} (hne : t ≠ []) (ht : ∀ c ∈ t, isWhitespace c = false) :
    fields t = [t] := by
  rw [fields, List.splitOnP_eq_singleton ht]
  simp [hne]

theorem fields_nil : fields [] = [] := by simp [fields]

theorem fields_strip (t : Text) : fields (strip t) = fields t := by
  have hread : ∀ t : Text, (t.splitOnP isWhitespace).filterMap
      (fun l => if strip l = [] then none else some (strip l)) = fields t := by
    intro t
    rw [fields, ← List.filterMap_eq_filter]
    refine List.filterMap_congr fun l hl => ?_
    have hword : strip l = l := by
      have := @strip_padded [] l [] (by simp) (splitOnP_piece hl) (by simp)
      simpa using this
    rw [hword]
    by_cases hl : l = [] <;> simp [hl, Option.guard]
  rw [← hread t, ← hread (strip t)]
  exact splitOnP_strip (fun l => by simp only [strip_strip]) (fun _ _ _ => by simp [strip]) t

theorem splitOnP_count_le {l t : Text} (h : l ∈ t.splitOnP q) (d : Char) :
    l.count d ≤ t.count d := by
  induction t generalizing l with
  | nil => simp_all
  | cons c t ih =>
    have hle : t.count d ≤ (c :: t).count d := List.count_le_count_cons
    rw [List.splitOnP_cons_eq_if_modifyHead] at h
    split_ifs at h with hc
    · rcases List.mem_cons.mp h with rfl | h
      · simp
      · exact (ih h).trans hle
    · cases hs : t.splitOnP q with
      | nil => exact absurd hs (List.splitOnP_ne_nil q t)
      | cons a as =>
        rw [hs, List.modifyHead_cons] at h
        rcases List.mem_cons.mp h with rfl | h
        · have := ih (hs ▸ List.mem_cons_self : a ∈ t.splitOnP q)
          simp only [List.count_cons]
          omega
        · exact (ih (hs ▸ List.mem_cons_of_mem a h)).trans hle

theorem splitOn_length (d : Char) (t : Text) : (t.splitOn d).length = t.count d + 1 := by
  induction t with
  | nil => rfl
  | cons c t ih =>
    rw [List.splitOn_cons_eq_if_modifyHead, List.count_cons]
    split_ifs with hc
    · simp [ih]
    · simp [ih]

/-- A part that ends in a separator, and what follows it. -/
theorem splitOn_flatMap {d : Char} {fs : List Text} {r : Text} (hfs : ∀ f ∈ fs, d ∉ f)
    (hr : d ∉ r) : (fs.flatMap (· ++ [d]) ++ r).splitOn d = fs ++ [r] := by
  induction fs with
  | nil => exact List.splitOn_eq_singleton hr
  | cons f fs ih =>
    rw [List.flatMap_cons, List.append_assoc, List.append_assoc, List.singleton_append,
      List.splitOn_append_cons_self_of_not_mem (hfs f List.mem_cons_self),
      ih fun f' hf' => hfs f' (List.mem_cons_of_mem f hf'), List.cons_append]

theorem splitFirst_append {sep : Char} {a : Text} (ha : sep ∉ a) (b : Text) :
    splitFirst sep (a ++ sep :: b) = (a, b) := by
  have hkeep : ∀ c ∈ a, decide (c ≠ sep) = true := by
    intro c hc
    have : c ≠ sep := fun h => ha (h ▸ hc)
    simpa using this
  rw [splitFirst, List.takeWhile_append_of_pos hkeep, List.dropWhile_append_of_pos hkeep,
    List.takeWhile_cons_of_neg (by simp), List.dropWhile_cons_of_neg (by simp), List.append_nil]
  rfl

theorem map_strip_splitOn_strip {d : Char} (hd : isWhitespace d = false) (t : Text) :
    ((strip t).splitOn d).map strip = (t.splitOn d).map strip := by
  have h := @splitOnP_strip Text (· == d) (fun l => some (strip l))
    (fun l => congrArg some (strip_strip l))
    (fun c hc hw => by
      rw [beq_iff_eq] at hc
      rw [hc, hd] at hw
      cases hw) t
  simpa [List.splitOn_eq_splitOnP, List.filterMap_eq_map'] using h

end Split

/-! ### Numbers -/

theorem digitValue_ascii {c : Char} (h : c.isDigit = true) :
    digitValue c = some (c.toNat - '0'.toNat) := by
  have hc : 48 ≤ c.toNat ∧ c.toNat ≤ 57 := by
    simpa [Char.isDigit, UInt32.le_iff_toNat_le] using h
  rw [digitValue, digitZeros, List.find?_cons_of_pos]
  · rfl
  · simp only [Bool.and_eq_true, decide_eq_true_eq]
    omega

theorem readDigits_decimal {t : Text} (h : ∀ c ∈ t, c.isDigit = true) (n : ℕ) :
    readDigits n t = some (Nat.ofDigitChars 10 t n) := by
  induction t generalizing n with
  | nil => rfl
  | cons c t ih =>
    have hne : c ≠ '_' := by
      rintro rfl
      exact absurd (h _ List.mem_cons_self) (by decide)
    rw [readDigits, digitValue_ascii (h c List.mem_cons_self)]
    · exact ih (fun d hd => h d (List.mem_cons_of_mem c hd)) _
    · exact fun _ _ hc _ => hne hc

theorem readNat_decimal (n : ℕ) : readNat (Nat.toDigits 10 n) = some n := by
  have hdigit : ∀ c ∈ Nat.toDigits 10 n, c.isDigit = true := fun c hc =>
    Nat.isDigit_of_mem_toDigits (by decide) (by decide) hc
  cases ht : Nat.toDigits 10 n with
  | nil => exact absurd ht Nat.toDigits_ne_nil
  | cons c t =>
    rw [ht] at hdigit
    have hvalue := @Nat.ofDigitChars_ten_toDigits n
    rw [ht, Nat.ofDigitChars_cons] at hvalue
    rw [readNat, digitValue_ascii (hdigit c List.mem_cons_self)]
    simp only [Option.bind_some]
    rw [readDigits_decimal fun d hd => hdigit d (List.mem_cons_of_mem c hd)]
    simpa using hvalue

theorem decimal_notWhitespace {n : ℤ} {c : Char} (h : c ∈ decimal n) : isWhitespace c = false := by
  have hc : c = '-' ∨ 48 ≤ c.toNat ∧ c.toNat ≤ 57 := by
    rcases isDigit_of_mem_decimal h with hd | rfl
    · exact .inr (by simpa [Char.isDigit, UInt32.le_iff_toNat_le] using hd)
    · exact .inl rfl
  rcases hc with rfl | hc
  · decide
  · simp only [isWhitespace, Bool.or_eq_false_iff, Bool.and_eq_false_iff, decide_eq_false_iff_not,
      beq_eq_false_iff_ne]
    omega

theorem stripInt_self {t : Text} (h : ∀ c ∈ t, isWhitespace c = false) : stripInt t = t := by
  have hnot : ∀ c ∈ t, ¬ isIntSpace c = true := fun c hc => by simp [isIntSpace, h c hc]
  have hfront : t.dropWhile isIntSpace = t := by
    rw [List.dropWhile_eq_self_iff]
    exact fun hl => hnot _ (List.getElem_mem hl)
  rw [stripInt, hfront, List.rdropWhile_eq_self_iff]
  exact fun hne => hnot _ (List.getLast_mem hne)

theorem pyInt_decimal (n : ℤ) : pyInt (decimal n) = some n := by
  rw [pyInt, stripInt_self fun c hc => decimal_notWhitespace hc]
  unfold decimal
  split_ifs with hn
  · change (readNat (Nat.toDigits 10 n.natAbs)).map _ = some n
    rw [readNat_decimal, Option.map_some, Option.some.injEq]
    omega
  · have hdigit : ∀ c ∈ Nat.toDigits 10 n.natAbs, c.isDigit = true := fun c hc =>
      Nat.isDigit_of_mem_toDigits (by decide) (by decide) hc
    split
    · rename_i t ht
      exact absurd (hdigit '-' (ht ▸ List.mem_cons_self)) (by decide)
    · rename_i t ht
      exact absurd (hdigit '+' (ht ▸ List.mem_cons_self)) (by decide)
    · rw [readNat_decimal, Option.map_some, Option.some.injEq]
      omega

/-- What `int` makes of digits. -/
theorem pyInt_digits {t : Text} (hne : t ≠ []) (ht : ∀ c ∈ t, c.isDigit = true) :
    pyInt t = some (Nat.ofDigitChars 10 t 0 : ℕ) ∧
      pyInt ('-' :: t) = some (-((Nat.ofDigitChars 10 t 0 : ℕ) : ℤ)) := by
  have hdecimal : ∀ c ∈ t, isWhitespace c = false := by
    intro c hc
    have hle : 48 ≤ c.toNat ∧ c.toNat ≤ 57 := by
      simpa [Char.isDigit, UInt32.le_iff_toNat_le] using ht c hc
    simp only [isWhitespace, Bool.or_eq_false_iff, Bool.and_eq_false_iff, decide_eq_false_iff_not,
      beq_eq_false_iff_ne]
    omega
  have hstrip' : stripInt ('-' :: t) = '-' :: t :=
    stripInt_self (List.forall_mem_cons.mpr ⟨by decide, hdecimal⟩)
  have hread : readNat t = some (Nat.ofDigitChars 10 t 0) := by
    cases t with
    | nil => exact absurd rfl hne
    | cons c t =>
      rw [readNat, digitValue_ascii (ht c List.mem_cons_self), Option.bind_some,
        readDigits_decimal fun d hd => ht d (List.mem_cons_of_mem c hd), Nat.ofDigitChars_cons]
      simp
  constructor
  · rw [pyInt, stripInt_self hdecimal]
    split
    · exact absurd (ht '-' List.mem_cons_self) (by decide)
    · exact absurd (ht '+' List.mem_cons_self) (by decide)
    · rw [hread]
      rfl
  · rw [pyInt, hstrip']
    change (readNat t).map _ = _
    rw [hread]
    rfl

theorem pyInt_nil : pyInt [] = none := by decide

theorem pyInt_minus : pyInt ['-'] = none := by decide

/-- Cut digits are another number. -/
theorem ofDigitChars_take_ne {k n : ℕ} (hk : k < (Nat.toDigits 10 n).length) (hpos : 0 < k) :
    Nat.ofDigitChars 10 ((Nat.toDigits 10 n).take k) 0 ≠ n := by
  intro h
  have hwhole := @Nat.ofDigitChars_ten_toDigits n
  rw [← List.take_append_drop k (Nat.toDigits 10 n), Nat.ofDigitChars_append, h,
    Nat.ofDigitChars_eq_ofDigitChars_zero] at hwhole
  have hlen : ((Nat.toDigits 10 n).drop k).length ≠ 0 := by
    rw [List.length_drop]
    omega
  have hten : 10 ≤ 10 ^ ((Nat.toDigits 10 n).drop k).length :=
    Nat.le_self_pow hlen 10
  have hzero : n = 0 := by nlinarith
  rw [hzero, Nat.toDigits_zero, List.length_singleton] at hk
  omega

/-- A cut number is another number. -/
theorem pyInt_take_ne {k : ℕ} {n : ℤ} (hk : k < (decimal n).length) :
    pyInt ((decimal n).take k) ≠ some n := by
  have hdigits : ∀ j, ∀ c ∈ (Nat.toDigits 10 n.natAbs).take j, c.isDigit = true := fun j c hc =>
    Nat.isDigit_of_mem_toDigits (by decide) (by decide) (List.mem_of_mem_take hc)
  have hne : ∀ j, 0 < j → (Nat.toDigits 10 n.natAbs).take j ≠ [] := by
    intro j hj h
    rcases List.take_eq_nil_iff.mp h with h | h
    · omega
    · exact Nat.toDigits_ne_nil h
  intro h
  unfold decimal at hk h
  split_ifs at hk h with hneg
  · rw [List.length_cons] at hk
    match k with
    | 0 =>
      rw [List.take_zero, pyInt_nil] at h
      cases h
    | 1 =>
      rw [List.take_succ_cons, List.take_zero, pyInt_minus] at h
      cases h
    | j + 2 =>
      rw [List.take_succ_cons, (pyInt_digits (hne (j + 1) (by omega)) (hdigits (j + 1))).2] at h
      refine ofDigitChars_take_ne (Nat.lt_of_succ_lt_succ hk) (by omega) ?_
      have := Option.some.inj h
      omega
  · match k with
    | 0 =>
      rw [List.take_zero, pyInt_nil] at h
      cases h
    | j + 1 =>
      rw [(pyInt_digits (hne (j + 1) (by omega)) (hdigits (j + 1))).1] at h
      refine ofDigitChars_take_ne hk (by omega) ?_
      have := Option.some.inj h
      omega

theorem mem_sortedSet {n : ℤ} {ns : List ℤ} : n ∈ sortedSet ns ↔ n ∈ ns := by
  rw [sortedSet, List.mem_insertionSort, List.mem_dedup]

theorem sortedSet_eq_iff {xs ys : List ℤ} : sortedSet xs = sortedSet ys ↔ ∀ n, n ∈ xs ↔ n ∈ ys := by
  constructor
  · intro h n
    rw [← mem_sortedSet, h, mem_sortedSet]
  · intro h
    have hperm : xs.dedup.Perm ys.dedup := (List.perm_ext_iff_of_nodup (List.nodup_dedup xs)
      (List.nodup_dedup ys)).mpr fun n => by rw [List.mem_dedup, List.mem_dedup, h n]
    refine List.Perm.eq_of_pairwise (fun (a b : ℤ) _ _ (h : a ≤ b) => le_antisymm h)
      (List.pairwise_insertionSort _ _) (List.pairwise_insertionSort _ _) ?_
    exact ((List.perm_insertionSort _ _).trans hperm).trans (List.perm_insertionSort _ _).symm

/-! ### Lengths -/

theorem decodeStart_length (c : Char) :
    (decodeStart c).1.length + (decodeStart c).2.isSome.toNat ≤ 1 := by
  unfold decodeStart
  dsimp only
  split_ifs <;> simp

/-- Decoding makes at most one character of a byte, and one of an open sequence. -/
theorem decodeFrom_length (s : Option Pending) (t : Text) :
    (decodeFrom s t).length ≤ t.length + s.isSome.toNat := by
  induction t generalizing s with
  | nil => cases s <;> simp [decodeFrom]
  | cons c t ih =>
    have hstart := decodeStart_length c
    have hrest := ih (decodeStart c).2
    cases s with
    | none =>
      simp only [decodeFrom, List.length_append, List.length_cons]
      omega
    | some p =>
      rw [decodeFrom]
      dsimp only
      split_ifs with hrange hlast
      · have hnone := ih none
        simp only [List.length_cons, Option.isSome_none, Bool.toNat_false] at hnone ⊢
        omega
      · have hsome := ih (some ⟨p.missing - 1, 0x80, 0xBF, 64*p.bits + (c.toNat - 0x80), le_refl _⟩)
        simp only [List.length_cons, Option.isSome_some, Bool.toNat_true] at hsome ⊢
        omega
      · simp only [List.length_append, List.length_cons, Option.isSome_some, Bool.toNat_true]
        omega

theorem decode_length (t : Text) : (decode t).length ≤ t.length :=
  decodeFrom_length none t

theorem strip_sublist (t : Text) : (strip t).Sublist t :=
  (List.rdropWhile_prefix (p := isWhitespace) _).sublist.trans (List.dropWhile_sublist _)

theorem splitlines_length (t : Text) : (splitlines t).length ≤ t.length := by
  fun_induction splitlines t with
  | case1 => exact le_rfl
  | case2 t ih =>
    simp only [List.length_cons]
    omega
  | case3 c t _ _ ih =>
    simp only [List.length_cons]
    omega
  | case4 c t _ _ ih =>
    cases h : splitlines t with
    | nil => simp [push]
    | cons l ls =>
      rw [h] at ih
      simp only [push, List.length_cons] at ih ⊢
      omega

/-! ### Stripping and parts -/

theorem infix_dropWhile {q : Char → Bool} {w t : Text} (hw : ∀ c ∈ w, q c = false) (h : w <:+: t) :
    w <:+: t.dropWhile q := by
  induction t with
  | nil => exact h
  | cons c t ih =>
    by_cases hc : q c = true
    · rw [List.dropWhile_cons_of_pos hc]
      rcases List.infix_cons_iff.mp h with h | h
      · cases w with
        | nil => exact List.nil_infix
        | cons d w =>
          obtain rfl := (List.cons_prefix_cons.mp h).1
          rw [hw d List.mem_cons_self] at hc
          cases hc
      · exact ih h
    · rwa [List.dropWhile_cons_of_neg hc]

/-- Stripping keeps every word of a text. -/
theorem infix_strip {w t : Text} (hw : ∀ c ∈ w, isWhitespace c = false) (h : w <:+: t) :
    w <:+: strip t := by
  have hleft := infix_dropWhile hw h
  have hright : w.reverse <:+: (t.dropWhile isWhitespace).reverse.dropWhile isWhitespace :=
    infix_dropWhile (fun c hc => hw c (List.mem_reverse.mp hc)) (List.reverse_infix.mpr hleft)
  rw [strip, List.rdropWhile, ← List.reverse_reverse w]
  exact List.reverse_infix.mpr hright

theorem mem_dropWhile_or {q : Char → Bool} {c : Char} {t : Text} (h : c ∈ t) :
    q c = true ∨ c ∈ t.dropWhile q := by
  rw [← List.takeWhile_append_dropWhile (p := q) (l := t), List.mem_append] at h
  exact h.imp_left List.mem_takeWhile_imp

theorem mem_strip_or {c : Char} {t : Text} (h : c ∈ t) : isWhitespace c = true ∨ c ∈ strip t := by
  rcases mem_dropWhile_or h with h | h
  · exact .inl h
  · rcases mem_dropWhile_or (List.mem_reverse.mpr h) with h | h
    · exact .inl h
    · exact .inr (List.mem_reverse.mpr h)

theorem mem_splitFirst {sep c : Char} {t : Text} (h : c ∈ t) :
    c = sep ∨ c ∈ (splitFirst sep t).1 ∨ c ∈ (splitFirst sep t).2 := by
  induction t with
  | nil => cases h
  | cons d t ih =>
    by_cases hd : d = sep
    · subst hd
      rcases List.mem_cons.mp h with rfl | h
      · exact .inl rfl
      · exact .inr (.inr (by simpa [splitFirst] using h))
    · have hshape : splitFirst sep (d :: t) = (d :: (splitFirst sep t).1, (splitFirst sep t).2) := by
        simp [splitFirst, hd]
      rw [hshape]
      rcases List.mem_cons.mp h with rfl | h
      · exact .inr (.inl List.mem_cons_self)
      · exact (ih h).imp_right fun h => h.imp_left (List.mem_cons_of_mem d)

theorem mem_splitOn_or (d : Char) {c : Char} {t : Text} (h : c ∈ t) :
    c = d ∨ ∃ l ∈ t.splitOn d, c ∈ l := by
  induction t with
  | nil => cases h
  | cons x t ih =>
    rw [List.splitOn_cons_eq_if_modifyHead]
    obtain ⟨l, ls, hls⟩ := List.exists_cons_of_ne_nil (List.splitOn_ne_nil d t)
    rw [hls] at ih ⊢
    by_cases hx : x = d
    · rcases List.mem_cons.mp h with rfl | h
      · exact .inl hx
      · refine (ih h).imp_right fun ⟨l', hl', hc⟩ => ⟨l', ?_, hc⟩
        simpa [hx] using Or.inr (List.mem_cons.mp hl')
    · rcases List.mem_cons.mp h with rfl | h
      · exact .inr ⟨c :: l, by simp [hx], List.mem_cons_self⟩
      · rcases ih h with rfl | ⟨l', hl', hc⟩
        · exact .inl rfl
        · rcases List.mem_cons.mp hl' with rfl | hl'
          · exact .inr ⟨x :: l', by simp [hx], List.mem_cons_of_mem x hc⟩
          · exact .inr ⟨l', by simp [hx, hl'], hc⟩

/-! ### Characters of numbers -/

/-- The characters `int` accepts somewhere in its text. -/
def IntChar (c : Char) : Prop :=
  isWhitespace c = true ∨ (digitValue c).isSome = true ∨ c = '_' ∨ c = '+' ∨ c = '-'

instance : DecidablePred IntChar := fun _ => inferInstanceAs (Decidable (_ ∨ _))

theorem readDigits_chars {n k : ℕ} {t : Text} (h : readDigits n t = some k) :
    ∀ c ∈ t, IntChar c := by
  fun_induction readDigits n t with
  | case1 => simp
  | case2 n c t ih =>
    obtain ⟨d, hd, hrest⟩ := Option.bind_eq_some_iff.mp h
    simp only [List.forall_mem_cons]
    exact ⟨.inr (.inr (.inl rfl)), .inr (.inl (by rw [hd]; rfl)), ih d hrest⟩
  | case3 n c t _ ih =>
    obtain ⟨d, hd, hrest⟩ := Option.bind_eq_some_iff.mp h
    exact List.forall_mem_cons.mpr ⟨.inr (.inl (by rw [hd]; rfl)), ih d hrest⟩

theorem readNat_chars {k : ℕ} {t : Text} (h : readNat t = some k) : ∀ c ∈ t, IntChar c := by
  cases t with
  | nil => simp
  | cons c t =>
    obtain ⟨d, hd, hrest⟩ := Option.bind_eq_some_iff.mp h
    exact List.forall_mem_cons.mpr ⟨.inr (.inl (by rw [hd]; rfl)), readDigits_chars hrest⟩

theorem mem_stripInt_or {c : Char} {t : Text} (h : c ∈ t) :
    isWhitespace c = true ∨ c ∈ stripInt t := by
  have hspace : isIntSpace c = true → isWhitespace c = true := fun hc => (Bool.and_eq_true_iff.mp hc).1
  rcases mem_dropWhile_or h with h | h
  · exact .inl (hspace h)
  · rcases mem_dropWhile_or (List.mem_reverse.mpr h) with h | h
    · exact .inl (hspace h)
    · exact .inr (List.mem_reverse.mpr h)

theorem pyInt_chars {t : Text} {n : ℤ} (h : pyInt t = some n) : ∀ c ∈ t, IntChar c := by
  have hstrip : ∀ c ∈ stripInt t, IntChar c := by
    unfold pyInt at h
    split at h
    · rename_i t' ht'
      obtain ⟨k, hk, _⟩ := Option.map_eq_some_iff.mp h
      rw [ht']
      exact List.forall_mem_cons.mpr ⟨.inr (.inr (.inr (.inr rfl))), readNat_chars hk⟩
    · rename_i t' ht'
      obtain ⟨k, hk, _⟩ := Option.map_eq_some_iff.mp h
      rw [ht']
      exact List.forall_mem_cons.mpr ⟨.inr (.inr (.inr (.inl rfl))), readNat_chars hk⟩
    · obtain ⟨k, hk, _⟩ := Option.map_eq_some_iff.mp h
      exact readNat_chars hk
  intro c hc
  rcases mem_stripInt_or hc with hspace | hc
  · exact .inl hspace
  · exact hstrip c hc

end Ramryder.PyText
