import Ramryder.CInt

/-! C text: byte strings with one character per byte, the conversions of `printf`
and `sscanf` that `%d`, `%s` and `%[^\n]` name, and the bounded `snprintf`. -/
namespace Ramryder.CText
open CInt

abbrev Text := List Char

/-- `isspace` in the C locale. -/
def isSpace (c : Char) : Bool := c == ' ' || (9 ≤ c.toNat && c.toNat ≤ 13)

/-- What a string function sees of a byte sequence: the part before the first NUL. -/
def cString (bytes : Text) : Text := bytes.takeWhile (· != '\x00')

/-- Puts a character in front of the first text. -/
def push (c : Char) : List Text → List Text
  | [] => [[c]]
  | t :: ts => (c :: t) :: ts

/-- `%d` on output. -/
def decimal (n : ℤ) : Text :=
  if n < 0 then '-' :: Nat.toDigits 10 n.natAbs else Nat.toDigits 10 n.natAbs

/-- A conversion specification; a width of zero stands for none. -/
inductive Directive
  | lit (c : Char)
  | int (width : ℕ)
  | str (width : ℕ)
  | line
  deriving DecidableEq, Repr

inductive Item
  | int (n : ℤ)
  | text (t : Text)
  deriving DecidableEq, Repr

/-- Reads a format string; the first argument is the width read since the last `%`. -/
def directives : Option ℕ → Text → List Directive
  | _, [] => []
  | none, '%' :: f => directives (some 0) f
  | none, c :: f => .lit c :: directives none f
  | some w, 'd' :: f => .int w :: directives none f
  | some w, 's' :: f => .str w :: directives none f
  | some _, '[' :: '^' :: '\n' :: ']' :: f => .line :: directives none f
  | some w, c :: f => directives (some (10*w + (c.toNat - '0'.toNat))) f

def scanSign : Text → Bool × Text
  | '-' :: t => (true, t)
  | '+' :: t => (false, t)
  | t => (false, t)

/-- `%d` on input: a saturating `strtol` whose value is stored into an `int`. -/
def scanInt (t : Text) : Option (ℤ × Text) :=
  let s := scanSign (t.dropWhile isSpace)
  let digits := s.2.takeWhile Char.isDigit
  if digits = [] then none
  else
    let n : ℤ := Nat.ofDigitChars 10 digits 0
    some (toInt32 (clampLong (if s.1 then -n else n)), s.2.dropWhile Char.isDigit)

/-- `%s` on input: the next word, at most `width` characters of it. -/
def scanWord (width : ℕ) (t : Text) : Text × Text :=
  let t := t.dropWhile isSpace
  let word := t.takeWhile (fun c => !isSpace c)
  let taken := if width = 0 then word else word.take width
  (taken, t.drop taken.length)

/-- A literal of the format: itself, or any white space where it is white space. -/
def matchLit (c : Char) (t : Text) : Option Text :=
  if isSpace c then some (t.dropWhile isSpace)
  else
    match t with
    | [] => none
    | x :: t => if x = c then some t else none

/-- The values `sscanf` assigns, in order; it stops at the first directive that fails. -/
@[grind =] def scan : List Directive → Text → List Item
  | [], _ => []
  | .lit c :: ds, t =>
    match matchLit c t with
    | none => []
    | some t => scan ds t
  | .int _ :: ds, t =>
    match scanInt t with
    | none => []
    | some (n, t) => .int n :: scan ds t
  | .str w :: ds, t =>
    let r := scanWord w t
    if r.1 = [] then [] else .text r.1 :: scan ds r.2
  | .line :: ds, t =>
    let s := t.takeWhile (· != '\n')
    if s = [] then [] else .text s :: scan ds (t.drop s.length)

def sscanf (format : String) (t : Text) : List Item := scan (directives none format.toList) t

def padLeft (width : ℕ) (t : Text) : Text := List.replicate (width - t.length) ' ' ++ t

def render : List Directive → List Item → Text
  | .lit c :: ds, as => c :: render ds as
  | .int w :: ds, .int n :: as => padLeft w (decimal n) ++ render ds as
  | .str w :: ds, .text t :: as => padLeft w t ++ render ds as
  | _, _ => []

def sprintf (format : String) (args : List Item) : Text :=
  render (directives none format.toList) args

/-- What `snprintf` leaves before the terminator in a buffer of `size` bytes. -/
def snprintf (size : ℕ) (format : String) (args : List Item) : Text :=
  (sprintf format args).take (size - 1)

@[simp] theorem padLeft_zero (t : Text) : padLeft 0 t = t := by simp [padLeft]

/-! ### Formats

A format is rendered piece by piece: literal characters, then a conversion. -/

/-- Characters a format prints as they are. -/
def lits (s : String) : List Directive := s.toList.map .lit

theorem render_lits (s : String) (ds : List Directive) (as : List Item) :
    render (lits s ++ ds) as = s.toList ++ render ds as := by
  unfold lits
  induction s.toList with
  | nil => rfl
  | cons c t ih => simp [render, ih]

theorem render_end (s : String) : render (lits s) [] = s.toList := by
  have h := render_lits s [] []
  simpa [render] using h

theorem render_int (w : ℕ) (n : ℤ) (ds : List Directive) (as : List Item) :
    render (.int w :: ds) (.int n :: as) = padLeft w (decimal n) ++ render ds as := rfl

theorem render_str (w : ℕ) (t : Text) (ds : List Directive) (as : List Item) :
    render (.str w :: ds) (.text t :: as) = padLeft w t ++ render ds as := rfl

theorem padLeft_length (w : ℕ) (t : Text) : (padLeft w t).length = max w t.length := by
  simp only [padLeft, List.length_append, List.length_replicate]
  omega

theorem isDigit_of_mem_decimal {n : ℤ} {c : Char} (h : c ∈ decimal n) :
    c.isDigit = true ∨ c = '-' := by
  unfold decimal at h
  split_ifs at h with hn
  · rcases List.mem_cons.mp h with rfl | h
    · exact .inr rfl
    · exact .inl (Nat.isDigit_of_mem_toDigits (by norm_num) (by norm_num) h)
  · exact .inl (Nat.isDigit_of_mem_toDigits (by norm_num) (by norm_num) h)

theorem notMem_decimal {c : Char} (hdigit : c.isDigit = false) (hminus : c ≠ '-') (n : ℤ) :
    c ∉ decimal n := by
  intro hc
  rcases isDigit_of_mem_decimal hc with h | h
  · rw [hdigit] at h
    cases h
  · exact hminus h

theorem decimal_natCast (n : ℕ) : decimal n = Nat.toDigits 10 n := by
  simp [decimal]

theorem decimal_injective : Function.Injective decimal := by
  have habs : ∀ a b : ℕ, Nat.toDigits 10 a = Nat.toDigits 10 b → a = b := fun a b h => by
    have hread := congrArg (Nat.ofDigitChars 10 · 0) h
    simpa only [Nat.ofDigitChars_ten_toDigits] using hread
  have hsign : ∀ a b : ℕ, '-' :: Nat.toDigits 10 a ≠ Nat.toDigits 10 b := fun a b h => by
    have hdigit := @Nat.isDigit_of_mem_toDigits 10 b '-' (by norm_num) (by norm_num)
      (h ▸ List.mem_cons_self)
    simp at hdigit
  intro a b h
  simp only [decimal] at h
  split_ifs at h with ha hb hb
  · have := habs _ _ (List.cons.inj h).2
    omega
  · exact absurd h (hsign _ _)
  · exact absurd h.symm (hsign _ _)
  · have := habs _ _ h
    omega

theorem decimal_length {n : ℤ} (h : InInt n) : (decimal n).length ≤ 11 := by
  have hdigits : (Nat.toDigits 10 n.natAbs).length ≤ 10 := by
    rw [Nat.length_toDigits_le_iff (by decide) (by decide)]
    simp only [InInt, intMin, intMax] at h
    omega
  unfold decimal
  split_ifs
  · rw [List.length_cons]
    omega
  · omega

theorem decimal_ne_nil (n : ℤ) : decimal n ≠ [] := by
  unfold decimal
  split_ifs
  · simp
  · exact Nat.toDigits_ne_nil

end Ramryder.CText
