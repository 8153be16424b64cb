import Ramryder.CMachine

/-! `vm_mngr_for_each_core`: the comma-separated core set of a VM, token by token,
with a handler for each core. -/
namespace Ramryder.CoreSet
open CInt CMachine CText

variable {β : Type}

/-- `for (int i = start; i <= end; ++i)`, with the number of cores left. -/
def coreRange (handler : β → ℤ → Outcome β) : ℕ → ℤ → β → Outcome β
  | 0, _, b => .ok b
  | n+1, i, b => do
    let b ← handler b i
    let i ← cInt (i + 1)
    coreRange handler n i b

def coreToken (handler : β → ℤ → Outcome β) (b : β) (token : Text) : Outcome β :=
  match sscanf "%d-%d" token with
  | [.int start, .int stop] =>
    if start ≤ stop then coreRange handler (stop - start + 1).toNat start b else .ok b
  | _ =>
    match sscanf "%d" token with
    | [.int start] => handler b start
    | _ => .ok b

/-- `strtok` with a comma: the non-empty pieces. -/
def tokens (coreSet : Text) : List Text := (coreSet.splitOn ',').filter (· ≠ [])

def forEachToken (handler : β → ℤ → Outcome β) : List Text → β → Outcome β
  | [], b => .ok b
  | token :: ts, b => do
    let b ← coreToken handler b token
    forEachToken handler ts b

def vmMngrForEachCore (coreSet : Text) (handler : β → ℤ → Outcome β) (b : β) : Outcome β := do
  bugOn .coreSetNonEmpty (coreSet = [])
  forEachToken handler (tokens coreSet) b

variable {γ : Type} {P : β → Prop} {handler : β → ℤ → Outcome β}

/-- What every handler call keeps, the whole iteration keeps. -/
theorem coreRange_keeps (hP : ∀ b core b', P b → handler b core = .ok b' → P b')
    {n : ℕ} {i : ℤ} {b b' : β} (hb : P b) (h : coreRange handler n i b = .ok b') : P b' := by
  induction n generalizing i b with
  | zero =>
    cases h
    exact hb
  | succ n ih =>
    simp only [coreRange, bind_eq_ok] at h
    obtain ⟨c, hc, _, _, h⟩ := h
    exact ih (hP b i c hb hc) h

theorem coreToken_keeps (hP : ∀ b core b', P b → handler b core = .ok b' → P b')
    {b b' : β} {token : Text} (hb : P b) (h : coreToken handler b token = .ok b') : P b' := by
  unfold coreToken at h
  split at h
  · split_ifs at h
    · exact coreRange_keeps hP hb h
    · cases h
      exact hb
  · split at h
    · exact hP _ _ _ hb h
    · cases h
      exact hb

theorem forEachToken_keeps (hP : ∀ b core b', P b → handler b core = .ok b' → P b')
    {ts : List Text} {b b' : β} (hb : P b) (h : forEachToken handler ts b = .ok b') : P b' := by
  induction ts generalizing b with
  | nil =>
    cases h
    exact hb
  | cons token ts ih =>
    obtain ⟨c, hc, h⟩ := bind_eq_ok.mp h
    exact ih (coreToken_keeps hP hb hc) h

theorem vmMngrForEachCore_keeps (hP : ∀ b core b', P b → handler b core = .ok b' → P b')
    {coreSet : Text} {b b' : β} (hb : P b)
    (h : vmMngrForEachCore coreSet handler b = .ok b') : P b' := by
  obtain ⟨_, _, h⟩ := bind_eq_ok.mp h
  exact forEachToken_keeps hP hb h

/-- An iteration commutes with what its handler commutes with. -/
theorem coreRange_map {f : β → β} (hf : ∀ b core, handler (f b) core = (handler b core).map f) {n : ℕ}
    {i : ℤ} {b : β} : coreRange handler n i (f b) = (coreRange handler n i b).map f := by
  induction n generalizing i b with
  | zero => rfl
  | succ n ih =>
    simp only [coreRange, hf]
    cases handler b i with
    | error e => rfl
    | ok b =>
      cases cInt (i + 1) with
      | error e => rfl
      | ok i => exact ih

theorem coreToken_map {f : β → β} (hf : ∀ b core, handler (f b) core = (handler b core).map f) {b : β}
    {token : Text} : coreToken handler (f b) token = (coreToken handler b token).map f := by
  unfold coreToken
  split
  · split_ifs
    · exact coreRange_map hf
    · rfl
  · split
    · exact hf _ _
    · rfl

theorem forEachToken_map {f : β → β} (hf : ∀ b core, handler (f b) core = (handler b core).map f)
    {ts : List Text} {b : β} : forEachToken handler ts (f b) = (forEachToken handler ts b).map f := by
  induction ts generalizing b with
  | nil => rfl
  | cons token ts ih =>
    simp only [forEachToken, coreToken_map hf]
    cases coreToken handler b token with
    | error e => rfl
    | ok b => exact ih

theorem vmMngrForEachCore_map {f : β → β}
    (hf : ∀ b core, handler (f b) core = (handler b core).map f) (coreSet : Text) (b : β) :
    vmMngrForEachCore coreSet handler (f b) = (vmMngrForEachCore coreSet handler b).map f := by
  simp only [vmMngrForEachCore, forEachToken_map hf]
  cases bugOn .coreSetNonEmpty (coreSet = []) <;> rfl

/-! ### Faults -/

variable {Q : Fault → Prop}

/-- A fault of the iteration is the handler's own, or comes from the core set itself. -/
theorem coreRange_fault (hover : Q .intOverflow) (hQ : ∀ b core e, handler b core = .error e → Q e)
    {n : ℕ} {i : ℤ} {b : β} {e : Fault} (h : coreRange handler n i b = .error e) : Q e := by
  induction n generalizing i b with
  | zero => cases h
  | succ n ih =>
    simp only [coreRange, bind_eq_error] at h
    rcases h with h | ⟨c, _, h | ⟨_, _, h⟩⟩
    · exact hQ b i e h
    · rw [cInt_eq_error h]
      exact hover
    · exact ih h

theorem coreToken_fault (hover : Q .intOverflow) (hQ : ∀ b core e, handler b core = .error e → Q e)
    {b : β} {token : Text} {e : Fault} (h : coreToken handler b token = .error e) : Q e := by
  unfold coreToken at h
  split at h
  · split_ifs at h
    exact coreRange_fault hover hQ h
  · split at h
    · exact hQ _ _ _ h
    · cases h

theorem forEachToken_fault (hover : Q .intOverflow)
    (hQ : ∀ b core e, handler b core = .error e → Q e) {ts : List Text} {b : β} {e : Fault}
    (h : forEachToken handler ts b = .error e) : Q e := by
  induction ts generalizing b with
  | nil => cases h
  | cons token ts ih =>
    rcases bind_eq_error.mp h with h | ⟨c, _, h⟩
    · exact coreToken_fault hover hQ h
    · exact ih h

theorem vmMngrForEachCore_fault (hover : Q .intOverflow) (hempty : Q (.bugOn .coreSetNonEmpty))
    (hQ : ∀ b core e, handler b core = .error e → Q e) {coreSet : Text} {b : β} {e : Fault}
    (h : vmMngrForEachCore coreSet handler b = .error e) : Q e := by
  rcases bind_eq_error.mp h with h | ⟨_, _, h⟩
  · rw [(bugOn_eq_error h).1]
    exact hempty
  · exact forEachToken_fault hover hQ h

/-! ### The cores of a core set

Where one iteration gets through the text, every iteration visits the cores that the text
names. -/

/-- The cores of `start-stop`. -/
def rangeCores (start stop : ℤ) : List ℤ :=
  (List.range (stop - start + 1).toNat).map fun k : ℕ => start + k

/-- The cores that one piece of a core set names. -/
def tokenCores (token : Text) : List ℤ :=
  match sscanf "%d-%d" token with
  | [.int start, .int stop] => rangeCores start stop
  | _ =>
    match sscanf "%d" token with
    | [.int start] => [start]
    | _ => []

def namedCores (coreSet : Text) : List ℤ := (tokens coreSet).flatMap tokenCores

theorem range_succ_shift (n : ℕ) (i : ℤ) : (List.range (n + 1)).map (fun k : ℕ => i + k) =
    i :: (List.range n).map fun k : ℕ => i + 1 + k := by
  rw [List.range_succ_eq_map, List.map_cons, List.map_map, Nat.cast_zero, add_zero]
  congr 1
  refine List.map_congr_left fun k _ => ?_
  simp only [Function.comp_apply]
  push_cast
  ring

theorem coreRange_cores {n : ℕ} {i : ℤ} {b b' : β} (h : coreRange handler n i b = .ok b')
    (g : γ → ℤ → Outcome γ) (c : γ) :
    coreRange g n i c = ((List.range n).map fun k : ℕ => i + k).foldlM g c := by
  induction n generalizing i b c with
  | zero => rfl
  | succ n ih =>
    simp only [coreRange, bind_eq_ok, cInt_eq_ok] at h
    obtain ⟨_, _, _, ⟨hin, rfl⟩, h⟩ := h
    rw [range_succ_shift, List.foldlM_cons]
    simp only [coreRange, cInt_of_inInt hin, ok_bind]
    exact bind_congr fun d => ih h d

theorem coreToken_cores {b b' : β} {token : Text} (h : coreToken handler b token = .ok b')
    (g : γ → ℤ → Outcome γ) (c : γ) : coreToken g c token = (tokenCores token).foldlM g c := by
  unfold coreToken at h ⊢
  unfold tokenCores
  split at h
  · rename_i start stop _
    split_ifs at h with hle
    · rw [if_pos hle]
      exact coreRange_cores h g c
    · have hempty : rangeCores start stop = [] := by
        rw [rangeCores, Int.toNat_of_nonpos (by omega)]
        rfl
      rw [if_neg hle, hempty]
      rfl
  · split at h
    · exact (bind_pure _).symm
    · rfl

theorem forEachToken_cores {ts : List Text} {b b' : β} (h : forEachToken handler ts b = .ok b')
    (g : γ → ℤ → Outcome γ) (c : γ) :
    forEachToken g ts c = (ts.flatMap tokenCores).foldlM g c := by
  induction ts generalizing b c with
  | nil => rfl
  | cons token ts ih =>
    obtain ⟨d, hd, h⟩ := bind_eq_ok.mp h
    rw [forEachToken, coreToken_cores hd, List.flatMap_cons, List.foldlM_append]
    exact bind_congr fun e => ih h e

theorem vmMngrForEachCore_cores {coreSet : Text} {b b' : β}
    (h : vmMngrForEachCore coreSet handler b = .ok b') (g : γ → ℤ → Outcome γ) (c : γ) :
    vmMngrForEachCore coreSet g c = (namedCores coreSet).foldlM g c := by
  obtain ⟨u, hbug, h⟩ := bind_eq_ok.mp h
  rw [vmMngrForEachCore, hbug, ok_bind, forEachToken_cores h, namedCores]

end Ramryder.CoreSet
