import Ramryder.QemuAgent

/-! What a memory backend of QEMU is, and how one is read from an option text and
from an `object-add` command. -/
namespace Ramryder.QemuBackend
open CText QemuAgent

/-- A `memory-backend-file`: it maps `[offsetBytes, offsetBytes + sizeBytes)` of the file. -/
structure Backend where
  id : Text
  memPath : Text
  sizeBytes : ℤ
  alignBytes : ℤ
  offsetBytes : ℤ
  deriving DecidableEq, Repr

/-- Both map some byte of one file. -/
def Backend.Overlaps (b b' : Backend) : Prop :=
  b.memPath = b'.memPath ∧ b.offsetBytes < b'.offsetBytes + b'.sizeBytes ∧
    b'.offsetBytes < b.offsetBytes + b.sizeBytes

instance (b b' : Backend) : Decidable (b.Overlaps b') := inferInstanceAs (Decidable (_ ∧ _))

/-! ### Option texts -/

/-- Options stand between single commas; a doubled comma is a comma of the option itself. -/
def options : Text → List Text
  | [] => [[]]
  | ',' :: ',' :: t => push ',' (options t)
  | ',' :: t => [] :: options t
  | c :: t => push c (options t)

/-- The key of an option and what follows its first `=`. -/
def keyValue (o : Text) : Text × Text :=
  (o.takeWhile (· != '='), (o.dropWhile (· != '=')).drop 1)

/-- The value of a key; the last option with the key counts. -/
def optionValue (text : Text) (key : String) : Option Text :=
  ((options text).map keyValue).reverse.lookup key.toList

/-- A size with the suffix for mebibytes. -/
def readSize (t : Text) : Option ℤ :=
  let digits := t.takeWhile Char.isDigit
  if digits ≠ [] ∧ t.dropWhile Char.isDigit = ['M'] then
    some (mbToBytes (Nat.ofDigitChars 10 digits 0))
  else none

/-- The backend of an option text that gives every field. -/
def readOptions (text : Text) : Option Backend := do
  let id ← optionValue text "id"
  let memPath ← optionValue text "mem-path"
  let sizeBytes ← (optionValue text "size").bind readSize
  let alignBytes ← (optionValue text "align").bind readSize
  let offsetBytes ← (optionValue text "offset").bind readSize
  some ⟨id, memPath, sizeBytes, alignBytes, offsetBytes⟩

/-! ### Commands -/

def jsonText : Json → Option Text
  | .str t => some t
  | _ => none

def jsonInt : Json → Option ℤ
  | .int n => some n
  | _ => none

/-- The backend an `object-add` command makes; an absent offset is 0. -/
def readObjectAdd (command : Json) : Option Backend := do
  let arguments ← jsonField "arguments" command
  let id ← (jsonField "id" arguments).bind jsonText
  let memPath ← (jsonField "mem-path" arguments).bind jsonText
  let sizeBytes ← (jsonField "size" arguments).bind jsonInt
  let alignBytes ← (jsonField "align" arguments).bind jsonInt
  let offsetBytes ← jsonInt ((jsonField "offset" arguments).getD (.int 0))
  some ⟨id, memPath, sizeBytes, alignBytes, offsetBytes⟩

theorem readObjectAdd_objectAdd (request : HotplugRequest) :
    readObjectAdd (objectAdd request) = some
      ⟨request.memdevId, request.devPath, request.sizeBytes, request.alignBytes, 0⟩ := by
  simp [readObjectAdd, objectAdd, qmpCommand, jsonField, jsonText, jsonInt, List.lookup]

/-! ### Reading an option text back -/

theorem options_ne_nil (t : Text) : options t ≠ [] := by
  fun_induction options t with
  | case1 => simp
  | case2 t ih =>
    cases h : options t with
    | nil => exact absurd h ih
    | cons o os => simp [push]
  | case3 t h ih => simp
  | case4 c t h₁ h₂ ih =>
    cases h : options t with
    | nil => exact absurd h ih
    | cons o os => simp [push]

theorem options_cons {c : Char} (hc : c ≠ ',') (t : Text) : options (c :: t) = push c (options t) := by
  rw [options]
  · exact fun _ h _ => hc h
  · exact fun h => hc h

theorem options_comma {t : Text} (ht : t.head? ≠ some ',') :
    options (',' :: t) = [] :: options t := by
  rw [options]
  rintro t' rfl
  simp at ht

theorem options_plain {o : Text} (ho : ',' ∉ o) : options o = [o] := by
  induction o with
  | nil => rfl
  | cons c o ih =>
    rw [List.mem_cons, not_or] at ho
    rw [options_cons (Ne.symm ho.1), ih ho.2, push]

/-- An option without commas, set off by a single comma. -/
theorem options_append {o t : Text} (ho : ',' ∉ o) (ht : t.head? ≠ some ',') :
    options (o ++ ',' :: t) = o :: options t := by
  induction o with
  | nil => exact options_comma ht
  | cons c o ih =>
    rw [List.mem_cons, not_or] at ho
    rw [List.cons_append, options_cons (Ne.symm ho.1), ih ho.2, push]

theorem push_length {os : List Text} (h : os ≠ []) (c : Char) : (push c os).length = os.length := by
  cases os with
  | nil => exact absurd rfl h
  | cons o os => rfl

theorem push_commas (c : Char) (os : List Text) :
    ((push c os).map (List.count ',')).sum =
      (os.map (List.count ',')).sum + if c = ',' then 1 else 0 := by
  cases os with
  | nil => simp [push, List.count_cons]
  | cons o os =>
    simp only [push, List.map_cons, List.sum_cons, List.count_cons, beq_iff_eq]
    omega

/-- Every comma of the text sets off an option or is one half of a comma inside one. -/
theorem options_commas (t : Text) :
    (options t).length + 2 * ((options t).map (List.count ',')).sum = t.count ',' + 1 := by
  fun_induction options t with
  | case1 => simp
  | case2 t ih =>
    rw [push_length (options_ne_nil t), push_commas]
    simp only [List.count_cons_self, if_true]
    omega
  | case3 t h ih =>
    simp only [List.length_cons, List.map_cons, List.sum_cons, List.count_nil, List.count_cons_self]
    omega
  | case4 c t h₁ h₂ ih =>
    have hc : c ≠ ',' := by
      rintro rfl
      exact h₂ rfl
    rw [push_length (options_ne_nil t), push_commas, List.count_cons_of_ne hc, if_neg hc]
    exact ih

theorem keyValue_append {k : Text} (hk : '=' ∉ k) (v : Text) :
    keyValue (k ++ '=' :: v) = (k, v) := by
  have htake : (k ++ '=' :: v).takeWhile (· != '=') = k := by
    rw [List.takeWhile_append_of_pos fun c hc => by
      simpa using fun h : c = '=' => hk (h ▸ hc)]
    simp
  have hdrop : (k ++ '=' :: v).dropWhile (· != '=') = '=' :: v := by
    rw [List.dropWhile_append_of_pos fun c hc => by
      simpa using fun h : c = '=' => hk (h ▸ hc)]
    simp
  rw [keyValue, htake, hdrop, List.drop_one, List.tail_cons]

theorem keyValue_count (o : Text) : (keyValue o).2.count ',' ≤ o.count ',' := by
  have hsub : (keyValue o).2.Sublist o :=
    (List.drop_sublist 1 _).trans (List.dropWhile_sublist _)
  exact hsub.count_le _

theorem optionValue_mem {text v : Text} {key : String} (h : optionValue text key = some v) :
    ∃ o ∈ options text, keyValue o = (key.toList, v) := by
  have hmem : (key.toList, v) ∈ ((options text).map keyValue).reverse :=
    List.lookup_eq_some_iff.mp h |>.elim fun l₁ h => by
      obtain ⟨l₂, hl, _⟩ := h
      rw [hl]
      simp
  rw [List.mem_reverse, List.mem_map] at hmem
  exact hmem

/-- A text that gives every field has four commas between options, and two more for each
comma of the path. -/
theorem readOptions_commas {text : Text} {b : Backend} (h : readOptions text = some b) :
    4 + 2 * b.memPath.count ',' ≤ text.count ',' := by
  simp only [readOptions, Option.bind_eq_bind, Option.bind_eq_some_iff, Option.some.injEq] at h
  obtain ⟨i, hid, p, hpath, s, ⟨_, hsize, _⟩, a, ⟨_, halign, _⟩, o, ⟨_, hoffset, _⟩, rfl⟩ := h
  obtain ⟨opath, hmem, hkv⟩ := optionValue_mem hpath
  have hcount : p.count ',' ≤ ((options text).map (List.count ',')).sum := by
    have hle := keyValue_count opath
    rw [hkv] at hle
    exact hle.trans (List.single_le_sum (by simp) _ (List.mem_map_of_mem hmem))
  have hkeys : ["id", "mem-path", "size", "align", "offset"].map String.toList ⊆
      (options text).map fun o => (keyValue o).1 := by
    have hkey : ∀ {key v}, optionValue text key = some v →
        key.toList ∈ (options text).map fun o => (keyValue o).1 := by
      intro key v hv
      obtain ⟨o, ho, hkv⟩ := optionValue_mem hv
      exact List.mem_map.mpr ⟨o, ho, by rw [hkv]⟩
    simp only [List.map_cons, List.map_nil, List.cons_subset, List.nil_subset, and_true]
    exact ⟨hkey hid, hkey hpath, hkey hsize, hkey halign, hkey hoffset⟩
  have hfive : 5 ≤ (options text).length := by
    have hnodup : (["id", "mem-path", "size", "align", "offset"].map String.toList).Nodup := by
      decide
    simpa using (hnodup.subperm hkeys).length_le
  have := options_commas text
  dsimp only
  omega

end Ramryder.QemuBackend
