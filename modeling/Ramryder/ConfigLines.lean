import Ramryder.CScan
import Ramryder.PoolConfig

/-! The lines of a configuration file: the words of each line, and when the loader's buffers hold
them. A line is what one `fgets` returns. -/
namespace Ramryder.ConfigLines
open CMachine CScan CText MemoryPool PoolConfig

variable {buffers buffers' : LineBuffers} {pool pool' : Pool} {line text : Text} {lines : List Text}

def fileLines (text : Text) : List Text := (fgetsAll lineSize text.length text).map cString

/-! ### The words of a line -/

def wordOf : Item → Option Text
  | .text t => some t
  | .int _ => none

/-- The first five words of a line. -/
def lineWords (line : Text) : List Text := (sscanf "%s %s %s %s %s" line).filterMap wordOf

theorem scan_lineWords (line : Text) :
    sscanf "%s %s %s %s %s" line = (lineWords line).map .text := by
  have hformat : directives none "%s %s %s %s %s".toList =
      [.str 0, .lit ' ', .str 0, .lit ' ', .str 0, .lit ' ', .str 0, .lit ' ', .str 0] := by rfl
  have hwords : ∀ item ∈ sscanf "%s %s %s %s %s" line, ∃ w, item = .text w := by
    rw [sscanf, hformat]
    exact scan_words (by simp) line
  rw [lineWords]
  generalize sscanf "%s %s %s %s %s" line = items at hwords
  induction items with
  | nil => rfl
  | cons item items ih =>
    obtain ⟨w, rfl⟩ := hwords item List.mem_cons_self
    have hrest := ih fun e he => hwords e (List.mem_cons_of_mem _ he)
    rw [List.filterMap_cons, wordOf, List.map_cons, ← hrest]

/-- The directives that store something. -/
def converts : Directive → Bool
  | .lit _ => false
  | .int _ | .str _ | .line => true

theorem scan_length_le (ds : List Directive) (t : Text) :
    (scan ds t).length ≤ ds.countP converts := by
  induction ds generalizing t with
  | nil => exact le_rfl
  | cons d ds ih =>
    cases d with
    | lit c =>
      rw [scan, List.countP_cons_of_neg (by simp [converts])]
      split
      · exact Nat.zero_le _
      · exact ih _
    | int w =>
      rw [scan, List.countP_cons_of_pos rfl]
      split
      · exact Nat.zero_le _
      · exact Nat.succ_le_succ (ih _)
    | str w =>
      rw [scan, List.countP_cons_of_pos rfl]
      split_ifs
      · exact Nat.zero_le _
      · exact Nat.succ_le_succ (ih _)
    | line =>
      rw [scan, List.countP_cons_of_pos rfl]
      split_ifs
      · exact Nat.zero_le _
      · exact Nat.succ_le_succ (ih _)

theorem lineWords_length (line : Text) : (lineWords line).length ≤ 5 := by
  have hscan : (sscanf "%s %s %s %s %s" line).length ≤ 5 := scan_length_le _ line
  rwa [scan_lineWords, List.length_map] at hscan

theorem lineWords_noSpace {w : Text} (h : w ∈ lineWords line) : ∀ c ∈ w, isSpace c = false := by
  have hscan : ∀ (ds : List Directive) (t : Text), Item.text w ∈ scan ds t →
      (∀ d ∈ ds, d = .lit ' ' ∨ d = .str 0) → ∀ c ∈ w, isSpace c = false := by
    intro ds
    induction ds with
    | nil =>
      intro t hw
      cases hw
    | cons d ds ih =>
      intro t hw hds
      have hrest := fun t ht => ih t ht fun e he => hds e (List.mem_cons_of_mem d he)
      rcases hds d List.mem_cons_self with rfl | rfl
      · rw [scan] at hw
        split at hw
        · cases hw
        · exact hrest _ hw
      · rw [scan] at hw
        split_ifs at hw
        · cases hw
        · rcases List.mem_cons.mp hw with heq | hw
          · rw [Item.text.inj heq]
            exact fun c hc => scanWord_word hc
          · exact hrest _ hw
  have hformat : directives none "%s %s %s %s %s".toList =
      [.str 0, .lit ' ', .str 0, .lit ' ', .str 0, .lit ' ', .str 0, .lit ' ', .str 0] := by rfl
  have hmem : Item.text w ∈ sscanf "%s %s %s %s %s" line := by
    rw [scan_lineWords]
    exact List.mem_map_of_mem h
  rw [sscanf, hformat] at hmem
  exact hscan _ _ hmem (by simp)

/-! ### The scan buffers -/

/-- Every word of a line is shorter than the buffer it is scanned into. -/
def WordsFit (line : Text) : Prop :=
  (∀ w ∈ (lineWords line).head?, w.length < keySize) ∧
    ∀ w ∈ (lineWords line).tail, w.length < valueSize

theorem wordsFit_iff : WordsFit line ↔
    (∀ w ∈ (lineWords line)[0]?, w.length < keySize) ∧
      (∀ w ∈ (lineWords line)[1]?, w.length < valueSize) ∧
      (∀ w ∈ (lineWords line)[2]?, w.length < valueSize) ∧
      (∀ w ∈ (lineWords line)[3]?, w.length < valueSize) ∧
      ∀ w ∈ (lineWords line)[4]?, w.length < valueSize := by
  have hlen := lineWords_length line
  unfold WordsFit
  generalize lineWords line = ws at hlen
  rcases ws with _ | ⟨w₀, _ | ⟨w₁, _ | ⟨w₂, _ | ⟨w₃, _ | ⟨w₄, _ | ⟨w₅, ws⟩⟩⟩⟩⟩⟩
  case cons.cons.cons.cons.cons.cons =>
    simp only [List.length_cons] at hlen
    omega
  all_goals simp

theorem storeWord_word {size i : ℕ} {old t : Text} {ws : List Text} :
    storeWord size old (ws.map Item.text)[i]? = .ok t ↔
      (∀ w ∈ ws[i]?, w.length < size) ∧ t = ws[i]?.getD old := by
  rw [List.getElem?_map]
  cases ws[i]? with
  | none => simp [storeWord, eq_comm]
  | some w => simpa using storeWord_text

/-- A line is scanned where its words fit: each buffer holds the line's own word, or what it held
before. -/
theorem scanLine_iff {count : ℕ} : scanLine buffers line = .ok (count, buffers') ↔
    WordsFit line ∧ count = (lineWords line).length ∧ buffers' =
      ⟨(lineWords line)[0]?.getD buffers.key, (lineWords line)[1]?.getD buffers.value1,
        (lineWords line)[2]?.getD buffers.value2, (lineWords line)[3]?.getD buffers.value3,
        (lineWords line)[4]?.getD buffers.value4⟩ := by
  unfold scanLine
  rw [scan_lineWords, wordsFit_iff]
  simp only [bind_eq_ok, storeWord_word, List.length_map]
  constructor
  · rintro ⟨_, ⟨h₀, rfl⟩, _, ⟨h₁, rfl⟩, _, ⟨h₂, rfl⟩, _, ⟨h₃, rfl⟩, _, ⟨h₄, rfl⟩, h⟩
    cases h
    exact ⟨⟨h₀, h₁, h₂, h₃, h₄⟩, rfl, rfl⟩
  · rintro ⟨⟨h₀, h₁, h₂, h₃, h₄⟩, rfl, rfl⟩
    exact ⟨_, ⟨h₀, rfl⟩, _, ⟨h₁, rfl⟩, _, ⟨h₂, rfl⟩, _, ⟨h₃, rfl⟩, _, ⟨h₄, rfl⟩, rfl⟩

/-- Where two words are read, the key is the line's own first word. -/
theorem key_own {w : Text} {ws : List Text} (hwords : lineWords line = w :: ws) {count : ℕ}
    (h : scanLine buffers line = .ok (count, buffers')) : buffers'.key = w := by
  rw [(scanLine_iff.mp h).2.2, hwords]
  rfl

/-! ### The device path -/

def IsDevLine (line : Text) : Prop :=
  isSectionOrComment line = false ∧ (lineWords line).head? = some "dev".toList

instance decidableIsDevLine (line : Text) : Decidable (IsDevLine line) :=
  inferInstanceAs (Decidable (_ ∧ _))

/-- The text behind the name of a field. -/
def fieldText (name : String) (word : Text) : Option Text :=
  if name.toList <+: word ∧ word.drop name.toList.length ≠ [] then
    some (word.drop name.toList.length)
  else none

/-- Literals and one conversion: the name has to be there, the conversion gets the rest. -/
theorem scan_name {name : Text} (hname : ∀ c ∈ name, isSpace c = false) (ds : List Directive)
    (word : Text) : scan (name.map .lit ++ ds) word =
      if name <+: word then scan ds (word.drop name.length) else [] := by
  induction name generalizing word with
  | nil => simp
  | cons c name ih =>
    have hc : ¬ isSpace c = true := by simp [hname c List.mem_cons_self]
    rw [List.map_cons, List.cons_append, scan]
    cases word with
    | nil =>
      rw [matchLit, if_neg hc, if_neg (by simp)]
    | cons x word =>
      rw [matchLit, if_neg hc]
      by_cases hx : x = c
      · subst hx
        rw [if_pos rfl]
        dsimp only
        rw [ih fun d hd => hname d (List.mem_cons_of_mem x hd)]
        simp only [List.cons_prefix_cons, true_and, List.length_cons, List.drop_succ_cons]
      · rw [if_neg hx, if_neg fun h => hx (List.cons_prefix_cons.mp h).1.symm]

/-- A path is the text behind its name. -/
theorem scan_pathField {word : Text} (hword : ∀ c ∈ word, isSpace c = false)
    (hlen : word.length < valueSize) :
    sscanf "path=%255s" word = ((fieldText "path=" word).map Item.text).toList := by
  have hformat : directives none "path=%255s".toList =
      "path=".toList.map .lit ++ [.str 255] := by rfl
  rw [sscanf, hformat, scan_name (by simp [isSpace]), fieldText]
  by_cases hstarts : "path=".toList <+: word
  · have hrest : ∀ c ∈ word.drop "path=".toList.length, isSpace c = false :=
      fun c hc => hword c (List.mem_of_mem_drop hc)
    have hshort : (word.drop "path=".toList.length).length ≤ 255 := by
      rw [valueSize] at hlen
      rw [List.length_drop]
      omega
    rw [if_pos hstarts]
    generalize word.drop "path=".toList.length = rest at hrest hshort
    by_cases hempty : rest = []
    · subst hempty
      rw [if_neg fun h => h.2 rfl]
      rfl
    · have hscanned : scanWord 255 rest = (rest, []) := by
        have hscan := @scanWord_append [] 255 rest hrest hshort hempty (by simp)
        rwa [List.append_nil] at hscan
      rw [if_pos ⟨hstarts, hempty⟩, scan, hscanned]
      dsimp only
      rw [if_neg hempty]
      rfl
  · rw [if_neg hstarts, if_neg fun h => hstarts h.1]
    rfl

/-- The path that a line names. -/
def namedPath (line : Text) : Option Text := (lineWords line)[1]?.bind (fieldText "path=")

/-- The words of a line fit the scan buffers, and the path of a device line fits `dev_path`. -/
structure LineFits (line : Text) : Prop where
  words : WordsFit line
  path : IsDevLine line → ∀ path, namedPath line = some path → path.length < devPathLen

/-- No line of the file overruns a buffer of the loader. -/
def FitsBuffers (text : Text) : Prop :=
  ∀ line ∈ fileLines text, isSectionOrComment line = false → LineFits line

/-! ### Lines that are read -/

/-- A line of two words or more, scanned: the key and the path are its own. -/
theorem scanLine_device {count : ℕ} (hscan : scanLine buffers line = .ok (count, buffers'))
    (hlong : 2 ≤ count) : (lineWords line).head? = some buffers'.key ∧
      ∀ path, sscanf "path=%255s" buffers'.value1 = [.text path] ↔ namedPath line = some path := by
  obtain ⟨hwords, rfl, rfl⟩ := scanLine_iff.mp hscan
  have hnoSpace := @lineWords_noSpace line
  have hfits := (wordsFit_iff.mp hwords).2.1
  rw [namedPath]
  match hline : lineWords line with
  | [] | [_] =>
    rw [hline] at hlong
    simp at hlong
  | key :: value :: rest =>
    rw [hline] at hnoSpace hfits
    refine ⟨rfl, fun path => ?_⟩
    have hpath : sscanf "path=%255s" value = ((fieldText "path=" value).map Item.text).toList :=
      scan_pathField (hnoSpace (by simp)) (hfits value rfl)
    change sscanf "path=%255s" value = _ ↔ fieldText "path=" value = _
    rw [hpath]
    cases fieldText "path=" value with
    | none => simp
    | some path' => simp

theorem namedPath_length {path : Text} (h : namedPath line = some path) :
    2 ≤ (lineWords line).length := by
  obtain ⟨word, hword, _⟩ := Option.bind_eq_some_iff.mp h
  exact (List.getElem?_eq_some_iff.mp hword).1

theorem isDevLine_iff {count : ℕ} (hread : isSectionOrComment line = false)
    (hscan : scanLine buffers line = .ok (count, buffers')) (hlong : 2 ≤ count) :
    IsDevLine line ↔ buffers'.key = "dev".toList := by
  rw [IsDevLine, (scanLine_device hscan hlong).1, Option.some.injEq]
  exact and_iff_right hread

theorem parseDev_fits {path : Text} {res : Option MemoryDaxDev} (h : parseDev buffers = .ok res)
    (hpath : sscanf "path=%255s" buffers.value1 = [.text path]) : path.length < devPathLen := by
  unfold parseDev at h
  rw [hpath] at h
  by_contra hover
  simp only [if_neg hover] at h
  cases h

/-- A line that is read fits the buffers. -/
theorem loadLine_fits (h : loadLine buffers pool line = .ok (some (buffers', pool')))
    (hread : isSectionOrComment line = false) : LineFits line := by
  cases loadLine_read h with
  | skipped hskip =>
    rw [hread] at hskip
    cases hskip
  | short _ hscan hshort =>
    obtain ⟨hwords, hcount, _⟩ := scanLine_iff.mp hscan
    exact ⟨hwords, fun _ _ hpath => absurd (namedPath_length hpath) (not_le.mpr (hcount ▸ hshort))⟩
  | segmentSize _ hscan hlong hkey =>
    refine ⟨(scanLine_iff.mp hscan).1, fun hdev => ?_⟩
    rw [isDevLine_iff hread hscan hlong, hkey] at hdev
    exact absurd hdev (by decide)
  | dev _ hscan hlong _ _ hparse =>
    exact ⟨(scanLine_iff.mp hscan).1, fun _ path hpath =>
      parseDev_fits hparse (((scanLine_device hscan hlong).2 path).mpr hpath)⟩
  | other _ hscan hlong _ hother =>
    exact ⟨(scanLine_iff.mp hscan).1, fun hdev => absurd ((isDevLine_iff hread hscan hlong).mp hdev) hother⟩

theorem parseDev_total (h : ∀ path, sscanf "path=%255s" buffers.value1 = [.text path] →
    path.length < devPathLen) : ∃ res, parseDev buffers = .ok res := by
  unfold parseDev
  split
  · rename_i path hpath
    rw [if_pos (h path hpath)]
    split
    · exact ⟨_, rfl⟩
    · exact ⟨_, rfl⟩
  · exact ⟨_, rfl⟩

/-- A line that fits is read, whatever it is taken for. -/
theorem loadLine_total (hfits : isSectionOrComment line = false → LineFits line) :
    ∃ res, loadLine buffers pool line = .ok res := by
  unfold loadLine
  split
  · exact ⟨_, rfl⟩
  rename_i hread
  have hline := hfits (by simpa using hread)
  obtain ⟨scanned, hscan⟩ : ∃ scanned,
      scanLine buffers line = .ok ((lineWords line).length, scanned) :=
    ⟨_, scanLine_iff.mpr ⟨hline.words, rfl, rfl⟩⟩
  rw [hscan, ok_bind]
  dsimp only
  split
  · exact ⟨_, rfl⟩
  rename_i hlong
  obtain ⟨hkey, hfield⟩ := scanLine_device hscan (not_lt.mp hlong)
  split
  · split
    · exact ⟨_, rfl⟩
    · exact ⟨_, rfl⟩
  split
  · rename_i hdev
    split
    · exact ⟨_, rfl⟩
    obtain ⟨res, hparse⟩ := @parseDev_total scanned fun path hpath =>
      hline.path ⟨by simpa using hread, hkey.trans (congrArg some hdev)⟩ path ((hfield path).mp hpath)
    rw [hparse, ok_bind]
    cases res with
    | none => exact ⟨_, rfl⟩
    | some dev =>
      dsimp only
      split
      · exact ⟨_, rfl⟩
      · exact ⟨_, rfl⟩
  · exact ⟨_, rfl⟩

theorem loadLines_fits (h : loadLines buffers pool lines = .ok (some pool')) :
    ∀ line ∈ lines.map cString, isSectionOrComment line = false → LineFits line := by
  induction lines generalizing buffers pool with
  | nil => nofun
  | cons line lines ih =>
    rw [loadLines] at h
    obtain ⟨res, hline, h⟩ := bind_eq_ok.mp h
    cases res with
    | none => cases h
    | some next =>
      rw [List.map_cons, List.forall_mem_cons]
      exact ⟨loadLine_fits hline, ih h⟩

theorem loadLines_total
    (h : ∀ line ∈ lines.map cString, isSectionOrComment line = false → LineFits line) :
    ∃ res, loadLines buffers pool lines = .ok res := by
  induction lines generalizing buffers pool with
  | nil => exact ⟨_, rfl⟩
  | cons line lines ih =>
    rw [List.map_cons, List.forall_mem_cons] at h
    obtain ⟨res, hline⟩ := @loadLine_total buffers pool _ h.1
    rw [loadLines, hline, ok_bind]
    cases res with
    | none => exact ⟨_, rfl⟩
    | some next => exact ih h.2

/-- A file that is not rejected is read to its end just when no line overruns a buffer. -/
theorem load_fits_iff {stack : LineBuffers}
    (hread : memoryPoolLoadConfig stack (some text) ≠ .ok none) :
    (∃ pool, memoryPoolLoadConfig stack (some text) = .ok (some pool)) ↔ FitsBuffers text := by
  constructor
  · rintro ⟨pool, hload⟩
    exact loadLines_fits hload
  · intro hfits
    obtain ⟨res, hload⟩ : ∃ res, memoryPoolLoadConfig stack (some text) = .ok res :=
      loadLines_total hfits
    cases res with
    | none => exact absurd hload hread
    | some pool => exact ⟨pool, hload⟩

end Ramryder.ConfigLines
