import Mathlib

/-! The regions that `check_channel_boundary.sh` suggests for `memmap=`. They are added up in bytes,
in the 64-bit numbers of the shell, and then cut down to whole gigabytes. -/
namespace Ramryder.ChannelBoundary

def gigabyte : ℤ := 1073741824

/-- A result of shell arithmetic, which keeps the low 64 bits. -/
def toInt64 (n : ℤ) : ℤ := (n + 9223372036854775808) % 18446744073709551616 - 9223372036854775808

/-- The shell divides towards zero. -/
def bytesToGbInt (bytes : ℤ) : ℤ := ((bytes.tdiv 1024).tdiv 1024).tdiv 1024

structure Channel where
  sizeBytes : ℤ
  pos : 0 < sizeBytes

/-- `memmap=<size>G!<start>G` -/
structure Memmap where
  sizeGb : ℤ
  startGb : ℤ
  deriving DecidableEq, Repr

def osHeadroomBytes (osHeadroomGb : ℕ) : ℤ :=
  toInt64 (toInt64 (toInt64 (osHeadroomGb * 1024) * 1024) * 1024)

/-- The loop over the channels, from the index and the bytes before it. -/
def boundaryLoop (holeBytes headroomBytes : ℤ) : ℕ → ℤ → List Channel → List Memmap
  | _, _, [] => []
  | idx, prevCum, channel :: rest =>
    let cumBytes := toInt64 (prevCum + channel.sizeBytes)
    let boundaryBytes := toInt64 (holeBytes + cumBytes)
    let startBytes := toInt64 (holeBytes + prevCum)
    let memmapArg :=
      if idx = 0 then
        let reserveSizeBytes := toInt64 (channel.sizeBytes - headroomBytes)
        let reserveStartBytes := toInt64 (boundaryBytes - reserveSizeBytes)
        ⟨bytesToGbInt reserveSizeBytes, bytesToGbInt reserveStartBytes⟩
      else ⟨bytesToGbInt (toInt64 channel.sizeBytes), bytesToGbInt startBytes⟩
    memmapArg :: boundaryLoop holeBytes headroomBytes (idx + 1) cumBytes rest

def suggestions (holeBytes : ℤ) (osHeadroomGb : ℕ) (channels : List Channel) : List Memmap :=
  boundaryLoop holeBytes (osHeadroomBytes osHeadroomGb) 0 0 channels

/-! ### Regions and ranges -/

def Memmap.startBytes (m : Memmap) : ℤ := m.startGb * gigabyte

def Memmap.endBytes (m : Memmap) : ℤ := (m.startGb + m.sizeGb) * gigabyte

/-- The address ranges of the channels: first byte, and the byte behind the last. -/
def ranges : ℤ → List Channel → List (ℤ × ℤ)
  | _, [] => []
  | start, channel :: rest =>
    (start, start + channel.sizeBytes) :: ranges (start + channel.sizeBytes) rest

def Inside (m : Memmap) (range : ℤ × ℤ) : Prop := range.1 ≤ m.startBytes ∧ m.endBytes ≤ range.2

/-- Every region lies in the range of its channel, the first one behind the headroom. -/
structure KeepsBoundaries (holeBytes : ℤ) (osHeadroomGb : ℕ) (channels : List Channel) : Prop where
  inside : List.Forall₂ Inside (suggestions holeBytes osHeadroomGb channels)
    (ranges holeBytes channels)
  headroom : ∀ m ∈ (suggestions holeBytes osHeadroomGb channels).head?,
    holeBytes + osHeadroomGb * gigabyte ≤ m.startBytes

/-! ### Numbers of the shell -/

theorem toInt64_add_left (a b : ℤ) : toInt64 (toInt64 a + b) = toInt64 (a + b) := by
  unfold toInt64
  omega

theorem toInt64_add_right (a b : ℤ) : toInt64 (a + toInt64 b) = toInt64 (a + b) := by
  unfold toInt64
  omega

theorem toInt64_sub (a b : ℤ) : toInt64 (toInt64 a - toInt64 b) = toInt64 (a - b) := by
  unfold toInt64
  omega

theorem tdiv_1024 (n : ℤ) : n.tdiv 1024 = if 0 ≤ n then n / 1024 else -(-n / 1024) := by
  split_ifs with h
  · exact Int.tdiv_eq_ediv_of_nonneg h
  · rw [← Int.tdiv_eq_ediv_of_nonneg (by omega), Int.neg_tdiv, neg_neg]

/-- Whole gigabytes, towards zero. -/
theorem bytesToGbInt_eq (n : ℤ) :
    bytesToGbInt n = if 0 ≤ n then n / gigabyte else -(-n / gigabyte) := by
  simp only [bytesToGbInt, tdiv_1024, gigabyte]
  split_ifs <;> omega

theorem osHeadroomBytes_eq (osHeadroomGb : ℕ) :
    osHeadroomBytes osHeadroomGb = toInt64 (osHeadroomGb * gigabyte) := by
  unfold osHeadroomBytes toInt64 gigabyte
  omega

/-- The start that is printed is not in front of the true one just where that is a whole number of
gigabytes that the shell can hold. -/
theorem start_kept_iff {start : ℤ} (hstart : 0 ≤ start) :
    start ≤ bytesToGbInt (toInt64 start) * gigabyte ↔
      gigabyte ∣ start ∧ start < 9223372036854775808 := by
  rw [bytesToGbInt_eq, Int.dvd_iff_emod_eq_zero]
  unfold toInt64 gigabyte
  split_ifs <;> omega

/-- What is printed is never more than the true number. -/
theorem printed_le {bytes : ℤ} (hbytes : 0 ≤ bytes) :
    bytesToGbInt (toInt64 bytes) * gigabyte ≤ bytes := by
  rw [bytesToGbInt_eq]
  unfold toInt64 gigabyte
  split_ifs <;> omega

/-! ### The loop -/

variable {holeBytes headroomBytes cum : ℤ} {idx osHeadroomGb : ℕ} {first : Channel}
  {channels : List Channel}

/-- A channel behind the first: its region is inside just where it starts at a whole gigabyte. -/
theorem later_inside_iff {start size : ℤ} (hstart : 0 ≤ start) (hsize : 0 ≤ size) :
    Inside ⟨bytesToGbInt (toInt64 size), bytesToGbInt (toInt64 start)⟩ (start, start + size) ↔
      gigabyte ∣ start ∧ start < 9223372036854775808 := by
  rw [← start_kept_iff hstart]
  have hsmaller := printed_le hsize
  have hearlier := printed_le hstart
  simp only [Inside, Memmap.startBytes, Memmap.endBytes, add_mul]
  exact ⟨fun h => h.1, fun h => ⟨h, add_le_add hearlier hsmaller⟩⟩

/-- The channels behind the first, by the step above and induction on what is left of the list; the
bytes before it are known up to the wrap. -/
theorem boundaryLoop_inside_iff (hidx : idx ≠ 0) (hstart : 0 ≤ holeBytes + cum) :
    List.Forall₂ Inside (boundaryLoop holeBytes headroomBytes idx (toInt64 cum) channels)
        (ranges (holeBytes + cum) channels) ↔
      ∀ range ∈ ranges (holeBytes + cum) channels,
        gigabyte ∣ range.1 ∧ range.1 < 9223372036854775808 := by
  induction channels generalizing idx cum with
  | nil => simp [boundaryLoop, ranges]
  | cons channel rest ih =>
    have hpos := channel.pos
    have hnext := @ih (cum + channel.sizeBytes) (idx + 1) (by omega) (by omega)
    rw [← add_assoc] at hnext
    rw [boundaryLoop, ranges]
    dsimp only
    rw [if_neg hidx, toInt64_add_left, toInt64_add_right, List.forall₂_cons,
      List.forall_mem_cons, later_inside_iff hstart hpos.le, hnext]

/-- What is reserved of the first channel: its bytes behind the headroom. -/
theorem suggestions_cons (holeBytes : ℤ) (osHeadroomGb : ℕ) (first : Channel)
    (channels : List Channel) :
    suggestions holeBytes osHeadroomGb (first :: channels) =
      ⟨bytesToGbInt (toInt64 (first.sizeBytes - osHeadroomGb * gigabyte)),
        bytesToGbInt (toInt64 (holeBytes + osHeadroomGb * gigabyte))⟩ ::
      boundaryLoop holeBytes (osHeadroomBytes osHeadroomGb) 1 (toInt64 first.sizeBytes) channels := by
  have hsize : toInt64 (first.sizeBytes - osHeadroomBytes osHeadroomGb) =
      toInt64 (first.sizeBytes - osHeadroomGb * gigabyte) := by
    rw [osHeadroomBytes_eq]
    unfold toInt64
    omega
  have hstart : toInt64 (toInt64 (holeBytes + toInt64 first.sizeBytes) -
      toInt64 (first.sizeBytes - osHeadroomGb * gigabyte)) =
        toInt64 (holeBytes + osHeadroomGb * gigabyte) := by
    rw [toInt64_add_right, toInt64_sub]
    congr 1
    ring
  rw [suggestions, boundaryLoop]
  dsimp only
  rw [if_pos rfl, zero_add, hsize, hstart]

/-- The regions keep to their channels just when every channel starts at a whole gigabyte, and the
starts are numbers of the shell. -/
theorem keepsBoundaries_iff (hhole : 0 ≤ holeBytes)
    (hheadroom : osHeadroomGb * gigabyte < first.sizeBytes) :
    KeepsBoundaries holeBytes osHeadroomGb (first :: channels) ↔
      holeBytes + osHeadroomGb * gigabyte < 9223372036854775808 ∧
        ∀ range ∈ ranges holeBytes (first :: channels),
          gigabyte ∣ range.1 ∧ range.1 < 9223372036854775808 := by
  have hpos := first.pos
  have hkept : 0 ≤ osHeadroomGb * gigabyte := by
    unfold gigabyte
    omega
  have hstart := @start_kept_iff (holeBytes + osHeadroomGb * gigabyte) (by omega)
  have hsmaller := @printed_le (first.sizeBytes - osHeadroomGb * gigabyte) (by omega)
  have hearlier := @printed_le (holeBytes + osHeadroomGb * gigabyte) (by omega)
  have hwhole : gigabyte ∣ holeBytes + osHeadroomGb * gigabyte ↔ gigabyte ∣ holeBytes :=
    Int.dvd_add_left (Dvd.intro_left _ rfl)
  have hlater := @boundaryLoop_inside_iff holeBytes (osHeadroomBytes osHeadroomGb)
    first.sizeBytes 1 channels one_ne_zero (by omega)
  have hfirst : Inside ⟨bytesToGbInt (toInt64 (first.sizeBytes - osHeadroomGb * gigabyte)),
        bytesToGbInt (toInt64 (holeBytes + osHeadroomGb * gigabyte))⟩
      (holeBytes, holeBytes + first.sizeBytes) ↔
      holeBytes ≤ bytesToGbInt (toInt64 (holeBytes + osHeadroomGb * gigabyte)) * gigabyte := by
    simp only [Inside, Memmap.startBytes, Memmap.endBytes, add_mul]
    exact ⟨fun h => h.1, fun h => ⟨h, by linarith⟩⟩
  have hcases : KeepsBoundaries holeBytes osHeadroomGb (first :: channels) ↔
      (holeBytes + osHeadroomGb * gigabyte ≤
        bytesToGbInt (toInt64 (holeBytes + osHeadroomGb * gigabyte)) * gigabyte) ∧
      ∀ range ∈ ranges (holeBytes + first.sizeBytes) channels,
        gigabyte ∣ range.1 ∧ range.1 < 9223372036854775808 := by
    rw [← hlater]
    constructor
    · rintro ⟨hinside, hhead⟩
      rw [suggestions_cons] at hinside hhead
      exact ⟨hhead _ rfl, (List.forall₂_cons.mp hinside).2⟩
    · rintro ⟨hhead, hrest⟩
      refine ⟨?_, ?_⟩
      · rw [suggestions_cons]
        exact List.forall₂_cons.mpr ⟨hfirst.mpr (by linarith), hrest⟩
      · rw [suggestions_cons]
        rintro m ⟨⟩
        exact hhead
  rw [hcases, hstart, hwhole, ranges, List.forall_mem_cons]
  dsimp only
  constructor
  · rintro ⟨⟨hdvd, hbound⟩, hrest⟩
    exact ⟨hbound, ⟨hdvd, by omega⟩, hrest⟩
  · rintro ⟨hbound, ⟨hdvd, _⟩, hrest⟩
    exact ⟨⟨hdvd, hbound⟩, hrest⟩

def gbChannel (gb : ℕ) : Channel := ⟨(gb + 1) * gigabyte, by unfold gigabyte; omega⟩

/-- Two channels behind a hole of two gigabytes. -/
theorem keepsBoundaries_iff_whole :
    KeepsBoundaries (2 * gigabyte) 5 [gbChannel 15, gbChannel 15] ↔
      2 * gigabyte + (5 : ℕ) * gigabyte < 9223372036854775808 ∧
        ∀ range ∈ ranges (2 * gigabyte) [gbChannel 15, gbChannel 15],
          gigabyte ∣ range.1 ∧ range.1 < 9223372036854775808 :=
  keepsBoundaries_iff (by decide) (by decide)

/-- A hole of two and a half gigabytes: both regions begin half a gigabyte too early, the second in the
first channel. -/
theorem keepsBoundaries_fails_half :
    suggestions 2684354560 5 [gbChannel 15, gbChannel 15] = [⟨11, 7⟩, ⟨16, 18⟩] ∧
      ranges 2684354560 [gbChannel 15, gbChannel 15] =
        [(2684354560, 19864223744), (19864223744, 37044092928)] ∧
      ¬ KeepsBoundaries 2684354560 5 [gbChannel 15, gbChannel 15] := by
  have hregions : suggestions 2684354560 5 [gbChannel 15, gbChannel 15] = [⟨11, 7⟩, ⟨16, 18⟩] := by
    rfl
  have hranges : ranges 2684354560 [gbChannel 15, gbChannel 15] =
      [(2684354560, 19864223744), (19864223744, 37044092928)] := by rfl
  refine ⟨hregions, hranges, fun hkeeps => ?_⟩
  have hhead := hkeeps.headroom ⟨11, 7⟩ (by rw [hregions]; rfl)
  exact absurd hhead (by decide)

end Ramryder.ChannelBoundary
