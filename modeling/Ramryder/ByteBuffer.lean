import Ramryder.CMachine

/-! Character arrays of a fixed size: bytes are written at their start, a terminator is set behind
them, and they are read as strings up to the first NUL, which has to be inside. -/
namespace Ramryder.ByteBuffer
open CMachine CText

structure Buffer (size : ℕ) where
  bytes : Text
  length_bytes : bytes.length = size

variable {size : ℕ} {data : Text} {buffer buffer' : Buffer size}

/-- An array that `memset` has cleared. -/
def zeroed (size : ℕ) : Buffer size := ⟨List.replicate size '\x00', List.length_replicate⟩

/-- Writes the data over the start of the array. -/
def write (buffer : Buffer size) (data : Text) : Outcome (Buffer size) :=
  if h : data.length ≤ size then
    .ok ⟨data ++ buffer.bytes.drop data.length, by
      rw [List.length_append, List.length_drop, buffer.length_bytes]
      omega⟩
  else .error .bufferOverflow

/-- `buffer[i] = '\0'` -/
def terminate (buffer : Buffer size) (i : ℕ) : Outcome (Buffer size) :=
  if i < size then
    .ok ⟨buffer.bytes.set i '\x00', by rw [List.length_set, buffer.length_bytes]⟩
  else .error .bufferOverflow

/-- Writes a string with its terminator. -/
def writeString (buffer : Buffer size) (t : Text) : Outcome (Buffer size) :=
  write buffer (t ++ ['\x00'])

/-- What a string function reads from the array. -/
def asString (buffer : Buffer size) : Outcome Text :=
  if '\x00' ∈ buffer.bytes then .ok (cString buffer.bytes) else .error .bufferOverread

theorem cString_append_nul (data rest : Text) : cString (data ++ '\x00' :: rest) = cString data := by
  induction data with
  | nil => rfl
  | cons c data ih =>
    unfold cString at ih ⊢
    rw [List.cons_append]
    by_cases hc : c = '\x00'
    · rw [hc, List.takeWhile_cons_of_neg (by decide), List.takeWhile_cons_of_neg (by decide)]
    · rw [List.takeWhile_cons_of_pos (by simpa using hc), ih,
        List.takeWhile_cons_of_pos (by simpa using hc)]

theorem cString_of_noNul (h : '\x00' ∉ data) : cString data = data := by
  rw [cString, List.takeWhile_eq_self_iff]
  intro c hc
  simpa using ne_of_mem_of_not_mem hc h

theorem write_fits (h : data.length ≤ size) (buffer : Buffer size) :
    ∃ buffer', write buffer data = .ok buffer' ∧
      buffer'.bytes = data ++ buffer.bytes.drop data.length :=
  ⟨_, dif_pos h, rfl⟩

theorem write_eq_ok (h : write buffer data = .ok buffer') :
    data.length ≤ size ∧ buffer'.bytes = data ++ buffer.bytes.drop data.length := by
  unfold write at h
  split_ifs at h with hfits
  cases h
  exact ⟨hfits, rfl⟩

theorem terminate_fits {i : ℕ} (h : i < size) (buffer : Buffer size) :
    ∃ buffer', terminate buffer i = .ok buffer' ∧ buffer'.bytes = buffer.bytes.set i '\x00' :=
  ⟨_, if_pos h, rfl⟩

theorem terminate_overflow {i : ℕ} (h : ¬ i < size) (buffer : Buffer size) :
    terminate buffer i = .error .bufferOverflow := if_neg h

/-- Data that leaves room for its terminator is the string that is read. -/
theorem terminate_string (hfits : data.length < size)
    (hbytes : buffer.bytes = data ++ buffer'.bytes.drop data.length) :
    ∃ terminated, terminate buffer data.length = .ok terminated ∧
      asString terminated = .ok (cString data) := by
  obtain ⟨terminated, hterminated, hset⟩ := terminate_fits hfits buffer
  have hrest : buffer'.bytes.drop data.length ≠ [] := by
    rw [← List.length_pos_iff, List.length_drop, buffer'.length_bytes]
    omega
  obtain ⟨c, rest, hcons⟩ := List.exists_cons_of_ne_nil hrest
  have hall : terminated.bytes = data ++ '\x00' :: rest := by
    rw [hset, hbytes, hcons, List.set_append_right _ _ le_rfl, Nat.sub_self, List.set_cons_zero]
  refine ⟨terminated, hterminated, ?_⟩
  rw [asString, hall, if_pos (by simp), cString_append_nul]

theorem asString_isOk : (∃ t, asString buffer = .ok t) ↔ '\x00' ∈ buffer.bytes := by
  unfold asString
  split_ifs with h
  · simp [h]
  · simp [h]

/-- Data in a cleared array is terminated by what is left of it. -/
theorem asString_zeroed (h : write (zeroed size) data = .ok buffer) :
    asString buffer =
      if (cString data).length < size then .ok (cString data) else .error .bufferOverread := by
  obtain ⟨hfits, hbytes⟩ := write_eq_ok h
  rw [asString, hbytes, zeroed, List.drop_replicate]
  rcases hfits.lt_or_eq with hlt | heq
  · obtain ⟨k, hk⟩ : ∃ k, size - data.length = k + 1 := ⟨size - data.length - 1, by omega⟩
    have hshort : (cString data).length < size :=
      (List.takeWhile_sublist _).length_le.trans_lt hlt
    rw [hk, List.replicate_succ, if_pos (by simp), cString_append_nul, if_pos hshort]
  · rw [heq, Nat.sub_self, List.replicate_zero, List.append_nil]
    by_cases hnul : '\x00' ∈ data
    · have hshort : (cString data).length < data.length := by
        refine lt_of_le_of_ne (List.takeWhile_sublist _).length_le fun hlen => ?_
        have hself : cString data = data :=
          (List.takeWhile_sublist _).eq_of_length hlen
        have hmem : '\x00' ∈ cString data := by
          rw [hself]
          exact hnul
        simpa using List.mem_takeWhile_imp hmem
      rw [if_pos hnul, if_pos (heq ▸ hshort)]
    · rw [if_neg hnul, cString_of_noNul hnul, if_neg heq.not_lt]

end Ramryder.ByteBuffer
