import Ramryder.CText

/-! Outcomes of the manager's C code. A call either returns or stops with the
first fault: a failed `BUG_ON`, a trap, or an access or an arithmetic operation
that C leaves undefined. Nothing is claimed about a process past its first fault. -/
namespace Ramryder.CMachine
open CInt CText

/-- The conditions of the source's `BUG_ON` and `assert` checks, by what fails. -/
inductive Check
  | coreSetNonEmpty
  | coreIdNonNegative
  | perfEventFdNonNegative
  | numCoresPositive
  | freeSlotUninitialized
  | startedInitialized
  | numSegmentsPositive
  deriving DecidableEq, Repr

inductive Fault
  | bugOn (check : Check)
  | divisionByZero
  | intOverflow
  | segmentIndex (idx : ℤ)
  | guestAgentIndex (vmId : ℤ)
  | perfEventFds
  | bufferOverflow
  | bufferOverread
  | jsonNotArray
  | outOfFuel
  deriving DecidableEq, Repr

abbrev Outcome := Except Fault

/-- The result of an `int` operation: signed overflow is undefined. -/
def cInt (n : ℤ) : Outcome ℤ := if InInt n then .ok n else .error .intOverflow

def bugOn (check : Check) (violated : Bool) : Outcome Unit :=
  if violated then .error (.bugOn check) else .ok ()

/-- `offset += snprintf(buffer + offset, size - offset, ..)`: the text that fits is kept, the
offset grows by the whole length. Past the end the remaining size wraps to a huge one. -/
def appendf (size : ℕ) (buffer : Text) (offset : ℕ) (text : Text) : Outcome (Text × ℕ) :=
  if offset ≤ size then .ok (buffer ++ text.take (size - offset - 1), offset + text.length)
  else .error .bufferOverflow

variable {ε α β : Type}

theorem bind_eq_ok {x : Except ε α} {f : α → Except ε β} {b : β} :
    x >>= f = .ok b ↔ ∃ a, x = .ok a ∧ f a = .ok b := by
  cases x with
  | error e => simp [Bind.bind, Except.bind]
  | ok a => simp [Bind.bind, Except.bind]

theorem bind_eq_error {x : Except ε α} {f : α → Except ε β} {e : ε} :
    x >>= f = .error e ↔ x = .error e ∨ ∃ a, x = .ok a ∧ f a = .error e := by
  cases x with
  | error e => simp [Bind.bind, Except.bind]
  | ok a => simp [Bind.bind, Except.bind]

@[simp] theorem ok_bind (a : α) (f : α → Except ε β) : (Except.ok a >>= f) = f a := rfl
@[simp] theorem error_bind (e : ε) (f : α → Except ε β) :
    ((Except.error e : Except ε α) >>= f) = .error e := rfl

theorem exists_of_isOk {x : Except ε α} (h : x.isOk = true) : ∃ a, x = .ok a := by
  cases x with
  | error e => cases h
  | ok a => exact ⟨a, rfl⟩

theorem ok_of_toOption {x : Except ε α} {a : α} (h : x.toOption = some a) : x = .ok a := by
  cases x with
  | error e => cases h
  | ok a' => exact congrArg Except.ok (Option.some.inj h)

theorem of_toOption_bind {x : Except ε α} {f : α → Option β} {b : β}
    (h : x.toOption.bind f = some b) : ∃ a, x = .ok a ∧ f a = some b := by
  obtain ⟨a, ha, hf⟩ := Option.bind_eq_some_iff.mp h
  exact ⟨a, ok_of_toOption ha, hf⟩

/-- A computed view of a result gives the result itself. -/
theorem exists_of_view {x : Outcome (Option α)} {f : α → β} {b : β}
    (h : x.toOption.join.map f = some b) : ∃ a, x = .ok (some a) ∧ f a = b := by
  match x, h with
  | .ok (some a), h => exact ⟨a, rfl, Option.some.inj h⟩

theorem map_eq_ok {x : Except ε α} {f : α → β} {b : β} :
    x.map f = .ok b ↔ ∃ a, x = .ok a ∧ f a = b := by
  cases x with
  | error e => simp [Except.map]
  | ok a => simp [Except.map]

theorem map_eq_error {x : Outcome α} {f : α → β} {e : Fault} :
    x.map f = .error e ↔ x = .error e := by
  cases x with
  | error e => simp [Except.map]
  | ok a => simp [Except.map]

@[simp] theorem cInt_eq_ok {n m : ℤ} : cInt n = .ok m ↔ InInt n ∧ n = m := by
  unfold cInt
  split_ifs with h <;> simp [h]

theorem cInt_of_inInt {n : ℤ} (h : InInt n) : cInt n = .ok n := if_pos h

theorem cInt_eq_error {n : ℤ} {e : Fault} (h : cInt n = .error e) : e = .intOverflow := by
  unfold cInt at h
  split_ifs at h with hn
  exact (Except.error.inj h).symm

@[simp] theorem bugOn_eq_ok {check : Check} {violated : Bool} {u : Unit} :
    bugOn check violated = .ok u ↔ violated = false := by
  cases violated <;> simp [bugOn]

theorem bugOn_eq_error {check : Check} {violated : Bool} {e : Fault}
    (h : bugOn check violated = .error e) : e = .bugOn check ∧ violated = true := by
  cases violated with
  | false => simp [bugOn] at h
  | true => exact ⟨(Except.error.inj h).symm, rfl⟩

theorem appendf_eq_error {size offset : ℕ} {buffer text : Text} {e : Fault}
    (h : appendf size buffer offset text = .error e) : e = .bufferOverflow := by
  unfold appendf at h
  split_ifs at h
  exact (Except.error.inj h).symm

end Ramryder.CMachine
