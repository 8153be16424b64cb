import Mathlib

/-! Tail queues threaded through their own elements: a head holds the first element and the
location of the last link, an element holds the next one and the location that points at it.
Every access may meet memory that is not allocated. -/
namespace Ramryder.TailQueue

/-- What holds a link: a head's first field or an element's next field. A head that was never
initialized has a null instead. -/
inductive Loc (κ α : Type*)
  | null
  | head (q : κ)
  | cell (a : α)
  deriving DecidableEq, Repr

structure Head (κ α : Type*) where
  first : Option α
  last : Loc κ α
  deriving DecidableEq, Repr

structure Cell (κ α β : Type*) where
  value : β
  next : Option α
  prev : Loc κ α
  deriving DecidableEq, Repr

/-- Heads are static, elements come and go. -/
structure Memory (κ α β : Type*) where
  heads : κ → Head κ α
  cells : α → Option (Cell κ α β)

variable {κ α β ε σ : Type*}

namespace Memory

def load (m : Memory κ α β) : Loc κ α → Option (Option α)
  | .null => none
  | .head q => some (m.heads q).first
  | .cell a => (m.cells a).map Cell.next

def prev (m : Memory κ α β) (a : α) : Option (Loc κ α) := (m.cells a).map Cell.prev

def value (m : Memory κ α β) (a : α) : Option β := (m.cells a).map Cell.value

def last (m : Memory κ α β) (q : κ) : Loc κ α := (m.heads q).last

def Allocated (m : Memory κ α β) (a : α) : Prop := (m.cells a).isSome

instance decidableAllocated (m : Memory κ α β) : DecidablePred m.Allocated :=
  fun a => inferInstanceAs (Decidable ((m.cells a).isSome = true))

section Views

variable {m m' : Memory κ α β} {a : α}

theorem allocated_iff : m.Allocated a ↔ ∃ c, m.cells a = some c := Option.isSome_iff_exists

theorem allocated_iff_load : m.Allocated a ↔ (m.load (.cell a)).isSome := by
  simp [Allocated, Memory.load]

theorem allocated_iff_value : m.Allocated a ↔ (m.value a).isSome := by
  simp [Allocated, Memory.value]

theorem Allocated.of_value (ha : m.Allocated a) (h : m'.value = m.value) : m'.Allocated a := by
  rw [allocated_iff_value, h]
  exact allocated_iff_value.mp ha

end Views

variable [DecidableEq κ] [DecidableEq α]

def setHead (m : Memory κ α β) (q : κ) (h : Head κ α) : Memory κ α β :=
  { m with heads := Function.update m.heads q h }

def setCell (m : Memory κ α β) (a : α) (c : Option (Cell κ α β)) : Memory κ α β :=
  { m with cells := Function.update m.cells a c }

def store (m : Memory κ α β) (l : Loc κ α) (v : Option α) : Option (Memory κ α β) :=
  match l with
  | .null => none
  | .head q => some (m.setHead q { m.heads q with first := v })
  | .cell a => (m.cells a).map fun c => m.setCell a (some { c with next := v })

def setPrev (m : Memory κ α β) (a : α) (l : Loc κ α) : Option (Memory κ α β) :=
  (m.cells a).map fun c => m.setCell a (some { c with prev := l })

def setValue (m : Memory κ α β) (a : α) (v : β) : Option (Memory κ α β) :=
  (m.cells a).map fun c => m.setCell a (some { c with value := v })

def setLast (m : Memory κ α β) (q : κ) (l : Loc κ α) : Memory κ α β :=
  m.setHead q { m.heads q with last := l }

/-! ### The operations of a queue -/

def init (m : Memory κ α β) (q : κ) : Memory κ α β := m.setHead q ⟨none, .head q⟩

def insertTail (m : Memory κ α β) (q : κ) (a : α) : Option (Memory κ α β) := do
  let m ← m.store (.cell a) none
  let m ← m.setPrev a (m.heads q).last
  let m ← m.store (m.heads q).last (some a)
  some (m.setLast q (.cell a))

/-- The branch of a removal on whether the element is the last one. -/
def relink (m : Memory κ α β) (q : κ) (c : Cell κ α β) : Option (Memory κ α β) :=
  match c.next with
  | some b => m.setPrev b c.prev
  | none => some (m.setLast q c.prev)

def remove (m : Memory κ α β) (q : κ) (a : α) : Option (Memory κ α β) := do
  let c ← m.cells a
  let m ← m.relink q c
  let c ← m.cells a
  m.store c.prev c.next

/-- A loop over the elements from a link on, whose body may break off (`false`) or fail. -/
def foreach (m : Memory κ α β) (body : σ → α → β → Except ε (σ × Bool)) :
    ℕ → Option α → σ → Option (Except ε σ)
  | _, none, s => some (.ok s)
  | 0, some _, _ => none
  | n+1, some a, s =>
    (m.cells a).bind fun c =>
      match body s a c.value with
      | .error e => some (.error e)
      | .ok (s, false) => some (.ok s)
      | .ok (s, true) => foreach m body n c.next s

def alloc (m : Memory κ α β) (a : α) (c : Cell κ α β) : Memory κ α β := m.setCell a (some c)

def free (m : Memory κ α β) (a : α) : Option (Memory κ α β) :=
  (m.cells a).map fun _ => m.setCell a none

/-! ### What each access changes -/

/-- The second memory is the first one with these links, back links, last links and values. -/
structure Reads (m : Memory κ α β) (load : Loc κ α → Option (Option α))
    (prev : α → Option (Loc κ α)) (last : κ → Loc κ α) (value : α → Option β) : Prop where
  load : m.load = load
  prev : m.prev = prev
  last : m.last = last
  value : m.value = value

variable {m : Memory κ α β} {l : Loc κ α} {a : α} {q : κ}

theorem load_setCell (m : Memory κ α β) (a : α) (c : Option (Cell κ α β)) :
    (m.setCell a c).load = Function.update m.load (.cell a) (c.map Cell.next) := by
  funext l
  cases l with
  | null => simp [Memory.load]
  | head q => simp [Memory.load, setCell]
  | cell b =>
    by_cases h : b = a
    · subst h
      simp [Memory.load, setCell]
    · simp [Memory.load, setCell, h]

omit [DecidableEq κ] in
theorem prev_setCell (m : Memory κ α β) (a : α) (c : Option (Cell κ α β)) :
    (m.setCell a c).prev = Function.update m.prev a (c.map Cell.prev) := by
  funext b
  by_cases h : b = a
  · subst h
    simp [Memory.prev, setCell]
  · simp [Memory.prev, setCell, h]

omit [DecidableEq κ] in
theorem value_setCell (m : Memory κ α β) (a : α) (c : Option (Cell κ α β)) :
    (m.setCell a c).value = Function.update m.value a (c.map Cell.value) := by
  funext b
  by_cases h : b = a
  · subst h
    simp [Memory.value, setCell]
  · simp [Memory.value, setCell, h]

theorem load_setHead (m : Memory κ α β) (q : κ) (h : Head κ α) :
    (m.setHead q h).load = Function.update m.load (.head q) (some h.first) := by
  funext l
  cases l with
  | null => simp [Memory.load]
  | cell a => simp [Memory.load, setHead]
  | head r =>
    by_cases hr : r = q
    · subst hr
      simp [Memory.load, setHead]
    · simp [Memory.load, setHead, hr]

omit [DecidableEq α] in
theorem last_setHead (m : Memory κ α β) (q : κ) (h : Head κ α) :
    (m.setHead q h).last = Function.update m.last q h.last := by
  funext r
  by_cases hr : r = q
  · subst hr
    simp [Memory.last, setHead]
  · simp [Memory.last, setHead, hr]

theorem store_reads (h : (m.load l).isSome) (v : Option α) :
    ∃ m', m.store l v = some m' ∧
      m'.Reads (Function.update m.load l (some v)) m.prev m.last m.value := by
  cases l with
  | null => cases h
  | head q =>
    refine ⟨_, rfl, ?_, rfl, ?_, rfl⟩
    · rw [load_setHead]
    · rw [last_setHead]
      exact Function.update_eq_self q m.last
  | cell a =>
    obtain ⟨c, hc⟩ := allocated_iff.mp (allocated_iff_load.mpr h)
    refine ⟨m.setCell a (some { c with next := v }), by rw [store, hc, Option.map_some], ?_, ?_, rfl, ?_⟩
    · rw [load_setCell]
      rfl
    · rw [prev_setCell]
      exact Function.update_eq_self_iff.mpr (by simp [Memory.prev, hc])
    · rw [value_setCell]
      exact Function.update_eq_self_iff.mpr (by simp [Memory.value, hc])

theorem setPrev_reads (h : m.Allocated a) (l : Loc κ α) :
    ∃ m', m.setPrev a l = some m' ∧
      m'.Reads m.load (Function.update m.prev a (some l)) m.last m.value := by
  obtain ⟨c, hc⟩ := allocated_iff.mp h
  refine ⟨m.setCell a (some { c with prev := l }), by rw [setPrev, hc, Option.map_some], ?_, ?_, rfl, ?_⟩
  · rw [load_setCell]
    exact Function.update_eq_self_iff.mpr (by simp [Memory.load, hc])
  · rw [prev_setCell]
    rfl
  · rw [value_setCell]
    exact Function.update_eq_self_iff.mpr (by simp [Memory.value, hc])

theorem setValue_reads (h : m.Allocated a) (v : β) :
    ∃ m', m.setValue a v = some m' ∧
      m'.Reads m.load m.prev m.last (Function.update m.value a (some v)) := by
  obtain ⟨c, hc⟩ := allocated_iff.mp h
  refine ⟨m.setCell a (some { c with value := v }), by rw [setValue, hc, Option.map_some], ?_, ?_, rfl, ?_⟩
  · rw [load_setCell]
    exact Function.update_eq_self_iff.mpr (by simp [Memory.load, hc])
  · rw [prev_setCell]
    exact Function.update_eq_self_iff.mpr (by simp [Memory.prev, hc])
  · rw [value_setCell]
    rfl

theorem setLast_reads (m : Memory κ α β) (q : κ) (l : Loc κ α) :
    (m.setLast q l).Reads m.load m.prev (Function.update m.last q l) m.value := by
  refine ⟨?_, rfl, ?_, rfl⟩
  · rw [setLast, load_setHead]
    exact Function.update_eq_self_iff.mpr rfl
  · rw [setLast, last_setHead]

theorem init_reads (m : Memory κ α β) (q : κ) :
    (m.init q).Reads (Function.update m.load (.head q) (some none)) m.prev
      (Function.update m.last q (.head q)) m.value := by
  refine ⟨?_, rfl, ?_, rfl⟩
  · rw [init, load_setHead]
  · rw [init, last_setHead]

theorem insertTail_reads (ha : m.Allocated a) (hlast : (m.load (m.last q)).isSome)
    (hne : m.last q ≠ .cell a) :
    ∃ m', m.insertTail q a = some m' ∧
      m'.Reads (Function.update (Function.update m.load (.cell a) (some none)) (m.last q)
        (some (some a))) (Function.update m.prev a (some (m.last q)))
        (Function.update m.last q (.cell a)) m.value := by
  obtain ⟨m₁, h₁, r₁⟩ := store_reads (allocated_iff_load.mp ha) (none : Option α)
  have ha₁ : m₁.Allocated a := ha.of_value r₁.value
  obtain ⟨m₂, h₂, r₂⟩ := setPrev_reads ha₁ (m₁.last q)
  have hl₂ : (m₂.load (m₂.last q)).isSome := by
    rw [r₂.load, r₂.last, r₁.load, r₁.last, Function.update_of_ne hne]
    exact hlast
  obtain ⟨m₃, h₃, r₃⟩ := store_reads hl₂ (some a)
  refine ⟨m₃.setLast q (.cell a), ?_, ?_⟩
  · rw [insertTail, h₁, Option.bind_eq_bind, Option.bind_some]
    change (m₁.setPrev a (m₁.last q)).bind _ = _
    rw [h₂, Option.bind_some]
    change (m₂.store (m₂.last q) (some a)).bind _ = _
    rw [h₃, Option.bind_some]
  · have r₄ := setLast_reads m₃ q (.cell a)
    refine ⟨?_, ?_, ?_, ?_⟩
    · rw [r₄.load, r₃.load, r₂.load, r₂.last, r₁.load, r₁.last]
    · rw [r₄.prev, r₃.prev, r₂.prev, r₁.prev, r₁.last]
    · rw [r₄.last, r₃.last, r₂.last, r₁.last]
    · rw [r₄.value, r₃.value, r₂.value, r₁.value]

/-- The back link that an element's removal moves: the next element's, or the head's last link. -/
def movePrev (m : Memory κ α β) (next : Option α) (p : Loc κ α) : α → Option (Loc κ α) :=
  next.elim m.prev fun b => Function.update m.prev b (some p)

def moveLast (m : Memory κ α β) (q : κ) (next : Option α) (p : Loc κ α) : κ → Loc κ α :=
  next.elim (Function.update m.last q p) fun _ => m.last

theorem remove_reads {next : Option α} {p : Loc κ α} (hnext : m.load (.cell a) = some next)
    (hprev : m.prev a = some p) (hp : (m.load p).isSome)
    (hb : ∀ b, next = some b → b ≠ a ∧ m.Allocated b) :
    ∃ m', m.remove q a = some m' ∧
      m'.Reads (Function.update m.load p (some next)) (m.movePrev next p) (m.moveLast q next p)
        m.value := by
  obtain ⟨c, hc⟩ : ∃ c, m.cells a = some c :=
    allocated_iff.mp (allocated_iff_load.mpr (by rw [hnext]; rfl))
  have hcn : c.next = next := by simpa [Memory.load, hc] using hnext
  have hcp : c.prev = p := by simpa [Memory.prev, hc] using hprev
  have hmoved : ∃ m₁, m.relink q c = some m₁ ∧ m₁.cells a = some c ∧
      m₁.Reads m.load (m.movePrev next p) (m.moveLast q next p) m.value := by
    rw [relink, hcn, hcp]
    cases next with
    | none => exact ⟨m.setLast q p, rfl, hc, setLast_reads m q p⟩
    | some b =>
      obtain ⟨hba, hb⟩ := hb b rfl
      obtain ⟨m₁, h₁, r₁⟩ := setPrev_reads hb p
      refine ⟨m₁, h₁, ?_, r₁⟩
      obtain ⟨d, hd⟩ := allocated_iff.mp hb
      simp only [setPrev, hd, Option.map_some, Option.some.injEq] at h₁
      rw [← h₁]
      exact (Function.update_of_ne (Ne.symm hba) _ _).trans hc
  obtain ⟨m₁, h₁, hc₁, r₁⟩ := hmoved
  obtain ⟨m₂, h₂, r₂⟩ := store_reads (m := m₁) (l := p) (by rw [r₁.load]; exact hp) next
  refine ⟨m₂, ?_, by rw [r₂.load, r₁.load], by rw [r₂.prev, r₁.prev], by rw [r₂.last, r₁.last],
    by rw [r₂.value, r₁.value]⟩
  have hstore : m.remove q a = m₁.store c.prev c.next := by
    simp only [remove, hc, h₁, hc₁, Option.bind_eq_bind, Option.bind_some]
  rw [hstore, hcp, hcn]
  exact h₂

end Memory

/-! ### Chains of links -/

section Chains

variable {m m' : Memory κ α β} {l : Loc κ α} {a : α} {as bs : List α}

/-- The location of the last link of a chain. -/
def lastLoc : Loc κ α → List α → Loc κ α
  | l, [] => l
  | _, a :: as => lastLoc (.cell a) as

/-- The links that a chain goes through, its last one apart. -/
def links : Loc κ α → List α → List (Loc κ α)
  | _, [] => []
  | l, a :: as => l :: links (.cell a) as

/-- The links from `l` on lead through these elements, each of which points back. -/
def Seg (m : Memory κ α β) : Loc κ α → List α → Prop
  | _, [] => True
  | l, a :: as => m.load l = some (some a) ∧ m.prev a = some l ∧ Seg m (.cell a) as

theorem lastLoc_append (l : Loc κ α) (as bs : List α) :
    lastLoc l (as ++ bs) = lastLoc (lastLoc l as) bs := by
  induction as generalizing l with
  | nil => rfl
  | cons a as ih => exact ih (.cell a)

theorem links_append_lastLoc (l : Loc κ α) (as : List α) :
    links l as ++ [lastLoc l as] = l :: as.map .cell := by
  induction as generalizing l with
  | nil => rfl
  | cons a as ih => rw [links, lastLoc, List.cons_append, ih, List.map_cons]

theorem mem_of_links {l' : Loc κ α} (h : l' ∈ links l as) : l' ∈ l :: as.map .cell := by
  rw [← links_append_lastLoc]
  exact List.mem_append_left _ h

theorem lastLoc_mem (l : Loc κ α) (as : List α) : lastLoc l as ∈ l :: as.map .cell := by
  rw [← links_append_lastLoc]
  exact List.mem_append_right _ (List.mem_singleton_self _)

theorem lastLoc_notMem_links (h : (l :: as.map .cell).Nodup) : lastLoc l as ∉ links l as := by
  rw [← links_append_lastLoc] at h
  intro hmem
  exact List.disjoint_of_nodup_append h hmem (List.mem_singleton_self _)

theorem seg_append : Seg m l (as ++ bs) ↔ Seg m l as ∧ Seg m (lastLoc l as) bs := by
  induction as generalizing l with
  | nil => simp [Seg, lastLoc]
  | cons a as ih => simp only [List.cons_append, Seg, lastLoc, ih, and_assoc]

/-- A chain depends on the links that it goes through and on the back links of its elements. -/
theorem Seg.frame (h : Seg m l as) (hload : ∀ l' ∈ links l as, m'.load l' = m.load l')
    (hprev : ∀ a ∈ as, m'.prev a = m.prev a) : Seg m' l as := by
  induction as generalizing l with
  | nil => trivial
  | cons a as ih =>
    obtain ⟨hl, hp, hrest⟩ := h
    refine ⟨?_, ?_, ih hrest (fun l' hl' => hload l' (List.mem_cons_of_mem _ hl'))
      fun b hb => hprev b (List.mem_cons_of_mem _ hb)⟩
    · rw [hload l List.mem_cons_self]
      exact hl
    · rw [hprev a List.mem_cons_self]
      exact hp

theorem Seg.prev_isSome (h : Seg m l as) (ha : a ∈ as) : (m.prev a).isSome := by
  induction as generalizing l with
  | nil => cases ha
  | cons b as ih =>
    rcases List.mem_cons.mp ha with rfl | ha
    · rw [h.2.1]
      rfl
    · exact ih h.2.2 ha

end Chains

/-! ### Queues that share a memory -/

/-- Each queue's links run through its elements, and no element is in two queues. Only the
live queues have been initialized and know their last link. -/
structure Queues (m : Memory κ α β) (live : Set κ) (qs : κ → List α) : Prop where
  seg : ∀ q, Seg m (.head q) (qs q)
  ends : ∀ q, m.load (lastLoc (.head q) (qs q)) = some none
  last : ∀ q ∈ live, m.last q = lastLoc (.head q) (qs q)
  nodup : ∀ q, (qs q).Nodup
  disjoint : ∀ q r a, a ∈ qs q → a ∈ qs r → q = r

/-- All the locations of links of a queue. -/
def locs (qs : κ → List α) (q : κ) : List (Loc κ α) := .head q :: (qs q).map .cell

namespace Queues

open Memory

variable {m m' : Memory κ α β} {live : Set κ} {qs : κ → List α} {q r : κ} {a : α} {l : Loc κ α}

theorem allocated (h : Queues m live qs) (ha : a ∈ qs q) : m.Allocated a := by
  have hp := (h.seg q).prev_isSome ha
  rwa [Memory.prev, Option.isSome_map] at hp

theorem locs_nodup (h : Queues m live qs) (q : κ) : (locs qs q).Nodup := by
  refine List.nodup_cons.mpr ⟨by simp, (h.nodup q).map fun a b hab => ?_⟩
  exact Loc.cell.inj hab

theorem locs_disjoint (h : Queues m live qs) (hq : l ∈ locs qs q) (hr : l ∈ locs qs r) : q = r := by
  cases l with
  | null => simp [locs] at hq
  | head t =>
    have ht : ∀ s, .head t ∈ locs qs s → t = s := by simp [locs]
    exact (ht q hq).symm.trans (ht r hr)
  | cell a =>
    have ha : ∀ s, .cell a ∈ locs qs s → a ∈ qs s := by simp [locs]
    exact h.disjoint q r a (ha q hq) (ha r hr)

theorem cell_mem_locs : .cell a ∈ locs qs q ↔ a ∈ qs q := by simp [locs]

theorem ends_isSome (h : Queues m live qs) (hq : q ∈ live) : (m.load (m.last q)).isSome := by
  rw [h.last q hq, h.ends]
  rfl

/-- What surrounds an element of a queue. -/
theorem around (h : Queues m live qs) {xs ys : List α} (hsplit : qs q = xs ++ a :: ys) :
    Seg m (.head q) xs ∧ m.load (lastLoc (.head q) xs) = some (some a) ∧
      m.prev a = some (lastLoc (.head q) xs) ∧ Seg m (.cell a) ys ∧
      m.load (.cell a) = some ys.head? := by
  have hseg := h.seg q
  rw [hsplit] at hseg
  obtain ⟨hxs, hl, hp, hys⟩ := seg_append.mp hseg
  refine ⟨hxs, hl, hp, hys, ?_⟩
  cases ys with
  | nil =>
    have hends := h.ends q
    rw [hsplit, lastLoc_append] at hends
    exact hends
  | cons b ys => exact hys.1

variable [DecidableEq κ]

/-- One queue gets new elements, the others keep their links. -/
theorem update (h : Queues m live qs) {as : List α} (hseg : Seg m' (.head q) as)
    (hends : m'.load (lastLoc (.head q) as) = some none)
    (hlast : q ∈ live → m'.last q = lastLoc (.head q) as) (hnodup : as.Nodup)
    (hnew : ∀ a ∈ as, ∀ r, r ≠ q → a ∉ qs r)
    (hload : ∀ r, r ≠ q → ∀ l ∈ locs qs r, m'.load l = m.load l)
    (hprev : ∀ r, r ≠ q → ∀ a ∈ qs r, m'.prev a = m.prev a)
    (hlasts : ∀ r, r ≠ q → m'.last r = m.last r) :
    Queues m' live (Function.update qs q as) := by
  refine ⟨fun r => ?_, fun r => ?_, fun r hrl => ?_, fun r => ?_, fun r t a hr ht => ?_⟩
  · by_cases hr : r = q
    · subst hr
      rwa [Function.update_self]
    · rw [Function.update_of_ne hr]
      exact (h.seg r).frame (fun l hl => hload r hr l (mem_of_links hl)) (hprev r hr)
  · by_cases hr : r = q
    · subst hr
      rwa [Function.update_self]
    · rw [Function.update_of_ne hr, hload r hr _ (lastLoc_mem _ _)]
      exact h.ends r
  · by_cases hr : r = q
    · subst hr
      rw [Function.update_self]
      exact hlast hrl
    · rw [Function.update_of_ne hr, hlasts r hr]
      exact h.last r hrl
  · by_cases hr : r = q
    · subst hr
      rwa [Function.update_self]
    · rw [Function.update_of_ne hr]
      exact h.nodup r
  · by_cases hrq : r = q
    · subst hrq
      by_contra hrt
      rw [Function.update_self] at hr
      rw [Function.update_of_ne (Ne.symm hrt)] at ht
      exact hnew a hr t (Ne.symm hrt) ht
    · rw [Function.update_of_ne hrq] at hr
      by_cases htq : t = q
      · subst htq
        rw [Function.update_self] at ht
        exact absurd hr (hnew a ht r hrq)
      · rw [Function.update_of_ne htq] at ht
        exact h.disjoint r t a hr ht

variable [DecidableEq α]

/-- An empty queue, whatever the head held. -/
theorem init (h : Queues m live qs) (q : κ) :
    Queues (m.init q) (insert q live) (Function.update qs q []) := by
  have hr := init_reads m q
  have hself : (m.init q).last q = .head q := by
    rw [hr.last]
    exact Function.update_self _ _ _
  have hother : ∀ r, r ≠ q → (m.init q).last r = m.last r := by
    intro r hrq
    rw [hr.last, Function.update_of_ne hrq]
  have hq : Queues (m.init q) live (Function.update qs q []) := by
    refine h.update trivial ?_ (fun _ => hself) List.nodup_nil (by simp) ?_ ?_ hother
    · rw [hr.load]
      exact Function.update_self _ _ _
    · intro r hrq l hl
      rw [hr.load, Function.update_of_ne]
      rintro rfl
      exact hrq (h.locs_disjoint hl List.mem_cons_self)
    · intro r _ a _
      rw [hr.prev]
  refine { hq with last := fun r hrl => ?_ }
  rcases hrl with rfl | hrl
  · rw [Function.update_self]
    exact hself
  · exact hq.last r hrl

/-- An element of no queue becomes the last one. -/
theorem insertTail (h : Queues m live qs) (hq : q ∈ live) (ha : m.Allocated a)
    (hfree : ∀ r, a ∉ qs r) :
    ∃ m', m.insertTail q a = some m' ∧ Queues m' live (Function.update qs q (qs q ++ [a])) ∧
      m'.value = m.value := by
  have hfresh : ∀ r, .cell a ∉ locs qs r := fun r hr => hfree r (cell_mem_locs.mp hr)
  have hmem : m.last q ∈ locs qs q := by
    rw [h.last q hq]
    exact lastLoc_mem _ _
  have hne : m.last q ≠ .cell a := fun he => hfresh q (he ▸ hmem)
  obtain ⟨m', hm', hr⟩ := insertTail_reads ha (h.ends_isSome hq) hne
  refine ⟨m', hm', ?_, hr.value⟩
  have hkeep : ∀ r, ∀ l ∈ locs qs r, l ≠ m.last q → m'.load l = m.load l := by
    intro r l hl hlast
    rw [hr.load, Function.update_of_ne hlast, Function.update_of_ne]
    rintro rfl
    exact hfresh r hl
  have hprev : ∀ r, ∀ b ∈ qs r, m'.prev b = m.prev b := by
    intro r b hb
    rw [hr.prev, Function.update_of_ne]
    rintro rfl
    exact hfree r hb
  refine h.update ?_ ?_ ?_ ?_ ?_ ?_ (fun r _ => hprev r) ?_
  · refine seg_append.mpr ⟨(h.seg q).frame (fun l hl => hkeep q l (mem_of_links hl) ?_) (hprev q),
      ?_, ?_, trivial⟩
    · rintro rfl
      rw [h.last q hq] at hl
      exact lastLoc_notMem_links (h.locs_nodup q) hl
    · rw [← h.last q hq, hr.load]
      exact Function.update_self _ _ _
    · rw [← h.last q hq, hr.prev]
      exact Function.update_self _ _ _
  · rw [lastLoc_append, hr.load]
    change Function.update _ _ _ (Loc.cell a) = _
    rw [Function.update_of_ne (Ne.symm hne), Function.update_self]
  · intro _
    rw [lastLoc_append, hr.last]
    exact Function.update_self _ _ _
  · exact List.nodup_append.mpr ⟨h.nodup q, List.nodup_singleton a, fun b hb c hc =>
      fun hbc => hfree q (by rwa [← List.mem_singleton.mp hc, ← hbc])⟩
  · intro b hb r hrq hbr
    rcases List.mem_append.mp hb with hb | hb
    · exact hrq (h.disjoint r q b hbr hb)
    · exact hfree r (List.mem_singleton.mp hb ▸ hbr)
  · exact fun r hrq l hl => hkeep r l hl fun he => hrq (h.locs_disjoint hl (he ▸ hmem))
  · intro r hrq
    rw [hr.last, Function.update_of_ne hrq]

/-- What stood behind an element hangs from the location in front of it, once the element is out. -/
theorem relinked {ys : List α} {value : α → Option β} (hys : Seg m (.cell a) ys)
    (hends : m.load (lastLoc (.cell a) ys) = some none) (hl : l ∉ ys.map Loc.cell) (hnodup : ys.Nodup)
    (hr : m'.Reads (Function.update m.load l (some ys.head?)) (m.movePrev ys.head? l)
      (m.moveLast q ys.head? l) value) :
    Seg m' l ys ∧ m'.load (lastLoc l ys) = some none ∧
      (m.last q = lastLoc (.cell a) ys → m'.last q = lastLoc l ys) := by
  cases ys with
  | nil =>
    refine ⟨trivial, ?_, fun _ => ?_⟩
    · rw [hr.load]
      exact Function.update_self _ _ _
    · rw [hr.last]
      exact Function.update_self _ _ _
  | cons b ys =>
    have hload : ∀ r, r ≠ l → m'.load r = m.load r := by
      intro r hrl
      rw [hr.load, Function.update_of_ne hrl]
    obtain ⟨hb, -⟩ := List.nodup_cons.mp hnodup
    refine ⟨⟨?_, ?_, hys.2.2.frame (fun r hrl => hload r ?_) fun c hc => ?_⟩, ?_, fun hlast => ?_⟩
    · rw [hr.load]
      exact Function.update_self _ _ _
    · rw [hr.prev]
      exact Function.update_self _ _ _
    · rintro rfl
      exact hl (mem_of_links hrl)
    · rw [hr.prev]
      refine Function.update_of_ne ?_ _ _
      rintro rfl
      exact hb hc
    · rw [lastLoc, hload]
      · exact hends
      · intro he
        exact hl (he ▸ lastLoc_mem (.cell b) ys)
    · rw [hr.last]
      exact hlast

/-- An element leaves its queue, wherever it stands; its memory is kept. -/
theorem remove (h : Queues m live qs) (ha : a ∈ qs q) :
    ∃ m', m.remove q a = some m' ∧ Queues m' live (Function.update qs q ((qs q).erase a)) ∧
      m'.value = m.value := by
  obtain ⟨xs, ys, -, hsplit, herase⟩ := List.exists_erase_eq ha
  obtain ⟨hxs, hw, hpa, hys, hnext⟩ := h.around hsplit
  have hlocs : locs qs q = (.head q :: xs.map .cell) ++ .cell a :: ys.map .cell := by
    simp [locs, hsplit]
  have hnd := h.locs_nodup q
  rw [hlocs] at hnd
  have hwmem : lastLoc (.head q) xs ∈ Loc.head q :: xs.map .cell := lastLoc_mem _ _
  have hwlocs : lastLoc (.head q) xs ∈ locs qs q := hlocs ▸ List.mem_append_left _ hwmem
  have hwlinks : lastLoc (.head q) xs ∉ links (.head q) xs :=
    lastLoc_notMem_links (List.nodup_append.mp hnd).1
  have hwys : lastLoc (.head q) xs ∉ ys.map Loc.cell := fun hmem =>
    List.disjoint_of_nodup_append hnd hwmem (List.mem_cons_of_mem _ hmem)
  have hnodup := h.nodup q
  rw [hsplit] at hnodup
  have hdis : ∀ b ∈ xs, b ∉ ys := fun b hx hy =>
    List.disjoint_of_nodup_append hnodup hx (List.mem_cons_of_mem _ hy)
  obtain ⟨hays, hnodupys⟩ := List.nodup_cons.mp (List.nodup_append.mp hnodup).2.1
  have hb : ∀ b, ys.head? = some b → b ≠ a ∧ m.Allocated b := by
    intro b hb
    have hmem : b ∈ ys := List.mem_of_mem_head? hb
    refine ⟨fun he => hays (he ▸ hmem), h.allocated (q := q) ?_⟩
    rw [hsplit]
    exact List.mem_append_right _ (List.mem_cons_of_mem _ hmem)
  obtain ⟨m', hm', hr⟩ := remove_reads hnext hpa (by rw [hw]; rfl) hb
  refine ⟨m', hm', ?_, hr.value⟩
  have hload : ∀ l, l ≠ lastLoc (.head q) xs → m'.load l = m.load l := by
    intro l hl
    rw [hr.load, Function.update_of_ne hl]
  have hprev : ∀ b, b ∉ ys.head? → m'.prev b = m.prev b := by
    intro b hb
    rw [hr.prev]
    cases ys with
    | nil => rfl
    | cons c ys => exact Function.update_of_ne (fun he => hb (by rw [he]; rfl)) _ _
  have hother : ∀ r, r ≠ q → ∀ b ∈ qs r, b ∉ ys.head? := by
    intro r hrq b hbr hb
    refine hrq (h.disjoint r q b hbr ?_)
    rw [hsplit]
    exact List.mem_append_right _ (List.mem_cons_of_mem _ (List.mem_of_mem_head? hb))
  have hends := h.ends q
  have hlast := h.last q
  rw [hsplit, lastLoc_append] at hends hlast
  obtain ⟨hseg, hends', hlast'⟩ := relinked hys hends hwys hnodupys hr
  rw [herase]
  refine h.update ?_ ?_ ?_ ?_ ?_ ?_ ?_ ?_
  · refine seg_append.mpr ⟨hxs.frame (fun l hl => hload l ?_) fun b hb => hprev b ?_, hseg⟩
    · rintro rfl
      exact hwlinks hl
    · exact fun hy => hdis b hb (List.mem_of_mem_head? hy)
  · rw [lastLoc_append]
    exact hends'
  · rw [lastLoc_append]
    exact fun hq => hlast' (hlast hq)
  · exact hnodup.sublist ((List.sublist_cons_self a ys).append_left xs)
  · intro b hb r hrq hbr
    refine hrq (h.disjoint r q b hbr ?_)
    rw [hsplit]
    exact ((List.sublist_cons_self a ys).append_left xs).subset hb
  · exact fun r hrq l hl => hload l fun he => hrq (h.locs_disjoint hl (he ▸ hwlocs))
  · exact fun r hrq b hb => hprev b (hother r hrq b hb)
  · intro r hrq
    rw [hr.last]
    cases ys with
    | nil => exact Function.update_of_ne hrq _ _
    | cons b ys => rfl

omit [DecidableEq κ] [DecidableEq α] in
/-- The queues depend on their own links only. -/
theorem frame (h : Queues m live qs) (hload : ∀ q, ∀ l ∈ locs qs q, m'.load l = m.load l)
    (hprev : ∀ q, ∀ a ∈ qs q, m'.prev a = m.prev a) (hlast : m'.last = m.last) :
    Queues m' live qs where
  seg q := (h.seg q).frame (fun l hl => hload q l (mem_of_links hl)) (hprev q)
  ends q := by
    rw [hload q _ (lastLoc_mem _ _)]
    exact h.ends q
  last q hq := by
    rw [hlast]
    exact h.last q hq
  nodup := h.nodup
  disjoint := h.disjoint

theorem setCell (h : Queues m live qs) (hfree : ∀ q, a ∉ qs q) (c : Option (Cell κ α β)) :
    Queues (m.setCell a c) live qs := by
  refine h.frame (fun q l hl => ?_) (fun q b hb => ?_) rfl
  · rw [load_setCell, Function.update_of_ne]
    rintro rfl
    exact hfree q (cell_mem_locs.mp hl)
  · rw [prev_setCell, Function.update_of_ne]
    rintro rfl
    exact hfree q hb

theorem free (h : Queues m live qs) (ha : m.Allocated a) (hfree : ∀ q, a ∉ qs q) :
    ∃ m', m.free a = some m' ∧ Queues m' live qs ∧ m'.value = Function.update m.value a none := by
  obtain ⟨c, hc⟩ := allocated_iff.mp ha
  exact ⟨m.setCell a none, by rw [Memory.free, hc, Option.map_some], h.setCell hfree none,
    value_setCell m a none⟩

theorem setValue (h : Queues m live qs) (ha : m.Allocated a) (v : β) :
    ∃ m', m.setValue a v = some m' ∧ Queues m' live qs ∧
      m'.value = Function.update m.value a (some v) := by
  obtain ⟨m', hm', hr⟩ := setValue_reads ha v
  exact ⟨m', hm', h.frame (fun _ _ _ => by rw [hr.load]) (fun _ _ _ => by rw [hr.prev]) hr.last,
    hr.value⟩

end Queues

/-! ### Loops over a queue -/

/-- A loop with `break` over the elements of a list. -/
def foreachList (body : σ → α → β → Except ε (σ × Bool)) : List (α × β) → σ → Except ε σ
  | [], s => .ok s
  | (a, v) :: rest, s =>
    match body s a v with
    | .error e => .error e
    | .ok (s, false) => .ok s
    | .ok (s, true) => foreachList body rest s

/-- The elements with what they hold. -/
def Memory.elements (m : Memory κ α β) (as : List α) : List (α × β) :=
  as.filterMap fun a => (m.value a).map (Prod.mk a)

section Loops

variable {m : Memory κ α β} {l : Loc κ α} {as : List α}
  {body : σ → α → β → Except ε (σ × Bool)}

theorem foreach_seg (h : Seg m l as) (hends : m.load (lastLoc l as) = some none) {n : ℕ}
    (hn : as.length ≤ n) {first : Option α} (hfirst : m.load l = some first) (s : σ) :
    m.foreach body n first s = some (foreachList body (m.elements as) s) := by
  induction as generalizing l n first s with
  | nil =>
    obtain rfl := Option.some.inj (hfirst.symm.trans hends)
    rw [Memory.foreach]
    rfl
  | cons a as ih =>
    obtain ⟨hl, hp, hrest⟩ := h
    obtain rfl := Option.some.inj (hfirst.symm.trans hl)
    obtain ⟨n, rfl⟩ : ∃ k, n = k + 1 := ⟨n - 1, by simp at hn; omega⟩
    obtain ⟨c, hc, -⟩ := Option.map_eq_some_iff.mp hp
    have helems : m.elements (a :: as) = (a, c.value) :: m.elements as := by
      simp [Memory.elements, Memory.value, hc]
    rw [Memory.foreach, hc, Option.bind_some, helems, foreachList]
    cases body s a c.value with
    | error e => rfl
    | ok r =>
      obtain ⟨s, goOn⟩ := r
      cases goOn with
      | false => rfl
      | true =>
        exact ih hrest hends (Nat.le_of_succ_le_succ hn) (by simp [Memory.load, hc]) s

/-- As many turns as there are addresses are enough. -/
theorem Queues.foreach [Fintype α] {live : Set κ} {qs : κ → List α} (h : Queues m live qs) (q : κ) (s : σ) :
    m.foreach body (Fintype.card α) (m.heads q).first s =
      some (foreachList body (m.elements (qs q)) s) :=
  foreach_seg (h.seg q) (h.ends q) (h.nodup q).length_le_card rfl s

end Loops

end Ramryder.TailQueue
