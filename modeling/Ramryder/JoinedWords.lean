import Mathlib

/-! Where a needle lies in a text of words joined by a separator, when the needle itself has the separator
once; and where it lies behind another text. -/
namespace Ramryder.JoinedWords

variable {α : Type*} {sep c : α} {needle left right lead a b t : List α} {words rest : List (List α)}

def joined (sep : α) (words : List (List α)) : List α := [sep].intercalate words

/-- The needle has the separator once, between these two. -/
structure SplitAt (sep : α) (needle left right : List α) : Prop where
  eq : needle = left ++ sep :: right
  left_free : sep ∉ left
  right_free : sep ∉ right

/-- Somewhere behind `lead` stands the needle. -/
def Follows (lead needle t : List α) : Prop :=
  ∃ before rest, t = before ++ lead ++ rest ∧ needle <:+: rest

/-! ### Words -/

theorem joined_nil : joined sep [] = [] := rfl

theorem joined_singleton : joined sep [a] = a := List.intercalate_singleton

theorem joined_cons (hrest : rest ≠ []) : joined sep (a :: rest) = a ++ sep :: joined sep rest := by
  rw [joined, List.intercalate_cons_of_ne_nil hrest]
  simp [joined]

theorem joined_append (hwords : words ≠ []) (hrest : rest ≠ []) :
    joined sep (words ++ rest) = joined sep words ++ sep :: joined sep rest := by
  induction words with
  | nil => exact absurd rfl hwords
  | cons w words ih =>
    rw [List.cons_append, joined_cons (by simp [hrest])]
    by_cases hw : words = []
    · simp [hw, joined_singleton]
    · rw [ih hw, joined_cons hw, List.append_assoc, List.cons_append]

theorem joined_within (words rest : List (List α)) : joined sep rest <:+: joined sep (words ++ rest) := by
  by_cases hrest : rest = []
  · rw [hrest, joined_nil]
    exact List.nil_infix
  · by_cases hwords : words = []
    · rw [hwords, List.nil_append]
    · rw [joined_append hwords hrest]
      exact ((List.suffix_cons sep _).trans (List.suffix_append _ _)).isInfix

theorem mem_joined (h : c ∈ joined sep words) : c = sep ∨ ∃ w ∈ words, c ∈ w := by
  induction words with
  | nil => cases h
  | cons w words ih =>
    by_cases hw : words = []
    · subst hw
      rw [joined_singleton] at h
      exact .inr ⟨w, List.mem_cons_self, h⟩
    · rw [joined_cons hw, List.mem_append, List.mem_cons] at h
      rcases h with h | h | h
      · exact .inr ⟨w, List.mem_cons_self, h⟩
      · exact .inl h
      · rcases ih h with h | ⟨v, hv, hc⟩
        · exact .inl h
        · exact .inr ⟨v, List.mem_cons_of_mem w hv, hc⟩

/-! ### A needle on one side of a character -/

theorem prefix_append_free (hc : c ∉ needle) : needle <+: a ++ c :: b ↔ needle <+: a := by
  induction a generalizing needle with
  | nil =>
    cases needle with
    | nil => simp
    | cons d needle =>
      have hne : d ≠ c := fun h => hc (h ▸ List.mem_cons_self)
      simp [hne]
  | cons d a ih =>
    cases needle with
    | nil => simp
    | cons e needle =>
      rw [List.cons_append, List.cons_prefix_cons, List.cons_prefix_cons,
        ih fun h => hc (List.mem_cons_of_mem e h)]

/-- A needle without the character lies on one side of it. -/
theorem infix_append_free (hc : c ∉ needle) : needle <:+: a ++ c :: b ↔ needle <:+: a ∨ needle <:+: b := by
  constructor
  · intro h
    rcases List.infix_append_iff.mp h with h | h | ⟨s, u, rfl, hs, hu⟩
    · exact .inl h
    · rcases List.infix_cons_iff.mp h with h | h
      · have hnil : needle <+: [] := (prefix_append_free hc).mp h
        rw [List.prefix_nil.mp hnil]
        exact .inl List.nil_infix
      · exact .inr h
    · have hnil : u <+: [] := (prefix_append_free fun hmem => hc (List.mem_append_right s hmem)).mp hu
      rw [List.prefix_nil.mp hnil, List.append_nil]
      exact .inl hs.isInfix
  · rintro (h | h)
    · exact h.trans (List.prefix_append a _).isInfix
    · exact h.trans ((List.suffix_cons c b).trans (List.suffix_append a _)).isInfix

/-- A needle that begins otherwise lies behind the first character. -/
theorem infix_cons_of_head {d : α} (hd : d ≠ c) : d :: needle <:+: c :: t ↔ d :: needle <:+: t := by
  rw [List.infix_cons_iff, List.cons_prefix_cons]
  simp [hd]

theorem not_infix_of_mem (hc : c ∈ needle) (ht : c ∉ t) : ¬ needle <:+: t :=
  fun h => ht (h.subset hc)

/-! ### A needle with one separator -/

/-- It lies in one of the two texts, or its separator is the one between them. -/
theorem SplitAt.infix_append (hn : SplitAt sep needle left right) :
    needle <:+: a ++ sep :: b ↔ needle <:+: a ∨ needle <:+: b ∨ left <:+ a ∧ right <+: b := by
  constructor
  · intro h
    rcases List.infix_append_iff.mp h with h | h | ⟨s, u, hsplit, hs, hu⟩
    · exact .inl h
    · rcases List.infix_cons_iff.mp h with h | h
      · cases left with
        | nil =>
          rw [hn.eq, List.nil_append, List.cons_prefix_cons] at h
          exact .inr (.inr ⟨List.nil_suffix, h.2⟩)
        | cons d left =>
          rw [hn.eq, List.cons_append, List.cons_prefix_cons] at h
          exact absurd h.1.symm (List.ne_of_not_mem_cons hn.left_free)
      · exact .inr (.inl h)
    · cases u with
      | nil =>
        rw [List.append_nil] at hsplit
        exact .inl (hsplit ▸ hs.isInfix)
      | cons d u =>
        obtain ⟨rfl, htail⟩ := List.cons_prefix_cons.mp hu
        have hparts := (List.append_cons_inj_of_notMem hn.left_free hn.right_free).mp (hn.eq.symm.trans hsplit)
        exact .inr (.inr ⟨hparts.1 ▸ hs, hparts.2.2 ▸ htail⟩)
  · rintro (h | h | ⟨⟨x, rfl⟩, ⟨y, rfl⟩⟩)
    · exact h.trans (List.prefix_append a _).isInfix
    · exact h.trans ((List.suffix_cons sep b).trans (List.suffix_append a _)).isInfix
    · exact ⟨x, y, by simp [hn.eq]⟩

/-- Behind words that do not end it, no word begins with the part behind its separator: it lies on
one side. -/
theorem SplitAt.joined_append (hn : SplitAt sep needle left right) (hrest : ∀ w ∈ rest.head?, ¬ right <+: w) :
    needle <:+: joined sep (words ++ rest) ↔ needle <:+: joined sep words ∨ needle <:+: joined sep rest := by
  have hnil : ¬ needle <:+: [] := by
    rw [List.infix_nil, hn.eq]
    simp
  cases rest with
  | nil => simp [joined_nil, hnil]
  | cons w rest =>
    cases words with
    | nil => simp [joined_nil, hnil]
    | cons v words =>
      have hstart : ¬ right <+: joined sep (w :: rest) := by
        intro h
        refine hrest w rfl ?_
        by_cases hempty : rest = []
        · rwa [hempty, joined_singleton] at h
        · rw [joined_cons hempty] at h
          exact (prefix_append_free hn.right_free).mp h
      rw [JoinedWords.joined_append (by simp) (by simp), hn.infix_append]
      simp [hstart]

theorem head?_flatten_mem {P : List α → Prop} {groups : List (List (List α))}
    (hgroups : ∀ g ∈ groups, ∀ w ∈ g.head?, P w) : ∀ w ∈ groups.flatten.head?, P w := by
  induction groups with
  | nil => simp
  | cons g groups ih =>
    rw [List.forall_mem_cons] at hgroups
    cases g with
    | nil => simpa using ih hgroups.2
    | cons w g => simpa using hgroups.1

/-- Of words in groups it lies in one of the groups. -/
theorem SplitAt.joined_flatten (hn : SplitAt sep needle left right) {groups : List (List (List α))}
    (hgroups : ∀ g ∈ groups, ∀ w ∈ g.head?, ¬ right <+: w) :
    needle <:+: joined sep groups.flatten ↔ ∃ g ∈ groups, needle <:+: joined sep g := by
  induction groups with
  | nil =>
    rw [List.flatten_nil, joined_nil, List.infix_nil, hn.eq]
    simp
  | cons g groups ih =>
    rw [List.forall_mem_cons] at hgroups
    rw [List.flatten_cons, hn.joined_append (head?_flatten_mem hgroups.2), ih hgroups.2]
    simp

/-- Of words none of which ends it, it lies in one. -/
theorem SplitAt.joined_words (hn : SplitAt sep needle left right) (hwords : ∀ w ∈ words, ¬ right <+: w) :
    needle <:+: joined sep words ↔ ∃ w ∈ words, needle <:+: w := by
  have hgroups : ∀ g ∈ words.map fun w => [w], ∀ w ∈ g.head?, ¬ right <+: w := by
    simpa using hwords
  have h := hn.joined_flatten hgroups
  rw [← List.flatMap_def, List.flatMap_singleton'] at h
  simpa [joined_singleton] using h

/-! ### A needle behind another text -/

theorem Follows.of_infix (h : Follows lead needle a) (ha : a <:+: t) : Follows lead needle t := by
  obtain ⟨before, rest, rfl, hrest⟩ := h
  obtain ⟨x, y, rfl⟩ := ha
  exact ⟨x ++ before, rest ++ y, by simp, hrest.trans (List.prefix_append rest y).isInfix⟩

/-- Where a character is none of the needle's, both stand before it, or the needle stands behind it. -/
theorem Follows.before_or_behind (h : Follows lead needle (a ++ c :: b)) (hc : c ∉ needle) :
    Follows lead needle a ∨ needle <:+: b := by
  obtain ⟨before, rest, heq, hrest⟩ := h
  rcases List.append_eq_append_iff.mp heq with ⟨u, hu, htail⟩ | ⟨u, rfl, rfl⟩
  · cases u with
    | nil =>
      rw [List.nil_append] at htail
      rw [← htail] at hrest
      rcases (infix_append_free (a := []) hc).mp hrest with hnil | hb
      · rw [List.infix_nil.mp hnil]
        exact .inr List.nil_infix
      · exact .inr hb
    | cons d u =>
      obtain ⟨rfl, rfl⟩ := List.cons_eq_cons.mp htail
      exact .inr (hrest.trans (List.suffix_append u rest).isInfix)
  · rcases (infix_append_free hc).mp hrest with hu | hb
    · exact .inl ⟨before, u, rfl, hu⟩
    · exact .inr hb

/-- Nothing is found in front where the first character of `lead` is missing. -/
theorem Follows.of_append {p : α} (h : Follows (p :: lead) needle (a ++ t)) (hp : p ∉ a) :
    Follows (p :: lead) needle t := by
  obtain ⟨before, rest, heq, hrest⟩ := h
  rw [List.append_assoc] at heq
  rcases List.append_eq_append_iff.mp heq with ⟨u, rfl, htail⟩ | ⟨u, rfl, htail⟩
  · exact ⟨u, rest, by rw [htail, List.append_assoc], hrest⟩
  · cases u with
    | nil => exact ⟨[], rest, by simpa using htail.symm, hrest⟩
    | cons d u =>
      obtain ⟨rfl, _⟩ := List.cons_eq_cons.mp htail
      simp at hp

theorem follows_iff_tails : Follows lead needle t ↔
    ∃ u ∈ t.tails, lead <+: u ∧ needle <:+: u.drop lead.length := by
  constructor
  · rintro ⟨before, rest, rfl, hrest⟩
    refine ⟨lead ++ rest, ?_, List.prefix_append lead rest, by simpa using hrest⟩
    rw [List.mem_tails, List.append_assoc]
    exact List.suffix_append before _
  · rintro ⟨u, hu, ⟨rest, rfl⟩, hrest⟩
    obtain ⟨before, rfl⟩ := (List.mem_tails _ _).mp hu
    exact ⟨before, rest, by simp, by simpa using hrest⟩

instance decidableFollows [DecidableEq α] : Decidable (Follows lead needle t) :=
  decidable_of_iff' _ follows_iff_tails

end Ramryder.JoinedWords
