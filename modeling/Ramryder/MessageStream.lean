import Ramryder.CText

/-! A byte stream of messages, each a text of one value with a line end behind it, and a reader that
yields the first complete value of a text. Cuts fall anywhere: what is left of the stream begins
between two messages or inside one. -/
namespace Ramryder.MessageStream
open CText

variable {α : Type} {parse : Text → Option α} {marked : α → Bool}

structure Message (α : Type) where
  body : Text
  value : α

def lineEnd : Text := "\x0d\n".toList

def wire : List (Message α) → Text
  | [] => []
  | m :: ms => m.body ++ lineEnd ++ wire ms

def Blank (t : Text) : Prop := ∀ c ∈ t, isSpace c = true

/-- The reader yields the value of this message where a text begins with it, and nothing where the
text ends inside it; white space in front does not matter. -/
structure ReadsFirst (parse : Text → Option α) (m : Message α) : Prop where
  ne_nil : m.body ≠ []
  whole : ∀ ws rest, Blank ws → parse (ws ++ (m.body ++ rest)) = some m.value
  cut : ∀ ws part, Blank ws → part <+: m.body → part ≠ m.body → parse (ws ++ part) = none
  noNul : '\x00' ∉ m.body

/-- The text begins with this one, behind white space. -/
def Begins (body t : Text) : Prop := ∃ ws rest, Blank ws ∧ t = ws ++ (body ++ rest)

/-- No text that begins inside the message reads as a marked value. -/
def Plain (parse : Text → Option α) (marked : α → Bool) (m : Message α) : Prop :=
  ∀ i rest k value, 0 < i → i < m.body.length →
    parse ((m.body.drop i ++ rest).take k) = some value → marked value = false

variable {m : Message α} {ms ms' : List (Message α)} {pending ws : Text}

theorem wire_append (ms ms' : List (Message α)) : wire (ms ++ ms') = wire ms ++ wire ms' := by
  induction ms with
  | nil => rfl
  | cons m ms ih => simp only [List.cons_append, wire, ih, List.append_assoc]

theorem wire_noNul (h : ∀ m ∈ ms, '\x00' ∉ m.body) : '\x00' ∉ wire ms := by
  induction ms with
  | nil => exact List.not_mem_nil
  | cons m ms ih =>
    have hrest := ih fun m' hm => h m' (List.mem_cons_of_mem m hm)
    have hend : '\x00' ∉ lineEnd := by decide
    simp only [wire, List.mem_append, not_or]
    exact ⟨⟨h m List.mem_cons_self, hend⟩, hrest⟩

theorem blank_nil : Blank [] := by simp [Blank]

theorem blank_lineEnd : Blank lineEnd := by
  simp [Blank, lineEnd, isSpace]

theorem Blank.drop (h : Blank ws) (n : ℕ) : Blank (ws.drop n) :=
  fun c hc => h c (List.mem_of_mem_drop hc)

/-! ### What is left of a stream -/

/-- What is left of a stream when the messages `ms` are still to come whole: white space in front of
them, or the end of a message before them. -/
inductive Left (parse : Text → Option α) (marked : α → Bool) : Text → List (Message α) → Prop
  | between {ws : Text} {ms : List (Message α)} (h : Blank ws) : Left parse marked (ws ++ wire ms) ms
  | inside {m : Message α} {i : ℕ} {ms : List (Message α)} (hplain : Plain parse marked m)
      (hpos : 0 < i) (hlt : i < m.body.length) :
      Left parse marked (m.body.drop i ++ (lineEnd ++ wire ms)) ms

theorem Left.append (h : Left parse marked pending ms) (ms' : List (Message α)) :
    Left parse marked (pending ++ wire ms') (ms ++ ms') := by
  cases h with
  | between h =>
    rw [List.append_assoc, ← wire_append]
    exact .between h
  | inside hplain hpos hlt =>
    rw [List.append_assoc, List.append_assoc, ← wire_append]
    exact .inside hplain hpos hlt

/-- A cut behind white space falls into it, between later messages, or inside one of them. -/
theorem left_between (hplain : ∀ m ∈ ms, Plain parse marked m) (h : Blank ws) (n : ℕ) :
    ∃ ms', ms' <:+ ms ∧ Left parse marked ((ws ++ wire ms).drop n) ms' := by
  induction ms generalizing ws n with
  | nil =>
    refine ⟨[], List.suffix_rfl, ?_⟩
    rw [wire, List.append_nil]
    have hleft := @Left.between _ parse marked _ [] (h.drop n)
    rwa [wire, List.append_nil] at hleft
  | cons m ms ih =>
    by_cases hws : n ≤ ws.length
    · refine ⟨m :: ms, List.suffix_rfl, ?_⟩
      rw [List.drop_append_of_le_length hws]
      exact .between (h.drop n)
    have hrest : (ws ++ wire (m :: ms)).drop n =
        (m.body ++ (lineEnd ++ wire ms)).drop (n - ws.length) := by
      rw [wire, List.append_assoc, List.drop_append, List.drop_eq_nil_of_le (by omega),
        List.nil_append]
    rw [hrest]
    have hpos : 0 < n - ws.length := by omega
    generalize n - ws.length = i at hpos
    by_cases hbody : i < m.body.length
    · refine ⟨ms, List.suffix_cons m ms, ?_⟩
      rw [List.drop_append_of_le_length hbody.le]
      exact .inside (hplain m List.mem_cons_self) hpos hbody
    · rw [List.drop_append, List.drop_eq_nil_of_le (by omega), List.nil_append]
      obtain ⟨ms', hsuffix, hleft⟩ :=
        ih (fun m' hm => hplain m' (List.mem_cons_of_mem m hm)) blank_lineEnd (i - m.body.length)
      exact ⟨ms', hsuffix.trans (List.suffix_cons m ms), hleft⟩

/-- A cut behind the first byte of a stream leaves its first message behind. -/
theorem left_wire_drop (hplain : ∀ m' ∈ m :: ms, Plain parse marked m') {n : ℕ} (hn : 0 < n) :
    ∃ ms', ms' <:+ ms ∧ Left parse marked ((wire (m :: ms)).drop n) ms' := by
  rw [wire, List.append_assoc]
  by_cases hbody : n < m.body.length
  · refine ⟨ms, List.suffix_rfl, ?_⟩
    rw [List.drop_append_of_le_length hbody.le]
    exact .inside (hplain m List.mem_cons_self) hn hbody
  · rw [List.drop_append, List.drop_eq_nil_of_le (not_lt.mp hbody), List.nil_append]
    exact left_between (fun m' hm => hplain m' (List.mem_cons_of_mem m hm)) blank_lineEnd _

/-! ### What is read first -/

/-- A marked value that is read first is that of the first message to come, which is whole in the
text, and what is left behind the text has that message behind it. -/
theorem Left.marked_first (h : Left parse marked pending ms)
    (hblank : ∀ ws, Blank ws → parse ws = none) (hreads : ∀ m ∈ ms, ReadsFirst parse m)
    (hplain : ∀ m ∈ ms, Plain parse marked m) {k : ℕ} {value : α}
    (hparse : parse (pending.take k) = some value) (hmarked : marked value = true) :
    ∃ m ms', ms = m :: ms' ∧ value = m.value ∧ Begins m.body (pending.take k) ∧
      ∃ ms'', ms'' <:+ ms' ∧ Left parse marked (pending.drop k) ms'' := by
  cases h with
  | @inside m i _ hinside hpos hlt =>
    have hno := hinside i _ k value hpos hlt hparse
    rw [hmarked] at hno
    cases hno
  | @between ws _ hws =>
    have hfar : ws.length < k := by
      by_contra hnear
      rw [List.take_append_of_le_length (not_lt.mp hnear)] at hparse
      have hnone := hblank (ws.take k) fun c hc => hws c (List.mem_of_mem_take hc)
      rw [hnone] at hparse
      cases hparse
    cases ms with
    | nil =>
      rw [wire, List.append_nil, List.take_of_length_le hfar.le, hblank ws hws] at hparse
      cases hparse
    | cons m ms =>
      have htake : (ws ++ wire (m :: ms)).take k =
          ws ++ (m.body ++ (lineEnd ++ wire ms)).take (k - ws.length) := by
        rw [wire, List.append_assoc, List.take_append, List.take_of_length_le hfar.le]
      have hdrop : (ws ++ wire (m :: ms)).drop k =
          (m.body ++ (lineEnd ++ wire ms)).drop (k - ws.length) := by
        rw [wire, List.append_assoc, List.drop_append, List.drop_eq_nil_of_le hfar.le,
          List.nil_append]
      rw [hdrop]
      rw [htake] at hparse ⊢
      generalize k - ws.length = j at hparse
      have hwhole : m.body.length ≤ j := by
        by_contra hshort
        have hlt := not_le.mp hshort
        rw [List.take_append_of_le_length hlt.le] at hparse
        have hpart : m.body.take j ≠ m.body := by
          rw [Ne, List.take_eq_self_iff]
          exact hshort
        rw [(hreads m List.mem_cons_self).cut ws _ hws (List.take_prefix j m.body) hpart] at hparse
        cases hparse
      rw [List.take_append, List.take_of_length_le hwhole] at hparse ⊢
      rw [List.drop_append, List.drop_eq_nil_of_le hwhole, List.nil_append]
      rw [(hreads m List.mem_cons_self).whole ws _ hws] at hparse
      cases hparse
      refine ⟨m, ms, rfl, rfl, ⟨ws, _, hws, rfl⟩, ?_⟩
      exact left_between (fun m' hm => hplain m' (List.mem_cons_of_mem m hm)) blank_lineEnd _

/-- Among messages of which one is marked, only that one can come first as a marked one. -/
theorem marked_head {before after : List (Message α)} {reply : Message α}
    (hbefore : ∀ m ∈ before, marked m.value = false)
    (hafter : ∀ m ∈ after, marked m.value = false) (hmarked : marked m.value = true)
    (h : m :: ms <:+ before ++ reply :: after) : m = reply ∧ ms = after := by
  have hnone : ∀ {later : List (Message α)}, (∀ m ∈ later, marked m.value = false) →
      ¬ m :: ms <:+ later := by
    intro later hlater hsuffix
    have hno := hlater m (hsuffix.subset List.mem_cons_self)
    rw [hmarked] at hno
    cases hno
  induction before with
  | nil =>
    rw [List.nil_append] at h
    rcases List.suffix_cons_iff.mp h with heq | hlater
    · exact List.cons.inj heq
    · exact absurd hlater (hnone hafter)
  | cons e before ih =>
    rw [List.cons_append] at h
    rcases List.suffix_cons_iff.mp h with heq | hlater
    · have hno := hbefore e List.mem_cons_self
      rw [← (List.cons.inj heq).1, hmarked] at hno
      cases hno
    · exact ih (fun m' hm => hbefore m' (List.mem_cons_of_mem e hm)) hlater

/-! ### A reader of known messages -/

/-- Reads the messages of a table, none of which begins with another. -/
def readTable (table : List (Message α)) (t : Text) : Option α :=
  (table.find? fun m => m.body.isPrefixOf (t.dropWhile isSpace)).map Message.value

/-- Neither message begins with the other. -/
def Apart (m₁ m₂ : Message α) : Prop := ¬ m₁.body <+: m₂.body ∧ ¬ m₂.body <+: m₁.body

instance decidableApart (m₁ m₂ : Message α) : Decidable (Apart m₁ m₂) :=
  inferInstanceAs (Decidable (_ ∧ _))

instance symmApart : Std.Symm (Apart (α := α)) := ⟨fun _ _ h => And.symm h⟩

theorem readTable_reads {table : List (Message α)} (hfree : table.Pairwise Apart)
    (hstart : ∀ m ∈ table, m.body.head?.any (fun c => !isSpace c) = true)
    (hnul : ∀ m ∈ table, '\x00' ∉ m.body) (hm : m ∈ table) : ReadsFirst (readTable table) m := by
  have hfree : ∀ m₁ ∈ table, ∀ m₂ ∈ table, m₁.body <+: m₂.body → m₁ = m₂ := by
    intro m₁ h₁ m₂ h₂ hstarts
    by_contra hne
    exact (hfree.forall h₁ h₂ hne).1 hstarts
  have hsame : ∀ m' ∈ table, ∀ t, m'.body <+: t → m.body <+: t → m' = m := by
    intro m' hm' t h' h
    rcases List.prefix_or_prefix_of_prefix h' h with hstarts | hstarts
    · exact hfree m' hm' m hm hstarts
    · exact (hfree m hm m' hm' hstarts).symm
  obtain ⟨c, body, hbody, hc⟩ : ∃ c rest, m.body = c :: rest ∧ isSpace c = false := by
    have hfirst := hstart m hm
    cases hbody : m.body with
    | nil =>
      rw [hbody] at hfirst
      cases hfirst
    | cons c rest =>
      rw [hbody] at hfirst
      exact ⟨c, rest, rfl, by simpa using hfirst⟩
  have hkeep : ∀ rest, (c :: rest).dropWhile isSpace = c :: rest :=
    fun rest => List.dropWhile_cons_of_neg (by simp [hc])
  have hdrop : ∀ {ws} (t : Text), Blank ws →
      (ws ++ t).dropWhile isSpace = t.dropWhile isSpace :=
    fun t hws => List.dropWhile_append_of_pos hws
  refine ⟨by rw [hbody]; exact List.cons_ne_nil c body, fun ws rest hws => ?_,
    fun ws part hws hpart hproper => ?_, hnul m hm⟩
  · rw [readTable, hdrop _ hws, hbody, List.cons_append, hkeep, ← List.cons_append, ← hbody]
    cases hfind : table.find? fun m' => m'.body.isPrefixOf (m.body ++ rest) with
    | none =>
      have hno := List.find?_eq_none.mp hfind m hm
      exact absurd (List.isPrefixOf_iff_prefix.mpr (List.prefix_append _ _)) hno
    | some m' =>
      have hfound : m'.body.isPrefixOf (m.body ++ rest) = true := by
        simpa using List.find?_some hfind
      have hbegins := List.isPrefixOf_iff_prefix.mp hfound
      rw [hsame m' (List.mem_of_find?_eq_some hfind) _ hbegins (List.prefix_append _ _)]
      rfl
  · have hshort : (ws ++ part).dropWhile isSpace = part := by
      rw [hdrop _ hws]
      cases part with
      | nil => rfl
      | cons d part =>
        rw [hbody] at hpart
        rw [(List.cons_prefix_cons.mp hpart).1, hkeep]
    rw [readTable, hshort, List.find?_eq_none.mpr, Option.map_none]
    intro m' hm' hbegins
    have hstarts := List.isPrefixOf_iff_prefix.mp hbegins
    have hwhole := hsame m' hm' m.body (hstarts.trans hpart) List.prefix_rfl
    rw [hwhole] at hstarts
    exact hproper (hpart.eq_of_length_le hstarts.length_le)

end Ramryder.MessageStream
