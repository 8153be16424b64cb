import Ramryder.AttachPlan
import Ramryder.DemandMatching

/-! Which nodes the CLI chooses for a tier. The greedy choice takes the nodes in the order of their
free memory, so it fails only where no assignment of the sizes to distinct nodes has room. -/
namespace Ramryder.TierChoice
open AttachPlan CMachine Cli CreatePlan DemandMatching

/-! ### The sizes -/

theorem splitMemory_pos {totalMb channels sizeMb : ℤ} (hpos : 0 < channels)
    (hfits : channels ≤ totalMb) (h : sizeMb ∈ splitMemory totalMb channels) : 0 < sizeMb := by
  have hbase : 1 ≤ totalMb / channels := Int.le_ediv_of_mul_le hpos (by omega)
  obtain ⟨i, _, rfl⟩ := List.mem_map.mp h
  split_ifs <;> omega

theorem splitMemory_length (totalMb channels : ℤ) :
    (splitMemory totalMb channels).length = channels.toNat := by
  simp [splitMemory]

/-! ### The choice of the nodes -/

variable {memoryName : String} {nodes candidates : List MemPoolNode} {sizes used : List ℤ}
  {selected : List (ℤ × ℤ)}

theorem pickNodes_cons {sizeMb : ℤ}
    (h : pickNodes memoryName candidates (sizeMb :: sizes) used = .ok selected) :
    ∃ picked rest, candidates.find? (fun node =>
        decide (node.nodeId ∉ used) && decide (sizeMb ≤ node.freeMb)) = some picked ∧
      pickNodes memoryName candidates sizes (picked.nodeId :: used) = .ok rest ∧
      selected = (picked.nodeId, sizeMb) :: rest := by
  rw [pickNodes] at h
  split at h
  · rename_i picked hpicked
    obtain ⟨rest, hrest, h⟩ := bind_eq_ok.mp h
    cases h
    exact ⟨picked, rest, hpicked, hrest, rfl⟩
  · cases h

/-- Each size gets a node of its own that has room for it. -/
theorem pickNodes_ok (h : pickNodes memoryName candidates sizes used = .ok selected) :
    selected.map Prod.snd = sizes ∧ (selected.map Prod.fst).Nodup ∧
      ∀ e ∈ selected, e.1 ∉ used ∧ ∃ node ∈ candidates, node.nodeId = e.1 ∧ e.2 ≤ node.freeMb := by
  induction sizes generalizing used selected with
  | nil =>
    cases h
    exact ⟨rfl, List.nodup_nil, nofun⟩
  | cons sizeMb sizes ih =>
    obtain ⟨picked, rest, hpicked, hrest, rfl⟩ := pickNodes_cons h
    obtain ⟨hsizes, hnodup, hrooms⟩ := ih hrest
    have hroom : picked.nodeId ∉ used ∧ sizeMb ≤ picked.freeMb := by
      simpa using List.find?_some hpicked
    refine ⟨by rw [List.map_cons, hsizes], ?_, fun e he => ?_⟩
    · rw [List.map_cons, List.nodup_cons]
      refine ⟨fun hmem => ?_, hnodup⟩
      obtain ⟨e, he, heq⟩ := List.mem_map.mp hmem
      exact (hrooms e he).1 (heq ▸ List.mem_cons_self)
    · rcases List.mem_cons.mp he with rfl | he
      · exact ⟨hroom.1, picked, List.mem_of_find?_eq_some hpicked, rfl, hroom.2⟩
      · obtain ⟨hnew, hnode⟩ := hrooms e he
        exact ⟨fun hold => hnew (List.mem_cons_of_mem _ hold), hnode⟩

theorem find?_done {done : List MemPoolNode} {sizeMb : ℤ}
    (hused : ∀ n, n ∈ used ↔ n ∈ done.map MemPoolNode.nodeId) :
    done.find? (fun node => decide (node.nodeId ∉ used) && decide (sizeMb ≤ node.freeMb)) = none := by
  rw [List.find?_eq_none]
  intro node hnode hroom
  have hnew : node.nodeId ∉ used ∧ sizeMb ≤ node.freeMb := by simpa using hroom
  exact hnew.1 ((hused _).mpr (List.mem_map_of_mem hnode))

theorem first_unused {done rest : List MemPoolNode} {first : MemPoolNode}
    (hnodup : ((done ++ first :: rest).map MemPoolNode.nodeId).Nodup)
    (hused : ∀ n, n ∈ used ↔ n ∈ done.map MemPoolNode.nodeId) : first.nodeId ∉ used := by
  rw [hused]
  intro hmem
  rw [List.map_append, List.nodup_append] at hnodup
  exact hnodup.2.2 _ hmem _ List.mem_cons_self rfl

instance : Std.Total fun a b : MemPoolNode => a.freeMb ≥ b.freeMb := ⟨fun a b => le_total b.freeMb a.freeMb⟩

instance : IsTrans MemPoolNode fun a b => a.freeMb ≥ b.freeMb := ⟨fun _ _ _ hab hbc => le_trans hbc hab⟩

/-- The nodes of a tier in the order in which the choice takes them. -/
def freestNodes (nodes : List MemPoolNode) : List MemPoolNode :=
  nodes.insertionSort fun a b => a.freeMb ≥ b.freeMb

theorem chooseAllocationsForTier_ok
    (h : chooseAllocationsForTier nodes sizes memoryName = .ok selected) :
    ∃ picks, pickNodes memoryName (freestNodes nodes) (sizes.insertionSort (· ≥ ·)) [] = .ok picks ∧
      selected = picks.insertionSort fun a b => a.1 ≤ b.1 := by
  unfold chooseAllocationsForTier at h
  dsimp only at h
  split_ifs at h with hnone
  · cases h
    rw [List.length_eq_zero_iff.mp hnone]
    exact ⟨[], rfl, rfl⟩
  · obtain ⟨picks, hpicks, h⟩ := bind_eq_ok.mp h
    cases h
    exact ⟨picks, hpicks, rfl⟩

/-- Every choice for a tier: distinct nodes of the list, each with room for its size. -/
theorem chooseAllocationsForTier_rooms
    (h : chooseAllocationsForTier nodes sizes memoryName = .ok selected) :
    (selected.map Prod.fst).Nodup ∧ ∀ e ∈ selected, e.2 ∈ sizes ∧
      ∃ node ∈ nodes, node.nodeId = e.1 ∧ e.2 ≤ node.freeMb := by
  obtain ⟨picks, hpicks, rfl⟩ := chooseAllocationsForTier_ok h
  obtain ⟨hsizes, hnodup, hrooms⟩ := pickNodes_ok hpicks
  have hperm := List.perm_insertionSort (fun a b : ℤ × ℤ => a.1 ≤ b.1) picks
  refine ⟨(hperm.map Prod.fst).nodup_iff.mpr hnodup, fun e he => ?_⟩
  have he : e ∈ picks := hperm.mem_iff.mp he
  obtain ⟨node, hnode, hid, hfree⟩ := (hrooms e he).2
  have hsize : e.2 ∈ picks.map Prod.snd := List.mem_map_of_mem he
  rw [hsizes] at hsize
  exact ⟨(List.mem_insertionSort _).mp hsize, node, (List.mem_insertionSort _).mp hnode, hid, hfree⟩

/-! ### The choice fails only where there is none -/

/-- Where the nodes in order have room for the sizes, the choice goes through. -/
theorem pickNodes_met {done rest : List MemPoolNode}
    (hnodup : ((done ++ rest).map MemPoolNode.nodeId).Nodup)
    (hused : ∀ n, n ∈ used ↔ n ∈ done.map MemPoolNode.nodeId)
    (hmet : List.Forall₂ (fun size node => size ≤ node.freeMb) sizes (rest.take sizes.length)) :
    ∃ selected, pickNodes memoryName (done ++ rest) sizes used = .ok selected := by
  induction sizes generalizing done rest used with
  | nil => exact ⟨[], rfl⟩
  | cons sizeMb sizes ih =>
    cases rest with
    | nil => cases hmet
    | cons first rest =>
      rw [List.length_cons, List.take_succ_cons] at hmet
      obtain ⟨hroom, hmet⟩ := List.forall₂_cons.mp hmet
      have hnew : first.nodeId ∉ used := first_unused hnodup hused
      have hpick : (done ++ first :: rest).find? (fun node =>
          decide (node.nodeId ∉ used) && decide (sizeMb ≤ node.freeMb)) = some first := by
        rw [List.find?_append, find?_done hused, Option.none_or,
          List.find?_cons_of_pos (by simpa using ⟨hnew, hroom⟩)]
      have hsplit : done ++ first :: rest = (done ++ [first]) ++ rest := by simp
      obtain ⟨tail, htail⟩ := @ih (first.nodeId :: used) (done ++ [first]) rest (by rwa [← hsplit])
        (fun n => by simp [hused, or_comm]) hmet
      refine ⟨(first.nodeId, sizeMb) :: tail, ?_⟩
      rw [pickNodes, hpick, hsplit]
      dsimp only
      rw [htail]
      rfl

theorem freestNodes_sorted (nodes : List MemPoolNode) :
    (freestNodes nodes).Pairwise fun a b => a.freeMb ≥ b.freeMb :=
  List.pairwise_insertionSort _ _

theorem freestNodes_perm (nodes : List MemPoolNode) : (freestNodes nodes).Perm nodes :=
  List.perm_insertionSort _ _

theorem freestNodes_nodup (hdistinct : (nodes.map MemPoolNode.nodeId).Nodup) :
    ((freestNodes nodes).map MemPoolNode.nodeId).Nodup :=
  ((freestNodes_perm nodes).map MemPoolNode.nodeId).nodup_iff.mpr hdistinct

/-- An assignment the tier has room for is found. -/
theorem chooseAllocationsForTier_total (hdistinct : (nodes.map MemPoolNode.nodeId).Nodup)
    (h : Assignable MemPoolNode.freeMb nodes sizes) :
    ∃ selected, chooseAllocationsForTier nodes sizes memoryName = .ok selected := by
  have hlen := h.length_le
  unfold chooseAllocationsForTier
  dsimp only
  split_ifs with hnone hshort
  · exact ⟨[], rfl⟩
  · omega
  · have hcovered : Covered MemPoolNode.freeMb (freestNodes nodes) (sizes.insertionSort (· ≥ ·)) :=
      fun t => (h.covered.perm (List.perm_insertionSort (· ≥ ·) sizes).symm t).trans
        ((freestNodes_perm nodes).countP_eq _).ge
    have hmet := hcovered.forall₂_take (List.pairwise_insertionSort (· ≥ ·) sizes)
      (freestNodes_sorted nodes)
    obtain ⟨picks, hpicks⟩ := @pickNodes_met memoryName _ [] [] (freestNodes nodes)
      (freestNodes_nodup hdistinct) (fun n => by simp) hmet
    refine ⟨picks.insertionSort fun a b => a.1 ≤ b.1, ?_⟩
    have hpicks : pickNodes memoryName (nodes.insertionSort fun a b => a.freeMb ≥ b.freeMb)
        (sizes.insertionSort (· ≥ ·)) [] = .ok picks := hpicks
    rw [hpicks]
    rfl

instance nodeOrder_total : Std.Total fun a b : ℤ × ℤ => a.1 ≤ b.1 := ⟨fun a b => le_total a.1 b.1⟩

instance nodeOrder_trans : IsTrans (ℤ × ℤ) fun a b => a.1 ≤ b.1 := ⟨fun _ _ _ hab hbc => le_trans hab hbc⟩

/-- A choice is in the order of the node ids and gives out the sizes asked for. -/
theorem chooseAllocationsForTier_sorted
    (h : chooseAllocationsForTier nodes sizes memoryName = .ok selected) :
    selected.Pairwise (fun a b => a.1 < b.1) ∧ (selected.map Prod.snd).Perm sizes := by
  have hnodup := (chooseAllocationsForTier_rooms h).1
  obtain ⟨picks, hpicks, rfl⟩ := chooseAllocationsForTier_ok h
  have hle := List.pairwise_insertionSort (fun a b : ℤ × ℤ => a.1 ≤ b.1) picks
  constructor
  · have hne := List.pairwise_map.mp hnodup
    exact (hle.and hne).imp fun hab => lt_of_le_of_ne hab.1 hab.2
  · refine ((List.perm_insertionSort _ picks).map Prod.snd).trans ?_
    rw [(pickNodes_ok hpicks).1]
    exact List.perm_insertionSort _ sizes

/-- The sizes can be given to distinct nodes of the list that have room for them. -/
def HasRoom (nodes : List MemPoolNode) (sizes : List ℤ) : Prop :=
  ∃ chosen, chosen ⊆ nodes ∧ (chosen.map MemPoolNode.nodeId).Nodup ∧
    List.Forall₂ (fun size node => size ≤ node.freeMb) sizes chosen

theorem hasRoom_iff (hdistinct : (nodes.map MemPoolNode.nodeId).Nodup) :
    HasRoom nodes sizes ↔ Assignable MemPoolNode.freeMb nodes sizes := by
  constructor
  · rintro ⟨chosen, hsub, hnodup, hmet⟩
    exact ⟨chosen, List.subperm_of_subset hnodup.of_map hsub, hmet⟩
  · rintro ⟨chosen, hsub, hmet⟩
    obtain ⟨ordered, hperm, hordered⟩ := hsub
    have hnodup := (hordered.map MemPoolNode.nodeId).nodup hdistinct
    exact ⟨chosen, fun _ hmem => hordered.subset (hperm.mem_iff.mpr hmem),
      (hperm.map MemPoolNode.nodeId).nodup_iff.mp hnodup, hmet⟩

/-- Entries with room on distinct nodes are an assignment of their sizes. -/
theorem hasRoom_of_entries (hnodup : (selected.map Prod.fst).Nodup)
    (hrooms : ∀ e ∈ selected, ∃ node ∈ nodes, node.nodeId = e.1 ∧ e.2 ≤ node.freeMb) :
    HasRoom nodes (selected.map Prod.snd) := by
  have hchosen : ∃ chosen, chosen ⊆ nodes ∧ chosen.map MemPoolNode.nodeId = selected.map Prod.fst ∧
      List.Forall₂ (fun size node => size ≤ node.freeMb) (selected.map Prod.snd) chosen := by
    clear hnodup
    induction selected with
    | nil => exact ⟨[], List.nil_subset _, rfl, .nil⟩
    | cons e selected ih =>
      obtain ⟨node, hnode, hid, hroom⟩ := hrooms e List.mem_cons_self
      obtain ⟨chosen, hsub, hids, hmet⟩ := ih fun e' he' => hrooms e' (List.mem_cons_of_mem e he')
      refine ⟨node :: chosen, List.cons_subset.mpr ⟨hnode, hsub⟩, ?_, .cons hroom hmet⟩
      rw [List.map_cons, List.map_cons, hid, hids]
  obtain ⟨chosen, hsub, hids, hmet⟩ := hchosen
  exact ⟨chosen, hsub, by rwa [hids], hmet⟩

theorem HasRoom.perm {sizes' : List ℤ} (hdistinct : (nodes.map MemPoolNode.nodeId).Nodup)
    (h : HasRoom nodes sizes) (hperm : sizes.Perm sizes') : HasRoom nodes sizes' :=
  (hasRoom_iff hdistinct).mpr (((hasRoom_iff hdistinct).mp h).perm hperm)

theorem chooseAllocationsForTier_hasRoom (hdistinct : (nodes.map MemPoolNode.nodeId).Nodup)
    (h : chooseAllocationsForTier nodes sizes memoryName = .ok selected) : HasRoom nodes sizes := by
  obtain ⟨hnodup, hrooms⟩ := chooseAllocationsForTier_rooms h
  exact (hasRoom_of_entries hnodup fun e he => (hrooms e he).2).perm hdistinct
    (chooseAllocationsForTier_sorted h).2

/-- For all nodes with distinct ids and all sizes: the choice raises exactly where no assignment to
distinct nodes has room, and what it returns is one, in the order of the node ids. -/
theorem chooseAllocationsForTier_exact (hdistinct : (nodes.map MemPoolNode.nodeId).Nodup)
    (sizes : List ℤ) (memoryName : String) :
    ((∃ e, chooseAllocationsForTier nodes sizes memoryName = .error e) ↔ ¬ HasRoom nodes sizes) ∧
      ∀ selected, chooseAllocationsForTier nodes sizes memoryName = .ok selected →
        selected.Pairwise (fun a b => a.1 < b.1) ∧ (selected.map Prod.snd).Perm sizes ∧
          ∀ e ∈ selected, ∃ node ∈ nodes, node.nodeId = e.1 ∧ e.2 ≤ node.freeMb := by
  refine ⟨⟨?_, fun hno => ?_⟩, fun selected h => ?_⟩
  · rintro ⟨e, he⟩ hroom
    obtain ⟨selected, h⟩ := @chooseAllocationsForTier_total memoryName nodes sizes hdistinct
      ((hasRoom_iff hdistinct).mp hroom)
    rw [he] at h
    cases h
  · cases h : chooseAllocationsForTier nodes sizes memoryName with
    | error e => exact ⟨e, rfl⟩
    | ok selected => exact absurd (chooseAllocationsForTier_hasRoom hdistinct h) hno
  · obtain ⟨hsorted, hperm⟩ := chooseAllocationsForTier_sorted h
    exact ⟨hsorted, hperm, fun e he => ((chooseAllocationsForTier_rooms h).2 e he).2⟩

/-- Two nodes, the larger of them first in use. -/
theorem chooseAllocationsForTier_exact_twoNodes :
    ((∃ e, chooseAllocationsForTier [⟨0, 0, 128⟩, ⟨1, 0, 512⟩] [128, 256] "DIMM" = .error e) ↔
      ¬ HasRoom [⟨0, 0, 128⟩, ⟨1, 0, 512⟩] [128, 256]) ∧
      ∀ selected,
        chooseAllocationsForTier [⟨0, 0, 128⟩, ⟨1, 0, 512⟩] [128, 256] "DIMM" = .ok selected →
        selected.Pairwise (fun a b => a.1 < b.1) ∧ (selected.map Prod.snd).Perm [128, 256] ∧
          ∀ e ∈ selected, ∃ node ∈ [(⟨0, 0, 128⟩ : MemPoolNode), ⟨1, 0, 512⟩],
            node.nodeId = e.1 ∧ e.2 ≤ node.freeMb :=
  chooseAllocationsForTier_exact (by decide) [128, 256] "DIMM"

example : chooseAllocationsForTier [⟨0, 0, 128⟩, ⟨1, 0, 512⟩] [128, 256] "DIMM" =
    .ok [(0, 128), (1, 256)] := by decide

/-! ### Even shares -/

/-- The sizes differ by at most one. -/
def Even (sizes : List ℤ) : Prop := ∀ s ∈ sizes, ∀ t ∈ sizes, s ≤ t + 1

theorem sum_two_values {b : ℤ} (h : ∀ s ∈ sizes, s = b ∨ s = b + 1) :
    sizes.sum = sizes.length * b + sizes.count (b + 1) := by
  induction sizes with
  | nil => simp
  | cons s sizes ih =>
    have ih := ih fun t ht => h t (List.mem_cons_of_mem s ht)
    rw [List.sum_cons, ih, List.length_cons]
    rcases h s List.mem_cons_self with rfl | rfl
    · rw [List.count_cons_of_ne (by omega)]
      push_cast
      ring
    · rw [List.count_cons_self]
      push_cast
      ring

theorem length_two_values {b : ℤ} (h : ∀ s ∈ sizes, s = b ∨ s = b + 1) :
    sizes.length = sizes.count b + sizes.count (b + 1) := by
  induction sizes with
  | nil => rfl
  | cons s sizes ih =>
    have ih := ih fun t ht => h t (List.mem_cons_of_mem s ht)
    rw [List.length_cons, ih]
    rcases h s List.mem_cons_self with rfl | rfl
    · rw [List.count_cons_self, List.count_cons_of_ne (by omega)]
      omega
    · rw [List.count_cons_self, List.count_cons_of_ne (by omega)]
      omega

/-- Two lists of two neighbouring values with one length and one sum have the same entries. -/
theorem perm_of_two_values {sizes' : List ℤ} {b : ℤ} (h : ∀ s ∈ sizes, s = b ∨ s = b + 1)
    (h' : ∀ s ∈ sizes', s = b ∨ s = b + 1) (hlen : sizes.length = sizes'.length)
    (hsum : sizes.sum = sizes'.sum) : sizes.Perm sizes' := by
  have hupper : sizes.count (b + 1) = sizes'.count (b + 1) := by
    rw [sum_two_values h, sum_two_values h', hlen] at hsum
    omega
  have hlower : sizes.count b = sizes'.count b := by
    have := length_two_values h
    have := length_two_values h'
    omega
  rw [List.perm_iff_count]
  intro s
  by_cases hs : s = b ∨ s = b + 1
  · rcases hs with rfl | rfl
    · exact hlower
    · exact hupper
  · rw [List.count_eq_zero_of_not_mem fun hmem => hs (h s hmem),
      List.count_eq_zero_of_not_mem fun hmem => hs (h' s hmem)]

theorem splitMemory_values {totalMb channels s : ℤ} (h : s ∈ splitMemory totalMb channels) :
    s = totalMb / channels ∨ s = totalMb / channels + 1 := by
  obtain ⟨i, _, rfl⟩ := List.mem_map.mp h
  split_ifs
  · exact .inr rfl
  · exact .inl rfl

theorem splitMemory_sum {totalMb channels : ℤ} (hpos : 0 < channels) :
    (splitMemory totalMb channels).sum = totalMb := by
  have hpart : ∀ (b r : ℤ) (n : ℕ), 0 ≤ r →
      ((List.range n).map fun i : ℕ => if (i : ℤ) < r then b + 1 else b).sum =
        n * b + min (n : ℤ) r := by
    intro b r n hr
    induction n with
    | zero => simp [hr]
    | succ n ih =>
      rw [List.range_succ, List.map_append, List.sum_append, ih, List.map_singleton,
        List.sum_singleton]
      push_cast
      split_ifs with hn
      · rw [min_eq_left hn.le, min_eq_left (by omega)]
        ring
      · rw [min_eq_right (by omega), min_eq_right (by omega)]
        ring
  have hrem := Int.emod_lt_of_pos totalMb hpos
  rw [splitMemory, hpart _ _ _ (Int.emod_nonneg totalMb hpos.ne'), Int.toNat_of_nonneg hpos.le,
    min_eq_right hrem.le]
  exact Int.mul_ediv_add_emod totalMb channels

theorem splitMemory_even (totalMb channels : ℤ) : Even (splitMemory totalMb channels) := by
  intro s hs t ht
  have := splitMemory_values hs
  have := splitMemory_values ht
  omega

/-- There is only one way to share evenly, up to order. -/
theorem even_unique {totalMb channels : ℤ} (hpos : 0 < channels) (heven : Even sizes)
    (hlen : (sizes.length : ℤ) = channels) (hsum : sizes.sum = totalMb) :
    sizes.Perm (splitMemory totalMb channels) := by
  have hparts := Int.mul_ediv_add_emod totalMb channels
  have hrem := Int.emod_lt_of_pos totalMb hpos
  have hrem0 := Int.emod_nonneg totalMb hpos.ne'
  have hvalues : ∀ s ∈ sizes, s = totalMb / channels ∨ s = totalMb / channels + 1 := by
    intro s hs
    generalize totalMb / channels = q at *
    generalize totalMb % channels = r at *
    have hupper : s ≤ q + 1 := by
      -- otherwise every size is above the share
      by_contra hbig
      have hall : ∀ t ∈ sizes, q + 1 ≤ t := fun t ht => by
        have := heven s hs t ht
        omega
      have := List.card_nsmul_le_sum sizes (q + 1) hall
      rw [hsum, nsmul_eq_mul, hlen, mul_add] at this
      omega
    have hlower : q ≤ s := by
      -- otherwise every other size is at most the share, and this one less
      by_contra hsmall
      have hall : ∀ t ∈ sizes.erase s, t ≤ q := fun t ht => by
        have := heven t (List.mem_of_mem_erase ht) s hs
        omega
      have hrest := List.sum_le_card_nsmul (sizes.erase s) q hall
      have herase := List.sum_erase hs
      have hcount : ((sizes.erase s).length : ℤ) = channels - 1 := by
        have := List.length_erase_of_mem hs
        have := List.length_pos_of_mem hs
        omega
      rw [nsmul_eq_mul, hcount, sub_mul] at hrest
      omega
    omega
  refine perm_of_two_values hvalues (fun s => splitMemory_values) ?_ ?_
  · rw [splitMemory_length]
    omega
  · rw [hsum, splitMemory_sum hpos]

/-! ### Choosing for a VM that runs -/

/-- The nodes of the tier the VM has already, or those it has not. -/
def attachCandidates (tierNodes : List MemPoolNode) (channels : ℤ) (existing : List ℤ) :
    List MemPoolNode :=
  if channels = 0 then tierNodes.filter fun n => decide (n.nodeId ∈ existing)
  else tierNodes.filter fun n => decide (n.nodeId ∉ existing)

/-- How many shares there are. -/
def channelCount (tierNodes : List MemPoolNode) (channels : ℤ) (existing : List ℤ) : ℤ :=
  if channels = 0 then (attachCandidates tierNodes 0 existing).length else channels

/-- What a choice for an attach must fulfil: even shares of the memory, on distinct nodes of the tier
that have room, which are all those the VM has, or so many it has not. -/
structure AttachChoice (tierNodes : List MemPoolNode) (memoryMb channels : ℤ) (existing : List ℤ)
    (selected : List (ℤ × ℤ)) : Prop where
  total : (selected.map Prod.snd).sum = memoryMb
  even : Even (selected.map Prod.snd)
  distinct : (selected.map Prod.fst).Nodup
  room : ∀ e ∈ selected, ∃ node ∈ tierNodes, node.nodeId = e.1 ∧ e.2 ≤ node.freeMb
  reused : channels = 0 → ∀ nid, nid ∈ selected.map Prod.fst ↔
    nid ∈ existing ∧ nid ∈ tierNodes.map MemPoolNode.nodeId
  fresh : 0 < channels → (selected.length : ℤ) = channels ∧ ∀ nid ∈ selected.map Prod.fst, nid ∉ existing

variable {tierNodes : List MemPoolNode} {memoryMb channels : ℤ} {existing : List ℤ}

theorem mem_attachCandidates {node : MemPoolNode} :
    node ∈ attachCandidates tierNodes channels existing ↔
      node ∈ tierNodes ∧ (channels = 0 ↔ node.nodeId ∈ existing) := by
  unfold attachCandidates
  split_ifs with hc
  · simp [hc]
  · simp [hc]

theorem attachCandidates_sublist :
    (attachCandidates tierNodes channels existing).Sublist tierNodes := by
  unfold attachCandidates
  split_ifs
  · exact List.filter_sublist
  · exact List.filter_sublist

theorem attachCandidates_zero_eq_nil : attachCandidates tierNodes 0 existing = [] ↔
    existing.filter (fun nid => decide (nid ∈ tierNodes.map MemPoolNode.nodeId)) = [] := by
  simp only [attachCandidates, if_pos, List.filter_eq_nil_iff, decide_eq_true_eq]
  constructor
  · intro h nid hnid htier
    obtain ⟨node, hnode, rfl⟩ := List.mem_map.mp htier
    exact h node hnode hnid
  · intro h node hnode hnid
    exact h _ hnid (List.mem_map_of_mem hnode)

/-- The selection hands over as many of the freest candidates as there are shares, or there are not
so many, or there are none. -/
theorem selectAttachNodes_cases (tierNodes : List MemPoolNode) (existing : List ℤ)
    (memoryName : String) (hchannels : 0 ≤ channels) :
    ((∃ e, selectAttachNodes tierNodes channels existing memoryName = .error e) ∧
      (channelCount tierNodes channels existing = 0 ∨
        ((attachCandidates tierNodes channels existing).length : ℤ) <
          channelCount tierNodes channels existing)) ∨
    ∃ sel, selectAttachNodes tierNodes channels existing memoryName =
        .ok (sel, channelCount tierNodes channels existing) ∧
      0 < channelCount tierNodes channels existing ∧
      channelCount tierNodes channels existing ≤
        (attachCandidates tierNodes channels existing).length ∧
      sel.Perm ((freestNodes (attachCandidates tierNodes channels existing)).take
        (channelCount tierNodes channels existing).toNat) := by
  have hmem : ∀ node ∈ tierNodes, node.nodeId ∈ (existing.filter fun nid =>
      decide (nid ∈ tierNodes.map MemPoolNode.nodeId)).insertionSort (· ≤ ·) ↔
        node.nodeId ∈ existing := by
    intro node hnode
    rw [List.mem_insertionSort, List.mem_filter]
    simp only [decide_eq_true_eq]
    exact and_iff_left (List.mem_map_of_mem hnode)
  have hnil : (existing.filter fun nid =>
      decide (nid ∈ tierNodes.map MemPoolNode.nodeId)).insertionSort (· ≤ ·) = [] ↔
        attachCandidates tierNodes 0 existing = [] := by
    rw [attachCandidates_zero_eq_nil, ← List.length_eq_zero_iff, List.length_insertionSort,
      List.length_eq_zero_iff]
  have hold : tierNodes.filter (fun n => decide (n.nodeId ∈ (existing.filter fun nid =>
      decide (nid ∈ tierNodes.map MemPoolNode.nodeId)).insertionSort (· ≤ ·))) =
        tierNodes.filter fun n => decide (n.nodeId ∈ existing) :=
    List.filter_congr fun node hnode => by simp only [hmem node hnode]
  have hnew : tierNodes.filter (fun n => decide (n.nodeId ∉ (existing.filter fun nid =>
      decide (nid ∈ tierNodes.map MemPoolNode.nodeId)).insertionSort (· ≤ ·))) =
        tierNodes.filter fun n => decide (n.nodeId ∉ existing) :=
    List.filter_congr fun node hnode => by simp only [hmem node hnode]
  unfold selectAttachNodes
  simp only [hnil, hold, hnew]
  by_cases hc : channels = 0
  · subst hc
    have hcount : channelCount tierNodes 0 existing =
        ((attachCandidates tierNodes 0 existing).length : ℤ) := if_pos rfl
    rw [if_pos rfl, hcount]
    split_ifs with hnone
    · rw [hnone]
      exact .inl ⟨⟨_, rfl⟩, .inl rfl⟩
    · have hpos := List.length_pos_iff.mpr hnone
      refine .inr ⟨attachCandidates tierNodes 0 existing, rfl, by omega, le_rfl, ?_⟩
      have hall : (freestNodes (attachCandidates tierNodes 0 existing)).length ≤
          ((attachCandidates tierNodes 0 existing).length : ℤ).toNat := by
        rw [(freestNodes_perm _).length_eq, Int.toNat_natCast]
      rw [List.take_of_length_le hall]
      exact (freestNodes_perm _).symm
  · have hcount : channelCount tierNodes channels existing = channels := if_neg hc
    have hcandidates : attachCandidates tierNodes channels existing =
        tierNodes.filter fun n => decide (n.nodeId ∉ existing) := if_neg hc
    rw [if_neg hc, if_neg (not_lt.mpr hchannels), hcount, hcandidates]
    split_ifs with hshort
    · exact .inl ⟨⟨_, rfl⟩, .inr hshort⟩
    · exact .inr ⟨_, rfl, by omega, not_lt.mp hshort, .refl _⟩

theorem chooseAllocationsForTierAttach_ok (hmemory : 0 < memoryMb) (hchannels : 0 ≤ channels)
    (h : chooseAllocationsForTierAttach tierNodes memoryMb channels existing memoryName =
      .ok selected) : ∃ sel,
      chooseAllocationsForTier sel
        (splitMemory memoryMb (channelCount tierNodes channels existing)) memoryName = .ok selected ∧
      0 < channelCount tierNodes channels existing ∧
      sel ⊆ attachCandidates tierNodes channels existing := by
  rw [chooseAllocationsForTierAttach, if_neg (not_le.mpr hmemory)] at h
  rcases selectAttachNodes_cases tierNodes existing memoryName hchannels with ⟨⟨e, he⟩, _⟩ | ⟨sel, hsel, hpos, _, hperm⟩
  · rw [he] at h
    cases h
  · rw [hsel, ok_bind] at h
    obtain ⟨_, _, h⟩ := bind_eq_ok.mp h
    refine ⟨sel, h, hpos, fun node hnode => ?_⟩
    exact (freestNodes_perm _).subset (List.take_subset _ _ (hperm.subset hnode))

/-- What is chosen for an attach fulfils what it must. -/
theorem attachChoice_of_ok (hmemory : 0 < memoryMb) (hchannels : 0 ≤ channels)
    (h : chooseAllocationsForTierAttach tierNodes memoryMb channels existing memoryName =
      .ok selected) : AttachChoice tierNodes memoryMb channels existing selected := by
  obtain ⟨sel, h, hpos, hsub⟩ := chooseAllocationsForTierAttach_ok hmemory hchannels h
  obtain ⟨hnodup, hrooms⟩ := chooseAllocationsForTier_rooms h
  have hsizes := (chooseAllocationsForTier_sorted h).2
  have hlen : (selected.length : ℤ) = channelCount tierNodes channels existing := by
    have hlen := hsizes.length_eq
    rw [List.length_map, splitMemory_length] at hlen
    omega
  have hids : ∀ nid ∈ selected.map Prod.fst,
      ∃ node ∈ attachCandidates tierNodes channels existing, node.nodeId = nid := by
    intro nid hnid
    obtain ⟨e, he, rfl⟩ := List.mem_map.mp hnid
    obtain ⟨_, node, hnode, hid, _⟩ := hrooms e he
    exact ⟨node, hsub hnode, hid⟩
  refine ⟨hsizes.sum_eq.trans (splitMemory_sum hpos), fun s hs t ht => ?_, hnodup, fun e he => ?_,
    fun hc nid => ?_, fun hc => ⟨?_, fun nid hnid hold => ?_⟩⟩
  · exact splitMemory_even _ _ s (hsizes.mem_iff.mp hs) t (hsizes.mem_iff.mp ht)
  · obtain ⟨_, node, hnode, hroom⟩ := hrooms e he
    exact ⟨node, attachCandidates_sublist.subset (hsub hnode), hroom⟩
  · -- as many distinct candidates as there are candidates
    subst hc
    rw [channelCount, if_pos rfl] at hlen
    have hsubset : selected.map Prod.fst ⊆
        (attachCandidates tierNodes 0 existing).map MemPoolNode.nodeId := fun nid hnid => by
      obtain ⟨node, hnode, hid⟩ := hids nid hnid
      exact List.mem_map.mpr ⟨node, hnode, hid⟩
    have hperm := (List.subperm_of_subset hnodup hsubset).perm_of_length_le (by simp; omega)
    rw [hperm.mem_iff, List.mem_map]
    constructor
    · rintro ⟨node, hnode, rfl⟩
      obtain ⟨htier, hold⟩ := mem_attachCandidates.mp hnode
      exact ⟨hold.mp rfl, List.mem_map_of_mem htier⟩
    · rintro ⟨hold, htier⟩
      obtain ⟨node, hnode, rfl⟩ := List.mem_map.mp htier
      exact ⟨node, mem_attachCandidates.mpr ⟨hnode, fun _ => hold, fun _ => rfl⟩, rfl⟩
  · rw [hlen, channelCount, if_neg hc.ne']
  · obtain ⟨node, hnode, rfl⟩ := hids nid hnid
    exact hc.ne' ((mem_attachCandidates.mp hnode).2.mpr hold)

/-- Where there is such a choice, the candidates have room for the even shares. -/
theorem AttachChoice.assignable (hdistinct : (tierNodes.map MemPoolNode.nodeId).Nodup)
    (hchannels : 0 ≤ channels) (hpos : 0 < channelCount tierNodes channels existing)
    (h : AttachChoice tierNodes memoryMb channels existing selected) :
    Assignable MemPoolNode.freeMb (attachCandidates tierNodes channels existing)
      (splitMemory memoryMb (channelCount tierNodes channels existing)) := by
  have hcandidates : ((attachCandidates tierNodes channels existing).map MemPoolNode.nodeId).Nodup :=
    (attachCandidates_sublist.map MemPoolNode.nodeId).nodup hdistinct
  have hrooms : ∀ e ∈ selected, ∃ node ∈ attachCandidates tierNodes channels existing,
      node.nodeId = e.1 ∧ e.2 ≤ node.freeMb := by
    intro e he
    obtain ⟨node, hnode, hid, hroom⟩ := h.room e he
    refine ⟨node, mem_attachCandidates.mpr ⟨hnode, ?_⟩, hid, hroom⟩
    rw [hid]
    have hmem : e.1 ∈ selected.map Prod.fst := List.mem_map_of_mem he
    constructor
    · exact fun hc => ((h.reused hc e.1).mp hmem).1
    · intro hold
      by_contra hc
      exact (h.fresh (lt_of_le_of_ne hchannels (Ne.symm hc))).2 e.1 hmem hold
  have hlen : ((selected.map Prod.snd).length : ℤ) = channelCount tierNodes channels existing := by
    rw [List.length_map, channelCount]
    split_ifs with hc
    · subst hc
      have hperm : (selected.map Prod.fst).Perm
          ((attachCandidates tierNodes 0 existing).map MemPoolNode.nodeId) := by
        rw [List.perm_ext_iff_of_nodup h.distinct hcandidates]
        intro nid
        rw [h.reused rfl nid, List.mem_map, List.mem_map]
        constructor
        · rintro ⟨hold, node, hnode, rfl⟩
          exact ⟨node, mem_attachCandidates.mpr ⟨hnode, fun _ => hold, fun _ => rfl⟩, rfl⟩
        · rintro ⟨node, hnode, rfl⟩
          obtain ⟨htier, hold⟩ := mem_attachCandidates.mp hnode
          exact ⟨hold.mp rfl, node, htier, rfl⟩
      have := hperm.length_eq
      rw [List.length_map, List.length_map] at this
      rw [this]
    · exact (h.fresh (lt_of_le_of_ne hchannels (Ne.symm hc))).1
  have hroom := hasRoom_of_entries h.distinct hrooms
  exact ((hasRoom_iff hcandidates).mp hroom).perm (even_unique hpos h.even hlen h.total)

/-- For all nodes with distinct ids, every memory size, every number of channels and every list of
nodes in use: what is returned is an even choice as it must be, and the choice raises only where
there is none, there is less memory than shares, or the VM has no node of the tier. -/
theorem chooseAllocationsForTierAttach_exact (hdistinct : (tierNodes.map MemPoolNode.nodeId).Nodup)
    (hmemory : 0 < memoryMb) (hchannels : 0 ≤ channels) (existing : List ℤ) (memoryName : String) :
    (∀ selected, chooseAllocationsForTierAttach tierNodes memoryMb channels existing memoryName =
      .ok selected → AttachChoice tierNodes memoryMb channels existing selected) ∧
    ((∃ e, chooseAllocationsForTierAttach tierNodes memoryMb channels existing memoryName =
        .error e) →
      (∀ selected, ¬ AttachChoice tierNodes memoryMb channels existing selected) ∨
        memoryMb < channelCount tierNodes channels existing ∨
        channels = 0 ∧ ∀ node ∈ tierNodes, node.nodeId ∉ existing) := by
  refine ⟨fun selected h => attachChoice_of_ok hmemory hchannels h, ?_⟩
  rintro ⟨e, he⟩
  by_contra hno
  rw [not_or, not_or, not_forall] at hno
  obtain ⟨⟨selected, hchoice⟩, henough, hnode⟩ := hno
  rw [not_not] at hchoice
  have hpos : 0 < channelCount tierNodes channels existing := by
    rw [channelCount]
    split_ifs with hc
    · by_contra hnone
      have hnil : attachCandidates tierNodes 0 existing = [] := List.length_eq_zero_iff.mp (by omega)
      refine hnode ⟨hc, fun node hmem hold => ?_⟩
      have : node ∈ attachCandidates tierNodes 0 existing :=
        mem_attachCandidates.mpr ⟨hmem, fun _ => hold, fun _ => rfl⟩
      rw [hnil] at this
      cases this
    · omega
  have hassign := hchoice.assignable hdistinct hchannels hpos
  have hlen := hassign.length_le
  rw [splitMemory_length] at hlen
  rcases selectAttachNodes_cases tierNodes existing memoryName hchannels with
    ⟨_, hzero | hshort⟩ | ⟨sel, hsel, _, _, hperm⟩
  · omega
  · omega
  · have hsorted := freestNodes_sorted (attachCandidates tierNodes channels existing)
    have hroom := (hassign.largest (freestNodes_perm _) hsorted
      (splitMemory_length memoryMb _).le).mono hperm.symm.subperm
    have hsub : (sel.map MemPoolNode.nodeId).Nodup := by
      rw [(hperm.map MemPoolNode.nodeId).nodup_iff]
      refine (((List.take_sublist _ _).map MemPoolNode.nodeId).nodup (freestNodes_nodup ?_))
      exact (attachCandidates_sublist.map MemPoolNode.nodeId).nodup hdistinct
    obtain ⟨picked, hpicked⟩ := @chooseAllocationsForTier_total memoryName sel _ hsub hroom
    rw [chooseAllocationsForTierAttach, if_neg (not_le.mpr hmemory), hsel, ok_bind] at he
    dsimp only at he
    rw [raiseIf, if_neg henough, ok_bind, hpicked] at he
    cases he

/-- Two new nodes for a VM that has the first of three. -/
theorem chooseAllocationsForTierAttach_exact_threeNodes :
    let tierNodes : List MemPoolNode := [⟨0, 0, 128⟩, ⟨1, 0, 512⟩, ⟨2, 0, 256⟩]
    (∀ selected, chooseAllocationsForTierAttach tierNodes 257 2 [0, 0, 7] "DIMM" = .ok selected →
      AttachChoice tierNodes 257 2 [0, 0, 7] selected) ∧
    ((∃ e, chooseAllocationsForTierAttach tierNodes 257 2 [0, 0, 7] "DIMM" = .error e) →
      (∀ selected, ¬ AttachChoice tierNodes 257 2 [0, 0, 7] selected) ∨
        257 < channelCount tierNodes 2 [0, 0, 7] ∨
        (2 : ℤ) = 0 ∧ ∀ node ∈ tierNodes, node.nodeId ∉ [(0 : ℤ), 0, 7]) :=
  chooseAllocationsForTierAttach_exact (by decide) (by decide) (by decide) [0, 0, 7] "DIMM"

example : chooseAllocationsForTierAttach [⟨0, 0, 128⟩, ⟨1, 0, 512⟩, ⟨2, 0, 256⟩] 257 2 [0, 0, 7] "DIMM" =
    .ok [(1, 129), (2, 128)] := by decide

end Ramryder.TierChoice
