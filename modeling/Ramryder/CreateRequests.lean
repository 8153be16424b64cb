import Ramryder.CreateRuns
import Ramryder.VmDump

/-! What the server does with the requests of a run of `create-vm`, and what the run reads in
the answers. -/
namespace Ramryder.CreateRequests
open CInt CMachine CScan CText Cli ClientRequests CreatePlan GuestAgents Lifecycle Ownership PyText
  QemuCommand ResourceManager VmDump VmManager VmManagerSpec

variable {env : ServerEnv} {s s' : Server} {response : Text} {vid : ℤ}

/-! ### Requests that change nothing -/

theorem decoded_served {call : ClientCall} (hd : Decoded call)
    (h : rpcServe env s call.request = .ok (response, s')) :
    ∃ (scanned : Option Text) (r : Option Text × Manager), rpcHandle env s.mngr (scanned.getD s.args) call.command = .ok r ∧
      response = r.1.getD "Failed to get results\n".toList ∧ s'.mngr = r.2 := by
  obtain ⟨scanned, _, hserve⟩ := hd
  obtain ⟨r, hr, hres⟩ := map_eq_ok.mp ((hserve env s).symm.trans h)
  cases hres
  exact ⟨scanned, r, hr, rfl, rfl⟩

theorem served_getMemPool (h : rpcServe env s ClientCall.getMemPool.request = .ok (response, s')) :
    s'.mngr = s.mngr ∧ rpcHandleGetMemPool s.mngr = .ok response := by
  have hcmd : commandOf "get-mem-pool".toList = some .getMemPool := by rfl
  have hd : Decoded .getMemPool := word_decoded rfl (commandWords _ (by simp)) hcmd rfl
  obtain ⟨_, r, hr, rfl, hm⟩ := decoded_served hd h
  obtain ⟨t, ht, rfl⟩ := map_eq_ok.mp hr
  exact ⟨hm, ht⟩

theorem served_getVms (h : rpcServe env s ClientCall.getVms.request = .ok (response, s')) :
    s'.mngr = s.mngr ∧ rpcHandleGetVms s.mngr = .ok response := by
  have hcmd : commandOf "get-vms".toList = some .getVms := by rfl
  have hd : Decoded .getVms := word_decoded rfl (commandWords _ (by simp)) hcmd rfl
  obtain ⟨_, r, hr, rfl, hm⟩ := decoded_served hd h
  obtain ⟨t, ht, rfl⟩ := map_eq_ok.mp hr
  exact ⟨hm, ht⟩

theorem served_getNodeInfo_read {nid : ℤ}
    (h : rpcServe env s (ClientCall.getNodeInfo nid).request = .ok (response, s')) :
    s'.mngr = s.mngr ∧ ∃ a, sscanf "nid=%d" a = [.int (readBack nid)] ∧
      response = rpcHandleGetNodeInfo s.mngr a := by
  have hn := getNodeInfo_numbers nid
  have hvalues := hn.readValues
  obtain ⟨r, hr, rfl, hm⟩ := served_scanned hn.request_clean.2 hn.scanned hn.command h
  cases hr
  exact ⟨hm, _, hvalues, rfl⟩

theorem served_getNodeInfo {nid : ℤ}
    (h : rpcServe env s (ClientCall.getNodeInfo nid).request = .ok (response, s')) :
    s'.mngr = s.mngr :=
  (served_getNodeInfo_read h).1

/-! ### The id a run selects -/

theorem firstUnused_bounds (used : List ℤ) (n : ℕ) (v : ℤ) :
    v ≤ firstUnused used n v ∧ firstUnused used n v ≤ v + n := by
  induction n generalizing v with
  | zero => simp [firstUnused]
  | succ n ih =>
    have hrest := ih (v + 1)
    rw [firstUnused]
    push_cast
    split_ifs <;> omega

theorem sortedSet_length (ns : List ℤ) : (sortedSet ns).length ≤ ns.length := by
  rw [sortedSet, List.length_insertionSort]
  exact (List.dedup_sublist ns).length_le

/-- A response that was read whole names fewer ids than it has characters. -/
theorem selectVmid_nonNegInt (hfits : response.length < bufferSize) :
    NonNegInt (selectVmid (getUsedVmIds (clientText response))) := by
  have hused : (getUsedVmIds (clientText response)).length ≤ response.length := calc
    (getUsedVmIds (clientText response)).length
        ≤ ((splitlines (clientText response)).filterMap vmIdOfLine).length := sortedSet_length _
    _ ≤ (splitlines (clientText response)).length := List.length_filterMap_le _ _
    _ ≤ (clientText response).length := splitlines_length _
    _ ≤ (decode response).length := (strip_sublist _).length_le
    _ ≤ response.length := decode_length _
  have hbounds := firstUnused_bounds (getUsedVmIds (clientText response))
    (getUsedVmIds (clientText response)).length 0
  rw [bufferSize] at hfits
  rw [selectVmid, NonNegInt, intMax]
  omega

/-! ### Allocation and release -/

/-- The memory that an `alloc-mem` of these numbers adds to the VM, and the manager then. -/
def granted (m : Manager) (nid vid sizeMb : ℤ) : Option (VmMemReq × Manager) :=
  if nid < 0 ∨ vid < 0 ∨ sizeMb ≤ 0 then none
  else
    match vmMngrInstanceAllocMem m nid vid sizeMb with
    | .ok (some req, m) => some (req, m)
    | _ => none

theorem granted_eq_some {m m' : Manager} {nid sizeMb : ℤ} {req : VmMemReq}
    (h : granted m nid vid sizeMb = some (req, m')) :
    0 ≤ vid ∧ vmMngrInstanceAllocMem m nid vid sizeMb = .ok (some req, m') := by
  unfold granted at h
  split_ifs at h with hinvalid
  refine ⟨not_lt.mp fun hneg => hinvalid (.inr (.inl hneg)), ?_⟩
  revert h
  cases vmMngrInstanceAllocMem m nid vid sizeMb with
  | error e => nofun
  | ok r =>
    obtain ⟨req, m₁⟩ := r
    cases req with
    | none => nofun
    | some req =>
      intro h
      cases h
      rfl

/-- An `alloc-mem` for whatever numbers: the server reads them as `int`s. -/
theorem served_allocMem_granted {nid sizeMb : ℤ} (ho : Owns s.mngr)
    (h : rpcServe env s (ClientCall.allocMem nid vid sizeMb).request = .ok (response, s')) :
    (granted s.mngr (readBack nid) (readBack vid) (readBack sizeMb) = none ∧ s'.mngr = s.mngr ∧
      (response = invalidArgs ∨ response = snprintf bufferSize "Allocate failed" [])) ∨
      ∃ req, granted s.mngr (readBack nid) (readBack vid) (readBack sizeMb) = some (req, s'.mngr) ∧
        response = allocMemResponse req := by
  have hn := allocMem_numbers nid vid sizeMb
  have hvalues := hn.readValues
  obtain ⟨r, hr, rfl, hm⟩ := served_scanned hn.request_clean.2 hn.scanned hn.command h
  obtain ⟨⟨t, m⟩, ht, rfl⟩ := map_eq_ok.mp hr
  rw [Option.getD_some, rpcHandleAllocMem, hvalues] at ht
  simp only [List.map_cons, List.map_nil] at ht
  split at ht
  · rename_i hinvalid
    cases ht
    exact .inl ⟨if_pos hinvalid, hm, .inl rfl⟩
  · rename_i hvalid
    obtain ⟨⟨req, m₁⟩, halloc, ht⟩ := bind_eq_ok.mp ht
    cases req with
    | none =>
      cases ht
      have hnone : granted s.mngr (readBack nid) (readBack vid) (readBack sizeMb) = none := by
        rw [granted, if_neg hvalid, halloc]
      rcases vmMngrInstanceAllocMem_ok ho.geometry.segmentSize halloc with
        ⟨_, rfl⟩ | ⟨_, _, _, _, _, _, _, _, _, hreq, _⟩
      · exact .inl ⟨hnone, hm, .inr rfl⟩
      · cases hreq
    | some req =>
      cases ht
      refine .inr ⟨req, ?_, rfl⟩
      rw [granted, if_neg hvalid, halloc, hm]

theorem served_allocMem_read {nid sizeMb : ℤ} (ho : Owns s.mngr)
    (h : rpcServe env s (ClientCall.allocMem nid vid sizeMb).request = .ok (response, s')) :
    (s'.mngr = s.mngr ∧ (response = invalidArgs ∨
      response = snprintf bufferSize "Allocate failed" [])) ∨
      ∃ req, 0 ≤ readBack vid ∧ vmMngrInstanceAllocMem s.mngr (readBack nid) (readBack vid)
        (readBack sizeMb) = .ok (some req, s'.mngr) ∧ response = allocMemResponse req := by
  rcases served_allocMem_granted ho h with ⟨_, hsame⟩ | ⟨req, hgranted, hresponse⟩
  · exact .inl hsame
  · obtain ⟨hv, halloc⟩ := granted_eq_some hgranted
    exact .inr ⟨req, hv, halloc, hresponse⟩

theorem served_allocMem {nid sizeMb : ℤ} (ho : Owns s.mngr) (hnid : InInt nid) (hvid : InInt vid)
    (hsize : InInt sizeMb)
    (h : rpcServe env s (ClientCall.allocMem nid vid sizeMb).request = .ok (response, s')) :
    (s'.mngr = s.mngr ∧ (allocMemId (clientText response)).isOk = false) ∨
      ∃ req, vmMngrInstanceAllocMem s.mngr nid vid sizeMb = .ok (some req, s'.mngr) := by
  have hinvalid : (allocMemId (clientText invalidArgs)).isOk = false := by rfl
  have hfailed : (allocMemId (clientText (snprintf bufferSize "Allocate failed" []))).isOk = false := by
    rfl
  rcases served_allocMem_read ho h with ⟨hm, rfl | rfl⟩ | ⟨req, _, halloc, _⟩
  · exact .inl ⟨hm, hinvalid⟩
  · exact .inl ⟨hm, hfailed⟩
  · rw [readBack_of_inInt hnid, readBack_of_inInt hvid, readBack_of_inInt hsize] at halloc
    exact .inr ⟨req, halloc⟩

/-- An `alloc-mem` that the manager grants is answered. -/
theorem rpcServe_allocMem {nid sizeMb : ℤ} {req : VmMemReq} {m : Manager} (hnid : NonNegInt nid)
    (hvid : NonNegInt vid) (hsize : InInt sizeMb) (hpos : 0 < sizeMb)
    (h : vmMngrInstanceAllocMem s.mngr nid vid sizeMb = .ok (some req, m)) (env : ServerEnv) :
    ∃ a, rpcServe env s (ClientCall.allocMem nid vid sizeMb).request =
      .ok (allocMemResponse req, ⟨m, a⟩) := by
  obtain ⟨scanned, ⟨a, rfl, hscan⟩, hserve⟩ := (allocMem_numbers nid vid sizeMb).decoded
    (by simp [hnid.inInt, hvid.inInt, hsize]) fun a ha => ⟨a, rfl, ha⟩
  have hvalid : ¬ (nid < 0 ∨ vid < 0 ∨ sizeMb ≤ 0) := by
    have hnid := hnid.1
    have hvid := hvid.1
    omega
  refine ⟨a, ?_⟩
  rw [hserve]
  simp only [ClientCall.command, rpcHandle, Option.getD_some, rpcHandleAllocMem, hscan, if_neg hvalid, h,
    ok_bind]
  rfl

/-- A `destroy-vm` is served just when the VM can be destroyed. -/
theorem rpcServe_destroyVm (hvid : NonNegInt vid) (env : ServerEnv) (s : Server) :
    ∃ (answer : ℤ → Text) (a : Text), rpcServe env s (ClientCall.destroyVm vid).request =
      (vmMngrInstanceDestroy s.mngr vid).map fun r => (answer r.1, ⟨r.2, a⟩) := by
  obtain ⟨scanned, ⟨a, rfl, hscan⟩, hserve⟩ :=
    (destroyVm_numbers vid).decoded (by simp [hvid.inInt]) fun a ha => ⟨a, rfl, ha⟩
  refine ⟨fun ret => if ret = 0 then snprintf bufferSize "Destroy VM %d success" [.int vid]
    else snprintf bufferSize "Destroy VM %d failed" [.int vid], a, ?_⟩
  rw [hserve]
  simp only [ClientCall.command, rpcHandle, Option.getD_some, rpcHandleDestroyVm, rpcHandleVm, hscan]
  rw [if_neg (not_lt.mpr hvid.1)]
  cases vmMngrInstanceDestroy s.mngr vid with
  | error e => rfl
  | ok r =>
    by_cases hret : r.1 = 0
    · simp [hret, Except.map, ok_bind]
    · simp [hret, Except.map, ok_bind]

theorem served_destroyVm (hvid : NonNegInt vid)
    (h : rpcServe env s (ClientCall.destroyVm vid).request = .ok (response, s')) :
    ∃ ret, vmMngrInstanceDestroy s.mngr vid = .ok (ret, s'.mngr) := by
  obtain ⟨answer, a, hserve⟩ := rpcServe_destroyVm hvid env s
  obtain ⟨⟨ret, m⟩, hdestroy, hres⟩ := map_eq_ok.mp (hserve.symm.trans h)
  cases hres
  exact ⟨ret, hdestroy⟩

/-! ### The request that creates the VM -/

theorem mapM_eq_some_of_mem {α β : Type} {f : α → Option β} {l : List α} {bs : List β} {a : α}
    (h : l.mapM f = some bs) (ha : a ∈ l) : ∃ b, f a = some b := by
  induction l generalizing bs with
  | nil => cases ha
  | cons x l ih =>
    rw [List.mapM_cons] at h
    obtain ⟨b, hb, h⟩ := Option.bind_eq_some_iff.mp h
    obtain ⟨bs', hbs, _⟩ := Option.bind_eq_some_iff.mp h
    rcases List.mem_cons.mp ha with rfl | ha
    · exact ⟨b, hb⟩
    · exact ih hbs ha

theorem partCpus_chars {raw : Text} {cpus : List ℤ} (h : partCpus raw = some cpus) :
    ∀ c ∈ raw, IntChar c := by
  intro c hc
  rcases mem_strip_or hc with hspace | hc
  · exact .inl hspace
  unfold partCpus at h
  dsimp only at h
  split_ifs at h with hnil hminus
  · rw [hnil] at hc
    cases hc
  · obtain ⟨start, hstart, h⟩ := Option.bind_eq_some_iff.mp h
    obtain ⟨stop, hstop, _⟩ := Option.bind_eq_some_iff.mp h
    rcases @mem_splitFirst '-' c _ hc with rfl | hc | hc
    · decide
    · exact pyInt_chars hstart c hc
    · exact pyInt_chars hstop c hc
  · obtain ⟨n, hn, _⟩ := Option.map_eq_some_iff.mp h
    exact pyInt_chars hn c hc

/-- A core set that is accepted has no letter in it. -/
theorem parseCpuSet_chars {cpuSet : Text} {cpus : List ℤ} (h : parseCpuSet cpuSet = some cpus) :
    ∀ c ∈ cpuSet, c = ',' ∨ IntChar c := by
  obtain ⟨parts, hparts, _⟩ := Option.bind_eq_some_iff.mp h
  intro c hc
  rcases mem_splitOn_or ',' hc with rfl | ⟨raw, hraw, hc⟩
  · exact .inl rfl
  · obtain ⟨cpus, hcpus⟩ := mapM_eq_some_of_mem hparts hraw
    exact .inr (partCpus_chars hcpus c hc)

/-- Where the answer to `create-vm` has no `u`, it does not report success. -/
theorem not_success {t : Text} (hu : 'u' ∉ t) (hU : 'U' ∉ t) :
    ¬ "success".toList <:+: lower (clientText t) := by
  intro h
  have hmem : 'u' ∈ lower (clientText t) := h.subset (by decide)
  obtain ⟨c, hc, hlow⟩ := List.mem_map.mp hmem
  have hcase : c = 'u' ∨ c = 'U' := by
    unfold Char.toLower at hlow
    split at hlow
    · have hval : c.val + ('a'.val - 'A'.val) = 'u'.val := congrArg Char.val hlow
      have hc : c.val = 'U'.val := by
        have := congrArg (· - ('a'.val - 'A'.val)) hval
        rwa [UInt32.add_sub_cancel] at this
      exact .inr (Char.ext hc)
    · exact .inl hlow
  have hdecode : c ∈ decode t := (strip_sublist _).subset hc
  rcases hcase with rfl | rfl
  · exact hu ((mem_decode (by decide)).mp hdecode)
  · exact hU ((mem_decode (by decide)).mp hdecode)

/-- The answer that reports success is read as such. -/
theorem success_read (hvid : InInt vid) (coreset : Text) :
    "success".toList <:+: lower (clientText
      (snprintf bufferSize "Create VM %d success, coreset: [%s]" [.int vid, .text coreset])) := by
  have hformat : directives none "Create VM %d success, coreset: [%s]".toList =
      lits "Create VM " ++ .int 0 :: (lits " success, coreset: [" ++ .str 0 :: lits "]") := by
    rfl
  have hrender : sprintf "Create VM %d success, coreset: [%s]" [.int vid, .text coreset] =
      "Create VM ".toList ++ (decimal vid ++ (" success, coreset: [".toList ++
        (coreset ++ "]".toList))) := by
    rw [sprintf, hformat, render_lits, render_int, render_lits, render_str, render_end, padLeft_zero,
      padLeft_zero]
  have hsplit : " success, coreset: [".toList = " success".toList ++ ", coreset: [".toList := by
    rfl
  have hlen := decimal_length hvid
  have hfixed : ∀ c ∈ "Create VM ".toList ++ " success".toList, IsAscii c := by simp [IsAscii]
  have hascii : ∀ c ∈ "Create VM ".toList ++ (decimal vid ++ " success".toList), IsAscii c := by
    intro c hc
    rw [List.mem_append, List.mem_append] at hc
    rcases hc with hc | hc | hc
    · exact hfixed c (List.mem_append_left _ hc)
    · exact ascii_decimal vid c hc
    · exact hfixed c (List.mem_append_right _ hc)
  obtain ⟨rest, hrest⟩ : ∃ rest,
      snprintf bufferSize "Create VM %d success, coreset: [%s]" [.int vid, .text coreset] =
        ("Create VM ".toList ++ (decimal vid ++ " success".toList)) ++ rest := by
    refine ⟨(", coreset: [".toList ++ (coreset ++ "]".toList)).take
      (bufferSize - 1 - ("Create VM ".toList ++ (decimal vid ++ " success".toList)).length), ?_⟩
    have hfits : ("Create VM ".toList ++ (decimal vid ++ " success".toList)).length ≤
        bufferSize - 1 := by
      have hfirst : "Create VM ".toList.length = 10 := rfl
      have hlast : " success".toList.length = 8 := rfl
      rw [List.length_append, List.length_append, hfirst, hlast, bufferSize]
      omega
    rw [snprintf, hrender, hsplit]
    have hassoc : "Create VM ".toList ++ (decimal vid ++ (" success".toList ++ ", coreset: [".toList ++
        (coreset ++ "]".toList))) = ("Create VM ".toList ++ (decimal vid ++ " success".toList)) ++
          (", coreset: [".toList ++ (coreset ++ "]".toList)) := by
      simp only [List.append_assoc]
    rw [hassoc, List.take_append, List.take_of_length_le hfits]
  have hword : "success".toList <:+: clientText
      (snprintf bufferSize "Create VM %d success, coreset: [%s]" [.int vid, .text coreset]) := by
    rw [hrest, clientText, decode_ascii_append hascii]
    have hplain : ∀ c ∈ "success".toList, isWhitespace c = false := by simp [isWhitespace]
    have hblank : " success".toList = [' '] ++ "success".toList := by rfl
    refine infix_strip hplain ⟨"Create VM ".toList ++ (decimal vid ++ [' ']), decode rest, ?_⟩
    rw [hblank]
    simp only [List.append_assoc]
  have hlower : lower "success".toList = "success".toList := by decide
  rw [← hlower]
  exact List.IsInfix.map Char.toLower hword

/-- The answer that reports failure has only what the core set brings. -/
theorem not_success_failed {coreset : Text} (hu : 'u' ∉ coreset) (hU : 'U' ∉ coreset) :
    ¬ "success".toList <:+: lower (clientText
      (snprintf bufferSize "Create VM %d failed, coreset: [%s]" [.int vid, .text coreset])) := by
  have hformat : directives none "Create VM %d failed, coreset: [%s]".toList =
      lits "Create VM " ++ .int 0 :: (lits " failed, coreset: [" ++ .str 0 :: lits "]") := by
    rfl
  have hrender : sprintf "Create VM %d failed, coreset: [%s]" [.int vid, .text coreset] =
      "Create VM ".toList ++ (decimal vid ++ (" failed, coreset: [".toList ++
        (coreset ++ "]".toList))) := by
    rw [sprintf, hformat, render_lits, render_int, render_lits, render_str, render_end, padLeft_zero,
      padLeft_zero]
  have hletter : ∀ c, c ∉ "Create VM ".toList → c ∉ decimal vid → c ∉ " failed, coreset: [".toList →
      c ∉ coreset → c ∉ "]".toList →
      c ∉ snprintf bufferSize "Create VM %d failed, coreset: [%s]" [.int vid, .text coreset] := by
    intro c hfront hdigits hmid hcoreset hend hmem
    have hmem := List.mem_of_mem_take hmem
    rw [hrender, List.mem_append, List.mem_append, List.mem_append, List.mem_append] at hmem
    rcases hmem with h | h | h | h | h
    · exact hfront h
    · exact hdigits h
    · exact hmid h
    · exact hcoreset h
    · exact hend h
  exact not_success
    (hletter 'u' (by decide) (notMem_decimal (by decide) (by decide) vid) (by decide) hu (by decide))
    (hletter 'U' (by decide) (notMem_decimal (by decide) (by decide) vid) (by decide) hU (by decide))

/-- A core set that is found between its brackets had no line end in it. -/
theorem bracketed_line {word start : Text} (hword : ']' ∉ word)
    (h : bracketed ('[' :: (word ++ [']']).takeWhile (· != '\n')) = some start) : start = word := by
  by_cases hline : '\n' ∈ word
  · obtain ⟨a, b, rfl, ha⟩ := List.eq_append_cons_of_mem hline
    have htake : ((a ++ '\n' :: b) ++ [']']).takeWhile (· != '\n') = a := by
      rw [List.append_assoc, List.takeWhile_append_of_pos, List.cons_append,
        List.takeWhile_cons_of_neg (by simp), List.append_nil]
      intro c hc
      have hne : c ≠ '\n' := fun hc' => ha (hc' ▸ hc)
      simpa using hne
    have hopen : ']' ∉ '[' :: a := by
      intro hmem
      rcases List.mem_cons.mp hmem with hmem | hmem
      · exact absurd hmem (by decide)
      · exact hword (List.mem_append_left _ hmem)
    rw [htake, bracketed] at h
    rw [List.idxOf_eq_length hopen, if_neg (by simp)] at h
    cases h
  · rw [takeWhile_line (by simp [hline]), bracketed_append hword] at h
    exact (Option.some.inj h).symm

/-- The arguments of `create-vm`, up to a line end inside the core set. -/
theorem coresetArgs_line (vid : ℤ) (coreset : Text) :
    (coresetArgs vid coreset).takeWhile (· != '\n') =
      "vid=".toList ++ (decimal vid ++ ' ' :: ("coreset=".toList ++
        '[' :: (encode coreset ++ [']']).takeWhile (· != '\n'))) := by
  have hfront : Clean ("vid=".toList ++ (decimal vid ++ ([' '] ++ ("coreset=".toList ++ ['['])))) :=
    vidWord.clean.append ((clean_decimal vid).append
      ((by simp [Clean] : Clean [' ']).append (coresetWord.clean.append (by simp [Clean]))))
  have hassoc : ∀ t : Text, "vid=".toList ++ (decimal vid ++ ' ' :: ("coreset=".toList ++ '[' :: t)) =
      ("vid=".toList ++ (decimal vid ++ ([' '] ++ ("coreset=".toList ++ ['['])))) ++ t := by
    intro t
    simp only [List.append_assoc, List.cons_append, List.nil_append]
  have hkeep : ∀ c ∈ "vid=".toList ++ (decimal vid ++ ([' '] ++ ("coreset=".toList ++ ['[']))),
      (c != '\n') = true := by
    intro c hc
    have hne : c ≠ '\n' := fun h => hfront.1 (h ▸ hc)
    simpa using hne
  rw [coresetArgs, hassoc, hassoc, List.takeWhile_append_of_pos hkeep]

/-- What the CLI reads as a core set has digits, commas, dashes and blanks only. -/
theorem encode_avoids {coreset : Text} {cpus : List ℤ} (hcpus : parseCpuSet coreset = some cpus) {c : Char}
    (hascii : IsAscii c) (hcomma : c ≠ ',') (hint : ¬ IntChar c) : c ∉ encode coreset := by
  intro hmem
  rcases parseCpuSet_chars hcpus c ((mem_encode hascii).mp hmem) with hc | hc
  · exact hcomma hc
  · exact hint hc

theorem createVm_noNul (vid : ℤ) {coreset : Text} (hencoded : '\x00' ∉ encode coreset) :
    '\x00' ∉ (ClientCall.createVm vid coreset).request := by
  have hargs : '\x00' ∉ coresetArgs vid coreset := by
    have hdecimalNul := (clean_decimal vid).2
    simp [coresetArgs, hencoded, hdecimalNul]
  rw [createVm_request, List.mem_append, List.mem_cons]
  rintro (hmem | hmem | hmem)
  · exact createVmWord.clean.2 hmem
  · exact absurd hmem (by decide)
  · exact hargs hmem

theorem createVm_scanned (vid : ℤ) (coreset : Text) :
    scanRequest (ClientCall.createVm vid coreset).request =
      (some "create-vm".toList, some ((coresetArgs vid coreset).takeWhile (· != '\n'))) := by
  have hne : (coresetArgs vid coreset).takeWhile (· != '\n') ≠ [] := by
    rw [coresetArgs_line]
    exact fun hnil => vidWord.1 (List.append_eq_nil_iff.mp hnil).1
  rw [createVm_request]
  exact scanRequest_line (fun c hc => (createVmWord.2.2 c hc).2.1) createVmWord.1 createVmWord.2.1
    hne (vidWord.noSpace _)

/-- Of the bracketed core set the server reads what comes before the end of the line. -/
theorem createVm_values (hvid : InInt vid) (coreset : Text) :
    sscanf "vid=%d coreset=%[^\n]" ((coresetArgs vid coreset).takeWhile (· != '\n')) =
      [.int vid, .text ('[' :: (encode coreset ++ [']']).takeWhile (· != '\n'))] := by
  have hline : '\n' ∉ '[' :: (encode coreset ++ [']']).takeWhile (· != '\n') := by
    intro hmem
    rcases List.mem_cons.mp hmem with hmem | hmem
    · exact absurd hmem (by decide)
    · exact absurd (List.mem_takeWhile_imp hmem) (by decide)
  rw [coresetArgs_line, sscanf, createVmFormat,
    scan_lits fun c hc => (vidWord.2.2 c hc).2.1, scan_int hvid (noDigit_cons (by decide)),
    scan_blank (coresetWord.noSpace _), scan_lits fun c hc => (coresetWord.2.2 c hc).2.1,
    scan_line (by simp [takeWhile_line hline]), takeWhile_line hline]

theorem served_createVm (hvid : NonNegInt vid) {coreset : Text} {cpus : List ℤ}
    (hcpus : parseCpuSet coreset = some cpus)
    (h : rpcServe env s (ClientCall.createVm vid coreset).request = .ok (response, s')) :
    (s'.mngr = s.mngr ∧ ¬ "success".toList <:+: lower (clientText response)) ∨
      ("success".toList <:+: lower (clientText response) ∧
        vmMngrInstanceCreate s.mngr vid (encode coreset) = .ok (0, s'.mngr)) := by
  have hnul := createVm_noNul vid (encode_avoids hcpus (by decide) (by decide) (by decide))
  have hcmd : commandOf "create-vm".toList = some .createVm := by rfl
  obtain ⟨r, hr, rfl, hm⟩ := served_scanned hnul (createVm_scanned vid coreset) hcmd h
  obtain ⟨⟨t, m⟩, ht, rfl⟩ := map_eq_ok.mp hr
  rw [Option.getD_some, rpcHandleCreateVm, createVm_values hvid.inInt] at ht
  dsimp only at ht
  rw [if_neg (not_lt.mpr hvid.1)] at ht
  split at ht
  · cases ht
    have hinvalid : ¬ "success".toList <:+: lower (clientText invalidCommand) :=
      not_success (by decide) (by decide)
    exact .inl ⟨hm, hinvalid⟩
  · rename_i start hstart
    have hencoded : ']' ∉ encode coreset ∧ 'u' ∉ encode coreset ∧ 'U' ∉ encode coreset :=
      ⟨encode_avoids hcpus (by decide) (by decide) (by decide),
        encode_avoids hcpus (by decide) (by decide) (by decide),
        encode_avoids hcpus (by decide) (by decide) (by decide)⟩
    obtain rfl := bracketed_line hencoded.1 hstart
    obtain ⟨⟨ret, m₁⟩, hcreate, ht⟩ := bind_eq_ok.mp ht
    dsimp only at ht
    split at ht
    · rename_i hret
      cases ht
      have hmngr : s'.mngr = m := hm
      rw [hret, ← hmngr] at hcreate
      exact .inr ⟨success_read hvid.inInt _, hcreate⟩
    · rename_i hret
      cases ht
      rcases vmMngrInstanceCreate_ok hcreate with ⟨_, rfl⟩ | ⟨h0, _⟩
      · exact .inl ⟨hm, not_success_failed hencoded.2.1 hencoded.2.2⟩
      · exact absurd h0 hret

end Ramryder.CreateRequests
