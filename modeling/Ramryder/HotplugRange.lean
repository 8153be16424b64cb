import Ramryder.QemuBackend
import Ramryder.ResourceManagerSpec

/-! The two descriptions QEMU is given of one memory device: the boot-time argument
that alloc-mem returns, and the command that attach-mem sends. -/
namespace Ramryder.HotplugRange
open CInt CMachine CText GuestAgents MemoryPool MemoryPoolSpec Ownership PoolConfig QemuAgent QemuBackend
  ResourceManager ResourceManagerSpec Runs VmManager VmManagerSpec

variable {m m' : Manager} {pool : Pool} {i j : Fin maxNumVm} {dev dev' : MemoryDev}

/-- What alloc-mem answers when it has added the device. -/
def bootArgument (dev : MemoryDev) : Text := allocMemResponse (vmMemReqOf dev)

/-- What attach-mem sends first for the device. -/
def hotplugCommand (nid : ℤ) (dev : MemoryDev) : Json :=
  objectAdd (hotplugRequest dev.memdevIdx nid dev.memoryReq)

/-- Both descriptions of every device are of one backend, and no two devices of a node that
are hot-plugged map a common byte. -/
structure BackingAgrees (m : Manager) : Prop where
  same : ∀ i dev, LiveDev m i dev → ∀ nid, ∃ b,
    readOptions (bootArgument dev) = some b ∧ readObjectAdd (hotplugCommand nid dev) = some b
  apart : ∀ i j dev dev', LiveDev m i dev → LiveDev m j dev' →
    i ≠ j ∨ dev.memdevIdx ≠ dev'.memdevIdx → dev.memoryReq.nodeId = dev'.memoryReq.nodeId →
    ∀ nid nid' b b', readObjectAdd (hotplugCommand nid dev) = some b →
      readObjectAdd (hotplugCommand nid' dev') = some b' → ¬ b.Overlaps b'

/-- Every device starts its node and has a path without commas. -/
def AtStart (m : Manager) : Prop :=
  ∀ i dev, LiveDev m i dev → dev.memoryReq.offsetMb = 0 ∧ ',' ∉ dev.memoryReq.devPath

theorem rpcHandleAllocMem_returns (ho : Owns m) {args response : Text}
    (h : rpcHandleAllocMem m args = .ok (response, m')) (hne : m' ≠ m) :
    ∃ i dev, LiveDev m' i dev ∧ response = bootArgument dev := by
  unfold rpcHandleAllocMem at h
  split at h
  · split at h
    · cases h
      exact absurd rfl hne
    · obtain ⟨⟨req, m₁⟩, halloc, hres⟩ := bind_eq_ok.mp h
      rcases vmMngrInstanceAllocMem_ok ho.geometry.segmentSize halloc with
        ⟨rfl, rfl⟩ | ⟨i, r, pool, k, lo, n, hget, _, _, rfl, rfl⟩
      · cases hres
        exact absurd rfl hne
      · cases hres
        have hself : ({ m.setVm i (attachedVm (m.vms i) r) with pool := pool } : Manager).vms i =
            attachedVm (m.vms i) r := setVm_vms_self m i _
        refine ⟨i, ⟨(m.vms i).memdevCounter, r⟩, ⟨?_, ?_⟩, rfl⟩
        · rw [hself]
          exact (vmMngrGetInstance_eq_some hget).1
        · rw [hself, attachedVm]
          exact List.mem_append_right _ (List.mem_singleton_self _)
  · cases h
    exact absurd rfl hne

theorem sendCommand_eq_zero {qmp : Qmp} {vmId : ℤ} {command : Json} :
    sendCommand qmp vmId command < 0 ↔ isResponseSuccess (qmp vmId command) = false := by
  unfold sendCommand
  cases isResponseSuccess (qmp vmId command) with
  | true => simp
  | false => simp

theorem qemuAgentHotplugMemory_eq_zero {qmp : Qmp} {vmId : ℤ} {request : HotplugRequest} :
    qemuAgentHotplugMemory qmp vmId request = 0 ↔
      isResponseSuccess (qmp vmId (objectAdd request)) = true ∧
        isResponseSuccess (qmp vmId (deviceAdd request)) = true := by
  unfold qemuAgentHotplugMemory qemuAgentCreateObject qemuAgentAddDevice
  simp only [sendCommand_eq_zero]
  cases isResponseSuccess (qmp vmId (objectAdd request)) with
  | false => simp
  | true =>
    cases isResponseSuccess (qmp vmId (deviceAdd request)) with
    | false => simp
    | true => simp

theorem rpcHandleAttachMem_sends (ho : Owns m) (hd : LiveDev m i dev) {args : Text} {nid : ℤ}
    (hargs : sscanf "memid=%d vid=%d nid=%d" args =
      [.int dev.memdevIdx, .int (m.vms i).vmId, .int nid]) (hvid : 0 ≤ (m.vms i).vmId) (qmp : Qmp)
    (hsuccess : rpcHandleAttachMem qmp m args = snprintf bufferSize "Hotplug memory success" []) :
    isResponseSuccess (qmp (m.vms i).vmId (hotplugCommand nid dev)) = true := by
  have hnonneg : ¬ (dev.memdevIdx < 0 ∨ (m.vms i).vmId < 0) := by
    have := (ho.fresh i dev hd).1
    omega
  have hmem : vmMngrInstanceGetMem m (m.vms i).vmId dev.memdevIdx = some dev.memoryReq := by
    simp [vmMngrInstanceGetMem, ho.ids.getInstance hd.1 rfl, ho.findMemoryDev hd]
  rw [rpcHandleAttachMem, hargs] at hsuccess
  simp only [if_neg hnonneg, hmem] at hsuccess
  split at hsuccess
  · rename_i hzero
    exact (qemuAgentHotplugMemory_eq_zero.mp hzero).1
  · exact absurd hsuccess (by decide)

/-! ### Both descriptions, read back -/

theorem readSize_decimal (n : ℕ) : readSize (decimal n ++ ['M']) = some (mbToBytes n) := by
  have hdigit : ∀ c ∈ Nat.toDigits 10 n, c.isDigit = true := fun c hc =>
    Nat.isDigit_of_mem_toDigits (by decide) (by decide) hc
  rw [decimal_natCast, readSize, List.takeWhile_append_of_pos hdigit,
    List.dropWhile_append_of_pos hdigit]
  simp [Nat.toDigits_ne_nil, Nat.ofDigitChars_ten_toDigits]

/-- The text before it is cut to the buffer. -/
def bootText (idx size align offset : ℤ) (path : Text) : Text :=
  "id=mem".toList ++ (decimal idx ++ (",mem-path=".toList ++ (path ++ (",size=".toList ++
    (decimal size ++ ("M,align=".toList ++ (decimal align ++ ("M,offset=".toList ++
      (decimal offset ++ "M".toList)))))))))

theorem sprintf_bootText (idx size align offset : ℤ) (path : Text) :
    sprintf "id=mem%d,mem-path=%s,size=%dM,align=%dM,offset=%dM"
      [.int idx, .text path, .int size, .int align, .int offset] =
        bootText idx size align offset path := by
  have hformat : directives none "id=mem%d,mem-path=%s,size=%dM,align=%dM,offset=%dM".toList =
      lits "id=mem" ++ .int 0 :: (lits ",mem-path=" ++ .str 0 :: (lits ",size=" ++ .int 0 ::
        (lits "M,align=" ++ .int 0 :: (lits "M,offset=" ++ .int 0 :: lits "M")))) := by
    rfl
  rw [sprintf, hformat]
  rw [render_lits, render_int, render_lits, render_str, render_lits, render_int, render_lits,
    render_int, render_lits, render_int, render_end]
  rw [padLeft_zero, padLeft_zero, padLeft_zero, padLeft_zero, padLeft_zero]
  rfl

theorem comma_notMem_decimal (n : ℤ) : ',' ∉ decimal n := notMem_decimal (by decide) (by decide) n

theorem bootText_commas (idx size align offset : ℤ) (path : Text) :
    (bootText idx size align offset path).count ',' = 4 + path.count ',' := by
  have hdec : ∀ n : ℤ, (decimal n).count ',' = 0 := fun n =>
    List.count_eq_zero.mpr (comma_notMem_decimal n)
  have hlits : "id=mem".toList.count ',' = 0 ∧ ",mem-path=".toList.count ',' = 1 ∧
      ",size=".toList.count ',' = 1 ∧ "M,align=".toList.count ',' = 1 ∧
      "M,offset=".toList.count ',' = 1 ∧ "M".toList.count ',' = 0 := by decide
  delta bootText
  revert hlits
  generalize "id=mem".toList = tid, ",mem-path=".toList = tpath, ",size=".toList = tsize,
    "M,align=".toList = talign, "M,offset=".toList = toffset, "M".toList = tend
  rintro ⟨hid, hpath, hsize, halign, hoffset, hend⟩
  simp only [List.count_append, hdec, hid, hpath, hsize, halign, hoffset, hend]
  omega

/-- The options of the text, where the path holds no comma. -/
theorem options_bootText (idx size align offset : ℤ) {path : Text} (hpath : ',' ∉ path) :
    (options (bootText idx size align offset path)).map keyValue =
      [("id".toList, "mem".toList ++ decimal idx), ("mem-path".toList, path),
        ("size".toList, decimal size ++ ['M']), ("align".toList, decimal align ++ ['M']),
        ("offset".toList, decimal offset ++ ['M'])] := by
  have hsplit : bootText idx size align offset path =
      ("id".toList ++ '=' :: ("mem".toList ++ decimal idx)) ++ ',' ::
        (("mem-path".toList ++ '=' :: path) ++ ',' ::
          (("size".toList ++ '=' :: (decimal size ++ ['M'])) ++ ',' ::
            (("align".toList ++ '=' :: (decimal align ++ ['M'])) ++ ',' ::
              ("offset".toList ++ '=' :: (decimal offset ++ ['M']))))) := by
    have hid : "id=mem".toList = "id".toList ++ '=' :: "mem".toList := by decide
    have hmem : ",mem-path=".toList = ',' :: ("mem-path".toList ++ ['=']) := by decide
    have hsize : ",size=".toList = ',' :: ("size".toList ++ ['=']) := by decide
    have halign : "M,align=".toList = 'M' :: ',' :: ("align".toList ++ ['=']) := by decide
    have hoffset : "M,offset=".toList = 'M' :: ',' :: ("offset".toList ++ ['=']) := by decide
    have hend : "M".toList = ['M'] := by decide
    delta bootText
    rw [hid, hmem, hsize, halign, hoffset, hend]
    generalize "id".toList = tid, "mem".toList = tmem, "mem-path".toList = tpath,
      "size".toList = tsize, "align".toList = talign, "offset".toList = toffset
    simp only [List.append_assoc, List.cons_append, List.nil_append]
  have hdec := comma_notMem_decimal
  have hplain : ∀ {k v : Text}, ',' ∉ k → ',' ∉ v → ',' ∉ k ++ '=' :: v := by
    intro k v hk hv
    simp [hk, hv]
  have hsizes : ∀ n : ℤ, ',' ∉ decimal n ++ ['M'] := fun n => by simp [hdec n]
  have hidx : ',' ∉ "mem".toList ++ decimal idx := by simp [hdec idx]
  rw [hsplit, options_append (hplain (by decide) hidx) (by simp),
    options_append (hplain (by decide) hpath) (by simp),
    options_append (hplain (by decide) (hsizes size)) (by simp),
    options_append (hplain (by decide) (hsizes align)) (by simp),
    options_plain (hplain (by decide) (hsizes offset))]
  simp only [List.map_cons, List.map_nil]
  rw [keyValue_append (by decide), keyValue_append (by decide), keyValue_append (by decide),
    keyValue_append (by decide), keyValue_append (by decide)]

theorem readOptions_bootText {size align offset : ℕ} (idx : ℤ) {path : Text} (hpath : ',' ∉ path) :
    readOptions (bootText idx size align offset path) = some
      ⟨"mem".toList ++ decimal idx, path, mbToBytes size, mbToBytes align, mbToBytes offset⟩ := by
  have hvalue : ∀ key, optionValue (bootText idx size align offset path) key = _ := fun key => by
    rw [optionValue, options_bootText idx size align offset hpath]
  simp [readOptions, hvalue, List.lookup, readSize_decimal]

theorem bootText_length {idx size align offset : ℤ} {path : Text} (hidx : InInt idx)
    (hsize : InInt size) (halign : InInt align) (hoffset : InInt offset) :
    (bootText idx size align offset path).length ≤ 84 + path.length := by
  have hlits : "id=mem".toList.length = 6 ∧ ",mem-path=".toList.length = 10 ∧
      ",size=".toList.length = 6 ∧ "M,align=".toList.length = 8 ∧
      "M,offset=".toList.length = 9 ∧ "M".toList.length = 1 := by decide
  have hlengths := And.intro (decimal_length hidx) (And.intro (decimal_length hsize)
    (And.intro (decimal_length halign) (decimal_length hoffset)))
  delta bootText
  revert hlits
  generalize "id=mem".toList = tid, ",mem-path=".toList = tpath, ",size=".toList = tsize,
    "M,align=".toList = talign, "M,offset=".toList = toffset, "M".toList = tend
  rintro ⟨hid, hpath, hsize, halign, hoffset, hend⟩
  simp only [List.length_append, hid, hpath, hsize, halign, hoffset, hend]
  omega

theorem memdevId_eq {memid : ℤ} (h : InInt memid) : memdevId memid = "mem".toList ++ decimal memid := by
  have hformat : directives none "mem%d".toList = lits "mem" ++ .int 0 :: lits "" := by decide
  have hlen := decimal_length h
  rw [memdevId, snprintf, sprintf, hformat, render_lits, render_int, render_end, padLeft_zero]
  rw [show "".toList = [] from rfl, List.append_nil]
  refine List.take_of_length_le ?_
  simp [stringIdLen]
  omega

/-! ### Devices of reachable states -/

/-- The megabytes of a device are an `int`, and its path is no longer than the pool's. -/
structure DevText (dev : MemoryDev) (size align offset : ℕ) : Prop where
  sizeMb : dev.memoryReq.sizeMb = size
  alignMb : dev.memoryReq.alignMb = align
  offsetMb : dev.memoryReq.offsetMb = offset
  positive : 0 < size
  inInt : InInt size ∧ InInt align ∧ InInt offset
  path : dev.memoryReq.devPath.length ≤ devPathLen - 1

theorem Owns.devText (ho : Owns m) (hd : LiveDev m i dev) :
    ∃ size align offset, DevText dev size align offset := by
  obtain ⟨k, lo, n, hr⟩ := ho.range i dev hd
  have hseg := hr.segmentSize ho.geometry
  obtain ⟨seg, hseg'⟩ := Int.eq_ofNat_of_zero_le hseg.le
  have hsize := (ho.geometry.size k hr.device).2
  have hin := hr.inside
  rw [ho.geometry.total k hr.device, Int.le_ediv_iff_mul_le hseg] at hin
  have hpos := hr.positive
  rw [hseg'] at hin hseg
  have hn : (n : ℤ) * seg ≤ intMax ∧ (seg : ℤ) ≤ intMax ∧ (lo : ℤ) * seg ≤ intMax := by
    have hmax : ((lo : ℤ) + n) * seg ≤ intMax := hin.trans hsize.2
    refine ⟨?_, ?_, ?_⟩ <;> nlinarith
  have hint : ∀ a : ℕ, (a : ℤ) ≤ intMax → InInt a := fun a ha =>
    ⟨by simp only [intMin]; omega, ha⟩
  refine ⟨n * seg, seg, lo * seg, ?_, ?_, ?_, ?_, ?_, ?_⟩
  · simp [hr.request, hseg']
  · simp [hr.request, hseg']
  · simp [hr.request, hseg']
  · exact Nat.mul_pos hpos (by omega)
  · exact ⟨hint _ (by exact_mod_cast hn.1), hint _ hn.2.1, hint _ (by exact_mod_cast hn.2.2)⟩
  · simp only [hr.request]
    exact List.length_take_le _ _

theorem bootArgument_eq {size align offset : ℕ} (ht : DevText dev size align offset)
    (hidx : InInt dev.memdevIdx) :
    bootArgument dev = bootText dev.memdevIdx size align offset dev.memoryReq.devPath := by
  have hlen := @bootText_length dev.memdevIdx size align offset dev.memoryReq.devPath hidx
    ht.inInt.1 ht.inInt.2.1 ht.inInt.2.2
  have hpath := ht.path
  simp only [bootArgument, allocMemResponse, vmMemReqOf, snprintf, ht.sizeMb, ht.alignMb,
    ht.offsetMb, List.take_of_length_le hpath, sprintf_bootText]
  refine List.take_of_length_le (hlen.trans ?_)
  simp only [bufferSize]
  simp only [devPathLen] at hpath
  omega

theorem hotplugCommand_eq {size align offset : ℕ} (ht : DevText dev size align offset)
    (hidx : InInt dev.memdevIdx) (nid : ℤ) :
    readObjectAdd (hotplugCommand nid dev) = some ⟨"mem".toList ++ decimal dev.memdevIdx,
      dev.memoryReq.devPath, mbToBytes size, mbToBytes align, 0⟩ := by
  rw [hotplugCommand, readObjectAdd_objectAdd]
  simp only [hotplugRequest, memdevId_eq hidx, ht.sizeMb, ht.alignMb,
    List.take_of_length_le ht.path]

/-- The command leaves the offset out, and the argument does not double a comma of the path. -/
theorem sameBacking_iff {size align offset : ℕ} (ht : DevText dev size align offset)
    (hidx : InInt dev.memdevIdx) (nid : ℤ) :
    (∃ b, readOptions (bootArgument dev) = some b ∧
      readObjectAdd (hotplugCommand nid dev) = some b) ↔
      dev.memoryReq.offsetMb = 0 ∧ ',' ∉ dev.memoryReq.devPath := by
  rw [hotplugCommand_eq ht hidx, bootArgument_eq ht hidx, ht.offsetMb]
  constructor
  · rintro ⟨b, hboot, hhot⟩
    cases hhot
    have hcommas := readOptions_commas hboot
    rw [bootText_commas] at hcommas
    have hpath : ',' ∉ dev.memoryReq.devPath := by
      rw [← List.count_eq_zero]
      dsimp only at hcommas
      omega
    rw [readOptions_bootText dev.memdevIdx hpath] at hboot
    have hoffset := congrArg Backend.offsetBytes (Option.some.inj hboot)
    simp only [mbToBytes, bytesPerMb] at hoffset
    exact ⟨by omega, hpath⟩
  · rintro ⟨hoffset, hpath⟩
    refine ⟨_, ?_, rfl⟩
    have hzero : mbToBytes 0 = 0 := rfl
    rw [readOptions_bootText dev.memdevIdx hpath, hoffset, hzero]

/-- Two devices that start one node would share their first segment. -/
theorem Owns.atStart_unique (ho : Owns m) (hd : LiveDev m i dev) (hd' : LiveDev m j dev')
    (hne : i ≠ j ∨ dev.memdevIdx ≠ dev'.memdevIdx)
    (hnode : dev.memoryReq.nodeId = dev'.memoryReq.nodeId)
    (hoffset : dev.memoryReq.offsetMb = 0) : dev'.memoryReq.offsetMb ≠ 0 := by
  intro hoffset'
  obtain ⟨k, lo, n, hr⟩ := ho.range i dev hd
  obtain ⟨k', lo', n', hr'⟩ := ho.range j dev' hd'
  have hseg := hr.segmentSize ho.geometry
  have hpos := hr.positive
  have hpos' := hr'.positive
  simp only [hr.request, hr'.request] at hnode hoffset hoffset'
  have hlo : lo = 0 := by
    rcases mul_eq_zero.mp hoffset with h | h
    · exact_mod_cast h
    · omega
  have hlo' : lo' = 0 := by
    rcases mul_eq_zero.mp hoffset' with h | h
    · exact_mod_cast h
    · omega
  have hk : k = k' := by exact_mod_cast hnode
  exact ho.disjoint hd hd' hne k 0 ⟨(hr.covers_iff ho.geometry k 0).mpr ⟨rfl, by omega, by omega⟩,
    (hr'.covers_iff ho.geometry k 0).mpr ⟨hk, by omega, by omega⟩⟩

/-- The two descriptions agree exactly where every device starts its node. -/
theorem backingAgrees_iff (hp : InitialPool pool) (h : Reaches step (initialManager pool) m) :
    BackingAgrees m ↔ AtStart m := by
  have ho := owns_reachable hp h
  constructor
  · intro hb i dev hd
    obtain ⟨size, align, offset, ht⟩ := Owns.devText ho hd
    exact (sameBacking_iff ht (memdevIdx_inInt hp h hd) 0).mp (hb.same i dev hd 0)
  · intro ha
    refine ⟨fun i dev hd nid => ?_, fun i j dev dev' hd hd' hne hnode => ?_⟩
    · obtain ⟨size, align, offset, ht⟩ := Owns.devText ho hd
      exact (sameBacking_iff ht (memdevIdx_inInt hp h hd) nid).mpr (ha i dev hd)
    · exact absurd (ha j dev' hd').1
        (Owns.atStart_unique ho hd hd' hne hnode (ha i dev hd).1)

theorem backingAgrees_iff_smallPool : ∃ m,
    run step (initialManager smallPool) [.create 3 "0".toList, .allocMem 0 3 4] = .ok m ∧
      (BackingAgrees m ↔ AtStart m) := by
  obtain ⟨m, hm⟩ := exists_of_isOk (x := run step (initialManager smallPool)
    [.create 3 "0".toList, .allocMem 0 3 4]) (by rfl)
  exact ⟨m, hm, backingAgrees_iff smallPool_initial ⟨_, hm⟩⟩

/-- The second device of a node is hot-plugged over the first one. -/
theorem backingAgrees_fails_second : ∃ m,
    run step (initialManager smallPool)
      [.create 0 "0".toList, .allocMem 0 0 4, .allocMem 0 0 4] = .ok m ∧ ¬ BackingAgrees m := by
  have heval : (run step (initialManager smallPool)
      [.create 0 "0".toList, .allocMem 0 0 4, .allocMem 0 0 4]).map (fun m =>
        ((m.vms ⟨0, by decide⟩).initialized, (m.vms ⟨0, by decide⟩).attachedDevs)) =
      .ok (true, [⟨0, ⟨0, "/dev/dax0.0".toList, 0, 4, 4⟩⟩, ⟨1, ⟨0, "/dev/dax0.0".toList, 4, 4, 4⟩⟩]) := by
    rfl
  obtain ⟨m, hm, hview⟩ := map_eq_ok.mp heval
  obtain ⟨hinit, hdevs⟩ := Prod.mk.inj hview
  refine ⟨m, hm, fun hb => ?_⟩
  have hd : LiveDev m ⟨0, by decide⟩ ⟨0, ⟨0, "/dev/dax0.0".toList, 0, 4, 4⟩⟩ :=
    ⟨hinit, by simp [hdevs]⟩
  have hd' : LiveDev m ⟨0, by decide⟩ ⟨1, ⟨0, "/dev/dax0.0".toList, 4, 4, 4⟩⟩ :=
    ⟨hinit, by simp [hdevs]⟩
  exact hb.apart _ _ _ _ hd hd' (.inr (by simp)) rfl 0 0 _ _ (readObjectAdd_objectAdd _)
    (readObjectAdd_objectAdd _) (by decide)

end Ramryder.HotplugRange
