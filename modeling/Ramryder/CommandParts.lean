import Ramryder.AttachRuns
import Ramryder.CommandLine
import Ramryder.HotplugRange

/-! The part of a QEMU command line that stands for the memory of a VM: an object for each device
that the server answers with, and a NUMA node for each node of the pool. -/
namespace Ramryder.CommandParts
open AttachRuns CInt CMachine Cli ClientRequests CommandLine CreatePlan CText GuestAgents HotplugRange
  MemoryPool MemoryPoolSpec PoolConfig PyText QemuBackend QemuCommand ResourceManager VmManager

variable {devs : List MemoryDev} {dev : MemoryDev} {nid : ℤ} {path : Text}

/-! ### The object of a device -/

/-- A path that stands for itself in an option and in a quoted word. -/
structure PlainPath (path : Text) : Prop where
  comma : ',' ∉ path
  slash : '\\' ∉ path
  quote : '\'' ∉ path
  doubleQuote : '"' ∉ path

/-- A device of the server whose answer says what it says. -/
structure PlainDev (dev : MemoryDev) : Prop where
  text : ∃ size align offset, DevText dev size align offset
  idx : InInt dev.memdevIdx
  plain : PlainPath dev.memoryReq.devPath
  word : ∀ c ∈ dev.memoryReq.devPath, isSpace c = false

def memName (dev : MemoryDev) : Text := "mem".toList ++ decimal dev.memdevIdx

def objectPairs (dev : MemoryDev) : List (Text × Text) :=
  [("share".toList, "on".toList), ("id".toList, memName dev),
    ("mem-path".toList, decode dev.memoryReq.devPath),
    ("size".toList, decimal dev.memoryReq.sizeMb ++ ['M']),
    ("align".toList, decimal dev.memoryReq.alignMb ++ ['M']),
    ("offset".toList, decimal dev.memoryReq.offsetMb ++ ['M'])]

def objectText (dev : MemoryDev) : Text := "memory-backend-file".toList ++ pairText (objectPairs dev)

theorem decode_bootText (idx size align offset : ℤ) (path : Text) :
    decode (bootText idx size align offset path) = bootText idx size align offset (decode path) := by
  have hword : ∀ w ∈ ["id=mem", ",mem-path=", "size=", "M,align=", "M,offset=", "M"],
      ∀ c ∈ w.toList, IsAscii c := by
    simp [IsAscii]
  have hdecimal : ∀ n : ℤ, ∀ c ∈ decimal n, IsAscii c := ascii_decimal
  have hsize : ",size=".toList = ',' :: "size=".toList := rfl
  have hfront : ∀ c ∈ "id=mem".toList ++ (decimal idx ++ ",mem-path=".toList), IsAscii c := by
    intro c hc
    simp only [List.mem_append] at hc
    rcases hc with hc | hc | hc
    · exact hword _ (by simp) c hc
    · exact hdecimal idx c hc
    · exact hword _ (by simp) c hc
  have hback : ∀ c ∈ "size=".toList ++ (decimal size ++ ("M,align=".toList ++ (decimal align ++
      ("M,offset=".toList ++ (decimal offset ++ "M".toList))))), IsAscii c := by
    intro c hc
    simp only [List.mem_append] at hc
    rcases hc with hc | hc | hc | hc | hc | hc | hc
    · exact hword _ (by simp) c hc
    · exact hdecimal size c hc
    · exact hword _ (by simp) c hc
    · exact hdecimal align c hc
    · exact hword _ (by simp) c hc
    · exact hdecimal offset c hc
    · exact hword _ (by simp) c hc
  have hshape : ∀ p : Text, bootText idx size align offset p =
      ("id=mem".toList ++ (decimal idx ++ ",mem-path=".toList)) ++ (p ++ ',' ::
        ("size=".toList ++ (decimal size ++ ("M,align=".toList ++ (decimal align ++
          ("M,offset=".toList ++ (decimal offset ++ "M".toList))))))) := by
    intro p
    delta bootText
    rw [hsize]
    simp only [List.append_assoc, List.cons_append]
  rw [hshape path, hshape (decode path), decode_ascii_append hfront, decode_append (by decide),
    decode_ascii hback]

/-- A text that neither starts nor ends in white space. -/
theorem strip_ends {a : Text} {c d : Char} (hc : isWhitespace c = false) (hd : isWhitespace d = false) :
    strip (c :: (a ++ [d])) = c :: (a ++ [d]) := by
  have hlast : ¬ isWhitespace d = true := by simp [hd]
  rw [strip, List.dropWhile_cons_of_neg (by simp [hc]), ← List.cons_append,
    List.rdropWhile_concat_neg _ _ _ hlast]

theorem clientText_bootText (idx size align offset : ℤ) (path : Text) :
    clientText (bootText idx size align offset path) =
      bootText idx size align offset (decode path) := by
  rw [clientText, decode_bootText]
  obtain ⟨a, ha⟩ : ∃ a, bootText idx size align offset (decode path) = 'i' :: (a ++ ['M']) :=
    ⟨"d=mem".toList ++ (decimal idx ++ (",mem-path=".toList ++ (decode path ++ (",size=".toList ++
      (decimal size ++ ("M,align=".toList ++ (decimal align ++ ("M,offset=".toList ++
        decimal offset)))))))), by
      have hid : "id=mem".toList = 'i' :: "d=mem".toList := rfl
      delta bootText
      rw [hid]
      simp only [List.append_assoc, List.cons_append]
      rfl⟩
  rw [ha, strip_ends (by decide) (by decide)]

theorem clientText_bootArgument (hdev : PlainDev dev) : clientText (bootArgument dev) =
    bootText dev.memdevIdx dev.memoryReq.sizeMb dev.memoryReq.alignMb dev.memoryReq.offsetMb
      (decode dev.memoryReq.devPath) := by
  obtain ⟨size, align, offset, ht⟩ := hdev.text
  rw [bootArgument_eq ht hdev.idx, clientText_bootText, ht.sizeMb, ht.alignMb, ht.offsetMb]

/-- The answer is a list of options of its own. -/
theorem bootText_pairs (idx size align offset : ℤ) (path : Text) :
    ',' :: bootText idx size align offset path =
      pairText [("id".toList, "mem".toList ++ decimal idx), ("mem-path".toList, path),
        ("size".toList, decimal size ++ ['M']), ("align".toList, decimal align ++ ['M']),
        ("offset".toList, decimal offset ++ ['M'])] := by
  have hid : "id=mem".toList = "id".toList ++ '=' :: "mem".toList := rfl
  have hmem : ",mem-path=".toList = ',' :: ("mem-path".toList ++ ['=']) := rfl
  have hsize : ",size=".toList = ',' :: ("size".toList ++ ['=']) := rfl
  have halign : "M,align=".toList = 'M' :: ',' :: ("align".toList ++ ['=']) := rfl
  have hoffset : "M,offset=".toList = 'M' :: ',' :: ("offset".toList ++ ['=']) := rfl
  have hend : "M".toList = ['M'] := rfl
  delta bootText
  rw [hid, hmem, hsize, halign, hoffset, hend]
  generalize "id".toList = tid, "mem".toList = tmem, "mem-path".toList = tpath,
    "size".toList = tsize, "align".toList = talign, "offset".toList = toffset
  simp only [pairText, List.flatMap_cons, List.flatMap_nil, List.append_assoc, List.cons_append,
    List.nil_append, List.append_nil]

theorem memArg_eq (hdev : PlainDev dev) :
    memArg (clientText (bootArgument dev)) = "-object".toList ++ ' ' :: objectText dev := by
  have hobject : "-object memory-backend-file,share=on,".toList = "-object".toList ++
      ' ' :: ("memory-backend-file".toList ++ (',' :: ("share".toList ++ '=' :: "on".toList) ++ [','])) :=
    rfl
  have hpairs := bootText_pairs dev.memdevIdx dev.memoryReq.sizeMb dev.memoryReq.alignMb
    dev.memoryReq.offsetMb (decode dev.memoryReq.devPath)
  delta memArg objectText objectPairs memName
  rw [clientText_bootArgument hdev, hobject, pairText, List.flatMap_cons, ← pairText, ← hpairs]
  generalize "-object".toList = tobject, "memory-backend-file".toList = tkind, "share".toList = tshare,
    "on".toList = ton
  simp only [List.append_assoc, List.cons_append, List.nil_append]

theorem shlexPlain_append {a b : Text} (ha : ShlexPlain a) (hb : ShlexPlain b) :
    ShlexPlain (a ++ b) := by
  intro c hc
  rcases List.mem_append.mp hc with hc | hc
  · exact ha c hc
  · exact hb c hc

theorem shlexPlain_decimal (n : ℤ) : ShlexPlain (decimal n) := by
  intro c hc
  have hdigit : ∀ d : Char, d.isDigit = true ∨ d = '-' →
      isShlexSpace d = false ∧ d ≠ '\\' ∧ d ≠ '\'' ∧ d ≠ '"' := by
    intro d hd
    rcases hd with hd | rfl
    · refine ⟨?_, ?_, ?_, ?_⟩
      · have hne : d ≠ ' ' ∧ d ≠ '\t' ∧ d ≠ '\r' ∧ d ≠ '\n' := by
          refine ⟨?_, ?_, ?_, ?_⟩ <;> rintro rfl <;> cases hd
        simp [isShlexSpace, hne]
      all_goals
        rintro rfl
        cases hd
    · decide
  exact hdigit c (isDigit_of_mem_decimal hc)

theorem shlexPlain_pairText {kvs : List (Text × Text)}
    (h : ∀ kv ∈ kvs, ShlexPlain kv.1 ∧ ShlexPlain kv.2) : ShlexPlain (pairText kvs) := by
  intro c hc
  obtain ⟨kv, hkv, hc⟩ := List.mem_flatMap.mp hc
  obtain ⟨hkey, hvalue⟩ := h kv hkv
  rcases List.mem_cons.mp hc with rfl | hc
  · decide
  rcases List.mem_append.mp hc with hc | hc
  · exact hkey c hc
  rcases List.mem_cons.mp hc with rfl | hc
  · decide
  · exact hvalue c hc

theorem shlexPlain_path (hdev : PlainDev dev) : ShlexPlain (decode dev.memoryReq.devPath) := by
  intro c hc
  have hnot : ∀ d : Char, IsAscii d → d ∉ dev.memoryReq.devPath → c ≠ d := by
    intro d hd hpath hcd
    rw [hcd] at hc
    exact hpath ((mem_decode hd).mp hc)
  have hspace : ∀ d : Char, isSpace d = true → d ∉ dev.memoryReq.devPath := by
    intro d hd hmem
    rw [hdev.word d hmem] at hd
    cases hd
  have hspaces := And.intro (hnot ' ' (by decide) (hspace _ (by decide)))
    (And.intro (hnot '\t' (by decide) (hspace _ (by decide)))
      (And.intro (hnot '\r' (by decide) (hspace _ (by decide)))
        (hnot '\n' (by decide) (hspace _ (by decide)))))
  refine ⟨?_, hnot _ (by decide) hdev.plain.slash, hnot _ (by decide) hdev.plain.quote,
    hnot _ (by decide) hdev.plain.doubleQuote⟩
  simp [isShlexSpace, hspaces]

theorem shlexPlain_memName (dev : MemoryDev) : ShlexPlain (memName dev) :=
  shlexPlain_append (by simp [ShlexPlain, isShlexSpace]) (shlexPlain_decimal _)

theorem objectText_plain (hdev : PlainDev dev) : ShlexPlain (objectText dev) := by
  have hword : ∀ w ∈ ["memory-backend-file", "share", "on", "id", "mem-path", "size", "align",
      "offset", "M"], ShlexPlain w.toList := by
    simp [ShlexPlain, isShlexSpace]
  have hsize : ∀ n : ℤ, ShlexPlain (decimal n ++ ['M']) := fun n =>
    shlexPlain_append (shlexPlain_decimal n) (hword "M" (by simp))
  refine shlexPlain_append (hword _ (by simp)) (shlexPlain_pairText ?_)
  simp only [objectPairs, List.forall_mem_cons, List.not_mem_nil, false_implies, implies_true, and_true]
  exact ⟨⟨hword _ (by simp), hword _ (by simp)⟩, ⟨hword _ (by simp), shlexPlain_memName dev⟩,
    ⟨hword _ (by simp), shlexPlain_path hdev⟩, ⟨hword _ (by simp), hsize _⟩,
    ⟨hword _ (by simp), hsize _⟩, hword _ (by simp), hsize _⟩

theorem memArg_split (hdev : PlainDev dev) :
    shlexSplit (memArg (clientText (bootArgument dev))) = some ["-object".toList, objectText dev] := by
  have hoption : ShlexPlain "-object".toList := by simp [ShlexPlain, isShlexSpace]
  rw [memArg_eq hdev, shlexSplit_two hoption (objectText_plain hdev) (by decide)
    (List.append_ne_nil_of_left_ne_nil (by decide) _)]

/-! ### What QEMU reads of an object -/

theorem comma_notMem_memName (dev : MemoryDev) : ',' ∉ memName dev := by
  rw [memName, List.mem_append, not_or]
  exact ⟨by decide, comma_notMem_decimal _⟩

theorem objectPairs_plain (hdev : PlainDev dev) : ∀ kv ∈ objectPairs dev, PlainPair kv := by
  have hsize : ∀ n : ℤ, ',' ∉ decimal n ++ ['M'] := fun n => by simp [comma_notMem_decimal n]
  have hpath : ',' ∉ decode dev.memoryReq.devPath := fun h =>
    hdev.plain.comma ((mem_decode (by decide)).mp h)
  simp only [objectPairs, List.forall_mem_cons, List.not_mem_nil, false_implies, implies_true, and_true,
    PlainPair]
  exact ⟨by decide, ⟨by decide, by decide, by decide, comma_notMem_memName dev⟩,
    ⟨by decide, by decide, by decide, hpath⟩, ⟨by decide, by decide, by decide, hsize _⟩,
    ⟨by decide, by decide, by decide, hsize _⟩, by decide, by decide, by decide, hsize _⟩

theorem objectText_read (hdev : PlainDev dev) :
    optionValue (objectText dev) "id" = some (memName dev) ∧
      (optionValue (objectText dev) "size").bind readMb = some dev.memoryReq.sizeMb := by
  obtain ⟨size, align, offset, ht⟩ := hdev.text
  have hread : ∀ key, optionValue (objectText dev) key = _ := fun key =>
    optionValue_pairText (by decide) (objectPairs_plain hdev)
  simp only [hread, objectPairs]
  constructor
  · simp [List.lookup]
  · simp [List.lookup, ht.sizeMb, readMb_decimal]

/-! ### The NUMA node of a node -/

def nodePairs (nid : ℤ) (info : MemoryNodeInfo) : List (Text × Text) :=
  [("nodeid".toList, decimal nid), ("tier-id".toList, decimal info.tierId),
    ("dax-id".toList, decimal info.daxId)]

/-- The answer to a `get-node-info` that names the node. -/
def nodeAnswer (nid : ℤ) (info : MemoryNodeInfo) : Text :=
  snprintf bufferSize "nodeid=%d,tier-id=%d,dax-id=%d" [.int nid, .int info.tierId, .int info.daxId]

variable {allocations : List (ℤ × ℤ)} {memIds : List Text} {range : Text} {info : MemoryNodeInfo}

/-- The device of the node, and the CPUs where the node is that of the first allocation. -/
def memdevPairs (allocations : List (ℤ × ℤ)) (memIds : List Text) (range : Text) (nid : ℤ) :
    List (Text × Text) :=
  match nodeToMemid allocations memIds nid with
  | none => []
  | some memId => ("memdev".toList, memId) ::
      if allocations.head?.map Prod.fst = some nid then [("cpus".toList, range)] else []

def numaText (allocations : List (ℤ × ℤ)) (memIds : List Text) (range : Text) (nid : ℤ)
    (info : MemoryNodeInfo) : Text :=
  "node".toList ++ pairText (nodePairs nid info ++ ("seg-id".toList, "0".toList) ::
    memdevPairs allocations memIds range nid)

theorem nodeAnswer_eq (hnid : InInt nid) (htier : InInt info.tierId) (hdax : InInt info.daxId) :
    nodeAnswer nid info = "nodeid=".toList ++ (decimal nid ++ (",tier-id=".toList ++
      (decimal info.tierId ++ (",dax-id=".toList ++ decimal info.daxId)))) := by
  have hformat : directives none "nodeid=%d,tier-id=%d,dax-id=%d".toList =
      lits "nodeid=" ++ .int 0 :: (lits ",tier-id=" ++ .int 0 :: (lits ",dax-id=" ++ .int 0 ::
        lits "")) := rfl
  have hwords : "nodeid=".toList.length = 7 ∧ ",tier-id=".toList.length = 9 ∧
      ",dax-id=".toList.length = 8 := by simp
  have hlengths := And.intro (decimal_length hnid)
    (And.intro (decimal_length htier) (decimal_length hdax))
  rw [nodeAnswer, snprintf, sprintf, hformat]
  rw [render_lits, render_int, render_lits, render_int, render_lits, render_int, render_end]
  rw [padLeft_zero, padLeft_zero, padLeft_zero]
  have hempty : "".toList = [] := rfl
  rw [hempty, List.append_nil]
  refine List.take_of_length_le ?_
  simp only [List.length_append, hwords, bufferSize]
  omega

theorem clientText_nodeAnswer (hnid : InInt nid) (htier : InInt info.tierId) (hdax : InInt info.daxId) :
    ',' :: clientText (nodeAnswer nid info) = pairText (nodePairs nid info) := by
  have hnode : "nodeid=".toList = "nodeid".toList ++ ['='] := rfl
  have htierWord : ",tier-id=".toList = ',' :: ("tier-id".toList ++ ['=']) := rfl
  have hdaxWord : ",dax-id=".toList = ',' :: ("dax-id".toList ++ ['=']) := rfl
  have hascii : ∀ c ∈ nodeAnswer nid info, IsAscii c ∧ isWhitespace c = false := by
    have hword : ∀ w ∈ ["nodeid=", ",tier-id=", ",dax-id="],
        ∀ c ∈ w.toList, IsAscii c ∧ isWhitespace c = false := by
      simp [IsAscii, isWhitespace]
    have hdecimal : ∀ n : ℤ, ∀ c ∈ decimal n, IsAscii c ∧ isWhitespace c = false := fun n c hc =>
      ⟨ascii_decimal n c hc, decimal_notWhitespace hc⟩
    intro c hc
    rw [nodeAnswer_eq hnid htier hdax] at hc
    simp only [List.mem_append] at hc
    rcases hc with hc | hc | hc | hc | hc | hc
    · exact hword _ (by simp) c hc
    · exact hdecimal _ c hc
    · exact hword _ (by simp) c hc
    · exact hdecimal _ c hc
    · exact hword _ (by simp) c hc
    · exact hdecimal _ c hc
  have hstrip : strip (nodeAnswer nid info) = nodeAnswer nid info := by
    have h := @strip_padded [] (nodeAnswer nid info) [] (by simp) (fun c hc => (hascii c hc).2) (by simp)
    rwa [List.nil_append, List.append_nil] at h
  rw [clientText, decode_ascii fun c hc => (hascii c hc).1, hstrip, nodeAnswer_eq hnid htier hdax,
    hnode, htierWord, hdaxWord, nodePairs]
  generalize "nodeid".toList = tnode, "tier-id".toList = ttier, "dax-id".toList = tdax
  simp only [pairText, List.flatMap_cons, List.flatMap_nil, List.append_assoc, List.cons_append,
    List.nil_append, List.append_nil]

theorem nodeArg_eq (hnid : InInt nid) (htier : InInt info.tierId) (hdax : InInt info.daxId) :
    nodeArg allocations memIds range nid (clientText (nodeAnswer nid info)) =
      "-numa".toList ++ ' ' :: numaText allocations memIds range nid info := by
  have hanswer := clientText_nodeAnswer hnid htier hdax
  have hnuma : "-numa node,".toList = "-numa".toList ++ ' ' :: ("node".toList ++ [',']) := rfl
  have hseg : ",seg-id=0".toList = ',' :: ("seg-id".toList ++ '=' :: "0".toList) := rfl
  have hmemdev : ",memdev=".toList = ',' :: ("memdev".toList ++ ['=']) := rfl
  have hcpus : ",cpus=".toList = ',' :: ("cpus".toList ++ ['=']) := rfl
  have hpairs : ∀ kvs kvs' : List (Text × Text), pairText (kvs ++ kvs') = pairText kvs ++ pairText kvs' :=
    fun _ _ => List.flatMap_append
  delta nodeArg numaText memdevPairs
  rw [hpairs, ← hanswer, hnuma, hseg, hmemdev, hcpus]
  generalize "-numa".toList = tnuma, "node".toList = tnode, "seg-id".toList = tseg, "0".toList = tzero,
    "memdev".toList = tmemdev, "cpus".toList = tcpus
  cases nodeToMemid allocations memIds nid with
  | none =>
    simp only [pairText, List.flatMap_cons, List.flatMap_nil, List.append_assoc, List.cons_append,
      List.nil_append, List.append_nil]
  | some memId =>
    dsimp only
    split_ifs <;> simp only [pairText, List.flatMap_cons, List.flatMap_nil, List.append_assoc,
      List.cons_append, List.nil_append, List.append_nil]

theorem nodeToMemid_mem {memId : Text} (h : nodeToMemid allocations memIds nid = some memId) :
    memId ∈ memIds := by
  obtain ⟨e, he, rfl⟩ := Option.map_eq_some_iff.mp h
  exact (List.of_mem_zip (List.mem_reverse.mp (List.mem_of_find?_eq_some he))).2

/-- A text that stands for itself in an option and in a quoted word. -/
def PlainText (t : Text) : Prop := ShlexPlain t ∧ ',' ∉ t

theorem plainText_decimal (n : ℤ) : PlainText (decimal n) :=
  ⟨shlexPlain_decimal n, comma_notMem_decimal n⟩

theorem numaPairs_plain (hmem : ∀ id ∈ memIds, PlainText id) (hrange : PlainText range) :
    ∀ kv ∈ nodePairs nid info ++ ("seg-id".toList, "0".toList) :: memdevPairs allocations memIds range nid,
      PlainPair kv ∧ ShlexPlain kv.1 ∧ ShlexPlain kv.2 := by
  have hkey : ∀ w ∈ ["nodeid", "tier-id", "dax-id", "seg-id", "memdev", "cpus"], ∀ v : Text, PlainText v →
      PlainPair (w.toList, v) ∧ ShlexPlain w.toList ∧ ShlexPlain v := by
    intro w hw v hv
    have hplain : ∀ w ∈ ["nodeid", "tier-id", "dax-id", "seg-id", "memdev", "cpus"],
        ShlexPlain w.toList := by
      simp [ShlexPlain, isShlexSpace]
    have hsafe : ∀ w ∈ ["nodeid", "tier-id", "dax-id", "seg-id", "memdev", "cpus"],
        w.toList ≠ [] ∧ ',' ∉ w.toList ∧ '=' ∉ w.toList := by
      simp
    obtain ⟨hne, hcomma, heq⟩ := hsafe w hw
    exact ⟨⟨hne, hcomma, heq, hv.2⟩, hplain w hw, hv.1⟩
  have hzero : PlainText "0".toList := by simp [PlainText, ShlexPlain, isShlexSpace]
  have hdevice : ∀ kv ∈ memdevPairs allocations memIds range nid,
      PlainPair kv ∧ ShlexPlain kv.1 ∧ ShlexPlain kv.2 := by
    unfold memdevPairs
    cases hid : nodeToMemid allocations memIds nid with
    | none => simp
    | some memId =>
      have hmemId := hkey "memdev" (by simp) _ (hmem _ (nodeToMemid_mem hid))
      dsimp only
      split_ifs
      · simp only [List.forall_mem_cons, List.not_mem_nil, false_implies, implies_true, and_true]
        exact ⟨hmemId, hkey "cpus" (by simp) _ hrange⟩
      · simp only [List.forall_mem_cons, List.not_mem_nil, false_implies, implies_true, and_true]
        exact hmemId
  have hnode : ∀ kv ∈ nodePairs nid info, PlainPair kv ∧ ShlexPlain kv.1 ∧ ShlexPlain kv.2 := by
    simp only [nodePairs, List.forall_mem_cons, List.not_mem_nil, false_implies, implies_true, and_true]
    exact ⟨hkey "nodeid" (by simp) _ (plainText_decimal _),
      hkey "tier-id" (by simp) _ (plainText_decimal _), hkey "dax-id" (by simp) _ (plainText_decimal _)⟩
  intro kv hkv
  rcases List.mem_append.mp hkv with hkv | hkv
  · exact hnode kv hkv
  rcases List.mem_cons.mp hkv with rfl | hkv
  · exact hkey "seg-id" (by simp) _ hzero
  · exact hdevice kv hkv

theorem numaText_plain (hmem : ∀ id ∈ memIds, PlainText id) (hrange : PlainText range) :
    ShlexPlain (numaText allocations memIds range nid info) :=
  shlexPlain_append (by simp [ShlexPlain, isShlexSpace])
    (shlexPlain_pairText fun kv hkv => (numaPairs_plain hmem hrange kv hkv).2)

theorem nodeArg_split (hmem : ∀ id ∈ memIds, PlainText id) (hrange : PlainText range)
    (hnid : InInt nid) (htier : InInt info.tierId) (hdax : InInt info.daxId) :
    shlexSplit (nodeArg allocations memIds range nid (clientText (nodeAnswer nid info))) =
      some ["-numa".toList, numaText allocations memIds range nid info] := by
  have hoption : ShlexPlain "-numa".toList := by simp [ShlexPlain, isShlexSpace]
  rw [nodeArg_eq hnid htier hdax, shlexSplit_two hoption (numaText_plain hmem hrange) (by decide)
    (List.append_ne_nil_of_left_ne_nil (by decide) _)]

/-- What QEMU reads of a NUMA node. -/
theorem numaText_read (hmem : ∀ id ∈ memIds, PlainText id) (hrange : PlainText range) :
    optionValue (numaText allocations memIds range nid info) "nodeid" = some (decimal nid) ∧
      optionValue (numaText allocations memIds range nid info) "memdev" =
        nodeToMemid allocations memIds nid ∧
      optionValue (numaText allocations memIds range nid info) "cpus" =
        if nodeToMemid allocations memIds nid ≠ none ∧ allocations.head?.map Prod.fst = some nid then
          some range
        else none := by
  have hread : ∀ key, optionValue (numaText allocations memIds range nid info) key = _ := fun key =>
    optionValue_pairText (by decide) fun kv hkv => (numaPairs_plain hmem hrange kv hkv).1
  simp only [hread, nodePairs, memdevPairs]
  generalize allocations.head?.map Prod.fst = first
  cases nodeToMemid allocations memIds nid with
  | none => simp [List.lookup]
  | some memId =>
    by_cases hfirst : first = some nid
    · simp [List.lookup, hfirst]
    · simp [List.lookup, hfirst]

/-! ### The command -/

theorem mapM_map_eq_pure {M : Type → Type} [Monad M] [LawfulMonad M] {α β γ : Type} {f : α → β}
    {g : β → M γ} {k : α → γ} {l : List α} (h : ∀ a ∈ l, g (f a) = pure (k a)) :
    (l.map f).mapM g = pure (l.map k) := by
  induction l with
  | nil => rfl
  | cons a l ih =>
    rw [List.map_cons, List.mapM_cons, h a List.mem_cons_self,
      ih fun b hb => h b (List.mem_cons_of_mem a hb)]
    simp

theorem flatten_given {α : Type} (option : String) (value : α → Text) (l : List α) :
    (l.map fun a => [option.toList, value a]).flatten = given option (l.map value) := by
  rw [given, List.flatMap_map, List.flatMap_def]

theorem plainText_memName (dev : MemoryDev) : PlainText (memName dev) :=
  ⟨shlexPlain_memName dev, comma_notMem_memName dev⟩

/-- The ids of the devices, in the order of the allocations. -/
theorem memIds_plain (devs : List MemoryDev) : ∀ id ∈ devs.map memName, PlainText id := by
  intro id hid
  obtain ⟨dev, _, rfl⟩ := List.mem_map.mp hid
  exact plainText_memName dev

/-- The CPUs of the first node that has memory. -/
def cpusText (smp : ℤ) : Text := "0-".toList ++ decimal (smp - 1)

theorem plainText_cpusText (smp : ℤ) : PlainText (cpusText smp) := by
  have hword : PlainText "0-".toList := by simp [PlainText, ShlexPlain, isShlexSpace]
  have hdecimal := plainText_decimal (smp - 1)
  refine ⟨shlexPlain_append hword.1 hdecimal.1, ?_⟩
  rw [cpusText, List.mem_append, not_or]
  exact ⟨hword.2, hdecimal.2⟩

variable {qemuBin : Text} {job : CreateJob} {vmid : ℤ} {plan : MemoryPlan} {infos : ℤ → MemoryNodeInfo}

/-- The values of `-numa`. -/
def numaTexts (plan : MemoryPlan) (devs : List MemoryDev) (smp : ℤ) (infos : ℤ → MemoryNodeInfo) :
    List Text :=
  plan.allNodeIds.map fun nid =>
    numaText plan.allocations (devs.map memName) (cpusText smp) nid (infos nid)

/-- The words of a command with these values of `-object` and `-numa`. -/
def commandWords (qemuBin : Text) (job : CreateJob) (vmid : ℤ) (objects numas : List Text) : List Text :=
  machineArgs qemuBin job vmid ++ given "-object" objects ++ given "-numa" numas ++
    deviceArgs job.cfg vmid

theorem buildQemuCmd_ok (hdevs : ∀ dev ∈ devs, PlainDev dev)
    (hnodes : ∀ nid ∈ plan.allNodeIds, InInt nid ∧ InInt (infos nid).tierId ∧ InInt (infos nid).daxId) :
    buildQemuCmd qemuBin job vmid plan (devs.map fun dev => clientText (bootArgument dev))
        (plan.allNodeIds.map fun nid => clientText (nodeAnswer nid (infos nid))) =
      .ok (commandWords qemuBin job vmid (devs.map objectText) (numaTexts plan devs job.smp infos)) := by
  have hids : (devs.map fun dev => clientText (bootArgument dev)).mapM allocMemId =
      (.ok (devs.map memName) : Raises (List Text)) :=
    mapM_map_eq_pure fun dev hdev => allocMemId_response (vmMemReqOf dev) (hdevs dev hdev).idx
  have hinfos : (plan.allNodeIds.map fun nid => clientText (nodeAnswer nid (infos nid))).mapM nodeInfoOut =
      (.ok (plan.allNodeIds.map fun nid => clientText (nodeAnswer nid (infos nid))) :
        Raises (List Text)) := by
    refine mapM_map_eq_pure fun nid hnid => ?_
    obtain ⟨hid, htier, hdax⟩ := hnodes nid hnid
    have hpairs := clientText_nodeAnswer hid htier hdax
    rw [nodeInfoOut, if_neg]
    · rfl
    · intro hempty
      rw [hempty] at hpairs
      simp [nodePairs, pairText] at hpairs
  have hobjects : ((devs.map fun dev => clientText (bootArgument dev)).map memArg).mapM shlexSplit =
      some (devs.map fun dev => ["-object".toList, objectText dev]) := by
    rw [List.map_map]
    exact mapM_map_eq_pure fun dev hdev => memArg_split (hdevs dev hdev)
  have hnumas : ((plan.allNodeIds.zip
      (plan.allNodeIds.map fun nid => clientText (nodeAnswer nid (infos nid)))).map fun e =>
        nodeArg plan.allocations (devs.map memName) (cpusText job.smp) e.1 e.2).mapM shlexSplit =
      some (plan.allNodeIds.map fun nid => ["-numa".toList,
        numaText plan.allocations (devs.map memName) (cpusText job.smp) nid (infos nid)]) := by
    rw [← List.map_prod_left_eq_zip, List.map_map]
    refine mapM_map_eq_pure fun nid hnid => ?_
    obtain ⟨hid, htier, hdax⟩ := hnodes nid hnid
    exact nodeArg_split (memIds_plain devs) (plainText_cpusText job.smp) hid htier hdax
  rw [buildQemuCmd, hids, ok_bind, hinfos, ok_bind]
  dsimp only
  rw [hobjects, orRaise, ok_bind]
  change (orRaise (((plan.allNodeIds.zip _).map fun e =>
    nodeArg plan.allocations (devs.map memName) (cpusText job.smp) e.1 e.2).mapM shlexSplit) >>= _) = _
  rw [hnumas, orRaise, ok_bind, flatten_given, flatten_given]
  rfl

theorem mem_given {option : String} {values : List Text} {w : Text} (h : w ∈ given option values) :
    w = option.toList ∨ w ∈ values := by
  obtain ⟨v, hv, hw⟩ := List.mem_flatMap.mp h
  rcases List.mem_cons.mp hw with rfl | hw
  · exact .inl rfl
  · exact .inr (List.mem_singleton.mp hw ▸ hv)

/-- The words behind the machine and those behind the memory are no option of the memory. -/
theorem deviceArgs_options (cfg : VmConfig) (vmid : ℤ) :
    "-m".toList ∉ deviceArgs cfg vmid ∧ "-object".toList ∉ deviceArgs cfg vmid ∧
      "-numa".toList ∉ deviceArgs cfg vmid := by
  simp [deviceArgs]

/-- A number with a suffix is no option. -/
theorem toMArg_options (n : ℤ) :
    toMArg n ≠ "-m".toList ∧ toMArg n ≠ "-object".toList ∧ toMArg n ≠ "-numa".toList := by
  have hchars : ∀ c ∈ toMArg n, c.isDigit = true ∨ c = '-' ∨ c = 'G' ∨ c = 'M' := by
    intro c hc
    unfold toMArg at hc
    split_ifs at hc
    · rcases List.mem_append.mp hc with hc | hc
      · exact (isDigit_of_mem_decimal hc).imp id .inl
      · exact .inr (.inr (.inl (List.mem_singleton.mp hc)))
    · rcases List.mem_append.mp hc with hc | hc
      · exact (isDigit_of_mem_decimal hc).imp id .inl
      · exact .inr (.inr (.inr (List.mem_singleton.mp hc)))
  refine ⟨fun h => ?_, fun h => ?_, fun h => ?_⟩
  · exact absurd (hchars 'm' (by simp [h])) (by decide)
  · exact absurd (hchars 'o' (by simp [h])) (by decide)
  · exact absurd (hchars 'n' (by simp [h])) (by decide)

theorem decimal_options (n : ℤ) :
    "-m".toList ≠ decimal n ∧ "-object".toList ≠ decimal n ∧ "-numa".toList ≠ decimal n := by
  refine ⟨fun h => ?_, fun h => ?_, fun h => ?_⟩
  · exact absurd (isDigit_of_mem_decimal (h ▸ by simp : 'm' ∈ decimal n)) (by decide)
  · exact absurd (isDigit_of_mem_decimal (h ▸ by simp : 'o' ∈ decimal n)) (by decide)
  · exact absurd (isDigit_of_mem_decimal (h ▸ by simp : 'n' ∈ decimal n)) (by decide)

variable {objects numas : List Text}

/-- The words before the memory. -/
def frontArgs (job : CreateJob) (vmid : ℤ) : List Text :=
  ["-name".toList, vmName vmid, "-enable-kvm".toList, "-cpu".toList, "host".toList, "-smp".toList,
    decimal job.smp]

theorem frontArgs_options (job : CreateJob) (vmid : ℤ) :
    "-m".toList ∉ frontArgs job vmid ∧ "-object".toList ∉ frontArgs job vmid ∧
      "-numa".toList ∉ frontArgs job vmid := by
  have hname : (vmName vmid).head? = some 'R' := rfl
  have hne : ∀ {t : Text}, t.head? = some '-' → t ≠ vmName vmid := by
    rintro t ht rfl
    rw [hname] at ht
    cases ht
  obtain ⟨hm, hobject, hnuma⟩ := decimal_options job.smp
  simp only [frontArgs, List.mem_cons, List.not_mem_nil, or_false, not_or]
  exact ⟨⟨by decide, hne rfl, by decide, by decide, by decide, by decide, hm⟩,
    ⟨by decide, hne rfl, by decide, by decide, by decide, by decide, hobject⟩,
    ⟨by decide, hne rfl, by decide, by decide, by decide, by decide, hnuma⟩⟩

theorem qemuArgs_commandWords : qemuArgs (commandWords qemuBin job vmid objects numas) =
    frontArgs job vmid ++ (["-m".toList, toMArg (job.cfg.memoryMb + job.cfg.cxlMemoryMb)] ++
      (given "-object" objects ++ (given "-numa" numas ++ deviceArgs job.cfg vmid))) := by
  have hmachine : machineArgs qemuBin job vmid =
      ["sudo".toList, "taskset".toList, "-c".toList, job.cfg.cpuSet, qemuBin] ++
        (frontArgs job vmid ++ ["-m".toList, toMArg (job.cfg.memoryMb + job.cfg.cxlMemoryMb)]) := rfl
  rw [qemuArgs, commandWords, hmachine]
  simp only [List.append_assoc]
  rfl

theorem valuesOf_command (hwords : ∀ o ∈ objects ++ numas, o.head? ≠ some '-') :
    valuesOf "-m" (qemuArgs (commandWords qemuBin job vmid objects numas)) =
        [toMArg (job.cfg.memoryMb + job.cfg.cxlMemoryMb)] ∧
      valuesOf "-object" (qemuArgs (commandWords qemuBin job vmid objects numas)) = objects ∧
      valuesOf "-numa" (qemuArgs (commandWords qemuBin job vmid objects numas)) = numas := by
  have hobjects : ∀ {option : String}, option.toList.head? = some '-' → option.toList ≠ "-object".toList →
      option.toList ∉ given "-object" objects := by
    intro option hdash hne hmem
    rcases mem_given hmem with h | h
    · exact hne h
    · exact hwords _ (List.mem_append_left _ h) hdash
  have hnumas : ∀ {option : String}, option.toList.head? = some '-' → option.toList ≠ "-numa".toList →
      option.toList ∉ given "-numa" numas := by
    intro option hdash hne hmem
    rcases mem_given hmem with h | h
    · exact hne h
    · exact hwords _ (List.mem_append_right _ h) hdash
  obtain ⟨hfrontM, hfrontObject, hfrontNuma⟩ := frontArgs_options job vmid
  obtain ⟨hm, hobject, hnuma⟩ := toMArg_options (job.cfg.memoryMb + job.cfg.cxlMemoryMb)
  obtain ⟨hdevM, hdevObject, hdevNuma⟩ := deviceArgs_options job.cfg vmid
  rw [qemuArgs_commandWords]
  refine ⟨?_, ?_, ?_⟩
  · rw [valuesOf_skip hfrontM]
    have hgiven : ["-m".toList, toMArg (job.cfg.memoryMb + job.cfg.cxlMemoryMb)] =
        given "-m" [toMArg (job.cfg.memoryMb + job.cfg.cxlMemoryMb)] := rfl
    rw [hgiven, valuesOf_given, valuesOf_skip (hobjects rfl (by decide)),
      valuesOf_skip (hnumas rfl (by decide)), valuesOf_none hdevM, List.append_nil]
  · have hskip : "-object".toList ∉ ["-m".toList, toMArg (job.cfg.memoryMb + job.cfg.cxlMemoryMb)] := by
      simp only [List.mem_cons, List.not_mem_nil, or_false, not_or]
      exact ⟨by decide, hobject.symm⟩
    rw [valuesOf_skip hfrontObject, valuesOf_skip hskip, valuesOf_given,
      valuesOf_skip (hnumas rfl (by decide)), valuesOf_none hdevObject, List.append_nil]
  · have hskip : "-numa".toList ∉ ["-m".toList, toMArg (job.cfg.memoryMb + job.cfg.cxlMemoryMb)] := by
      simp only [List.mem_cons, List.not_mem_nil, or_false, not_or]
      exact ⟨by decide, hnuma.symm⟩
    rw [valuesOf_skip hfrontNuma, valuesOf_skip hskip, valuesOf_skip (hobjects rfl (by decide)),
      valuesOf_given, valuesOf_none hdevNuma, List.append_nil]

end Ramryder.CommandParts
