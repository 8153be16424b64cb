import Ramryder.CreateConsistency
import Ramryder.JoinedWords

/-! The processes that `destroy-vm` signals: a search by pattern over command lines, and what of a
command line of `create-vm` it can find. -/
namespace Ramryder.QemuSearch
open AttachRuns CInt CMachine Cli CommandLine CommandParts CreateCleanup CreateConsistency CreatePlan
  CreatePlanSpec CreateRequests CreateSteps CText HotplugRange JoinedWords MemoryPool PoolConfig PyText QemuCommand ResourceManager
  ResourceManagerSpec Runs Shutdown VmManager VmManagerSpec

/-- `os.path.join` of a directory and a relative path. -/
def pathJoin (dir path : Text) : Text :=
  if dir = [] ∨ dir.getLast? = some '/' then dir ++ path else dir ++ '/' :: path

/-- `build_paths`: QEMU and the default image, given the directories that it looks up. -/
def buildPaths (projectRoot home : Text) : Text × Text :=
  (["qemu".toList, "build".toList, "qemu-system-x86_64".toList].foldl pathJoin projectRoot,
    ["images".toList, "nvcloud-image-clean.qcow2".toList].foldl pathJoin home)

structure Process where
  pid : ℤ
  argv : List Text
  deriving DecidableEq, Repr

/-- The processes that exist at one time, besides the search itself. -/
structure ProcessTable where
  procs : List Process
  distinct : (procs.map Process.pid).Nodup

/-- The command line of a process, as `pgrep -f` reads it. -/
def cmdline (argv : List Text) : Text := joined ' ' argv

/-- The processes on whose command line `lead.*needle` matches somewhere. -/
def pgrep (t : ProcessTable) (lead needle : Text) : List ℤ :=
  (t.procs.filter fun p => Follows lead needle (cmdline p.argv)).map Process.pid

def program : Text := "qemu-system-x86_64".toList

/-- The part of the pattern behind `.*`. -/
def nameOption (vmid : ℤ) : Text := "-name ".toList ++ vmName vmid

def findQemuPidsByVmid (t : ProcessTable) (vmid : ℤ) : List ℤ := pgrep t program (nameOption vmid)

structure Signal where
  pid : ℤ
  number : ℕ
  deriving DecidableEq, Repr

/-- `handle_destroy_vm`, given the processes at its two searches and the answer to its request. -/
def handleDestroyVm (before after : ProcessTable) (out : Text) (vmid : ℤ) : List Signal × Raises ℤ :=
  let pids := findQemuPidsByVmid before vmid
  let terminated := pids.map fun pid => ⟨pid, 15⟩
  let killed := if pids = [] then [] else (findQemuPidsByVmid after vmid).map fun pid => ⟨pid, 9⟩
  (terminated ++ killed,
    if "success".toList <:+: lower out then .ok 0
    else .error (.runtimeError
      s!"destroy-vm failed for vid={String.ofList (decimal vmid)}: {String.ofList out}"))

/-- The command lines of the processes that a command runs: `sudo`, and `taskset`, which becomes QEMU. -/
def runs (words : List Text) : List (List Text) := [words, words.drop 1, words.drop 4]

def Signalled (before after : ProcessTable) (out : Text) (vmid : ℤ) (p : Process) : Prop :=
  p ∈ before.procs ∧ ⟨p.pid, 15⟩ ∈ (handleDestroyVm before after out vmid).1 ∨
    p ∈ after.procs ∧ ⟨p.pid, 9⟩ ∈ (handleDestroyVm before after out vmid).1

/-- What is done to the VM leaves the processes of the command alone. -/
structure Spared (vmid : ℤ) (words : List Text) : Prop where
  unfound : ∀ argv ∈ runs words, ∀ t : ProcessTable, ∀ p ∈ t.procs, p.argv = argv →
    p.pid ∉ findQemuPidsByVmid t vmid
  unsignalled : ∀ argv ∈ runs words, ∀ before after out p, p.argv = argv →
    ¬ Signalled before after out vmid p

/-- The arguments made of the answers of the server, before they are split. -/
def answerArgs (job : CreateJob) (plan : MemoryPlan) (allocOuts nodeOuts : List Text) : List Text :=
  allocOuts.map memArg ++ (plan.allNodeIds.zip nodeOuts).map fun e =>
    nodeArg plan.allocations (allocOuts.filterMap fun out => (allocMemId out).toOption)
      (cpusText job.smp) e.1 e.2

/-- No text handed to `build_qemu_cmd` spells what is searched for. -/
structure Unspelled (vmid : ℤ) (projectRoot : Text) (job : CreateJob) (args : List Text) : Prop where
  paths : ¬ Follows program (nameOption vmid) (job.cfg.cpuSet ++ ' ' :: projectRoot)
  image : ¬ nameOption vmid <:+: job.cfg.image
  answers : ∀ arg ∈ args, ∀ words, shlexSplit arg = some words → ¬ nameOption vmid <:+: cmdline words

variable {v w : ℤ} {projectRoot home : Text} {job : CreateJob} {plan : MemoryPlan}
  {allocOuts nodeOuts words : List Text} {p : Process} {t before after : ProcessTable}

/-! ### What is signalled -/

theorem mem_findQemuPidsByVmid (hp : p ∈ t.procs) :
    p.pid ∈ findQemuPidsByVmid t v ↔ Follows program (nameOption v) (cmdline p.argv) := by
  constructor
  · intro h
    obtain ⟨q, hq, hpid⟩ := List.mem_map.mp h
    obtain ⟨hmem, hfollows⟩ := List.mem_filter.mp hq
    rw [← List.inj_on_of_nodup_map t.distinct hmem hp hpid]
    exact of_decide_eq_true hfollows
  · intro h
    exact List.mem_map_of_mem (List.mem_filter.mpr ⟨hp, decide_eq_true h⟩)

theorem mem_signals {out : Text} {sig : Signal} (h : sig ∈ (handleDestroyVm before after out v).1) :
    sig.number = 15 ∧ sig.pid ∈ findQemuPidsByVmid before v ∨
      sig.number = 9 ∧ sig.pid ∈ findQemuPidsByVmid after v := by
  rcases List.mem_append.mp h with h | h
  · obtain ⟨pid, hpid, rfl⟩ := List.mem_map.mp h
    exact .inl ⟨rfl, hpid⟩
  · split_ifs at h
    · cases h
    · obtain ⟨pid, hpid, rfl⟩ := List.mem_map.mp h
      exact .inr ⟨rfl, hpid⟩

/-- Signalled is what one of the two searches finds. -/
theorem Signalled.follows {out : Text} (h : Signalled before after out v p) :
    Follows program (nameOption v) (cmdline p.argv) := by
  rcases h with ⟨hp, hsig⟩ | ⟨hp, hsig⟩
  · rcases mem_signals hsig with ⟨_, hfound⟩ | ⟨hnumber, _⟩
    · exact (mem_findQemuPidsByVmid hp).mp hfound
    · cases hnumber
  · rcases mem_signals hsig with ⟨hnumber, _⟩ | ⟨_, hfound⟩
    · cases hnumber
    · exact (mem_findQemuPidsByVmid hp).mp hfound

theorem cmdline_drop (n : ℕ) : cmdline (words.drop n) <:+: cmdline words := by
  conv_rhs => rw [← List.take_append_drop n words]
  exact joined_within _ _

theorem spared_iff_follows : Spared v words ↔ ¬ Follows program (nameOption v) (cmdline words) := by
  constructor
  · intro h hfollows
    have hfound := h.unfound words (by simp [runs]) ⟨[⟨1, words⟩], by simp⟩ ⟨1, words⟩ (by simp) rfl
    exact hfound ((mem_findQemuPidsByVmid (by simp)).mpr hfollows)
  · intro h
    have hruns : ∀ argv ∈ runs words, ¬ Follows program (nameOption v) (cmdline argv) := by
      intro argv hargv hfollows
      refine h (hfollows.of_infix ?_)
      simp only [runs, List.mem_cons, List.not_mem_nil, or_false] at hargv
      rcases hargv with rfl | rfl | rfl
      · exact List.infix_refl _
      · exact cmdline_drop 1
      · exact cmdline_drop 4
    constructor
    · intro argv hargv t p hp heq hfound
      exact hruns argv hargv (heq ▸ (mem_findQemuPidsByVmid hp).mp hfound)
    · intro argv hargv before after out p heq hsignalled
      exact hruns argv hargv (heq ▸ hsignalled.follows)

/-! ### What is searched for -/

theorem vmName_eq (vmid : ℤ) : vmName vmid = "RAMRYDER-VM-".toList ++ decimal vmid := by
  delta vmName
  rfl

theorem nameOption_eq (vmid : ℤ) : nameOption vmid = "-name".toList ++ ' ' :: vmName vmid := by
  have hoption : "-name ".toList = "-name".toList ++ [' '] := by decide
  delta nameOption
  rw [hoption, List.append_assoc, List.singleton_append]

theorem notMem_vmName {c : Char} (hname : c ∉ "RAMRYDER-VM-".toList) (hdigit : c.isDigit = false)
    (hminus : c ≠ '-') (vmid : ℤ) : c ∉ vmName vmid := by
  rw [vmName_eq, List.mem_append, not_or]
  exact ⟨hname, notMem_decimal hdigit hminus vmid⟩

theorem notMem_nameOption {c : Char} (hoption : c ∉ "-name".toList) (hblank : c ≠ ' ')
    (hname : c ∉ vmName v) : c ∉ nameOption v := by
  rw [nameOption_eq, List.mem_append, List.mem_cons, not_or, not_or]
  exact ⟨hoption, hblank, hname⟩

theorem nameOption_splitAt (vmid : ℤ) : SplitAt ' ' (nameOption vmid) "-name".toList (vmName vmid) :=
  ⟨nameOption_eq vmid, by decide, notMem_vmName (by decide) (by decide) (by decide) vmid⟩

theorem vmName_head (vmid : ℤ) : (vmName vmid).head? = some 'R' := by
  rw [vmName_eq, List.head?_append]
  rfl

/-- It is in no text without an R. -/
theorem nameOption_absent {t : Text} (ht : 'R' ∉ t) : ¬ nameOption v <:+: t := by
  refine not_infix_of_mem ?_ ht
  rw [nameOption_eq]
  exact List.mem_append_right _ (List.mem_cons_of_mem _ (List.mem_of_mem_head? (vmName_head v)))

theorem not_vmName_prefix {t : Text} (ht : t.head? ≠ some 'R') : ¬ vmName v <+: t := by
  rintro ⟨rest, rfl⟩
  rw [List.head?_append, vmName_head] at ht
  exact ht rfl

theorem nameOption_of_pair : nameOption v <:+: cmdline ["-name".toList, vmName w] ↔ decimal v <+: decimal w := by
  have hpair : cmdline ["-name".toList, vmName w] = "-name".toList ++ ' ' :: vmName w := by
    rw [cmdline, joined_cons (by simp), joined_singleton]
  have hname : ¬ nameOption v <:+: vmName w :=
    not_infix_of_mem (by simp [nameOption_eq]) (nameOption_splitAt w).right_free
  rw [hpair, (nameOption_splitAt v).infix_append]
  have hoption : ¬ nameOption v <:+: "-name".toList := nameOption_absent (by decide)
  simp only [hoption, hname, List.suffix_rfl, false_or, true_and]
  rw [vmName_eq, vmName_eq, List.prefix_append_right_inj]

/-! ### The words of a command -/

/-- An option in front of a text stays a word of its own. -/
theorem shlexSplit_option {option t : Text} {ws : List Text} (hoption : ShlexPlain option)
    (hne : option ≠ []) (h : shlexSplit (option ++ ' ' :: t) = some ws) : ws.head? = some option := by
  obtain ⟨c, cs, rfl⟩ := List.exists_cons_of_ne_nil hne
  rw [shlexSplit, shlexFrom_start hoption, shlexFrom] at h
  simp only [isShlexSpace, decide_true, Bool.true_or, if_true, reduceCtorEq, false_and, if_false] at h
  obtain ⟨rest, _, rfl⟩ := Option.map_eq_some_iff.mp h
  rfl

theorem nodeArg_option (allocations : List (ℤ × ℤ)) (memIds : List Text) (range out : Text) (nid : ℤ) :
    ∃ t, nodeArg allocations memIds range nid out = "-numa".toList ++ ' ' :: t := by
  unfold nodeArg
  dsimp only
  cases nodeToMemid allocations memIds nid with
  | none => exact ⟨_, rfl⟩
  | some memId =>
    dsimp only
    split_ifs
    · exact ⟨_, rfl⟩
    · exact ⟨_, rfl⟩

theorem answerArgs_head {arg : Text} (harg : arg ∈ answerArgs job plan allocOuts nodeOuts) {ws : List Text}
    (hws : shlexSplit arg = some ws) : ∀ x ∈ ws.head?, ¬ vmName v <+: x := by
  have hplain : ShlexPlain "-object".toList ∧ ShlexPlain "-numa".toList := by
    simp [ShlexPlain, isShlexSpace]
  rcases List.mem_append.mp harg with harg | harg
  · obtain ⟨out, _, rfl⟩ := List.mem_map.mp harg
    have hhead := @shlexSplit_option _ ("memory-backend-file,share=on,".toList ++ out) ws hplain.1 (by decide) hws
    rw [hhead]
    rintro _ ⟨⟩
    exact not_vmName_prefix (by decide)
  · obtain ⟨e, _, rfl⟩ := List.mem_map.mp harg
    obtain ⟨t, ht⟩ := nodeArg_option plan.allocations
      (allocOuts.filterMap fun out => (allocMemId out).toOption) (cpusText job.smp) e.2 e.1
    rw [ht] at hws
    rw [shlexSplit_option hplain.2 (by decide) hws]
    rintro _ ⟨⟩
    exact not_vmName_prefix (by decide)

theorem filterMap_toOption {α β : Type} {f : α → Raises β} {l : List α} {bs : List β}
    (h : l.mapM f = .ok bs) : (l.filterMap fun a => (f a).toOption) = bs := by
  induction l generalizing bs with
  | nil =>
    cases h
    rfl
  | cons a l ih =>
    rw [List.mapM_cons] at h
    obtain ⟨b, hb, h⟩ := bind_eq_ok.mp h
    obtain ⟨rest, hrest, h⟩ := bind_eq_ok.mp h
    cases h
    rw [List.filterMap_cons, hb, ih hrest]
    rfl

theorem nodeInfoOut_ok {out info : Text} (h : nodeInfoOut out = .ok info) : info = out := by
  unfold nodeInfoOut at h
  split_ifs at h
  cases h
  rfl

theorem nodeInfos_ok {infos : List Text} (h : nodeOuts.mapM nodeInfoOut = .ok infos) : infos = nodeOuts := by
  induction nodeOuts generalizing infos with
  | nil =>
    cases h
    rfl
  | cons out nodeOuts ih =>
    rw [List.mapM_cons] at h
    obtain ⟨info, hinfo, h⟩ := bind_eq_ok.mp h
    obtain ⟨rest, hrest, h⟩ := bind_eq_ok.mp h
    cases h
    rw [nodeInfoOut_ok hinfo, ih hrest]

/-- The words are those of the machine, those of each answer in turn, and those of the devices. -/
theorem buildQemuCmd_words {qemuBin : Text} (h : buildQemuCmd qemuBin job w plan allocOuts nodeOuts = .ok words) :
    ∃ groups, (answerArgs job plan allocOuts nodeOuts).mapM shlexSplit = some groups ∧
      words = machineArgs qemuBin job w ++ (groups.flatten ++ deviceArgs job.cfg w) := by
  simp only [buildQemuCmd, bind_eq_ok, orRaise_eq_ok] at h
  obtain ⟨memIds, hmemIds, infos, hinfos, memWords, hmemWords, nodeWords, hnodeWords, h⟩ := h
  obtain rfl := nodeInfos_ok hinfos
  cases h
  refine ⟨memWords ++ nodeWords, ?_, by simp⟩
  have hnodes : ((plan.allNodeIds.zip infos).map fun e =>
      nodeArg plan.allocations memIds (cpusText job.smp) e.1 e.2).mapM shlexSplit = some nodeWords :=
    hnodeWords
  rw [answerArgs, List.mapM_append, filterMap_toOption hmemIds, hmemWords, hnodes]
  rfl

/-! ### Behind the program -/

/-- The arguments of the machine behind the name. -/
def machineOptions (job : CreateJob) : List Text :=
  ["-enable-kvm".toList, "-cpu".toList, "host".toList, "-smp".toList, decimal job.smp, "-m".toList,
    toMArg (job.cfg.memoryMb + job.cfg.cxlMemoryMb)]

def fileText (image : Text) : Text :=
  "file=".toList ++ image ++ ",if=none,aio=native,cache=none,format=qcow2,id=hd0".toList

theorem nameOption_of_fileText {image : Text} : nameOption v <:+: fileText image ↔ nameOption v <:+: image := by
  have hfile : "file=".toList = "file".toList ++ ['='] := by decide
  have hrest : ",if=none,aio=native,cache=none,format=qcow2,id=hd0".toList =
      ',' :: "if=none,aio=native,cache=none,format=qcow2,id=hd0".toList := by decide
  have hcomma : ',' ∉ nameOption v := notMem_nameOption (by decide) (by decide)
    (notMem_vmName (by decide) (by decide) (by decide) v)
  have heq : '=' ∉ nameOption v := notMem_nameOption (by decide) (by decide)
    (notMem_vmName (by decide) (by decide) (by decide) v)
  have hfront : ¬ nameOption v <:+: "file".toList := nameOption_absent (by decide)
  have hback : ¬ nameOption v <:+: "if=none,aio=native,cache=none,format=qcow2,id=hd0".toList :=
    nameOption_absent (by decide)
  delta fileText
  rw [hrest, infix_append_free hcomma, hfile, List.append_assoc, List.singleton_append, infix_append_free heq]
  simp only [hfront, hback, false_or, or_false]

theorem fileText_head (image : Text) : (fileText image).head? = some 'f' := by
  delta fileText
  rw [List.append_assoc, List.head?_append]
  rfl

theorem r_notMem_decimal (n : ℤ) : 'R' ∉ decimal n := notMem_decimal (by decide) (by decide) n

theorem r_notMem_toMArg (n : ℤ) : 'R' ∉ toMArg n := by
  rw [toMArg]
  split_ifs
  · simp [r_notMem_decimal]
  · simp [r_notMem_decimal]

theorem machineOptions_r : ∀ x ∈ machineOptions job, 'R' ∉ x := by
  simp only [machineOptions, List.forall_mem_cons, List.not_mem_nil, false_implies, implies_true, and_true]
  exact ⟨by decide, by decide, by decide, by decide, r_notMem_decimal _, by decide, r_notMem_toMArg _⟩

theorem deviceArgs_r {cfg : VmConfig} : ∀ x ∈ deviceArgs cfg w, x = fileText cfg.image ∨ 'R' ∉ x := by
  have hnumber : ∀ {a b : Text} {n : ℤ}, 'R' ∉ a → 'R' ∉ b → 'R' ∉ a ++ decimal n ++ b := by
    intro a b n ha hb
    rw [List.mem_append, List.mem_append, not_or, not_or]
    exact ⟨⟨ha, r_notMem_decimal n⟩, hb⟩
  simp only [deviceArgs, List.forall_mem_cons, List.not_mem_nil, false_implies, implies_true, and_true]
  refine ⟨?_, ?_, ?_, ?_, ?_, .inl rfl, ?_, .inr (hnumber (by decide) (by decide)), ?_, ?_, ?_, ?_,
    .inr (hnumber (by decide) (by decide)), ?_, .inr (hnumber (by decide) (by decide)), ?_, ?_, ?_, ?_⟩
  all_goals exact .inr (by decide)

theorem not_vmName_prefix_of_r {t : Text} (ht : 'R' ∉ t) : ¬ vmName v <+: t :=
  not_vmName_prefix fun h => ht (List.mem_of_mem_head? h)

theorem nameOption_of_machineOptions : ¬ nameOption v <:+: cmdline (machineOptions job) := by
  rw [cmdline, (nameOption_splitAt v).joined_words fun x hx => not_vmName_prefix_of_r (machineOptions_r x hx)]
  rintro ⟨x, hx, hin⟩
  exact nameOption_absent (machineOptions_r x hx) hin

theorem nameOption_of_deviceArgs {cfg : VmConfig} :
    nameOption v <:+: cmdline (deviceArgs cfg w) ↔ nameOption v <:+: cfg.image := by
  have hwords : ∀ x ∈ deviceArgs cfg w, ¬ vmName v <+: x := by
    intro x hx
    rcases deviceArgs_r x hx with rfl | hr
    · refine not_vmName_prefix ?_
      rw [fileText_head]
      decide
    · exact not_vmName_prefix_of_r hr
  rw [cmdline, (nameOption_splitAt v).joined_words hwords, ← nameOption_of_fileText]
  constructor
  · rintro ⟨x, hx, hin⟩
    rcases deviceArgs_r x hx with rfl | hr
    · exact hin
    · exact absurd hin (nameOption_absent hr)
  · intro hin
    exact ⟨fileText cfg.image, List.mem_of_getElem? (rfl : (deviceArgs cfg w)[5]? = _), hin⟩

theorem mem_of_mapM {α β : Type} {f : α → Option β} {l : List α} {bs : List β} (h : l.mapM f = some bs)
    {b : β} : b ∈ bs ↔ ∃ a ∈ l, f a = some b := by
  induction l generalizing bs with
  | nil =>
    cases h
    simp
  | cons a l ih =>
    rw [List.mapM_cons] at h
    obtain ⟨b', hb', h⟩ := Option.bind_eq_some_iff.mp h
    obtain ⟨rest, hrest, h⟩ := Option.bind_eq_some_iff.mp h
    cases h
    simp [ih hrest, hb', eq_comm]

/-- What is searched for stands behind the program if the number continues that of the VM, or an answer or
the image spells it. -/
theorem nameOption_behind {groups : List (List Text)}
    (hgroups : (answerArgs job plan allocOuts nodeOuts).mapM shlexSplit = some groups) :
    nameOption v <:+: cmdline ("-name".toList :: vmName w :: (machineOptions job ++
        (groups.flatten ++ deviceArgs job.cfg w))) ↔
      decimal v <+: decimal w ∨
        (∃ arg ∈ answerArgs job plan allocOuts nodeOuts, ∃ ws, shlexSplit arg = some ws ∧
          nameOption v <:+: cmdline ws) ∨ nameOption v <:+: job.cfg.image := by
  have hanswers : (∃ g ∈ groups, nameOption v <:+: cmdline g) ↔
      ∃ arg ∈ answerArgs job plan allocOuts nodeOuts, ∃ ws, shlexSplit arg = some ws ∧
        nameOption v <:+: cmdline ws := by
    constructor
    · rintro ⟨g, hg, hin⟩
      obtain ⟨arg, harg, hsplit⟩ := (mem_of_mapM hgroups).mp hg
      exact ⟨arg, harg, g, hsplit, hin⟩
    · rintro ⟨arg, harg, g, hsplit, hin⟩
      exact ⟨g, (mem_of_mapM hgroups).mpr ⟨arg, harg, hsplit⟩, hin⟩
  have hflatten : "-name".toList :: vmName w :: (machineOptions job ++ (groups.flatten ++ deviceArgs job.cfg w)) =
      (["-name".toList, vmName w] :: machineOptions job :: (groups ++ [deviceArgs job.cfg w])).flatten := by
    simp
  have hheads : ∀ g ∈ ["-name".toList, vmName w] :: machineOptions job :: (groups ++ [deviceArgs job.cfg w]),
      ∀ x ∈ g.head?, ¬ vmName v <+: x := by
    have hoption : ∀ option : Text, 'R' ∉ option → ∀ x ∈ some option, ¬ vmName v <+: x := by
      rintro option hr _ ⟨⟩
      exact not_vmName_prefix_of_r hr
    simp only [List.forall_mem_cons, List.forall_mem_append, List.not_mem_nil, false_implies, implies_true,
      and_true]
    refine ⟨hoption "-name".toList (by decide), hoption "-enable-kvm".toList (by decide), ?_,
      hoption "-device".toList (by decide)⟩
    intro g hg
    obtain ⟨arg, harg, hsplit⟩ := (mem_of_mapM hgroups).mp hg
    exact answerArgs_head harg hsplit
  rw [hflatten, cmdline, (nameOption_splitAt v).joined_flatten hheads, ← hanswers, ← nameOption_of_pair,
    ← @nameOption_of_deviceArgs v w]
  have hmachine := @nameOption_of_machineOptions v job
  simp only [cmdline] at hmachine ⊢
  simp [or_and_right, exists_or, hmachine]

/-! ### Up to the program -/

theorem pathJoin_word {dir path : Text} {c : Char} (hlast : dir.getLast? = some c) (hc : c ≠ '/') :
    pathJoin dir path = dir ++ '/' :: path := by
  rw [pathJoin, if_neg]
  rintro (rfl | h)
  · cases hlast
  · exact hc (Option.some.inj (hlast.symm.trans h))

/-- The path of QEMU: the directory of the project, a slash where it ends in none, and the rest. -/
theorem buildPaths_qemu (projectRoot home : Text) : ∃ slash, (slash = [] ∨ slash = ['/']) ∧
    (buildPaths projectRoot home).1 = projectRoot ++ slash ++ "qemu/build/".toList ++ program := by
  obtain ⟨slash, hslash, hfirst⟩ : ∃ slash : Text, (slash = [] ∨ slash = ['/']) ∧
      pathJoin projectRoot "qemu".toList = projectRoot ++ slash ++ "qemu".toList := by
    unfold pathJoin
    split_ifs
    · exact ⟨[], .inl rfl, by simp⟩
    · exact ⟨['/'], .inr rfl, by simp⟩
  refine ⟨slash, hslash, ?_⟩
  have hsecond : pathJoin (projectRoot ++ slash ++ "qemu".toList) "build".toList =
      projectRoot ++ slash ++ "qemu/build".toList := by
    rw [pathJoin_word (c := 'u') (by simp) (by decide)]
    simp
  have hthird : pathJoin (projectRoot ++ slash ++ "qemu/build".toList) program =
      projectRoot ++ slash ++ "qemu/build/".toList ++ program := by
    rw [pathJoin_word (c := 'd') (by simp) (by decide)]
    simp
  rw [← hthird, ← hsecond, ← hfirst]
  rfl

theorem nameOption_cons (vmid : ℤ) : ∃ option, nameOption vmid = '-' :: option := by
  have hdash : "-name".toList = '-' :: "name".toList := by decide
  rw [nameOption_eq, hdash]
  exact ⟨_, rfl⟩

theorem program_cons : program = 'q' :: "emu-system-x86_64".toList := by decide

/-- Where a directory and the program end a text, what is searched for stands behind the program. -/
theorem nameOption_behind_program {behind : Text} (h : nameOption v <:+:
    "emu/build/".toList ++ 'q' :: ("emu-system-x86".toList ++ '_' :: '6' :: '4' :: ' ' :: behind)) :
    nameOption v <:+: behind := by
  obtain ⟨option, hoption⟩ := nameOption_cons v
  have hq : 'q' ∉ nameOption v := notMem_nameOption (by decide) (by decide)
    (notMem_vmName (by decide) (by decide) (by decide) v)
  have hunderscore : '_' ∉ nameOption v := notMem_nameOption (by decide) (by decide)
    (notMem_vmName (by decide) (by decide) (by decide) v)
  rcases (infix_append_free hq).mp h with h | h
  · exact absurd h (nameOption_absent (by decide))
  rcases (infix_append_free hunderscore).mp h with h | h
  · exact absurd h (nameOption_absent (by decide))
  rw [hoption, infix_cons_of_head (by decide), infix_cons_of_head (by decide),
    infix_cons_of_head (by decide)] at h
  rwa [hoption]

/-- What is found in a command line stands between the options of `taskset` and the program's directory, or
behind the program. -/
theorem follows_command {cpuSet slash behind : Text} (hslash : slash = [] ∨ slash = ['/']) :
    Follows program (nameOption v) ("sudo taskset -c ".toList ++ (cpuSet ++ ' ' :: (projectRoot ++ slash ++
        "qemu/build/".toList ++ program)) ++ ' ' :: behind) ↔
      Follows program (nameOption v) (cpuSet ++ ' ' :: projectRoot) ∨ nameOption v <:+: behind := by
  have hq : 'q' ∉ nameOption v := notMem_nameOption (by decide) (by decide)
    (notMem_vmName (by decide) (by decide) (by decide) v)
  have hslashes : '/' ∉ nameOption v := notMem_nameOption (by decide) (by decide)
    (notMem_vmName (by decide) (by decide) (by decide) v)
  have hparts : "sudo taskset -c ".toList ++ (cpuSet ++ ' ' :: (projectRoot ++ slash ++
        "qemu/build/".toList ++ program)) ++ ' ' :: behind =
      ("sudo taskset -c ".toList ++ (cpuSet ++ ' ' :: (projectRoot ++ slash))) ++ 'q' ::
        ("emu/build/".toList ++ 'q' :: ("emu-system-x86".toList ++ '_' :: '6' :: '4' :: ' ' :: behind)) := by
    have hprogram : program = 'q' :: ("emu-system-x86".toList ++ ['_', '6', '4']) := by decide
    have hdirs : "qemu/build/".toList = 'q' :: "emu/build/".toList := by decide
    rw [hprogram, hdirs]
    simp only [List.append_assoc, List.cons_append, List.nil_append]
  constructor
  · intro h
    rw [hparts] at h
    rcases h.before_or_behind hq with h | h
    · left
      rw [program_cons] at h ⊢
      have hfront := h.of_append (by decide)
      rcases hslash with rfl | rfl
      · rwa [List.append_nil] at hfront
      · rw [← List.cons_append, ← List.append_assoc] at hfront
        rcases hfront.before_or_behind hslashes with h | h
        · exact h
        · exact absurd h (nameOption_absent (by decide))
    · exact .inr (nameOption_behind_program h)
  · rintro (h | h)
    · refine h.of_infix ⟨"sudo taskset -c ".toList, slash ++ "qemu/build/".toList ++ program ++ ' ' :: behind, ?_⟩
      simp only [List.append_assoc, List.cons_append]
    · refine ⟨"sudo taskset -c ".toList ++ (cpuSet ++ ' ' :: (projectRoot ++ slash ++ "qemu/build/".toList)),
        ' ' :: behind, by simp only [List.append_assoc, List.cons_append], h.trans (List.suffix_cons ' ' behind).isInfix⟩

/-- What the search finds of a command line. -/
theorem follows_iff (h : buildQemuCmd (buildPaths projectRoot home).1 job w plan allocOuts nodeOuts = .ok words) :
    Follows program (nameOption v) (cmdline words) ↔
      ¬ (¬ decimal v <+: decimal w ∧ Unspelled v projectRoot job (answerArgs job plan allocOuts nodeOuts)) := by
  obtain ⟨groups, hgroups, hwords⟩ := buildQemuCmd_words h
  obtain ⟨slash, hslash, hqemu⟩ := buildPaths_qemu projectRoot home
  have hmachine : machineArgs (buildPaths projectRoot home).1 job w = ["sudo".toList, "taskset".toList,
      "-c".toList, job.cfg.cpuSet, (buildPaths projectRoot home).1] ++
        ("-name".toList :: vmName w :: machineOptions job) := rfl
  have hline : cmdline words = "sudo taskset -c ".toList ++ (job.cfg.cpuSet ++ ' ' :: (projectRoot ++ slash ++
      "qemu/build/".toList ++ program)) ++ ' ' :: cmdline ("-name".toList :: vmName w :: (machineOptions job ++
        (groups.flatten ++ deviceArgs job.cfg w))) := by
    have hfront : "sudo taskset -c ".toList =
        "sudo".toList ++ ' ' :: ("taskset".toList ++ ' ' :: ("-c".toList ++ [' '])) := by decide
    rw [hwords, hmachine, List.append_assoc, cmdline, joined_append (by simp) (by simp), ← hqemu, hfront]
    generalize "sudo".toList = tsudo, "taskset".toList = ttaskset, "-c".toList = tcpus
    simp only [joined_cons, ne_eq, reduceCtorEq, not_false_eq_true, joined_singleton, List.append_assoc,
      List.cons_append, List.nil_append, cmdline]
  rw [hline, follows_command hslash, nameOption_behind hgroups]
  constructor
  · rintro (hpaths | hprefix | ⟨arg, harg, ws, hsplit, hin⟩ | himage) ⟨hnumber, hunspelled⟩
    · exact hunspelled.paths hpaths
    · exact hnumber hprefix
    · exact hunspelled.answers arg harg ws hsplit hin
    · exact hunspelled.image himage
  · intro hnot
    by_contra hnone
    simp only [not_or, not_exists, not_and] at hnone
    exact hnot ⟨hnone.2.1, hnone.1, hnone.2.2.2, hnone.2.2.1⟩

/-- A command of another VM is left alone just when its number does not begin with the searched one, and
no text handed over spells what is searched for. -/
theorem spared_iff (h : buildQemuCmd (buildPaths projectRoot home).1 job w plan allocOuts nodeOuts = .ok words) :
    Spared v words ↔
      ¬ decimal v <+: decimal w ∧ Unspelled v projectRoot job (answerArgs job plan allocOuts nodeOuts) := by
  rw [spared_iff_follows, follows_iff h, not_not]

/-- The command of a VM with 4 MB on the one node. -/
def oneNodeCmd (vmid : ℤ) : Raises (List Text) :=
  buildQemuCmd (buildPaths "/opt/ramryder".toList "/root".toList).1
    ⟨⟨4, 1, 0, 0, "0".toList, "img".toList, 2222, false⟩, 1⟩ vmid ⟨[0], [(0, 4)]⟩
    ["id=mem0,mem-path=/dev/dax0.0,size=4M,align=2M,offset=0M".toList] ["nodeid=0,tier-id=0,dax-id=0".toList]

theorem oneNodeCmd_ok (hbuilt : (oneNodeCmd w).toOption.isSome = true) : ∃ words, oneNodeCmd w = .ok words := by
  obtain ⟨words, hwords⟩ := Option.isSome_iff_exists.mp hbuilt
  exact ⟨words, ok_of_toOption hwords⟩

theorem spared_iff_oneNode : ∃ words, oneNodeCmd 2 = .ok words ∧ (Spared 1 words ↔
    ¬ decimal 1 <+: decimal 2 ∧ Unspelled 1 "/opt/ramryder".toList
      ⟨⟨4, 1, 0, 0, "0".toList, "img".toList, 2222, false⟩, 1⟩
      (answerArgs ⟨⟨4, 1, 0, 0, "0".toList, "img".toList, 2222, false⟩, 1⟩ ⟨[0], [(0, 4)]⟩
        ["id=mem0,mem-path=/dev/dax0.0,size=4M,align=2M,offset=0M".toList]
        ["nodeid=0,tier-id=0,dax-id=0".toList])) := by
  obtain ⟨words, hwords⟩ := @oneNodeCmd_ok 2 (by decide +kernel)
  exact ⟨words, hwords, spared_iff hwords⟩

/-- What is done to VM 1 is done to the processes of VM 10. -/
theorem spared_fails_tenth : ∃ words, oneNodeCmd 10 = .ok words ∧ (1 : ℤ) ≠ 10 ∧ ¬ Spared 1 words := by
  obtain ⟨words, hwords⟩ := @oneNodeCmd_ok 10 (by decide +kernel)
  refine ⟨words, hwords, by decide, ?_⟩
  rw [spared_iff_follows, follows_iff hwords, not_not]
  exact fun h => h.1 (by decide)

/-! ### The answers of this server -/

/-- Words that stand for themselves have no blank. -/
theorem not_nameOption_of_plain {option value : Text} (hoption : ShlexPlain option ∧ option.head? ≠ some 'R')
    (hvalue : ShlexPlain value ∧ value.head? ≠ some 'R') : ¬ nameOption v <:+: cmdline [option, value] := by
  have hplain : ∀ x ∈ [option, value], ShlexPlain x ∧ x.head? ≠ some 'R' := by
    simp only [List.forall_mem_cons, List.not_mem_nil, false_implies, implies_true, and_true]
    exact ⟨hoption, hvalue⟩
  rw [cmdline, (nameOption_splitAt v).joined_words fun x hx => not_vmName_prefix (hplain x hx).2]
  rintro ⟨x, hx, hin⟩
  have hblank : ' ' ∈ nameOption v := by simp [nameOption_eq]
  exact absurd ((hplain x hx).1 ' ' (hin.subset hblank)).1 (by decide)

variable {devs : List MemoryDev} {infos : ℤ → MemoryNodeInfo}

theorem answers_unspelled (hdevs : ∀ dev ∈ devs, PlainDev dev)
    (hnodes : ∀ nid ∈ plan.allNodeIds, InInt nid ∧ InInt (infos nid).tierId ∧ InInt (infos nid).daxId) :
    ∀ arg ∈ answerArgs job plan (devs.map fun dev => clientText (bootArgument dev))
        (plan.allNodeIds.map fun nid => clientText (nodeAnswer nid (infos nid))),
      ∀ ws, shlexSplit arg = some ws → ¬ nameOption v <:+: cmdline ws := by
  have hids : (devs.map fun dev => clientText (bootArgument dev)).filterMap (fun out =>
      (allocMemId out).toOption) = devs.map memName :=
    filterMap_toOption (mapM_map_eq_pure fun dev hdev =>
      allocMemId_response (vmMemReqOf dev) (hdevs dev hdev).idx)
  have hoption : ∀ option ∈ ["-object", "-numa"], ShlexPlain option.toList ∧ option.toList.head? ≠ some 'R' := by
    simp [ShlexPlain, isShlexSpace]
  intro arg harg ws hws
  rw [answerArgs, hids, ← List.map_prod_left_eq_zip, List.map_map, List.map_map] at harg
  rcases List.mem_append.mp harg with harg | harg
  · obtain ⟨dev, hdev, rfl⟩ := List.mem_map.mp harg
    obtain rfl := Option.some.inj ((memArg_split (hdevs dev hdev)).symm.trans hws)
    have hhead : (objectText dev).head? = some 'm' := rfl
    refine not_nameOption_of_plain (hoption "-object" (by simp)) ⟨objectText_plain (hdevs dev hdev), ?_⟩
    rw [hhead]
    decide
  · obtain ⟨nid, hnid, rfl⟩ := List.mem_map.mp harg
    obtain ⟨hid, htier, hdax⟩ := hnodes nid hnid
    have hsplit := @nodeArg_split _ plan.allocations _ _ _ (memIds_plain devs)
      (plainText_cpusText job.smp) hid htier hdax
    obtain rfl := Option.some.inj (hsplit.symm.trans hws)
    have hhead : (numaText plan.allocations (devs.map memName) (cpusText job.smp) nid (infos nid)).head? =
      some 'n' := rfl
    refine not_nameOption_of_plain (hoption "-numa" (by simp))
      ⟨numaText_plain (memIds_plain devs) (plainText_cpusText job.smp), ?_⟩
    rw [hhead]
    decide

/-- A core set that is accepted has no letter, so no program is found in it. -/
theorem follows_cpuSet {cpuSet : Text} {cpus : List ℤ} (h : parseCpuSet cpuSet = some cpus) :
    Follows program (nameOption v) (cpuSet ++ ' ' :: projectRoot) ↔
      Follows program (nameOption v) projectRoot := by
  constructor
  · intro hfollows
    have hq : 'q' ∉ cpuSet ++ [' '] := by
      rw [List.mem_append, not_or]
      refine ⟨fun hmem => ?_, by decide⟩
      rcases parseCpuSet_chars h 'q' hmem with hcomma | hchar
      · cases hcomma
      · exact absurd hchar (by decide)
    have hsplit : cpuSet ++ ' ' :: projectRoot = (cpuSet ++ [' ']) ++ projectRoot := by simp
    rw [hsplit] at hfollows
    rw [program_cons] at hfollows ⊢
    exact hfollows.of_append hq
  · intro hfollows
    exact hfollows.of_infix ((List.suffix_cons ' ' projectRoot).trans (List.suffix_append cpuSet _)).isInfix

variable {pool : Pool} {s s₁ s₂ : Server} {args : CreateArgs} {runWorld : RunWorld} {answers : List Text × List Text}
  {buffers : LineBuffers} {config : Option Text} {stack : Text}

/-- In every run whose requests are answered, and where the paths are plain, only the directory of
the project and the image can spell what is searched for. -/
theorem spared_in_run (hload : memoryPoolInit buffers config = .ok (some pool))
    (hreach : Reaches serverStep (initialServer pool stack) s) (hbar : BarFree pool)
    (hplain : PlainPaths pool plan) (hcreated : untilCreated runWorld args s = .ok (.ok (job, plan, w), s₁))
    (hbuild : buildRequests runWorld w plan s₁ = .ok (.ok answers, s₂)) (projectRoot home : Text) (port v : ℤ) :
    ∃ words, buildQemuCmd (buildPaths projectRoot home).1 (withPort job port) w plan answers.1 answers.2 =
        .ok words ∧
      (Spared v words ↔ ¬ decimal v <+: decimal w ∧ ¬ Follows program (nameOption v) projectRoot ∧
        ¬ nameOption v <:+: job.cfg.image) := by
  have hm := kept_reachable (memoryPoolInit_initial hload) (server_refines (memoryPoolInit_initial hload) hreach)
  obtain ⟨i, h⟩ := buildRequests_answered hload hreach hbar hplain hcreated hbuild
  obtain ⟨words, hwords, _⟩ := h.command (buildPaths projectRoot home).1 port
  obtain ⟨cpus, hcpus⟩ := (createJob_ok (untilCreated_ok hm hcreated).checked).cpuSet
  have hunspelled := @answers_unspelled v (withPort job port) plan _ _ h.made.plain h.nodes
  rw [← h.allocOuts, ← h.nodeOuts] at hunspelled
  refine ⟨words, hwords, ?_⟩
  rw [spared_iff_follows, follows_iff hwords, not_not]
  refine and_congr_right fun _ => ⟨fun hu => ⟨?_, hu.image⟩, fun hu => ⟨?_, hu.2, hunspelled⟩⟩
  · exact fun hfollows => hu.paths ((follows_cpuSet hcpus).mpr hfollows)
  · exact fun hfollows => hu.1 ((follows_cpuSet hcpus).mp hfollows)

end Ramryder.QemuSearch
