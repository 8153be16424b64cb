import Ramryder.ResourceManagerSpec

/-! What a response may depend on. The argument buffer of the server loop is never
cleared, so a command sent without its arguments sees those of an earlier request; and neither is
the block that a guest's reply is received into, so that a get-mem-info sends on what was in it. -/
namespace Ramryder.RequestHistory
open ByteBuffer CInt CMachine CText GuestAgents MemoryPool MemoryPoolSpec Ownership PoolConfig ResourceManager
  ResourceManagerSpec Runs VmManager VmManagerSpec

variable {env : ServerEnv} {m : Manager} {s s₁ s₂ : Server} {request cmd args : Text} {e : Fault}

/-- What a client can tell: the response, and the manager the request leaves. -/
def outcome (env : ServerEnv) (s : Server) (request : Text) : Outcome (Text × Manager) :=
  (rpcServe env s request).map fun r => (r.1, r.2.mngr)

/-- Two histories of one server that lead to the same manager, and leave whatever they leave in the
blocks that `malloc` gives out again, are not told apart by the request, and the request is answered
from its own bytes. -/
def HistoryFree (request : Text) : Prop :=
  ∀ pool stack, InitialPool pool → ∀ (env : ServerEnv) heap₁ heap₂ s₁ s₂,
    Reaches serverStep (initialServer pool stack) s₁ →
    Reaches serverStep (initialServer pool stack) s₂ → s₁.mngr = s₂.mngr →
      outcome { env with heap := heap₁ } s₁ request = outcome { env with heap := heap₂ } s₂ request ∧
        outcome { env with heap := heap₁ } s₁ request ≠ .error .bufferOverread

/-- The commands whose handlers take arguments. -/
def Command.takesArgs : Command → Bool
  | .getMemPool | .getVms | .getNumNodes => false
  | _ => true

def takesArgs (cmd : Text) : Bool := ((commandOf cmd).map Command.takesArgs).getD false

/-- A get-mem-info with these arguments asks a guest agent, if that agent is open. -/
def asksGuest (args : Text) : Bool :=
  match sscanf "vid=%d" args with
  | [.int vid] => decide (0 ≤ vid ∧ vid < (maxNumVm : ℤ))
  | _ => false

theorem asksGuest_eq_true (h : asksGuest args = true) :
    ∃ a : Fin maxNumVm, sscanf "vid=%d" args = [.int a] := by
  unfold asksGuest at h
  split at h
  · rename_i vid hscan
    obtain ⟨hlow, hhigh⟩ := of_decide_eq_true h
    refine ⟨⟨vid.toNat, by omega⟩, ?_⟩
    simp [hscan, hlow]
  · cases h

/-- The part of the receive buffer the server reads. -/
def received (request : Text) : Text := cString (request.take bufferSize)

/-- The request ends inside the buffer, its command has arguments where it needs them, and no guest
agent is asked. -/
structure SelfContained (request : Text) : Prop where
  fits : (received request).length < bufferSize
  complete : ∀ cmd, scanRequest (received request) = (some cmd, none) → takesArgs cmd = false
  unasked : ∀ cmd args, scanRequest (received request) = (some cmd, some args) →
    commandOf cmd = some .getMemInfo → asksGuest args = false

theorem received_le (request : Text) : (received request).length ≤ bufferSize := by
  have hcut : (received request).length ≤ (request.take bufferSize).length :=
    (List.takeWhile_sublist _).length_le
  exact hcut.trans (List.length_take_le _ _)

theorem rpcHandle_noArgs {command : Command} (h : Command.takesArgs command = false) (env : ServerEnv)
    (m : Manager) (args args' : Text) : rpcHandle env m args command = rpcHandle env m args' command := by
  cases command with
  | getMemPool => rfl
  | getVms => rfl
  | getNumNodes => rfl
  | _ => cases h

theorem respond_noArgs (h : takesArgs cmd = false) (env : ServerEnv) (m : Manager)
    (args args' : Text) : respond env m cmd args = respond env m cmd args' := by
  unfold respond
  cases hcmd : commandOf cmd with
  | none => rfl
  | some command =>
    have htakes : Command.takesArgs command = false := by simpa [takesArgs, hcmd] using h
    simp only [rpcHandle_noArgs htakes env m args args']

/-- A request that fits the buffer: the command it scans, with its own or the old arguments. -/
theorem outcome_fits (h : (received request).length < bufferSize) (env : ServerEnv) (s : Server) :
    outcome env s request =
      match scanRequest (received request) with
      | (none, _) => .ok (invalidCommand, s.mngr)
      | (some cmd, newArgs) => respond env s.mngr cmd (newArgs.getD s.args) := by
  unfold outcome rpcServe
  dsimp only
  rw [← received, if_neg h.ne]
  rcases scanRequest (received request) with ⟨_ | cmd, newArgs⟩
  · rfl
  · dsimp only
    cases respond env s.mngr cmd (newArgs.getD s.args) with
    | error e => rfl
    | ok r => rfl

theorem outcome_overread (h : ¬ (received request).length < bufferSize) (env : ServerEnv)
    (s : Server) : outcome env s request = .error .bufferOverread := by
  have hfull : (received request).length = bufferSize :=
    le_antisymm (received_le request) (not_lt.mp h)
  unfold outcome rpcServe
  dsimp only
  rw [← received, if_pos hfull]
  rfl

/-! ### A self-contained request -/

theorem guestAgentGetMeminfo_unasked {vid : ℤ} (h : ¬ (0 ≤ vid ∧ vid < (maxNumVm : ℤ)))
    (reply : ℤ → Text) (heap : Buffer bufferSize) (agents : GuestAgentManager) :
    guestAgentGetMeminfo reply heap agents vid = .error (.guestAgentIndex vid) := by
  rw [guestAgentGetMeminfo, agentIndex, dif_neg h]
  rfl

/-- Only where a guest is asked do its reply and the block for it come in. -/
theorem rpcHandle_unasked {command : Command} (h : command = .getMemInfo → asksGuest args = false)
    (env : ServerEnv) (m : Manager) (guest : ℤ → Text) (heap : Buffer bufferSize) :
    rpcHandle { env with guest := guest, heap := heap } m args command = rpcHandle env m args command := by
  cases command with
  | getMemInfo =>
    have hunasked := h rfl
    by_cases hscans : ∃ vid, sscanf "vid=%d" args = [.int vid]
    · obtain ⟨vid, hscan⟩ := hscans
      rw [asksGuest, hscan] at hunasked
      simp only [rpcHandle, rpcHandleGetMemInfo, hscan,
        guestAgentGetMeminfo_unasked (of_decide_eq_false hunasked)]
    · simp only [rpcHandle, rpcHandleGetMemInfo]
      split
      · exact absurd ⟨_, ‹_›⟩ hscans
      · rfl
  | _ => rfl

theorem respond_unasked (h : commandOf cmd = some .getMemInfo → asksGuest args = false)
    (env : ServerEnv) (m : Manager) (guest : ℤ → Text) (heap : Buffer bufferSize) :
    respond { env with guest := guest, heap := heap } m cmd args = respond env m cmd args := by
  unfold respond
  cases hcmd : commandOf cmd with
  | none => rfl
  | some command =>
    have hcommand : command = .getMemInfo → asksGuest args = false := fun hget => h (hcmd.trans (by rw [hget]))
    simp only [rpcHandle_unasked hcommand env m guest heap]

theorem outcome_selfContained (h : SelfContained request) (env : ServerEnv) (heap : Buffer bufferSize)
    (hm : s₁.mngr = s₂.mngr) :
    outcome { env with heap := heap } s₁ request = outcome env s₂ request := by
  rw [outcome_fits h.fits, outcome_fits h.fits, hm]
  rcases hscan : scanRequest (received request) with ⟨_ | cmd, _ | args⟩
  · rfl
  · rfl
  · have htakes := h.complete cmd hscan
    have hother : commandOf cmd = some .getMemInfo → asksGuest s₁.args = false := fun hget => by
      simp [takesArgs, hget, Command.takesArgs] at htakes
    exact (respond_unasked hother env _ env.guest heap).trans (respond_noArgs htakes _ _ _ _)
  · exact respond_unasked (h.unasked cmd args hscan) env _ env.guest heap

/-- What the handlers can fault with that ask no guest. -/
def InBuffer (e : Fault) : Prop := e ≠ .bufferOverread

theorem inBuffer_callFaults : CallFaults InBuffer where
  bugOn _ := by simp [InBuffer]
  divisionByZero := by simp [InBuffer]
  intOverflow := by simp [InBuffer]
  guestAgentIndex _ := by simp [InBuffer]
  perfEventFds := by simp [InBuffer]

theorem inBuffer_segmentIndex (idx : ℤ) : InBuffer (.segmentIndex idx) := by simp [InBuffer]

theorem inBuffer_bufferOverflow : InBuffer .bufferOverflow := by simp [InBuffer]

theorem rpcHandleGetMemInfo_inBuffer (hunasked : asksGuest args = false)
    (h : rpcHandleGetMemInfo env m args = .error e) : InBuffer e := by
  unfold rpcHandleGetMemInfo at h
  split at h
  · rename_i vid hscan
    simp only [asksGuest, hscan] at hunasked
    rw [guestAgentGetMeminfo_unasked (of_decide_eq_false hunasked)] at h
    cases h
    exact inBuffer_callFaults.guestAgentIndex _
  · cases h

theorem rpcHandleAllocMem_inBuffer (h : rpcHandleAllocMem m args = .error e) : InBuffer e := by
  unfold rpcHandleAllocMem at h
  split at h
  · split at h
    · cases h
    · rcases bind_eq_error.mp h with h | ⟨⟨req, m₁⟩, _, h⟩
      · exact vmMngrInstanceAllocMem_fault inBuffer_callFaults.toVmFaults
          (fun _ => inBuffer_segmentIndex) h
      · cases req with
        | none => cases h
        | some req => cases h
  · cases h

theorem rpcHandleFreeMem_total (ho : Owns m) (args : Text) :
    ∃ r, rpcHandleFreeMem m args = .ok r := by
  unfold rpcHandleFreeMem
  split
  · rename_i vid memid _
    split
    · exact ⟨_, rfl⟩
    · obtain ⟨⟨ret, m₁⟩, hfree⟩ := ho.freeMem_total vid memid
      rw [hfree, ok_bind]
      dsimp only
      split
      · exact ⟨_, rfl⟩
      · exact ⟨_, rfl⟩
  · exact ⟨_, rfl⟩

theorem rpcHandleCreateVm_inBuffer (h : rpcHandleCreateVm m args = .error e) : InBuffer e := by
  unfold rpcHandleCreateVm at h
  split at h
  · split at h
    · cases h
    split at h
    · cases h
    · rcases bind_eq_error.mp h with h | ⟨⟨ret, m₁⟩, _, h⟩
      · exact vmMngrInstanceCreate_fault inBuffer_callFaults.toVmFaults h
      · dsimp only at h
        split_ifs at h
  · cases h

theorem rpcHandleVm_inBuffer {call : ℤ → Outcome (ℤ × Manager)} {success failed : String}
    (hcall : ∀ vid e, call vid = .error e → InBuffer e)
    (h : rpcHandleVm call success failed m args = .error e) : InBuffer e := by
  unfold rpcHandleVm at h
  split at h
  · split at h
    · cases h
    · rcases bind_eq_error.mp h with h | ⟨⟨ret, m₁⟩, _, h⟩
      · exact hcall _ _ h
      · dsimp only at h
        split_ifs at h
  · cases h

theorem rpcHandle_inBuffer (ho : Owns m) {command : Command}
    (hunasked : command = .getMemInfo → asksGuest args = false)
    (h : rpcHandle env m args command = .error e) : InBuffer e := by
  cases command with
  | getMemInfo => exact rpcHandleGetMemInfo_inBuffer (hunasked rfl) (map_eq_error.mp h)
  | getMemPool =>
    obtain ⟨t, ht⟩ := @memoryPoolGetUsage_total m.pool bufferSize (by decide)
    rw [rpcHandle, rpcHandleGetMemPool, ht] at h
    cases h
  | getVms =>
    rw [vmMngrDumpState_fault (map_eq_error.mp h)]
    exact inBuffer_bufferOverflow
  | getNumNodes => cases h
  | getNodeInfo => cases h
  | allocMem => exact rpcHandleAllocMem_inBuffer (map_eq_error.mp h)
  | freeMem =>
    obtain ⟨r, hr⟩ := rpcHandleFreeMem_total ho args
    rw [rpcHandle, hr] at h
    cases h
  | attachMem => cases h
  | detachMem => cases h
  | createVm => exact rpcHandleCreateVm_inBuffer (map_eq_error.mp h)
  | destroyVm =>
    exact rpcHandleVm_inBuffer
      (fun _ _ => vmMngrInstanceDestroy_fault fun _ => inBuffer_segmentIndex) (map_eq_error.mp h)
  | startVm =>
    exact rpcHandleVm_inBuffer (fun _ _ => vmMngrInstanceStart_fault inBuffer_callFaults)
      (map_eq_error.mp h)
  | stopVm =>
    exact rpcHandleVm_inBuffer (fun _ _ => vmMngrInstanceStop_fault inBuffer_callFaults)
      (map_eq_error.mp h)

theorem respond_inBuffer (ho : Owns m) (hunasked : commandOf cmd = some .getMemInfo → asksGuest args = false)
    (h : respond env m cmd args = .error e) : InBuffer e := by
  unfold respond at h
  split at h
  · cases h
  · rename_i command hcmd
    rcases bind_eq_error.mp h with h | ⟨r, _, h⟩
    · exact rpcHandle_inBuffer ho (fun hget => hunasked (hcmd.trans (by rw [hget]))) h
    · cases h

theorem outcome_inBuffer (hself : SelfContained request) (ho : Owns s.mngr) (env : ServerEnv) :
    outcome env s request ≠ .error .bufferOverread := by
  intro h
  rw [outcome_fits hself.fits] at h
  rcases hscan : scanRequest (received request) with ⟨_ | cmd, _ | args⟩
  · rw [hscan] at h
    cases h
  · rw [hscan] at h
    cases h
  · rw [hscan] at h
    refine respond_inBuffer ho (fun hget => ?_) h rfl
    have htakes := hself.complete cmd hscan
    simp [takesArgs, hget, Command.takesArgs] at htakes
  · rw [hscan] at h
    exact respond_inBuffer ho (hself.unasked cmd args hscan) h rfl

/-! ### A command without its arguments -/

/-- An unknown command does nothing but fill the buffers. -/
def fill (args : Text) : Text := "x ".toList ++ args

/-- Arguments an earlier request can leave in the buffer. -/
def leftover : Command → Text
  | .getNodeInfo => "nid=0".toList
  | .allocMem => "nid=0 vid=0 size=1".toList
  | .freeMem => "vid=0 memid=0".toList
  | .attachMem => "memid=0 vid=0 nid=0".toList
  | .detachMem => "memid=0 vid=0".toList
  | .createVm => "vid=0 coreset=[0]".toList
  | _ => "vid=0".toList

/-- Arguments no command accepts. -/
def noise : Text := "foo".toList

theorem leftover_seen {command : Command} (h : Command.takesArgs command = true)
    (hcmd : commandOf cmd = some command) :
    (respond silentEnv (initialManager smallPool) cmd (leftover command)).map Prod.fst ≠
      (respond silentEnv (initialManager smallPool) cmd noise).map Prod.fst := by
  simp only [respond, hcmd]
  cases command with
  | getMemPool => cases h
  | getVms => cases h
  | getNumNodes => cases h
  | _ => decide

theorem fill_reaches {args : Text} (hscan : scanRequest (received (fill args)) =
    (some "x".toList, some args)) (hfits : (received (fill args)).length < bufferSize) :
    Reaches serverStep (initialServer smallPool []) ⟨initialManager smallPool, args⟩ := by
  refine ⟨[(silentEnv, fill args)], ?_⟩
  have hcmd : commandOf "x".toList = none := by decide
  rw [run_cons_ok [] (t := ⟨initialManager smallPool, args⟩), run_nil]
  rw [serverStep, rpcServe]
  dsimp only
  rw [← received, if_neg hfits.ne, hscan]
  simp only [respond, hcmd, ok_bind, Option.getD_some]
  rfl

theorem leftover_reaches (command : Command) :
    Reaches serverStep (initialServer smallPool []) ⟨initialManager smallPool, leftover command⟩ := by
  cases command with
  | _ => exact fill_reaches (by rfl) (by decide)

theorem noise_reaches :
    Reaches serverStep (initialServer smallPool []) ⟨initialManager smallPool, noise⟩ :=
  fill_reaches (by rfl) (by decide)

/-! ### A guest's reply in a used block -/

/-- A VM with this id is created and started. -/
def startRequests (a : Fin maxNumVm) : List (ServerEnv × Text) :=
  [(connectingEnv, "create-vm vid=".toList ++ (decimal a ++ " coreset=[0]".toList)),
    (connectingEnv, "start-vm vid=".toList ++ decimal a)]

theorem agent_reaches (a : Fin maxNumVm) : ∃ s, Reaches serverStep (initialServer smallPool []) s ∧
    (s.mngr.agents.guestAgents a).initialized = true := by
  have heval : ∀ a, (run serverStep (initialServer smallPool []) (startRequests a)).map
      (fun s => (s.mngr.agents.guestAgents a).initialized) = .ok true := by
    decide +kernel
  obtain ⟨s, hrun, hopen⟩ := map_eq_ok.mp (heval a)
  exact ⟨s, ⟨_, hrun⟩, hopen⟩

/-- A block that an earlier response has filled. -/
def usedBlock : Buffer bufferSize := ⟨List.replicate bufferSize 'x', List.length_replicate⟩

/-- What an agent that answers nothing leaves in the block is read past its end. -/
theorem getMemInfo_overread {a : Fin maxNumVm} (hopen : (m.agents.guestAgents a).initialized = true)
    (hargs : sscanf "vid=%d" args = [.int a]) :
    rpcHandleGetMemInfo { silentEnv with heap := usedBlock } m args = .error .bufferOverread := by
  have hwrite : write usedBlock ((silentEnv.guest (m.agents.guestAgents a).agentFd).take bufferSize) =
      .ok usedBlock := rfl
  have hread : asString usedBlock = .error .bufferOverread := by
    rw [asString, if_neg]
    exact fun hmem => absurd (List.eq_of_mem_replicate hmem) (by decide)
  rw [rpcHandleGetMemInfo, hargs]
  simp only [guestAgentGetMeminfo, agentIndex_natCast, ok_bind, hopen, if_true, hwrite, Except.map, hread]

end Ramryder.RequestHistory
