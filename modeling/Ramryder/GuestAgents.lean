import Ramryder.ByteBuffer

/-! Guest agents: one long-lived connection per running VM, in a table indexed by
the VM id itself. -/
namespace Ramryder.GuestAgents
open ByteBuffer CMachine CText

def maxNumVm : ℕ := 16
def maxSocketPath : ℕ := 256
def bufferSize : ℕ := 1024

structure GuestAgent where
  socketPath : Text
  agentFd : ℤ
  initialized : Bool
  deriving DecidableEq, Repr

structure GuestAgentManager where
  guestAgents : Fin maxNumVm → GuestAgent
  count : ℤ

/-- The index expression `guest_agents[vm_id]`. -/
def agentIndex (vmId : ℤ) : Outcome (Fin maxNumVm) :=
  if h : 0 ≤ vmId ∧ vmId < maxNumVm then .ok ⟨vmId.toNat, by omega⟩
  else .error (.guestAgentIndex vmId)

def GuestAgentManager.setAgent (agents : GuestAgentManager) (a : Fin maxNumVm)
    (agent : GuestAgent) : GuestAgentManager :=
  { agents with guestAgents := Function.update agents.guestAgents a agent }

/-- `connect` is the result of connecting to a socket path, negative where it fails. -/
def guestAgentInit (connect : Text → ℤ) (agents : GuestAgentManager) (vmId : ℤ) :
    Outcome (ℤ × GuestAgentManager) := do
  let a ← agentIndex vmId
  let agent := agents.guestAgents a
  if agent.initialized then .ok (0, agents)
  else if maxNumVm ≤ agents.count then .ok (-1, agents)
  else
    let path := snprintf maxSocketPath "/var/run/qga-sock-%d" [.int vmId]
    let agentFd := connect path
    if agentFd < 0 then .ok (-1, agents.setAgent a { agent with socketPath := path })
    else .ok (0, { agents.setAgent a ⟨path, agentFd, true⟩ with count := agents.count + 1 })

def guestAgentCleanup (agents : GuestAgentManager) (vmId : ℤ) : Outcome GuestAgentManager := do
  let a ← agentIndex vmId
  let agent := agents.guestAgents a
  if agent.initialized then
    .ok { agents.setAgent a { agent with initialized := false } with count := agents.count - 1 }
  else .ok agents

/-- `reply` is what the agent behind a descriptor answers, and `heap` the block from `malloc` that it is
received into: nothing clears the block or terminates the reply. `none` stands for a NULL result. -/
def guestAgentGetMeminfo (reply : ℤ → Text) (heap : Buffer bufferSize) (agents : GuestAgentManager)
    (vmId : ℤ) : Outcome (Option (Buffer bufferSize)) := do
  let a ← agentIndex vmId
  let agent := agents.guestAgents a
  if agent.initialized then (write heap ((reply agent.agentFd).take bufferSize)).map some else .ok none

theorem agentIndex_eq_ok {vmId : ℤ} {a : Fin maxNumVm} (h : agentIndex vmId = .ok a) :
    vmId = a.val := by
  unfold agentIndex at h
  split_ifs at h with hr
  cases h
  simp [hr.1]

theorem agentIndex_eq_error {vmId : ℤ} {e : Fault} (h : agentIndex vmId = .error e) :
    e = .guestAgentIndex vmId := by
  unfold agentIndex at h
  split_ifs at h
  exact (Except.error.inj h).symm

theorem agentIndex_natCast (a : Fin maxNumVm) : agentIndex (a.val : ℤ) = .ok a := by
  have : (0 : ℤ) ≤ a.val ∧ (a.val : ℤ) < maxNumVm := ⟨by omega, by exact_mod_cast a.isLt⟩
  simp [agentIndex, this]

/-- The bytes of the block that a reply is received into. -/
def replyBytes (reply : Text) (heap : Buffer bufferSize) : Text :=
  reply.take bufferSize ++ heap.bytes.drop (reply.take bufferSize).length

section

variable {vmId : ℤ} {a : Fin maxNumVm} {agents : GuestAgentManager}

theorem guestAgentGetMeminfo_open (h : agentIndex vmId = .ok a)
    (hopen : (agents.guestAgents a).initialized = true) (reply : ℤ → Text) (heap : Buffer bufferSize) :
    ∃ block, guestAgentGetMeminfo reply heap agents vmId = .ok (some block) ∧
      block.bytes = replyBytes (reply (agents.guestAgents a).agentFd) heap := by
  obtain ⟨block, hwrite, hbytes⟩ :=
    write_fits (List.length_take_le bufferSize (reply (agents.guestAgents a).agentFd)) heap
  refine ⟨block, ?_, hbytes⟩
  rw [guestAgentGetMeminfo, h, ok_bind]
  dsimp only
  rw [if_pos hopen, hwrite]
  rfl

theorem guestAgentGetMeminfo_total (h : agentIndex vmId = .ok a) (reply : ℤ → Text)
    (heap : Buffer bufferSize) (agents : GuestAgentManager) :
    ∃ r, guestAgentGetMeminfo reply heap agents vmId = .ok r := by
  by_cases hopen : (agents.guestAgents a).initialized = true
  · obtain ⟨block, hblock, _⟩ := guestAgentGetMeminfo_open h hopen reply heap
    exact ⟨_, hblock⟩
  · rw [guestAgentGetMeminfo, h, ok_bind]
    dsimp only
    rw [if_neg hopen]
    exact ⟨_, rfl⟩

end

@[simp] theorem setAgent_count (agents : GuestAgentManager) (a : Fin maxNumVm) (agent : GuestAgent) :
    (agents.setAgent a agent).count = agents.count := rfl

theorem setAgent_guestAgents (agents : GuestAgentManager) (a b : Fin maxNumVm)
    (agent : GuestAgent) :
    (agents.setAgent a agent).guestAgents b = if b = a then agent else agents.guestAgents b := by
  simp [GuestAgentManager.setAgent, Function.update_apply]

end Ramryder.GuestAgents
