import Ramryder.RequestHistory

/-! Which call of the VM manager a request makes. -/
namespace Ramryder.RequestCalls
open CMachine CText RequestHistory ResourceManager VmManager

variable {m m' : Manager} {s s' : Server} {env : ServerEnv} {request args response : Text}

/-! ### What the server reads -/

def commandRead (request : Text) : Option Command := (scanRequest (received request)).1.bind commandOf

/-- The arguments in the buffer once the request is read. -/
def argsRead (s : Server) (request : Text) : Text := (scanRequest (received request)).2.getD s.args

theorem scanRequest_none {buffer : Text} {newArgs : Option Text} (h : scanRequest buffer = (none, newArgs)) :
    newArgs = none := by
  unfold scanRequest at h
  split at h
  · cases h
  · cases h
  · cases h
    rfl

theorem rpcServe_read (hserve : rpcServe env s request = .ok (response, s')) :
    s'.args = argsRead s request ∧ ((commandRead request = none ∧ s'.mngr = s.mngr) ∨
      ∃ command r, commandRead request = some command ∧
        rpcHandle env s.mngr s'.args command = .ok (r, s'.mngr)) := by
  unfold rpcServe at hserve
  dsimp only at hserve
  rw [← received] at hserve
  split at hserve
  · cases hserve
  split at hserve
  · rename_i newArgs hscan
    cases hserve
    refine ⟨?_, .inl ⟨by rw [commandRead, hscan, Option.bind_none], rfl⟩⟩
    rw [argsRead, hscan, scanRequest_none hscan, Option.getD_none]
  · rename_i cmd newArgs hscan
    obtain ⟨⟨answer, m'⟩, hrespond, hend⟩ := bind_eq_ok.mp hserve
    cases hend
    refine ⟨by rw [argsRead, hscan], ?_⟩
    unfold respond at hrespond
    split at hrespond
    · rename_i hnone
      cases hrespond
      exact .inl ⟨by rw [commandRead, hscan, Option.bind_some, hnone], rfl⟩
    · rename_i command hcommand
      obtain ⟨⟨r, m₁⟩, hhandle, hend⟩ := bind_eq_ok.mp hrespond
      cases hend
      exact .inr ⟨command, r, by rw [commandRead, hscan, Option.bind_some, hcommand], hhandle⟩

/-! ### What a handler calls -/

/-- The call that the handler of a command makes where it makes one. -/
inductive Calls (args : Text) : Command → Op → Prop
  | alloc {nid vid sizeMb : ℤ} (h : sscanf "nid=%d vid=%d size=%d" args = [.int nid, .int vid, .int sizeMb]) :
    Calls args .allocMem (.allocMem nid vid sizeMb)
  | free {vid memid : ℤ} (h : sscanf "vid=%d memid=%d" args = [.int vid, .int memid]) :
    Calls args .freeMem (.freeMem vid memid)
  | create {vid : ℤ} {coresetStr : Text} (start : Text)
    (h : sscanf "vid=%d coreset=%[^\n]" args = [.int vid, .text coresetStr]) :
    Calls args .createVm (.create vid start)
  | destroy {vid : ℤ} (h : sscanf "vid=%d" args = [.int vid]) : Calls args .destroyVm (.destroy vid)
  | start {vid : ℤ} (env : StartEnv) (h : sscanf "vid=%d" args = [.int vid]) : Calls args .startVm (.start vid env)
  | stop {vid : ℤ} (kernel : PerfCounter.PerfKernel) (h : sscanf "vid=%d" args = [.int vid]) :
    Calls args .stopVm (.stop vid kernel)

/-- A handler makes no call, or its call. -/
def OneCallOf (args : Text) (command : Command) (m m' : Manager) : Prop :=
  m' = m ∨ ∃ op, Calls args command op ∧ step m op = .ok m'

theorem rpcHandleAllocMem_calls (h : rpcHandleAllocMem m args = .ok (response, m')) :
    OneCallOf args .allocMem m m' := by
  unfold rpcHandleAllocMem at h
  split at h
  · rename_i nid vid sizeMb hscan
    split at h
    · cases h
      exact .inl rfl
    · obtain ⟨⟨req, m₁⟩, halloc, hend⟩ := bind_eq_ok.mp h
      have hstep : step m (.allocMem nid vid sizeMb) = .ok m₁ := congrArg (Except.map Prod.snd) halloc
      have hm : m₁ = m' := by
        cases req with
        | none => exact (Prod.mk.inj (Except.ok.inj hend)).2
        | some req => exact (Prod.mk.inj (Except.ok.inj hend)).2
      exact .inr ⟨_, .alloc hscan, hm ▸ hstep⟩
  · cases h
    exact .inl rfl

theorem rpcHandleFreeMem_calls (h : rpcHandleFreeMem m args = .ok (response, m')) :
    OneCallOf args .freeMem m m' := by
  unfold rpcHandleFreeMem at h
  split at h
  · rename_i vid memid hscan
    split at h
    · cases h
      exact .inl rfl
    · obtain ⟨⟨ret, m₁⟩, hfree, hend⟩ := bind_eq_ok.mp h
      have hstep : step m (.freeMem vid memid) = .ok m₁ := congrArg (Except.map Prod.snd) hfree
      have hm : m₁ = m' := by
        dsimp only at hend
        split_ifs at hend
        · exact (Prod.mk.inj (Except.ok.inj hend)).2
        · exact (Prod.mk.inj (Except.ok.inj hend)).2
      exact .inr ⟨_, .free hscan, hm ▸ hstep⟩
  · cases h
    exact .inl rfl

theorem rpcHandleCreateVm_calls (h : rpcHandleCreateVm m args = .ok (response, m')) :
    OneCallOf args .createVm m m' := by
  unfold rpcHandleCreateVm at h
  split at h
  · rename_i vid coresetStr hscan
    split at h
    · cases h
      exact .inl rfl
    split at h
    · cases h
      exact .inl rfl
    · rename_i start _
      obtain ⟨⟨ret, m₁⟩, hcreate, hend⟩ := bind_eq_ok.mp h
      have hstep : step m (.create vid start) = .ok m₁ := congrArg (Except.map Prod.snd) hcreate
      have hm : m₁ = m' := by
        dsimp only at hend
        split_ifs at hend
        · exact (Prod.mk.inj (Except.ok.inj hend)).2
        · exact (Prod.mk.inj (Except.ok.inj hend)).2
      exact .inr ⟨_, .create start hscan, hm ▸ hstep⟩
  · cases h
    exact .inl rfl

/-- The three handlers that only name a VM. -/
theorem rpcHandleVm_calls {command : Command} {op : ℤ → Op} {call : ℤ → Outcome (ℤ × Manager)}
    {success failed : String}
    (hcalls : ∀ vid, sscanf "vid=%d" args = [.int vid] → Calls args command (op vid))
    (hop : ∀ vid, step m (op vid) = (call vid).map Prod.snd)
    (h : rpcHandleVm call success failed m args = .ok (response, m')) : OneCallOf args command m m' := by
  unfold rpcHandleVm at h
  split at h
  · rename_i vid hscan
    split at h
    · cases h
      exact .inl rfl
    · obtain ⟨⟨ret, m₁⟩, hdone, hend⟩ := bind_eq_ok.mp h
      have hstep : step m (op vid) = .ok m₁ := (hop vid).trans (congrArg (Except.map Prod.snd) hdone)
      have hm : m₁ = m' := by
        dsimp only at hend
        split_ifs at hend
        · exact (Prod.mk.inj (Except.ok.inj hend)).2
        · exact (Prod.mk.inj (Except.ok.inj hend)).2
      exact .inr ⟨_, hcalls vid hscan, hm ▸ hstep⟩
  · cases h
    exact .inl rfl

theorem rpcHandle_calls {command : Command} {r : Option Text}
    (h : rpcHandle env m args command = .ok (r, m')) : OneCallOf args command m m' := by
  have hquery : ∀ {α : Type} {x : Outcome α} {f : α → Option Text},
      (x.map fun a => (f a, m)) = .ok (r, m') → OneCallOf args command m m' := by
    intro α x f hx
    obtain ⟨a, _, ha⟩ := map_eq_ok.mp hx
    cases ha
    exact .inl rfl
  have hcall : ∀ {x : Outcome (Text × Manager)},
      (∀ response m', x = .ok (response, m') → OneCallOf args command m m') →
      (x.map fun a => (some a.1, a.2)) = .ok (r, m') → OneCallOf args command m m' := by
    intro x hx h
    obtain ⟨⟨response, m₁⟩, hres, ha⟩ := map_eq_ok.mp h
    cases ha
    exact hx _ _ hres
  cases command with
  | getMemInfo => exact hquery h
  | getMemPool => exact hquery h
  | getVms => exact hquery h
  | getNumNodes =>
    cases h
    exact .inl rfl
  | getNodeInfo =>
    cases h
    exact .inl rfl
  | allocMem => exact hcall (fun _ _ => rpcHandleAllocMem_calls) h
  | freeMem => exact hcall (fun _ _ => rpcHandleFreeMem_calls) h
  | attachMem =>
    cases h
    exact .inl rfl
  | detachMem =>
    cases h
    exact .inl rfl
  | createVm => exact hcall (fun _ _ => rpcHandleCreateVm_calls) h
  | destroyVm => exact hcall (fun _ _ => rpcHandleVm_calls (fun _ => .destroy) fun _ => rfl) h
  | startVm => exact hcall (fun _ _ => rpcHandleVm_calls (fun _ => .start env.start) fun _ => rfl) h
  | stopVm => exact hcall (fun _ _ => rpcHandleVm_calls (fun _ => .stop env.start.kernel) fun _ => rfl) h

/-- A request that is served has made one call at most. -/
theorem rpcServe_calls (hserve : rpcServe env s request = .ok (response, s')) :
    s'.args = argsRead s request ∧ (s'.mngr = s.mngr ∨ ∃ command op, commandRead request = some command ∧
      Calls s'.args command op ∧ step s.mngr op = .ok s'.mngr) := by
  obtain ⟨hargs, ⟨_, hm⟩ | ⟨command, r, hcommand, hhandle⟩⟩ := rpcServe_read hserve
  · exact ⟨hargs, .inl hm⟩
  · refine ⟨hargs, ?_⟩
    rcases rpcHandle_calls hhandle with hm | ⟨op, hcalls, hstep⟩
    · exact .inl hm
    · exact .inr ⟨command, op, hcommand, hcalls, hstep⟩

end Ramryder.RequestCalls
