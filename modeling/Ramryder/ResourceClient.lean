import Ramryder.ClientRequests
import Ramryder.JoinedWords

/-! `resource_client`, the command line client: the words that it turns into a request, the server's
handler that each request reaches, and the same requests from the admin client. -/
namespace Ramryder.ResourceClient
open CInt CMachine CScan CText ClientRequests GuestAgents JoinedWords PyText RequestHistory ResourceManager

/-- How `main` ends, or what it hands to `send_command`. -/
inductive ClientOutcome
  | usage
  | invalidUsage
  | unknownCommand (action : Text)
  | sends (command : Text)
  deriving DecidableEq, Repr

/-- The entry of the first key that a word equals: a chain of `strcmp`. -/
def lookup {β : Type} : List (String × β) → Text → Option β
  | [], _ => none
  | (key, b) :: table, word => if word = key.toList then some b else lookup table word

/-- The `argc` that the branch of an action asks for. -/
def commandArgcs : List (String × ℕ) :=
  [("get-mem-info", 3), ("get-mem-pool", 2), ("get-vms", 2), ("get-num-nodes", 2),
    ("get-node-info", 3), ("alloc-mem", 5), ("free-mem", 4), ("attach-mem", 5), ("detach-mem", 4),
    ("create-vm", 4), ("destroy-vm", 3), ("start-vm", 3), ("stop-vm", 3)]

/-- The format with which the branches of this `argc` fill `cmd_full`. -/
def commandFormat : ℕ → String
  | 2 => "%s"
  | 3 => "%s %s"
  | 4 => "%s %s %s"
  | _ => "%s %s %s %s"

/-- `main`: the first word of `argv` is the program's name. -/
def clientMain (argv : List Text) : ClientOutcome :=
  match argv with
  | _ :: action :: args =>
    match lookup commandArgcs action with
    | none => .unknownCommand action
    | some argc =>
      if argv.length ≠ argc then .invalidUsage
      else .sends (snprintf bufferSize (commandFormat argc) ((action :: args).map .text))
  | _ => .usage

/-- What `%[^\n]` stores of what follows the command word. -/
def lineAfter (rest : Text) : Option Text :=
  let line := (rest.dropWhile isSpace).takeWhile (· != '\n')
  if line = [] then none else some line

/-! ### The commands of the client -/

variable {β γ : Type} {word action : Text} {argc : ℕ} {b : β} {table : List (String × β)}

theorem lookup_mem (h : lookup table word = some b) : ∃ key, (key, b) ∈ table ∧ word = key.toList := by
  induction table with
  | nil => cases h
  | cons entry table ih =>
    obtain ⟨key, b'⟩ := entry
    by_cases hw : word = key.toList
    · rw [lookup, if_pos hw] at h
      cases h
      exact ⟨key, List.mem_cons_self, hw⟩
    · rw [lookup, if_neg hw] at h
      obtain ⟨key, hmem, hkey⟩ := ih h
      exact ⟨key, List.mem_cons_of_mem _ hmem, hkey⟩

/-- Two chains over the same keys know the same words. -/
theorem lookup_isSome {table' : List (String × γ)} (h : table.map Prod.fst = table'.map Prod.fst) :
    (lookup table word).isSome = (lookup table' word).isSome := by
  induction table generalizing table' with
  | nil =>
    obtain rfl := List.map_eq_nil_iff.mp h.symm
    rfl
  | cons entry table ih =>
    cases table' with
    | nil => cases h
    | cons entry' table' =>
      obtain ⟨hkey, hrest⟩ := List.cons.inj h
      rw [lookup, lookup]
      by_cases hw : word = entry.1.toList
      · rw [if_pos hw, if_pos (hw.trans (congrArg _ hkey))]
        rfl
      · rw [if_neg hw, if_neg fun hw' => hw (hw'.trans (congrArg _ hkey.symm))]
        exact ih hrest

/-- The chain of the server, as a table. -/
def serverCommands : List (String × Command) :=
  [("get-mem-info", .getMemInfo), ("get-mem-pool", .getMemPool), ("get-vms", .getVms),
    ("get-num-nodes", .getNumNodes), ("get-node-info", .getNodeInfo), ("alloc-mem", .allocMem),
    ("free-mem", .freeMem), ("attach-mem", .attachMem), ("detach-mem", .detachMem),
    ("create-vm", .createVm), ("destroy-vm", .destroyVm), ("start-vm", .startVm),
    ("stop-vm", .stopVm)]

theorem commandOf_lookup (word : Text) : commandOf word = lookup serverCommands word := by
  simp only [serverCommands, lookup]
  rfl

/-- The client takes the commands that the server knows. -/
theorem commandArgcs_isSome (word : Text) :
    (lookup commandArgcs word).isSome = (commandOf word).isSome := by
  rw [commandOf_lookup]
  exact lookup_isSome (by rfl)

theorem commandArgcs_range (h : lookup commandArgcs action = some argc) : 2 ≤ argc ∧ argc ≤ 5 := by
  obtain ⟨key, hmem, -⟩ := lookup_mem h
  have hall : ∀ e ∈ commandArgcs, 2 ≤ e.2 ∧ e.2 ≤ 5 := by decide
  exact hall _ hmem

theorem commandArgcs_word (h : lookup commandArgcs action = some argc) :
    ∃ w : String, Word w ∧ action = w.toList := by
  obtain ⟨key, hmem, rfl⟩ := lookup_mem h
  have hall : ∀ e ∈ commandArgcs, Word e.1 := by
    simp [commandArgcs, Word, IsAscii, isSpace]
  exact ⟨key, hall _ hmem, rfl⟩

/-! ### The request -/

variable {prog request : Text} {args argv : List Text}

/-- Words with one blank between them, as directives. -/
def wordDirectives : ℕ → List Directive
  | 0 => [.str 0]
  | n+1 => .str 0 :: .lit ' ' :: wordDirectives n

theorem commandFormat_directives (h : 2 ≤ argc ∧ argc ≤ 5) :
    directives none (commandFormat argc).toList = wordDirectives (argc - 2) := by
  obtain ⟨hlo, hhi⟩ := h
  interval_cases argc <;> rfl

theorem render_words (w : Text) (ws : List Text) :
    render (wordDirectives ws.length) ((w :: ws).map .text) = joined ' ' (w :: ws) := by
  induction ws generalizing w with
  | nil =>
    rw [joined_singleton]
    simp [wordDirectives, render]
  | cons w' ws ih =>
    rw [joined_cons (by simp), ← ih w']
    simp [wordDirectives, render]

theorem clientMain_sends : clientMain argv = .sends request ↔
    ∃ prog action args argc, argv = prog :: action :: args ∧
      lookup commandArgcs action = some argc ∧ args.length + 2 = argc ∧
      request = (joined ' ' (action :: args)).take (bufferSize - 1) := by
  constructor
  · intro h
    rcases argv with _ | ⟨prog, _ | ⟨action, args⟩⟩
    · cases h
    · cases h
    rw [clientMain] at h
    cases hargc : lookup commandArgcs action with
    | none =>
      rw [hargc] at h
      cases h
    | some argc =>
      rw [hargc] at h
      dsimp only at h
      split_ifs at h with hlen
      have hcount : args.length + 2 = argc := by simpa using hlen
      have hrange := commandArgcs_range hargc
      obtain rfl := ClientOutcome.sends.inj h
      refine ⟨prog, action, args, argc, rfl, hargc, hcount, ?_⟩
      have hrender : args.length = argc - 2 := by omega
      rw [snprintf, sprintf, commandFormat_directives hrange, ← hrender, render_words]
  · rintro ⟨prog, action, args, argc, rfl, hargc, hcount, rfl⟩
    have hrange := commandArgcs_range hargc
    have hrender : args.length = argc - 2 := by omega
    have hlen : ¬ (prog :: action :: args).length ≠ argc := by simpa using hcount
    rw [clientMain, hargc]
    dsimp only
    rw [if_neg hlen, snprintf, sprintf, commandFormat_directives hrange, ← hrender, render_words]

/-- A request begins with its command, and a blank follows where anything does. -/
theorem joined_head (action : Text) (args : List Text) :
    ∃ rest, joined ' ' (action :: args) = action ++ rest ∧ ∀ c ∈ rest.head?, c = ' ' := by
  cases args with
  | nil => exact ⟨[], by rw [joined_singleton, List.append_nil], by simp⟩
  | cons w ws => exact ⟨' ' :: joined ' ' (w :: ws), joined_cons (by simp), by simp⟩

theorem scanRequest_after {w rest : Text} (hw : ∀ c ∈ w, isSpace c = false) (hne : w ≠ [])
    (hfits : w.length ≤ 63) (hrest : ∀ c ∈ rest.head?, c = ' ') :
    scanRequest (w ++ rest) = (some w, lineAfter rest) := by
  have hblank : ∀ c ∈ rest.head?, isSpace c = true := fun c hc => by
    rw [hrest c hc]
    decide
  have hscan : scan [.str 63, .lit ' ', .line] (w ++ rest) =
      .text w :: ((lineAfter rest).map Item.text).toList := by
    rw [scan_word hw hfits hne hblank, scan, matchLit.eq_def, if_pos (by decide)]
    dsimp only
    rw [scan, lineAfter]
    split_ifs with hline
    · rfl
    · rfl
  rw [scanRequest, sscanf, requestFormat, hscan]
  cases lineAfter rest <;> rfl

/-- Whatever words the client accepts, its request fits the server's buffer and reaches the handler of
its first word, with what follows that word in the line as the arguments. -/
theorem client_dispatched (hargv : ∀ w ∈ argv, '\x00' ∉ w) (h : clientMain argv = .sends request) :
    ∃ prog action args rest command, argv = prog :: action :: args ∧
      commandOf action = some command ∧ request = action ++ rest ∧
      request = (joined ' ' (action :: args)).take (bufferSize - 1) ∧
      ∀ env s, rpcServe env s request =
        (rpcHandle env s.mngr ((lineAfter rest).getD s.args) command).map fun r =>
          (r.1.getD "Failed to get results\n".toList, ⟨r.2, (lineAfter rest).getD s.args⟩) := by
  obtain ⟨prog, action, args, argc, rfl, hargc, hcount, hrequest⟩ := clientMain_sends.mp h
  obtain ⟨w, hw, rfl⟩ := commandArgcs_word hargc
  obtain ⟨command, hcmd⟩ : ∃ command, commandOf w.toList = some command := by
    rw [← Option.isSome_iff_exists, ← commandArgcs_isSome, hargc]
    rfl
  obtain ⟨rest, hjoined, hhead⟩ := joined_head w.toList args
  have hnul : '\x00' ∉ joined ' ' (w.toList :: args) := by
    intro hmem
    rcases mem_joined hmem with h | ⟨v, hv, hc⟩
    · exact absurd h (by decide)
    · exact hargv v (List.mem_cons_of_mem prog hv) hc
  have hshort : w.toList.length ≤ bufferSize - 1 := hw.2.1.trans (by decide)
  have hcut : request = w.toList ++ rest.take (bufferSize - 1 - w.toList.length) := by
    rw [hrequest, hjoined, List.take_append, List.take_of_length_le hshort]
  have hheadcut : ∀ c ∈ (rest.take (bufferSize - 1 - w.toList.length)).head?, c = ' ' := by
    intro c hc
    rw [List.head?_take] at hc
    split_ifs at hc
    · cases hc
    · exact hhead c hc
  have hfits : request.length < bufferSize := by
    rw [hrequest, List.length_take]
    exact lt_of_le_of_lt (min_le_left _ _) (by decide)
  have hreceived : received request = request := by
    have hnul' : '\x00' ∉ request := fun hmem => hnul (by
      rw [hrequest] at hmem
      exact List.mem_of_mem_take hmem)
    rw [received_take hnul', List.take_of_length_le hfits.le]
  refine ⟨prog, w.toList, args, _, command, rfl, hcmd, hcut, hrequest, fun env s => ?_⟩
  refine rpcServe_scanned (by rwa [hreceived]) ?_ hcmd env s
  rw [hreceived, hcut]
  exact scanRequest_after (fun c hc => (hw.2.2 c hc).2.1) hw.1 hw.2.1 hheadcut

theorem client_dispatched_blankArgument : clientMain ["resource_client".toList,
    "destroy-vm".toList, " vid=3".toList] = .sends "destroy-vm  vid=3".toList ∧
    ∃ prog action args rest command, ["resource_client".toList, "destroy-vm".toList,
        " vid=3".toList] = prog :: action :: args ∧
      commandOf action = some command ∧ "destroy-vm  vid=3".toList = action ++ rest ∧
      "destroy-vm  vid=3".toList = (joined ' ' (action :: args)).take (bufferSize - 1) ∧
      ∀ env s, rpcServe env s "destroy-vm  vid=3".toList =
        (rpcHandle env s.mngr ((lineAfter rest).getD s.args) command).map fun r =>
          (r.1.getD "Failed to get results\n".toList, ⟨r.2, (lineAfter rest).getD s.args⟩) := by
  have hsends : clientMain ["resource_client".toList, "destroy-vm".toList, " vid=3".toList] =
      .sends "destroy-vm  vid=3".toList := by rfl
  exact ⟨hsends, client_dispatched (by decide) hsends⟩

/-! ### The two clients -/

/-- A key and its number. -/
def pairWord (kv : String × ℤ) : Text := kv.1.toList ++ decimal kv.2

/-- The words that ask for the same as a call of the admin client. -/
def callWords : ClientCall → List Text
  | .getVms => ["get-vms".toList]
  | .getMemPool => ["get-mem-pool".toList]
  | .getNumNodes => ["get-num-nodes".toList]
  | .getNodeInfo nid => ["get-node-info".toList, pairWord ("nid=", nid)]
  | .createVm vid coreset =>
    ["create-vm".toList, pairWord ("vid=", vid), "coreset=[".toList ++ encode coreset ++ [']']]
  | .destroyVm vid => ["destroy-vm".toList, pairWord ("vid=", vid)]
  | .allocMem nid vid sizeMb =>
    ["alloc-mem".toList, pairWord ("nid=", nid), pairWord ("vid=", vid), pairWord ("size=", sizeMb)]
  | .freeMem vid memid => ["free-mem".toList, pairWord ("vid=", vid), pairWord ("memid=", memid)]
  | .attachMem memid vid nid =>
    ["attach-mem".toList, pairWord ("memid=", memid), pairWord ("vid=", vid), pairWord ("nid=", nid)]
  | .detachMem memid vid => ["detach-mem".toList, pairWord ("memid=", memid), pairWord ("vid=", vid)]

theorem joined_pairs (kvs : List (String × ℤ)) : joined ' ' (kvs.map pairWord) = argText kvs := by
  induction kvs with
  | nil => rfl
  | cons kv kvs ih =>
    cases kvs with
    | nil => exact joined_singleton
    | cons kv' kvs =>
      rw [List.map_cons, joined_cons (by simp), ih]
      simp [pairWord, argText]

theorem joined_numberCall {call : ClientCall} {w format : String} {kvs : List (String × ℤ)}
    (h : NumberCall call w format kvs) : joined ' ' (w.toList :: kvs.map pairWord) = call.request := by
  rw [h.request, joined_cons (by simp [h.some_key]), joined_pairs]

/-- The words of a call make up its request. -/
theorem joined_callWords (call : ClientCall) : joined ' ' (callWords call) = call.request := by
  cases call with
  | getVms =>
    rw [callWords, joined_singleton]
    rfl
  | getMemPool =>
    rw [callWords, joined_singleton]
    rfl
  | getNumNodes =>
    rw [callWords, joined_singleton]
    rfl
  | createVm vid coreset =>
    have hopen : "coreset=[".toList = "coreset=".toList ++ ['['] := by rfl
    rw [callWords, createVm_request, joined_cons (by simp), joined_cons (by simp), joined_singleton,
      hopen, pairWord, coresetArgs]
    simp only [List.append_assoc, List.cons_append, List.nil_append]
  | getNodeInfo nid => exact joined_numberCall (getNodeInfo_numbers nid)
  | destroyVm vid => exact joined_numberCall (destroyVm_numbers vid)
  | allocMem nid vid sizeMb => exact joined_numberCall (allocMem_numbers nid vid sizeMb)
  | freeMem vid memid => exact joined_numberCall (freeMem_numbers vid memid)
  | attachMem memid vid nid => exact joined_numberCall (attachMem_numbers memid vid nid)
  | detachMem memid vid => exact joined_numberCall (detachMem_numbers memid vid)

/-- Given these words, the command line client sends the bytes of the admin client. -/
theorem clients_agree (prog : Text) (call : ClientCall) (hfits : call.request.length < bufferSize) :
    clientMain (prog :: callWords call) = .sends call.request := by
  have hwords : ∃ action args argc, callWords call = action :: args ∧
      lookup commandArgcs action = some argc ∧ args.length + 2 = argc := by
    cases call <;> exact ⟨_, _, _, rfl, by rfl, rfl⟩
  obtain ⟨action, args, argc, hcall, hargc, hcount⟩ := hwords
  refine clientMain_sends.mpr ⟨prog, action, args, argc, by rw [hcall], hargc, hcount, ?_⟩
  rw [← hcall, joined_callWords, List.take_of_length_le (Nat.le_sub_one_of_lt hfits)]

theorem clients_agree_createVm : clientMain ("resource_client".toList ::
    callWords (.createVm 3 "0-9,20-29".toList)) =
      .sends (ClientCall.createVm 3 "0-9,20-29".toList).request :=
  clients_agree _ _ (by decide)

end Ramryder.ResourceClient
