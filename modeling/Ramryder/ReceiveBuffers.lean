import Ramryder.QmpSession
import Ramryder.RequestHistory

/-! What the receives leave in their buffers: three of them are full-sized, and what the peer sends
decides whether there is room for a terminator, or one at all. -/
namespace Ramryder.ReceiveBuffers
open ByteBuffer CMachine CText GuestAgents QemuAgent QmpSession ResourceManager RequestHistory

variable {size count : ℕ} {buffer : Buffer size} {peer ready asked : Peer} {command : Text}
  {parse : Text → Option Json} {connect : Text → Option Peer} {vmId : ℤ}
  {stack response : Buffer bufferSize}

/-! ### One receive -/

theorem recv_length (count : ℕ) (peer : Peer) : (recv count peer).1.length ≤ count := by
  unfold recv
  split
  · exact Nat.zero_le _
  · exact (List.length_take_le _ _).trans (min_le_right _ _)

theorem recv_sent (count : ℕ) (peer : Peer) : (recv count peer).2.sent = peer.sent := by
  unfold recv
  split <;> rfl

theorem recv_answers (count : ℕ) (peer : Peer) : (recv count peer).2.answers = peer.answers := by
  unfold recv
  split <;> rfl

theorem recvInto_ok (hcount : count ≤ size) (buffer : Buffer size) (peer : Peer) :
    ∃ buffer', recvInto buffer count peer =
        .ok ((recv count peer).1.length, buffer', (recv count peer).2) ∧
      write buffer (recv count peer).1 = .ok buffer' := by
  obtain ⟨buffer', hwrite, _⟩ := write_fits ((recv_length count peer).trans hcount) buffer
  refine ⟨buffer', ?_, hwrite⟩
  rw [recvInto]
  dsimp only
  rw [hwrite, ok_bind]

/-- A receive that leaves room for the terminator: what is read is what was received. -/
theorem recvInto_string (hcount : count ≤ size) (hroom : (recv count peer).1.length < size)
    (buffer : Buffer size) :
    ∃ buffer' terminated, recvInto buffer count peer =
        .ok ((recv count peer).1.length, buffer', (recv count peer).2) ∧
      terminate buffer' (recv count peer).1.length = .ok terminated ∧
      asString terminated = .ok (cString (recv count peer).1) := by
  obtain ⟨buffer', hrecv, hwrite⟩ := recvInto_ok hcount buffer peer
  obtain ⟨terminated, hterminated, hstring⟩ :=
    @terminate_string _ _ _ buffer hroom (write_eq_ok hwrite).2
  exact ⟨buffer', terminated, hrecv, hterminated, hstring⟩

/-! ### The handshake -/

/-- The handshake goes through: something is received as the greeting, and the next thing received
begins with a value that has a `return` member. -/
def Handshake (parse : Text → Option Json) (peer ready : Peer) : Prop :=
  (recv (bufferSize - 1) peer).1 ≠ [] ∧
    ∃ negotiating, send qmpCapabilities (recv (bufferSize - 1) peer).2 = some negotiating ∧
      (recv (bufferSize - 1) negotiating).1 ≠ [] ∧
      (∃ reply, parse (cString (recv (bufferSize - 1) negotiating).1) = some reply ∧
        hasReturn reply = true) ∧
      ready = (recv (bufferSize - 1) negotiating).2

theorem handshake_room (peer : Peer) : (recv (bufferSize - 1) peer).1.length < bufferSize := by
  have hlen := recv_length (bufferSize - 1) peer
  have hpos : bufferSize - 1 < bufferSize := by decide
  exact hlen.trans_lt hpos

theorem send_sent {asked : Peer} (h : send command peer = some asked) :
    asked.sent = peer.sent ++ [command] := by
  unfold send at h
  split at h
  · cases h
  · cases h
    rfl

/-- The handshake stays inside its buffer, whatever is received, and sends one command at most. -/
theorem initQemuQmpSession_ok (parse : Text → Option Json) (stack : Buffer bufferSize) (peer : Peer) :
    ∃ ret after, initQemuQmpSession parse stack peer = .ok (ret, after) ∧
      after.sent.length ≤ peer.sent.length + 1 ∧
      ((0 ≤ ret ∧ Handshake parse peer after) ∨ (ret < 0 ∧ ∀ ready, ¬ Handshake parse peer ready)) := by
  obtain ⟨buffer, terminated, hrecv, hterminated, hstring⟩ :=
    recvInto_string (Nat.sub_le bufferSize 1) (handshake_room peer) stack
  rw [initQemuQmpSession, hrecv, ok_bind]
  dsimp only
  split
  · rename_i hnone
    have hsent := recv_sent (bufferSize - 1) peer
    exact ⟨_, _, rfl, by rw [hsent]; exact Nat.le_succ _,
      .inr ⟨by decide, fun ready hand => hand.1 (List.length_eq_zero_iff.mp hnone)⟩⟩
  rename_i hgreeting
  rw [hterminated, ok_bind, hstring, ok_bind]
  cases hsend : send qmpCapabilities (recv (bufferSize - 1) peer).2 with
  | none =>
    have hsent := recv_sent (bufferSize - 1) peer
    refine ⟨_, _, rfl, by rw [hsent]; exact Nat.le_succ _, .inr ⟨by decide, fun ready hand => ?_⟩⟩
    obtain ⟨_, _, hsome, _⟩ := hand
    rw [hsend] at hsome
    cases hsome
  | some negotiating =>
    have hsame : ∀ {ready}, Handshake parse peer ready →
        (recv (bufferSize - 1) negotiating).1 ≠ [] ∧
        (∃ reply, parse (cString (recv (bufferSize - 1) negotiating).1) = some reply ∧
          hasReturn reply = true) ∧ ready = (recv (bufferSize - 1) negotiating).2 := by
      rintro ready ⟨_, _, hsome, hrest⟩
      rw [hsend] at hsome
      cases hsome
      exact hrest
    have hsent : (recv (bufferSize - 1) negotiating).2.sent.length ≤ peer.sent.length + 1 := by
      rw [recv_sent, send_sent hsend, recv_sent, List.length_append, List.length_singleton]
    obtain ⟨buffer₂, terminated₂, hrecv₂, hterminated₂, hstring₂⟩ :=
      recvInto_string (Nat.sub_le bufferSize 1) (handshake_room negotiating) terminated
    dsimp only
    rw [hrecv₂, ok_bind]
    dsimp only
    split
    · rename_i hnone
      exact ⟨_, _, rfl, hsent, .inr ⟨by decide, fun ready hand =>
        (hsame hand).1 (List.length_eq_zero_iff.mp hnone)⟩⟩
    rename_i hfound
    rw [hterminated₂, ok_bind, hstring₂, ok_bind]
    cases hparse : parse (cString (recv (bufferSize - 1) negotiating).1) with
    | none =>
      refine ⟨_, _, rfl, hsent, .inr ⟨by decide, fun ready hand => ?_⟩⟩
      obtain ⟨reply, hsome, _⟩ := (hsame hand).2.1
      rw [hparse] at hsome
      cases hsome
    | some reply =>
      dsimp only
      cases hreturn : hasReturn reply with
      | false =>
        refine ⟨_, _, rfl, hsent, .inr ⟨by decide, fun ready hand => ?_⟩⟩
        obtain ⟨reply', hsome, hyes⟩ := (hsame hand).2.1
        rw [hparse] at hsome
        cases hsome
        rw [hreturn] at hyes
        cases hyes
      | true =>
        refine ⟨_, _, rfl, hsent, .inl ⟨by decide, ?_⟩⟩
        exact ⟨fun hnil => hgreeting (by rw [hnil]; rfl), negotiating, hsend,
          fun hnil => hfound (by rw [hnil]; rfl), ⟨reply, hparse, hreturn⟩, rfl⟩

theorem handshake_unique {ready' : Peer} (h : Handshake parse peer ready)
    (h' : Handshake parse peer ready') : ready' = ready := by
  obtain ⟨_, negotiating, hsend, _, _, rfl⟩ := h
  obtain ⟨_, negotiating', hsend', _, _, rfl⟩ := h'
  rw [hsend] at hsend'
  cases hsend'
  rfl

/-! ### The command -/

/-- QEMU is asked: the handshake went through and the command was sent. -/
def Asked (parse : Text → Option Json) (connect : Text → Option Peer) (vmId : ℤ) (command : Text)
    (asked : Peer) : Prop :=
  ∃ peer ready, connect (qmpSocketPath vmId) = some peer ∧ Handshake parse peer ready ∧
    send command ready = some asked

/-- A command that is not sent is reported as failed. -/
theorem sendQemuCmd_unasked (h : ∀ asked, ¬ Asked parse connect vmId command asked) :
    ∃ exchange, sendQemuCmd parse connect stack vmId command response = .ok exchange ∧
      exchange.ret < 0 ∧ ∀ peer, connect (qmpSocketPath vmId) = some peer →
        exchange.sent.length ≤ peer.sent.length + 1 := by
  rw [sendQemuCmd]
  cases hconnect : connect (qmpSocketPath vmId) with
  | none => exact ⟨_, rfl, neg_one_lt_zero, fun _ hsome => by cases hsome⟩
  | some peer =>
    obtain ⟨ret, ready, hinit, hsent, hcase⟩ := initQemuQmpSession_ok parse stack peer
    have hbound : ∀ peer', some peer = some peer' →
        ready.sent.length ≤ peer'.sent.length + 1 := by
      intro peer' hsome
      cases hsome
      exact hsent
    dsimp only
    rw [hinit, ok_bind]
    dsimp only
    split
    · exact ⟨_, rfl, neg_one_lt_zero, hbound⟩
    rename_i hret
    obtain ⟨_, hand⟩ := hcase.resolve_right fun hno => hret hno.1
    cases hsend : send command ready with
    | none => exact ⟨_, rfl, neg_one_lt_zero, hbound⟩
    | some asked => exact absurd ⟨peer, ready, hconnect, hand, hsend⟩ (h asked)

/-- The exchange from the sent command on. -/
theorem sendQemuCmd_asked (h : Asked parse connect vmId command asked) :
    sendQemuCmd parse connect stack vmId command response = receiveReply response asked := by
  obtain ⟨peer, ready, hconnect, hand, hsend⟩ := h
  obtain ⟨ret, after, hinit, _, hcase⟩ := initQemuQmpSession_ok parse stack peer
  obtain ⟨hret, hafter⟩ := hcase.resolve_right fun hno => hno.2 _ hand
  have hready := handshake_unique hand hafter
  subst hready
  rw [sendQemuCmd, hconnect]
  dsimp only
  rw [hinit, ok_bind]
  dsimp only
  rw [if_neg hret.not_gt, hsend]

theorem sendQemuCmd_fits (h : Asked parse connect vmId command asked)
    (hroom : (recv bufferSize asked).1.length < bufferSize) :
    ∃ exchange, sendQemuCmd parse connect stack vmId command response = .ok exchange ∧
      exchange.sent = asked.sent ∧
      (((recv bufferSize asked).1 = [] ∧ exchange.ret < 0) ∨
        ((recv bufferSize asked).1 ≠ [] ∧ exchange.ret = 0 ∧
          asString exchange.response = .ok (cString (recv bufferSize asked).1))) := by
  obtain ⟨buffer, terminated, hrecv, hterminated, hstring⟩ :=
    recvInto_string le_rfl hroom response
  rw [sendQemuCmd_asked h, receiveReply, hrecv, ok_bind]
  dsimp only
  split
  · rename_i hnone
    exact ⟨_, rfl, recv_sent _ _, .inl ⟨List.length_eq_zero_iff.mp hnone, neg_one_lt_zero⟩⟩
  · rename_i hsome
    rw [hterminated, ok_bind, hstring, ok_bind]
    exact ⟨_, rfl, recv_sent _ _, .inr ⟨fun hnil => hsome (by rw [hnil]; rfl), rfl, hstring⟩⟩

/-- A full buffer: the terminator is written behind it. -/
theorem sendQemuCmd_overflow (h : Asked parse connect vmId command asked)
    (hfull : ¬ (recv bufferSize asked).1.length < bufferSize) :
    sendQemuCmd parse connect stack vmId command response = .error .bufferOverflow := by
  obtain ⟨buffer, hrecv, _⟩ := recvInto_ok (le_refl bufferSize) response asked
  rw [sendQemuCmd_asked h, receiveReply, hrecv, ok_bind]
  dsimp only
  rw [if_neg, terminate_overflow hfull, error_bind]
  intro hzero
  rw [hzero] at hfull
  exact hfull (by decide)

theorem sendQemuCmd_ok_iff :
    (∃ exchange, sendQemuCmd parse connect stack vmId command response = .ok exchange) ↔
      ∀ asked, Asked parse connect vmId command asked →
        (recv bufferSize asked).1.length < bufferSize := by
  constructor
  · rintro ⟨exchange, hok⟩ asked hasked
    by_contra hfull
    rw [sendQemuCmd_overflow hasked hfull] at hok
    cases hok
  · intro hroom
    by_cases hasked : ∃ asked, Asked parse connect vmId command asked
    · obtain ⟨asked, hasked⟩ := hasked
      obtain ⟨exchange, hok, _⟩ := sendQemuCmd_fits hasked (hroom asked hasked)
      exact ⟨exchange, hok⟩
    · obtain ⟨exchange, hok, _⟩ := sendQemuCmd_unasked (not_exists.mp hasked)
      exact ⟨exchange, hok⟩

/-! ### The guest agent and the client -/

/-- What the guest agent's answer is received from. -/
def guestBytes (command : Text) (peer : Peer) : Text :=
  (recv bufferSize ((send command peer).getD peer)).1

theorem guestResponse_ok_iff {agent : GuestAgent} {heap : Buffer bufferSize} :
    (∃ r, guestResponse agent heap command peer = .ok r) ↔
      (agent.initialized = true → '\x00' ∈ guestBytes command peer ∨
        '\x00' ∈ heap.bytes.drop (guestBytes command peer).length) := by
  rw [guestResponse, sendGuestCmd]
  cases agent.initialized with
  | false => exact iff_of_true ⟨_, rfl⟩ (fun hno => absurd hno (by decide))
  | true =>
    obtain ⟨buffer, hrecv, hwrite⟩ :=
      recvInto_ok (le_refl bufferSize) heap ((send command peer).getD peer)
    have hbytes := (write_eq_ok hwrite).2
    rw [if_pos rfl, hrecv]
    simp only [ok_bind, true_implies]
    rw [guestBytes, ← List.mem_append, ← hbytes, ← asString_isOk]
    constructor
    · rintro ⟨r, hr⟩
      obtain ⟨t, ht, _⟩ := map_eq_ok.mp hr
      exact ⟨t, ht⟩
    · rintro ⟨t, ht⟩
      exact ⟨some t, map_eq_ok.mpr ⟨t, ht, rfl⟩⟩

theorem scanRequest_fits {t word : Text} {args : Option Text}
    (h : scanRequest t = (some word, args)) :
    word.length < cmdSize ∧ ∀ rest ∈ args, rest.length ≤ t.length := by
  have hformat : directives none "%63s %[^\n]".toList = [.str 63, .lit ' ', .line] := by rfl
  have hblank : matchLit ' ' (scanWord 63 t).2 = some ((scanWord 63 t).2.dropWhile isSpace) := by
    unfold matchLit
    exact if_pos (by decide)
  have hword : (scanWord 63 t).1.length < cmdSize := by
    rw [scanWord]
    dsimp only
    rw [if_neg (by decide)]
    exact (List.length_take_le _ _).trans_lt (by decide)
  have hrest : (scanWord 63 t).2.length ≤ t.length := by
    rw [scanWord]
    dsimp only
    rw [List.length_drop]
    exact (Nat.sub_le _ _).trans (List.dropWhile_sublist _).length_le
  rw [scanRequest, sscanf, hformat, scan] at h
  by_cases hnone : (scanWord 63 t).1 = []
  · rw [if_pos hnone] at h
    cases h
  rw [if_neg hnone, scan, hblank] at h
  dsimp only at h
  rw [scan] at h
  by_cases hline : ((scanWord 63 t).2.dropWhile isSpace).takeWhile (· != '\n') = []
  · rw [if_pos hline] at h
    cases h
    exact ⟨hword, by simp⟩
  · rw [if_neg hline, scan] at h
    cases h
    refine ⟨hword, fun rest hmem => ?_⟩
    cases hmem
    exact ((List.takeWhile_sublist _).length_le.trans (List.dropWhile_sublist _).length_le).trans hrest

theorem writeString_ok {t : Text} (h : t.length < size) (buffer : Buffer size) :
    ∃ buffer', writeString buffer t = .ok buffer' := by
  obtain ⟨buffer', hwrite, _⟩ := @write_fits _ (t ++ ['\x00'])
    (by rw [List.length_append]; exact h) buffer
  exact ⟨buffer', hwrite⟩

/-- Once the request ends inside its buffer, the words that are scanned from it fit theirs. -/
theorem rpcReceive_ok_iff {cmd : Buffer cmdSize} {args : Buffer bufferSize} {client : Peer} :
    (∃ r, rpcReceive cmd args client = .ok r) ↔
      (received (recv bufferSize client).1).length < bufferSize := by
  obtain ⟨buffer, hrecv, hwrite⟩ := recvInto_ok (le_refl bufferSize) (zeroed bufferSize) client
  have hwhole : received (recv bufferSize client).1 = cString (recv bufferSize client).1 := by
    rw [received, List.take_of_length_le (recv_length _ _)]
  rw [rpcReceive, hrecv, ok_bind, hwhole]
  dsimp only
  rw [asString_zeroed hwrite]
  generalize cString (recv bufferSize client).1 = text
  by_cases hfits : text.length < bufferSize
  · refine iff_of_true ?_ hfits
    rw [if_pos hfits, ok_bind]
    cases hscan : scanRequest text with
    | mk word rest =>
      cases word with
      | none => exact ⟨_, rfl⟩
      | some word =>
        obtain ⟨hword, hrest⟩ := scanRequest_fits hscan
        obtain ⟨cmd', hcmd⟩ := writeString_ok hword cmd
        cases rest with
        | none =>
          dsimp only
          rw [hcmd, ok_bind]
          exact ⟨_, rfl⟩
        | some rest =>
          obtain ⟨args', hargs⟩ := writeString_ok ((hrest rest rfl).trans_lt hfits) args
          dsimp only
          rw [hcmd, ok_bind, hargs, ok_bind]
          exact ⟨_, rfl⟩
  · refine iff_of_false ?_ hfits
    rw [if_neg hfits, error_bind]
    simp

/-! ### All receives -/

/-- What the receives meet: the QMP servers by socket path, a guest agent and a client, and what the
buffers hold before they are written. -/
structure Receivers where
  connect : Text → Option Peer
  vmId : ℤ
  command : Text
  agent : GuestAgent
  guestCommand : Text
  guest : Peer
  client : Peer
  stack : Buffer bufferSize
  response : Buffer bufferSize
  heap : Buffer bufferSize
  cmd : Buffer cmdSize
  args : Buffer bufferSize

/-- Every terminator is written inside its buffer, every buffer that is read as a string has one, and
the words of a request fit theirs. -/
structure ReceivesSafely (parse : Text → Option Json) (r : Receivers) : Prop where
  session : ∀ peer, r.connect (qmpSocketPath r.vmId) = some peer →
    ∃ result, initQemuQmpSession parse r.stack peer = .ok result
  command : ∃ exchange,
    sendQemuCmd parse r.connect r.stack r.vmId r.command r.response = .ok exchange
  guest : ∃ answer, guestResponse r.agent r.heap r.guestCommand r.guest = .ok answer
  client : ∃ request, rpcReceive r.cmd r.args r.client = .ok request

/-- The receives are safe just when the reply to a command leaves room for a terminator, a guest
agent's answer contains one or finds one behind it, and the request ends inside its buffer. -/
theorem receivesSafely_iff (parse : Text → Option Json) (r : Receivers) :
    ReceivesSafely parse r ↔
      (∀ asked, Asked parse r.connect r.vmId r.command asked →
        (recv bufferSize asked).1.length < bufferSize) ∧
      (r.agent.initialized = true → '\x00' ∈ guestBytes r.guestCommand r.guest ∨
        '\x00' ∈ r.heap.bytes.drop (guestBytes r.guestCommand r.guest).length) ∧
      (received (recv bufferSize r.client).1).length < bufferSize := by
  rw [← @sendQemuCmd_ok_iff _ _ _ _ r.stack r.response, ← guestResponse_ok_iff,
    ← @rpcReceive_ok_iff r.cmd r.args]
  constructor
  · rintro ⟨_, hcommand, hguest, hclient⟩
    exact ⟨hcommand, hguest, hclient⟩
  · rintro ⟨hcommand, hguest, hclient⟩
    refine ⟨fun peer _ => ?_, hcommand, hguest, hclient⟩
    obtain ⟨ret, after, hinit, _⟩ := initQemuQmpSession_ok parse r.stack peer
    exact ⟨(ret, after), hinit⟩

def okReply : Text := "\x7b\"return\": \x7b\x7d\x7d\x0d\n".toList

def fullReceivers : Receivers where
  connect _ := some ⟨"\x7b\"QMP\": \x7b\x7d\x7d\x0d\n".toList,
    [okReply, List.replicate bufferSize 'a'], [13, 16, 1024], []⟩
  vmId := 0
  command := "\x7b\x7d".toList
  agent := ⟨[], 3, true⟩
  guestCommand := "\x7b\x7d".toList
  guest := ⟨[], [List.replicate bufferSize 'a'], [1024], []⟩
  client := ⟨List.replicate bufferSize 'a', [], [1024], []⟩
  stack := zeroed bufferSize
  response := zeroed bufferSize
  heap := zeroed bufferSize
  cmd := zeroed cmdSize
  args := zeroed bufferSize

/-- A reader of the one reply that the handshake meets. -/
def parseOkReply (t : Text) : Option Json :=
  if t = okReply then some (.obj [("return".toList, .obj [])]) else none

/-- Where the peers fill the buffers, all three full-sized receives fail. -/
theorem receivesSafely_fails_full :
    sendQemuCmd parseOkReply fullReceivers.connect fullReceivers.stack fullReceivers.vmId
        fullReceivers.command fullReceivers.response = .error .bufferOverflow ∧
      guestResponse fullReceivers.agent fullReceivers.heap fullReceivers.guestCommand
        fullReceivers.guest = .error .bufferOverread ∧
      rpcReceive fullReceivers.cmd fullReceivers.args fullReceivers.client =
        .error .bufferOverread ∧
      ¬ ReceivesSafely parseOkReply fullReceivers := by
  have hcommand : sendQemuCmd parseOkReply fullReceivers.connect fullReceivers.stack
      fullReceivers.vmId fullReceivers.command fullReceivers.response = .error .bufferOverflow :=
    map_eq_error (f := fun _ => ()).mp (by decide +kernel)
  have hguest : guestResponse fullReceivers.agent fullReceivers.heap fullReceivers.guestCommand
      fullReceivers.guest = .error .bufferOverread :=
    map_eq_error (f := fun _ => ()).mp (by decide +kernel)
  have hclient : rpcReceive fullReceivers.cmd fullReceivers.args fullReceivers.client =
      .error .bufferOverread := map_eq_error (f := fun _ => ()).mp (by decide +kernel)
  refine ⟨hcommand, hguest, hclient, fun hsafe => ?_⟩
  obtain ⟨exchange, hok⟩ := hsafe.command
  rw [hcommand] at hok
  cases hok

end Ramryder.ReceiveBuffers
