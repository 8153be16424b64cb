import Ramryder.MessageStream
import Ramryder.ReceiveBuffers

/-! One command to QEMU over a stream of greeting, replies and events. Each receive is taken for one
message, so what is reported is right where the receive after the command begins with the reply. -/
namespace Ramryder.QmpStream
open ByteBuffer CMachine CText GuestAgents MessageStream QemuAgent QmpSession ReceiveBuffers ResourceManager

/-- An event has an `event` member, and no `return` member as a reply has. -/
def isEvent : Json → Bool
  | .obj fields => (fields.lookup "event".toList).isSome && (fields.lookup "return".toList).isNone
  | _ => false

/-- What QEMU sends after a command. -/
structure Answer where
  before : List (Message Json)
  reply : Message Json
  after : List (Message Json)
  events : ∀ m ∈ before ++ after, isEvent m.value = true

def Answer.messages (answer : Answer) : List (Message Json) :=
  answer.before ++ answer.reply :: answer.after

/-- What QEMU sends in one session. -/
structure Session where
  greeting : Message Json
  greeted : List (Message Json)
  negotiation : Answer
  answer : Answer
  events : ∀ m ∈ greeted, isEvent m.value = true

def Session.messages (s : Session) : List (Message Json) :=
  s.greeting :: (s.greeted ++ (s.negotiation.messages ++ s.answer.messages))

/-- QEMU before the session, with the number of bytes that each receive will find. -/
def Session.peer (s : Session) (arrivals : List ℕ) : Peer :=
  ⟨wire (s.greeting :: s.greeted), [wire s.negotiation.messages, wire s.answer.messages], arrivals,
    []⟩

/-- A value that a caller takes for success. -/
def Succeeds (value : Json) : Prop := isResponseSuccess (.json value) = true

/-- The command ends, and is reported successful just when QEMU got it and replied so. -/
def AnswersRight (parse : Text → Option Json) (s : Session) (arrivals : List ℕ) (vmId : ℤ)
    (command : Text) (stack response : Buffer bufferSize) : Prop :=
  ∃ exchange reply,
    sendQemuCmd parse (fun _ => some (s.peer arrivals)) stack vmId command response =
      .ok exchange ∧
    qmpReply parse exchange = .ok reply ∧
    (isResponseSuccess reply = true ↔
      exchange.sent = [qmpCapabilities, command] ∧ Succeeds s.answer.reply.value)

variable {parse : Text → Option Json} {s : Session} {arrivals : List ℕ} {vmId : ℤ}
  {command : Text} {stack response : Buffer bufferSize} {peer ready asked : Peer}

theorem succeeds_hasReturn {value : Json} (h : Succeeds value) : hasReturn value = true := by
  unfold Succeeds isResponseSuccess at h
  unfold hasReturn
  split at h
  · rename_i fields heq
    cases heq
    split at h
    · rename_i hlookup
      dsimp only
      rw [hlookup]
      rfl
    · cases h
  · cases h

theorem isEvent_noReturn {value : Json} (h : isEvent value = true) : hasReturn value = false := by
  cases value with
  | obj fields =>
    rw [isEvent, Bool.and_eq_true, Option.isNone_iff_eq_none] at h
    rw [hasReturn, h.2]
    rfl
  | _ => cases h

/-! ### The receives of the session -/

theorem recv_found {count : ℕ} (h : (recv count peer).1 ≠ []) :
    ∃ n, 0 < n ∧ (recv count peer).1 = peer.pending.take n ∧
      (recv count peer).2.pending = peer.pending.drop n := by
  unfold recv at h ⊢
  split
  · rename_i hnone
    rw [hnone] at h
    exact absurd rfl h
  · rename_i n arrivals hsome
    rw [hsome] at h
    refine ⟨min n count, Nat.pos_of_ne_zero fun hzero => h ?_, rfl, rfl⟩
    dsimp only
    rw [hzero, List.take_zero]

theorem send_answer {answer : Text} {answers : List Text} (hanswers : peer.answers = answer :: answers)
    (h : send command peer = some asked) :
    asked.pending = peer.pending ++ answer ∧ asked.answers = answers := by
  unfold send at h
  rw [hanswers] at h
  cases h
  exact ⟨rfl, rfl⟩

/-- QEMU that is asked: what is on its way to the receive that takes the reply. -/
theorem asked_stream (h : Asked parse (fun _ => some (s.peer arrivals)) vmId command asked) :
    ∃ n k value, 0 < n ∧
      parse (cString (((wire (s.greeting :: s.greeted)).drop n ++
        wire s.negotiation.messages).take k)) = some value ∧ hasReturn value = true ∧
      asked.pending = ((wire (s.greeting :: s.greeted)).drop n ++
        wire s.negotiation.messages).drop k ++ wire s.answer.messages ∧
      asked.sent = [qmpCapabilities, command] := by
  obtain ⟨peer, ready, hconnect, hand, hsend⟩ := h
  cases hconnect
  obtain ⟨hgreeting, negotiating, hnegotiate, hfound, ⟨value, hparse, hreturn⟩, rfl⟩ := hand
  obtain ⟨n, hn, _, hpending⟩ := recv_found hgreeting
  have hanswers : (recv (bufferSize - 1) (s.peer arrivals)).2.answers =
      [wire s.negotiation.messages, wire s.answer.messages] := recv_answers _ _
  obtain ⟨hnegotiating, hrest⟩ := send_answer hanswers hnegotiate
  rw [hpending] at hnegotiating
  obtain ⟨k, _, htext, hleft⟩ := recv_found hfound
  have hlast : (recv (bufferSize - 1) negotiating).2.answers = [wire s.answer.messages] := by
    rw [recv_answers, hrest]
  obtain ⟨hasked, _⟩ := send_answer hlast hsend
  refine ⟨n, k, value, hn, ?_, hreturn, ?_, ?_⟩
  · rwa [htext, hnegotiating] at hparse
  · rw [hasked, hleft, hnegotiating]
    rfl
  · rw [send_sent hsend, recv_sent, send_sent hnegotiate, recv_sent]
    rfl

/-! ### What is reported -/

theorem reads_blank (hreads : ∀ m ∈ s.messages, ReadsFirst parse m) {ws : Text} (hws : Blank ws) :
    parse ws = none := by
  have hgreeting := hreads s.greeting List.mem_cons_self
  have hnone := hgreeting.cut ws [] hws List.nil_prefix hgreeting.ne_nil.symm
  rwa [List.append_nil] at hnone

theorem answer_mem {m : Message Json} (h : m ∈ s.answer.messages) : m ∈ s.messages :=
  List.mem_cons_of_mem _ (List.mem_append_right _ (List.mem_append_right _ h))

theorem negotiation_mem {m : Message Json} (h : m ∈ s.negotiation.messages) : m ∈ s.messages :=
  List.mem_cons_of_mem _ (List.mem_append_right _ (List.mem_append_left _ h))

theorem first_mem {m : Message Json} (h : m ∈ s.greeting :: s.greeted) : m ∈ s.messages :=
  List.cons_subset_cons _ (List.subset_append_left _ _) h

/-- What is on its way up to the reply has no terminator in it. -/
theorem stream_noNul (hreads : ∀ m ∈ s.messages, ReadsFirst parse m) {n k : ℕ} :
    '\x00' ∉ ((wire (s.greeting :: s.greeted)).drop n ++ wire s.negotiation.messages).drop k ++
      wire s.answer.messages ∧
    '\x00' ∉ (wire (s.greeting :: s.greeted)).drop n ++ wire s.negotiation.messages := by
  have hfirst : '\x00' ∉ (wire (s.greeting :: s.greeted)).drop n := fun hmem =>
    wire_noNul (fun m hm => (hreads m (first_mem hm)).noNul) (List.mem_of_mem_drop hmem)
  have hnegotiation : '\x00' ∉ wire s.negotiation.messages :=
    wire_noNul fun m hm => (hreads m (negotiation_mem hm)).noNul
  have hanswer : '\x00' ∉ wire s.answer.messages :=
    wire_noNul fun m hm => (hreads m (answer_mem hm)).noNul
  have hboth : '\x00' ∉ (wire (s.greeting :: s.greeted)).drop n ++ wire s.negotiation.messages := by
    rw [List.mem_append, not_or]
    exact ⟨hfirst, hnegotiation⟩
  refine ⟨?_, hboth⟩
  rw [List.mem_append, not_or]
  exact ⟨fun hmem => hboth (List.mem_of_mem_drop hmem), hanswer⟩

theorem cString_found (hreads : ∀ m ∈ s.messages, ReadsFirst parse m)
    (h : Asked parse (fun _ => some (s.peer arrivals)) vmId command asked) {count : ℕ} :
    cString (recv count asked).1 = (recv count asked).1 := by
  obtain ⟨n, k, _, _, _, _, hpending, _⟩ := asked_stream h
  refine cString_of_noNul fun hmem => ?_
  by_cases hnone : (recv count asked).1 = []
  · rw [hnone] at hmem
    cases hmem
  · obtain ⟨j, _, htext, _⟩ := recv_found hnone
    rw [htext, hpending] at hmem
    exact (stream_noNul hreads).1 (List.mem_of_mem_take hmem)

/-- QEMU is asked: the report is right just when the reply fits, and what is read first succeeds just
when the reply does. -/
theorem answersRight_asked (hreads : ∀ m ∈ s.messages, ReadsFirst parse m)
    (h : Asked parse (fun _ => some (s.peer arrivals)) vmId command asked) :
    AnswersRight parse s arrivals vmId command stack response ↔
      (recv bufferSize asked).1.length < bufferSize ∧
        ((∃ value, parse (recv bufferSize asked).1 = some value ∧ Succeeds value) ↔
          Succeeds s.answer.reply.value) := by
  obtain ⟨_, _, _, _, _, _, _, hsent⟩ := asked_stream h
  by_cases hfits : (recv bufferSize asked).1.length < bufferSize
  · obtain ⟨exchange, hexchange, hsame, hcase⟩ :=
      @sendQemuCmd_fits _ _ _ _ _ stack response h hfits
    have hreport : ∃ reply, qmpReply parse exchange = .ok reply ∧
        (isResponseSuccess reply = true ↔
          ∃ value, parse (recv bufferSize asked).1 = some value ∧ Succeeds value) := by
      rcases hcase with ⟨hnone, hret⟩ | ⟨_, hret, hstring⟩
      · refine ⟨.failed, if_pos hret, iff_of_false (by decide) ?_⟩
        rintro ⟨value, hvalue, _⟩
        rw [hnone, reads_blank hreads blank_nil] at hvalue
        cases hvalue
      · rw [cString_found hreads h] at hstring
        rw [qmpReply, if_neg (by rw [hret]; decide), hstring, ok_bind]
        cases hparse : parse (recv bufferSize asked).1 with
        | none => exact ⟨.unparsed, rfl, iff_of_false (by decide) (by simp)⟩
        | some value => exact ⟨.json value, rfl, by simp [Succeeds]⟩
    obtain ⟨reply, hreply, hsuccess⟩ := hreport
    rw [hsent] at hsame
    constructor
    · rintro ⟨exchange', reply', hexchange', hreply', hright⟩
      rw [hexchange] at hexchange'
      cases hexchange'
      rw [hreply] at hreply'
      cases hreply'
      rw [hsuccess, hsame] at hright
      exact ⟨hfits, by simpa using hright⟩
    · rintro ⟨_, hright⟩
      refine ⟨exchange, reply, hexchange, hreply, ?_⟩
      rw [hsuccess, hsame, hright]
      simp
  · refine iff_of_false ?_ fun hright => hfits hright.1
    rintro ⟨exchange, _, hexchange, _⟩
    rw [sendQemuCmd_overflow h hfits] at hexchange
    cases hexchange

/-- A command that QEMU does not get is reported as failed, rightly. -/
theorem answersRight_unasked
    (h : ∀ asked, ¬ Asked parse (fun _ => some (s.peer arrivals)) vmId command asked) :
    AnswersRight parse s arrivals vmId command stack response := by
  obtain ⟨exchange, hexchange, hret, hsent⟩ := @sendQemuCmd_unasked _ _ _ _ stack response h
  refine ⟨exchange, .failed, hexchange, if_pos hret, iff_of_false (by decide) ?_⟩
  rintro ⟨hboth, _⟩
  have hone := hsent (s.peer arrivals) rfl
  rw [hboth] at hone
  simp [Session.peer] at hone

/-- Where no reply hides in another message, only events are left in front of the answer once QEMU is
asked. -/
theorem asked_left (hreads : ∀ m ∈ s.messages, ReadsFirst parse m)
    (hplain : ∀ m ∈ s.messages, Plain parse hasReturn m)
    (h : Asked parse (fun _ => some (s.peer arrivals)) vmId command asked) :
    ∃ late, late <:+ s.negotiation.after ∧
      Left parse hasReturn asked.pending (late ++ s.answer.messages) := by
  obtain ⟨n, k, value, hn, hparse, hreturn, hpending, _⟩ := asked_stream h
  obtain ⟨greeted, hgreeted, hleft⟩ :=
    left_wire_drop (fun m hm => hplain m (first_mem hm)) hn
  have hboth := hleft.append s.negotiation.messages
  have hmem : ∀ m ∈ greeted ++ s.negotiation.messages, m ∈ s.messages := by
    intro m hm
    rcases List.mem_append.mp hm with hm | hm
    · exact first_mem (List.mem_cons_of_mem _ (hgreeted.subset hm))
    · exact negotiation_mem hm
  have htext : '\x00' ∉ ((wire (s.greeting :: s.greeted)).drop n ++
      wire s.negotiation.messages).take k :=
    fun hnul => (stream_noNul hreads (k := 0)).2 (List.mem_of_mem_take hnul)
  rw [cString_of_noNul htext] at hparse
  obtain ⟨m, ms, hhead, rfl, _, late, hlate, hrest⟩ := hboth.marked_first
    (fun ws hws => reads_blank hreads hws) (fun m hm => hreads m (hmem m hm))
    (fun m hm => hplain m (hmem m hm)) hparse hreturn
  have hsuffix : m :: ms <:+ (s.greeted ++ s.negotiation.before) ++
      s.negotiation.reply :: s.negotiation.after := by
    rw [← hhead, List.append_assoc]
    exact List.suffix_append_self_iff.mpr hgreeted
  have hbefore : ∀ e ∈ s.greeted ++ s.negotiation.before, hasReturn e.value = false := by
    intro e he
    rcases List.mem_append.mp he with he | he
    · exact isEvent_noReturn (s.events e he)
    · exact isEvent_noReturn (s.negotiation.events e (List.mem_append_left _ he))
  obtain ⟨_, rfl⟩ := marked_head hbefore
    (fun e he => isEvent_noReturn (s.negotiation.events e (List.mem_append_right _ he)))
    hreturn hsuffix
  refine ⟨late, hlate, ?_⟩
  rw [hpending]
  exact hrest.append s.answer.messages

/-- Where no reply hides in another message, what succeeds is the reply itself. -/
theorem succeeds_first (hreads : ∀ m ∈ s.messages, ReadsFirst parse m)
    (hplain : ∀ m ∈ s.messages, Plain parse hasReturn m)
    (h : Asked parse (fun _ => some (s.peer arrivals)) vmId command asked) {value : Json}
    (hparse : parse (recv bufferSize asked).1 = some value) (hsucceeds : Succeeds value) :
    value = s.answer.reply.value ∧ Begins s.answer.reply.body (recv bufferSize asked).1 := by
  obtain ⟨late, hlate, hleft⟩ := asked_left hreads hplain h
  have hmem : ∀ m ∈ late ++ s.answer.messages, m ∈ s.messages := by
    intro m hm
    rcases List.mem_append.mp hm with hm | hm
    · exact negotiation_mem (List.mem_append_right _ (List.mem_cons_of_mem _ (hlate.subset hm)))
    · exact answer_mem hm
  have hfound : (recv bufferSize asked).1 ≠ [] := by
    intro hnone
    rw [hnone, reads_blank hreads blank_nil] at hparse
    cases hparse
  obtain ⟨k, _, htext, _⟩ := recv_found hfound
  rw [htext] at hparse ⊢
  obtain ⟨m, ms, hhead, rfl, hbegins, _⟩ := hleft.marked_first
    (fun ws hws => reads_blank hreads hws) (fun m hm => hreads m (hmem m hm))
    (fun m hm => hplain m (hmem m hm)) hparse (succeeds_hasReturn hsucceeds)
  have hsuffix : m :: ms <:+ (late ++ s.answer.before) ++ s.answer.reply :: s.answer.after := by
    rw [← hhead, List.append_assoc]
    exact List.suffix_rfl
  have hbefore : ∀ e ∈ late ++ s.answer.before, hasReturn e.value = false := by
    intro e he
    rcases List.mem_append.mp he with he | he
    · exact isEvent_noReturn (s.negotiation.events e (List.mem_append_right _ (hlate.subset he)))
    · exact isEvent_noReturn (s.answer.events e (List.mem_append_left _ he))
  obtain ⟨rfl, _⟩ := marked_head hbefore
    (fun e he => isEvent_noReturn (s.answer.events e (List.mem_append_right _ he)))
    (succeeds_hasReturn hsucceeds) hsuffix
  exact ⟨rfl, hbegins⟩

/-- A receive that begins with the reply is read as the reply. -/
theorem begins_reply (hreads : ∀ m ∈ s.messages, ReadsFirst parse m) {t : Text}
    (h : Begins s.answer.reply.body t) : parse t = some s.answer.reply.value := by
  obtain ⟨ws, rest, hws, rfl⟩ := h
  have hmem : s.answer.reply ∈ s.answer.messages :=
    List.mem_append_right _ List.mem_cons_self
  exact (hreads _ (answer_mem hmem)).whole ws rest hws

/-- Once QEMU is asked, the next receive leaves room for its terminator, and begins with the reply; where
the reply is no success it is enough that no message hides a value with a return member inside it. -/
def ReplyReceived (parse : Text → Option Json) (s : Session) (arrivals : List ℕ) (vmId : ℤ)
    (command : Text) : Prop :=
  ∀ asked, Asked parse (fun _ => some (s.peer arrivals)) vmId command asked →
    (recv bufferSize asked).1.length < bufferSize ∧
      (Begins s.answer.reply.body (recv bufferSize asked).1 ∨
        ¬ Succeeds s.answer.reply.value ∧ ∀ m ∈ s.messages, Plain parse hasReturn m)

/-- A failure is reported as one where no reply hides inside a message. -/
theorem answersRight_failure (hreads : ∀ m ∈ s.messages, ReadsFirst parse m)
    (hplain : ∀ m ∈ s.messages, Plain parse hasReturn m) (hfails : ¬ Succeeds s.answer.reply.value)
    (hasked : Asked parse (fun _ => some (s.peer arrivals)) vmId command asked)
    (hfits : (recv bufferSize asked).1.length < bufferSize) :
    AnswersRight parse s arrivals vmId command stack response := by
  refine (answersRight_asked hreads hasked).mpr ⟨hfits, ?_, fun hsucceeds => absurd hsucceeds hfails⟩
  rintro ⟨value, hparse, hvalue⟩
  exact (succeeds_first hreads hplain hasked hparse hvalue).1 ▸ hvalue

/-- The report is right where the receive after the command takes the reply; where no reply hides inside
another message, it is right only there. -/
theorem answersRight_iff (hreads : ∀ m ∈ s.messages, ReadsFirst parse m) :
    (ReplyReceived parse s arrivals vmId command →
      AnswersRight parse s arrivals vmId command stack response) ∧
    ((∀ m ∈ s.messages, Plain parse hasReturn m) →
      AnswersRight parse s arrivals vmId command stack response →
        ReplyReceived parse s arrivals vmId command) := by
  constructor
  · intro hreceived
    by_cases hasked : ∃ asked, Asked parse (fun _ => some (s.peer arrivals)) vmId command asked
    · obtain ⟨asked, hasked⟩ := hasked
      obtain ⟨hfits, hbegins | ⟨hfails, hplain⟩⟩ := hreceived asked hasked
      · refine (answersRight_asked hreads hasked).mpr ⟨hfits, ?_⟩
        rw [begins_reply hreads hbegins]
        simp
      · exact answersRight_failure hreads hplain hfails hasked hfits
    · exact answersRight_unasked (not_exists.mp hasked)
  · intro hplain hright asked hasked
    obtain ⟨hfits, hreport⟩ := (answersRight_asked hreads hasked).mp hright
    refine ⟨hfits, ?_⟩
    by_cases hsucceeds : Succeeds s.answer.reply.value
    · obtain ⟨value, hparse, hvalue⟩ := hreport.mpr hsucceeds
      exact .inl (succeeds_first hreads hplain hasked hparse hvalue).2
    · exact .inr ⟨hsucceeds, hplain⟩

/-! ### An event before the reply -/

def greetingMessage : Message Json :=
  ⟨"\x7b\"QMP\": \x7b\x7d\x7d".toList, .obj [("QMP".toList, .obj [])]⟩

def okMessage : Message Json :=
  ⟨"\x7b\"return\": \x7b\x7d\x7d".toList, .obj [("return".toList, .obj [])]⟩

def resumeEvent : Message Json :=
  ⟨"\x7b\"event\": \"RESUME\"\x7d".toList, .obj [("event".toList, .str "RESUME".toList)]⟩

theorem resumeEvent_isEvent : isEvent resumeEvent.value = true := by rfl

/-- A session in which the command succeeds, after an event. -/
def eventSession : Session where
  greeting := greetingMessage
  greeted := []
  negotiation := ⟨[], okMessage, [], by simp⟩
  answer := ⟨[resumeEvent], okMessage, [], by simp [resumeEvent_isEvent]⟩
  events := by simp

def readEvent : Text → Option Json := readTable [greetingMessage, okMessage, resumeEvent]

theorem readEvent_reads : ∀ m ∈ eventSession.messages, ReadsFirst readEvent m := by
  intro m hm
  refine readTable_reads (by decide) (by decide) (by decide) ?_
  simp only [eventSession, Session.messages, Answer.messages, List.nil_append, List.cons_append,
    List.mem_cons, List.not_mem_nil, or_false] at hm ⊢
  tauto

/-- A session whose receives take one message each but for the last, which takes the event and the
reply. -/
theorem answersRight_iff_event :
    (ReplyReceived readEvent eventSession [13, 16, 37] 0 [] →
      AnswersRight readEvent eventSession [13, 16, 37] 0 [] (zeroed bufferSize)
        (zeroed bufferSize)) ∧
    ((∀ m ∈ eventSession.messages, Plain readEvent hasReturn m) →
      AnswersRight readEvent eventSession [13, 16, 37] 0 [] (zeroed bufferSize)
          (zeroed bufferSize) →
        ReplyReceived readEvent eventSession [13, 16, 37] 0 []) :=
  answersRight_iff readEvent_reads

/-- Each receive takes one message: greeting, reply, event. The command succeeds in QEMU, and is
reported as failed. -/
theorem answersRight_fails_event :
    Succeeds eventSession.answer.reply.value ∧
      ¬ AnswersRight readEvent eventSession [13, 16, 21] 0 "\x7b\x7d".toList (zeroed bufferSize)
        (zeroed bufferSize) := by
  have hrun : (do
      let exchange ← sendQemuCmd readEvent (fun _ => some (eventSession.peer [13, 16, 21]))
        (zeroed bufferSize) 0 "\x7b\x7d".toList (zeroed bufferSize)
      let reply ← qmpReply readEvent exchange
      Except.ok (isResponseSuccess reply, exchange.sent) : Outcome (Bool × List Text)) =
      .ok (false, [qmpCapabilities, "\x7b\x7d".toList]) := by rfl
  have hsucceeds : Succeeds eventSession.answer.reply.value := by
    unfold Succeeds
    rfl
  refine ⟨hsucceeds, ?_⟩
  rintro ⟨exchange, reply, hexchange, hreply, hright⟩
  rw [hexchange, ok_bind, hreply, ok_bind] at hrun
  obtain ⟨hfailed, hsent⟩ := Prod.mk.inj (Except.ok.inj hrun)
  rw [hfailed] at hright
  exact absurd (hright.mpr ⟨hsent, hsucceeds⟩) (by decide)

end Ramryder.QmpStream
