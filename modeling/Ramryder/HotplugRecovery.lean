import Ramryder.MemdevIndex

/-! What a failed hot-plug or hot-unplug leaves in QEMU. Each is two commands, and QEMU may refuse
either of them. -/
namespace Ramryder.HotplugRecovery
open CInt CText MemdevIndex MemoryPool QemuAgent QemuBackend ResourceManager

/-! ### The two commands against a QEMU with a state -/

section
variable {σ : Type*} (server : σ → Json → QmpReply × σ)

/-- The replies of a QEMU whose state `σ` a command may change. -/
def sendCommandTo (q : σ) (command : Json) : ℤ × σ :=
  let (reply, q) := server q command
  (if isResponseSuccess reply then 0 else -1, q)

def hotplugMemory (q : σ) (request : HotplugRequest) : ℤ × σ :=
  let (ret, q) := sendCommandTo server q (objectAdd request)
  if ret < 0 then (-1, q)
  else
    let (ret, q) := sendCommandTo server q (deviceAdd request)
    if ret < 0 then (-1, q) else (0, q)

def hotunplugMemory (q : σ) (request : HotunplugRequest) : ℤ × σ :=
  let (ret, q) := sendCommandTo server q (deviceDel request)
  if ret < 0 then (-1, q)
  else
    let (ret, q) := sendCommandTo server q (objectDel request)
    if ret < 0 then (-1, q) else (0, q)

end

/-- Where the replies do not depend on the state, these are the functions of the QMP client. -/
theorem hotplugMemory_stateless (qmp : Qmp) (vmId : ℤ) (request : HotplugRequest) :
    (hotplugMemory (fun (_ : Unit) command => (qmp vmId command, ())) () request).1 =
      qemuAgentHotplugMemory qmp vmId request := by
  simp only [hotplugMemory, sendCommandTo, qemuAgentHotplugMemory, qemuAgentCreateObject,
    qemuAgentAddDevice, sendCommand]
  split_ifs <;> rfl

theorem hotunplugMemory_stateless (qmp : Qmp) (vmId : ℤ) (request : HotunplugRequest) :
    (hotunplugMemory (fun (_ : Unit) command => (qmp vmId command, ())) () request).1 =
      qemuAgentHotunplugMemory qmp vmId request := by
  simp only [hotunplugMemory, sendCommandTo, qemuAgentHotunplugMemory, qemuAgentDelDevice,
    qemuAgentFreeObject, sendCommand]
  split_ifs <;> rfl

/-! ### QEMU -/

/-- The ids of the objects, and of the devices each with the object it is backed by. -/
structure Qemu where
  objects : Finset Text
  devices : Finset (Text × Text)
  backed : ∀ d ∈ devices, d.2 ∈ objects

def Qemu.addObject (q : Qemu) (id : Text) : Qemu where
  objects := insert id q.objects
  devices := q.devices
  backed := fun d hd => Finset.mem_insert_of_mem (q.backed d hd)

def Qemu.addDevice (q : Qemu) (id memdev : Text) (h : memdev ∈ q.objects) : Qemu where
  objects := q.objects
  devices := insert (id, memdev) q.devices
  backed := fun d hd => by
    rcases Finset.mem_insert.mp hd with rfl | hd
    · exact h
    · exact q.backed d hd

def Qemu.delDevice (q : Qemu) (id : Text) : Qemu where
  objects := q.objects
  devices := q.devices.filter fun d => d.1 ≠ id
  backed := fun d hd => q.backed d (Finset.mem_of_mem_filter d hd)

def Qemu.delObject (q : Qemu) (id : Text) (h : ∀ d ∈ q.devices, d.2 ≠ id) : Qemu where
  objects := q.objects.erase id
  devices := q.devices
  backed := fun d hd => Finset.mem_erase.mpr ⟨h d hd, q.backed d hd⟩

def argument (command : Json) (key : String) : Option Text :=
  (jsonField "arguments" command).bind fun arguments => (jsonField key arguments).bind jsonText

/-- What a command does when it takes effect, `none` where it cannot: an id is used once, and an
object backs one device and stays while it does. -/
def effect (q : Qemu) (command : Json) : Option Qemu := do
  let execute ← (jsonField "execute" command).bind jsonText
  let id ← argument command "id"
  if execute = "object-add".toList then
    if id ∈ q.objects then none else some (q.addObject id)
  else if execute = "device_add".toList then do
    let memdev ← argument command "memdev"
    if h : memdev ∈ q.objects then
      if ∃ d ∈ q.devices, d.1 = id ∨ d.2 = memdev then none else some (q.addDevice id memdev h)
    else none
  else if execute = "device_del".toList then
    if ∃ d ∈ q.devices, d.1 = id then some (q.delDevice id) else none
  else if execute = "object-del".toList then
    if id ∈ q.objects then
      if h : ∀ d ∈ q.devices, d.2 ≠ id then some (q.delObject id h) else none
    else none
  else none

def returned : QmpReply := .json (.obj [("return".toList, .obj [])])

def refused : QmpReply := .json (.obj [("error".toList, .obj [])])

/-- QEMU and what it will make of the commands to come: `true` for one it is ready to carry out. -/
structure Server where
  qemu : Qemu
  outcomes : List Bool

/-- What becomes of the next command: the changed QEMU where it takes effect. -/
def Server.next (s : Server) (command : Json) : Option Qemu :=
  if s.outcomes.head? = some true then effect s.qemu command else none

def serve (s : Server) (command : Json) : QmpReply × Server :=
  match s.next command with
  | some q => (returned, ⟨q, s.outcomes.tail⟩)
  | none => (refused, ⟨s.qemu, s.outcomes.tail⟩)

/-! ### Each command -/

variable {q : Qemu} {s : Server}

theorem qmpCommand_execute (execute : String) (arguments : List (String × Json)) :
    (jsonField "execute" (qmpCommand execute arguments)).bind jsonText = some execute.toList := by
  simp [qmpCommand, jsonField, jsonText, List.lookup]

theorem argument_qmpCommand (execute : String) (arguments : List (String × Json)) (key : String) :
    argument (qmpCommand execute arguments) key = (arguments.lookup key).bind jsonText := by
  have hlookup : (arguments.map fun field => (field.1.toList, field.2)).lookup key.toList =
      arguments.lookup key := by
    induction arguments with
    | nil => rfl
    | cons field arguments ih =>
      have hkey : (key.toList == field.1.toList) = (key == field.1) := by
        rw [Bool.eq_iff_iff, beq_iff_eq, beq_iff_eq, String.toList_inj]
      rw [List.map_cons, List.lookup_cons, List.lookup_cons, hkey, ih]
  rw [← hlookup]
  simp [argument, qmpCommand, jsonField, List.lookup]

theorem objectAdd_id (request : HotplugRequest) :
    argument (objectAdd request) "id" = some request.memdevId := by
  simp [objectAdd, argument_qmpCommand, List.lookup, jsonText]

theorem deviceAdd_id (request : HotplugRequest) :
    argument (deviceAdd request) "id" = some request.dimmId := by
  simp [deviceAdd, argument_qmpCommand, List.lookup, jsonText]

theorem deviceAdd_memdev (request : HotplugRequest) :
    argument (deviceAdd request) "memdev" = some request.memdevId := by
  simp [deviceAdd, argument_qmpCommand, List.lookup, jsonText]

theorem deviceDel_id (request : HotunplugRequest) :
    argument (deviceDel request) "id" = some request.dimmId := by
  simp [deviceDel, argument_qmpCommand, jsonText]

theorem objectDel_id (request : HotunplugRequest) :
    argument (objectDel request) "id" = some request.memdevId := by
  simp [objectDel, argument_qmpCommand, jsonText]

theorem effect_objectAdd (q : Qemu) (request : HotplugRequest) : effect q (objectAdd request) =
    if request.memdevId ∈ q.objects then none else some (q.addObject request.memdevId) := by
  rw [effect, objectAdd_id, objectAdd, qmpCommand_execute]
  rfl

theorem effect_deviceAdd (q : Qemu) (request : HotplugRequest) : effect q (deviceAdd request) =
    if h : request.memdevId ∈ q.objects then
      if ∃ d ∈ q.devices, d.1 = request.dimmId ∨ d.2 = request.memdevId then none
      else some (q.addDevice request.dimmId request.memdevId h)
    else none := by
  rw [effect, deviceAdd_id, deviceAdd_memdev, deviceAdd, qmpCommand_execute]
  rfl

theorem effect_deviceDel (q : Qemu) (request : HotunplugRequest) : effect q (deviceDel request) =
    if ∃ d ∈ q.devices, d.1 = request.dimmId then some (q.delDevice request.dimmId) else none := by
  rw [effect, deviceDel_id, deviceDel, qmpCommand_execute]
  rfl

theorem effect_objectDel (q : Qemu) (request : HotunplugRequest) : effect q (objectDel request) =
    if request.memdevId ∈ q.objects then
      if h : ∀ d ∈ q.devices, d.2 ≠ request.memdevId then some (q.delObject request.memdevId h)
      else none
    else none := by
  rw [effect, objectDel_id, objectDel, qmpCommand_execute]
  rfl

theorem sendCommandTo_taken {command : Json} (h : s.next command = some q) :
    sendCommandTo serve s command = (0, ⟨q, s.outcomes.tail⟩) := by
  simp [sendCommandTo, serve, h, returned, isResponseSuccess, List.lookup]

theorem sendCommandTo_refused {command : Json} (h : s.next command = none) :
    sendCommandTo serve s command = (-1, ⟨s.qemu, s.outcomes.tail⟩) := by
  simp [sendCommandTo, serve, h, refused, isResponseSuccess, List.lookup]

theorem Server.next_ready (q : Qemu) (outcomes : List Bool) (command : Json) :
    (Server.mk q (true :: outcomes)).next command = effect q command := by
  simp [Server.next]

theorem Server.effect_of_next {command : Json} (h : s.next command = some q) :
    effect s.qemu command = some q := by
  rw [Server.next] at h
  split_ifs at h
  exact h

/-- What a hot-plug does, by the number of commands that took effect. -/
theorem hotplugMemory_cases (s : Server) (request : HotplugRequest) :
    (s.next (objectAdd request) = none ∧ (hotplugMemory serve s request).1 = -1 ∧
      (hotplugMemory serve s request).2.qemu = s.qemu) ∨
    ∃ q, s.next (objectAdd request) = some q ∧
      (((Server.mk q s.outcomes.tail).next (deviceAdd request) = none ∧
          (hotplugMemory serve s request).1 = -1 ∧ (hotplugMemory serve s request).2.qemu = q) ∨
        ∃ q', (Server.mk q s.outcomes.tail).next (deviceAdd request) = some q' ∧
          (hotplugMemory serve s request).1 = 0 ∧ (hotplugMemory serve s request).2.qemu = q') := by
  cases hobject : s.next (objectAdd request) with
  | none => exact .inl ⟨rfl, by simp [hotplugMemory, sendCommandTo_refused hobject],
      by simp [hotplugMemory, sendCommandTo_refused hobject]⟩
  | some q =>
    refine .inr ⟨q, rfl, ?_⟩
    simp only [hotplugMemory, sendCommandTo_taken hobject]
    cases hdevice : (Server.mk q s.outcomes.tail).next (deviceAdd request) with
    | none => exact .inl ⟨rfl, by simp [sendCommandTo_refused hdevice],
        by simp [sendCommandTo_refused hdevice]⟩
    | some q' => exact .inr ⟨q', rfl, by simp [sendCommandTo_taken hdevice],
        by simp [sendCommandTo_taken hdevice]⟩

theorem hotunplugMemory_cases (s : Server) (request : HotunplugRequest) :
    (s.next (deviceDel request) = none ∧ (hotunplugMemory serve s request).1 = -1 ∧
      (hotunplugMemory serve s request).2.qemu = s.qemu) ∨
    ∃ q, s.next (deviceDel request) = some q ∧
      (((Server.mk q s.outcomes.tail).next (objectDel request) = none ∧
          (hotunplugMemory serve s request).1 = -1 ∧
          (hotunplugMemory serve s request).2.qemu = q) ∨
        ∃ q', (Server.mk q s.outcomes.tail).next (objectDel request) = some q' ∧
          (hotunplugMemory serve s request).1 = 0 ∧
          (hotunplugMemory serve s request).2.qemu = q') := by
  cases hdevice : s.next (deviceDel request) with
  | none => exact .inl ⟨rfl, by simp [hotunplugMemory, sendCommandTo_refused hdevice],
      by simp [hotunplugMemory, sendCommandTo_refused hdevice]⟩
  | some q =>
    refine .inr ⟨q, rfl, ?_⟩
    simp only [hotunplugMemory, sendCommandTo_taken hdevice]
    cases hobject : (Server.mk q s.outcomes.tail).next (objectDel request) with
    | none => exact .inl ⟨rfl, by simp [sendCommandTo_refused hobject],
        by simp [sendCommandTo_refused hobject]⟩
    | some q' => exact .inr ⟨q', rfl, by simp [sendCommandTo_taken hobject],
        by simp [sendCommandTo_taken hobject]⟩

/-! ### Calls of the manager -/

/-- The calls the manager makes for a memory device: the ids come from `memid`. -/
inductive Call
  | attach (memid nid : ℤ) (req : MemoryRequest)
  | detach (memid : ℤ)

def Call.memid : Call → ℤ
  | .attach memid _ _ => memid
  | .detach memid => memid

def call (s : Server) : Call → ℤ × Server
  | .attach memid nid req => hotplugMemory serve s (hotplugRequest memid nid req)
  | .detach memid => hotunplugMemory serve s ⟨dimmId memid, memdevId memid⟩

def afterCalls (s : Server) (calls : List Call) : Server :=
  calls.foldl (fun s c => (call s c).2) s

/-- Some later tries of the removal, with some outcomes of their commands, end in one that goes through. -/
def CanComplete (q : Qemu) (memid : ℤ) : Prop :=
  ∃ outcomes n,
    (call (afterCalls ⟨q, outcomes⟩ (List.replicate n (.detach memid))) (.detach memid)).1 = 0

/-- A failed hot-plug has changed nothing, and after a failed hot-unplug that has changed something
the removal can still be completed. -/
def Recoverable (s : Server) (c : Call) : Prop :=
  (call s c).1 = -1 →
    match c with
    | .attach .. => (call s c).2.qemu = s.qemu
    | .detach memid => (call s c).2.qemu = s.qemu ∨ CanComplete (call s c).2.qemu memid

/-- The first command takes effect and the second does not. -/
def HalfDone (s : Server) : Call → Prop
  | .attach memid nid req =>
    ∃ q, s.next (objectAdd (hotplugRequest memid nid req)) = some q ∧
      (Server.mk q s.outcomes.tail).next (deviceAdd (hotplugRequest memid nid req)) = none
  | .detach memid =>
    ∃ q, s.next (deviceDel ⟨dimmId memid, memdevId memid⟩) = some q ∧
      (Server.mk q s.outcomes.tail).next (objectDel ⟨dimmId memid, memdevId memid⟩) = none

/-- QEMU has no device for the memory. -/
def Unplugged (q : Qemu) (memid : ℤ) : Prop := ∀ d ∈ q.devices, d.1 ≠ dimmId memid

/-- Step lemma: a removal without a device to remove fails, and changes nothing. -/
theorem unplugged_detach {memid : ℤ} (h : Unplugged s.qemu memid) :
    (call s (.detach memid)).1 = -1 ∧ (call s (.detach memid)).2.qemu = s.qemu := by
  rw [call]
  rcases hotunplugMemory_cases s ⟨dimmId memid, memdevId memid⟩ with ⟨_, hret, hq⟩ | ⟨q, hnext, _⟩
  · exact ⟨hret, hq⟩
  · have heffect := Server.effect_of_next hnext
    rw [effect_deviceDel] at heffect
    split_ifs at heffect with hthere
    obtain ⟨d, hd, heq⟩ := hthere
    exact absurd heq (h d hd)

/-- Run lemma: however often the removal is tried again, it is never completed. -/
theorem unplugged_forever {memid : ℤ} (h : Unplugged q memid) : ¬ CanComplete q memid := by
  rintro ⟨outcomes, n, hret⟩
  have hrun : ∀ (n : ℕ) (s : Server), Unplugged s.qemu memid →
      Unplugged (afterCalls s (List.replicate n (.detach memid))).qemu memid := by
    intro n
    induction n with
    | zero => exact fun s hs => hs
    | succ n ih =>
      intro s hs
      refine ih _ ?_
      rw [(unplugged_detach hs).2]
      exact hs
  rw [(unplugged_detach (hrun n ⟨q, outcomes⟩ h)).1] at hret
  cases hret

/-! ### An object without its device -/

/-- The object of the memory is there and its device is not. -/
def Stranded (q : Qemu) (memid : ℤ) : Prop :=
  memdevId memid ∈ q.objects ∧ Unplugged q memid

/-- Step lemma: no call takes a stranded object away, and none for its memory succeeds. -/
theorem stranded_call {memid : ℤ} {c : Call} (hmemid : InInt memid) (hc : InInt c.memid)
    (h : Stranded s.qemu memid) :
    Stranded (call s c).2.qemu memid ∧ (c.memid = memid → (call s c).1 = -1) := by
  obtain ⟨hobject, hdevice⟩ := h
  cases c with
  | attach memid' nid req =>
    rw [call]
    rcases hotplugMemory_cases s (hotplugRequest memid' nid req) with
      ⟨_, hret, hq⟩ | ⟨q, hnext, hrest⟩
    · rw [hq]
      exact ⟨⟨hobject, hdevice⟩, fun _ => hret⟩
    · have heffect := Server.effect_of_next hnext
      rw [effect_objectAdd] at heffect
      split_ifs at heffect with hfresh
      cases heffect
      have hne : memid' ≠ memid := by
        rintro rfl
        exact hfresh hobject
      refine ⟨?_, fun heq => absurd heq hne⟩
      have hadded : Stranded (s.qemu.addObject (hotplugRequest memid' nid req).memdevId) memid :=
        ⟨Finset.mem_insert_of_mem hobject, hdevice⟩
      rcases hrest with ⟨_, _, hq⟩ | ⟨q', hnext', _, hq⟩
      · rw [hq]
        exact hadded
      · have heffect' := Server.effect_of_next hnext'
        rw [effect_deviceAdd] at heffect'
        split_ifs at heffect'
        cases heffect'
        rw [hq]
        refine ⟨hadded.1, fun d hd => ?_⟩
        rcases Finset.mem_insert.mp hd with rfl | hd
        · exact fun heq => hne ((separateIds hc hmemid).dimm heq)
        · exact hdevice d hd
  | detach memid' =>
    rw [call]
    rcases hotunplugMemory_cases s ⟨dimmId memid', memdevId memid'⟩ with
      ⟨_, hret, hq⟩ | ⟨q, hnext, hrest⟩
    · rw [hq]
      exact ⟨⟨hobject, hdevice⟩, fun _ => hret⟩
    · have heffect := Server.effect_of_next hnext
      rw [effect_deviceDel] at heffect
      split_ifs at heffect with hthere
      cases heffect
      have hne : memid' ≠ memid := by
        rintro rfl
        obtain ⟨d, hd, heq⟩ := hthere
        exact hdevice d hd heq
      refine ⟨?_, fun heq => absurd heq hne⟩
      have hdeleted : Stranded (s.qemu.delDevice (dimmId memid')) memid :=
        ⟨hobject, fun d hd => hdevice d (Finset.mem_of_mem_filter d hd)⟩
      rcases hrest with ⟨_, _, hq⟩ | ⟨q', hnext', _, hq⟩
      · rw [hq]
        exact hdeleted
      · have heffect' := Server.effect_of_next hnext'
        rw [effect_objectDel] at heffect'
        split_ifs at heffect'
        cases heffect'
        rw [hq]
        exact ⟨Finset.mem_erase.mpr ⟨fun heq => hne ((separateIds hmemid hc).memdev heq).symm,
          hdeleted.1⟩, hdeleted.2⟩

/-- Run lemma: whatever calls the manager makes, a stranded object stays and no call for its memory
succeeds again. -/
theorem stranded_forever {memid : ℤ} {calls : List Call} {c : Call} (hmemid : InInt memid)
    (hcalls : ∀ c ∈ calls, InInt c.memid) (hc : c.memid = memid) (h : Stranded s.qemu memid) :
    Stranded (afterCalls s calls).qemu memid ∧ (call (afterCalls s calls) c).1 = -1 := by
  induction calls generalizing s with
  | nil => exact ⟨h, (stranded_call hmemid (hc ▸ hmemid) h).2 hc⟩
  | cons c' calls ih =>
    exact ih (fun d hd => hcalls d (List.mem_cons_of_mem _ hd))
      (stranded_call hmemid (hcalls c' List.mem_cons_self) h).1

/-! ### A failed call -/

theorem HalfDone.not_recoverable {c : Call} (h : HalfDone s c) : ¬ Recoverable s c := by
  cases c with
  | attach memid nid req =>
    obtain ⟨q, hobject, hdevice⟩ := h
    have heffect := Server.effect_of_next hobject
    rw [effect_objectAdd] at heffect
    split_ifs at heffect with hfresh
    cases heffect
    intro hrec
    rcases hotplugMemory_cases s (hotplugRequest memid nid req) with
      ⟨hnone, _⟩ | ⟨q', hnext, hrest⟩
    · rw [hobject] at hnone
      cases hnone
    · rw [hobject] at hnext
      cases hnext
      rcases hrest with ⟨_, hret, hq⟩ | ⟨q', hnext', _⟩
      · have hsame := hq.symm.trans (hrec hret)
        exact hfresh (hsame ▸ Finset.mem_insert_self _ _)
      · rw [hdevice] at hnext'
        cases hnext'
  | detach memid =>
    obtain ⟨q, hdevice, hobject⟩ := h
    have heffect := Server.effect_of_next hdevice
    rw [effect_deviceDel] at heffect
    split_ifs at heffect with hplugged
    cases heffect
    have hgone : Unplugged (s.qemu.delDevice (dimmId memid)) memid :=
      fun d hd => (Finset.mem_filter.mp hd).2
    intro hrec
    rcases hotunplugMemory_cases s ⟨dimmId memid, memdevId memid⟩ with
      ⟨hnone, _⟩ | ⟨q', hnext, hrest⟩
    · rw [hdevice] at hnone
      cases hnone
    · rw [hdevice] at hnext
      cases hnext
      rcases hrest with ⟨_, hret, hq⟩ | ⟨q', hnext', _⟩
      · rcases hrec hret with hsame | hcomplete
        · obtain ⟨d, hd, heq⟩ := hplugged
          have hback : s.qemu.delDevice (dimmId memid) = s.qemu := hq.symm.trans hsame
          rw [← hback] at hd
          exact hgone d hd heq
        · rw [call, hq] at hcomplete
          exact unplugged_forever hgone hcomplete
      · rw [hobject] at hnext'
        cases hnext'

/-- For every state of QEMU and all outcomes: a failed call can be made good exactly where it did not
stop between its two commands. -/
theorem recoverable_iff (s : Server) (c : Call) : Recoverable s c ↔ ¬ HalfDone s c := by
  refine ⟨fun hrec hhalf => hhalf.not_recoverable hrec, fun hwhole hret => ?_⟩
  cases c with
  | attach memid nid req =>
    rcases hotplugMemory_cases s (hotplugRequest memid nid req) with
      ⟨_, _, hq⟩ | ⟨q, hnext, ⟨hnext', _⟩ | ⟨q', _, hzero, _⟩⟩
    · exact hq
    · exact absurd ⟨q, hnext, hnext'⟩ hwhole
    · rw [call, hzero] at hret
      cases hret
  | detach memid =>
    rcases hotunplugMemory_cases s ⟨dimmId memid, memdevId memid⟩ with
      ⟨_, _, hq⟩ | ⟨q, hnext, ⟨hnext', _⟩ | ⟨q', _, hzero, _⟩⟩
    · exact .inl hq
    · exact absurd ⟨q, hnext, hnext'⟩ hwhole
    · rw [call, hzero] at hret
      cases hret

/-- An empty QEMU that takes the object and refuses its device. -/
def emptyQemu : Qemu := ⟨∅, ∅, by simp⟩

/-- A QEMU with one memory device plugged in. -/
def pluggedQemu : Qemu :=
  ⟨{memdevId 0}, {(dimmId 0, memdevId 0)}, by simp⟩

/-- Neither call can be made good when QEMU takes its first command and refuses the second. -/
theorem recoverable_fails_secondRefused :
    ¬ Recoverable ⟨emptyQemu, [true, false]⟩ (.attach 0 0 ⟨0, [], 0, 0, 0⟩) ∧
      ¬ Recoverable ⟨pluggedQemu, [true, false]⟩ (.detach 0) := by
  constructor
  · refine HalfDone.not_recoverable ⟨emptyQemu.addObject (memdevId 0), ?_, rfl⟩
    rw [Server.next_ready, effect_objectAdd]
    exact if_neg (by simp [emptyQemu])
  · refine HalfDone.not_recoverable ⟨pluggedQemu.delDevice (dimmId 0), ?_, rfl⟩
    rw [Server.next_ready, effect_deviceDel]
    exact if_pos ⟨_, Finset.mem_singleton_self _, rfl⟩

end Ramryder.HotplugRecovery
