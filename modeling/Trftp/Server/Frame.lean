import Trftp.Server.Threads

/-!
# What a statement leaves alone

Each party writes few members. These lemmas say which ones, once for each party, so that
an invariant looks into a step only where the step touches what the invariant is about.
-/

namespace Trftp

open Lib (EventMachine)

/-- The events that the loop of the sender thread reports. -/
def ServerEvent.ofLoop : ServerEvent → Bool
  | .iteration | .checked | .transmitted _ _ | .finished => true
  | _ => false

/-- The events that the statements of each party report. Only `StartFileTransfer` sends anything but CXL by
`SendMessage`. -/
def ServerAction.reports : ServerAction → ServerEvent → Bool
  | .driver, .stored _ | .driver, .sent _ _ => true
  | .driver, .sampled _ | .driver, .waited _ _ | .driver, .returned _ => true
  | .timeout, .waited _ _ => true
  | .sender _, .iteration | .sender _, .checked | .sender _, .transmitted _ _ | .sender _, .finished => true
  | .sender _, .stored id | .sender _, .sent id _ => id = .cxl
  | .receiver, .accepted _ _ => true
  | .abort, .stored id | .abortSend, .sent id _ => id = .cxl
  | _, _ => false

/-- The message that `OnReceive` is working on. -/
def ReceiverPos.message? : ReceiverPos → Option Received
  | .idle => none
  | .phaseCheck r | .psnCheck r | .commit r => some r

/-- The members behind the assignments for an accepted message. -/
def ServerVars.accepted (v : ServerVars) (id : MessageId) (r : Received) : ServerVars :=
  match id with
  | .chk => { v with curFileVersion := r.msg.chk.curFileVersion, status := .chk }
  | .rdy => { v with interPacketGap := ServerTransaction.clampGap r.msg.rdy.interPacketGap, status := .rdy }
  | .rtx => { v with retransmitPsn := r.msg.rtx.retransmitPsn }
  | .done => { v with status := .done }
  | .cxl => { v with status := .cxl }
  | .ntf | .info | .data | .fin => v

/-- The messages that `OnReceive` accepts. -/
def MessageId.Accepted (id : MessageId) : Prop := id = .chk ∨ id = .rdy ∨ id = .done ∨ id = .cxl ∨ id = .rtx

/-- No request of the server is among them. -/
theorem MessageId.Accepted.request_ne {id : MessageId} (h : id.Accepted) (phase : Phase) : phase.request ≠ id := by
  rcases h with rfl | rfl | rfl | rfl | rfl <;> cases phase <;> simp [Phase.request]

namespace ServerVars

/-- Only a request for a retransmission leaves the status alone. -/
theorem accepted_status {v : ServerVars} {id : MessageId} {r : Received} (h : id.Accepted) (hrtx : id ≠ .rtx) :
    (v.accepted id r).status = id := by
  rcases h with rfl | rfl | rfl | rfl | rfl <;> first | rfl | contradiction

/-- Only a request for a retransmission fills the slot. -/
theorem accepted_retransmit {v : ServerVars} {id : MessageId} {r : Received} (hrtx : id ≠ .rtx) :
    (v.accepted id r).retransmitPsn = v.retransmitPsn := by
  cases id <;> first | rfl | contradiction

@[simp] theorem accepted_psn (v : ServerVars) (id : MessageId) (r : Received) :
    (v.accepted id r).packetSequenceNumber = v.packetSequenceNumber := by
  cases id <;> rfl

@[simp] theorem accepted_clientAddress (v : ServerVars) (id : MessageId) (r : Received) :
    (v.accepted id r).clientAddress = v.clientAddress := by
  cases id <;> rfl

end ServerVars

namespace ServerState

variable {t : ServerTransaction} {s s' : ServerState} {e : List ServerEvent}

@[simp] theorem setStatus_status (s : ServerState) (id : MessageId) :
    (s.setStatus id).vars.status = id := rfl

@[simp] theorem setStatus_psn (s : ServerState) (id : MessageId) :
    (s.setStatus id).vars.packetSequenceNumber = s.vars.packetSequenceNumber := rfl

@[simp] theorem setStatus_retransmit (s : ServerState) (id : MessageId) :
    (s.setStatus id).vars.retransmitPsn = s.vars.retransmitPsn := rfl

@[simp] theorem setPsn_psn (s : ServerState) (psn : UInt32) :
    (s.setPsn psn).vars.packetSequenceNumber = psn := rfl

@[simp] theorem setPsn_retransmit (s : ServerState) (psn : UInt32) :
    (s.setPsn psn).vars.retransmitPsn = s.vars.retransmitPsn := rfl

@[simp] theorem setPsn_status (s : ServerState) (psn : UInt32) :
    (s.setPsn psn).vars.status = s.vars.status := rfl

@[simp] theorem setRetransmit_retransmit (s : ServerState) (psn : UInt32) :
    (s.setRetransmit psn).vars.retransmitPsn = psn := rfl

@[simp] theorem setRetransmit_psn (s : ServerState) (psn : UInt32) :
    (s.setRetransmit psn).vars.packetSequenceNumber = s.vars.packetSequenceNumber := rfl

@[simp] theorem setRetransmit_status (s : ServerState) (psn : UInt32) :
    (s.setRetransmit psn).vars.status = s.vars.status := rfl

/-- `StartFileTransfer` writes the status, and it starts the sender thread. -/
structure DriverFrame (s s' : ServerState) : Prop where
  receiver : s'.receiver = s.receiver
  aborts : s'.aborts = s.aborts
  psn : s'.vars.packetSequenceNumber = s.vars.packetSequenceNumber
  retransmit : s'.vars.retransmitPsn = s.vars.retransmitPsn
  clientAddress : s'.vars.clientAddress = s.vars.clientAddress
  sender : s'.sender = s.sender ∨ (s.driver = .sending .data ∧ s'.sender = .opening)

/-- A statement of `StartFileTransfer` stays within its frame. -/
theorem driverStep_frame (h : s.driverStep t = some (s', e)) : DriverFrame s s' := by
  revert h
  fun_cases ServerState.driverStep t s <;> intro h <;> cases h <;>
    exact ⟨rfl, rfl, rfl, rfl, rfl, by first | exact Or.inl rfl | exact Or.inr ⟨‹_›, rfl⟩⟩

/-- A wait times out on a status that has not changed. -/
theorem timeoutStep_eq (h : s.timeoutStep = some (s', e)) :
    ∃ phase, s.driver = .waiting phase s.vars.status ∧ s' = { s with driver := .decide phase none } ∧
      e = [.waited phase none] := by
  revert h
  fun_cases ServerState.timeoutStep s <;> intro h <;> cases h
  exact ⟨_, ‹_›, rfl, rfl⟩

/-- A timeout moves the driver and nothing else. -/
theorem timeoutStep_frame (h : s.timeoutStep = some (s', e)) :
    s' = { s with driver := s'.driver } := by
  obtain ⟨phase, -, rfl, -⟩ := timeoutStep_eq h
  rfl

/-- The sender thread writes the counter and the slot, and the status only to cancel. -/
structure SenderFrame (s s' : ServerState) : Prop where
  driver : s'.driver = s.driver
  receiver : s'.receiver = s.receiver
  aborts : s'.aborts = s.aborts
  clientAddress : s'.vars.clientAddress = s.vars.clientAddress
  status : s'.vars.status = s.vars.status ∨ (s.sender = .failing ∧ s'.vars.status = .cxl)

/-- A statement of the sender thread stays within its frame. -/
theorem senderStep_frame {fileOk : Bool} (h : s.senderStep t fileOk = some (s', e)) :
    SenderFrame s s' := by
  revert h
  fun_cases ServerState.senderStep t s fileOk <;> intro h <;> cases h <;>
    exact ⟨rfl, rfl, rfl, rfl, by first | exact Or.inl rfl | exact Or.inr ⟨‹_›, rfl⟩⟩

/-- The receive loop writes every member but the counter, and the status only to a client message. -/
structure ReceiverFrame (s s' : ServerState) : Prop where
  driver : s'.driver = s.driver
  sender : s'.sender = s.sender
  aborts : s'.aborts = s.aborts
  psn : s'.vars.packetSequenceNumber = s.vars.packetSequenceNumber

/-- Dispatching a datagram records its sender, and `OnReceive` goes on with a message that is intact. -/
theorem deliverStep_eq {r : Received} (h : s.deliverStep r = some (s', e)) :
    s.receiver = .idle ∧ e = [] ∧ s' = { s with
      vars := { s.vars with clientAddress := r.addr },
      receiver := if ServerTransaction.validateMessageIntegrity r.msg r.len = true then .phaseCheck r else .idle } := by
  revert h
  fun_cases ServerState.deliverStep s r with
  | case1 hidle hintact =>
    intro h
    cases h
    exact ⟨hidle.1, rfl, by rw [if_pos hintact]⟩
  | case2 hidle hintact =>
    intro h
    cases h
    exact ⟨hidle.1, rfl, by rw [if_neg hintact, ← hidle.1]⟩
  | case3 => exact fun h => nomatch h

/-- Dispatching a datagram stays within the frame and leaves the status and the slot alone. -/
theorem deliverStep_frame {r : Received} (h : s.deliverStep r = some (s', e)) :
    ReceiverFrame s s' ∧ s'.vars.status = s.vars.status ∧
      s'.vars.retransmitPsn = s.vars.retransmitPsn := by
  obtain ⟨-, -, rfl⟩ := deliverStep_eq h
  exact ⟨⟨rfl, rfl, rfl, rfl⟩, rfl, rfl⟩

/-- A statement of `OnReceive` stays with its message, or discards it, or accepts it. -/
theorem receiverStep_eq (h : s.receiverStep t = some (s', e)) :
    (e = [] ∧ ∃ receiver : ReceiverPos, s' = { s with receiver := receiver } ∧
      (receiver = .idle ∨ receiver.message? = s.receiver.message?)) ∨
    ∃ id r, s.receiver = .commit r ∧ r.id? = some id ∧ id.Accepted ∧ e = [.accepted id r] ∧
      s' = s.accept (s.vars.accepted id r) := by
  revert h
  fun_cases ServerState.receiverStep t s <;> intro h <;> cases h
  all_goals first
    | exact Or.inl ⟨rfl, _, rfl, Or.inl rfl⟩
    | exact Or.inl ⟨rfl, _, rfl, Or.inr (by simp [*, ReceiverPos.message?])⟩
    | exact Or.inr ⟨_, _, ‹_›, ‹_›, by simp [MessageId.Accepted], rfl, rfl⟩

/-- A statement of `OnReceive` stays within its frame. -/
theorem receiverStep_frame (h : s.receiverStep t = some (s', e)) : ReceiverFrame s s' := by
  rcases receiverStep_eq h with ⟨-, receiver, rfl, -⟩ | ⟨id, r, -, -, -, -, rfl⟩
  · exact ⟨rfl, rfl, rfl, rfl⟩
  · exact ⟨rfl, rfl, rfl, ServerVars.accepted_psn _ _ _⟩

/-- `AbortFileTransfer` stores CXL in the status of a registered transaction. -/
theorem abortStep_eq (h : s.abortStep = some (s', e)) :
    s.driver.registered = true ∧ s' = { s.setStatus .cxl with aborts := s.aborts + 1 } ∧
      e = [.stored .cxl] := by
  revert h
  fun_cases ServerState.abortStep s <;> intro h <;> cases h
  exact ⟨‹_›, rfl, rfl⟩

/-- Sending the message of `AbortFileTransfer` changes no member. -/
theorem abortSendStep_eq (h : s.abortSendStep t = some (s', e)) :
    s' = { s with aborts := s.aborts - 1 } ∧
      e = [.sent .cxl (t.packet s.vars.clientAddress .cxl)] := by
  revert h
  fun_cases ServerState.abortSendStep t s <;> intro h <;> cases h
  exact ⟨rfl, rfl⟩

/-- Every change of the status is reported: by `SendMessage` or by an acceptance. -/
theorem step_status {a : ServerAction} (h : s.step t a = some (s', e)) :
    s'.vars.status = s.vars.status ∨ e = [.stored s'.vars.status] ∨
      ∃ r, e = [.accepted s'.vars.status r] ∧ s'.vars.status ≠ .rtx := by
  cases a with
  | driver =>
    revert h
    simp only [step]
    fun_cases ServerState.driverStep t s <;> intro h <;> cases h <;>
      first | exact Or.inl rfl | exact Or.inr (Or.inl rfl)
  | timeout => exact Or.inl (by rw [timeoutStep_frame h])
  | sender fileOk =>
    revert h
    simp only [step]
    fun_cases ServerState.senderStep t s fileOk <;> intro h <;> cases h <;>
      first | exact Or.inl rfl | exact Or.inr (Or.inl rfl)
  | deliver r => exact Or.inl (deliverStep_frame h).2.1
  | receiver =>
    rcases receiverStep_eq h with ⟨-, receiver, rfl, -⟩ | ⟨id, r, -, -, haccepted, rfl, rfl⟩
    · exact Or.inl rfl
    · by_cases hrtx : id = .rtx
      · subst hrtx
        exact Or.inl rfl
      · have hstatus := ServerVars.accepted_status (v := s.vars) (r := r) haccepted hrtx
        exact Or.inr (Or.inr ⟨r, by rw [accept, hstatus], by rwa [accept, hstatus]⟩)
  | abort =>
    obtain ⟨-, rfl, rfl⟩ := abortStep_eq h
    exact Or.inr (Or.inl rfl)
  | abortSend =>
    obtain ⟨rfl, -⟩ := abortSendStep_eq h
    exact Or.inl rfl

/-- A step reports one event at most, and it is one of its party. -/
theorem step_reports {a : ServerAction} (h : s.step t a = some (s', e)) :
    e = [] ∨ ∃ x, e = [x] ∧ a.reports x = true := by
  cases a with
  | driver =>
    revert h
    simp only [step]
    fun_cases ServerState.driverStep t s <;> intro h <;> cases h <;> simp [ServerAction.reports]
  | timeout =>
    obtain ⟨phase, -, -, rfl⟩ := timeoutStep_eq h
    exact Or.inr ⟨_, rfl, rfl⟩
  | sender fileOk =>
    revert h
    simp only [step]
    fun_cases ServerState.senderStep t s fileOk <;> intro h <;> cases h <;> simp [ServerAction.reports]
  | deliver r => exact Or.inl (deliverStep_eq h).2.1
  | receiver =>
    rcases receiverStep_eq h with ⟨rfl, -⟩ | ⟨id, r, -, -, -, rfl, -⟩
    · exact Or.inl rfl
    · exact Or.inr ⟨_, rfl, rfl⟩
  | abort =>
    obtain ⟨-, -, rfl⟩ := abortStep_eq h
    simp [ServerAction.reports]
  | abortSend =>
    obtain ⟨-, rfl⟩ := abortSendStep_eq h
    simp [ServerAction.reports]

/-- A step reports one event at most. -/
theorem step_events {a : ServerAction} (h : s.step t a = some (s', e)) : e = [] ∨ ∃ x, e = [x] :=
  (step_reports h).imp_right fun ⟨x, hx, _⟩ => ⟨x, hx⟩

/-- What a step reports is reported by its party. -/
theorem step_reports_mem {a : ServerAction} (h : s.step t a = some (s', e)) {x : ServerEvent} (hx : x ∈ e) :
    a.reports x = true := by
  rcases step_reports h with rfl | ⟨y, rfl, hreports⟩
  · contradiction
  · rwa [List.mem_singleton.mp hx]

/-- Only the sender thread reports the events of its loop. -/
theorem step_ofLoop {a : ServerAction} (h : s.step t a = some (s', e)) {x : ServerEvent} (hx : x ∈ e)
    (hloop : x.ofLoop = true) : ∃ fileOk, a = .sender fileOk := by
  have hreports := step_reports_mem h hx
  cases a with
  | sender fileOk => exact ⟨fileOk, rfl⟩
  | driver | timeout | deliver | receiver | abort | abortSend => cases x <;> contradiction

/-- An acceptance ends `OnReceive`, which had made its checks, and no other request is accepted. -/
theorem step_accepted {a : ServerAction} {id : MessageId} {r : Received} (h : s.step t a = some (s', e))
    (hmem : .accepted id r ∈ e) :
    e = [.accepted id r] ∧ s.receiver = .commit r ∧ r.id? = some id ∧ s'.receiver = .idle ∧
      (id ≠ .rtx → s'.vars.status = id) ∧ ∀ phase : Phase, phase.request ≠ id := by
  have hreports := step_reports_mem h hmem
  cases a with
  | receiver =>
    rcases receiverStep_eq h with ⟨rfl, -⟩ | ⟨id', r', hcommit, hid, haccepted, rfl, rfl⟩
    · contradiction
    · cases List.mem_singleton.mp hmem
      exact ⟨rfl, hcommit, hid, rfl, ServerVars.accepted_status haccepted, haccepted.request_ne⟩
  | driver | timeout | sender | deliver | abort | abortSend => contradiction

/-- Run without interruption, the statements of `OnReceive` do what the function does. -/
theorem deliver_onReceive (t : ServerTransaction) (r : Received) (hidle : s.receiver = .idle)
    (hregistered : s.driver.registered = true) :
    ∃ k es, (serverMachine t).exec s (.deliver r :: List.replicate k .receiver) =
      some ({ s with vars := t.onReceive s.vars r }, es) := by
  obtain ⟨vars, driver, sender, receiver, aborts⟩ := s
  simp only at hidle hregistered
  subst hidle
  simp only [EventMachine.exec, serverMachine, step, deliverStep, hregistered, and_self, if_true,
    ServerTransaction.onReceive]
  by_cases hintact : ServerTransaction.validateMessageIntegrity r.msg r.len = true
  case neg => exact ⟨0, [], by simp [hintact, EventMachine.exec]⟩
  simp only [hintact, if_true, Bool.not_true, Bool.false_eq_true, if_false, Option.bind_some]
  cases hid : r.id? with
  | none => exact ⟨1, [], by simp [EventMachine.exec, receiverStep, hid]⟩
  | some id =>
    cases id
    case ntf | info | data | fin => exact ⟨1, [], by simp [EventMachine.exec, receiverStep, hid]⟩
    case chk =>
      by_cases hstatus : vars.status = .ntf
      case neg => exact ⟨1, [], by simp [EventMachine.exec, receiverStep, hid, hstatus]⟩
      by_cases hvalid : ServerTransaction.validateChk r.payloadLen = true
      · exact ⟨2, _, by simp [EventMachine.exec, receiverStep, hid, hstatus, hvalid, accept]; rfl⟩
      · exact ⟨1, [], by simp [EventMachine.exec, receiverStep, hid, hstatus, hvalid]⟩
    case rdy =>
      by_cases hstatus : vars.status = .info
      case neg => exact ⟨1, [], by simp [EventMachine.exec, receiverStep, hid, hstatus]⟩
      by_cases hvalid : ServerTransaction.validateRdy r.payloadLen = true
      · exact ⟨2, _, by simp [EventMachine.exec, receiverStep, hid, hstatus, hvalid, accept]; rfl⟩
      · exact ⟨1, [], by simp [EventMachine.exec, receiverStep, hid, hstatus, hvalid]⟩
    case done =>
      by_cases hstatus : vars.status = .data
      case neg => exact ⟨1, [], by simp [EventMachine.exec, receiverStep, hid, hstatus]⟩
      by_cases hpsn : vars.packetSequenceNumber = t.totalPacketNumber
      case neg => exact ⟨2, [], by simp [EventMachine.exec, receiverStep, hid, hstatus, hpsn]⟩
      by_cases hvalid : t.validateDone r.msg.done r.payloadLen = true
      · exact ⟨3, _, by simp [EventMachine.exec, receiverStep, hid, hstatus, hpsn, hvalid, accept]; rfl⟩
      · exact ⟨2, [], by simp [EventMachine.exec, receiverStep, hid, hstatus, hpsn, hvalid]⟩
    case cxl =>
      by_cases hvalid : ServerTransaction.validateCxl r.payloadLen = true
      · exact ⟨2, _, by simp [EventMachine.exec, receiverStep, hid, hvalid, accept]; rfl⟩
      · exact ⟨1, [], by simp [EventMachine.exec, receiverStep, hid, hvalid]⟩
    case rtx =>
      by_cases hstatus : vars.status = .data
      case neg => exact ⟨1, [], by simp [EventMachine.exec, receiverStep, hid, hstatus]⟩
      by_cases hvalid : ServerTransaction.validateRtx r.msg.rtx r.payloadLen vars.packetSequenceNumber = true
      · exact ⟨3, _, by simp [EventMachine.exec, receiverStep, hid, hstatus, hvalid, accept]; rfl⟩
      · exact ⟨2, [], by simp [EventMachine.exec, receiverStep, hid, hstatus, hvalid]⟩

end ServerState

end Trftp
