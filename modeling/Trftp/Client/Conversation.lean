import Trftp.Client.Verified

/-!
# The order of what the client answers

The client answers each message on its own, and the status is all that it remembers of the
conversation. So the order of its answers is an invariant of the status: behind each `Begin` they
are CHK, RDY, requests for packets and DONE, in this order and each of the others at most once,
then the file is handed over; or CXL ends the conversation earlier. It does not depend on what the
client is sent.
-/

namespace Trftp

open Lib (EventMachine)

/-- The answer that the event is about. The client sends no FIN, and FIN stands for the hand-over of the
file. -/
def ClientEvent.reply? : ClientEvent → Option MessageId
  | .sent id _ => some id
  | .fileReceived _ _ => some .fin
  | .began | .notified _ | .informed _ _ _ | .wrote _ | .verified _ | .terminated => none

/-- `Client::OnFileReceived` was called. -/
def ClientEvent.isHandOver : ClientEvent → Bool
  | .fileReceived _ _ => true
  | .began | .notified _ | .informed _ _ _ | .wrote _ | .verified _ | .sent _ _ | .terminated => false

/-- An NTF was accepted. -/
def ClientEvent.isNotified : ClientEvent → Bool
  | .notified _ => true
  | .began | .informed _ _ _ | .wrote _ | .verified _ | .sent _ _ | .fileReceived _ _ | .terminated => false

/-- CHK, RDY and the requests of a conversation. -/
def requesting (n : ℕ) : List MessageId := [.chk, .rdy] ++ List.replicate n .rtx

/-- The answers of a conversation that ends in order, or is still going on, or has been cancelled. -/
def Orderly (said : List MessageId) : Prop :=
  ∃ n, said <+: requesting n ++ [.done, .fin] ∨ ∃ pre, said = pre ++ [.cxl] ∧ pre <+: requesting n ++ [.done]

/-- The answers that the status stands for. -/
def Conversing (said : List MessageId) (v : ClientVars) : Prop :=
  match v.status with
  | .chk => said = [.chk]
  | .rdy | .data => ∃ n, said = requesting n
  | .done => ∃ n, said = requesting n ++ [.done]
  | .fin | .cxl => (v.joinable && v.isActive) = false ∧ Orderly said
  | .ntf | .info | .rtx => False

/-- What the status stands for is orderly. -/
theorem Conversing.orderly {said : List MessageId} {v : ClientVars} (h : Conversing said v) : Orderly said := by
  unfold Conversing at h
  cases hstatus : v.status <;> simp only [hstatus] at h
  case chk => exact ⟨0, Or.inl (by rw [h]; simp [requesting])⟩
  case rdy | data =>
    obtain ⟨n, rfl⟩ := h
    exact ⟨n, Or.inl (List.prefix_append _ _)⟩
  case done =>
    obtain ⟨n, rfl⟩ := h
    exact ⟨n, Or.inl ((List.prefix_append_right_inj _).mpr (by simp))⟩
  case fin | cxl => exact h.2

/-- A conversation that is going on, or has not begun, can be cancelled. -/
theorem Conversing.cancel {said : List MessageId} {v : ClientVars} (h : Conversing said v)
    (hopen : (v.joinable && v.isActive) = true ∨ said = []) : Orderly (said ++ [.cxl]) := by
  suffices hbefore : ∃ n, said <+: requesting n ++ [.done] by
    obtain ⟨n, hn⟩ := hbefore
    exact ⟨n, Or.inr ⟨said, rfl, hn⟩⟩
  rcases hopen with hreceiving | rfl
  · unfold Conversing at h
    cases hstatus : v.status <;> simp only [hstatus] at h
    case chk => exact ⟨0, by rw [h]; simp [requesting]⟩
    case rdy | data =>
      obtain ⟨n, rfl⟩ := h
      exact ⟨n, List.prefix_append _ _⟩
    case done =>
      obtain ⟨n, rfl⟩ := h
      exact ⟨n, List.prefix_rfl⟩
    case fin | cxl =>
      rw [hreceiving] at h
      exact absurd h.1 (by simp)
  · exact ⟨0, List.nil_prefix⟩

/-- An orderly conversation that has ended. -/
theorem Orderly.conversing {said : List MessageId} {v : ClientVars} (h : Orderly said)
    (hstatus : v.status = .fin ∨ v.status = .cxl) (hover : (v.joinable && v.isActive) = false) :
    Conversing said v := by
  unfold Conversing
  rcases hstatus with hfin | hcxl
  · rw [hfin]
    exact ⟨hover, h⟩
  · rw [hcxl]
    exact ⟨hover, h⟩

/-- The sender's address is no part of the conversation. -/
theorem Conversing.heardFrom {said : List MessageId} {v : ClientVars} (h : Conversing said v) (addr : SockAddr) :
    Conversing said (v.heardFrom addr) := h

/-- One conversation is going on, which may end in a hand-over. -/
def ClientVars.pending (v : ClientVars) : ℕ :=
  match v.status with
  | .chk | .rdy | .data | .done => 1
  | .ntf | .info | .rtx | .fin | .cxl => 0

namespace ClientTransaction

variable {c : ClientTransaction} {v w : ClientVars} {r : Received} {ops : FileOps} {e : List ClientEvent}
  {said : List MessageId}

/-- The writes are no answers. -/
theorem reply_wrote (writes : List (List UInt8)) : (writes.map .wrote).filterMap ClientEvent.reply? = [] := by
  induction writes with
  | nil => rfl
  | cons data writes ih => simpa only [List.map_cons, List.filterMap_cons, ClientEvent.reply?] using ih

/-- A cancelled conversation has ended. -/
theorem Cancelled.conversing (h : Cancelled c w e) (hv : Conversing said v)
    (hopen : (v.joinable && v.isActive) = true ∨ said = []) :
    Conversing (said ++ e.filterMap ClientEvent.reply?) w := by
  obtain ⟨writes, u, rfl⟩ := h.events
  have hreply : (List.map ClientEvent.wrote writes ++ [ClientEvent.sent .cxl (c.packet u .cxl)]).filterMap
      ClientEvent.reply? = [.cxl] := by
    rw [List.filterMap_append, reply_wrote]
    rfl
  rw [hreply]
  exact (hv.cancel hopen).conversing (Or.inr h.status) (by rw [h.dead, Bool.and_false])

/-- It hands nothing over, and nothing is going on any more. -/
theorem Cancelled.pending (h : Cancelled c w e) : e.countP ClientEvent.isHandOver = 0 ∧ w.pending = 0 := by
  obtain ⟨writes, u, rfl⟩ := h.events
  refine ⟨?_, by rw [ClientVars.pending, h.status]⟩
  rw [List.countP_eq_zero]
  intro x hx
  simp only [List.mem_append, List.mem_map, List.mem_singleton] at hx
  rcases hx with ⟨data, -, rfl⟩ | rfl <;> simp [ClientEvent.isHandOver]

/-- In the status that a packet asks for, the client has asked for the file. -/
theorem requesting_of_dataStatus {header : TrftpHeader} (hv : Conversing said v)
    (hstatus : v.status = dataStatus header) : ∃ n, said = requesting n := by
  unfold Conversing at hv
  unfold dataStatus at hstatus
  split_ifs at hstatus
  · simpa only [hstatus] using hv
  · simpa only [hstatus] using hv

/-- A request is one more. -/
theorem requesting_succ (n : ℕ) : requesting n ++ [.rtx] = requesting (n + 1) := by
  rw [requesting, requesting, List.append_assoc, List.replicate_succ']

/-- Every reaction keeps the order. -/
theorem Reaction.conversing (h : Reaction c v r ops w e) (hv : Conversing said v)
    (hopen : (v.joinable && v.isActive) = true ∨ said = []) :
    Conversing (said ++ e.filterMap ClientEvent.reply?) w := by
  cases h with
  | discarded => rwa [List.filterMap_nil, List.append_nil]
  | cancelled h => exact h.conversing hv hopen
  | notified _ h =>
    have hnil : said = [] := hopen.resolve_left (by rw [h.fresh]; simp)
    rw [h.events, hnil, h.vars]
    rfl
  | informed _ h =>
    have hsaid : said = [.chk] := by simpa only [Conversing, h.chk] using hv
    rw [h.events, hsaid, h.vars]
    exact ⟨0, rfl⟩
  | requested _ hstatus =>
    obtain ⟨n, rfl⟩ := requesting_of_dataStatus hv hstatus
    have hsucc : requesting n ++ [.rtx] = requesting (n + 1) := requesting_succ n
    have hstate : v.status = .rdy ∨ v.status = .data := by
      rw [hstatus, dataStatus]
      split_ifs
      · exact Or.inl rfl
      · exact Or.inr rfl
    rcases hstate with hs | hs
    · simp only [Conversing, hs]
      exact ⟨n + 1, hsucc⟩
    · simp only [Conversing, hs]
      exact ⟨n + 1, hsucc⟩
  | written _ h =>
    obtain ⟨n, rfl⟩ := requesting_of_dataStatus hv h.status
    exact ⟨n, List.append_nil _⟩
  | completed _ h _ hdone =>
    obtain ⟨n, rfl⟩ := requesting_of_dataStatus hv h.status
    obtain ⟨file, -, -, -, rfl⟩ := hdone.file
    rw [hdone.vars]
    exact ⟨n, rfl⟩
  | finished _ h =>
    have hsaid : ∃ n, said = requesting n ++ [.done] := by simpa only [Conversing, h.done] using hv
    obtain ⟨n, rfl⟩ := hsaid
    rw [h.vars, h.events]
    refine Orderly.conversing ⟨n, Or.inl ?_⟩ (Or.inl rfl) (Bool.and_false _)
    rw [List.append_assoc]
    refine (List.prefix_append_right_inj _).mpr ?_
    cases c.hasClient <;> simp [ClientEvent.reply?]

/-- A hand-over ends a conversation, and only an NTF begins one. -/
theorem Reaction.pending (h : Reaction c v r ops w e) :
    e.countP ClientEvent.isHandOver + w.pending ≤ v.pending + e.countP ClientEvent.isNotified := by
  have hdata {header : TrftpHeader} (hstatus : v.status = dataStatus header) : v.pending = 1 := by
    unfold dataStatus at hstatus
    unfold ClientVars.pending
    split_ifs at hstatus <;> rw [hstatus]
  cases h with
  | discarded => simp
  | cancelled h =>
    obtain ⟨hnone, hpending⟩ := h.pending
    omega
  | notified _ h =>
    rw [h.events, h.vars]
    simp [List.countP_cons, ClientEvent.isHandOver, ClientEvent.isNotified, ClientVars.pending]
  | informed _ h =>
    rw [h.events, h.vars]
    simp [ClientEvent.isHandOver, ClientEvent.isNotified, ClientVars.pending, h.chk]
  | requested _ hstatus => simp [List.countP_cons, ClientEvent.isHandOver]
  | written _ h =>
    rw [hdata h.status]
    simp [List.countP_cons, ClientEvent.isHandOver, writtenVars, countedVars, ClientVars.pending]
  | completed _ h _ hdone =>
    obtain ⟨file, -, -, -, rfl⟩ := hdone.file
    rw [hdata h.status, hdone.vars]
    simp [List.countP_cons, ClientEvent.isHandOver, ClientVars.pending]
  | finished _ h =>
    rw [h.vars, h.events]
    cases c.hasClient <;> simp [List.countP_cons, ClientEvent.isHandOver, ClientVars.pending, h.done]

end ClientTransaction

/-- The answers since the last `Begin` are what the status stands for, and each hand-over has had its NTF. -/
structure ConversationInv (es : List ClientEvent) (v : ClientVars) : Prop where
  conversing : Conversing ((sinceBegan es).filterMap ClientEvent.reply?) v
  pending : es.countP ClientEvent.isHandOver + v.pending ≤ es.countP ClientEvent.isNotified

/-- Events of the current conversation. -/
theorem ConversationInv.append {v w : ClientVars} {es e : List ClientEvent}
    (hinv : ConversationInv es v) (hbegan : .began ∉ e)
    (hconversing : Conversing ((sinceBegan es).filterMap ClientEvent.reply? ++ e.filterMap ClientEvent.reply?) w)
    (hpending : e.countP ClientEvent.isHandOver + w.pending ≤ v.pending + e.countP ClientEvent.isNotified) :
    ConversationInv (es ++ e) w := by
  have hbefore := hinv.pending
  refine ⟨?_, ?_⟩
  · rwa [sinceBegan_append hbegan, List.filterMap_append]
  · rw [List.countP_append, List.countP_append]
    omega

/-- `Begin` starts a conversation in which nothing has been said. -/
theorem ConversationInv.begin {es : List ClientEvent} {v : ClientVars} (hinv : ConversationInv es v)
    (hdead : v.status = .fin ∨ v.status = .cxl) (ops : FileOps) :
    ConversationInv (es ++ [.began]) (ClientTransaction.reset { v with isActive := true } ops) := by
  have hstatus := (ClientTransaction.reset_status { v with isActive := true } ops).1
  have hjoinable : (ClientTransaction.reset { v with isActive := true } ops).joinable = false := rfl
  have hbefore := hinv.pending
  refine ⟨?_, ?_⟩
  · rw [sinceBegan_began es List.not_mem_nil]
    have hnothing : Orderly [] := ⟨0, Or.inl List.nil_prefix⟩
    exact hnothing.conversing (by rw [hstatus]; exact hdead) (by rw [hjoinable, Bool.false_and])
  · rw [List.countP_append, List.countP_append]
    have hpending : (ClientTransaction.reset { v with isActive := true } ops).pending = v.pending := by
      rw [ClientVars.pending, ClientVars.pending, hstatus]
    rw [hpending]
    exact hbefore

/-- Only a receive loop that runs times out. -/
theorem ClientState.receiving_of_timeout {c : ClientTransaction} {s s' : ClientState} {e : List ClientEvent}
    (h : s.step c .timeout = some (s', e)) : s.receiving = true := by
  simp only [step] at h
  split_ifs at h with hblocked
  exact not_not.mp fun hidle => hblocked (Or.inr hidle)

/-- Every step of the client keeps the order. -/
theorem ClientState.step_conversationInv {c : ClientTransaction} {s s' : ClientState} {a : ClientAction}
    {es e : List ClientEvent} (hinv : ConversationInv es s.vars) (hclient : ClientInv es s)
    (h : s.step c a = some (s', e)) : ConversationInv (es ++ e) s'.vars := by
  cases ClientState.step_cases h with
  | dropped => rwa [List.append_nil]
  | @began r ops w e hdead hreact _ =>
    have hbegin := hinv.begin (hclient.dead hdead) ops
    have hnothing : (sinceBegan (es ++ [.began])).filterMap ClientEvent.reply? = [] := by
      rw [sinceBegan_began es List.not_mem_nil]
      rfl
    have hreaction := hbegin.append hreact.not_began
      (hreact.conversing (hbegin.conversing.heardFrom r.addr) (Or.inr hnothing)) hreact.pending
    rwa [List.append_assoc] at hreaction
  | @received r ops w e halive hjoin hreact _ =>
    have hopen : (s.vars.joinable && s.vars.isActive) = true := by
      rw [hjoin, halive]
      rfl
    exact hinv.append hreact.not_began
      (hreact.conversing (hinv.conversing.heardFrom r.addr) (Or.inl hopen)) hreact.pending
  | @timeout w e hcancel =>
    have hopen : (s.vars.joinable && s.vars.isActive) = true := receiving_of_timeout h
    have hpending : e.countP ClientEvent.isHandOver + w.pending ≤
        s.vars.pending + e.countP ClientEvent.isNotified := by
      rw [hcancel.pending.1, hcancel.pending.2]
      exact Nat.zero_le _
    exact hinv.append hcancel.not_began (hcancel.conversing hinv.conversing (Or.inl hopen)) hpending
  | terminated =>
    refine hinv.append (by simp) ?_ (by simp [ClientEvent.isHandOver])
    exact (List.append_nil _).symm ▸ hinv.conversing

/-- The client's answers come in the order of the protocol, whatever it is sent, if `Begin` and `OnReceive` run
to their end before the next datagram is taken at either socket.

Behind each `Begin` it says CHK, RDY, any number of requests and DONE, in this order, and hands the file
over behind that; or it has come less far; or CXL ended the conversation before the hand-over. In the
whole run it hands over no more files than it accepted NTFs. -/
theorem replies_in_order {c : ClientTransaction} {es : List ClientEvent} {s : ClientState}
    (h : (clientMachine c).Trace es s) :
    Orderly ((sinceBegan es).filterMap ClientEvent.reply?) ∧
      es.countP ClientEvent.isHandOver ≤ es.countP ClientEvent.isNotified := by
  have hinv : ConversationInv es s.vars := by
    refine h.invariant (I := fun es s => ConversationInv es s.vars) ?_ fun htrace hinv hstep =>
      ClientState.step_conversationInv hinv (clientInv_of_trace htrace) hstep
    intro s hs
    obtain ⟨tempFile, rfl⟩ := hs
    exact ⟨⟨rfl, 0, Or.inl List.nil_prefix⟩, le_rfl⟩
  exact ⟨hinv.conversing.orderly, (Nat.le_add_right _ _).trans hinv.pending⟩

/-- In the transfer of two packets the client says CHK, RDY and DONE and hands the file over. -/
theorem replies_in_order_twoPackets :
    ∃ s es, (clientMachine smallClient).exec ⟨ClientTransaction.initialVars none, false⟩ twoPacketsSent =
        some (s, es) ∧ s.vars.status = .done ∧ Orderly ((sinceBegan es).filterMap ClientEvent.reply?) := by
  obtain ⟨v, es, hexec, -, hdone, -⟩ := twoPackets_verified
  have htrace : (clientMachine smallClient).Trace es _ := EventMachine.exec_trace ⟨none, rfl⟩ hexec
  exact ⟨_, es, hexec, hdone, (replies_in_order htrace).1⟩

end Trftp
