import Trftp.System.Dispatching
import Trftp.System.Isolation

/-!
# Where datagrams come from and where they go

The server sends every message of a transaction from its own socket to the host that the
transaction is for. The client answers on the socket of its transaction, and it sends to the
address that the last datagram came from.
-/

namespace Trftp

open Lib (EventMachine)

namespace ClientTransaction

variable {c : ClientTransaction} {v w : ClientVars} {r : Received} {ops : FileOps} {e : List ClientEvent}
  {addr : SockAddr}

/-- What a function leaves and shows that knows one address of the server: it sends there, from the
socket of the transaction. -/
structure Addressed (c : ClientTransaction) (addr : SockAddr) (w : ClientVars) (e : List ClientEvent) :
    Prop where
  known : w.serverAddress = addr
  sent : ∀ x ∈ e, ∀ p, x.packet? = some p → p.src = c.udpSocket ∧ p.dst = addr

/-- A function that sends nothing keeps the address. -/
theorem Addressed.quiet (hknown : w.serverAddress = addr) : Addressed c addr w [] :=
  ⟨hknown, fun _ hx => absurd hx List.not_mem_nil⟩

/-- An event that is no message may precede. -/
theorem Addressed.cons (h : Addressed c addr w e) {x : ClientEvent} (hx : x.packet? = none) :
    Addressed c addr w (x :: e) := by
  refine ⟨h.known, fun y hy p hp => ?_⟩
  rcases List.mem_cons.mp hy with rfl | hy
  · rw [hx] at hp
    contradiction
  · exact h.sent y hy p hp

/-- `SendMessage` sends to the address it knows. -/
theorem addressed_sendMessage (c : ClientTransaction) (id : MessageId) (hknown : v.serverAddress = addr) :
    Addressed c addr (c.sendMessage v id).1 (c.sendMessage v id).2 := by
  have hsent : ∀ x ∈ [ClientEvent.sent id (c.packet v id)], ∀ p, x.packet? = some p →
      p.src = c.udpSocket ∧ p.dst = addr := by
    intro x hx p hp
    rw [List.mem_singleton.mp hx] at hp
    cases hp
    exact ⟨rfl, hknown⟩
  cases id with
  | chk | rdy | rtx | done | cxl => exact ⟨hknown, hsent⟩
  | ntf | info | data | fin => exact .quiet hknown

/-- The stream does not concern the address. -/
theorem serverAddress_openStream (v : ClientVars) (ops : FileOps) :
    (v.openStream ops).serverAddress = v.serverAddress := by
  rw [ClientVars.openStream_eq]

@[inherit_doc serverAddress_openStream]
theorem serverAddress_writeStream (v : ClientVars) (ops : FileOps) (data : List UInt8) :
    (v.writeStream ops data).serverAddress = v.serverAddress := by
  rw [ClientVars.writeStream_eq]

@[inherit_doc serverAddress_openStream]
theorem serverAddress_closeStream (v : ClientVars) (ops : FileOps) :
    (v.closeStream ops).serverAddress = v.serverAddress := by
  rw [ClientVars.closeStream_eq]

/-- The branch for NTF sends to the address it knows. -/
theorem addressed_onNtf (hknown : v.serverAddress = addr) (h : c.onNtf v r = some (w, e)) :
    Addressed c addr w e := by
  unfold onNtf at h
  split_ifs at h <;> cases h
  · exact addressed_sendMessage c .cxl hknown
  · exact (addressed_sendMessage c .chk (by exact hknown)).cons rfl

/-- The branch for INFO sends to the address it knows. -/
theorem addressed_onInfo (hknown : v.serverAddress = addr) (h : c.onInfo v r ops = (w, e)) :
    Addressed c addr w e := by
  have hopened : ((informedVars v r.msg).openStream ops).serverAddress = addr := by
    rw [serverAddress_openStream]
    exact hknown
  unfold onInfo sendReady at h
  split_ifs at h <;> cases h
  case neg.refl => exact (addressed_sendMessage c .rdy hopened).cons rfl
  all_goals first | exact addressed_sendMessage c .cxl hknown | exact addressed_sendMessage c .cxl hopened

/-- The checks of the finished file send to the address they know. -/
theorem addressed_sendDone (hknown : v.serverAddress = addr) (h : c.sendDone v = some (w, e)) :
    Addressed c addr w e := by
  unfold sendDone at h
  split at h
  · contradiction
  · split_ifs at h <;> cases h
    · exact addressed_sendMessage c .cxl hknown
    · exact addressed_sendMessage c .cxl hknown
    · exact (addressed_sendMessage c .done hknown).cons rfl

/-- The branch for DATA sends to the address it knows. -/
theorem addressed_onData (hknown : v.serverAddress = addr) (h : c.onData v r ops = some (w, e)) :
    Addressed c addr w e := by
  unfold onData at h
  split_ifs at h
  · cases h
    exact addressed_sendMessage c .cxl hknown
  · cases h
    exact addressed_sendMessage c .cxl hknown
  · cases h
    exact addressed_sendMessage c .rtx hknown
  · obtain ⟨⟨w', e'⟩, hafter, heq⟩ := Option.map_eq_some_iff.mp h
    obtain ⟨rfl, rfl⟩ := Prod.mk.inj heq
    have hwritten := (serverAddress_writeStream v ops (r.msg.payload.bytes.take r.payloadLen)).trans hknown
    suffices haddressed : Addressed c addr w' e' from haddressed.cons rfl
    unfold afterWrite at hafter
    split_ifs at hafter
    · cases hafter
      exact addressed_sendMessage c .cxl hwritten
    · refine addressed_sendDone ?_ hafter
      rw [serverAddress_closeStream]
      exact hwritten
    · cases hafter
      exact .quiet hwritten

/-- The branch for FIN sends to the address it knows. -/
theorem addressed_onFin (hknown : v.serverAddress = addr) (h : c.onFin v r = (w, e)) : Addressed c addr w e := by
  unfold onFin at h
  split_ifs at h <;> cases h
  · exact addressed_sendMessage c .cxl hknown
  · exact addressed_sendMessage c .cxl hknown
  · exact (Addressed.quiet (by exact hknown)).cons rfl
  · exact .quiet (by exact hknown)

/-- The branch for CXL sends to the address it knows. -/
theorem addressed_onCxl (hknown : v.serverAddress = addr) (h : c.onCxl v ops = (w, e)) :
    Addressed c addr w e := by
  unfold onCxl at h
  split_ifs at h <;> cases h
  · refine addressed_sendMessage c .cxl ?_
    exact (serverAddress_closeStream v ops).trans hknown
  · exact addressed_sendMessage c .cxl (by exact hknown)

/-- `OnReceive` answers whoever sent the message. -/
theorem addressed_onReceive (h : c.onReceive v r ops = some (w, e)) : Addressed c r.addr w e := by
  have hknown : (v.heardFrom r.addr).serverAddress = r.addr := rfl
  unfold onReceive at h
  split_ifs at h
  · cases h
    exact .quiet rfl
  · split at h
    · exact addressed_onNtf hknown h
    · exact addressed_onInfo hknown (Option.some.inj h)
    · exact addressed_onData hknown h
    · exact addressed_onFin hknown (Option.some.inj h)
    · exact addressed_onCxl hknown (Option.some.inj h)
    · cases h
      exact .quiet rfl

end ClientTransaction

/-- A step of the client leaves it with an address it knows and sends there: the one it was just told, or
the one it knew. A client that drops what it was given is as it was. -/
theorem ClientState.step_addressed {c : ClientTransaction} {s s' : ClientState} {a : ClientAction}
    {e : List ClientEvent} (h : s.step c a = some (s', e)) :
    (s'.vars = s.vars ∧ ∀ x ∈ e, x.packet? = none) ∨
      ClientTransaction.Addressed c ((a.message?.map Received.addr).getD s.vars.serverAddress) s'.vars e ∧
        (a.message? = none → s.vars.joinable = true) := by
  have hquiet : ∀ x ∈ [ClientEvent.terminated], x.packet? = none := by
    intro x hx
    rw [List.mem_singleton.mp hx]
    rfl
  cases a with
  | main r ops =>
    simp only [step] at h
    split_ifs at h with hterminated halive
    · cases h
      exact Or.inl ⟨rfl, by simp⟩
    · unfold ClientTransaction.begin at h
      split_ifs at h
      · cases hrun : c.onReceive (ClientTransaction.reset { s.vars with isActive := true } ops) r ops with
        | none =>
          rw [hrun] at h
          cases h
          exact Or.inl ⟨rfl, hquiet⟩
        | some p =>
          rw [hrun] at h
          cases h
          exact Or.inr ⟨(ClientTransaction.addressed_onReceive hrun).cons rfl, fun hnone => by contradiction⟩
      · cases h
        rw [Bool.not_eq_true] at halive
        have hsame : ({ s.vars with isActive := false } : ClientVars) = s.vars := by rw [← halive]
        exact Or.inl ⟨hsame, by simp⟩
  | loop r ops =>
    simp only [step] at h
    split_ifs at h
    cases hrun : c.onReceive s.vars r ops with
    | none =>
      rw [hrun] at h
      cases h
      exact Or.inl ⟨rfl, hquiet⟩
    | some p =>
      rw [hrun] at h
      cases h
      exact Or.inr ⟨ClientTransaction.addressed_onReceive hrun, fun hnone => by contradiction⟩
  | timeout =>
    simp only [step] at h
    split_ifs at h with hblocked
    cases h
    refine Or.inr ⟨ClientTransaction.addressed_sendMessage c .cxl rfl, fun _ => ?_⟩
    simp only [not_or, not_not, receiving, Bool.and_eq_true] at hblocked
    exact hblocked.2.1

namespace ServerProcess

variable {udpSocket : SockAddr} {S : ServerProcess} {es : List ProcessEvent} {i : ℕ}

/-- A transaction that tells something belongs to a call that was entered. -/
theorem entered_of_event {x : ServerEvent} (h : (serverProcess udpSocket).Trace es S) (hx : .call i x ∈ es) :
    ∃ c, S.calls i = .entered c := by
  have hrun : CallRun i es S := by
    refine h.invariant (I := fun es S => CallRun i es S) ?_ ?_
    · rintro S rfl
      exact ⟨fun c hc => (by contradiction), fun _ => rfl⟩
    · intro es S a S' e _ hrun hstep
      exact Change.callRun (step_change hstep) hrun
  have hmem : x ∈ es.filterMap (ProcessEvent.of i) := List.mem_filterMap.mpr ⟨_, hx, if_pos rfl⟩
  cases hcall : (S.calls i).call? with
  | none =>
    rw [hrun.idle hcall] at hmem
    contradiction
  | some c => exact ⟨c, CallStatus.call?_eq_some.mp hcall⟩

/-- Every transaction works on the socket of the server. -/
theorem tran_udpSocket {c : Call} (h : (serverProcess udpSocket).Trace es S)
    (hcall : S.calls i = .entered c) : c.tran.udpSocket = udpSocket := by
  have hall : ∀ c, S.calls i = .entered c → c.tran.udpSocket = udpSocket := by
    refine h.invariant (I := fun _ S => ∀ c, S.calls i = .entered c → c.tran.udpSocket = udpSocket) ?_ ?_
    · rintro S rfl c hc
      contradiction
    · intro es S act S' e _ ih hstep c hc
      cases hbefore : (S.calls i).call? with
      | none => exact (step_entering hbefore hstep hc).2.1
      | some d =>
        rw [CallStatus.call?_eq_some] at hbefore
        cases step_callMove hbefore hstep with
        | still d' hd' htran =>
          cases hc.symm.trans hd'
          rw [htran]
          exact ih d hbefore
        | moved a s' es' hmove hd' =>
          cases hc.symm.trans hd'
          exact ih d hbefore
  exact hall c hcall

/-- The datagrams of a transaction leave from the socket of the server. -/
theorem sent_source {x : ServerEvent} {p : Packet} (h : (serverProcess udpSocket).Trace es S)
    (hx : .call i x ∈ es) (hp : x.packet? = some p) : p.src = udpSocket := by
  revert hx
  refine h.invariant (I := fun es _ => .call i x ∈ es → p.src = udpSocket) ?_ ?_
  · intro S _ hx
    contradiction
  · intro es S act S' e htrace ih hstep hx
    rcases List.mem_append.mp hx with hold | hnew
    · exact ih hold
    · obtain ⟨d, a, s', es', hd, hmove, hmem, -⟩ := (step_change hstep).call hnew
      have hsocket := tran_udpSocket htrace hd
      rcases ServerState.step_packet (sendingInv_of_trace (call_trace htrace hd)) hmove hmem hp with
        ⟨id, -, rfl⟩ | ⟨-, -, rfl⟩ | ⟨psn, -, rfl⟩
      · exact hsocket
      · exact hsocket
      · exact hsocket

end ServerProcess

end Trftp
