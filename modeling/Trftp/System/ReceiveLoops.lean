import Trftp.Server.Slot
import Trftp.Client.Exceptions

/-!
# What brings a receive loop down

There are three loops that take datagrams of any length and content: the one of the server, the
main loop of the client, and the loop of the client's transaction. None of them catches an
exception. An empty datagram brings each of them down, an NTF at the socket of the transaction
brings its loop down, and nothing else that arrives does.
-/

namespace Trftp

open Lib (EventMachine)

namespace ServerProcess

variable {udpSocket : SockAddr} {S S' : ServerProcess} {e es : List ProcessEvent}

/-- What a call shows is no datagram, and no exception of the receive loop. -/
theorem update_ofCalls (S : ServerProcess) (i : ℕ) (c : Call) (p : ServerState × List ServerEvent) :
    ∀ x ∈ (S.update i c p).2, x.ofCalls = true := by
  intro x hx
  have hcall : x ∈ p.2.map (.call i) → x.ofCalls = true := by
    intro hx
    obtain ⟨y, -, rfl⟩ := List.mem_map.mp hx
    rfl
  unfold update at hx
  split at hx
  · split_ifs at hx
    · rcases List.mem_append.mp hx with hx | hx
      · exact hcall hx
      · cases List.mem_singleton.mp hx
        rfl
    · exact hcall hx
  · exact hcall hx

/-- Steps outside of `Receive`. -/
theorem receiveThrew_iff_of_calls (h : ∀ x ∈ e, x.ofCalls = true) :
    .receiveThrew ∈ e ↔ ∃ d, .received d ∈ e ∧ d.bytes = [] := by
  refine iff_of_false (fun hthrew => ?_) ?_
  · have hcalls := h _ hthrew
    contradiction
  · rintro ⟨d, hmem, -⟩
    have hcalls := h _ hmem
    contradiction

/-- `Receive` throws on an empty datagram, and what follows it does not throw. -/
theorem receive_receiveThrew {buffer : TrftpMessage} {d : Datagram} (h : S.receive buffer d = some (S', e)) :
    .receiveThrew ∈ e ↔ ∃ d, .received d ∈ e ∧ d.bytes = [] := by
  unfold receive at h
  split at h
  case h_1 hempty =>
    cases h
    exact iff_of_true (by simp) ⟨d, by simp, (udpReceive_eq_none_iff buffer d).mp hempty⟩
  case h_2 r hreceive =>
    have hbytes : d.bytes ≠ [] := fun hempty => by
      rw [(udpReceive_eq_none_iff buffer d).mpr hempty] at hreceive
      contradiction
    split at h
    · cases h
      simp [hbytes]
    · rename_i i _
      split at h
      · contradiction
      · rename_i c _
        obtain ⟨p, -, hp⟩ := Option.map_eq_some_iff.mp h
        obtain rfl : .received d :: .dispatched i r :: (S.update i c p).2 = e := congrArg Prod.snd hp
        have hcalls := receiveThrew_iff_of_calls (update_ofCalls S i c p)
        simp [hbytes, hcalls]

/-- The receive loop throws in the step that takes an empty datagram, and in no other. -/
theorem step_receiveThrew {a : ProcessAction} (h : S.step udpSocket a = some (S', e)) :
    .receiveThrew ∈ e ↔ ∃ d, .received d ∈ e ∧ d.bytes = [] := by
  cases a with
  | start i a =>
    simp only [step] at h
    split at h
    · obtain rfl : (S.start udpSocket i a).2 = e := congrArg Prod.snd (Option.some.inj h)
      refine receiveThrew_iff_of_calls ?_
      unfold start
      split
      · simp [ProcessEvent.ofCalls]
      · split <;> simp [ProcessEvent.ofCalls]
    · contradiction
  | call i a =>
    simp only [step] at h
    split at h
    · split_ifs at h
      obtain ⟨p, -, hp⟩ := Option.map_eq_some_iff.mp h
      obtain rfl : (S.update i _ p).2 = e := congrArg Prod.snd hp
      exact receiveThrew_iff_of_calls (update_ofCalls S i _ p)
    · contradiction
  | sendThrows i =>
    simp only [step] at h
    split at h
    · split_ifs at h
      cases h
      simp
    · contradiction
  | senderThrows i =>
    simp only [step] at h
    split at h
    · split_ifs at h
      cases h
      simp
    · contradiction
  | abort clientIp =>
    simp only [step] at h
    split at h
    · cases h
      simp
    · obtain ⟨c, -, h⟩ := Option.bind_eq_some_iff.mp h
      obtain ⟨p, -, hp⟩ := Option.map_eq_some_iff.mp h
      obtain rfl : (S.update _ c p).2 = e := congrArg Prod.snd hp
      exact receiveThrew_iff_of_calls (update_ofCalls S _ c p)
    · contradiction
  | datagram buffer d =>
    simp only [step] at h
    split at h
    · exact receive_receiveThrew h
    · contradiction
  | receiver =>
    simp only [step] at h
    split_ifs at h
    unfold receiver at h
    split at h
    · contradiction
    · split at h
      · contradiction
      · obtain ⟨p, -, hp⟩ := Option.map_eq_some_iff.mp h
        obtain rfl : (S.update _ _ p).2 = e := congrArg Prod.snd hp
        exact receiveThrew_iff_of_calls (update_ofCalls S _ _ p)

/-- An exception has left the receive loop of the server exactly if it has taken an empty datagram. -/
theorem receiveThrew_iff (h : (serverProcess udpSocket).Trace es S) :
    .receiveThrew ∈ es ↔ ∃ d, .received d ∈ es ∧ d.bytes = [] := by
  refine h.invariant (I := fun es _ => .receiveThrew ∈ es ↔ ∃ d, .received d ∈ es ∧ d.bytes = []) ?_ ?_
  · simp
  · intro es S a S' e _ ih hstep
    simp only [List.mem_append, ih, step_receiveThrew hstep, or_and_right, exists_or]

end ServerProcess

/-- The receive loops stay up exactly as long as nothing comes that brings one down.

The main loop and the receive loop of the client are up, and stay so until the receive loop is through
with its message, if and only if neither has taken an empty datagram and the receive loop has not taken
an NTF. No exception has left the receive loop of the server if and only if it has not taken an empty
datagram. -/
theorem receive_loops_stay_iff {c : ClientTransaction} {es : List ClientProcessEvent} {S : ClientProcess}
    {udpSocket : SockAddr} {es' : List ProcessEvent} {S' : ServerProcess}
    (hclient : (clientProcess c).Trace es S) (hserver : (serverProcess udpSocket).Trace es' S') :
    (ClientProcess.LoopStays c S ↔ ∀ thread d r?, .received thread d r? ∈ es → ¬thread.FelledBy d r?) ∧
      (.receiveThrew ∉ es' ↔ ∀ d, .received d ∈ es' → d.bytes ≠ []) := by
  constructor
  · rw [ClientProcess.loopStays_iff hclient]
    simp [Felled]
  · rw [ServerProcess.receiveThrew_iff hserver]
    simp

/-- The datagram in which a message came. -/
def Received.datagram (r : Received) : Datagram := ⟨r.addr, r.msg.toBytes.take r.len⟩

/-- It is not empty. -/
theorem Received.datagram_bytes (r : Received) : r.datagram.bytes ≠ [] := by
  rw [datagram, Ne, List.take_eq_nil_iff, not_or]
  refine ⟨Nat.pos_iff_ne_zero.mp r.len_pos, fun hnil => ?_⟩
  have hlen := r.msg.length_toBytes
  rw [hnil] at hlen
  contradiction

/-- The main loop takes an NTF and starts the receive loop, which takes an INFO and accepts it. -/
def notifiedAndInformed : List ClientProcessAction :=
  .mainDatagram .blank (oneByte.received .ntf).datagram :: List.replicate 18 (.main roomyDisk) ++
    [.loop roomyDisk, .loopDatagram .blank (oneByte.received .info).datagram] ++ List.replicate 13 (.loop roomyDisk)

/-- What a loop takes from its socket. -/
def ClientProcessEvent.received? : ClientProcessEvent → Option (ClientThread × List UInt8 × Option MessageId)
  | .received thread d r? => some (thread, d.bytes, r?.bind Received.id?)
  | _ => none

/-- An NTF at the main port of the client, an INFO at the socket of its transaction, which is answered with RDY,
and a CHK at the port of a server that expects none. -/
theorem receive_loops_stay_notified :
    ∃ es S es' S', (clientProcess smallClient).Trace es S ∧ (serverProcess ⟨2, 2⟩).Trace es' S' ∧
      es.filterMap ClientProcessEvent.received? =
        [(.main, (oneByte.received .ntf).datagram.bytes, some .ntf),
          (.loop, (oneByte.received .info).datagram.bytes, some .info)] ∧
      S.vars.status = .rdy ∧ (∃ d, .received d ∈ es') ∧ ClientProcess.LoopStays smallClient S ∧
      .receiveThrew ∉ es' := by
  have hrun : ((clientProcess smallClient).exec (ClientProcess.waiting (ClientTransaction.initialVars none))
      notifiedAndInformed).map (fun p => (p.2.filterMap ClientProcessEvent.received?, p.1.vars.status)) =
        some ([(.main, (oneByte.received .ntf).datagram.bytes, some .ntf),
          (.loop, (oneByte.received .info).datagram.bytes, some .info)], .rdy) := by
    decide +kernel
  obtain ⟨⟨S, es⟩, hexec, hview⟩ := Option.map_eq_some_iff.mp hrun
  obtain ⟨htaken, hstatus⟩ := Prod.mk.inj hview
  obtain ⟨S', es', hexec', rfl⟩ : ∃ S' es', (serverProcess ⟨2, 2⟩).exec ServerProcess.idle
      [.datagram .blank (oneByte.reply .chk).datagram] = some (S', es') ∧
        es' = [.received (oneByte.reply .chk).datagram] :=
    ⟨_, _, rfl, rfl⟩
  have hclient := EventMachine.exec_trace (M := clientProcess smallClient) ⟨none, rfl⟩ hexec
  have hserver := EventMachine.exec_trace (M := serverProcess ⟨2, 2⟩) rfl hexec'
  have hiff := receive_loops_stay_iff hclient hserver
  refine ⟨es, S, _, S', hclient, hserver, htaken, hstatus, ⟨_, List.mem_singleton_self _⟩, hiff.1.mpr ?_, hiff.2.mpr ?_⟩
  · intro thread d r? hmem hfelled
    have hseen : (thread, d.bytes, r?.bind Received.id?) ∈ es.filterMap ClientProcessEvent.received? :=
      List.mem_filterMap.mpr ⟨_, hmem, rfl⟩
    rw [htaken] at hseen
    simp only [List.mem_cons, Prod.mk.injEq, List.not_mem_nil, or_false] at hseen
    have hkind : d.bytes ≠ [] ∧ (thread = .loop → r?.bind Received.id? = some .info) := by
      rcases hseen with ⟨rfl, hbytes, -⟩ | ⟨rfl, hbytes, hid⟩
      · rw [hbytes]
        exact ⟨Received.datagram_bytes _, fun hloop => ClientThread.noConfusion hloop⟩
      · rw [hbytes]
        exact ⟨Received.datagram_bytes _, fun _ => hid⟩
    rcases hfelled with hempty | ⟨hloop, r, hr, hnotifies⟩
    · exact hkind.1 hempty
    · have hinfo := hkind.2 hloop
      rw [hr, Option.bind_some, hnotifies.2.1] at hinfo
      exact MessageId.noConfusion (Option.some.inj hinfo)
  · intro d₁ hmem
    have heq : d₁ = (oneByte.reply .chk).datagram := ProcessEvent.received.inj (List.mem_singleton.mp hmem)
    rw [heq]
    exact Received.datagram_bytes _

/-- An empty datagram for the main loop and for the server's, and for the receive loop of the
transaction an NTF: each throws. -/
theorem receive_loops_felled :
    (∃ es S, (clientProcess smallClient).Trace es S ∧ .threw .main ∈ es) ∧
      (∃ es S r, (clientProcess smallClient).Trace es S ∧ S.loop = .receive ∧ r.Notifies ∧
        ∃ d e S', (clientProcess smallClient).Run S (.received .loop d (some r) :: e) S' ∧
          S'.terminated = true) ∧
      ∃ es S, (serverProcess ⟨2, 2⟩).Trace es S ∧ .receiveThrew ∈ es := by
  refine ⟨?_, ?_, ?_⟩
  · obtain ⟨S, es, hexec, hthrew⟩ : ∃ S es, (clientProcess smallClient).exec
        (ClientProcess.waiting (ClientTransaction.initialVars none)) [.mainDatagram .blank ⟨⟨2, 2⟩, []⟩] =
          some (S, es) ∧ .threw .main ∈ es := ⟨_, _, rfl, by simp⟩
    exact ⟨es, S, EventMachine.exec_trace (M := clientProcess smallClient) ⟨none, rfl⟩ hexec, hthrew⟩
  · obtain ⟨es, w, hrun, -⟩ := ClientProcess.notify_run smallClient
      (v := ClientTransaction.initialVars none) rfl ClientProcess.oneByte_notifies
    have htrace : (clientProcess smallClient).Trace es ⟨w, .idle, .receive, false⟩ := ⟨_, ⟨none, rfl⟩, hrun⟩
    have hjoinable : w.joinable = true := (ClientProcess.aliveInv_of_trace htrace).joinable (by simp)
    have hdatagram := ClientProcess.loopDatagram_run smallClient w .idle (oneByte.received .ntf)
    have hfelled : ¬ClientProcess.LoopStays smallClient
        ⟨w, .idle, .onReceive .hear (oneByte.received .ntf), false⟩ :=
      ClientProcess.not_loopStays hjoinable rfl ClientProcess.oneByte_notifies
    simp only [ClientProcess.LoopStays, not_forall, Bool.not_eq_false] at hfelled
    obtain ⟨opss, S', e, hexec, hdown⟩ := hfelled
    exact ⟨es, _, _, htrace, rfl, ClientProcess.oneByte_notifies, _, e, S',
      hdatagram.trans (EventMachine.exec_run hexec), hdown⟩
  · obtain ⟨S, es, hexec, hthrew⟩ : ∃ S es, (serverProcess ⟨2, 2⟩).exec ServerProcess.idle
        [.datagram .blank ⟨⟨1, 3⟩, []⟩] = some (S, es) ∧ .receiveThrew ∈ es := ⟨_, _, rfl, by simp⟩
    exact ⟨es, S, EventMachine.exec_trace (M := serverProcess ⟨2, 2⟩) rfl hexec, hthrew⟩

end Trftp
