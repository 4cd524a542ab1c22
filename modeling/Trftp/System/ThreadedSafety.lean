import Trftp.System.Loops

/-!
# Safety with the two threads of the client

Every statement of the receive loop finds the members as the one before has left them, as long as
`Begin` stores true in `is_active_` only when the receive loop started before is over; then the
transfer is safe at each statement. Without this condition a repeated NTF clears the version
between the acceptance of FIN and the callback.
-/

namespace Trftp

open Lib (EventMachine EachWithPast firstChunks)

/-- A genuine datagram is received whole, whatever was in the buffer. -/
theorem Genuine.received {tr : Transfer} {es : List SystemEvent} {id : MessageId} {p : Packet}
    {buffer : TrftpMessage} {r : Received} (h : Genuine tr es id p) (hr : udpReceive buffer p.datagram = some r) :
    r.From p := by
  refine udpReceive_from hr ?_
  cases h <;> exact Packet.length_ofMessage_le _ _ _ _

/-- What holds of both parties and of the network, with the events of the client's threads. -/
structure ThreadedInv (tr : Transfer) (es : List ThreadedEvent) (s : ThreadedState) : Prop where
  net : NetInv tr (es.filterMap ThreadedEvent.system?) s.server s.net
  client : ClientOk tr.server (.client (.verified tr.server.served) ∈ es.filterMap ThreadedEvent.system?) s.client
  heard : ∀ r, s.client.main.message? = some r ∨ s.client.loop.message? = some r → ∃ p ∈ s.net, r.From p
  handed : EachWithPast (HandedOverLast tr) (es.filterMap ThreadedEvent.system?)

namespace ThreadedInv

variable {tr : Transfer} {es : List ThreadedEvent} {s : ThreadedState}

/-- What the server has shown is the same for both systems. -/
theorem filterMap_server? (es : List ThreadedEvent) :
    (es.filterMap ThreadedEvent.system?).filterMap SystemEvent.server? = es.filterMap ThreadedEvent.server? := by
  rw [List.filterMap_filterMap]
  refine List.filterMap_congr fun x _ => ?_
  cases x with
  | server e => rfl
  | client e =>
    show (e.client?.map SystemEvent.client).bind SystemEvent.server? = none
    cases e.client? <;> rfl

/-- A statement of the server keeps the invariant. -/
theorem server_step (hinv : ThreadedInv tr es s) (htrace : (threadedMachine tr).Trace es s) {a : ServerAction}
    {server : ServerState} {e : List ServerEvent} (h : s.server.step tr.server a = some (server, e))
    (hdeliver : ∀ r, a = .deliver r → ∃ p ∈ s.net, r.From p) :
    ThreadedInv tr (es ++ e.map .server)
      { s with server := server, net := s.net ++ e.filterMap ServerEvent.packet? } := by
  have hserver : (serverMachine tr.server).Trace
      ((es.filterMap ThreadedEvent.system?).filterMap SystemEvent.server?) s.server := by
    rw [filterMap_server?]
    exact (threadedServerProjection tr).trace htrace
  have hevents : (es ++ e.map ThreadedEvent.server).filterMap ThreadedEvent.system? =
      es.filterMap ThreadedEvent.system? ++ e.map .server := by
    rw [List.filterMap_append, (filterMap_threaded_server e).2.2]
  constructor
  · rw [hevents]
    exact hinv.net.server_step hserver h hdeliver
  · rw [hevents]
    exact hinv.client.mono fun hmem => List.mem_append_left _ hmem
  · intro r hr
    obtain ⟨p, hp, hfrom⟩ := hinv.heard r hr
    exact ⟨p, List.mem_append_left _ hp, hfrom⟩
  · rw [hevents]
    refine hinv.handed.append (.of_forall fun pre x hx file version heq => ?_)
    subst heq
    simp at hx

/-- What the loops of the client work on are messages of the transfer. -/
theorem heard_client (hinv : ThreadedInv tr es s) {r : Received}
    (hr : s.client.main.message? = some r ∨ s.client.loop.message? = some r) : Heard tr.server r := by
  obtain ⟨p, hp, hfrom⟩ := hinv.heard r hr
  obtain ⟨id, hgen⟩ := hinv.net.genuine p hp
  exact hgen.heard hfrom

/-- The receive loop calls back on a FIN that the server has sent. -/
theorem fin_sent (hinv : ThreadedInv tr es s) {r : Received} (hpos : s.client.loop = .onReceive .finCall r) :
    (∃ q, .server (.sent .fin q) ∈ es.filterMap ThreadedEvent.system?) ∧
      ∃ r, .server (.accepted .done r) ∈ es.filterMap ThreadedEvent.system? := by
  have hloop := hinv.client.loop
  rw [hpos] at hloop
  obtain ⟨hid, -⟩ := hloop.2 .fin rfl
  obtain ⟨p, hp, hfrom⟩ := hinv.heard r (Or.inr (by rw [hpos]; rfl))
  obtain ⟨id, hgen⟩ := hinv.net.genuine p hp
  have hkind := hgen.id?_eq hfrom
  rw [hid] at hkind
  cases hkind
  exact hgen.of_fin

/-- A step of the client keeps the invariant, as long as `Begin` stores true only behind the end of the
receive loop. -/
theorem client_step (hinv : ThreadedInv tr es s) (htrace : (threadedMachine tr).Trace es s)
    {a : ClientProcessAction} {client : ClientProcess} {e : List ClientProcessEvent}
    (h : s.client.step tr.client a = some (client, e))
    (hdeliver : ∀ d, a.datagram? = some d → ∃ p ∈ s.net, d = p.datagram)
    (hclean : .client (.begun false) ∉ es ++ e.map .client) :
    ThreadedInv tr (es ++ e.map .client)
      { s with client := client, net := s.net ++ e.filterMap ClientProcessEvent.packet? } := by
  have hclient := (threadedClientProjection tr).trace htrace
  rw [List.mem_append, not_or] at hclean
  have hbefore : .begun false ∉ es.filterMap ThreadedEvent.client? := by
    intro hmem
    obtain ⟨x, hx, heq⟩ := List.mem_filterMap.mp hmem
    cases x with
    | server => contradiction
    | client y => exact hclean.1 (Option.some.inj heq ▸ hx)
  have hnow : .begun false ∉ e := fun hmem => hclean.2 (List.mem_map_of_mem hmem)
  have halive := ClientProcess.aliveInv_of_trace hclient
  have htransfer := ClientProcess.transferInv_of_trace hclient hbefore
  have hevents : (es ++ e.map ThreadedEvent.client).filterMap ThreadedEvent.system? =
      es.filterMap ThreadedEvent.system? ++ (e.filterMap ClientProcessEvent.client?).map .client := by
    rw [List.filterMap_append, (filterMap_threaded_client e).2.2]
  have hok := hinv.client.step halive htransfer (fun r hr => hinv.heard_client hr) hnow h
  have hshows {thread : ClientThread} {x : ClientEvent} (hmem : .of thread x ∈ e) :=
    ClientProcess.step_shows (x := x) (c := tr.client) hinv.client halive h hmem
  constructor
  · rw [hevents]
    refine hinv.net.client_step fun p hp => ?_
    obtain ⟨x, hx, hpacket⟩ := List.mem_filterMap.mp hp
    cases x with
    | received | begun | rejected | started | finished | threw => contradiction
    | of thread y =>
      cases y with
      | sent id q =>
        cases hpacket
        obtain ⟨rfl, hreply | ⟨rfl, hdelivered, hverified⟩⟩ := (hshows hx).sent id _ rfl
        · exact ⟨id, .reply hreply⟩
        · exact ⟨.done, .done (List.mem_append_left _ hverified) hdelivered.transferable hdelivered.announces⟩
      | began | notified | informed | wrote | verified | fileReceived | terminated => contradiction
  · rw [hevents]
    refine hok.mono fun hverified => ?_
    rcases hverified with hold | hnew
    · exact List.mem_append_left _ hold
    · refine List.mem_append_right _ (List.mem_map_of_mem ?_)
      exact List.mem_filterMap.mpr ⟨_, hnew, rfl⟩
  · intro r hr
    rcases ClientProcess.step_message h hr with hold | ⟨buffer, d, hd, hreceive⟩
    · obtain ⟨p, hp, hfrom⟩ := hinv.heard r hold
      exact ⟨p, List.mem_append_left _ hp, hfrom⟩
    · obtain ⟨p, hp, rfl⟩ := hdeliver d hd
      obtain ⟨id, hgen⟩ := hinv.net.genuine p hp
      exact ⟨p, List.mem_append_left _ hp, hgen.received hreceive⟩
  · rw [hevents]
    refine hinv.handed.append (.of_forall fun pre x hx file version heq => ?_)
    subst heq
    obtain ⟨y, hy, heq⟩ := List.mem_map.mp hx
    cases heq
    obtain ⟨z, hz, heq⟩ := List.mem_filterMap.mp hy
    cases z with
    | received | begun | rejected | started | finished | threw => simp [ClientProcessEvent.client?] at heq
    | of thread z =>
      cases heq
      obtain ⟨⟨r, hpos⟩, hversion⟩ := (hshows hz).handed file version rfl
      obtain ⟨hfin, hdone⟩ := hinv.fin_sent hpos
      exact ⟨hversion, hfin.imp fun _ hmem => List.mem_append_left _ hmem,
        hdone.imp fun _ hmem => List.mem_append_left _ hmem⟩

end ThreadedInv

/-- The joint invariant holds in every state that is reached without a `Begin` over a live loop. -/
theorem threadedInv_of_trace {tr : Transfer} {es : List ThreadedEvent} {s : ThreadedState}
    (h : (threadedMachine tr).Trace es s) (hclean : .client (.begun false) ∉ es) : ThreadedInv tr es s := by
  revert hclean
  refine h.invariant (I := fun es s => .client (.begun false) ∉ es → ThreadedInv tr es s) ?_ ?_
  · rintro ⟨server, client, net⟩ ⟨rfl, ⟨tempFile, rfl⟩, rfl⟩ _
    have hquiet : (ClientTransaction.initialVars tempFile).status.Quiet := by
      simp [MessageId.Quiet, ClientTransaction.initialVars]
    refine ⟨⟨by simp, by simp [ServerTransaction.registeredState, ReceiverPos.message?], by simp⟩,
      ⟨hquiet, trivial, fun _ => ⟨hquiet, rfl⟩, fun _ _ => rfl⟩, fun r hr => ?_, .nil⟩
    rcases hr with hr | hr <;> contradiction
  · intro es s a s' e htrace ih hstep hclean
    have hinv := ih fun hmem => hclean (List.mem_append_left _ hmem)
    cases ThreadedState.step_cases hstep with
    | server hserver hdeliver => exact hinv.server_step htrace hserver hdeliver
    | client hclient hdeliver => exact hinv.client_step htrace hclient hdeliver hclean

/-- The events of the server are those of the system. -/
theorem mem_system_server {es : List ThreadedEvent} {x : ServerEvent} :
    .server x ∈ es.filterMap ThreadedEvent.system? ↔ .server x ∈ es := by
  rw [List.mem_filterMap]
  constructor
  · rintro ⟨y, hy, heq⟩
    cases y with
    | server z =>
      cases heq
      exact hy
    | client z =>
      obtain ⟨w, -, hw⟩ := Option.map_eq_some_iff.mp heq
      contradiction
  · exact fun hmem => ⟨_, hmem, rfl⟩

/-- What the client verified, one of its threads has verified. -/
theorem mem_of_verified {es : List ThreadedEvent} {file : List UInt8}
    (h : .client (.verified file) ∈ es.filterMap ThreadedEvent.system?) :
    ∃ thread, .client (.of thread (.verified file)) ∈ es := by
  obtain ⟨y, hy, heq⟩ := List.mem_filterMap.mp h
  cases y with
  | server => cases heq
  | client z =>
    obtain ⟨w, hw, heq⟩ := Option.map_eq_some_iff.mp heq
    cases heq
    cases z with
    | of thread z =>
      cases hw
      exact ⟨thread, hy⟩
    | received | begun | rejected | started | finished | threw => simp [ClientProcessEvent.client?] at hw

/-- What a safe transfer is, in a state and in the events that lead to it.

In RDY and DATA the client has written the first `min(packet_sequence_number_ * 1408, new_file_size_)`
bytes of the served file, and one packet more from the write of a packet to its counting; in DONE the
file holds them. If `StartFileTransfer` returned FIN, the client entered DONE with exactly the first
`new_file_size_` bytes of the served file. If the client called `OnFileReceived`, the server had
accepted DONE and sent FIN, and the version is the server's. -/
structure TransferSafe (tr : Transfer) (es : List ThreadedEvent) (s : ThreadedState) : Prop where
  written : s.client.vars.status = .rdy ∨ s.client.vars.status = .data →
    s.client.vars.newFileStream.written = tr.server.file.take
      (min ((s.client.vars.packetSequenceNumber.toNat +
        s.client.loop.uncounted s.client.vars.newFileStream.failed) * sizeofPayload)
        s.client.vars.newFileSize.toNat)
  done : s.client.vars.status = .done →
    s.client.vars.tempFile = some (tr.server.file.take
      (min (s.client.vars.packetSequenceNumber.toNat * sizeofPayload) s.client.vars.newFileSize.toNat))
  returned : s.server.driver = .returned .fin →
    ∃ thread, .client (.of thread (.verified (tr.server.file.take tr.server.newFileSize.toNat))) ∈ es
  handed : ∀ pre thread file version post,
    es = pre ++ .client (.of thread (.fileReceived file version)) :: post →
    (∃ r, .server (.accepted .done r) ∈ pre) ∧ (∃ p, .server (.sent .fin p) ∈ pre) ∧
      version = tr.server.newFileVersion

/-- End-to-end safety of one transfer over a network that may lose, repeat, delay and reorder, with the two
threads of the client interleaved statement by statement, as long as `Begin` stores true in
`is_active_` only when the receive loop started before is over. -/
theorem transfer_safe_threaded {tr : Transfer} {es : List ThreadedEvent} {s : ThreadedState}
    (h : (threadedMachine tr).Trace es s) (hclean : .client (.begun false) ∉ es) : TransferSafe tr es s := by
  have hinv := threadedInv_of_trace h hclean
  obtain ⟨hdata, hdone⟩ := hinv.client.written
  constructor
  · intro hstatus
    obtain ⟨hannounces, hwritten⟩ := hdata hstatus
    rw [hwritten, hannounces.size, firstChunks, ServerTransaction.served, List.take_take]
  · intro hstatus
    have hdelivered := hdone hstatus
    rw [hdelivered.file, hdelivered.announces.size, Nat.min_eq_right hdelivered.cover, ServerTransaction.served]
  · intro hfin
    have hserver : (serverMachine tr.server).Trace (es.filterMap ThreadedEvent.server?) s.server :=
      (threadedServerProjection tr).trace h
    obtain ⟨pre, post, r, heq, -⟩ := (handshakeInv_of_trace hserver).succeeded (by rw [hfin]; rfl)
    have haccepted : .server (.accepted .done r) ∈ es.filterMap ThreadedEvent.system? := by
      refine NetInv.mem_server ?_
      rw [ThreadedInv.filterMap_server?, heq]
      simp
    exact mem_of_verified (hinv.net.of_accepted_done haccepted).1
  · rintro pre thread file version post rfl
    have hpast := hinv.handed (pre.filterMap ThreadedEvent.system?) (.client (.fileReceived file version))
      (post.filterMap ThreadedEvent.system?) (by rw [List.filterMap_append]; rfl)
    obtain ⟨hversion, ⟨q, hfin⟩, r, hdone⟩ := hpast file version rfl
    exact ⟨⟨r, mem_system_server.mp hdone⟩, ⟨q, mem_system_server.mp hfin⟩, hversion⟩

/-! ## A transfer of two packets, and a repeated NTF -/

/-- A message of the server reaches the client's receive loop, which makes so many statements. -/
def threadedToLoop (p : Packet) (steps : ℕ) : List ThreadedAction :=
  .toLoop p .blank :: List.replicate steps (.loop roomyDisk)

/-- An NTF of the server reaches the client's main loop, which makes so many statements. -/
def threadedNtf (steps : ℕ) : List ThreadedAction :=
  .toMain (twoPackets.packet twoPackets.addr .ntf) .blank :: List.replicate steps (.main roomyDisk)

/-- A message of the client reaches the server, which runs `OnReceive` to its end. -/
def threadedToServer (id : MessageId) (steps : ℕ) : List ThreadedAction :=
  .toServer (twoPackets.replyPacket id) (twoPackets.reply id) :: List.replicate steps (.server .receiver)

/-- The statements of a transfer up to the store that accepts FIN. -/
def untilFinished : List ThreadedAction :=
  List.flatten
    [List.replicate 3 (.server .driver), threadedNtf 19, [.loop roomyDisk],
      threadedToServer .chk 2, List.replicate 5 (.server .driver),
      threadedToLoop (twoPackets.packet smallClient.udpSocket .info) 13,
      threadedToServer .rdy 2, List.replicate 5 (.server .driver), List.replicate 16 (.server (.sender true)),
      threadedToLoop (twoPackets.dataPacket smallClient.udpSocket 0 (List.replicate 1408 0)) 11,
      threadedToLoop (twoPackets.dataPacket smallClient.udpSocket 1 [0]) 16,
      threadedToServer .done 3, List.replicate 5 (.server .driver),
      threadedToLoop (twoPackets.packet smallClient.udpSocket .fin) 5]

/-- The transfer before its first step. -/
def threadedStart : ThreadedState :=
  ⟨twoPackets.registeredState, ⟨ClientTransaction.initialVars none, .idle, .absent, false⟩, []⟩

/-- It starts a transfer. -/
theorem threadedStart_initial : (threadedMachine smallTransfer).initial threadedStart := ⟨rfl, ⟨none, rfl⟩, rfl⟩

/-- The transfer that nobody disturbs hands the file over. -/
theorem transfer_safe_threaded_twoPackets :
    ∃ s es, (threadedMachine smallTransfer).exec threadedStart (untilFinished ++ [.loop roomyDisk]) = some (s, es) ∧
      s.server.driver = .returned .fin ∧
      .client (.of .loop (.fileReceived (some twoPackets.served) 7)) ∈ es ∧ TransferSafe smallTransfer es s := by
  have hrun : ((threadedMachine smallTransfer).exec threadedStart (untilFinished ++ [.loop roomyDisk])).map
      (fun p => (p.1.server.driver,
        decide (.client (.of .loop (.fileReceived (some twoPackets.served) 7)) ∈ p.2),
        decide (.client (.begun false) ∈ p.2))) = some (.returned .fin, true, false) := by decide +kernel
  obtain ⟨⟨s, es⟩, hexec, heq⟩ := Option.map_eq_some_iff.mp hrun
  simp only [Prod.mk.injEq, decide_eq_true_eq, decide_eq_false_iff_not] at heq
  obtain ⟨hfin, hhanded, hclean⟩ := heq
  exact ⟨s, es, hexec, hfin, hhanded,
    transfer_safe_threaded (EventMachine.exec_trace threadedStart_initial hexec) hclean⟩

/-- Behind the store that accepts FIN the NTF of the transfer is repeated, and `Reset` clears the version
before the callback passes it on. -/
theorem transfer_stale :
    ∃ s es, (threadedMachine smallTransfer).Trace es s ∧
      .client (.of .loop (.fileReceived (some twoPackets.served) 0)) ∈ es ∧ twoPackets.newFileVersion = 7 ∧
      ¬TransferSafe smallTransfer es s := by
  have hrun : ((threadedMachine smallTransfer).exec threadedStart
      (untilFinished ++ threadedNtf 8 ++ [.loop roomyDisk])).map
      (fun p => decide (.client (.of .loop (.fileReceived (some twoPackets.served) 0)) ∈ p.2)) =
        some true := by decide +kernel
  obtain ⟨⟨s, es⟩, hexec, heq⟩ := Option.map_eq_some_iff.mp hrun
  have hmem := of_decide_eq_true heq
  refine ⟨s, es, EventMachine.exec_trace threadedStart_initial hexec, hmem, rfl, fun hsafe => ?_⟩
  obtain ⟨pre, post, hes⟩ := List.append_of_mem hmem
  exact absurd (hsafe.handed pre .loop _ 0 post hes).2.2 (by decide)

end Trftp
