import Trftp.System.Content

/-!
# End-to-end safety of one transfer

The joint invariant has four parts: every datagram in the network is genuine, the message
in the server's `OnReceive` came from the network, the client's file is a prefix of the
served file, and the client handed a file over only behind FIN. Each step extends the
events, so what is known about the network stays known.
-/

namespace Trftp

open Lib (EventMachine EachWithPast firstChunks)

namespace ServerState

variable {t : ServerTransaction} {s s' : ServerState} {e : List ServerEvent} {r : Received}

/-- Only a delivery brings a message into `OnReceive`. -/
theorem step_message {a : ServerAction} (h : s.step t a = some (s', e))
    (hr : s'.receiver.message? = some r) : s.receiver.message? = some r ∨ a = .deliver r := by
  cases a with
  | driver => exact Or.inl (by rwa [(driverStep_frame h).receiver] at hr)
  | timeout =>
    rw [timeoutStep_frame h] at hr
    exact Or.inl hr
  | sender fileOk => exact Or.inl (by rwa [(senderStep_frame h).receiver] at hr)
  | deliver r' =>
    obtain ⟨-, -, rfl⟩ := deliverStep_eq h
    simp only at hr
    split_ifs at hr
    · cases hr
      exact Or.inr rfl
    · contradiction
  | receiver =>
    rcases receiverStep_eq h with ⟨-, receiver, rfl, rfl | hsame⟩ | ⟨id, r, -, -, -, -, rfl⟩
    · contradiction
    · exact Or.inl (hsame ▸ hr)
    · contradiction
  | abort =>
    obtain ⟨-, rfl, -⟩ := abortStep_eq h
    exact Or.inl hr
  | abortSend =>
    obtain ⟨rfl, -⟩ := abortSendStep_eq h
    exact Or.inl hr

end ServerState

namespace ClientTransaction

variable {c : ClientTransaction} {tr : Transfer} {v w : ClientVars} {r : Received} {ops : FileOps}
  {e : List ClientEvent} {es : List SystemEvent} {cur : List ClientEvent} {id : MessageId} {p : Packet}

/-- A cancelled transaction sends CXL and nothing else. -/
theorem Cancelled.sent (h : Cancelled c w e) {x : ClientEvent} (hx : x ∈ e) {q : Packet}
    (hq : x.packet? = some q) : ∃ v', q = c.packet v' .cxl := by
  obtain ⟨writes, v', rfl⟩ := h.events
  simp only [List.mem_append, List.mem_map, List.mem_singleton] at hx
  rcases hx with ⟨data, -, rfl⟩ | rfl
  · cases hq
  · cases hq
    exact ⟨v', rfl⟩

/-- A reaction sends a message of the client, and DONE only behind a verified file. -/
theorem Reaction.sent (h : Reaction c v r ops w e) {x : ClientEvent} (hx : x ∈ e) {q : Packet}
    (hq : x.packet? = some q) :
    (∃ id v', (id = .chk ∨ id = .rdy ∨ id = .rtx ∨ id = .cxl) ∧ q = c.packet v' id) ∨
      ∃ file, .verified file ∈ e ∧ w.status = .done ∧ q = c.packet w .done := by
  cases h with
  | discarded => simp at hx
  | cancelled h =>
    obtain ⟨v', rfl⟩ := h.sent hx hq
    exact Or.inl ⟨.cxl, v', by simp, rfl⟩
  | notified _ h =>
    simp only [h.events, List.mem_cons, List.not_mem_nil, or_false] at hx
    rcases hx with rfl | rfl <;> cases hq
    exact Or.inl ⟨.chk, w, by simp, rfl⟩
  | informed _ h =>
    simp only [h.events, List.mem_cons, List.not_mem_nil, or_false] at hx
    rcases hx with rfl | rfl <;> cases hq
    exact Or.inl ⟨.rdy, w, by simp, rfl⟩
  | requested =>
    simp only [List.mem_singleton] at hx
    subst hx
    cases hq
    exact Or.inl ⟨.rtx, _, by simp, rfl⟩
  | written =>
    simp only [List.mem_singleton] at hx
    subst hx
    cases hq
  | completed _ _ _ h =>
    obtain ⟨file, -, -, -, rfl⟩ := h.file
    simp only [List.mem_cons, List.not_mem_nil, or_false] at hx
    rcases hx with rfl | rfl | rfl <;> cases hq
    exact Or.inr ⟨file, by simp, by rw [h.vars], rfl⟩
  | finished _ h =>
    rw [h.events] at hx
    split_ifs at hx
    · simp only [List.mem_singleton] at hx
      subst hx
      cases hq
    · simp at hx

/-- A genuine datagram keeps the client's file a prefix of the served file, and a file that is verified
is the served file. -/
theorem Reaction.contentOk (h : Reaction tr.client v r ops w e)
    (hintact : r.msg.intact r.len = true ∨ e = []) (hgen : Genuine tr es id p) (hfrom : r.From p)
    (hv : ContentOk tr.server v) (hstatus : StatusOk cur v) :
    ContentOk tr.server w ∧
      ∀ file, .verified file ∈ e → file = tr.server.served ∧ tr.server.Transferable := by
  have hkind := hgen.id?_eq hfrom
  cases h with
  | discarded => exact ⟨hv, by simp⟩
  | cancelled h =>
    obtain ⟨writes, v', rfl⟩ := h.events
    exact ⟨by simp [ContentOk, h.status], by simp⟩
  | notified hid h =>
    rw [hid] at hkind
    cases hkind
    have hversion := (hgen.arrived hfrom (Or.inl rfl)).word 0 _ rfl
    refine ⟨?_, by simp [h.events]⟩
    rw [h.vars]
    exact hversion
  | informed hid h =>
    rw [hid] at hkind
    cases hkind
    exact ⟨h.contentOk (hgen.arrived hfrom (Or.inr rfl)) hv hstatus, by simp [h.events]⟩
  | requested => exact ⟨hv, by simp⟩
  | written hid h =>
    rw [hid] at hkind
    cases hkind
    obtain ⟨psn, -, harrived⟩ := hgen.dataArrived hfrom
    exact ⟨h.contentOk harrived hv hstatus, by simp⟩
  | completed hid h hlast hdone =>
    rw [hid] at hkind
    cases hkind
    obtain ⟨psn, hpsn, harrived⟩ := hgen.dataArrived hfrom
    obtain ⟨hcontent, hserved⟩ := hdone.contentOk hlast (h.contentOk harrived hv hstatus)
    refine ⟨hcontent, fun file hmem => ⟨hserved file ((List.mem_cons.mp hmem).resolve_left (by simp)), ?_⟩⟩
    exact h.transferable hpsn harrived (hintact.resolve_right (by simp)) hlast
      (receiving_of_dataStatus h.status hv).1 (transferring_of_dataStatus h.status hstatus).range
  | finished _ h =>
    refine ⟨by rw [h.vars]; trivial, ?_⟩
    rw [h.events]
    split_ifs <;> simp

/-- A file is handed over on FIN, with the version of the transaction. -/
theorem Reaction.version (h : Reaction c v r ops w e) {file : Option (List UInt8)} {version : UInt32}
    (hmem : .fileReceived file version ∈ e) :
    r.id? = some .fin ∧ v.status = .done ∧ version = v.newFileVersion := by
  cases h with
  | discarded | requested | written => simp at hmem
  | cancelled h =>
    obtain ⟨writes, v', rfl⟩ := h.events
    simp at hmem
  | notified _ h => simp [h.events] at hmem
  | informed _ h => simp [h.events] at hmem
  | completed _ _ _ h =>
    obtain ⟨file', -, -, -, rfl⟩ := h.file
    simp at hmem
  | finished hid h =>
    rw [h.events] at hmem
    split_ifs at hmem
    · simp only [List.mem_singleton, ClientEvent.fileReceived.injEq] at hmem
      exact ⟨hid, h.done, hmem.2⟩
    · simp at hmem

end ClientTransaction

/-- What holds of the network, and of the server that reads from it. -/
structure NetInv (tr : Transfer) (es : List SystemEvent) (server : ServerState) (net : List Packet) : Prop where
  genuine : ∀ p ∈ net, ∃ id, Genuine tr es id p
  heard : ∀ r, server.receiver.message? = some r → ∃ p ∈ net, r.From p
  accepted : ∀ id r, .server (.accepted id r) ∈ es → ∃ p ∈ net, r.From p ∧ r.id? = some id

/-- Whenever `OnFileReceived` was called, the server had accepted DONE and sent FIN, and the version was its
own. -/
def HandedOverLast (tr : Transfer) (pre : List SystemEvent) (x : SystemEvent) : Prop :=
  ∀ file version, x = .client (.fileReceived file version) →
    version = tr.server.newFileVersion ∧ (∃ q, .server (.sent .fin q) ∈ pre) ∧
      ∃ r, .server (.accepted .done r) ∈ pre

namespace NetInv

variable {tr : Transfer} {es : List SystemEvent} {server : ServerState} {net : List Packet}

/-- A DONE that the server accepted was sent behind the verification of the served file. -/
theorem of_accepted_done (hinv : NetInv tr es server net) {r : Received}
    (hmem : .server (.accepted .done r) ∈ es) :
    .client (.verified tr.server.served) ∈ es ∧ tr.server.Transferable := by
  obtain ⟨p, hp, hfrom, hid⟩ := hinv.accepted _ _ hmem
  obtain ⟨id, hgen⟩ := hinv.genuine p hp
  have hkind := hgen.id?_eq hfrom
  rw [hid] at hkind
  cases hkind
  exact hgen.of_done

/-- The server's part of the trace. -/
theorem mem_server {x : ServerEvent} (h : x ∈ es.filterMap SystemEvent.server?) : .server x ∈ es := by
  obtain ⟨y, hy, heq⟩ := List.mem_filterMap.mp h
  cases y with
  | server z => exact Option.some.inj heq ▸ hy
  | client z => cases heq

/-- A statement of the server keeps the invariant. -/
theorem server_step (hinv : NetInv tr es server net)
    (htrace : (serverMachine tr.server).Trace (es.filterMap SystemEvent.server?) server)
    {a : ServerAction} {server' : ServerState} {e : List ServerEvent}
    (h : server.step tr.server a = some (server', e)) (hdeliver : ∀ r, a = .deliver r → ∃ p ∈ net, r.From p) :
    NetInv tr (es ++ e.map .server) server' (net ++ e.filterMap ServerEvent.packet?) := by
  have hsend := sendingInv_of_trace htrace
  have hhand := handshakeInv_of_trace htrace
  refine ⟨fun p hp => ?_, fun r hr => ?_, fun id r hmem => ?_⟩
  · rcases List.mem_append.mp hp with hold | hnew
    · obtain ⟨id, hgen⟩ := hinv.genuine p hold
      exact ⟨id, hgen.append _⟩
    · obtain ⟨x, hx, hpacket⟩ := List.mem_filterMap.mp hnew
      rcases ServerState.step_packet hsend h hx hpacket with ⟨id, hid, rfl⟩ | ⟨hpos, rfl, rfl⟩ | ⟨psn, hpsn, rfl⟩
      · exact ⟨id, .request hid⟩
      · obtain ⟨pre, post, r, hes, -⟩ := hhand.succeeded (by rw [hpos]; rfl)
        refine ⟨.fin, .fin ⟨_, List.mem_append_right _ (List.mem_map_of_mem hx)⟩ ⟨r, ?_⟩⟩
        refine List.mem_append_left _ (mem_server ?_)
        rw [hes]
        simp
      · exact ⟨.data, .data hpsn⟩
  · rcases ServerState.step_message h hr with hold | hnew
    · obtain ⟨p, hp, hfrom⟩ := hinv.heard r hold
      exact ⟨p, List.mem_append_left _ hp, hfrom⟩
    · obtain ⟨p, hp, hfrom⟩ := hdeliver r hnew
      exact ⟨p, List.mem_append_left _ hp, hfrom⟩
  · rcases List.mem_append.mp hmem with hold | hnew
    · obtain ⟨p, hp, hrest⟩ := hinv.accepted id r hold
      exact ⟨p, List.mem_append_left _ hp, hrest⟩
    · obtain ⟨x, hx, heq⟩ := List.mem_map.mp hnew
      cases heq
      obtain ⟨-, hcommit, hid, -⟩ := ServerState.step_accepted h hx
      have hmessage : server.receiver.message? = some r := by rw [hcommit]; rfl
      obtain ⟨p, hp, hfrom⟩ := hinv.heard r hmessage
      exact ⟨p, List.mem_append_left _ hp, hfrom, hid⟩

/-- So does a step of the client that sends genuine datagrams. -/
theorem client_step (hinv : NetInv tr es server net) {e : List ClientEvent} {sent : List Packet}
    (hsent : ∀ p ∈ sent, ∃ id, Genuine tr (es ++ e.map .client) id p) :
    NetInv tr (es ++ e.map .client) server (net ++ sent) := by
  refine ⟨fun p hp => ?_, fun r hr => ?_, fun id r hmem => ?_⟩
  · rcases List.mem_append.mp hp with hold | hnew
    · obtain ⟨id, hgen⟩ := hinv.genuine p hold
      exact ⟨id, hgen.append _⟩
    · exact hsent p hnew
  · obtain ⟨p, hp, hfrom⟩ := hinv.heard r hr
    exact ⟨p, List.mem_append_left _ hp, hfrom⟩
  · obtain ⟨p, hp, hrest⟩ := hinv.accepted id r ((List.mem_append.mp hmem).resolve_right (by simp))
    exact ⟨p, List.mem_append_left _ hp, hrest⟩

end NetInv

/-- What holds of both parties and of the network in every reachable state. -/
structure SystemInv (tr : Transfer) (es : List SystemEvent) (s : SystemState) : Prop where
  net : NetInv tr es s.server s.net
  content : ContentOk tr.server s.client.vars
  handed : EachWithPast (HandedOverLast tr) es

namespace SystemInv

variable {tr : Transfer} {es : List SystemEvent} {s : SystemState}

/-- A statement of the server keeps the invariant. -/
theorem server_step (hinv : SystemInv tr es s) (htrace : (systemMachine tr).Trace es s)
    {a : ServerAction} {server : ServerState} {e : List ServerEvent}
    (h : s.server.step tr.server a = some (server, e))
    (hdeliver : ∀ r, a = .deliver r → ∃ p ∈ s.net, r.From p) :
    SystemInv tr (es ++ e.map .server)
      { s with server := server, net := s.net ++ e.filterMap ServerEvent.packet? } := by
  refine ⟨hinv.net.server_step ((serverProjection tr).trace htrace) h hdeliver, hinv.content,
    hinv.handed.append (.of_forall fun pre x hx file version heq => ?_)⟩
  subst heq
  simp at hx

/-- What the client's reaction to a genuine datagram adds. -/
theorem client_step (hinv : SystemInv tr es s) {client : ClientState} {e : List ClientEvent}
    (hcontent : ContentOk tr.server client.vars)
    (hsent : ∀ x ∈ e, ∀ q, x.packet? = some q → ∃ id, Genuine tr (es ++ e.map .client) id q)
    (hhanded : ∀ file version, .fileReceived file version ∈ e →
      version = tr.server.newFileVersion ∧ (∃ q, .server (.sent .fin q) ∈ es) ∧
        ∃ r, .server (.accepted .done r) ∈ es) :
    SystemInv tr (es ++ e.map .client)
      { s with client := client, net := s.net ++ e.filterMap ClientEvent.packet? } := by
  refine ⟨hinv.net.client_step fun p hp => ?_, hcontent, hinv.handed.append ?_⟩
  · obtain ⟨x, hx, hpacket⟩ := List.mem_filterMap.mp hp
    exact hsent x hx p hpacket
  · refine .of_forall fun pre x hx file version heq => ?_
    subst heq
    obtain ⟨y, hy, heq⟩ := List.mem_map.mp hx
    cases heq
    obtain ⟨hversion, hfin, hdone⟩ := hhanded file version hy
    exact ⟨hversion, hfin.imp fun _ h => List.mem_append_left _ h,
      hdone.imp fun _ h => List.mem_append_left _ h⟩

/-- The client's reaction to a genuine datagram keeps the invariant. -/
theorem reaction_step (hinv : SystemInv tr es s) {v w : ClientVars} {r : Received} {ops : FileOps}
    {e : List ClientEvent} {cur : List ClientEvent} {p : Packet} (pre : List ClientEvent)
    (hp : p ∈ s.net) (hfrom : r.From p) (h : ClientTransaction.Reaction tr.client v r ops w e)
    (hintact : r.msg.intact r.len = true ∨ e = []) (hv : ContentOk tr.server v) (hstatus : StatusOk cur v)
    (hpre : pre = [] ∨ pre = [.began]) :
    SystemInv tr (es ++ (pre ++ e).map .client)
      { s with client := ⟨w, false⟩, net := s.net ++ (pre ++ e).filterMap ClientEvent.packet? } := by
  obtain ⟨id, hgen⟩ := hinv.net.genuine p hp
  obtain ⟨hcontent, hverified⟩ := h.contentOk hintact hgen hfrom hv hstatus
  have hold : ∀ {x : ClientEvent}, x ∈ pre ++ e → x = .began ∨ x ∈ e := by
    intro x hx
    rcases hpre with rfl | rfl
    · exact Or.inr hx
    · simpa using hx
  refine hinv.client_step hcontent (fun x hx q hq => ?_) fun file version hmem => ?_
  · rcases hold hx with rfl | hx
    · cases hq
    · rcases h.sent hx hq with ⟨id, v', hid, rfl⟩ | ⟨file, hmem, hdone, rfl⟩
      · exact ⟨id, .reply hid⟩
      · obtain ⟨rfl, hsize⟩ := hverified file hmem
        rw [ContentOk, hdone] at hcontent
        refine ⟨.done, .done (List.mem_append_right _ (List.mem_map_of_mem ?_)) hsize hcontent.1⟩
        exact List.mem_append_right _ hmem
  · have hmem' := (hold hmem).resolve_left (by simp)
    obtain ⟨hid, hdone, hversion⟩ := h.version hmem'
    have hkind := hgen.id?_eq hfrom
    rw [hid] at hkind
    cases hkind
    rw [ContentOk, hdone] at hv
    exact ⟨hversion.trans hv.1.version, hgen.of_fin⟩

/-- A step that shows one quiet event of the client, or none, keeps the invariant. -/
theorem quiet_step (hinv : SystemInv tr es s) {client : ClientState} (hvars : client.vars = s.client.vars)
    {e : List ClientEvent} (hquiet : e = [] ∨ e = [.terminated]) :
    SystemInv tr (es ++ e.map .client)
      { s with client := client, net := s.net ++ e.filterMap ClientEvent.packet? } := by
  refine hinv.client_step (hvars ▸ hinv.content) (fun x hx q hq => ?_) fun file version hmem => ?_
  · rcases hquiet with rfl | rfl
    · simp at hx
    · simp only [List.mem_singleton] at hx
      subst hx
      cases hq
  · rcases hquiet with rfl | rfl <;> simp at hmem

/-- Every step of the system keeps the invariant. -/
theorem step (hinv : SystemInv tr es s) (htrace : (systemMachine tr).Trace es s) {a : SystemAction}
    {s' : SystemState} {e : List SystemEvent} (h : s.step tr a = some (s', e)) :
    SystemInv tr (es ++ e) s' := by
  have hclient : ClientInv (es.filterMap SystemEvent.client?) s.client :=
    clientInv_of_trace ((clientProjection tr).trace htrace)
  cases SystemState.step_cases h with
  | server hstep hlocal =>
    refine hinv.server_step htrace hstep fun r hr => ?_
    subst hr
    cases hlocal
  | heard hmem hfrom hstep =>
    refine hinv.server_step htrace hstep fun r hr => ?_
    cases hr
    exact ⟨_, hmem, hfrom⟩
  | @received p r a client e hmem hfrom haction hstep =>
    cases ClientState.step_cases hstep with
    | dropped => exact hinv.quiet_step (by rfl) (Or.inl rfl)
    | terminated => exact hinv.quiet_step (by rfl) (Or.inr rfl)
    | timeout => cases haction
    | @began r' ops' w e hdead hreact hintact =>
      cases haction
      -- a transaction that begins has ended before, so its status says nothing
      have hkeep := (ClientTransaction.reset_status { s.client.vars with isActive := true } ops').1
      have hcontent : ContentOk tr.server
          (ClientTransaction.reset { s.client.vars with isActive := true } ops') := by
        rw [ContentOk, hkeep]
        rcases hclient.dead hdead with hfin | hcxl
        · simp [hfin]
        · simp [hcxl]
      have hstatus : StatusOk [] (ClientTransaction.reset { s.client.vars with isActive := true } ops') := by
        rw [StatusOk, hkeep]
        rcases hclient.dead hdead with hfin | hcxl
        · simp [hfin]
        · simp [hcxl]
      exact hinv.reaction_step [.began] hmem hfrom hreact hintact (hcontent.heardFrom _)
        (hstatus.heardFrom _) (Or.inr rfl)
    | @received r' ops' w e halive hjoin hreact hintact =>
      cases haction
      exact hinv.reaction_step [] hmem hfrom hreact hintact (hinv.content.heardFrom _)
        (hclient.status.heardFrom _) (Or.inl rfl)
  | timeout hstep =>
    cases ClientState.step_cases hstep with
    | terminated => exact hinv.quiet_step (by rfl) (Or.inr rfl)
    | timeout hcancel =>
      refine hinv.client_step ?_ (fun x hx q hq => ?_) fun file version hmem => ?_
      · simp [ContentOk, hcancel.status]
      · obtain ⟨v', rfl⟩ := hcancel.sent hx hq
        exact ⟨.cxl, .reply (by simp)⟩
      · obtain ⟨writes, v', rfl⟩ := hcancel.events
        simp at hmem

end SystemInv

/-- The joint invariant holds in every reachable state. -/
theorem systemInv_of_trace {tr : Transfer} {es : List SystemEvent} {s : SystemState}
    (h : (systemMachine tr).Trace es s) : SystemInv tr es s := by
  refine h.invariant ?_ fun htrace hinv hstep => hinv.step htrace hstep
  rintro s ⟨hserver, ⟨tempFile, hclient⟩, hnet⟩
  refine ⟨⟨by simp [hnet], by simp [hserver, ServerTransaction.registeredState, ReceiverPos.message?],
    by simp⟩, ?_, .nil⟩
  rw [hclient]
  trivial

/-- A run whose events contain the acceptance of DONE, or in which `StartFileTransfer` returned FIN,
took the client to DONE with the served file. -/
theorem verified_of_returned_fin {tr : Transfer} {es : List SystemEvent} {s : SystemState}
    (h : (systemMachine tr).Trace es s) (hfin : s.server.driver = .returned .fin) :
    .client (.verified tr.server.served) ∈ es ∧ tr.server.Transferable := by
  have hserver : (serverMachine tr.server).Trace (es.filterMap SystemEvent.server?) s.server :=
    (serverProjection tr).trace h
  obtain ⟨pre, post, r, hes, -⟩ := (handshakeInv_of_trace hserver).succeeded (by rw [hfin]; rfl)
  refine (systemInv_of_trace h).net.of_accepted_done (r := r) (NetInv.mem_server ?_)
  rw [hes]
  simp

/-- One transfer over a network that may lose, repeat, delay and reorder, to a client that handles one datagram at
a time.

In RDY and DATA the client has written the packets of the served file before the one that it expects, and
in DONE the file at its path is the served file. If `StartFileTransfer` returned FIN, the client verified the
served file. If the client called `OnFileReceived`, the server had accepted DONE and sent FIN, and the
version is the server's. -/
theorem transfer_safe {tr : Transfer} {es : List SystemEvent} {s : SystemState}
    (h : (systemMachine tr).Trace es s) :
    (s.client.vars.status = .rdy ∨ s.client.vars.status = .data →
      s.client.vars.newFileStream.written = firstChunks sizeofPayload tr.server.served
        s.client.vars.packetSequenceNumber.toNat) ∧
    (s.client.vars.status = .done → s.client.vars.tempFile = some tr.server.served) ∧
    (s.server.driver = .returned .fin → .client (.verified tr.server.served) ∈ es) ∧
    (∀ pre file version post, es = pre ++ .client (.fileReceived file version) :: post →
      (∃ r, .server (.accepted .done r) ∈ pre) ∧ (∃ p, .server (.sent .fin p) ∈ pre) ∧
        version = tr.server.newFileVersion) := by
  have hinv := systemInv_of_trace h
  have hcontent := hinv.content
  refine ⟨fun hstatus => ?_, fun hstatus => ?_, fun hfin => (verified_of_returned_fin h hfin).1, ?_⟩
  · rcases hstatus with hs | hs
    · rw [ContentOk, hs] at hcontent
      exact hcontent.2
    · rw [ContentOk, hs] at hcontent
      exact hcontent.2
  · rw [ContentOk, hstatus] at hcontent
    exact hcontent.2.1
  · intro pre file version post heq
    obtain ⟨hversion, hfin, hdone⟩ := hinv.handed pre _ post heq file version rfl
    exact ⟨hdone, hfin, hversion⟩

/-! ## A complete transfer of two packets -/

/-- The transfer of two packets to a small client. -/
def smallTransfer : Transfer := ⟨twoPackets, smallClient, rfl⟩

/-- A message of the server reaches the client's loop. -/
def deliverToLoop (id : MessageId) : SystemAction :=
  .toLoop (twoPackets.packet smallClient.udpSocket id) (twoPackets.received id) roomyDisk

/-- A message of the client reaches the server, which runs `OnReceive` to its end. -/
def deliverToServer (id : MessageId) (steps : ℕ) : List SystemAction :=
  .toServer (twoPackets.replyPacket id) (twoPackets.reply id) :: List.replicate steps (.server .receiver)

/-- The first packet reaches the client's loop. -/
def deliverFirst : SystemAction :=
  .toLoop (twoPackets.dataPacket smallClient.udpSocket 0 (List.replicate 1408 0))
    firstReceived roomyDisk

/-- The second packet reaches the client's loop. -/
def deliverSecond : SystemAction :=
  .toLoop (twoPackets.dataPacket smallClient.udpSocket 1 [0])
    secondReceived roomyDisk

/-- The statements up to the wait for DONE, with the sender thread still to run. -/
def untilData : List SystemAction :=
  List.flatten
    [List.replicate 3 (.server .driver),
      [.toMain (twoPackets.packet twoPackets.addr .ntf) (twoPackets.received .ntf) roomyDisk],
      deliverToServer .chk 2, List.replicate 5 (.server .driver),
      [deliverToLoop .info], deliverToServer .rdy 2, List.replicate 5 (.server .driver)]

/-- The statements of a complete transfer. -/
def completeSchedule : List SystemAction :=
  List.flatten
    [untilData, List.replicate 16 (.server (.sender true)), [deliverFirst, deliverSecond],
      deliverToServer .done 3, List.replicate 5 (.server .driver), [deliverToLoop .fin]]

/-- The transfer before its first step. -/
def smallStart : SystemState :=
  ⟨twoPackets.registeredState, ⟨ClientTransaction.initialVars none, false⟩, []⟩

end Trftp
