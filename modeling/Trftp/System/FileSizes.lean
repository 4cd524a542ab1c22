import Trftp.System.Stages
import Trftp.Server.Transmissions

/-!
# The file sizes that can be transferred

Whatever is in flight to the client is the message that it expects, so its answers are those of the
protocol, and every step of a clean run leads from stage to stage. Every step lowers the measure,
and in every stage but the last something can be done. Hence the clean runs of a file transfer it,
if both sides agree on the length of every packet, and they do so for some sizes only.
-/

namespace Trftp

open Lib (EventMachine)

/-- The answers of the protocol are neither CXL nor RTX. -/
theorem Expects.reply_ne {tr : Transfer} {stage stage' : ClientStage} {p : Packet} {reply : Option MessageId}
    (h : Expects tr stage p stage' reply) : reply ≠ some .cxl ∧ reply ≠ some .rtx := by
  cases h with
  | ntf | info | packet | last | fin => decide

namespace CleanState

variable {tr : Transfer} {s : CleanState} {p : Packet} {r : Received} {ops : FileOps}

/-- What reaches the client was sent, and arrives as it was sent. -/
theorem arrival_delivers {q : SystemState × List SystemEvent}
    (h : s.sys.step tr (s.arrival tr p r ops) = some q) : p ∈ s.sys.net ∧ r.From p := by
  unfold arrival at h
  split_ifs at h
  · simp only [SystemState.step] at h
    split_ifs at h with hdelivers
    exact ⟨hdelivers.1, hdelivers.2.1⟩
  · simp only [SystemState.step] at h
    split_ifs at h with hdelivers
    exact ⟨hdelivers.1, hdelivers.2.1⟩

end CleanState

namespace Stage

variable {tr : Transfer} {s s' : CleanState} {e : List SystemEvent} {p : Packet} {rest : List Packet}

/-- What the client has in front of it: the message that it expects. With the answer in flight behind it, a
run comes to a stage again. -/
def Expected (tr : Transfer) (s : CleanState) (p : Packet) (rest : List Packet) : Prop :=
  ∃ stage stage' reply, s.sys.client.At tr.server stage ∧ Expects tr stage p stage' reply ∧
    ∀ client net toServer, client.At tr.server stage' →
      (reply = none ∧ toServer = [] ∨ ∃ id q, reply = some id ∧ toServer = [q] ∧ IsReply tr id q) →
      Stage tr ⟨⟨s.sys.server, client, net⟩, s.toServer ++ toServer, rest⟩

/-- In every stage the first message in flight to the client is the one that it expects. -/
theorem expected (h : Stage tr s) (hqueue : s.toClient = p :: rest) : Expected tr s p rest := by
  cases h with
  | start | requesting | replied | heard | answered | finishing | told => contradiction
  | asked phase hphase hdriver hv hclient =>
    obtain ⟨rfl, rfl⟩ := List.cons.inj hqueue
    have hexpects : Expects tr phase.before (tr.server.packet (phase.address tr) phase.request) phase.after
        (some phase.reply) := by
      cases phase with
      | ntf => exact .ntf
      | info => exact .info
      | data => exact absurd rfl hphase
    refine ⟨_, _, _, hclient, hexpects, ?_⟩
    intro client net toServer hclient' hreply
    rcases hreply with ⟨hnone, -⟩ | ⟨id, q, hid, rfl, hq⟩
    · contradiction
    · obtain rfl := Option.some.inj hid
      exact .replied phase hdriver hv (Or.inl ⟨hphase, rfl⟩) hq hclient'
  | @streaming v driver sender client net received sent hdriver hv hsent hle hmore hclient =>
    have hlt : received < sent := by
      apply lt_of_le_of_ne hle
      intro heq
      rw [heq, Transfer.dataInFlight, Nat.sub_self] at hqueue
      contradiction
    rw [tr.dataInFlight_received hlt] at hqueue
    obtain ⟨rfl, rfl⟩ := List.cons.inj hqueue
    have hnumber : (UInt32.ofNat received).toNat = received :=
      UInt32.toNat_ofNat_of_lt' (hmore.trans tr.server.totalPacketNumber.toNat_lt)
    have hpsn : UInt32.ofNat received < tr.server.totalPacketNumber := by
      rw [UInt32.lt_iff_toNat_lt, hnumber]
      exact hmore
    by_cases hnext : received + 1 < tr.server.totalPacketNumber.toNat
    · refine ⟨_, _, _, hclient, .packet hpsn hnumber hnext, ?_⟩
      intro client net toServer hclient' hreply
      rcases hreply with ⟨-, rfl⟩ | ⟨id, q, hid, -, -⟩
      · exact .streaming (received + 1) sent hdriver hv hsent hlt hnext hclient'
      · contradiction
    · have hlast : received + 1 = tr.server.totalPacketNumber.toNat := by omega
      have hall : sent = tr.server.totalPacketNumber.toNat := by
        have hbound := hsent.le
        omega
      refine ⟨_, _, _, hclient, .last hpsn hnumber hlast, ?_⟩
      intro client net toServer hclient' hreply
      rcases hreply with ⟨hnone, -⟩ | ⟨id, q, hid, rfl, hq⟩
      · contradiction
      · obtain rfl := Option.some.inj hid
        have hempty : tr.dataInFlight (received + 1) sent = [] := by
          rw [hlast, hall, Transfer.dataInFlight, Nat.sub_self]
          rfl
        rw [hempty]
        exact .replied .data hdriver hv (Or.inr ⟨rfl, hall ▸ hsent⟩) hq hclient'
  | finSent hdriver hclient =>
    obtain ⟨rfl, rfl⟩ := List.cons.inj hqueue
    refine ⟨_, _, _, hclient, .fin, ?_⟩
    intro client net toServer hclient' hreply
    rcases hreply with ⟨-, rfl⟩ | ⟨id, q, hid, -, -⟩
    · exact .told hdriver hclient'
    · contradiction

/-- What the delivery of the expected message comes to. -/
structure ClientMove (tr : Transfer) (s s' : CleanState) (e : List SystemEvent) : Prop where
  stage : Stage tr s'
  server : s'.sys.server = s.sys.server
  taken : s.toClient.length = s'.toClient.length + 1
  answer : s'.toServer.length ≤ s.toServer.length + 1
  quiet : ∀ id p, .client (.sent id p) ∈ e → id ≠ .cxl ∧ id ≠ .rtx

/-- The client answers the message that it expects. -/
theorem toClient (ht : tr.server.Transferable) (hserved : tr.server.served = tr.server.file) {r : Received}
    {ops : FileOps} (h : Stage tr s) (hstep : s.step tr (.toClient r ops) = some (s', e)) :
    ClientMove tr s s' e := by
  obtain ⟨p, rest, hqueue, hops, hfollow⟩ := CleanState.step_toClient hstep
  obtain ⟨hsystem, htoServer, htoClient⟩ := CleanState.follow_cases hfollow
  obtain ⟨hnet, hfrom⟩ := CleanState.arrival_delivers hsystem
  obtain ⟨stage, stage', reply, hat, hexpects, hnext⟩ := h.expected hqueue
  obtain ⟨client, events, hanswered, hat', hsends⟩ :=
    CleanState.answered_of_expects ht hserved hat hexpects hnet hfrom hops
  rw [hanswered, SystemState.clientDone, Option.some.injEq, Prod.mk.injEq] at hsystem
  obtain ⟨hsys, rfl⟩ := hsystem
  rw [(CleanState.filterMap_client events).1] at htoServer
  rw [(CleanState.filterMap_client events).2, List.append_nil] at htoClient
  obtain ⟨sys', toServer', toClient'⟩ := s'
  simp only at hsys htoServer htoClient
  subst hsys htoServer htoClient
  have hqueued : reply = none ∧ events.filterMap ClientEvent.packet? = [] ∨
      ∃ id q, reply = some id ∧ events.filterMap ClientEvent.packet? = [q] ∧ IsReply tr id q := hsends.packets
  refine ⟨hnext client _ _ hat' hqueued, rfl, by rw [hqueue]; rfl, ?_, ?_⟩
  · rw [List.length_append]
    rcases hqueued with ⟨-, hnone⟩ | ⟨id, q, -, hone, -⟩
    · rw [hnone]
      exact Nat.le_succ _
    · rw [hone]
      exact le_rfl
  · intro id q hmem
    obtain ⟨x, hx, hxe⟩ := List.mem_map.mp hmem
    obtain rfl := SystemEvent.client.inj hxe
    have hid := hsends.ids id q hx
    obtain ⟨hcxl, hrtx⟩ := hexpects.reply_ne
    exact ⟨fun heq => hcxl (heq ▸ hid), fun heq => hrtx (heq ▸ hid)⟩

end Stage

/-! ## Every step lowers the measure -/

/-- `OnReceive` has three statements at most. -/
theorem ReceiverPos.remaining_le (receiver : ReceiverPos) : receiver.remaining ≤ 3 := by
  cases receiver <;> simp [remaining]

namespace ServerState

variable {t : ServerTransaction} {s s' : ServerState} {es : List ServerEvent}

/-- A statement sends one datagram at most. -/
theorem step_packets_le {a : ServerAction} (h : s.step t a = some (s', es)) :
    (es.filterMap ServerEvent.packet?).length ≤ 1 := by
  apply (List.length_filterMap_le _ es).trans
  rcases step_events h with rfl | ⟨x, rfl⟩
  · exact Nat.zero_le 1
  · exact le_rfl

/-- What the sender thread has left to do depends on its position and on the counter. -/
theorem senderRemaining_congr (hsender : s'.sender = s.sender)
    (hpsn : s'.vars.packetSequenceNumber = s.vars.packetSequenceNumber) :
    s'.senderRemaining t = s.senderRemaining t := by
  unfold senderRemaining
  rw [hsender, hpsn]

/-- `StartFileTransfer` starts the sender thread once. -/
theorem driverStep_senderRemaining (h : s.driverStep t = some (s', es))
    (hfresh : s.driver = .sending .data → s.sender = .notStarted) :
    s'.senderRemaining t ≤ s.senderRemaining t := by
  have hframe := driverStep_frame h
  rcases hframe.sender with hsame | ⟨hdriver, hopening⟩
  · exact (senderRemaining_congr hsame hframe.psn).le
  · unfold senderRemaining
    rw [hfresh hdriver, hopening]
    exact Nat.le_succ _

end ServerState

namespace Stage

variable {tr : Transfer} {s s' : CleanState} {e : List SystemEvent}

/-- The sender thread does not exist before the file is to be sent. -/
theorem sender_of_sending {phase : Phase} (h : Stage tr s) (hdriver : s.sys.server.driver = .sending phase) :
    s.sys.server.sender = .notStarted := by
  cases h with
  | start | requesting | asked => rfl
  | streaming _ _ hpos | replied _ hpos | answered _ hpos | finSent hpos | told hpos => grind
  | heard | finishing => contradiction

/-- The sender thread comes closer to its end. -/
theorem senderRemaining_less {server : ServerState} {es : List ServerEvent} (h : Stage tr s)
    (hstep : s.sys.server.senderStep tr.server true = some (server, es)) :
    server.senderRemaining tr.server < s.sys.server.senderRemaining tr.server := by
  cases h with
  | start | requesting | asked | finishing | finSent | told => contradiction
  | heard phase | answered phase => cases phase <;> contradiction
  | streaming received sent hdriver hv hsent hle hmore hclient =>
    exact (ServerState.senderStep_move hstep hsent hv.slot hv.status).less
  | replied phase hdriver hv hsender hreply hclient =>
    rcases hsender with ⟨-, rfl⟩ | ⟨rfl, hsent⟩
    · contradiction
    · exact (ServerState.senderStep_move hstep hsent hv.slot hv.status).less

/-- A statement of `StartFileTransfer` weighs more than the message that it sends. -/
theorem driver_less (h : Stage tr s) (hstep : s.step tr .driver = some (s', e)) :
    s'.remaining tr.server < s.remaining tr.server := by
  obtain ⟨server, es, hserver, rfl, -⟩ := CleanState.follow_local rfl hstep
  have hpackets := ServerState.step_packets_le hserver
  have hdriver := ServerState.driverStep_remaining hserver
  have hsender := ServerState.driverStep_senderRemaining hserver h.sender_of_sending
  have hreceiver := congrArg ReceiverPos.remaining (ServerState.driverStep_frame hserver).receiver
  simp only [CleanState.remaining, List.length_append]
  omega

/-- So does a statement of the sender thread. -/
theorem sender_less (h : Stage tr s) (hstep : s.step tr .sender = some (s', e)) :
    s'.remaining tr.server < s.remaining tr.server := by
  obtain ⟨server, es, hserver, rfl, -⟩ := CleanState.follow_local rfl hstep
  have hpackets := ServerState.step_packets_le hserver
  have hframe := ServerState.senderStep_frame hserver
  have hdriver := congrArg DriverPos.remaining hframe.driver
  have hless := h.senderRemaining_less hserver
  have hreceiver := congrArg ReceiverPos.remaining hframe.receiver
  simp only [CleanState.remaining, List.length_append]
  omega

/-- `OnReceive` sends nothing. -/
theorem receiver_less (hstep : s.step tr .receiver = some (s', e)) :
    s'.remaining tr.server < s.remaining tr.server := by
  obtain ⟨server, es, hserver, rfl, -⟩ := CleanState.follow_local rfl hstep
  have hframe := ServerState.receiverStep_frame hserver
  have hdriver := congrArg DriverPos.remaining hframe.driver
  have hsender := ServerState.senderRemaining_congr (t := tr.server) hframe.sender hframe.psn
  have hless := ServerState.receiverStep_remaining hserver
  have hsilent := ServerState.receiverStep_silent hserver
  simp only [CleanState.remaining, hsilent, List.append_nil]
  omega

/-- A message in flight to the server weighs more than the statements that it causes. -/
theorem toServer_less {r : Received} (hstep : s.step tr (.toServer r) = some (s', e)) :
    s'.remaining tr.server < s.remaining tr.server := by
  obtain ⟨p, rest, hqueue, -, hfollow⟩ := CleanState.step_toServer hstep
  obtain ⟨-, server, hserver, rfl, -⟩ := CleanState.follow_delivery hfollow
  have hframe := (ServerState.deliverStep_frame hserver).1
  have hdriver := congrArg DriverPos.remaining hframe.driver
  have hsender := ServerState.senderRemaining_congr (t := tr.server) hframe.sender hframe.psn
  have hreceiver := server.receiver.remaining_le
  simp only [CleanState.remaining, hqueue, List.length_cons]
  omega

/-- A message in flight to the client weighs more than the answer to it. -/
theorem ClientMove.less (h : ClientMove tr s s' e) : s'.remaining tr.server < s.remaining tr.server := by
  have htaken := h.taken
  have hanswer := h.answer
  simp only [CleanState.remaining, h.server]
  omega

/-- Every step of a clean run leads to a stage and lowers the measure. -/
theorem step (ht : tr.server.Transferable) (hserved : tr.server.served = tr.server.file) {a : CleanAction}
    (h : Stage tr s) (hstep : s.step tr a = some (s', e)) :
    Stage tr s' ∧ s'.remaining tr.server < s.remaining tr.server := by
  cases a with
  | driver => exact ⟨h.driver ht hstep, h.driver_less hstep⟩
  | sender => exact ⟨h.sender hstep, h.sender_less hstep⟩
  | receiver => exact ⟨h.receiver hstep, receiver_less hstep⟩
  | toServer r => exact ⟨h.toServer hstep, toServer_less hstep⟩
  | toClient r ops =>
    have hmove := h.toClient ht hserved hstep
    exact ⟨hmove.stage, hmove.less⟩

/-- Events of the server are none of the client. -/
theorem server_quiet (es : List ServerEvent) (id : MessageId) (p : Packet) :
    SystemEvent.client (.sent id p) ∉ es.map SystemEvent.server := by
  intro hmem
  obtain ⟨x, -, hx⟩ := List.mem_map.mp hmem
  contradiction

/-- In no step of a clean run the client sends CXL or RTX. -/
theorem step_quiet (ht : tr.server.Transferable) (hserved : tr.server.served = tr.server.file) {a : CleanAction}
    (h : Stage tr s) (hstep : s.step tr a = some (s', e)) (id : MessageId) (p : Packet)
    (hsent : .client (.sent id p) ∈ e) : id ≠ .cxl ∧ id ≠ .rtx := by
  cases a with
  | driver | sender | receiver =>
    obtain ⟨server, es, -, -, rfl⟩ := CleanState.follow_local rfl hstep
    exact absurd hsent (server_quiet es id p)
  | toServer r =>
    obtain ⟨p, rest, -, -, hfollow⟩ := CleanState.step_toServer hstep
    obtain ⟨-, server, -, -, rfl⟩ := CleanState.follow_delivery hfollow
    contradiction
  | toClient r ops => exact (h.toClient ht hserved hstep).quiet id p hsent

end Stage

/-! ## In every stage but the last something can be done -/

/-- The message that the client expects can be received. -/
theorem Expects.exists_from {tr : Transfer} {stage stage' : ClientStage} {p : Packet} {reply : Option MessageId}
    (h : Expects tr stage p stage' reply) : ∃ r : Received, r.From p := by
  cases h with
  | ntf | info | fin => exact ⟨tr.server.received _, Received.ofMessage_from _ _ _ (tr.server.payloadLen_le _)⟩
  | packet hpsn | last hpsn =>
    exact ⟨tr.server.receivedData _ _ (ServerTransaction.dataLen_le hpsn), Received.ofMessage_from _ _ _ _⟩

namespace ServerState

variable {t : ServerTransaction} {s : ServerState} {count : ℕ}

/-- `StartFileTransfer` blocks only in a wait whose status has not changed. -/
theorem driverStep_enabled (hregistered : s.driver.registered = true)
    (hwait : ∀ phase oldStatus, s.driver = .waiting phase oldStatus → s.vars.status ≠ oldStatus) :
    s.driverStep t ≠ none := by
  obtain ⟨a, ha, ⟨s', e⟩, hstep⟩ := driver_enabled (t := t) hregistered
  cases a with
  | driver => exact Option.ne_none_iff_exists'.mpr ⟨(s', e), hstep⟩
  | timeout =>
    obtain ⟨phase, hdriver, -⟩ := timeoutStep_eq hstep
    exact absurd rfl (hwait phase s.vars.status hdriver)
  | sender | deliver | receiver | abort | abortSend => contradiction

/-- The sender thread blocks at the end of its loop only. -/
theorem finished_of_blocked (hsent : s.sender.HasSent t s.vars.packetSequenceNumber.toNat count)
    (hblocked : s.senderStep t true = none) : s.sender = .finished := by
  obtain ⟨v, driver, sender, receiver, aborts⟩ := s
  cases sender with
  | opening | init | increment => contradiction
  | loopTest | cxlCheck | rtxCheck | send | eofTest | eofCheck =>
    simp only [senderStep] at hblocked
    split at hblocked <;> contradiction
  | finished => rfl
  | notStarted | rtxTake | rtxStore | eofTake | eofStore | failing | cancelling | stopped => exact hsent.elim

/-- `OnReceive` does not block. -/
theorem idle_of_blocked (hblocked : s.receiverStep t = none) : s.receiver = .idle := by
  revert hblocked
  fun_cases ServerState.receiverStep t s <;> simp_all

/-- No thread of the server can execute a statement. -/
structure Blocked (t : ServerTransaction) (s : ServerState) : Prop where
  driver : s.driverStep t = none
  sender : s.senderStep t true = none
  receiver : s.receiverStep t = none

end ServerState

namespace CleanState

variable {tr : Transfer} {s : CleanState} {r : Received} {toServer toClient : List Packet}

/-- A statement that can be executed is a step of the clean run. -/
theorem follow_ne_none {a : ServerAction} (hlocal : a.isLocal = true) (h : s.sys.server.step tr.server a ≠ none) :
    s.follow tr (.server a) toServer toClient ≠ none := by
  obtain ⟨q, hq⟩ := Option.ne_none_iff_exists'.mp h
  simp [follow, SystemState.step, hlocal, hq]

end CleanState

namespace Stage

variable {tr : Transfer} {s : CleanState}

/-- A message in flight to the client can be delivered. -/
theorem toClient_enabled (ht : tr.server.Transferable) (hserved : tr.server.served = tr.server.file)
    (h : Stage tr s) (hnet : ∀ p ∈ s.toClient, p ∈ s.sys.net) (hqueue : s.toClient ≠ []) :
    ∃ a, s.step tr a ≠ none := by
  obtain ⟨p, rest, hqueue⟩ := List.exists_cons_of_ne_nil hqueue
  obtain ⟨stage, stage', reply, hat, hexpects, -⟩ := h.expected hqueue
  obtain ⟨r, hfrom⟩ := hexpects.exists_from
  have hops : (⟨true, true, tr.server.file.length⟩ : FileOps).Succeeds tr.server.file.length := ⟨rfl, rfl, le_rfl⟩
  have hsent : p ∈ s.sys.net := hnet p (by rw [hqueue]; exact List.mem_cons_self)
  obtain ⟨client, e, hstep, -⟩ := CleanState.answered_of_expects ht hserved hat hexpects hsent hfrom hops
  refine ⟨.toClient r ⟨true, true, tr.server.file.length⟩, ?_⟩
  simp [CleanState.step, hqueue, hops, CleanState.follow, hstep]

/-- An answer in flight can be delivered to a server that is registered. -/
theorem delivery_enabled {p : Packet} {id : MessageId} (toServer toClient : List Packet) (hnet : p ∈ s.sys.net)
    (hreply : IsReply tr id p) (hregistered : s.sys.server.driver.registered = true)
    (hidle : s.sys.server.receiver = .idle) : ∃ r, s.follow tr (.toServer p r) toServer toClient ≠ none := by
  obtain ⟨w, rfl, haddr, -⟩ := hreply
  have hfrom := tr.client.received_from w id
  have hdelivers : s.sys.Delivers (tr.client.packet w id) (tr.client.received w id) tr.server.udpSocket ∧
      (tr.client.packet w id).src.sinAddr = tr.server.addr.sinAddr :=
    ⟨⟨hnet, hfrom, haddr⟩, tr.sameHost.symm⟩
  have hstep : s.sys.server.deliverStep (tr.client.received w id) ≠ none := by
    rw [ServerState.deliverStep, if_pos ⟨hidle, hregistered⟩]
    split <;> simp
  obtain ⟨q, hq⟩ := Option.ne_none_iff_exists'.mp hstep
  refine ⟨tr.client.received w id, ?_⟩
  simp [CleanState.follow, SystemState.step, hdelivers, ServerState.step, hq]

/-- An answer in flight can be delivered to the wait for it. -/
theorem toServer_enabled {p : Packet} {id : MessageId} {rest : List Packet} (hqueue : s.toServer = p :: rest)
    (hnet : p ∈ s.sys.net) (hreply : IsReply tr id p) (hawaits : s.sys.server.awaits = true)
    (hidle : s.sys.server.receiver = .idle) : ∃ a, s.step tr a ≠ none := by
  have hregistered : s.sys.server.driver.registered = true := by
    unfold ServerState.awaits at hawaits
    split at hawaits
    · rename_i hdriver
      rw [hdriver]
      rfl
    · contradiction
  obtain ⟨r, hfollow⟩ := delivery_enabled rest s.toClient hnet hreply hregistered hidle
  refine ⟨.toServer r, ?_⟩
  simpa only [CleanState.step, hqueue, hawaits, if_true] using hfollow

/-- In a state without a step no statement of the server can be executed. -/
theorem blocked_of_stuck (hstuck : ∀ a, s.step tr a = none) : s.sys.server.Blocked tr.server := by
  constructor
  · by_contra hstep
    exact CleanState.follow_ne_none (a := .driver) rfl hstep (hstuck .driver)
  · by_contra hstep
    exact CleanState.follow_ne_none (a := .sender true) rfl hstep (hstuck .sender)
  · by_contra hstep
    exact CleanState.follow_ne_none (a := .receiver) rfl hstep (hstuck .receiver)

/-- A clean run that cannot go on has returned FIN. -/
theorem returned_fin (ht : tr.server.Transferable) (hserved : tr.server.served = tr.server.file) (h : Stage tr s)
    (hnet : ∀ p, p ∈ s.toServer ∨ p ∈ s.toClient → p ∈ s.sys.net) (hstuck : ∀ a, s.step tr a = none) :
    s.sys.server.driver = .returned .fin := by
  by_contra hmore
  have hclient : s.toClient = [] := by
    by_contra hqueue
    obtain ⟨a, ha⟩ := h.toClient_enabled ht hserved (fun p hp => hnet p (Or.inr hp)) hqueue
    exact ha (hstuck a)
  obtain ⟨hdriver, hsender, hreceiver⟩ := blocked_of_stuck hstuck
  cases h with
  | start | asked | finishing | finSent => contradiction
  | requesting phase => cases phase <;> contradiction
  | streaming received sent hpos hv hsent hle hneeded hat =>
    -- everything that was sent was received, so the sender thread has packets to send
    have hall : sent = received := by
      by_contra hne
      rw [tr.dataInFlight_received (lt_of_le_of_ne hle (Ne.symm hne))] at hclient
      contradiction
    have hended := ServerState.finished_of_blocked hsent hsender
    subst hended
    have hend : sent = tr.server.totalPacketNumber.toNat := hsent.2
    omega
  | @replied v driver sender client net p phase hpos hv hphase hreply hat =>
    rcases hpos with rfl | rfl
    · contradiction
    · have hended : phase = .data → sender = .finished := by
        rintro rfl
        rcases hphase with ⟨hne, -⟩ | ⟨-, hsent⟩
        · exact absurd rfl hne
        · exact ServerState.finished_of_blocked hsent hsender
      have hawaits : ServerState.awaits ⟨v, .waiting phase phase.request, sender, .idle, 0⟩ = true :=
        decide_eq_true ⟨rfl, hended⟩
      obtain ⟨a, ha⟩ := toServer_enabled rfl (hnet _ (Or.inl List.mem_cons_self)) hreply hawaits rfl
      exact ha (hstuck a)
  | heard phase hv hpsn hhears hfrom hreply hat =>
    have hidle := ServerState.idle_of_blocked hreceiver
    rcases hhears with rfl | ⟨-, rfl⟩ | rfl <;> contradiction
  | answered phase hpos hv hat =>
    have hchanged : phase.reply ≠ phase.request := by cases phase <;> decide
    apply ServerState.driverStep_enabled ?_ ?_ hdriver
    · rcases hpos with rfl | rfl | rfl <;> rfl
    · intro phase' oldStatus hwait
      rcases hpos with rfl | rfl | rfl
      · obtain ⟨rfl, rfl⟩ := DriverPos.waiting.inj hwait
        rw [hv.status]
        exact hchanged
      · contradiction
      · contradiction
  | told hpos =>
    rcases hpos with rfl | rfl
    · contradiction
    · exact hmore rfl

end Stage

/-! ## Whole runs -/

/-- The machine starts in the first stage. -/
theorem stage_of_initial {tr : Transfer} {s : CleanState} (h : (cleanMachine tr).initial s) :
    Stage tr s ∧ s.remaining tr.server = 6 * (18 + (7 * tr.server.totalPacketNumber.toNat + 4)) := by
  obtain ⟨⟨server, client, net⟩, toServer, toClient⟩ := s
  obtain ⟨⟨hserver, ⟨tempFile, hclient⟩, -⟩, htoServer, htoClient⟩ := h
  simp only at hserver hclient htoServer htoClient
  subst hserver hclient htoServer htoClient
  exact ⟨.start ⟨rfl, rfl, rfl⟩ ⟨rfl, rfl⟩, rfl⟩

/-- Every state of a clean run is in a stage, and neither CXL nor RTX was sent to the server before it. -/
theorem stage_of_trace {tr : Transfer} (ht : tr.server.Transferable) (hserved : tr.server.served = tr.server.file)
    {es : List SystemEvent} {s : CleanState} (h : (cleanMachine tr).Trace es s) :
    Stage tr s ∧ ∀ id p, .client (.sent id p) ∈ es → id ≠ .cxl ∧ id ≠ .rtx := by
  apply h.invariant (I := fun es s =>
    Stage tr s ∧ ∀ id p, SystemEvent.client (.sent id p) ∈ es → id ≠ .cxl ∧ id ≠ .rtx)
  · intro s hinit
    exact ⟨(stage_of_initial hinit).1, by simp⟩
  · intro es s a s' e _ hstage hstep
    refine ⟨(hstage.1.step ht hserved hstep).1, ?_⟩
    intro id p hmem
    rcases List.mem_append.mp hmem with hold | hnew
    · exact hstage.2 id p hold
    · exact hstage.1.step_quiet ht hserved hstep id p hnew

/-- A transfer that has returned FIN is complete. -/
theorem completed_of_returned_fin {tr : Transfer} (hserved : tr.server.served = tr.server.file)
    {es : List SystemEvent} {s : SystemState} (h : (systemMachine tr).Trace es s)
    (hfin : s.server.driver = .returned .fin) :
    .client (.verified tr.server.file) ∈ es ∧ (∃ r, .server (.accepted .done r) ∈ es) ∧
      s.server.driver = .returned .fin := by
  have hserver : (serverMachine tr.server).Trace (es.filterMap SystemEvent.server?) s.server :=
    (serverProjection tr).trace h
  obtain ⟨pre, post, r, hes, -⟩ := (handshakeInv_of_trace hserver).succeeded (by rw [hfin]; rfl)
  refine ⟨hserved ▸ (verified_of_returned_fin h hfin).1, ⟨r, NetInv.mem_server ?_⟩, hfin⟩
  rw [hes]
  simp

/-- A file is transferred by every clean run if both sides agree on the length of every packet. -/
theorem transfers_of_transferable {tr : Transfer} (ht : tr.server.Transferable)
    (hserved : tr.server.served = tr.server.file) : Transfers tr where
  quiet es s htrace := (stage_of_trace ht hserved htrace).2
  bounded := by
    refine ⟨6 * (18 + (7 * tr.server.totalPacketNumber.toNat + 4)), ?_⟩
    intro s₀ as s es hinit hexec
    obtain ⟨hstage, hremaining⟩ := stage_of_initial hinit
    have hbound := EventMachine.exec_length_le (I := Stage tr) (μ := CleanState.remaining tr.server)
      (fun hstage hstep => hstage.step ht hserved hstep) hstage hexec
    omega
  complete es s htrace hstuck := by
    have hstage := (stage_of_trace ht hserved htrace).1
    have hfin := hstage.returned_fin ht hserved (CleanState.inFlight_of_trace htrace) hstuck
    exact completed_of_returned_fin hserved (CleanState.system_of_trace htrace) hfin

/-- The sizes below 2^32 for which the clean runs, in which the client handles one datagram at a time, transfer
the file: more than one packet, no multiple of the payload, and no wrap in the packet count of the
constructor.

A file that fits one packet is refused, because the client wants the first packet to be full. With a multiple of
the payload the header of the last packet says that it is empty. Where the sum in the constructor wraps, the
server has no packet to send. -/
theorem transfers_iff {tr : Transfer} (hsize : tr.server.file.length < 2 ^ 32) :
    Transfers tr ↔ sizeofPayload < tr.server.file.length ∧ tr.server.file.length % sizeofPayload ≠ 0 ∧
      tr.server.file.length + (sizeofPayload - 1) < 2 ^ 32 := by
  have hfull := ServerTransaction.newFileSize_eq hsize
  constructor
  · intro htransfers
    have ht := htransfers.transferable
    rw [ServerTransaction.Transferable, hfull] at ht
    exact ht
  · intro hagreed
    apply transfers_of_transferable
    · rw [ServerTransaction.Transferable, hfull]
      exact hagreed
    · exact ServerTransaction.served_eq hsize

/-- A file of 1409 bytes is transferred. -/
theorem transfers_twoPackets : Transfers smallTransfer := by
  have hlength : smallTransfer.server.file.length = 1409 := List.length_replicate
  apply (transfers_iff (by rw [hlength]; decide)).mpr
  rw [hlength]
  decide

/-- A file of one byte is not. -/
theorem not_transfers_oneByte :
    ¬∀ tr : Transfer, 1 ≤ tr.server.file.length → tr.server.file.length < 2 ^ 32 → Transfers tr := by
  intro hclaim
  have htransfers := hclaim ⟨oneByte, smallClient, rfl⟩ (by decide) (by decide)
  exact absurd htransfers.transferable.1 (by decide)

end Trftp
