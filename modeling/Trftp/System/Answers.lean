import Trftp.System.CleanRun
import Trftp.System.Tolerance

/-!
# What the client answers to the expected datagram

A transfer takes the client through five stages. In each of them one message of the server is
expected; when it arrives, and the file system does what it is asked for, the client goes to the
next stage and sends the answer of the protocol.
-/

namespace Trftp

open Lib (chunk firstChunks)

/-- How far the client is. -/
inductive ClientStage where
  /-- no transaction is alive -/
  | idle
  /-- NTF was accepted -/
  | checked
  /-- INFO was accepted, and so many packets -/
  | receiving (count : ℕ)
  /-- the file is complete -/
  | verified
  /-- FIN was accepted -/
  | told
  deriving DecidableEq

namespace ClientVars

/-- The transaction is alive, with its receive loop, in this status. -/
structure Running (v : ClientVars) (status : MessageId) : Prop where
  isActive : v.isActive = true
  joinable : v.joinable = true
  status : v.status = status

/-- NTF was accepted, and nothing behind it. -/
structure Checked (t : ServerTransaction) (v : ClientVars) : Prop where
  running : v.Running .chk
  version : v.newFileVersion = t.newFileVersion
  isOpen : v.newFileStream.isOpen = false
  psn : v.packetSequenceNumber = 0

/-- INFO was accepted, and the first packets of the file. -/
structure Receiving (t : ServerTransaction) (v : ClientVars) (count : ℕ) : Prop where
  running : v.Running (if count = 0 then .rdy else .data)
  announces : Announces t v
  psn : v.packetSequenceNumber.toNat = count
  stream : v.newFileStream = ⟨true, false, firstChunks sizeofPayload t.served count⟩

/-- The counter does not wrap while there are packets. -/
theorem Receiving.toNat_next {t : ServerTransaction} {v : ClientVars} {psn : UInt32} {count : ℕ}
    (hv : v.Receiving t count) (hpsn : psn < t.totalPacketNumber) (hcount : psn.toNat = count) :
    (v.packetSequenceNumber + 1).toNat = count + 1 := by
  have hlt : v.packetSequenceNumber.toNat < t.totalPacketNumber.toNat := by
    rw [hv.psn, ← hcount]
    exact UInt32.lt_iff_toNat_lt.mp hpsn
  rw [Lib.toNat_succ_of_lt hlt, hv.psn]

end ClientVars

namespace ClientTransaction

variable {c : ClientTransaction} {t : ServerTransaction} {v : ClientVars} {r : Received} {ops : FileOps}

/-- NTF is accepted by a transaction without a receive loop, and CHK is sent. -/
theorem onReceive_ntf (c : ClientTransaction) (ops : FileOps) (harrived : t.Arrived r .ntf)
    (hactive : v.isActive = true) (hfree : v.joinable = false) (hisOpen : v.newFileStream.isOpen = false)
    (hpsn : v.packetSequenceNumber = 0) :
    ∃ w, c.onReceive v r ops = some (w, [.notified t.newFileVersion, .sent .chk (c.packet w .chk)]) ∧
      w.Checked t ∧ w.serverAddress = t.udpSocket := by
  have hlen : r.payloadLen = 4 := harrived.payloadLen
  have hversion : r.msg.ntf.newFileVersion = t.newFileVersion := harrived.word 0 _ rfl
  have hbranch : c.onReceive v r ops = c.onNtf (v.heardFrom r.addr) r := by
    unfold onReceive validateMessageIntegrity
    rw [harrived.intact, harrived.id]
    rfl
  have hfree' : ¬(v.heardFrom r.addr).joinable = true := by
    rw [ClientVars.heardFrom, hfree]
    decide
  rw [hbranch, onNtf, if_neg (not_not.mpr hlen), if_neg hfree', hversion, harrived.addr]
  exact ⟨_, rfl, ⟨⟨hactive, rfl, rfl⟩, rfl, hisOpen, hpsn⟩, rfl⟩

/-- NTF starts a transaction. -/
theorem begin_ntf (c : ClientTransaction) (v : ClientVars) (ops : FileOps) (harrived : t.Arrived r .ntf) :
    ∃ w, c.begin v r ops = some (w, [.began, .notified t.newFileVersion, .sent .chk (c.packet w .chk)]) ∧
      w.Checked t ∧ w.serverAddress = t.udpSocket := by
  have huntouched := reset_untouched { v with isActive := true } ops
  have hactive : (reset { v with isActive := true } ops).isActive = true := by
    rw [reset, ClientVars.closeStream_eq]
  obtain ⟨w, hrun, hw⟩ := onReceive_ntf c ops harrived hactive rfl huntouched.isOpen huntouched.psn
  refine ⟨w, ?_, hw⟩
  rw [begin, if_pos harrived.id, hrun]
  rfl

/-- INFO is accepted behind NTF, and RDY is sent. -/
theorem onReceive_info (c : ClientTransaction) (harrived : t.Arrived r .info) (hv : v.Checked t)
    (hsize : t.newFileSize ≠ 0) (hopen : ops.openOk = true) :
    ∃ w, c.onReceive v r ops = some (w, [.informed w.newFileVersion w.newFileSize w.newFileCrc32,
        .sent .rdy (c.packet w .rdy)]) ∧ w.Receiving t 0 ∧ w.serverAddress = t.udpSocket := by
  have hlen : r.payloadLen = 12 := harrived.payloadLen
  have hversion : r.msg.info.newFileVersion = t.newFileVersion := harrived.word 0 _ rfl
  have hlength : r.msg.info.fileLength = t.newFileSize := harrived.word 1 _ rfl
  have hcrc : r.msg.info.crc32 = t.newFileCrc32 := harrived.word 2 _ rfl
  have hbranch : c.onReceive v r ops = some (c.onInfo (v.heardFrom r.addr) r ops) := by
    unfold onReceive validateMessageIntegrity
    rw [harrived.intact, harrived.id]
    rfl
  have hopened : (informedVars (v.heardFrom r.addr) r.msg).openStream ops =
      { informedVars (v.heardFrom r.addr) r.msg with
        newFileStream := ⟨true, false, []⟩, tempFile := some [] } := by
    have hclosed : ¬(informedVars (v.heardFrom r.addr) r.msg).newFileStream.isOpen = true := by
      rw [Bool.not_eq_true]
      exact hv.isOpen
    rw [ClientVars.openStream, if_neg hclosed, if_pos hopen]
  have hstatus : ¬(v.heardFrom r.addr).status ≠ .chk := not_not.mpr hv.running.status
  have hsame : ¬(v.heardFrom r.addr).newFileVersion ≠ r.msg.info.newFileVersion := by
    rw [hversion]
    exact not_not.mpr hv.version
  rw [hbranch, onInfo, if_neg hstatus, if_neg (not_not.mpr hlen), if_neg hsame, if_neg (by rwa [hlength]),
    hopened, sendReady, if_neg (by simp)]
  refine ⟨{ informedVars (v.heardFrom r.addr) r.msg with
      newFileStream := ⟨true, false, []⟩, tempFile := some [], status := .rdy }, rfl,
    ⟨⟨hv.running.isActive, hv.running.joinable, rfl⟩, ⟨hv.version, hlength, hcrc, ?_⟩, ?_, ?_⟩, harrived.addr⟩
  · rw [← hlength]
    exact toNat_packetCount r.msg.info.fileLength
  · exact congrArg UInt32.toNat hv.psn
  · rw [Lib.firstChunks_zero]

/-- The members behind the write of the next packet. -/
def extendedVars (t : ServerTransaction) (v : ClientVars) (count : ℕ) : ClientVars :=
  { v with newFileStream := ⟨true, false, firstChunks sizeofPayload t.served (count + 1)⟩ }

/-- The next packet is written. -/
theorem onReceive_data (c : ClientTransaction) {psn : UInt32} {count : ℕ} (ht : t.Transferable)
    (hpsn : psn < t.totalPacketNumber) (harrived : t.DataArrived r psn) (hv : v.Receiving t count)
    (hcount : psn.toNat = count) (hok : ops.writeOk = true) :
    c.onReceive v r ops =
      (c.afterWrite (extendedVars t (v.heardFrom r.addr) count) ops).map fun p =>
        (p.1, .wrote (chunk sizeofPayload t.served count) :: p.2) := by
  have hfull : ¬t.EmptyLast psn := fun hlast => ht.2.1 hlast.2
  have hbranch : c.onReceive v r ops = c.onData (v.heardFrom r.addr) r ops := by
    unfold onReceive validateMessageIntegrity
    rw [harrived.intact.mpr hfull, harrived.id]
    rfl
  have hexpected : psn = (v.heardFrom r.addr).packetSequenceNumber := by
    rw [ClientVars.heardFrom_psn, ← UInt32.toNat_inj, hcount, hv.psn]
  have hstatus : (v.heardFrom r.addr).status = dataStatus r.msg.header := by
    have hzero : psn = 0 ↔ count = 0 := by
      rw [← hcount, ← UInt32.toNat_inj, UInt32.toNat_zero]
    rw [ClientVars.heardFrom_status, hv.running.status, dataStatus, harrived.number]
    simp only [hzero]
  have hlen : r.payloadLen = dataLen (v.heardFrom r.addr) r.msg.header :=
    (payloadLen_eq_dataLen_iff hpsn harrived hv.announces.size hfull).mpr fun _ => ht.1.le
  have hwritten : (v.heardFrom r.addr).writeStream ops (chunk sizeofPayload t.served psn.toNat) =
      extendedVars t (v.heardFrom r.addr) count := by
    have hstream : (v.heardFrom r.addr).newFileStream =
        ⟨true, false, firstChunks sizeofPayload t.served count⟩ := hv.stream
    rw [ClientVars.writeStream, hstream, if_pos ⟨rfl, Bool.false_ne_true, hok⟩, hcount,
      Lib.firstChunks_append_chunk]
    rfl
  rw [hbranch, onData, if_neg (not_not.mpr hstatus), if_neg (not_not.mpr hlen), harrived.number,
    if_neg (not_not.mpr hexpected), harrived.payload, hwritten, hcount]

/-- A packet that is not the last one is counted. -/
theorem onReceive_packet (c : ClientTransaction) {psn : UInt32} {count : ℕ} (ht : t.Transferable)
    (hpsn : psn < t.totalPacketNumber) (harrived : t.DataArrived r psn) (hv : v.Receiving t count)
    (hcount : psn.toNat = count) (hok : ops.writeOk = true) (hmore : count + 1 < t.totalPacketNumber.toNat) :
    ∃ w, c.onReceive v r ops = some (w, [.wrote (chunk sizeofPayload t.served count)]) ∧
      w.Receiving t (count + 1) := by
  have hnext := hv.toNat_next hpsn hcount
  have hdiffers : ¬(countedVars (extendedVars t (v.heardFrom r.addr) count)).packetSequenceNumber =
      (extendedVars t (v.heardFrom r.addr) count).totalPacketNumber := by
    intro heq
    have heq : v.packetSequenceNumber + 1 = v.totalPacketNumber := heq
    have htotal := hv.announces.total
    rw [← heq, hnext, ← ServerTransaction.totalPacketNumber_eq ht.2.2] at htotal
    omega
  refine ⟨countedVars (extendedVars t (v.heardFrom r.addr) count), ?_,
    ⟨⟨hv.running.isActive, hv.running.joinable, rfl⟩, ⟨hv.announces.version, hv.announces.size, hv.announces.crc,
      hv.announces.total⟩, hnext, rfl⟩⟩
  rw [onReceive_data c ht hpsn harrived hv hcount hok, afterWrite, if_neg (by simp [extendedVars]),
    if_neg hdiffers]
  rfl

/-- A file that is the served one passes the checks behind the last packet. -/
theorem sendDone_of_file (c : ClientTransaction) (hserved : t.served = t.file) (hannounces : Announces t v)
    (hfile : v.tempFile = some t.file) :
    c.sendDone v = some ((c.sendMessage v .done).1, .verified t.file :: (c.sendMessage v .done).2) := by
  have hsize : v.newFileSize.toNat = t.file.length := by
    rw [hannounces.size, ← ServerTransaction.length_served, hserved]
  have hcrc : v.newFileCrc32 = calculateFileCrc32 (some t.file) := hannounces.crc
  unfold sendDone
  rw [hfile]
  simp only
  rw [if_neg (not_not.mpr hsize), if_neg (not_not.mpr hcrc)]

/-- The last packet completes the file, and DONE is sent. -/
theorem onReceive_last (c : ClientTransaction) {psn : UInt32} {count : ℕ} (ht : t.Transferable)
    (hserved : t.served = t.file) (hpsn : psn < t.totalPacketNumber) (harrived : t.DataArrived r psn)
    (hv : v.Receiving t count) (hcount : psn.toNat = count) (hok : ops.Succeeds t.file.length)
    (hlast : count + 1 = t.totalPacketNumber.toNat) :
    ∃ w, c.onReceive v r ops = some (w, [.wrote (chunk sizeofPayload t.served count), .verified t.file,
        .sent .done (c.packet w .done)]) ∧
      w.Running .done ∧ Announces t w ∧ w.serverAddress = t.udpSocket := by
  have hnext := hv.toNat_next hpsn hcount
  have htotal : (countedVars (extendedVars t (v.heardFrom r.addr) count)).packetSequenceNumber =
      (extendedVars t (v.heardFrom r.addr) count).totalPacketNumber := by
    have hcounts := hv.announces.total
    rw [← ServerTransaction.totalPacketNumber_eq ht.2.2, ← hlast, ← hnext] at hcounts
    exact (UInt32.toNat_inj.mp hcounts).symm
  have hwhole : firstChunks sizeofPayload t.served (count + 1) = t.file := by
    rw [← hserved]
    apply Lib.firstChunks_of_covered
    rw [hlast, ServerTransaction.totalPacketNumber_eq ht.2.2, ServerTransaction.length_served]
    exact Lib.le_chunkCount_mul (by decide)
  have hstored : t.file.take ops.flushed = t.file := List.take_of_length_le hok.2.2
  have hclosed : (countedVars (extendedVars t (v.heardFrom r.addr) count)).closeStream ops =
      { countedVars (extendedVars t (v.heardFrom r.addr) count) with
        newFileStream := ⟨false, decide (ops.flushed < t.file.length), t.file⟩, tempFile := some t.file } := by
    have hopen : (countedVars (extendedVars t (v.heardFrom r.addr) count)).newFileStream.isOpen = true := rfl
    rw [ClientVars.closeStream, if_pos hopen]
    simp [countedVars, extendedVars, hwhole, hstored]
  have hannounces : Announces t ((countedVars (extendedVars t (v.heardFrom r.addr) count)).closeStream ops) := by
    rw [hclosed]
    exact ⟨hv.announces.version, hv.announces.size, hv.announces.crc, hv.announces.total⟩
  have hdone := sendDone_of_file c hserved hannounces (by rw [hclosed])
  rw [onReceive_data c ht hpsn harrived hv hcount hok.2.1, afterWrite, if_neg (by simp [extendedVars]),
    if_pos htotal, hdone]
  refine ⟨(c.sendMessage ((countedVars (extendedVars t (v.heardFrom r.addr) count)).closeStream ops) .done).1, rfl,
    ⟨?_, ?_, rfl⟩, ⟨hannounces.version, hannounces.size, hannounces.crc, hannounces.total⟩, ?_⟩
  · rw [hclosed]
    exact hv.running.isActive
  · rw [hclosed]
    exact hv.running.joinable
  · rw [hclosed]
    exact harrived.addr

end ClientTransaction

namespace ClientState

variable {c : ClientTransaction} {t : ServerTransaction} {s : ClientState} {w : ClientVars} {r : Received}
  {ops : FileOps} {e : List ClientEvent}

/-- The client is so far. -/
def At (t : ServerTransaction) (s : ClientState) (stage : ClientStage) : Prop :=
  s.terminated = false ∧
    match stage with
    | .idle | .told => s.vars.isActive = false
    | .checked => s.vars.Checked t
    | .receiving count => s.vars.Receiving t count
    | .verified => s.vars.Running .done

/-- The main loop hands a datagram to `Begin`. -/
theorem step_main (hterminated : s.terminated = false) (hidle : s.vars.isActive = false)
    (hrun : c.begin s.vars r ops = some (w, e)) : s.step c (.main r ops) = some (⟨w, false⟩, e) := by
  simp [step, apply, hterminated, hidle, hrun]

/-- The receive loop hands a datagram to `OnReceive`. -/
theorem step_loop (hterminated : s.terminated = false) (hreceiving : s.receiving = true)
    (hrun : c.onReceive s.vars r ops = some (w, e)) : s.step c (.loop r ops) = some (⟨w, false⟩, e) := by
  simp [step, apply, hterminated, hreceiving, hrun]

/-- A transaction that is alive has its receive loop. -/
theorem receiving_of_running {status : MessageId} (h : s.vars.Running status) : s.receiving = true := by
  rw [receiving, h.joinable, h.isActive]
  rfl

end ClientState

/-- The datagram is a message of the client in a clean run, sent to the server. -/
def IsReply (tr : Transfer) (id : MessageId) (p : Packet) : Prop :=
  ∃ w : ClientVars, p = tr.client.packet w id ∧ w.serverAddress = tr.server.udpSocket ∧
    (id = .done → Announces tr.server w)

/-- The message that a client expects that is so far, the stage it comes to with it, and its answer. -/
inductive Expects (tr : Transfer) : ClientStage → Packet → ClientStage → Option MessageId → Prop
  | ntf : Expects tr .idle (tr.server.packet tr.server.addr .ntf) .checked (some .chk)
  | info : Expects tr .checked (tr.server.packet tr.client.udpSocket .info) (.receiving 0) (some .rdy)
  | packet {psn : UInt32} {count : ℕ} (hpsn : psn < tr.server.totalPacketNumber) (hcount : psn.toNat = count)
      (hmore : count + 1 < tr.server.totalPacketNumber.toNat) :
      Expects tr (.receiving count)
        (tr.server.dataPacket tr.client.udpSocket psn (chunk sizeofPayload tr.server.served psn.toNat))
        (.receiving (count + 1)) none
  | last {psn : UInt32} {count : ℕ} (hpsn : psn < tr.server.totalPacketNumber) (hcount : psn.toNat = count)
      (hlast : count + 1 = tr.server.totalPacketNumber.toNat) :
      Expects tr (.receiving count)
        (tr.server.dataPacket tr.client.udpSocket psn (chunk sizeofPayload tr.server.served psn.toNat))
        .verified (some .done)
  | fin : Expects tr .verified (tr.server.packet tr.client.udpSocket .fin) .told none

/-- The messages that a step of the client sends. -/
structure Sends (tr : Transfer) (e : List ClientEvent) (reply : Option MessageId) : Prop where
  ids : ∀ id p, .sent id p ∈ e → reply = some id
  packets : (reply = none ∧ e.filterMap ClientEvent.packet? = []) ∨
    ∃ id p, reply = some id ∧ e.filterMap ClientEvent.packet? = [p] ∧ IsReply tr id p

/-- One message behind events that send nothing. -/
theorem sends_reply {tr : Transfer} {id : MessageId} {w : ClientVars} (front : List ClientEvent)
    (hids : ∀ id' p, .sent id' p ∉ front) (hpackets : front.filterMap ClientEvent.packet? = [])
    (haddr : w.serverAddress = tr.server.udpSocket) (hdone : id = .done → Announces tr.server w) :
    Sends tr (front ++ [.sent id (tr.client.packet w id)]) (some id) := by
  constructor
  · intro id' p hmem
    rcases List.mem_append.mp hmem with hfront | hlast
    · exact absurd hfront (hids id' p)
    · cases List.mem_singleton.mp hlast
      rfl
  · right
    refine ⟨id, tr.client.packet w id, rfl, ?_, w, rfl, haddr, hdone⟩
    rw [List.filterMap_append, hpackets]
    rfl

namespace CleanState

variable {tr : Transfer} {s : CleanState} {p : Packet} {r : Received} {ops : FileOps} {stage stage' : ClientStage}
  {reply : Option MessageId}

/-- What the client makes of the message that it expects. -/
def Answered (tr : Transfer) (s : CleanState) (p : Packet) (r : Received) (ops : FileOps) (stage' : ClientStage)
    (reply : Option MessageId) : Prop :=
  ∃ client e, s.sys.step tr (s.arrival tr p r ops) = some (s.sys.clientDone (client, e)) ∧
    client.At tr.server stage' ∧ Sends tr e reply

/-- The receive loop of the client is given a message for its socket. -/
theorem answered_of_loop {w : ClientVars} {e : List ClientEvent} {status : MessageId} (hnet : p ∈ s.sys.net)
    (hfrom : r.From p) (hdst : p.dst = tr.client.udpSocket) (hterminated : s.sys.client.terminated = false)
    (hrunning : s.sys.client.vars.Running status)
    (hrun : tr.client.onReceive s.sys.client.vars r ops = some (w, e))
    (hat : (⟨w, false⟩ : ClientState).At tr.server stage') (hsends : Sends tr e reply) :
    s.Answered tr p r ops stage' reply := by
  have hreceiving := ClientState.receiving_of_running hrunning
  refine ⟨⟨w, false⟩, e, ?_, hat, hsends⟩
  rw [arrival, if_pos ⟨hdst, hreceiving⟩, SystemState.step, if_pos ⟨hnet, hfrom, hdst⟩,
    ClientState.step_loop hterminated hreceiving hrun]
  rfl

/-- The expected message takes the client to its next stage. -/
theorem answered_of_expects (ht : tr.server.Transferable) (hserved : tr.server.served = tr.server.file)
    (hat : s.sys.client.At tr.server stage) (hexpects : Expects tr stage p stage' reply) (hnet : p ∈ s.sys.net)
    (hfrom : r.From p) (hops : ops.Succeeds tr.server.file.length) : s.Answered tr p r ops stage' reply := by
  obtain ⟨hterminated, hat⟩ := hat
  cases hexpects with
  | ntf =>
    have harrived := ServerTransaction.arrived_of_from hfrom
    obtain ⟨w, hrun, hchecked, haddr⟩ :=
      ClientTransaction.begin_ntf tr.client s.sys.client.vars ops harrived
    have hsends : Sends tr [.began, .notified tr.server.newFileVersion, .sent .chk (tr.client.packet w .chk)]
        (some .chk) := sends_reply [.began, .notified _] (by simp) rfl haddr (by simp)
    have hmain : ¬((tr.server.packet tr.server.addr .ntf).dst = tr.client.udpSocket ∧
        s.sys.client.receiving = true) := by
      rintro ⟨-, hreceiving⟩
      rw [ClientState.receiving, show s.sys.client.vars.isActive = false from hat, Bool.and_false] at hreceiving
      contradiction
    refine ⟨⟨w, false⟩, _, ?_, ⟨rfl, hchecked⟩, hsends⟩
    rw [arrival, if_neg hmain, SystemState.step, if_pos ⟨hnet, hfrom, rfl⟩,
      ClientState.step_main hterminated hat hrun]
    rfl
  | info =>
    have harrived := ServerTransaction.arrived_of_from hfrom
    have hsize : tr.server.newFileSize ≠ 0 := by
      intro hzero
      have hlarge := ht.1
      rw [hzero, UInt32.toNat_zero] at hlarge
      contradiction
    obtain ⟨w, hrun, hreceiving, haddr⟩ := ClientTransaction.onReceive_info tr.client harrived hat hsize hops.1
    exact answered_of_loop hnet hfrom rfl hterminated hat.running hrun ⟨rfl, hreceiving⟩
      (sends_reply [.informed _ _ _] (by simp) rfl haddr (by simp))
  | packet hpsn hcount hmore =>
    have harrived := ServerTransaction.dataArrived_of_from hpsn hfrom
    obtain ⟨w, hrun, hreceiving⟩ :=
      ClientTransaction.onReceive_packet tr.client ht hpsn harrived hat hcount hops.2.1 hmore
    exact answered_of_loop hnet hfrom rfl hterminated hat.running hrun ⟨rfl, hreceiving⟩
      ⟨by simp, Or.inl ⟨rfl, rfl⟩⟩
  | last hpsn hcount hlast =>
    have harrived := ServerTransaction.dataArrived_of_from hpsn hfrom
    obtain ⟨w, hrun, hrunning, hannounces, haddr⟩ :=
      ClientTransaction.onReceive_last tr.client ht hserved hpsn harrived hat hcount hops hlast
    exact answered_of_loop hnet hfrom rfl hterminated hat.running hrun ⟨rfl, hrunning⟩
      (sends_reply [.wrote _, .verified _] (by simp) rfl haddr fun _ => hannounces)
  | fin =>
    have harrived := ServerTransaction.arrived_of_from hfrom
    have hrun := ClientTransaction.onReceive_fin (c := tr.client) ops harrived.intact harrived.id
      harrived.payloadLen hat.status
    refine answered_of_loop hnet hfrom rfl hterminated hat hrun ⟨rfl, rfl⟩ ?_
    split_ifs
    · exact ⟨by simp, Or.inl ⟨rfl, rfl⟩⟩
    · exact ⟨by simp, Or.inl ⟨rfl, rfl⟩⟩

end CleanState

end Trftp
