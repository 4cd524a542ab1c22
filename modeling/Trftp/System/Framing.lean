import Trftp.System.Genuine
import Trftp.Server.Transmissions

/-!
# What one side sends and what the other side reads

The sender of a datagram computes its length twice: once for the socket, as the bytes that it
stored, and once for the header. Where the two agree, the other side accepts the datagram and
reads what was stored. The client takes both from one variable. The server takes the second
from `CompleteHeader`, which does not agree for the last packet of a file whose size is a
multiple of the packet size.
-/

namespace Trftp

open Lib (chunk)

/-! ## Datagrams of the server -/

/-- What the server can send: the messages of `SendMessage`, and DATA of the sender loop. -/
inductive Emission where
  | message (id : MessageId)
  | data (psn : UInt32)

namespace Emission

variable (t : ServerTransaction)

/-- The kinds that `SendMessage` sends itself, and the packets of the sender loop. -/
def Sent : Emission → Prop
  | message id => id = .ntf ∨ id = .info ∨ id = .fin ∨ id = .cxl
  | data psn => psn < t.totalPacketNumber

/-- The message that is handed to `UdpSocket::Send`. -/
def msg : Emission → TrftpMessage
  | message id => t.message id
  | data psn => t.dataMessage psn (chunk sizeofPayload t.served psn.toNat)

/-- The number of payload bytes that are handed to `UdpSocket::Send` behind the header. -/
def payloadLen : Emission → ℕ
  | message id => t.payloadLen id
  | data psn => (t.dataLen psn).toNat

/-- The datagram. -/
def packet (dst : SockAddr) (x : Emission) : Packet :=
  Packet.ofMessage t.udpSocket dst (x.msg t) (sizeofHeader + x.payloadLen t)

variable {t} {x : Emission}

/-- No datagram is longer than a message. -/
theorem payloadLen_le (hx : x.Sent t) : x.payloadLen t ≤ sizeofPayload := by
  cases x with
  | message id => exact t.payloadLen_le id
  | data psn => exact ServerTransaction.dataLen_le hx

end Emission

/-- Whatever the server puts into the network in a run is one of these datagrams. -/
theorem emission_of_trace {t : ServerTransaction} {es : List ServerEvent} {s : ServerState}
    (h : (serverMachine t).Trace es s) {x : ServerEvent} (hx : x ∈ es) {p : Packet}
    (hp : x.packet? = some p) : ∃ y dst, Emission.Sent t y ∧ p = y.packet t dst := by
  revert x p
  refine h.invariant (I := fun es _ => ∀ {x}, x ∈ es → ∀ {p}, x.packet? = some p →
    ∃ y dst, Emission.Sent t y ∧ p = y.packet t dst) ?_ ?_
  · intro s _ x hx
    cases hx
  · intro es s a s' e htrace ih hstep x hx p hp
    rcases List.mem_append.mp hx with hold | hnew
    · exact ih hold hp
    · rcases ServerState.step_packet (sendingInv_of_trace htrace) hstep hnew hp with
        ⟨id, hid, rfl⟩ | ⟨-, -, rfl⟩ | ⟨psn, hpsn, rfl⟩
      · refine ⟨.message id, _, ?_, rfl⟩
        rcases hid with rfl | rfl | rfl <;> simp [Emission.Sent]
      · exact ⟨.message .fin, _, by simp [Emission.Sent], rfl⟩
      · exact ⟨.data psn, _, hpsn, rfl⟩

/-- A message and its length fit each other, and the client reads what the server stored. -/
structure WellFramed (t : ServerTransaction) (msg : TrftpMessage) (payloadLen : ℕ) : Prop where
  length : sizeofHeader + payloadLen = sizeofHeader + msg.header.pl.toNat
  number : msg.header.psn < msg.header.tpn
  checksum : msg.header.crc32 =
    calculateCrc32 ((msg.withCrc32 0).toBytes.take (sizeofHeader + payloadLen)) 0
  accepted : ∀ dst r, Received.From r (Packet.ofMessage t.udpSocket dst msg (sizeofHeader + payloadLen)) →
    ClientTransaction.validateMessageIntegrity r.msg r.len = true
  decoded : ∀ dst r, Received.From r (Packet.ofMessage t.udpSocket dst msg (sizeofHeader + payloadLen)) →
    r.msg.header = msg.header ∧ r.payloadLen = payloadLen ∧
      r.msg.payload.bytes.take r.payloadLen = msg.payload.bytes.take payloadLen

/-- A message that is intact at its length is well framed. -/
theorem wellFramed_of_intact {t : ServerTransaction} {msg : TrftpMessage} {count : ℕ}
    (hintact : msg.intact (sizeofHeader + count) = true) (hle : count ≤ sizeofPayload) :
    WellFramed t msg count := by
  obtain ⟨hchecksum, -, hlen, hnumber⟩ := (msg.intact_iff _).mp hintact
  refine ⟨hlen, hnumber, hchecksum.symm, fun dst r hfrom => ?_, fun dst r hfrom => ?_⟩
  · exact (Received.From.carries hfrom hle).intact.trans hintact
  · have hc := Received.From.carries hfrom hle
    exact ⟨hc.header, hc.payloadLen, by rw [hc.payloadLen, hc.payload]⟩

/-- The last packet of a file whose size is a multiple of the packet size. -/
def Emission.FullLast (t : ServerTransaction) (x : Emission) : Prop :=
  x = .data (t.totalPacketNumber - 1) ∧ t.file.length % sizeofPayload = 0

/-- A datagram of the server is well framed unless it is that packet.

The number of bytes handed to the socket is the length of the header and the length that the
header announces, the packet number is below the packet count, the checksum is the one of the
bytes sent, and the client accepts the datagram and reads the same header and payload. -/
theorem wellFramed_iff {t : ServerTransaction} (hsize : t.file.length < 2 ^ 32) {x : Emission}
    (hx : x.Sent t) : WellFramed t (x.msg t) (x.payloadLen t) ↔ ¬x.FullLast t := by
  cases x with
  | message id =>
    have hframed : WellFramed t (t.message id) (t.payloadLen id) :=
      wellFramed_of_intact (t.message_intact id) (t.payloadLen_le id)
    exact iff_of_true hframed fun hfull => by cases hfull.1
  | data psn =>
    have hlast : t.EmptyLast psn ↔ Emission.FullLast t (.data psn) := by
      unfold ServerTransaction.EmptyLast Emission.FullLast
      rw [ServerTransaction.newFileSize_eq hsize, Emission.data.injEq]
    rw [← hlast, ← ServerTransaction.headerPl_eq_iff hx]
    constructor
    · intro hframed
      exact (Nat.add_left_cancel hframed.length).symm
    · intro heq
      refine wellFramed_of_intact ?_ (Emission.payloadLen_le hx)
      exact ServerTransaction.completeHeader_intact heq (ServerTransaction.headerTpn_eq hx ▸ hx)

/-- The packet of one byte is well framed. -/
theorem wellFramed_oneByte :
    WellFramed oneByte (Emission.msg oneByte (.data 0)) (Emission.payloadLen oneByte (.data 0)) := by
  have hsent : Emission.Sent oneByte (.data 0) := show 0 < oneByte.totalPacketNumber by decide
  exact (wellFramed_iff (by decide) hsent).mpr fun hfull => absurd hfull.2 (by decide)

/-- A transfer of a file of one full packet. -/
def fullPacket : ServerTransaction where
  file := List.replicate 1408 0
  newFileVersion := 7
  deviceId := 1
  addr := ⟨1, 1⟩
  udpSocket := ⟨2, 2⟩

/-- The packet of a file of one full packet announces an empty payload. -/
theorem not_wellFramed_fullPacket :
    ¬∀ (t : ServerTransaction) (x : Emission), 1 ≤ t.file.length → t.file.length < 2 ^ 32 → x.Sent t →
      WellFramed t (x.msg t) (x.payloadLen t) := by
  intro hclaim
  have hlength : fullPacket.file.length = 1408 := List.length_replicate
  have hsent : Emission.Sent fullPacket (.data 0) :=
    show 0 < fullPacket.totalPacketNumber by decide +kernel
  have hframed := (hclaim fullPacket (.data 0) (by omega) (by omega) hsent).length
  have hdiffers : sizeofHeader + Emission.payloadLen fullPacket (.data 0) ≠
      sizeofHeader + (Emission.msg fullPacket (.data 0)).header.pl.toNat := by decide +kernel
  exact hdiffers hframed

/-! ## Datagrams of the client -/

/-- The server reads a datagram of the client as it was meant: it is intact, its kind and the members
of its payload are those that the client stored, and its length is the one for its kind. -/
structure ReadBack (t : ServerTransaction) (c : ClientTransaction) (v : ClientVars) (kind : MessageId)
    (r : Received) : Prop where
  intact : ServerTransaction.validateMessageIntegrity r.msg r.len = true
  xid : r.msg.header.xid = kind.toXid
  chk : kind = .chk → ServerTransaction.validateChk r.payloadLen = true ∧ r.msg.chk = ⟨c.curFileVersion⟩
  rdy : kind = .rdy → ServerTransaction.validateRdy r.payloadLen = true ∧
    r.msg.rdy = ⟨v.newFileVersion, v.newFileSize, interPacketGap⟩
  done : kind = .done → r.payloadLen = 12 ∧
    r.msg.done = ⟨v.newFileVersion, v.newFileSize, v.newFileCrc32⟩ ∧
    (t.validateDone r.msg.done r.payloadLen = true ↔
      v.newFileVersion = t.newFileVersion ∧ v.newFileSize = t.newFileSize ∧ v.newFileCrc32 = t.newFileCrc32)
  cxl : kind = .cxl → ServerTransaction.validateCxl r.payloadLen = true
  rtx : kind = .rtx → r.payloadLen = 4 ∧ r.msg.rtx = ⟨v.packetSequenceNumber⟩ ∧
    ∀ psn, ServerTransaction.validateRtx r.msg.rtx r.payloadLen psn = true ↔ v.packetSequenceNumber ≤ psn

namespace ServerTransaction

/-- DONE is admitted when it has the right length and announces what the transaction sent. -/
theorem validateDone_iff (t : ServerTransaction) (payload : TrftpDone) (payloadLen : ℕ) :
    t.validateDone payload payloadLen = true ↔
      payloadLen = 12 ∧ payload.newFileVersion = t.newFileVersion ∧ payload.fileLength = t.newFileSize ∧
        payload.crc32 = t.newFileCrc32 := by
  unfold validateDone
  split_ifs <;> simp_all

/-- RTX is admitted when it has the right length and does not exceed the counter. -/
theorem validateRtx_iff (payload : TrftpRtx) (payloadLen : ℕ) (psn : UInt32) :
    validateRtx payload payloadLen psn = true ↔ payloadLen = 4 ∧ payload.retransmitPsn ≤ psn := by
  unfold validateRtx
  simp only [UInt32.lt_iff_toNat_lt, UInt32.le_iff_toNat_le]
  split_ifs <;> simp_all

end ServerTransaction

/-- `SendMessage` sends a datagram of the kind it is called for, built from the members. -/
theorem ClientTransaction.sendMessage_sent {c : ClientTransaction} {v : ClientVars} {id kind : MessageId}
    {p : Packet} (h : .sent kind p ∈ (c.sendMessage v id).2) : kind = id ∧ p = c.packet v id := by
  cases id <;> simp [ClientTransaction.sendMessage] at h <;> exact h

/-- The server reads every datagram of the client as it was meant.

Whatever the members of the client are, a datagram that `SendMessage` builds passes the integrity
check and the length test for its kind, and the server finds the kind and the payload that the
client stored. DONE is admitted exactly when the client's version, length and checksum are those
of the transaction, and RTX exactly when it does not exceed the server's counter. -/
theorem readBack_of_sent (t : ServerTransaction) {c : ClientTransaction} {v : ClientVars}
    {id kind : MessageId} {p : Packet} {r : Received} (hsent : .sent kind p ∈ (c.sendMessage v id).2)
    (hfrom : r.From p) : ReadBack t c v kind r := by
  obtain ⟨rfl, rfl⟩ := ClientTransaction.sendMessage_sent hsent
  have h := ClientTransaction.arrived_of_from hfrom
  have hle : c.payloadLen v kind ≤ sizeofPayload := c.payloadLen_le v kind
  have hlen := h.payloadLen
  refine ⟨h.intact, ?_, ?_, ?_, ?_, ?_, ?_⟩
  · rw [(Received.From.carries hfrom hle).header]
    rfl
  · rintro rfl
    exact ⟨by rw [hlen]; rfl, congrArg TrftpChk.mk (h.word 0 _ rfl)⟩
  · rintro rfl
    refine ⟨by rw [hlen]; rfl, ?_⟩
    rw [TrftpMessage.rdy, h.word 0 _ rfl, h.word 1 _ rfl, h.word 2 _ rfl]
  · rintro rfl
    have hdone : r.msg.done = ⟨v.newFileVersion, v.newFileSize, v.newFileCrc32⟩ := by
      rw [TrftpMessage.done, h.word 0 _ rfl, h.word 1 _ rfl, h.word 2 _ rfl]
    have htwelve : r.payloadLen = 12 := hlen
    refine ⟨htwelve, hdone, ?_⟩
    rw [ServerTransaction.validateDone_iff, hdone]
    exact and_iff_right htwelve
  · rintro rfl
    rw [hlen]
    rfl
  · rintro rfl
    have hrtx : r.msg.rtx = ⟨v.packetSequenceNumber⟩ := congrArg TrftpRtx.mk (h.word 0 _ rfl)
    have hfour : r.payloadLen = 4 := hlen
    refine ⟨hfour, hrtx, fun psn => ?_⟩
    rw [ServerTransaction.validateRtx_iff, hrtx]
    exact and_iff_right hfour

/-- The server reads DONE of a client that was told about the file. -/
theorem readBack_of_sent_oneByte :
    ReadBack oneByte smallClient oneByte.toldVars .done (oneByte.reply .done) := by
  have hsent : .sent .done (oneByte.replyPacket .done) ∈ (smallClient.sendMessage oneByte.toldVars .done).2 :=
    List.mem_singleton.mpr rfl
  exact readBack_of_sent oneByte hsent (oneByte.reply_from .done)

end Trftp
