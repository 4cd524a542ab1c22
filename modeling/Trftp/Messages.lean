import Trftp.Server.Slices
import Trftp.Client.Transaction

/-!
# Messages as the other side reads them

Both sides fill in the header, store the payload, put the checksum in, and send the bytes
up to the end of the payload. Whoever receives these bytes reads the same header and the
same payload, and the integrity check comes out as it would for the sender. It holds for
every message but one: the last packet of a file whose size is a multiple of the packet
size carries a full payload, while its header announces an empty one.
-/

namespace Trftp

open Lib (chunk chunkCount)

/-! ## Integrity of a completed message -/

namespace TrftpMessage

/-- The checksum ignores the field that holds it. -/
@[simp] theorem checksum_withCrc32 (msg : TrftpMessage) (crc32 : UInt32) (len : ℕ) :
    (msg.withCrc32 crc32).checksum len = msg.checksum len := rfl

/-- A message with its own checksum is intact when the rest of its header is. -/
theorem intact_withCrc32 {msg : TrftpMessage} {len : ℕ} (hmagic : msg.header.magic = trftpMagic)
    (hlen : len = sizeofHeader + msg.header.pl.toNat) (hpsn : msg.header.psn < msg.header.tpn) :
    (msg.withCrc32 (msg.checksum len)).intact len = true :=
  (intact_iff _ _).mpr ⟨rfl, hmagic, hlen, hpsn⟩

/-- A message of another length than its header announces is not intact. -/
theorem not_intact_of_length {msg : TrftpMessage} {len : ℕ}
    (h : len ≠ sizeofHeader + msg.header.pl.toNat) : msg.intact len = false := by
  rw [← Bool.not_eq_true, intact_iff]
  exact fun hintact => h hintact.2.2.1

end TrftpMessage

/-- What the receiver of a sent message finds in its buffer. -/
structure Received.Carries (r : Received) (src : SockAddr) (msg : TrftpMessage) (count : ℕ) : Prop where
  addr : r.addr = src
  payloadLen : r.payloadLen = count
  header : r.msg.header = msg.header
  payload : r.msg.payload.bytes.take count = msg.payload.bytes.take count
  intact : r.msg.intact r.len = msg.intact (sizeofHeader + count)

/-- A message that carries a whole header arrives as it was sent. -/
theorem Received.From.carries {r : Received} {src dst : SockAddr} {msg : TrftpMessage} {count : ℕ}
    (h : r.From (Packet.ofMessage src dst msg (sizeofHeader + count))) (hle : count ≤ sizeofPayload) :
    r.Carries src msg count := by
  obtain ⟨hlen, hpayloadLen, hheader, hpayload⟩ := h.eq_of_ofMessage hle
  refine ⟨h.2, hpayloadLen, hheader, hpayload, ?_⟩
  rw [hlen]
  simp only [TrftpMessage.intact, TrftpMessage.checksum_eq_of_take_eq hheader hpayload, hheader]

/-- The words of the payload arrive as they were stored. -/
theorem Received.Carries.word {r : Received} {src : SockAddr} {msg : TrftpMessage} {words : List UInt32}
    {payload : Payload} (h : r.Carries src msg (4 * words.length))
    (hmsg : msg.payload = payload.storeWords words) (hsize : words.length ≤ 3) {index : ℕ} {value : UInt32}
    (hvalue : words[index]? = some value) : r.msg.payload.word index = value := by
  have hindex : index < words.length := (List.getElem?_eq_some_iff.mp hvalue).1
  rw [Payload.word_eq_of_take_eq h.payload (by omega), hmsg, Payload.word_storeWords _ hvalue hsize]

/-! ## Messages of the server -/

namespace ServerTransaction

variable {t : ServerTransaction} {r : Received} {dst : SockAddr} {psn : UInt32}

/-- A completed message is intact when as many bytes are sent as its header announces. -/
theorem completeHeader_intact {msg : TrftpMessage} {xid : MessageId} {tpl psn : UInt32} {count : ℕ}
    (hcount : (headerPl tpl psn).toNat = count) (hpsn : psn < headerTpn tpl) :
    (t.completeHeader msg xid tpl psn).intact (sizeofHeader + count) = true := by
  subst hcount
  exact TrftpMessage.intact_withCrc32 rfl rfl hpsn

/-- Every message but DATA is a single intact packet. -/
theorem message_intact (t : ServerTransaction) (id : MessageId) :
    (t.message id).intact (sizeofHeader + t.payloadLen id) = true := by
  have hlen : t.payloadLen id = 0 ∨ t.payloadLen id = 4 ∨ t.payloadLen id = 12 := by
    cases id <;> simp [payloadLen, payloadWords]
  refine completeHeader_intact ?_ ?_ <;> rcases hlen with hlen | hlen | hlen <;> rw [hlen] <;> decide

/-- A message arrives with its kind and its payload. -/
structure Arrived (t : ServerTransaction) (r : Received) (kind : MessageId) : Prop where
  addr : r.addr = t.udpSocket
  intact : r.msg.intact r.len = true
  id : r.id? = some kind
  payloadLen : r.payloadLen = t.payloadLen kind
  word : ∀ index value, (t.payloadWords kind)[index]? = some value → r.msg.payload.word index = value

/-- What was sent arrives. -/
theorem arrived_of_from {kind : MessageId} (h : r.From (t.packet dst kind)) : t.Arrived r kind := by
  have hc := Received.From.carries h (t.payloadLen_le kind)
  refine ⟨hc.addr, ?_, ?_, hc.payloadLen, fun index value hvalue => ?_⟩
  · rw [hc.intact, message_intact]
  · rw [Received.id?, TrftpMessage.id?, hc.header]
    exact MessageId.ofXid_toXid kind
  · refine hc.word rfl ?_ hvalue
    cases kind <;> simp [payloadWords]

/-- The packet count in the header of DATA is the one of the transaction. -/
theorem headerTpn_eq (h : psn < t.totalPacketNumber) : headerTpn t.newFileSize = t.totalPacketNumber := by
  have hcount := lt_chunkCount h
  have hne : t.newFileSize ≠ 0 := by
    intro h0
    rw [h0] at hcount
    exact absurd hcount (by simp [chunkCount, sizeofPayload])
  rw [headerTpn, if_neg hne, ← UInt32.toNat_inj, totalPacketNumber_eq (no_wrap_of_lt h), toNat_packetCount]

/-- The last packet of a file whose size is a multiple of the packet size. -/
def EmptyLast (t : ServerTransaction) (psn : UInt32) : Prop :=
  psn = t.totalPacketNumber - 1 ∧ t.newFileSize.toNat % sizeofPayload = 0

/-- The payload length in the header of DATA is the length of the payload, but for that packet. -/
theorem headerPl_eq_iff (h : psn < t.totalPacketNumber) :
    (headerPl t.newFileSize psn).toNat = (t.dataLen psn).toNat ↔ ¬t.EmptyLast psn := by
  have hlen := toNat_dataLen h
  have hcount := lt_chunkCount h
  rw [headerPl, headerTpn_eq h, EmptyLast]
  by_cases hlast : psn = t.totalPacketNumber - 1
  · have hsucc := (eq_last_iff h).mp hlast
    rw [← length_served] at hsucc
    rw [Lib.length_chunk_last (by decide) hsucc, length_served] at hlen
    rw [length_served] at hsucc
    have hcover : t.newFileSize.toNat ≤ chunkCount sizeofPayload t.newFileSize.toNat * sizeofPayload :=
      Lib.le_chunkCount_mul (by decide)
    have hstart := (Lib.lt_chunkCount_iff (by decide)).mp hcount
    rw [← hsucc] at hcover
    rw [if_pos hlast, hlen, UInt32.toNat_ofNat', and_iff_right hlast]
    unfold sizeofPayload at hcover hstart ⊢
    omega
  · have hne : psn.toNat + 1 ≠ chunkCount sizeofPayload t.newFileSize.toNat := fun hsucc =>
      hlast ((eq_last_iff h).mpr hsucc)
    rw [Lib.length_chunk_of_succ_lt (by decide) (by rw [length_served]; omega)] at hlen
    rw [if_neg hlast, hlen]
    simp [hlast, sizeofPayload]

/-- A DATA message arrives with its number and its chunk of the file. -/
structure DataArrived (t : ServerTransaction) (r : Received) (psn : UInt32) : Prop where
  addr : r.addr = t.udpSocket
  id : r.id? = some .data
  number : r.msg.header.psn = psn
  tpn : r.msg.header.tpn = t.totalPacketNumber
  payload : r.msg.payload.bytes.take r.payloadLen = chunk sizeofPayload t.served psn.toNat
  payloadLen : r.payloadLen = (chunk sizeofPayload t.served psn.toNat).length
  intact : r.msg.intact r.len = true ↔ ¬t.EmptyLast psn

/-- What the sender loop sent arrives. -/
theorem dataArrived_of_from (hpsn : psn < t.totalPacketNumber)
    (h : r.From (t.dataPacket dst psn (chunk sizeofPayload t.served psn.toNat))) :
    t.DataArrived r psn := by
  have hlen := toNat_dataLen hpsn
  have hle := dataLen_le hpsn
  have hc := Received.From.carries h hle
  have hstored : (t.dataMessage psn (chunk sizeofPayload t.served psn.toNat)).payload =
      TrftpMessage.blank.payload.store (chunk sizeofPayload t.served psn.toNat) := rfl
  refine ⟨hc.addr, ?_, ?_, ?_, ?_, by rw [hc.payloadLen, hlen], ?_⟩
  · rw [Received.id?, TrftpMessage.id?, hc.header]
    exact MessageId.ofXid_toXid .data
  · rw [hc.header]
    rfl
  · rw [hc.header]
    exact headerTpn_eq hpsn
  · rw [hc.payloadLen, hc.payload, hlen]
    exact hstored ▸ Payload.take_store _ (by rwa [← hlen])
  · rw [hc.intact, ← headerPl_eq_iff hpsn]
    constructor
    · intro hintact
      by_contra hne
      rw [TrftpMessage.not_intact_of_length] at hintact
      · contradiction
      · intro heq
        exact hne (Nat.add_left_cancel heq).symm
    · intro heq
      exact completeHeader_intact heq (headerTpn_eq hpsn ▸ hpsn)

end ServerTransaction

/-! ## Messages of the client -/

namespace ClientTransaction

variable {c : ClientTransaction} {v : ClientVars} {r : Received}

/-- Every message of the client is intact. -/
theorem message_intact (c : ClientTransaction) (v : ClientVars) (id : MessageId) :
    (c.message v id).intact (sizeofHeader + c.payloadLen v id) = true := by
  have hle := c.length_payloadWords_le v id
  refine TrftpMessage.intact_withCrc32 rfl ?_ (show (0 : UInt32) < 1 by decide)
  rw [payloadLen, UInt32.toNat_ofNat', Nat.mod_eq_of_lt (by omega)]

/-- A message arrives with its kind and its payload. -/
structure Arrived (c : ClientTransaction) (v : ClientVars) (r : Received) (kind : MessageId) : Prop where
  addr : r.addr = c.udpSocket
  intact : r.msg.intact r.len = true
  id : r.id? = some kind
  payloadLen : r.payloadLen = c.payloadLen v kind
  word : ∀ index value, (c.payloadWords v kind)[index]? = some value → r.msg.payload.word index = value

/-- What was sent arrives. -/
theorem arrived_of_from {kind : MessageId} (h : r.From (c.packet v kind)) : c.Arrived v r kind := by
  have hle := c.length_payloadWords_le v kind
  have hc := Received.From.carries h (by unfold payloadLen sizeofPayload; omega)
  refine ⟨hc.addr, ?_, ?_, hc.payloadLen, fun index value hvalue => hc.word rfl hle hvalue⟩
  · rw [hc.intact, message_intact]
  · rw [Received.id?, TrftpMessage.id?, hc.header]
    exact MessageId.ofXid_toXid kind

end ClientTransaction

/-! ## Small transfers

The runs on fixed inputs in other modules are runs of these two transfers. -/

/-- A transfer of a file of one byte. -/
def oneByte : ServerTransaction where
  file := [42]
  newFileVersion := 7
  deviceId := 1
  addr := ⟨1, 1⟩
  udpSocket := ⟨2, 2⟩

/-- A transfer of a file of two packets, the second with one byte. -/
def twoPackets : ServerTransaction where
  file := List.replicate 1409 0
  newFileVersion := 7
  deviceId := 1
  addr := ⟨1, 1⟩
  udpSocket := ⟨2, 2⟩

/-- No packet of the second transfer is longer than the payload of a message. -/
theorem twoPackets_dataLen_le (psn : UInt32) : (twoPackets.dataLen psn).toNat ≤ sizeofPayload := by
  have hlast : (twoPackets.dataLen (twoPackets.totalPacketNumber - 1)).toNat ≤ sizeofPayload := by
    decide +kernel
  by_cases h : psn = twoPackets.totalPacketNumber - 1
  · rwa [h]
  · rw [ServerTransaction.dataLen, if_neg h]
    decide

/-- The first packet of the second transfer as the client receives it. -/
def firstReceived : Received :=
  twoPackets.receivedData 0 (List.replicate 1408 0) (twoPackets_dataLen_le 0)

/-- The second packet as the client receives it. -/
def secondReceived : Received := twoPackets.receivedData 1 [0] (twoPackets_dataLen_le 1)

/-- A client on the host that these transfers are addressed to. -/
def smallClient : ClientTransaction where
  hasClient := true
  curFileVersion := 6
  udpSocket := ⟨1, 3⟩

/-- The members of a client that was told about the file of a transfer. -/
def ServerTransaction.toldVars (t : ServerTransaction) : ClientVars :=
  { ClientTransaction.initialVars none with
    serverAddress := t.udpSocket, newFileVersion := t.newFileVersion
    newFileSize := t.newFileSize, newFileCrc32 := t.newFileCrc32 }

/-- A message of the small client, told about the file. -/
def ServerTransaction.replyPacket (t : ServerTransaction) (id : MessageId) : Packet :=
  smallClient.packet t.toldVars id

/-- What the server receives of that message. -/
def ServerTransaction.reply (t : ServerTransaction) (id : MessageId) : Received :=
  smallClient.received t.toldVars id

/-- The message is received as it was sent. -/
theorem ServerTransaction.reply_from (t : ServerTransaction) (id : MessageId) :
    (t.reply id).From (t.replyPacket id) := smallClient.received_from t.toldVars id

/-- It is received with its kind. -/
theorem ServerTransaction.reply_id? (t : ServerTransaction) (id : MessageId) :
    (t.reply id).id? = some id := (ClientTransaction.arrived_of_from (t.reply_from id)).id

/-- A file system that stores everything. -/
def roomyDisk : FileOps := ⟨true, true, 2 ^ 32⟩

end Trftp
