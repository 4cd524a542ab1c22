import Trftp.UdpSocket
import Mathlib.Tactic.SplitIfs

/-!
# `ServerTransaction`

A transaction has members that the constructor computes once, here functions of its
arguments, and members that are assigned while the transfer runs, the `ServerVars`. The
served file is taken not to change during the transfer.

Machine integers have the widths of the source. `sizeof` has type `size_t`, so an
expression that mixes it with a `uint32_t` is computed in 64 bits and narrowed by the
assignment; the constructor casts it to `uint32_t` first, and that sum can wrap.
-/

namespace Trftp

/-- The arguments of the constructor of `ServerTransaction`, with the contents of the file at
`file_path` and the address of the server's own socket. -/
structure ServerTransaction where
  file : List UInt8
  newFileVersion : UInt32
  deviceId : UInt32
  addr : SockAddr
  udpSocket : SockAddr

/-- The members of `ServerTransaction` that are assigned during a transfer. -/
structure ServerVars where
  status : MessageId
  clientAddress : SockAddr
  packetSequenceNumber : UInt32
  retransmitPsn : UInt32
  curFileVersion : UInt32
  interPacketGap : ℕ
  deriving DecidableEq

/-- The value of `retransmit_psn_` when no retransmission is requested: `-1U`. -/
def noRetransmit : UInt32 := 0xFFFFFFFF

/-- `TRAN_IPG_MIN`, in microseconds. -/
def tranIpgMin : ℕ := 100

/-- `TRAN_IPG_MAX`, in microseconds. -/
def tranIpgMax : ℕ := 300

namespace ServerTransaction

variable (t : ServerTransaction)

/-- `new_file_size_`: the file size, narrowed to 32 bits. -/
def newFileSize : UInt32 := UInt32.ofNat t.file.length

/-- `new_file_crc32_`. -/
def newFileCrc32 : UInt32 := calculateFileCrc32 (some t.file)

/-- `total_packet_number_`: the sum is taken in 32 bits. -/
def totalPacketNumber : UInt32 :=
  (t.newFileSize + UInt32.ofNat sizeofPayload - 1) / UInt32.ofNat sizeofPayload

/-- Packet numbers stay far below the value that marks an empty slot. -/
theorem ne_noRetransmit_of_le {p : UInt32} (h : p.toNat ≤ t.totalPacketNumber.toNat) :
    p ≠ noRetransmit := by
  rintro rfl
  have hdiv : t.totalPacketNumber.toNat =
      (t.newFileSize + UInt32.ofNat sizeofPayload - 1).toNat / sizeofPayload := UInt32.toNat_div _ _
  have hmark : noRetransmit.toNat = 4294967295 := rfl
  generalize t.newFileSize + UInt32.ofNat sizeofPayload - 1 = sum at hdiv
  have hsum := sum.toNat_lt
  rw [hdiv, hmark, sizeofPayload] at h
  omega

/-- The assigned members as the constructor leaves them. -/
def initialVars : ServerVars where
  status := .ntf
  clientAddress := t.addr
  packetSequenceNumber := 0
  retransmitPsn := noRetransmit
  curFileVersion := 0
  interPacketGap := 100

/-! ## Sending -/

/-- `header.tpn` of `CompleteHeader`, computed in 64 bits. -/
def headerTpn (tpl : UInt32) : UInt32 :=
  if tpl = 0 then 1 else UInt32.ofNat ((tpl.toNat + sizeofPayload - 1) / sizeofPayload)

/-- `header.pl` of `CompleteHeader`. -/
def headerPl (tpl psn : UInt32) : UInt32 :=
  if psn = headerTpn tpl - 1 then UInt32.ofNat (tpl.toNat % sizeofPayload) else UInt32.ofNat sizeofPayload

/-- `CompleteHeader`. -/
def completeHeader (msg : TrftpMessage) (xid : MessageId) (tpl psn : UInt32) : TrftpMessage :=
  let msg : TrftpMessage :=
    { msg with
      header :=
        { magic := trftpMagic, spid := 0xFD00, dpid := t.deviceId.toUInt16, tpn := headerTpn tpl
          tpl := tpl, xid := xid.toXid, crc32 := 0, psn := psn, pl := headerPl tpl psn } }
  msg.withCrc32 (msg.checksum (sizeofHeader + (headerPl tpl psn).toNat))

/-- The payload that `SendMessage` stores for a kind other than DATA. -/
def payloadWords : MessageId → List UInt32
  | .ntf => [t.newFileVersion]
  | .info => [t.newFileVersion, t.newFileSize, t.newFileCrc32]
  | _ => []

/-- `payload_len` of `SendMessage`. -/
def payloadLen (id : MessageId) : ℕ := 4 * (t.payloadWords id).length

/-- The message that `SendMessage` builds for a kind other than DATA. -/
def message (id : MessageId) : TrftpMessage :=
  t.completeHeader
    { TrftpMessage.blank with payload := TrftpMessage.blank.payload.storeWords (t.payloadWords id) }
    id (UInt32.ofNat (t.payloadLen id)) 0

/-- The datagram of such a message, sent to the address that `client_address_` holds. -/
def packet (dst : SockAddr) (id : MessageId) : Packet :=
  Packet.ofMessage t.udpSocket dst (t.message id) (sizeofHeader + t.payloadLen id)

/-- `file_offset` of the sender loop. -/
def fileOffset (psn : UInt32) : UInt32 := UInt32.ofNat (psn.toNat * sizeofPayload)

/-- `payload_len` of the sender loop. -/
def dataLen (psn : UInt32) : UInt32 :=
  if psn = t.totalPacketNumber - 1 then t.newFileSize - fileOffset psn else UInt32.ofNat sizeofPayload

/-- `ifs.seekg(file_offset).read(.., payload_len)`: fails when the file ends before the read does. -/
def readData (psn : UInt32) : Option (List UInt8) :=
  if (fileOffset psn).toNat + (t.dataLen psn).toNat ≤ t.file.length then
    some ((t.file.drop (fileOffset psn).toNat).take (t.dataLen psn).toNat)
  else none

/-- The DATA message of the sender loop. -/
def dataMessage (psn : UInt32) (newFileData : List UInt8) : TrftpMessage :=
  t.completeHeader
    { TrftpMessage.blank with payload := TrftpMessage.blank.payload.store newFileData }
    .data t.newFileSize psn

/-- The datagram of a DATA message. -/
def dataPacket (dst : SockAddr) (psn : UInt32) (newFileData : List UInt8) : Packet :=
  Packet.ofMessage t.udpSocket dst (t.dataMessage psn newFileData)
    (sizeofHeader + (t.dataLen psn).toNat)

/-- No payload but that of DATA is longer than three words. -/
theorem payloadLen_le (id : MessageId) : t.payloadLen id ≤ sizeofPayload := by
  cases id <;> simp [payloadLen, payloadWords, sizeofPayload]

/-- A message of the transaction as the client receives it. -/
def received (id : MessageId) : Received :=
  .ofMessage t.udpSocket (t.message id) (t.payloadLen id) (t.payloadLen_le id)

/-- A DATA message of the transaction as the client receives it. -/
def receivedData (psn : UInt32) (newFileData : List UInt8)
    (h : (t.dataLen psn).toNat ≤ sizeofPayload) : Received :=
  .ofMessage t.udpSocket (t.dataMessage psn newFileData) (t.dataLen psn).toNat h

/-! ## Receiving -/

/-- `ValidateMessageIntegrity`. -/
def validateMessageIntegrity (msg : TrftpMessage) (len : ℕ) : Bool := msg.intact len

/-- `ValidateMessage(TrftpChk)`. -/
def validateChk (payloadLen : ℕ) : Bool := payloadLen = 4

/-- `ValidateMessage(TrftpRdy)`. -/
def validateRdy (payloadLen : ℕ) : Bool := payloadLen = 12

/-- `ValidateMessage(TrftpDone)`, against the version, length and checksum of the transaction. -/
def validateDone (payload : TrftpDone) (payloadLen : ℕ) : Bool :=
  if payloadLen ≠ 12 then false
  else if payload.newFileVersion ≠ t.newFileVersion then false
  else if payload.fileLength ≠ t.newFileSize then false
  else if payload.crc32 ≠ t.newFileCrc32 then false
  else true

/-- An admitted DONE announces what the transaction sent. -/
theorem eq_of_validateDone {payload : TrftpDone} {payloadLen : ℕ}
    (h : t.validateDone payload payloadLen = true) :
    payload = ⟨t.newFileVersion, t.newFileSize, t.newFileCrc32⟩ := by
  unfold validateDone at h
  split_ifs at h with _ hversion hlength hcrc
  cases payload
  simp only [ne_eq, not_not] at hversion hlength hcrc
  rw [hversion, hlength, hcrc]

/-- `ValidateMessage(TrftpCxl)`: an empty struct has size one, so the payload has to be empty. -/
def validateCxl (payloadLen : ℕ) : Bool := payloadLen = 1 - 1

/-- `ValidateMessage(TrftpRtx)`, against the current packet number. -/
def validateRtx (payload : TrftpRtx) (payloadLen : ℕ) (psn : UInt32) : Bool :=
  if payloadLen ≠ 4 then false
  else if psn < payload.retransmitPsn then false
  else true

/-- An admitted retransmission request does not exceed the counter it was compared with. -/
theorem le_of_validateRtx {payload : TrftpRtx} {payloadLen : ℕ} {psn : UInt32}
    (h : validateRtx payload payloadLen psn = true) : payload.retransmitPsn.toNat ≤ psn.toNat := by
  unfold validateRtx at h
  split_ifs at h with _ hlt
  exact Nat.le_of_not_lt fun hlt' => hlt (UInt32.lt_iff_toNat_lt.mpr hlt')

/-- `std::clamp(msg.rdy.inter_packet_gap, TRAN_IPG_MIN, TRAN_IPG_MAX)`. -/
def clampGap (gap : UInt32) : ℕ := min (max gap.toNat tranIpgMin) tranIpgMax

/-- `OnReceive`, run from its entry to its return without interruption. -/
def onReceive (v : ServerVars) (r : Received) : ServerVars :=
  let v := { v with clientAddress := r.addr }
  if !validateMessageIntegrity r.msg r.len then v
  else
    match r.id? with
    | some .chk =>
      if v.status ≠ .ntf then v
      else if !validateChk r.payloadLen then v
      else { v with curFileVersion := r.msg.chk.curFileVersion, status := .chk }
    | some .rdy =>
      if v.status ≠ .info then v
      else if !validateRdy r.payloadLen then v
      else { v with interPacketGap := clampGap r.msg.rdy.interPacketGap, status := .rdy }
    | some .done =>
      if v.status ≠ .data then v
      else if v.packetSequenceNumber ≠ t.totalPacketNumber then v
      else if !t.validateDone r.msg.done r.payloadLen then v
      else { v with status := .done }
    | some .cxl =>
      if !validateCxl r.payloadLen then v
      else { v with status := .cxl }
    | some .rtx =>
      if v.status ≠ .data then v
      else if !validateRtx r.msg.rtx r.payloadLen v.packetSequenceNumber then v
      else { v with retransmitPsn := r.msg.rtx.retransmitPsn }
    | _ => v

end ServerTransaction

end Trftp
