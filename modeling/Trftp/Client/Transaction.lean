import Trftp.UdpSocket

/-!
# `ClientTransaction`

The members of a client transaction and the functions that assign them, one definition
for each function of the source and one for each branch of `OnReceive`. A function
returns the new members with the events it makes visible; `none` stands for an exception
that nobody catches, which ends the process.

What the file system does is an argument of the functions that call it. The stream keeps
the bytes it was given since it was opened. They reach the file at the latest when the
stream is closed, and nobody reads the file before.
-/

namespace Trftp

/-- `std::ofstream`: whether a file is open, whether an operation failed, and the bytes given to it
since the file was opened. -/
structure OutStream where
  isOpen : Bool
  failed : Bool
  written : List UInt8
  deriving DecidableEq

/-- How the file system answers the calls that one message causes. -/
structure FileOps where
  /-- whether the file can be opened for writing -/
  openOk : Bool
  /-- whether the bytes of a `write` can be stored -/
  writeOk : Bool
  /-- how many bytes of the stream are in the file once it is closed -/
  flushed : ℕ

/-- The file system does everything that it is asked for. -/
def FileOps.Succeeds (ops : FileOps) (size : ℕ) : Prop :=
  ops.openOk = true ∧ ops.writeOk = true ∧ size ≤ ops.flushed

/-- The arguments of the constructor of `ClientTransaction`, with the address of its socket.
`hasClient` says that `client_` is not null. -/
structure ClientTransaction where
  hasClient : Bool
  curFileVersion : UInt32
  udpSocket : SockAddr

/-- The members of `ClientTransaction` that are assigned, with the file at `new_file_path_`.
`joinable` says whether `thread_` is. -/
structure ClientVars where
  isActive : Bool
  status : MessageId
  serverAddress : SockAddr
  joinable : Bool
  totalPacketNumber : UInt32
  packetSequenceNumber : UInt32
  newFileStream : OutStream
  newFileVersion : UInt32
  newFileSize : UInt32
  newFileCrc32 : UInt32
  tempFile : Option (List UInt8)
  deriving DecidableEq

/-- What the functions of the client let be seen. -/
inductive ClientEvent where
  /-- `Begin` has reset the transaction for a new NTF -/
  | began
  /-- an NTF was accepted -/
  | notified (version : UInt32)
  /-- an INFO was accepted -/
  | informed (version size crc32 : UInt32)
  /-- `write` was called on the stream -/
  | wrote (data : List UInt8)
  /-- the transaction enters DONE, with this file at `new_file_path_` -/
  | verified (file : List UInt8)
  /-- `SendMessage` sent this message -/
  | sent (id : MessageId) (p : Packet)
  /-- `Client::OnFileReceived` was called, with this file at the path -/
  | fileReceived (file : Option (List UInt8)) (version : UInt32)
  /-- an uncaught exception ended the process -/
  | terminated
  deriving DecidableEq

/-- `inter_packet_gap_`, in microseconds, which the constructor sets for good. -/
def interPacketGap : UInt32 := 100

/-- The value of `server_address_` after `server_address_ = {}`. -/
def SockAddr.unset : SockAddr := ⟨0, 0⟩

namespace ClientVars

/-- `server_address_ = addr`. -/
def heardFrom (v : ClientVars) (addr : SockAddr) : ClientVars := { v with serverAddress := addr }

/-- `new_file_stream_.open(new_file_path_, binary | out)`: truncates the file; fails on a stream that
is open already. -/
def openStream (v : ClientVars) (ops : FileOps) : ClientVars :=
  if v.newFileStream.isOpen then { v with newFileStream := { v.newFileStream with failed := true } }
  else if ops.openOk then { v with newFileStream := ⟨true, false, []⟩, tempFile := some [] }
  else { v with newFileStream := { v.newFileStream with failed := true } }

/-- `new_file_stream_.write(..)`. -/
def writeStream (v : ClientVars) (ops : FileOps) (data : List UInt8) : ClientVars :=
  if v.newFileStream.isOpen ∧ ¬v.newFileStream.failed ∧ ops.writeOk then
    { v with newFileStream := { v.newFileStream with written := v.newFileStream.written ++ data } }
  else { v with newFileStream := { v.newFileStream with failed := true } }

/-- `new_file_stream_.close()`: sets the failure bit if no file is open or if the rest cannot be stored. -/
def closeStream (v : ClientVars) (ops : FileOps) : ClientVars :=
  if v.newFileStream.isOpen then
    { v with
      newFileStream :=
        { v.newFileStream with
          isOpen := false
          failed := v.newFileStream.failed || ops.flushed < v.newFileStream.written.length }
      tempFile := some (v.newFileStream.written.take ops.flushed) }
  else { v with newFileStream := { v.newFileStream with failed := true } }

end ClientVars

namespace ClientTransaction

variable (c : ClientTransaction) (v : ClientVars)

/-- The assigned members as the constructor leaves them, with a file that may lie at the path. -/
def initialVars (tempFile : Option (List UInt8)) : ClientVars where
  isActive := false
  status := .fin
  serverAddress := .unset
  joinable := false
  totalPacketNumber := 0
  packetSequenceNumber := 0
  newFileStream := ⟨false, false, []⟩
  newFileVersion := 0
  newFileSize := 0
  newFileCrc32 := 0
  tempFile := tempFile

/-! ## Sending -/

/-- The payload that `SendMessage` stores. -/
def payloadWords : MessageId → List UInt32
  | .chk => [c.curFileVersion]
  | .rdy => [v.newFileVersion, v.newFileSize, interPacketGap]
  | .done => [v.newFileVersion, v.newFileSize, v.newFileCrc32]
  | .rtx => [v.packetSequenceNumber]
  | _ => []

/-- `payload_len` of `SendMessage`. -/
def payloadLen (id : MessageId) : ℕ := 4 * (c.payloadWords v id).length

/-- The message that `SendMessage` builds. -/
def message (id : MessageId) : TrftpMessage :=
  let msg : TrftpMessage :=
    { header :=
        { magic := trftpMagic, spid := 0x0000, dpid := 0xFD00, tpn := 1
          tpl := UInt32.ofNat (c.payloadLen v id), xid := id.toXid, crc32 := 0, psn := 0
          pl := UInt32.ofNat (c.payloadLen v id) }
      payload := TrftpMessage.blank.payload.storeWords (c.payloadWords v id) }
  msg.withCrc32 (msg.checksum (sizeofHeader + c.payloadLen v id))

/-- The datagram of that message, sent to the address that `server_address_` holds. -/
def packet (id : MessageId) : Packet :=
  Packet.ofMessage c.udpSocket v.serverAddress (c.message v id) (sizeofHeader + c.payloadLen v id)

/-- No payload of the client is longer than three words. -/
theorem length_payloadWords_le (id : MessageId) : (c.payloadWords v id).length ≤ 3 := by
  cases id <;> simp [payloadWords]

/-- No payload of the client is longer than that of DATA. -/
theorem payloadLen_le (id : MessageId) : c.payloadLen v id ≤ sizeofPayload := by
  have hle := c.length_payloadWords_le v id
  unfold payloadLen sizeofPayload
  omega

/-- A message of the client as the server receives it. -/
def received (id : MessageId) : Received :=
  .ofMessage c.udpSocket (c.message v id) (c.payloadLen v id) (c.payloadLen_le v id)

/-- The message is received as it was sent. -/
theorem received_from (id : MessageId) : (c.received v id).From (c.packet v id) :=
  Received.ofMessage_from _ _ _ (c.payloadLen_le v id)

/-- What `SendMessage` assigns before it sends. -/
def assignStatus (id : MessageId) : ClientVars :=
  match id with
  | .chk | .rdy | .done => { v with status := id }
  | .cxl => { v with status := id, isActive := false }
  | _ => v

/-- `SendMessage`. -/
def sendMessage (id : MessageId) : ClientVars × List ClientEvent :=
  match id with
  | .chk | .rdy | .rtx | .done | .cxl => (assignStatus v id, [.sent id (c.packet v id)])
  | _ => (v, [])

/-! ## Receiving -/

/-- `ValidateMessageIntegrity`. -/
def validateMessageIntegrity (msg : TrftpMessage) (len : ℕ) : Bool := msg.intact len

/-- The branch for NTF. A transaction whose `thread_` is joinable is in its receive loop here, because
`Reset` has joined the thread on the way through `Begin`; joining itself throws. -/
def onNtf (r : Received) : Option (ClientVars × List ClientEvent) :=
  if r.payloadLen ≠ 4 then some (c.sendMessage v .cxl)
  else if v.joinable then none
  else
    let v' := { v with status := .ntf, newFileVersion := r.msg.ntf.newFileVersion, joinable := true }
    some ((c.sendMessage v' .chk).1, .notified r.msg.ntf.newFileVersion :: (c.sendMessage v' .chk).2)

/-- What the branch for INFO assigns before it opens the file. The packet count is computed in 64
bits and narrowed. -/
def informedVars (msg : TrftpMessage) : ClientVars :=
  { v with
    status := .info
    newFileSize := msg.info.fileLength
    newFileCrc32 := msg.info.crc32
    totalPacketNumber := UInt32.ofNat ((msg.info.fileLength.toNat + sizeofPayload - 1) / sizeofPayload) }

/-- The end of the branch for INFO, behind the opening of the file. -/
def sendReady : ClientVars × List ClientEvent :=
  if !v.newFileStream.isOpen then c.sendMessage v .cxl
  else
    ((c.sendMessage v .rdy).1,
      .informed v.newFileVersion v.newFileSize v.newFileCrc32 :: (c.sendMessage v .rdy).2)

/-- The branch for INFO. -/
def onInfo (r : Received) (ops : FileOps) : ClientVars × List ClientEvent :=
  if v.status ≠ .chk then c.sendMessage v .cxl
  else if r.payloadLen ≠ 12 then c.sendMessage v .cxl
  else if v.newFileVersion ≠ r.msg.info.newFileVersion then c.sendMessage v .cxl
  else if r.msg.info.fileLength = 0 then c.sendMessage v .cxl
  else c.sendReady ((informedVars v r.msg).openStream ops)

/-- The status that DATA with this header asks for: the first packet comes in RDY. -/
def dataStatus (header : TrftpHeader) : MessageId := if header.psn = 0 then .rdy else .data

/-- The length that DATA with this header must have: the first and the middle packets are full. -/
def dataLen (header : TrftpHeader) : ℕ :=
  if header.psn = 0 then sizeofPayload
  else if header.psn < header.tpn - 1 then sizeofPayload
  else v.newFileSize.toNat % sizeofPayload

/-- The checks of the finished file, behind the closing of the stream: `file_size` throws if there is
no file. -/
def sendDone : Option (ClientVars × List ClientEvent) :=
  match v.tempFile with
  | none => none
  | some file =>
    if v.newFileSize.toNat ≠ file.length then some (c.sendMessage v .cxl)
    else if v.newFileCrc32 ≠ calculateFileCrc32 (some file) then some (c.sendMessage v .cxl)
    else some ((c.sendMessage v .done).1, .verified file :: (c.sendMessage v .done).2)

/-- What the branch for DATA assigns behind the write. -/
def countedVars : ClientVars :=
  { v with status := .data, packetSequenceNumber := v.packetSequenceNumber + 1 }

/-- The end of the branch for DATA, behind the write. -/
def afterWrite (ops : FileOps) : Option (ClientVars × List ClientEvent) :=
  if v.newFileStream.failed then some (c.sendMessage v .cxl)
  else if (countedVars v).packetSequenceNumber = v.totalPacketNumber then
    c.sendDone ((countedVars v).closeStream ops)
  else some (countedVars v, [])

/-- The branch for DATA. -/
def onData (r : Received) (ops : FileOps) : Option (ClientVars × List ClientEvent) :=
  if v.status ≠ dataStatus r.msg.header then some (c.sendMessage v .cxl)
  else if r.payloadLen ≠ dataLen v r.msg.header then some (c.sendMessage v .cxl)
  else if r.msg.header.psn ≠ v.packetSequenceNumber then some (c.sendMessage v .rtx)
  else
    (c.afterWrite (v.writeStream ops (r.msg.payload.bytes.take r.payloadLen)) ops).map fun p =>
      (p.1, .wrote (r.msg.payload.bytes.take r.payloadLen) :: p.2)

/-- The branch for FIN. -/
def onFin (r : Received) : ClientVars × List ClientEvent :=
  if v.status ≠ .done then c.sendMessage v .cxl
  else if r.payloadLen ≠ 0 then c.sendMessage v .cxl
  else
    ({ v with status := .fin, isActive := false },
      if c.hasClient then [.fileReceived v.tempFile v.newFileVersion] else [])

/-- The branch for CXL. -/
def onCxl (ops : FileOps) : ClientVars × List ClientEvent :=
  if v.newFileStream.isOpen then
    c.sendMessage { v.closeStream ops with tempFile := none, status := .cxl } .cxl
  else c.sendMessage { v with status := .cxl } .cxl

/-- `OnReceive`. -/
def onReceive (r : Received) (ops : FileOps) : Option (ClientVars × List ClientEvent) :=
  if !validateMessageIntegrity r.msg r.len then some (v.heardFrom r.addr, [])
  else
    match r.id? with
    | some .ntf => c.onNtf (v.heardFrom r.addr) r
    | some .info => some (c.onInfo (v.heardFrom r.addr) r ops)
    | some .data => c.onData (v.heardFrom r.addr) r ops
    | some .fin => some (c.onFin (v.heardFrom r.addr) r)
    | some .cxl => some (c.onCxl (v.heardFrom r.addr) ops)
    | _ => some (v.heardFrom r.addr, [])

/-- `Reset`. The old receive loop has ended when it is joined; the status stays. -/
def reset (ops : FileOps) : ClientVars :=
  { { v with serverAddress := .unset, totalPacketNumber := 0, packetSequenceNumber := 0 }.closeStream ops with
    newFileVersion := 0, newFileSize := 0, newFileCrc32 := 0, joinable := false }

/-- `Begin`, for a transaction that is not alive. -/
def begin (r : Received) (ops : FileOps) : Option (ClientVars × List ClientEvent) :=
  if r.id? = some .ntf then
    (c.onReceive (reset { v with isActive := true } ops) r ops).map fun p => (p.1, .began :: p.2)
  else some ({ v with isActive := false }, [])

end ClientTransaction

end Trftp
