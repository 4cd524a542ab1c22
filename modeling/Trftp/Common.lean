import Trftp.Crc32
import Trftp.Lib.LittleEndian

/-!
# The message format of `common.h`

A message is a packed header of 32 bytes followed by a union of payloads, all of which
start at its first byte. The memory image is the one of a little-endian host: the code
hands the struct to the checksum and to the socket as bytes and never converts a field.
-/

namespace Trftp

open Lib (LittleEndian.write LittleEndian.read)

/-- `MessageId`, which is also `FtpStatus`. -/
inductive MessageId where
  | ntf | chk | info | rdy | cxl | data | rtx | done | fin
  deriving DecidableEq, Repr

/-- The number that stands for a message kind in `header.xid`. -/
def MessageId.toXid : MessageId → UInt32
  | .ntf => 0x4500000F
  | .chk => 0x45FD0001
  | .info => 0x45FD0002
  | .rdy => 0x45FD0003
  | .cxl => 0x45FD000C
  | .data => 0x45FD000D
  | .rtx => 0x45FD000E
  | .done => 0x45FD000F
  | .fin => 0x45FD000A

/-- The conversion `MessageId(header.xid)`; `none` is a value outside the enumeration. -/
def MessageId.ofXid (xid : UInt32) : Option MessageId :=
  [.ntf, .chk, .info, .rdy, .cxl, .data, .rtx, .done, .fin].find? fun id => id.toXid == xid

/-- Converting a kind to its number and back. -/
@[simp] theorem MessageId.ofXid_toXid (id : MessageId) : ofXid id.toXid = some id := by
  cases id <;> decide

/-- `TRFTP_MAGIC`. -/
def trftpMagic : UInt32 := 0x524F424C

/-- `TrftpHeader`. -/
structure TrftpHeader where
  magic : UInt32
  spid : UInt16
  dpid : UInt16
  tpn : UInt32
  tpl : UInt32
  xid : UInt32
  crc32 : UInt32
  psn : UInt32
  pl : UInt32
  deriving DecidableEq, Repr

/-- `sizeof(TrftpHeader)`. -/
def sizeofHeader : ℕ := 32

/-- `sizeof(TrftpMessage::payload)`, which is also `sizeof(TrftpData)`. -/
def sizeofPayload : ℕ := 1408

/-- `sizeof(TrftpMessage)`. -/
def sizeofMessage : ℕ := sizeofHeader + sizeofPayload

/-- The union of payloads, as the bytes that all its members share. -/
structure Payload where
  bytes : List UInt8
  size : bytes.length = sizeofPayload
  deriving DecidableEq

/-- `TrftpMessage`. -/
structure TrftpMessage where
  header : TrftpHeader
  payload : Payload
  deriving DecidableEq

/-! ## Memory image -/

/-- The bytes of a 32-bit member. -/
def wordBytes (value : UInt32) : List UInt8 := LittleEndian.write 4 value.toNat

/-- The bytes of a 16-bit member. -/
def halfBytes (value : UInt16) : List UInt8 := LittleEndian.write 2 value.toNat

@[simp] theorem length_wordBytes (value : UInt32) : (wordBytes value).length = 4 := by
  simp [wordBytes]

@[simp] theorem length_halfBytes (value : UInt16) : (halfBytes value).length = 2 := by
  simp [halfBytes]

/-- A word is read back from its bytes. -/
@[simp] theorem read_wordBytes (value : UInt32) : LittleEndian.read (wordBytes value) = value.toNat :=
  Lib.LittleEndian.read_write_of_lt value.toNat_lt

/-- Different words have different bytes. -/
theorem wordBytes_injective {left right : UInt32} (h : wordBytes left = wordBytes right) :
    left = right := by
  have hread := congrArg LittleEndian.read h
  simpa only [read_wordBytes, UInt32.toNat_inj] using hread

/-- Different half words have different bytes. -/
theorem halfBytes_injective {left right : UInt16} (h : halfBytes left = halfBytes right) :
    left = right := by
  have hread := congrArg LittleEndian.read h
  rw [halfBytes, halfBytes, Lib.LittleEndian.read_write_of_lt left.toNat_lt,
    Lib.LittleEndian.read_write_of_lt right.toNat_lt] at hread
  exact UInt16.toNat_inj.mp hread

/-- The packed header. -/
def TrftpHeader.toBytes (header : TrftpHeader) : List UInt8 :=
  wordBytes header.magic ++ (halfBytes header.spid ++ (halfBytes header.dpid ++
    (wordBytes header.tpn ++ (wordBytes header.tpl ++ (wordBytes header.xid ++
      (wordBytes header.crc32 ++ (wordBytes header.psn ++ wordBytes header.pl)))))))

@[simp] theorem TrftpHeader.length_toBytes (header : TrftpHeader) :
    header.toBytes.length = sizeofHeader := by
  simp [toBytes, sizeofHeader]

/-- The packed layout determines every field. -/
theorem TrftpHeader.toBytes_injective {left right : TrftpHeader}
    (h : left.toBytes = right.toBytes) : left = right := by
  unfold toBytes at h
  obtain ⟨hmagic, h⟩ := List.append_inj h (by simp)
  obtain ⟨hspid, h⟩ := List.append_inj h (by simp)
  obtain ⟨hdpid, h⟩ := List.append_inj h (by simp)
  obtain ⟨htpn, h⟩ := List.append_inj h (by simp)
  obtain ⟨htpl, h⟩ := List.append_inj h (by simp)
  obtain ⟨hxid, h⟩ := List.append_inj h (by simp)
  obtain ⟨hcrc, h⟩ := List.append_inj h (by simp)
  obtain ⟨hpsn, hpl⟩ := List.append_inj h (by simp)
  cases left
  cases right
  simp only [TrftpHeader.mk.injEq]
  exact ⟨wordBytes_injective hmagic, halfBytes_injective hspid, halfBytes_injective hdpid,
    wordBytes_injective htpn, wordBytes_injective htpl, wordBytes_injective hxid,
    wordBytes_injective hcrc, wordBytes_injective hpsn, wordBytes_injective hpl⟩

/-- The whole message as the socket and the checksum see it. -/
def TrftpMessage.toBytes (msg : TrftpMessage) : List UInt8 :=
  msg.header.toBytes ++ msg.payload.bytes

@[simp] theorem TrftpMessage.length_toBytes (msg : TrftpMessage) :
    msg.toBytes.length = sizeofMessage := by
  simp [toBytes, sizeofMessage, msg.payload.size]

/-- The member of 32 bits at a byte offset. -/
def wordAt (bytes : List UInt8) (offset : ℕ) : UInt32 :=
  UInt32.ofNat (LittleEndian.read ((bytes.drop offset).take 4))

/-- The member of 16 bits at a byte offset. -/
def halfAt (bytes : List UInt8) (offset : ℕ) : UInt16 :=
  UInt16.ofNat (LittleEndian.read ((bytes.drop offset).take 2))

/-- The bytes of a member are the bytes at its offset. -/
theorem wordBytes_wordAt {bytes : List UInt8} {offset : ℕ} (h : offset + 4 ≤ bytes.length) :
    wordBytes (wordAt bytes offset) = (bytes.drop offset).take 4 := by
  have hlen : ((bytes.drop offset).take 4).length = 4 := by
    rw [List.length_take, List.length_drop]
    omega
  have hlt := Lib.LittleEndian.read_lt ((bytes.drop offset).take 4)
  rw [hlen] at hlt
  have hwrite := Lib.LittleEndian.write_read ((bytes.drop offset).take 4)
  rw [hlen] at hwrite
  rw [wordBytes, wordAt, UInt32.toNat_ofNat', Nat.mod_eq_of_lt (show _ < 2 ^ 32 from hlt), hwrite]

/-- The bytes of a half word are the bytes at its offset. -/
theorem halfBytes_halfAt {bytes : List UInt8} {offset : ℕ} (h : offset + 2 ≤ bytes.length) :
    halfBytes (halfAt bytes offset) = (bytes.drop offset).take 2 := by
  have hlen : ((bytes.drop offset).take 2).length = 2 := by
    rw [List.length_take, List.length_drop]
    omega
  have hlt := Lib.LittleEndian.read_lt ((bytes.drop offset).take 2)
  rw [hlen] at hlt
  have hwrite := Lib.LittleEndian.write_read ((bytes.drop offset).take 2)
  rw [hlen] at hwrite
  rw [halfBytes, halfAt, UInt16.toNat_ofNat', Nat.mod_eq_of_lt (show _ < 2 ^ 16 from hlt), hwrite]

/-- The header that starts at the first of the given bytes. -/
def TrftpHeader.ofBytes (bytes : List UInt8) : TrftpHeader where
  magic := wordAt bytes 0
  spid := halfAt bytes 4
  dpid := halfAt bytes 6
  tpn := wordAt bytes 8
  tpl := wordAt bytes 12
  xid := wordAt bytes 16
  crc32 := wordAt bytes 20
  psn := wordAt bytes 24
  pl := wordAt bytes 28

/-- The header has the bytes that it was read from. -/
theorem TrftpHeader.toBytes_ofBytes {bytes : List UInt8} (h : sizeofHeader ≤ bytes.length) :
    (TrftpHeader.ofBytes bytes).toBytes = bytes.take sizeofHeader := by
  have hcut (offset count total : ℕ) : (bytes.drop offset).take (count + total) =
      (bytes.drop offset).take count ++ (bytes.drop (offset + count)).take total := by
    rw [List.take_add, List.drop_drop]
  unfold sizeofHeader at h ⊢
  simp only [toBytes, ofBytes]
  rw [wordBytes_wordAt (by omega), halfBytes_halfAt (by omega), halfBytes_halfAt (by omega),
    wordBytes_wordAt (by omega), wordBytes_wordAt (by omega), wordBytes_wordAt (by omega),
    wordBytes_wordAt (by omega), wordBytes_wordAt (by omega), wordBytes_wordAt (by omega)]
  rw [← hcut 24 4 4, ← hcut 20 4 8, ← hcut 16 4 12, ← hcut 12 4 16, ← hcut 8 4 20, ← hcut 6 2 24,
    ← hcut 4 2 26, ← hcut 0 4 28, List.drop_zero]

/-- The message in a memory image. -/
def TrftpMessage.ofBytes (bytes : List UInt8) (h : bytes.length = sizeofMessage) : TrftpMessage where
  header := TrftpHeader.ofBytes bytes
  payload := ⟨bytes.drop sizeofHeader, by rw [List.length_drop, h]; rfl⟩

/-- Every memory image of the right size is one of a message. -/
theorem TrftpMessage.toBytes_ofBytes {bytes : List UInt8} (h : bytes.length = sizeofMessage) :
    (TrftpMessage.ofBytes bytes h).toBytes = bytes := by
  have hheader : sizeofHeader ≤ bytes.length := by
    rw [h]
    exact Nat.le_add_right _ _
  rw [toBytes, ofBytes, TrftpHeader.toBytes_ofBytes hheader, List.take_append_drop]

/-- A message is determined by its bytes. -/
theorem TrftpMessage.toBytes_injective {left right : TrftpMessage} (h : left.toBytes = right.toBytes) :
    left = right := by
  obtain ⟨hheader, hpayload⟩ := List.append_inj h (by simp)
  obtain ⟨_, _, _⟩ := left
  obtain ⟨_, _, _⟩ := right
  cases TrftpHeader.toBytes_injective hheader
  cases hpayload
  rfl

/-- Cutting a message behind its header cuts the payload. -/
theorem TrftpMessage.take_toBytes (msg : TrftpMessage) (payloadLen : ℕ) :
    msg.toBytes.take (sizeofHeader + payloadLen) =
      msg.header.toBytes ++ msg.payload.bytes.take payloadLen := by
  rw [toBytes, List.take_append, TrftpHeader.length_toBytes, Nat.add_sub_cancel_left,
    List.take_of_length_le (by simp)]

/-- Messages that agree on their first bytes, the header included, agree on the header and on that
much of the payload. -/
theorem TrftpMessage.eq_of_take_eq {left right : TrftpMessage} {payloadLen : ℕ}
    (h : left.toBytes.take (sizeofHeader + payloadLen) = right.toBytes.take (sizeofHeader + payloadLen)) :
    left.header = right.header ∧
      left.payload.bytes.take payloadLen = right.payload.bytes.take payloadLen := by
  rw [take_toBytes, take_toBytes] at h
  obtain ⟨hheader, hpayload⟩ := List.append_inj h (by simp)
  exact ⟨TrftpHeader.toBytes_injective hheader, hpayload⟩

/-! ## Payloads -/

/-- Storing at the first byte of the union keeps the bytes behind. -/
def Payload.store (payload : Payload) (data : List UInt8) : Payload where
  bytes := (data ++ payload.bytes.drop data.length).take sizeofPayload
  size := by
    simp only [List.length_take, List.length_append, List.length_drop, payload.size]
    omega

/-- Storing the 32-bit members of a payload struct. -/
def Payload.storeWords (payload : Payload) (words : List UInt32) : Payload :=
  payload.store (words.flatMap wordBytes)

/-- Reading a 32-bit member of a payload struct. -/
def Payload.word (payload : Payload) (index : ℕ) : UInt32 :=
  UInt32.ofNat (LittleEndian.read ((payload.bytes.drop (4 * index)).take 4))

/-- What was stored stands at the first byte. -/
theorem Payload.take_store (payload : Payload) {data : List UInt8} (h : data.length ≤ sizeofPayload) :
    (payload.store data).bytes.take data.length = data := by
  simp [store, List.take_take, Nat.min_eq_left h]

private theorem take_drop_words {words : List UInt32} {index : ℕ} {value : UInt32}
    (h : words[index]? = some value) (rest : List UInt8) :
    ((words.flatMap wordBytes ++ rest).drop (4 * index)).take 4 = wordBytes value := by
  induction words generalizing index with
  | nil => simp at h
  | cons word words ih =>
    cases index with
    | zero =>
      simp only [List.getElem?_cons_zero, Option.some.injEq] at h
      subst h
      simp [List.flatMap_cons]
    | succ index =>
      rw [List.getElem?_cons_succ] at h
      rw [List.flatMap_cons, List.append_assoc, List.drop_append,
        List.drop_of_length_le (by simp), List.nil_append, length_wordBytes,
        show 4 * (index + 1) - 4 = 4 * index by omega]
      exact ih h

/-- A member depends on its own bytes only. -/
theorem Payload.word_eq_of_take_eq {left right : Payload} {payloadLen index : ℕ}
    (h : left.bytes.take payloadLen = right.bytes.take payloadLen) (hindex : 4 * index + 4 ≤ payloadLen) :
    left.word index = right.word index := by
  have hcut : ∀ payload : Payload, (payload.bytes.drop (4 * index)).take 4 =
      ((payload.bytes.take payloadLen).drop (4 * index)).take 4 := by
    intro payload
    rw [List.drop_take, List.take_take, Nat.min_eq_left (by omega)]
  rw [word, word, hcut left, hcut right, h]

/-- Every stored member is read back. -/
theorem Payload.word_storeWords (payload : Payload) {words : List UInt32} {index : ℕ} {value : UInt32}
    (h : words[index]? = some value) (hsize : words.length ≤ 3) :
    (payload.storeWords words).word index = value := by
  have hindex : index < words.length := (List.getElem?_eq_some_iff.mp h).1
  have hcut : 4 * index + 4 ≤ sizeofPayload := by
    unfold sizeofPayload
    omega
  rw [word, storeWords, store, List.drop_take, List.take_take, Nat.min_eq_left (by omega),
    take_drop_words h, read_wordBytes, UInt32.ofNat_toNat]

/-- `TrftpNtf`. -/
structure TrftpNtf where
  newFileVersion : UInt32

/-- `TrftpChk`. -/
structure TrftpChk where
  curFileVersion : UInt32

/-- `TrftpInfo`. -/
structure TrftpInfo where
  newFileVersion : UInt32
  fileLength : UInt32
  crc32 : UInt32

/-- `TrftpRdy`. -/
structure TrftpRdy where
  newFileVersion : UInt32
  fileLength : UInt32
  interPacketGap : UInt32

/-- `TrftpDone`. -/
structure TrftpDone where
  newFileVersion : UInt32
  fileLength : UInt32
  crc32 : UInt32
  deriving DecidableEq

/-- `TrftpRtx`. -/
structure TrftpRtx where
  retransmitPsn : UInt32

/-- The members of the payload union, each read at the first byte. -/
def TrftpMessage.ntf (msg : TrftpMessage) : TrftpNtf := ⟨msg.payload.word 0⟩

@[inherit_doc TrftpMessage.ntf]
def TrftpMessage.chk (msg : TrftpMessage) : TrftpChk := ⟨msg.payload.word 0⟩

@[inherit_doc TrftpMessage.ntf]
def TrftpMessage.info (msg : TrftpMessage) : TrftpInfo :=
  ⟨msg.payload.word 0, msg.payload.word 1, msg.payload.word 2⟩

@[inherit_doc TrftpMessage.ntf]
def TrftpMessage.rdy (msg : TrftpMessage) : TrftpRdy :=
  ⟨msg.payload.word 0, msg.payload.word 1, msg.payload.word 2⟩

@[inherit_doc TrftpMessage.ntf]
def TrftpMessage.done (msg : TrftpMessage) : TrftpDone :=
  ⟨msg.payload.word 0, msg.payload.word 1, msg.payload.word 2⟩

@[inherit_doc TrftpMessage.ntf]
def TrftpMessage.rtx (msg : TrftpMessage) : TrftpRtx := ⟨msg.payload.word 0⟩

/-- An uninitialised message. Only bytes that are written afterwards are ever sent, so its contents
do not matter; they are taken to be zero. -/
def TrftpMessage.blank : TrftpMessage where
  header := ⟨0, 0, 0, 0, 0, 0, 0, 0, 0⟩
  payload := ⟨List.replicate sizeofPayload 0, List.length_replicate⟩

/-! ## Integrity -/

/-- A message with its checksum field overwritten. -/
def TrftpMessage.withCrc32 (msg : TrftpMessage) (crc32 : UInt32) : TrftpMessage :=
  { msg with header := { msg.header with crc32 := crc32 } }

/-- The checksum of the first bytes of a message, computed with the checksum field set to zero. -/
def TrftpMessage.checksum (msg : TrftpMessage) (len : ℕ) : UInt32 :=
  calculateCrc32 ((msg.withCrc32 0).toBytes.take len) 0

/-- The kind of a message. -/
def TrftpMessage.id? (msg : TrftpMessage) : Option MessageId := MessageId.ofXid msg.header.xid

/-- The test that both transactions make before they look at a message: checksum, magic code,
length, and packet numbers, in this order. -/
def TrftpMessage.intact (msg : TrftpMessage) (len : ℕ) : Bool :=
  if msg.checksum len ≠ msg.header.crc32 then false
  else if msg.header.magic ≠ trftpMagic then false
  else if len ≠ sizeofHeader + msg.header.pl.toNat then false
  else if msg.header.tpn ≤ msg.header.psn then false
  else true

/-- What an intact message satisfies. -/
theorem TrftpMessage.intact_iff (msg : TrftpMessage) (len : ℕ) :
    msg.intact len = true ↔
      msg.checksum len = msg.header.crc32 ∧ msg.header.magic = trftpMagic ∧
        len = sizeofHeader + msg.header.pl.toNat ∧ msg.header.psn < msg.header.tpn := by
  simp only [intact, UInt32.lt_iff_toNat_lt, UInt32.le_iff_toNat_le]
  split_ifs <;> simp_all

/-- The checksum depends on the checked bytes outside the checksum field only. -/
theorem TrftpMessage.checksum_eq_of_take_eq {left right : TrftpMessage} {payloadLen : ℕ}
    (hheader : left.header = right.header)
    (hpayload : left.payload.bytes.take payloadLen = right.payload.bytes.take payloadLen) :
    left.checksum (sizeofHeader + payloadLen) = right.checksum (sizeofHeader + payloadLen) := by
  simp only [checksum, take_toBytes, withCrc32, hheader, hpayload]

end Trftp
