import Trftp.Common
import Mathlib.Tactic.SplitIfs

/-!
# Datagrams

`UdpSocket::Send` turns the first bytes of a message into a datagram for an address.
`UdpSocket::Receive` fills the first bytes of the caller's message from a datagram and
leaves the bytes behind as they were, so a received message shows more than was sent.
-/

namespace Trftp

/-- `sockaddr_in`. -/
structure SockAddr where
  sinAddr : UInt32
  sinPort : UInt16
  deriving DecidableEq, Repr

/-- A datagram in the network. -/
structure Packet where
  src : SockAddr
  dst : SockAddr
  bytes : List UInt8
  deriving DecidableEq

/-- `UdpSocket::Send`: the first `len` bytes of the message. -/
def Packet.ofMessage (src dst : SockAddr) (msg : TrftpMessage) (len : ℕ) : Packet :=
  ⟨src, dst, msg.toBytes.take len⟩

/-- No datagram of the protocol is longer than the buffer that it is received into. -/
theorem Packet.length_ofMessage_le (src dst : SockAddr) (msg : TrftpMessage) (len : ℕ) :
    (ofMessage src dst msg len).bytes.length ≤ sizeofMessage := by
  rw [ofMessage, List.length_take, TrftpMessage.length_toBytes]
  exact Nat.min_le_right _ _

/-- What `UdpSocket::Receive` hands to its caller: the message buffer, the number of bytes that
came from the datagram, and the sender's address. An empty datagram never gets this far. -/
structure Received where
  msg : TrftpMessage
  len : ℕ
  addr : SockAddr
  len_pos : 0 < len
  len_le : len ≤ sizeofMessage
  deriving DecidableEq

/-- The message was received from this datagram; the rest of the buffer is arbitrary. -/
def Received.From (r : Received) (p : Packet) : Prop :=
  r.msg.toBytes.take r.len = p.bytes ∧ r.addr = p.src

instance (r : Received) (p : Packet) : Decidable (r.From p) :=
  inferInstanceAs (Decidable (_ ∧ _))

/-- `payload_len` of the message handlers. -/
def Received.payloadLen (r : Received) : ℕ := r.len - sizeofHeader

/-- The kind of a received message. -/
def Received.id? (r : Received) : Option MessageId := r.msg.id?

/-- An intact message carries as many payload bytes as its header says. -/
theorem Received.len_of_intact {r : Received} (h : r.msg.intact r.len = true) :
    r.len = sizeofHeader + r.payloadLen := by
  have hlen := ((r.msg.intact_iff r.len).mp h).2.2.1
  unfold Received.payloadLen
  omega

/-- No payload is longer than the union that holds it. -/
theorem Received.payloadLen_le (r : Received) : r.payloadLen ≤ sizeofPayload := by
  have h := r.len_le
  unfold Received.payloadLen sizeofMessage at *
  omega

/-- A datagram that carries a header is received with the sender's header and payload. -/
theorem Received.From.eq_of_ofMessage {r : Received} {src dst : SockAddr} {msg : TrftpMessage}
    {payloadLen : ℕ} (h : r.From (Packet.ofMessage src dst msg (sizeofHeader + payloadLen)))
    (hlen : payloadLen ≤ sizeofPayload) :
    r.len = sizeofHeader + payloadLen ∧ r.payloadLen = payloadLen ∧ r.msg.header = msg.header ∧
      r.msg.payload.bytes.take payloadLen = msg.payload.bytes.take payloadLen := by
  have hbytes : r.msg.toBytes.take r.len = msg.toBytes.take (sizeofHeader + payloadLen) := h.1
  have hfits : sizeofHeader + payloadLen ≤ sizeofMessage := by
    unfold sizeofMessage
    omega
  have hr : r.len = sizeofHeader + payloadLen := by
    have hsize := congrArg List.length hbytes
    simpa only [List.length_take, TrftpMessage.length_toBytes, Nat.min_eq_left r.len_le,
      Nat.min_eq_left hfits] using hsize
  rw [hr] at hbytes
  refine ⟨hr, ?_, TrftpMessage.eq_of_take_eq hbytes⟩
  rw [Received.payloadLen, hr, Nat.add_sub_cancel_left]

/-- The message as it is received into a buffer that held the same bytes behind its end. -/
def Received.ofMessage (src : SockAddr) (msg : TrftpMessage) (payloadLen : ℕ)
    (hle : payloadLen ≤ sizeofPayload) : Received where
  msg := msg
  len := sizeofHeader + payloadLen
  addr := src
  len_pos := by
    unfold sizeofHeader
    omega
  len_le := Nat.add_le_add_left hle sizeofHeader

/-- Every message that was sent can be received. -/
theorem Received.ofMessage_from (src dst : SockAddr) (msg : TrftpMessage) {payloadLen : ℕ}
    (hle : payloadLen ≤ sizeofPayload) :
    (ofMessage src msg payloadLen hle).From (Packet.ofMessage src dst msg (sizeofHeader + payloadLen)) :=
  ⟨rfl, rfl⟩

/-! ## Datagrams of any content -/

/-- A datagram as the network hands it over, of any length. -/
structure Datagram where
  src : SockAddr
  bytes : List UInt8
  deriving DecidableEq

/-- `UdpSocket::Receive` when a datagram is there: it fills the front of the caller's buffer, cuts what
does not fit, and throws if the datagram is empty. -/
def udpReceive (buffer : TrftpMessage) (d : Datagram) : Option Received :=
  if h : d.bytes = [] then none
  else
    some
      { msg := .ofBytes (d.bytes.take sizeofMessage ++ buffer.toBytes.drop (d.bytes.take sizeofMessage).length)
          (by
            rw [List.length_append, List.length_drop, TrftpMessage.length_toBytes, List.length_take]
            omega)
        len := (d.bytes.take sizeofMessage).length
        addr := d.src
        len_pos := by
          have hpos := List.length_pos_iff.mpr h
          rw [List.length_take]
          exact Nat.lt_min.mpr ⟨by decide, hpos⟩
        len_le := List.length_take_le _ _ }

/-- `Receive` throws on an empty datagram and on no other. -/
theorem udpReceive_eq_none_iff (buffer : TrftpMessage) (d : Datagram) :
    udpReceive buffer d = none ↔ d.bytes = [] := by
  unfold udpReceive
  split_ifs with h <;> simp [h]

/-- What was received are the first bytes of the datagram. -/
theorem udpReceive_bytes {buffer : TrftpMessage} {d : Datagram} {r : Received}
    (h : udpReceive buffer d = some r) :
    r.addr = d.src ∧ r.len = min sizeofMessage d.bytes.length ∧
      r.msg.toBytes.take r.len = d.bytes.take sizeofMessage := by
  unfold udpReceive at h
  split_ifs at h with hempty
  cases h
  refine ⟨rfl, List.length_take, ?_⟩
  rw [TrftpMessage.toBytes_ofBytes, List.take_left]

/-- Whatever is received came with some datagram. -/
theorem udpReceive_take (r : Received) : udpReceive r.msg ⟨r.addr, r.msg.toBytes.take r.len⟩ = some r := by
  have hlength : (r.msg.toBytes.take r.len).length = r.len := by
    rw [List.length_take, TrftpMessage.length_toBytes, Nat.min_eq_left r.len_le]
  have hne : r.msg.toBytes.take r.len ≠ [] := by
    rw [← List.length_pos_iff, hlength]
    exact r.len_pos
  have hcut : (r.msg.toBytes.take r.len).take sizeofMessage = r.msg.toBytes.take r.len :=
    List.take_of_length_le (by rw [hlength]; exact r.len_le)
  obtain ⟨msg, len, addr, hpos, hle⟩ := r
  unfold udpReceive
  rw [dif_neg hne, Option.some.injEq, Received.mk.injEq]
  refine ⟨TrftpMessage.toBytes_injective ?_, ?_, rfl⟩
  · rw [TrftpMessage.toBytes_ofBytes, hcut, hlength, List.take_append_drop]
  · rw [hcut, hlength]

/-- A datagram that was sent is received as `Received.From` says. -/
theorem udpReceive_from {buffer : TrftpMessage} {p : Packet} {r : Received}
    (h : udpReceive buffer ⟨p.src, p.bytes⟩ = some r) (hle : p.bytes.length ≤ sizeofMessage) : r.From p := by
  obtain ⟨haddr, -, hbytes⟩ := udpReceive_bytes h
  exact ⟨hbytes.trans (List.take_of_length_le hle), haddr⟩

end Trftp
