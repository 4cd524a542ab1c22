import Trftp.Client.Alive

/-!
# Which bytes of the buffer matter

`Receive` fills the front of a message that lives on the stack, and the handlers are given the whole
message. Behind the integrity check nothing is read that did not come with the datagram, because an
intact message has the length that its header announces. One word is read in front of the check:
`Begin` looks at `header.xid` of whatever was received.
-/

namespace Trftp

namespace Received

variable {r r' : Received}

/-- One datagram, received into two buffers that may have held different bytes. -/
structure SameDatagram (r r' : Received) : Prop where
  len : r'.len = r.len
  addr : r'.addr = r.addr
  bytes : r'.msg.toBytes.take r.len = r.msg.toBytes.take r.len

/-- It is one datagram either way. -/
theorem SameDatagram.symm (h : r.SameDatagram r') : r'.SameDatagram r := by
  refine ⟨h.len.symm, h.addr.symm, ?_⟩
  rw [h.len]
  exact h.bytes.symm

/-- The payload has the same length. -/
theorem SameDatagram.payloadLen (h : r.SameDatagram r') : r'.payloadLen = r.payloadLen := by
  rw [Received.payloadLen, Received.payloadLen, h.len]

/-- The place of `xid` in the packed header. -/
def xidOffset : ℕ := 16

/-- Received bytes that reach behind the kind contain it. -/
theorem xid_bytes (r : Received) (hlen : xidOffset + 4 ≤ r.len) :
    ((r.msg.toBytes.take r.len).drop xidOffset).take 4 = wordBytes r.msg.header.xid := by
  have hsplit : r.msg.toBytes =
      (wordBytes r.msg.header.magic ++ (halfBytes r.msg.header.spid ++ (halfBytes r.msg.header.dpid ++
        (wordBytes r.msg.header.tpn ++ wordBytes r.msg.header.tpl)))) ++
      (wordBytes r.msg.header.xid ++ (wordBytes r.msg.header.crc32 ++ (wordBytes r.msg.header.psn ++
        (wordBytes r.msg.header.pl ++ r.msg.payload.bytes)))) := by
    simp [TrftpMessage.toBytes, TrftpHeader.toBytes]
  rw [List.drop_take, List.take_take, Nat.min_eq_left (by omega), hsplit, List.drop_left' (by simp [xidOffset]),
    List.take_left' (by simp)]

/-- From twenty bytes on, the kind comes with the datagram. -/
theorem SameDatagram.id? (h : r.SameDatagram r') (hlen : xidOffset + 4 ≤ r.len) : r'.id? = r.id? := by
  have hbytes := xid_bytes r hlen
  rw [← h.bytes, ← h.len, xid_bytes r' (by rwa [h.len])] at hbytes
  rw [Received.id?, Received.id?, TrftpMessage.id?, TrftpMessage.id?, wordBytes_injective hbytes]

/-- A datagram that is shorter than the header is never intact. -/
theorem not_intact_of_short (hlen : r.len < sizeofHeader) : r.msg.intact r.len = false := by
  apply TrftpMessage.not_intact_of_length
  omega

/-- What the datagram brings when it is as long as the header at least. -/
structure SameContent (r r' : Received) : Prop where
  addr : r'.addr = r.addr
  payloadLen : r'.payloadLen = r.payloadLen
  header : r'.msg.header = r.msg.header
  payload : r'.msg.payload.bytes.take r.payloadLen = r.msg.payload.bytes.take r.payloadLen

/-- A whole header comes with everything that the handlers read. -/
theorem SameDatagram.content (h : r.SameDatagram r') (hlen : sizeofHeader ≤ r.len) : r.SameContent r' := by
  have hsplit : r.len = sizeofHeader + r.payloadLen := by
    unfold Received.payloadLen
    omega
  have hbytes := h.bytes
  rw [hsplit] at hbytes
  obtain ⟨hheader, hpayload⟩ := TrftpMessage.eq_of_take_eq hbytes
  exact ⟨h.addr, h.payloadLen, hheader, hpayload⟩

/-- The integrity check does not depend on the rest of the buffer. -/
theorem SameDatagram.intact (h : r.SameDatagram r') : r'.msg.intact r'.len = r.msg.intact r.len := by
  by_cases hlen : r.len < sizeofHeader
  · rw [not_intact_of_short hlen, not_intact_of_short (by rwa [h.len])]
  · have hcontent := h.content (Nat.le_of_not_lt hlen)
    have hsplit : r.len = sizeofHeader + r.payloadLen := by
      unfold Received.payloadLen
      omega
    have hsum : r'.msg.checksum r.len = r.msg.checksum r.len := by
      rw [hsplit]
      exact TrftpMessage.checksum_eq_of_take_eq hcontent.header hcontent.payload
    rw [h.len, TrftpMessage.intact, TrftpMessage.intact, hsum, hcontent.header]

/-- The kind is a word of the header. -/
theorem SameContent.id? (h : r.SameContent r') : r'.id? = r.id? := by
  rw [Received.id?, Received.id?, TrftpMessage.id?, TrftpMessage.id?, h.header]

/-- A word within the payload comes with the datagram. -/
theorem SameContent.word (h : r.SameContent r') {index : ℕ} (hindex : 4 * index + 4 ≤ r.payloadLen) :
    r'.msg.payload.word index = r.msg.payload.word index :=
  Payload.word_eq_of_take_eq h.payload hindex

/-- A payload of one word. -/
theorem SameContent.ntf (h : r.SameContent r') (hlen : r.payloadLen = 4) : r'.msg.ntf = r.msg.ntf := by
  rw [TrftpMessage.ntf, TrftpMessage.ntf, h.word (by omega)]

@[inherit_doc SameContent.ntf]
theorem SameContent.chk (h : r.SameContent r') (hlen : r.payloadLen = 4) : r'.msg.chk = r.msg.chk := by
  rw [TrftpMessage.chk, TrftpMessage.chk, h.word (by omega)]

@[inherit_doc SameContent.ntf]
theorem SameContent.rtx (h : r.SameContent r') (hlen : r.payloadLen = 4) : r'.msg.rtx = r.msg.rtx := by
  rw [TrftpMessage.rtx, TrftpMessage.rtx, h.word (by omega)]

/-- A payload of three words. -/
theorem SameContent.info (h : r.SameContent r') (hlen : r.payloadLen = 12) : r'.msg.info = r.msg.info := by
  rw [TrftpMessage.info, TrftpMessage.info, h.word (by omega), h.word (by omega), h.word (by omega)]

@[inherit_doc SameContent.info]
theorem SameContent.rdy (h : r.SameContent r') (hlen : r.payloadLen = 12) : r'.msg.rdy = r.msg.rdy := by
  rw [TrftpMessage.rdy, TrftpMessage.rdy, h.word (by omega), h.word (by omega), h.word (by omega)]

@[inherit_doc SameContent.info]
theorem SameContent.done (h : r.SameContent r') (hlen : r.payloadLen = 12) : r'.msg.done = r.msg.done := by
  rw [TrftpMessage.done, TrftpMessage.done, h.word (by omega), h.word (by omega), h.word (by omega)]

end Received

/-! ## The client -/

namespace ClientTransaction

variable {c : ClientTransaction} {v : ClientVars} {r r' : Received} {ops : FileOps}

/-- The branch for NTF reads the version of a payload of one word. -/
theorem onNtf_sameContent (h : r.SameContent r') : c.onNtf v r' = c.onNtf v r := by
  unfold onNtf
  rw [h.payloadLen]
  by_cases hlen : r.payloadLen = 4
  · rw [h.ntf hlen]
  · rw [if_pos hlen, if_pos hlen]

/-- The branch for INFO reads the words of a payload of three. -/
theorem onInfo_sameContent (h : r.SameContent r') : c.onInfo v r' ops = c.onInfo v r ops := by
  unfold onInfo informedVars
  rw [h.payloadLen]
  by_cases hlen : r.payloadLen = 12
  · rw [h.info hlen]
  · rw [if_pos hlen, if_pos hlen]

/-- The branch for DATA reads the header and as much of the payload as was received. -/
theorem onData_sameContent (h : r.SameContent r') : c.onData v r' ops = c.onData v r ops := by
  unfold onData
  rw [h.payloadLen, h.header, h.payload]

/-- `OnReceive` depends on the received bytes only. -/
theorem onReceive_sameDatagram (h : r.SameDatagram r') : c.onReceive v r' ops = c.onReceive v r ops := by
  unfold onReceive validateMessageIntegrity
  rw [h.intact, h.addr]
  by_cases hintact : r.msg.intact r.len = true
  · have hlen : sizeofHeader ≤ r.len := by
      rw [Received.len_of_intact hintact]
      exact Nat.le_add_right _ _
    have hcontent := h.content hlen
    have hfin : c.onFin (v.heardFrom r.addr) r' = c.onFin (v.heardFrom r.addr) r := by
      unfold onFin
      rw [hcontent.payloadLen]
    rw [hcontent.id?, onNtf_sameContent hcontent, onInfo_sameContent hcontent, onData_sameContent hcontent,
      hfin]
  · rw [Bool.not_eq_true] at hintact
    rw [hintact]
    rfl

/-- Behind its look at the kind, `Begin` depends on the received bytes only. -/
theorem begin_sameDatagram (h : r.SameDatagram r') (hid : r.id? = some .ntf ↔ r'.id? = some .ntf) :
    c.begin v r' ops = c.begin v r ops := by
  unfold begin
  by_cases hntf : r.id? = some .ntf
  · rw [if_pos hntf, if_pos (hid.mp hntf), onReceive_sameDatagram h]
  · rw [if_neg hntf, if_neg fun hntf' => hntf (hid.mpr hntf')]

/-- A datagram that is shorter than the header is discarded. -/
theorem onReceive_short (hlen : r.len < sizeofHeader) :
    c.onReceive v r ops = some (v.heardFrom r.addr, []) := by
  unfold onReceive validateMessageIntegrity
  rw [Received.not_intact_of_short hlen]
  rfl

/-- If the kind in the buffer says NTF, `Begin` leaves the transaction alive behind a datagram that is
not intact. -/
theorem begin_of_not_intact (c : ClientTransaction) (v : ClientVars) (ops : FileOps)
    (hid : r.id? = some .ntf) (hintact : r.msg.intact r.len = false) :
    ∃ w, c.begin v r ops = some (w, [.began]) ∧ w.isActive = true := by
  have hactive : (reset { v with isActive := true } ops).isActive = true := by
    rw [reset, ClientVars.closeStream_eq]
  refine ⟨(reset { v with isActive := true } ops).heardFrom r.addr, ?_, hactive⟩
  unfold begin onReceive validateMessageIntegrity
  rw [if_pos hid, hintact]
  rfl

end ClientTransaction

/-! ## The server -/

namespace ServerTransaction

variable {t : ServerTransaction} {w : ServerVars} {r r' : Received}

/-- `OnReceive` depends on the received bytes only. -/
theorem onReceive_sameDatagram (h : r.SameDatagram r') : t.onReceive w r' = t.onReceive w r := by
  unfold onReceive validateMessageIntegrity
  rw [h.intact, h.addr]
  by_cases hintact : r.msg.intact r.len = true
  · have hlen : sizeofHeader ≤ r.len := by
      rw [Received.len_of_intact hintact]
      exact Nat.le_add_right _ _
    have hcontent := h.content hlen
    rw [hcontent.id?, hcontent.payloadLen]
    -- a payload of another length is not looked at
    by_cases hword : r.payloadLen = 4
    · rw [hcontent.chk hword, hcontent.rtx hword]
      simp only [validateRdy, validateDone, hword, show ¬(4 = 12) by decide, decide_false, ne_eq,
        not_false_eq_true, if_true, Bool.not_false]
    · by_cases hwords : r.payloadLen = 12
      · rw [hcontent.rdy hwords, hcontent.done hwords]
        simp only [validateChk, validateRtx, hwords, show ¬(12 = 4) by decide, decide_false, ne_eq,
          not_false_eq_true, if_true, Bool.not_false]
      · simp only [validateChk, validateRdy, validateDone, validateRtx, hword, hwords, decide_false, ne_eq,
          not_false_eq_true, if_true, Bool.not_false]
  · rw [Bool.not_eq_true] at hintact
    rw [hintact]
    rfl

/-- A datagram that is shorter than the header is discarded. -/
theorem onReceive_short (hlen : r.len < sizeofHeader) :
    t.onReceive w r = { w with clientAddress := r.addr } := by
  unfold onReceive validateMessageIntegrity
  rw [Received.not_intact_of_short hlen]
  rfl

end ServerTransaction

/-! ## Two runs over one datagram -/

/-- Of a datagram of this length only the received bytes matter: whatever stood in the buffer before, the
handlers do the same, and they act upon no field that the datagram does not reach behind. -/
structure OnlyBytesMatter (c : ClientTransaction) (t : ServerTransaction) (v : ClientVars) (w : ServerVars)
    (ops : FileOps) (len : ℕ) : Prop where
  /-- `Client::HandleIncomingMessages`, with `Begin` -/
  main : ∀ {r r' : Received}, r.len = len → r.SameDatagram r' →
    (⟨v, false⟩ : ClientState).step c (.main r' ops) = (⟨v, false⟩ : ClientState).step c (.main r ops)
  /-- `ClientTransaction::OnReceive` -/
  client : ∀ {r r' : Received}, r.len = len → r.SameDatagram r' → c.onReceive v r' ops = c.onReceive v r ops
  /-- `ServerTransaction::OnReceive` -/
  server : ∀ {r r' : Received}, r.len = len → r.SameDatagram r' → t.onReceive w r' = t.onReceive w r
  /-- `Begin` does not go by a kind that has not come -/
  kind : ∀ r : Received, r.len = len → len < Received.xidOffset + 4 →
    (⟨v, false⟩ : ClientState).step c (.main r ops) = some (⟨v, false⟩, [])
  /-- `OnReceive` goes by no field of a header that has not come, and computes no negative length -/
  short : ∀ r : Received, r.len = len → len < sizeofHeader →
    c.onReceive v r ops = some (v.heardFrom r.addr, []) ∧ t.onReceive w r = { w with clientAddress := r.addr }

namespace ClientState

variable {v : ClientVars} {r r' : Received}

/-- A client that is alive drops whatever comes to its main socket. -/
theorem main_alive (c : ClientTransaction) (ops : FileOps) (r : Received) (halive : v.isActive = true) :
    (⟨v, false⟩ : ClientState).step c (.main r ops) = some (⟨v, false⟩, []) := by
  simp [step, halive]

/-- The main loop does the same for buffers that agree whether the kind says NTF. -/
theorem main_same (c : ClientTransaction) (v : ClientVars) (ops : FileOps) (h : r.SameDatagram r')
    (hid : r.id? = some .ntf ↔ r'.id? = some .ntf) :
    (⟨v, false⟩ : ClientState).step c (.main r' ops) = (⟨v, false⟩ : ClientState).step c (.main r ops) := by
  unfold step
  simp only [ClientTransaction.begin_sameDatagram h hid]

/-- If the kind in the buffer says NTF, a short datagram begins a transaction. -/
theorem main_short_ntf (c : ClientTransaction) (ops : FileOps) (hdead : v.isActive = false)
    (hlen : r.len < sizeofHeader) (hid : r.id? = some .ntf) :
    ∃ w, (⟨v, false⟩ : ClientState).step c (.main r ops) = some (⟨w, false⟩, [.began]) ∧ w.isActive = true := by
  obtain ⟨w, hbegin, hactive⟩ :=
    ClientTransaction.begin_of_not_intact c v ops hid (Received.not_intact_of_short hlen)
  exact ⟨w, by simp [step, apply, hdead, hbegin], hactive⟩

/-- If it says something else, the client stays as it is. -/
theorem main_not_ntf (c : ClientTransaction) (ops : FileOps) (hdead : v.isActive = false)
    (hid : r.id? ≠ some .ntf) :
    (⟨v, false⟩ : ClientState).step c (.main r ops) = some (⟨{ v with isActive := false }, false⟩, []) := by
  simp [step, apply, hdead, ClientTransaction.begin, hid]

end ClientState

/-- An NTF in the buffer, behind a datagram of any length. -/
def ntfInBuffer (len : ℕ) (hpos : 0 < len) (hle : len ≤ sizeofMessage) : Received :=
  ⟨oneByte.message .ntf, len, oneByte.udpSocket, hpos, hle⟩

/-- Only received bytes matter, except that `Begin` looks at the kind in front of the check.

It is so for a client whose transaction is alive, and for a datagram that reaches behind the kind. A client
that is not alive goes by what the buffer has it for the kind of a shorter one. -/
theorem onlyBytesMatter_iff (c : ClientTransaction) (t : ServerTransaction) (v : ClientVars) (w : ServerVars)
    (ops : FileOps) {len : ℕ} (hpos : 0 < len) :
    OnlyBytesMatter c t v w ops len ↔ v.isActive = true ∨ Received.xidOffset + 4 ≤ len := by
  constructor
  · intro hsame
    by_contra hcond
    rw [not_or, Bool.not_eq_true, Nat.not_le] at hcond
    obtain ⟨hdead, hlen⟩ := hcond
    have hheader : len < sizeofHeader := hlen.trans (by decide)
    have hle : len ≤ sizeofMessage := hheader.le.trans (by decide)
    have hid : (ntfInBuffer len hpos hle).id? = some .ntf := MessageId.ofXid_toXid .ntf
    obtain ⟨w', hstep, -⟩ := ClientState.main_short_ntf (r := ntfInBuffer len hpos hle) c ops hdead hheader hid
    rw [hsame.kind _ rfl hlen] at hstep
    simp at hstep
  · intro hcond
    refine ⟨fun {r r'} hlen h => ?_, fun _ h => ClientTransaction.onReceive_sameDatagram h,
      fun _ h => ServerTransaction.onReceive_sameDatagram h, fun r _ hshort => ?_, fun r hlen hshort => ?_⟩
    · rcases hcond with halive | hreach
      · rw [ClientState.main_alive c ops r halive, ClientState.main_alive c ops r' halive]
      · exact ClientState.main_same c v ops h (by rw [h.id? (hlen ▸ hreach)])
    · exact ClientState.main_alive c ops r (hcond.resolve_right (Nat.not_le.mpr hshort))
    · subst hlen
      exact ⟨ClientTransaction.onReceive_short hshort, ServerTransaction.onReceive_short hshort⟩

/-- With a whole NTF the rest of the buffer does not matter, also to a client that is not alive. -/
theorem onlyBytesMatter_ntf :
    OnlyBytesMatter smallClient oneByte (ClientTransaction.initialVars none) oneByte.initialVars roomyDisk
      (oneByte.received .ntf).len := by
  apply (onlyBytesMatter_iff _ _ _ _ _ (by decide)).mpr
  right
  decide

/-- What an INFO has left in the buffer, behind one byte of a datagram. -/
def staleInfo : Received :=
  ⟨oneByte.message .info, 1, oneByte.udpSocket, Nat.zero_lt_one, Nat.le_of_ble_eq_true rfl⟩

/-- It is the first byte of the magic code, as in front of what an NTF has left. -/
theorem staleInfo_sameDatagram : (ntfInBuffer 1 Nat.zero_lt_one (by decide)).SameDatagram staleInfo := by
  refine ⟨rfl, rfl, ?_⟩
  decide +kernel

/-- A datagram of one byte begins a transaction or does not, as the buffer has it from before. -/
theorem stale_bytes_matter :
    ¬∀ (c : ClientTransaction) (t : ServerTransaction) (v : ClientVars) (w : ServerVars) (ops : FileOps) (len : ℕ),
      0 < len → len ≤ sizeofMessage → OnlyBytesMatter c t v w ops len := by
  intro hall
  have hsame := (hall smallClient oneByte (ClientTransaction.initialVars none) oneByte.initialVars roomyDisk 1
    (by decide) (by decide)).main rfl staleInfo_sameDatagram
  obtain ⟨w, hntf, hactive⟩ := ClientState.main_short_ntf (v := ClientTransaction.initialVars none)
    (r := ntfInBuffer 1 Nat.zero_lt_one (by decide)) smallClient roomyDisk rfl (by decide)
    (MessageId.ofXid_toXid .ntf)
  have hinfo : staleInfo.id? ≠ some .ntf := by
    rw [show staleInfo.id? = some .info from MessageId.ofXid_toXid .info]
    decide
  rw [hntf, ClientState.main_not_ntf smallClient roomyDisk rfl hinfo] at hsame
  simp at hsame

end Trftp
