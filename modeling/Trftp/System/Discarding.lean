import Trftp.System.Network
import Trftp.Messages

/-!
# What a discarded datagram leaves behind

Both handlers record the sender's address before they look at the message. Every check that
fails afterwards returns without another assignment, so the address of the peer is all that a
discarded datagram can change, and it changes it whenever it comes from somewhere else.
-/

namespace Trftp

/-- Why `OnReceive` of the server discards a message. -/
inductive DiscardReason where
  | integrity | phase | psn | payload | xid
  deriving DecidableEq, Repr

namespace ServerTransaction

variable {t : ServerTransaction} {v : ServerVars} {r : Received} {reason : DiscardReason}

/-- The exit at which `OnReceive` discards a message, in the order of its checks; `none` is a message
that passes them all. -/
def discard? (t : ServerTransaction) (v : ServerVars) (r : Received) : Option DiscardReason :=
  if !validateMessageIntegrity r.msg r.len then some .integrity
  else
    match r.id? with
    | some .chk =>
      if v.status ≠ .ntf then some .phase
      else if !validateChk r.payloadLen then some .payload
      else none
    | some .rdy =>
      if v.status ≠ .info then some .phase
      else if !validateRdy r.payloadLen then some .payload
      else none
    | some .done =>
      if v.status ≠ .data then some .phase
      else if v.packetSequenceNumber ≠ t.totalPacketNumber then some .psn
      else if !t.validateDone r.msg.done r.payloadLen then some .payload
      else none
    | some .cxl => if !validateCxl r.payloadLen then some .payload else none
    | some .rtx =>
      if v.status ≠ .data then some .phase
      else if !validateRtx r.msg.rtx r.payloadLen v.packetSequenceNumber then some .payload
      else none
    | _ => some .xid

/-- Behind a check that fails nothing is assigned. -/
theorem onReceive_of_discard (h : t.discard? v r = some reason) :
    t.onReceive v r = { v with clientAddress := r.addr } := by
  unfold discard? at h
  unfold onReceive
  by_cases hintact : (!validateMessageIntegrity r.msg r.len) = true
  · rw [if_pos hintact]
  · rw [if_neg hintact] at h ⊢
    cases hid : r.id? with
    | none => rfl
    | some id =>
      cases id <;> simp only [hid] at h ⊢
      all_goals split_ifs at h ⊢ <;> rfl

end ServerTransaction

/-- The client discards a message that fails the integrity check, and records its sender. -/
theorem ClientTransaction.onReceive_of_discard {c : ClientTransaction} {v : ClientVars} {r : Received}
    (ops : FileOps) (h : validateMessageIntegrity r.msg r.len = false) :
    c.onReceive v r ops = some (v.heardFrom r.addr, []) := by
  rw [ClientTransaction.onReceive, h]
  rfl

/-- What the server discards leaves it as it is if it comes from the recorded address. -/
theorem ServerTransaction.unchanged_iff {t : ServerTransaction} {v : ServerVars} {r : Received}
    {reason : DiscardReason} (h : t.discard? v r = some reason) : t.onReceive v r = v ↔ r.addr = v.clientAddress := by
  rw [ServerTransaction.onReceive_of_discard h]
  constructor
  · exact fun heq => congrArg ServerVars.clientAddress heq
  · exact fun haddr => by rw [haddr]

/-- So does what the client discards. -/
theorem ClientTransaction.unchanged_iff {c : ClientTransaction} {v : ClientVars} {r : Received} (ops : FileOps)
    (h : validateMessageIntegrity r.msg r.len = false) :
    c.onReceive v r ops = some (v, []) ↔ r.addr = v.serverAddress := by
  rw [ClientTransaction.onReceive_of_discard ops h, Option.some.injEq, Prod.mk.injEq, and_iff_left rfl]
  constructor
  · exact fun heq => congrArg ClientVars.serverAddress heq
  · intro haddr
    rw [ClientVars.heardFrom, haddr]

/-- A discarded datagram has no effect exactly when it comes from the peer.

Whatever the members of the transaction are: if `OnReceive` of the server discards a message at
any of its checks, then every member is as before if and only if the source address is the recorded
address of the peer, and so it is if `OnReceive` of the client discards one because of the integrity check. -/
theorem discarded_unchanged_iff (r : Received) :
    (∀ (t : ServerTransaction) (v : ServerVars) (reason : DiscardReason),
      t.discard? v r = some reason → (t.onReceive v r = v ↔ r.addr = v.clientAddress)) ∧
    ∀ (c : ClientTransaction) (v : ClientVars) (ops : FileOps),
      ClientTransaction.validateMessageIntegrity r.msg r.len = false →
      (c.onReceive v r ops = some (v, []) ↔ r.addr = v.serverAddress) :=
  ⟨fun _ _ _ h => ServerTransaction.unchanged_iff h, fun _ _ ops h => ClientTransaction.unchanged_iff ops h⟩

/-- A datagram of one byte, from another port of the client's host. -/
def strayDatagram : Received where
  msg := TrftpMessage.blank
  len := 1
  addr := ⟨1, 9⟩
  len_pos := Nat.one_pos
  len_le := by decide

/-- Without an effect only from the recorded address: a stray datagram of the client itself. -/
theorem discarded_unchanged_sample :
    oneByte.onReceive { oneByte.initialVars with clientAddress := ⟨1, 9⟩ } strayDatagram =
        { oneByte.initialVars with clientAddress := ⟨1, 9⟩ } ∧
      smallClient.onReceive { oneByte.toldVars with serverAddress := ⟨1, 9⟩ } strayDatagram roomyDisk =
        some ({ oneByte.toldVars with serverAddress := ⟨1, 9⟩ }, []) := by
  have hdiscard : oneByte.discard? { oneByte.initialVars with clientAddress := ⟨1, 9⟩ } strayDatagram =
      some .integrity := by decide +kernel
  have hinvalid : ClientTransaction.validateMessageIntegrity strayDatagram.msg strayDatagram.len = false := by
    decide +kernel
  obtain ⟨hserver, hclient⟩ := discarded_unchanged_iff strayDatagram
  exact ⟨(hserver _ _ _ hdiscard).mpr rfl, (hclient _ _ _ hinvalid).mpr rfl⟩

/-- A stray datagram redirects what the server sends next. -/
theorem discarded_redirects :
    ¬((∀ (t : ServerTransaction) (es : List ServerEvent) (s : ServerState) (r : Received)
        (reason : DiscardReason), (serverMachine t).Trace es s → t.discard? s.vars r = some reason →
        t.onReceive s.vars r = s.vars) ∧
      ∀ (c : ClientTransaction) (es : List ClientEvent) (s : ClientState) (r : Received) (ops : FileOps),
        (clientMachine c).Trace es s → s.vars.isActive = true →
        ClientTransaction.validateMessageIntegrity r.msg r.len = false →
        c.onReceive s.vars r ops = some (s.vars, [])) := by
  rintro ⟨hserver, -⟩
  have hsame := hserver oneByte [] oneByte.registeredState strayDatagram .integrity (.initial rfl)
    (by decide +kernel)
  have haddr : strayDatagram.addr = oneByte.addr := congrArg ServerVars.clientAddress hsame
  exact absurd haddr (by decide)

end Trftp
