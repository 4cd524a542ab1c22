import Trftp.Client.Transaction
import Trftp.Lib.EventMachine
import Mathlib.Tactic.SplitIfs

/-!
# The client as a machine that is sent datagrams

Two loops feed the transaction: `Client::HandleIncomingMessages` on the main socket, which
calls `Begin` while the transaction is not alive, and the receive loop of the transaction on
its own socket. They are taken to handle one datagram at a time. The receive loop ends as
soon as the transaction is not alive, so it is running when it is alive and has a thread.

Each handler has a lemma that lists what it can do; later proofs split on that list and
never look into the handler.
-/

namespace Trftp

open Lib (EventMachine)

/-- The members of the transaction, and whether an exception has ended the process. -/
structure ClientState where
  vars : ClientVars
  terminated : Bool
  deriving DecidableEq

/-- What the client is given next. -/
inductive ClientAction where
  /-- a datagram at the main socket -/
  | main (r : Received) (ops : FileOps)
  /-- a datagram at the transaction's socket -/
  | loop (r : Received) (ops : FileOps)
  /-- the receive loop times out -/
  | timeout

namespace ClientState

variable (c : ClientTransaction) (s : ClientState)

/-- Carry out the result of a function of the transaction. -/
def apply : Option (ClientVars × List ClientEvent) → ClientState × List ClientEvent
  | some (vars, e) => ({ s with vars := vars }, e)
  | none => ({ s with terminated := true }, [.terminated])

/-- The receive loop is between two datagrams. -/
def receiving : Bool := s.vars.joinable && s.vars.isActive

/-- One datagram, or one timeout. -/
def step : ClientAction → Option (ClientState × List ClientEvent)
  | .main r ops =>
    if s.terminated then none
    else if s.vars.isActive then some (s, [])
    else some (s.apply (c.begin s.vars r ops))
  | .loop r ops =>
    if s.terminated ∨ ¬s.receiving then none else some (s.apply (c.onReceive s.vars r ops))
  | .timeout =>
    if s.terminated ∨ ¬s.receiving then none else some (s.apply (some (c.sendMessage s.vars .cxl)))

end ClientState

/-- The client's side, for datagrams of any content and order and for any answers of the file system, each datagram
handled to its end before the next one is taken at either socket. -/
def clientMachine (c : ClientTransaction) : EventMachine ClientState ClientAction ClientEvent where
  initial s := ∃ tempFile, s = ⟨ClientTransaction.initialVars tempFile, false⟩
  step s a := s.step c a

namespace ClientVars

@[simp] theorem heardFrom_status (v : ClientVars) (addr : SockAddr) :
    (v.heardFrom addr).status = v.status := rfl

@[simp] theorem heardFrom_psn (v : ClientVars) (addr : SockAddr) :
    (v.heardFrom addr).packetSequenceNumber = v.packetSequenceNumber := rfl

@[simp] theorem heardFrom_total (v : ClientVars) (addr : SockAddr) :
    (v.heardFrom addr).totalPacketNumber = v.totalPacketNumber := rfl

/-- Opening the stream changes the stream and the file. -/
theorem openStream_eq (v : ClientVars) (ops : FileOps) :
    v.openStream ops =
      { v with newFileStream := (v.openStream ops).newFileStream, tempFile := (v.openStream ops).tempFile } := by
  unfold openStream
  split_ifs <;> rfl

/-- A stream that was closed and is open afterwards is empty and has not failed. -/
theorem openStream_stream {v : ClientVars} {ops : FileOps} (hclosed : v.newFileStream.isOpen = false)
    (hopen : (v.openStream ops).newFileStream.isOpen = true) :
    (v.openStream ops).newFileStream = ⟨true, false, []⟩ := by
  unfold openStream at hopen ⊢
  split_ifs at hopen ⊢
  all_goals simp_all

/-- Writing changes the stream only. -/
theorem writeStream_eq (v : ClientVars) (ops : FileOps) (data : List UInt8) :
    v.writeStream ops data = { v with newFileStream := (v.writeStream ops data).newFileStream } := by
  unfold writeStream
  split_ifs <;> rfl

/-- A write that did not fail appended the bytes to an open stream. -/
theorem writeStream_stream {v : ClientVars} {ops : FileOps} {data : List UInt8}
    (h : (v.writeStream ops data).newFileStream.failed = false) :
    (v.writeStream ops data).newFileStream = ⟨true, false, v.newFileStream.written ++ data⟩ := by
  unfold writeStream at h ⊢
  split_ifs at h ⊢
  all_goals simp_all

/-- Closing changes the stream and the file. -/
theorem closeStream_eq (v : ClientVars) (ops : FileOps) :
    v.closeStream ops =
      { v with
        newFileStream := (v.closeStream ops).newFileStream, tempFile := (v.closeStream ops).tempFile } := by
  unfold closeStream
  split_ifs <;> rfl

/-- No stream is open after closing. -/
theorem closeStream_isOpen (v : ClientVars) (ops : FileOps) :
    (v.closeStream ops).newFileStream.isOpen = false := by
  unfold closeStream
  split_ifs with h
  · rfl
  · simpa using h

/-- Closing an open stream puts the first bytes of what was written into the file. -/
theorem closeStream_tempFile {v : ClientVars} {ops : FileOps} (h : v.newFileStream.isOpen = true) :
    (v.closeStream ops).tempFile = some (v.newFileStream.written.take ops.flushed) := by
  rw [closeStream, if_pos h]

end ClientVars

namespace ClientTransaction

variable {c : ClientTransaction} {v w : ClientVars} {r : Received} {ops : FileOps} {e : List ClientEvent}

@[simp] theorem sendMessage_cxl (c : ClientTransaction) (v : ClientVars) :
    c.sendMessage v .cxl = ({ v with status := .cxl, isActive := false }, [.sent .cxl (c.packet v .cxl)]) :=
  rfl

@[simp] theorem sendMessage_rtx (c : ClientTransaction) (v : ClientVars) :
    c.sendMessage v .rtx = (v, [.sent .rtx (c.packet v .rtx)]) := rfl

/-- The transaction is cancelled: the status says so, it is not alive, and the CXL message is the
last event, possibly behind writes. -/
structure Cancelled (c : ClientTransaction) (w : ClientVars) (e : List ClientEvent) : Prop where
  status : w.status = .cxl
  dead : w.isActive = false
  events : ∃ writes v, e = List.map .wrote writes ++ [.sent .cxl (c.packet v .cxl)]

/-- Sending CXL cancels. -/
theorem cancelled_sendMessage (c : ClientTransaction) (v : ClientVars) :
    Cancelled c (c.sendMessage v .cxl).1 (c.sendMessage v .cxl).2 :=
  ⟨rfl, rfl, [], v, rfl⟩

/-- A write may precede. -/
theorem Cancelled.wrote (h : Cancelled c w e) (data : List UInt8) : Cancelled c w (.wrote data :: e) :=
  let ⟨writes, v, he⟩ := h.events
  ⟨h.status, h.dead, data :: writes, v, by rw [he]; rfl⟩

/-- An NTF that the branch accepts starts the transaction. -/
structure Notified (c : ClientTransaction) (v w : ClientVars) (r : Received) (e : List ClientEvent) :
    Prop where
  fresh : v.joinable = false
  length : r.payloadLen = 4
  vars : w = { v with status := .chk, newFileVersion := r.msg.ntf.newFileVersion, joinable := true }
  events : e = [.notified r.msg.ntf.newFileVersion, .sent .chk (c.packet w .chk)]

/-- The branch for NTF: the message has the wrong length, or it is accepted. -/
theorem onNtf_cases (h : c.onNtf v r = some (w, e)) : Cancelled c w e ∨ Notified c v w r e := by
  unfold onNtf at h
  split_ifs at h with hlen hjoin
  · cases h
    exact Or.inl (cancelled_sendMessage c v)
  · cases h
    exact Or.inr ⟨Bool.not_eq_true _ ▸ hjoin, not_not.mp hlen, rfl, rfl⟩

/-- An INFO that the branch accepts: it fits the NTF, and the file is open. -/
structure Informed (c : ClientTransaction) (v w : ClientVars) (r : Received) (ops : FileOps)
    (e : List ClientEvent) : Prop where
  chk : v.status = .chk
  length : r.payloadLen = 12
  version : v.newFileVersion = r.msg.info.newFileVersion
  size : r.msg.info.fileLength ≠ 0
  opened : w.newFileStream.isOpen = true
  vars : w = { (informedVars v r.msg).openStream ops with status := .rdy }
  events : e = [.informed v.newFileVersion r.msg.info.fileLength r.msg.info.crc32,
    .sent .rdy (c.packet w .rdy)]

/-- The branch for INFO cancels or accepts. -/
theorem onInfo_cases (h : c.onInfo v r ops = (w, e)) : Cancelled c w e ∨ Informed c v w r ops e := by
  have hcancel : ∀ v', c.sendMessage v' .cxl = (w, e) → Cancelled c w e := by
    intro v' h'
    cases h'
    exact cancelled_sendMessage c v'
  unfold onInfo sendReady at h
  split_ifs at h with hstatus hlen hversion hsize hopen
  case neg =>
    have hv := ClientVars.openStream_eq (informedVars v r.msg) ops
    cases h
    refine Or.inr ⟨not_not.mp hstatus, not_not.mp hlen, not_not.mp hversion, hsize, ?_, rfl, ?_⟩
    · simpa [sendMessage, assignStatus] using hopen
    · rw [hv]
      rfl
  all_goals exact Or.inl (hcancel _ h)

/-- The file behind the last packet has the announced length and checksum. -/
structure Completed (c : ClientTransaction) (v w : ClientVars) (ops : FileOps) (e : List ClientEvent) :
    Prop where
  file : ∃ file, (v.closeStream ops).tempFile = some file ∧ file.length = v.newFileSize.toNat ∧
    calculateFileCrc32 (some file) = v.newFileCrc32 ∧
    e = [.verified file, .sent .done (c.packet w .done)]
  vars : w = { v.closeStream ops with status := .done }

/-- The end of the branch for DATA cancels or completes. -/
theorem sendDone_cases (h : c.sendDone (v.closeStream ops) = some (w, e)) :
    Cancelled c w e ∨ Completed c v w ops e := by
  have hv := ClientVars.closeStream_eq v ops
  unfold sendDone at h
  split at h
  · contradiction
  · rename_i file hfile
    split_ifs at h with hsize hcrc <;> cases h
    · exact Or.inl (cancelled_sendMessage c _)
    · exact Or.inl (cancelled_sendMessage c _)
    · rw [hv] at hsize hcrc
      exact Or.inr ⟨⟨file, hfile, (not_not.mp hsize).symm, (not_not.mp hcrc).symm, rfl⟩, rfl⟩

/-- DATA that is written: the expected packet with the expected length. -/
structure Expected (v : ClientVars) (r : Received) : Prop where
  status : v.status = dataStatus r.msg.header
  length : r.payloadLen = dataLen v r.msg.header
  psn : r.msg.header.psn = v.packetSequenceNumber

/-- The members behind a successful write. -/
def writtenVars (v : ClientVars) (r : Received) : ClientVars :=
  countedVars { v with
    newFileStream := ⟨true, false, v.newFileStream.written ++ r.msg.payload.bytes.take r.payloadLen⟩ }

/-- The branch for DATA cancels, asks for the expected packet, takes a packet that is not the last
one, or takes the last one, behind which it completes. -/
theorem onData_cases (h : c.onData v r ops = some (w, e)) :
    Cancelled c w e ∨
    (w = v ∧ e = [.sent .rtx (c.packet v .rtx)] ∧ v.status = dataStatus r.msg.header) ∨
    (Expected v r ∧ v.packetSequenceNumber + 1 ≠ v.totalPacketNumber ∧
      w = writtenVars v r ∧ e = [.wrote (r.msg.payload.bytes.take r.payloadLen)]) ∨
    (Expected v r ∧ v.packetSequenceNumber + 1 = v.totalPacketNumber ∧
      ∃ e', e = .wrote (r.msg.payload.bytes.take r.payloadLen) :: e' ∧
        Completed c (writtenVars v r) w ops e') := by
  unfold onData at h
  split_ifs at h with hstatus hlen hpsn
  · cases h
    exact Or.inl (cancelled_sendMessage c v)
  · cases h
    exact Or.inl (cancelled_sendMessage c v)
  · cases h
    exact Or.inr (Or.inl ⟨rfl, rfl, not_not.mp hstatus⟩)
  · obtain ⟨⟨w', e'⟩, hafter, heq⟩ := Option.map_eq_some_iff.mp h
    simp only [Prod.mk.injEq] at heq
    obtain ⟨rfl, rfl⟩ := heq
    have hexpected : Expected v r := ⟨not_not.mp hstatus, not_not.mp hlen, not_not.mp hpsn⟩
    have hwrite := ClientVars.writeStream_eq v ops (r.msg.payload.bytes.take r.payloadLen)
    unfold afterWrite at hafter
    split_ifs at hafter with hfailed hlast
    · cases hafter
      exact Or.inl ((cancelled_sendMessage c _).wrote _)
    all_goals
      rw [Bool.not_eq_true] at hfailed
      rw [ClientVars.writeStream_stream hfailed] at hwrite
      rw [hwrite] at hlast hafter
    · rcases sendDone_cases hafter with hcancel | hdone
      · exact Or.inl (hcancel.wrote _)
      · exact Or.inr (Or.inr (Or.inr ⟨hexpected, hlast, e', rfl, hdone⟩))
    · cases hafter
      exact Or.inr (Or.inr (Or.inl ⟨hexpected, hlast, rfl, rfl⟩))

/-- FIN that the branch accepts ends the transaction. -/
structure Finished (c : ClientTransaction) (v w : ClientVars) (r : Received) (e : List ClientEvent) :
    Prop where
  done : v.status = .done
  length : r.payloadLen = 0
  vars : w = { v with status := .fin, isActive := false }
  events : e = if c.hasClient then [.fileReceived v.tempFile v.newFileVersion] else []

/-- The branch for FIN cancels or ends the transaction. -/
theorem onFin_cases (h : c.onFin v r = (w, e)) : Cancelled c w e ∨ Finished c v w r e := by
  unfold onFin at h
  split_ifs at h with hstatus hlen hclient <;> cases h
  · exact Or.inl (cancelled_sendMessage c v)
  · exact Or.inl (cancelled_sendMessage c v)
  · exact Or.inr ⟨not_not.mp hstatus, not_not.mp hlen, rfl, by rw [if_pos hclient]⟩
  · exact Or.inr ⟨not_not.mp hstatus, not_not.mp hlen, rfl, by rw [if_neg hclient]⟩

/-- The branch for CXL cancels. -/
theorem onCxl_cancelled (h : c.onCxl v ops = (w, e)) : Cancelled c w e := by
  unfold onCxl at h
  split_ifs at h <;> cases h <;> exact cancelled_sendMessage c _

/-- What `OnReceive` can do to the members, once the sender's address is recorded. -/
inductive Reaction (c : ClientTransaction) (v : ClientVars) (r : Received) (ops : FileOps) :
    ClientVars → List ClientEvent → Prop
  /-- the message is malformed, or of a kind that is meant for the server -/
  | discarded : Reaction c v r ops v []
  | cancelled {w : ClientVars} {e : List ClientEvent} (h : Cancelled c w e) : Reaction c v r ops w e
  | notified {w : ClientVars} {e : List ClientEvent} (hid : r.id? = some .ntf)
      (h : Notified c v w r e) : Reaction c v r ops w e
  | informed {w : ClientVars} {e : List ClientEvent} (hid : r.id? = some .info)
      (h : Informed c v w r ops e) : Reaction c v r ops w e
  /-- DATA with another number is answered by a request for the expected packet -/
  | requested (hid : r.id? = some .data) (hstatus : v.status = dataStatus r.msg.header) :
      Reaction c v r ops v [.sent .rtx (c.packet v .rtx)]
  | written (hid : r.id? = some .data) (h : Expected v r)
      (hmore : v.packetSequenceNumber + 1 ≠ v.totalPacketNumber) :
      Reaction c v r ops (writtenVars v r) [.wrote (r.msg.payload.bytes.take r.payloadLen)]
  | completed {w : ClientVars} {e : List ClientEvent} (hid : r.id? = some .data) (h : Expected v r)
      (hlast : v.packetSequenceNumber + 1 = v.totalPacketNumber)
      (hdone : Completed c (writtenVars v r) w ops e) :
      Reaction c v r ops w (.wrote (r.msg.payload.bytes.take r.payloadLen) :: e)
  | finished {w : ClientVars} {e : List ClientEvent} (hid : r.id? = some .fin)
      (h : Finished c v w r e) : Reaction c v r ops w e

/-- `OnReceive` does one of these, and reacts only to an intact message. -/
theorem onReceive_reaction (h : c.onReceive v r ops = some (w, e)) :
    Reaction c (v.heardFrom r.addr) r ops w e ∧ (r.msg.intact r.len = true ∨ e = []) := by
  unfold onReceive validateMessageIntegrity at h
  split_ifs at h with hbad
  · cases h
    exact ⟨.discarded, Or.inr rfl⟩
  · have hintact : r.msg.intact r.len = true := by simpa using hbad
    refine ⟨?_, Or.inl hintact⟩
    split at h
    case h_1 hid =>
      rcases onNtf_cases h with h | h
      · exact .cancelled h
      · exact .notified hid h
    case h_2 hid =>
      rcases onInfo_cases (Option.some.inj h) with h | h
      · exact .cancelled h
      · exact .informed hid h
    case h_3 hid =>
      rcases onData_cases h with hcancel | ⟨rfl, rfl, hstatus⟩ | ⟨hexpected, hmore, rfl, rfl⟩ |
        ⟨hexpected, hlast, e', rfl, hdone⟩
      · exact .cancelled hcancel
      · exact .requested hid hstatus
      · exact .written hid hexpected hmore
      · exact .completed hid hexpected hlast hdone
    case h_4 hid =>
      rcases onFin_cases (Option.some.inj h) with h | h
      · exact .cancelled h
      · exact .finished hid h
    case h_5 =>
      exact .cancelled (onCxl_cancelled (Option.some.inj h))
    case h_6 =>
      cases h
      exact .discarded

end ClientTransaction

/-- What one step of the client can be. -/
inductive ClientStep (c : ClientTransaction) (s : ClientState) :
    ClientAction → ClientState → List ClientEvent → Prop
  /-- the main loop drops a datagram: the transaction is alive, or the message is not an NTF -/
  | dropped {r : Received} {ops : FileOps} : ClientStep c s (.main r ops) s []
  | began {r : Received} {ops : FileOps} {w : ClientVars} {e : List ClientEvent}
      (hdead : s.vars.isActive = false)
      (h : ClientTransaction.Reaction c
        ((ClientTransaction.reset { s.vars with isActive := true } ops).heardFrom r.addr) r ops w e)
      (hintact : r.msg.intact r.len = true ∨ e = []) :
      ClientStep c s (.main r ops) ⟨w, false⟩ (.began :: e)
  | received {r : Received} {ops : FileOps} {w : ClientVars} {e : List ClientEvent}
      (halive : s.vars.isActive = true) (hjoin : s.vars.joinable = true)
      (h : ClientTransaction.Reaction c (s.vars.heardFrom r.addr) r ops w e)
      (hintact : r.msg.intact r.len = true ∨ e = []) :
      ClientStep c s (.loop r ops) ⟨w, false⟩ e
  | timeout {w : ClientVars} {e : List ClientEvent} (h : ClientTransaction.Cancelled c w e) :
      ClientStep c s .timeout ⟨w, false⟩ e
  | terminated {a : ClientAction} : ClientStep c s a { s with terminated := true } [.terminated]

/-- Every step is one of these. -/
theorem ClientState.step_cases {c : ClientTransaction} {s s' : ClientState} {a : ClientAction}
    {e : List ClientEvent} (h : s.step c a = some (s', e)) : ClientStep c s a s' e := by
  obtain ⟨v, terminated⟩ := s
  cases a with
  | main r ops =>
    simp only [step] at h
    split_ifs at h with hterm halive
    · cases h
      exact .dropped
    · rw [Bool.not_eq_true] at hterm halive
      subst hterm
      unfold ClientTransaction.begin at h
      split_ifs at h with hid
      · cases hrun : c.onReceive (ClientTransaction.reset { v with isActive := true } ops) r ops with
        | none =>
          rw [hrun] at h
          cases h
          exact .terminated
        | some p =>
          rw [hrun] at h
          cases h
          exact .began halive (ClientTransaction.onReceive_reaction hrun).1
            (ClientTransaction.onReceive_reaction hrun).2
      · cases h
        have hsame : ({ v with isActive := false } : ClientVars) = v := by
          rw [← halive]
        simp only [hsame]
        exact .dropped
  | loop r ops =>
    simp only [step] at h
    split_ifs at h with hblocked
    simp only [not_or, not_not, receiving, Bool.and_eq_true, Bool.not_eq_true] at hblocked
    obtain ⟨rfl, hjoin, halive⟩ := hblocked
    cases hrun : c.onReceive v r ops with
    | none =>
      rw [hrun] at h
      cases h
      exact .terminated
    | some p =>
      rw [hrun] at h
      cases h
      exact .received halive hjoin (ClientTransaction.onReceive_reaction hrun).1
        (ClientTransaction.onReceive_reaction hrun).2
  | timeout =>
    simp only [step] at h
    split_ifs at h with hblocked
    simp only [not_or, Bool.not_eq_true] at hblocked
    obtain ⟨rfl, -⟩ := hblocked
    cases h
    exact .timeout (ClientTransaction.cancelled_sendMessage c v)

end Trftp
