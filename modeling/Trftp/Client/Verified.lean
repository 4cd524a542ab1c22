import Trftp.Client.Receiving
import Trftp.Messages
import Trftp.Lib.History
import Trftp.Lib.Counter
import Mathlib.Algebra.BigOperators.Group.List.Basic

/-!
# The client hands over verified files only

The sender of the datagrams may be anyone. What protects the client is the order of its own
assignments: a status names the messages that were accepted since the last `Begin`, DONE is
entered behind the two checks of the finished file, and nothing is written afterwards. Each
handler leaves the transaction at a status whose facts hold, or cancels it.
-/

namespace Trftp

open Lib (EventMachine InOrder EachWithPast)

/-- The events of the current transaction. -/
def sinceBegan (es : List ClientEvent) : List ClientEvent :=
  es.foldl (fun cur e => if e = .began then [] else cur ++ [e]) []

/-- Events of the current transaction are added to it. -/
theorem sinceBegan_append {es e : List ClientEvent} (h : .began ∉ e) :
    sinceBegan (es ++ e) = sinceBegan es ++ e := by
  unfold sinceBegan
  rw [List.foldl_append]
  generalize es.foldl (fun cur e => if e = .began then [] else cur ++ [e]) [] = cur
  induction e generalizing cur with
  | nil => simp
  | cons x e ih =>
    rw [List.mem_cons, not_or] at h
    rw [List.foldl_cons, if_neg (Ne.symm h.1), ih h.2, List.append_assoc, List.singleton_append]

/-- `Begin` starts a new transaction. -/
theorem sinceBegan_began (es : List ClientEvent) {e : List ClientEvent} (h : .began ∉ e) :
    sinceBegan (es ++ .began :: e) = e := by
  have hstart : sinceBegan (es ++ [.began]) = [] := by simp [sinceBegan]
  rw [← List.singleton_append, ← List.append_assoc, sinceBegan_append h, hstart, List.nil_append]

/-- How many bytes an event gives to the stream. -/
def ClientEvent.bytes : ClientEvent → ℕ
  | .wrote data => data.length
  | _ => 0

/-- How many bytes were given to the stream. -/
def bytesWritten (es : List ClientEvent) : ℕ := (es.map ClientEvent.bytes).sum

/-- Writing goes on. -/
theorem bytesWritten_append (es e : List ClientEvent) :
    bytesWritten (es ++ e) = bytesWritten es + bytesWritten e := by
  simp [bytesWritten]

/-- The current transaction accepted an NTF with this version and then an INFO with it. -/
def Announced (cur : List ClientEvent) (version size crc32 : UInt32) : Prop :=
  InOrder [(· = .notified version), (· = .informed version size crc32)] cur

/-- An accepted INFO behind the NTF announces the file. -/
theorem announced_append {cur : List ClientEvent} {version : UInt32}
    (h : InOrder [(· = .notified version)] cur) (size crc32 : UInt32) (rest : List ClientEvent) :
    Announced (cur ++ .informed version size crc32 :: rest) version size crc32 := by
  rw [← List.singleton_append, ← List.append_assoc]
  exact (h.snoc (p := (· = .informed version size crc32)) rfl).append rest

/-- The current transaction verified this file against the INFO that it had accepted behind an NTF,
both with this version, and wrote nothing afterwards. -/
def HandedOver (cur : List ClientEvent) (file : Option (List UInt8)) (version : UInt32) : Prop :=
  ∃ size crc32 data early late, cur = early ++ .verified data :: late ∧ file = some data ∧
    Announced early version size crc32 ∧ (∀ bytes, .wrote bytes ∉ late) ∧
    data.length = size.toNat ∧ calculateFileCrc32 (some data) = crc32

/-- What RDY and DATA say about the transaction. -/
structure Transferring (cur : List ClientEvent) (v : ClientVars) : Prop where
  isOpen : v.newFileStream.isOpen = true
  good : v.newFileStream.failed = false
  range : v.packetSequenceNumber < v.totalPacketNumber
  announced : Announced cur v.newFileVersion v.newFileSize v.newFileCrc32
  bytes : bytesWritten cur ≤ v.packetSequenceNumber.toNat * sizeofPayload

/-- A transaction that has not asked for a file: nothing is open, counted or written. -/
structure Untouched (cur : List ClientEvent) (v : ClientVars) : Prop where
  isOpen : v.newFileStream.isOpen = false
  psn : v.packetSequenceNumber = 0
  bytes : bytesWritten cur = 0

/-- What each status says about the current transaction. NTF and INFO do not outlast a handler. -/
def StatusOk (cur : List ClientEvent) (v : ClientVars) : Prop :=
  match v.status with
  | .chk => Untouched cur v ∧ InOrder [(· = .notified v.newFileVersion)] cur
  | .rdy | .data => Transferring cur v
  | .done => HandedOver cur v.tempFile v.newFileVersion
  | .fin | .cxl => True
  | .ntf | .info | .rtx => False

/-- The status says nothing about the server's address. -/
theorem StatusOk.heardFrom {cur : List ClientEvent} {v : ClientVars} (h : StatusOk cur v)
    (addr : SockAddr) : StatusOk cur (v.heardFrom addr) := by
  unfold StatusOk at h ⊢
  cases hstatus : v.status <;> simp only [ClientVars.heardFrom, hstatus] at h ⊢
  case chk => exact ⟨⟨h.1.isOpen, h.1.psn, h.1.bytes⟩, h.2⟩
  case rdy | data => exact ⟨h.isOpen, h.good, h.range, h.announced, h.bytes⟩
  case done => exact h

/-- Events without a write count nothing. -/
theorem bytesWritten_of_quiet {e : List ClientEvent} (h : ∀ data, .wrote data ∉ e) :
    bytesWritten e = 0 := by
  induction e with
  | nil => rfl
  | cons x e ih =>
    have hrest : bytesWritten e = 0 := ih fun data hmem => h data (List.mem_cons_of_mem x hmem)
    have hx : x.bytes = 0 := by
      cases x with
      | wrote data => exact absurd List.mem_cons_self (h data)
      | _ => rfl
    rw [← List.singleton_append, bytesWritten_append, hrest]
    simpa [bytesWritten] using hx

/-- Events without a write keep what the status says. -/
theorem StatusOk.append {cur e : List ClientEvent} {v : ClientVars} (h : StatusOk cur v)
    (hquiet : ∀ data, .wrote data ∉ e) : StatusOk (cur ++ e) v := by
  have hbytes : bytesWritten (cur ++ e) = bytesWritten cur := by
    rw [bytesWritten_append, bytesWritten_of_quiet hquiet, Nat.add_zero]
  unfold StatusOk at h ⊢
  cases hstatus : v.status <;> simp only [hstatus] at h ⊢
  case chk => exact ⟨⟨h.1.isOpen, h.1.psn, hbytes.trans h.1.bytes⟩, h.2.append e⟩
  case rdy | data => exact ⟨h.isOpen, h.good, h.range, h.announced.append e, hbytes ▸ h.bytes⟩
  case done =>
    obtain ⟨size, crc32, data, early, late, rfl, hfile, hannounced, hlate, hverified⟩ := h
    refine ⟨size, crc32, data, early, late ++ e, by simp, hfile, hannounced, fun bytes hmem => ?_, hverified⟩
    exact (List.mem_append.mp hmem).elim (hlate bytes) (hquiet bytes)

namespace ClientTransaction

variable {c : ClientTransaction} {v w : ClientVars} {r : Received} {ops : FileOps}
  {cur e : List ClientEvent}

/-- A cancelled transaction has nothing to keep. -/
theorem Cancelled.statusOk (h : Cancelled c w e) (cur : List ClientEvent) : StatusOk cur w := by
  simp [StatusOk, h.status]

/-- An accepted NTF starts an untouched transaction. -/
theorem Notified.statusOk (h : Notified c v w r e) (hfresh : Untouched cur v) :
    StatusOk (cur ++ e) w := by
  obtain ⟨-, -, rfl, rfl⟩ := h
  refine ⟨⟨hfresh.isOpen, hfresh.psn, ?_⟩, [_], ?_, .cons rfl .nil⟩
  · rw [bytesWritten_append, hfresh.bytes]
    rfl
  · simp

/-- The packet count of a file is positive. -/
theorem totalPacketNumber_pos {size : UInt32} (h : size ≠ 0) :
    (0 : UInt32) < UInt32.ofNat ((size.toNat + sizeofPayload - 1) / sizeofPayload) := by
  have hsize : 0 < size.toNat := Nat.pos_of_ne_zero fun h0 => h (UInt32.toNat_inj.mp h0)
  have hlt := size.toNat_lt
  rw [UInt32.lt_iff_toNat_lt, UInt32.toNat_ofNat', sizeofPayload, Nat.mod_eq_of_lt (by omega)]
  simp only [UInt32.toNat_zero]
  omega

/-- An accepted INFO opens the file for the announced number of packets. -/
theorem Informed.statusOk (h : Informed c v w r ops e) (hv : StatusOk cur v) :
    StatusOk (cur ++ e) w := by
  rw [StatusOk, h.chk] at hv
  obtain ⟨huntouched, hnotified⟩ := hv
  have hopened := h.opened
  have hframe := ClientVars.openStream_eq (informedVars v r.msg) ops
  obtain ⟨-, -, -, hsize, -, rfl, rfl⟩ := h
  have hstream := ClientVars.openStream_stream (v := informedVars v r.msg) huntouched.isOpen hopened
  simp only [StatusOk]
  refine ⟨hopened, congrArg OutStream.failed hstream, ?_, ?_, ?_⟩
  · rw [hframe]
    simp only [informedVars, huntouched.psn]
    exact totalPacketNumber_pos hsize
  · rw [hframe]
    exact announced_append hnotified _ _ _
  · rw [bytesWritten_append, huntouched.bytes]
    exact Nat.zero_le _

/-- A packet does not carry more than its payload holds. -/
theorem length_payload_le (r : Received) :
    (r.msg.payload.bytes.take r.payloadLen).length ≤ sizeofPayload :=
  (List.length_take_le _ _).trans r.payloadLen_le

/-- DATA is expected in RDY and in DATA only. -/
theorem transferring_of_dataStatus (hstatus : v.status = dataStatus r.msg.header)
    (hv : StatusOk cur v) : Transferring cur v := by
  unfold dataStatus at hstatus
  split_ifs at hstatus <;> simpa [StatusOk, hstatus] using hv

/-- The count of a packet that was written. -/
theorem bytesWritten_succ_le (h : Transferring cur v) (r : Received) :
    bytesWritten (cur ++ [.wrote (r.msg.payload.bytes.take r.payloadLen)]) ≤
      (v.packetSequenceNumber + 1).toNat * sizeofPayload := by
  have hpsn := Lib.toNat_succ_of_lt (UInt32.lt_iff_toNat_lt.mp h.range)
  have hlen := length_payload_le r
  have hbytes := h.bytes
  rw [bytesWritten_append, hpsn, Nat.succ_mul]
  simp only [bytesWritten, List.map_cons, List.map_nil, List.sum_singleton, ClientEvent.bytes]
  simp only [bytesWritten] at hbytes
  omega

/-- A packet before the last one leaves packets to expect. -/
theorem Expected.statusOk (h : Expected v r) (hmore : v.packetSequenceNumber + 1 ≠ v.totalPacketNumber)
    (hv : StatusOk cur v) :
    StatusOk (cur ++ [.wrote (r.msg.payload.bytes.take r.payloadLen)]) (writtenVars v r) := by
  have htrans := transferring_of_dataStatus h.status hv
  have hrange := UInt32.lt_iff_toNat_lt.mp htrans.range
  have hpsn := Lib.toNat_succ_of_lt hrange
  have hne : (v.packetSequenceNumber + 1).toNat ≠ v.totalPacketNumber.toNat := fun heq =>
    hmore (UInt32.toNat_inj.mp heq)
  refine ⟨rfl, rfl, ?_, htrans.announced.append _, bytesWritten_succ_le htrans r⟩
  show v.packetSequenceNumber + 1 < v.totalPacketNumber
  rw [UInt32.lt_iff_toNat_lt]
  omega

/-- The last packet enters DONE with a verified file. -/
theorem Completed.statusOk (h : Completed c (writtenVars v r) w ops e) (hexpected : Expected v r)
    (hv : StatusOk cur v) :
    StatusOk (cur ++ .wrote (r.msg.payload.bytes.take r.payloadLen) :: e) w := by
  have htrans := transferring_of_dataStatus hexpected.status hv
  obtain ⟨⟨file, hfile, hlength, hcrc, rfl⟩, hw⟩ := h
  have hframe := ClientVars.closeStream_eq (writtenVars v r) ops
  have hversion : w.newFileVersion = v.newFileVersion := by
    rw [hw, hframe]
    rfl
  have htemp : w.tempFile = some file := by
    rw [hw]
    exact hfile
  have hstatus : w.status = .done := by rw [hw]
  simp only [StatusOk, hstatus]
  refine ⟨v.newFileSize, v.newFileCrc32, file, cur ++ [.wrote (r.msg.payload.bytes.take r.payloadLen)],
    [.sent .done (c.packet w .done)], ?_, htemp, ?_, ?_, hlength, hcrc⟩
  · simp
  · rw [hversion]
    exact htrans.announced.append _
  · simp

/-- FIN is accepted in DONE only, and what it hands over is the verified file. -/
theorem Finished.handedOver (h : Finished c v w r e) (hv : StatusOk cur v) :
    HandedOver cur v.tempFile v.newFileVersion := by
  rw [StatusOk, h.done] at hv
  exact hv

/-- Every reaction leads to a status whose facts hold. -/
theorem Reaction.statusOk (h : Reaction c v r ops w e) (hv : StatusOk cur v)
    (hfresh : v.joinable = false → Untouched cur v) : StatusOk (cur ++ e) w := by
  cases h with
  | discarded => rwa [List.append_nil]
  | cancelled h => exact h.statusOk _
  | notified _ h => exact h.statusOk (hfresh h.fresh)
  | informed _ h => exact h.statusOk hv
  | requested => exact hv.append (by simp)
  | written _ h hmore => exact h.statusOk hmore hv
  | completed _ h hlast hdone => exact hdone.statusOk h hv
  | finished _ h =>
    simp [StatusOk, h.vars]

/-- Only `Begin` reports that it begins. -/
theorem Cancelled.not_began (h : Cancelled c w e) : .began ∉ e := by
  obtain ⟨writes, v', rfl⟩ := h.events
  simp

/-- No reaction starts a transaction. -/
theorem Reaction.not_began (h : Reaction c v r ops w e) : .began ∉ e := by
  cases h with
  | discarded | requested | written => simp
  | cancelled h => exact h.not_began
  | notified _ h => simp [h.events]
  | informed _ h => simp [h.events]
  | completed _ _ _ h =>
    obtain ⟨file, -, -, -, rfl⟩ := h.file
    simp
  | finished _ h =>
    rw [h.events]
    split_ifs <;> simp

/-- The file is handed over by FIN only, with the version and the file of the transaction. -/
theorem Reaction.fileReceived (h : Reaction c v r ops w e) (hv : StatusOk cur v)
    {file : Option (List UInt8)} {version : UInt32} (hmem : .fileReceived file version ∈ e) :
    e = [.fileReceived file version] ∧ HandedOver cur file version := by
  cases h with
  | discarded | requested | written => simp at hmem
  | cancelled h =>
    obtain ⟨writes, v', rfl⟩ := h.events
    simp at hmem
  | notified _ h => simp [h.events] at hmem
  | informed _ h => simp [h.events] at hmem
  | completed _ _ _ h =>
    obtain ⟨file', -, -, -, rfl⟩ := h.file
    simp at hmem
  | finished _ h =>
    have hover := h.handedOver hv
    rw [h.events] at hmem ⊢
    split_ifs at hmem ⊢ with hclient
    · simp only [List.mem_singleton, ClientEvent.fileReceived.injEq] at hmem
      obtain ⟨rfl, rfl⟩ := hmem
      exact ⟨rfl, hover⟩
    · simp at hmem

/-- A transaction that is not alive ended in FIN or CXL. -/
def DeadOk (v : ClientVars) : Prop := v.isActive = false → v.status = .fin ∨ v.status = .cxl

/-- Handlers that end the transaction say so in the status. -/
theorem Reaction.deadOk (h : Reaction c v r ops w e) (hv : v.isActive = true) : DeadOk w := by
  have hkeep (halive : w.isActive = true) : DeadOk w := fun hdead => by simp [halive] at hdead
  cases h with
  | discarded | requested => exact hkeep hv
  | cancelled h => exact fun _ => Or.inr h.status
  | notified _ h => exact hkeep (by rw [h.vars]; exact hv)
  | informed _ h =>
    have hframe := ClientVars.openStream_eq (informedVars v r.msg) ops
    exact hkeep (by rw [h.vars, hframe]; exact hv)
  | written => exact hkeep hv
  | completed _ _ _ h =>
    have hframe := ClientVars.closeStream_eq (writtenVars v r) ops
    exact hkeep (by rw [h.vars, hframe]; exact hv)
  | finished _ h => exact fun _ => Or.inl (by rw [h.vars])

/-- `Reset` leaves an untouched transaction that has ended. -/
theorem reset_untouched (v : ClientVars) (ops : FileOps) : Untouched [] (reset v ops) := by
  have hclosed := ClientVars.closeStream_isOpen
    { v with serverAddress := .unset, totalPacketNumber := 0, packetSequenceNumber := 0 } ops
  have hframe := ClientVars.closeStream_eq
    { v with serverAddress := .unset, totalPacketNumber := 0, packetSequenceNumber := 0 } ops
  refine ⟨hclosed, ?_, rfl⟩
  unfold reset
  rw [hframe]

/-- `Reset` keeps the status and the activity. -/
theorem reset_status (v : ClientVars) (ops : FileOps) :
    (reset v ops).status = v.status ∧ (reset v ops).isActive = v.isActive := by
  unfold reset
  rw [ClientVars.closeStream_eq]
  exact ⟨rfl, rfl⟩

end ClientTransaction

/-- The invariant of the client: what its status says, and what was handed over so far. -/
structure ClientInv (es : List ClientEvent) (s : ClientState) : Prop where
  status : StatusOk (sinceBegan es) s.vars
  dead : ClientTransaction.DeadOk s.vars
  handed : EachWithPast (fun pre x => ∀ file version, x = .fileReceived file version →
    HandedOver (sinceBegan pre) file version) es

/-- Events without a hand-over keep the record. -/
theorem ClientInv.handed_append {es e : List ClientEvent} {s : ClientState} (hinv : ClientInv es s)
    (hother : ∀ file version, .fileReceived file version ∉ e) :
    EachWithPast (fun pre x => ∀ file version, x = .fileReceived file version →
      HandedOver (sinceBegan pre) file version) (es ++ e) :=
  hinv.handed.append (.of_forall fun _ _ hmem file version hx => absurd (hx ▸ hmem) (hother file version))

/-- Every step of the client keeps the invariant. -/
theorem ClientState.step_clientInv {c : ClientTransaction} {s s' : ClientState} {a : ClientAction}
    {es e : List ClientEvent} (hinv : ClientInv es s) (h : s.step c a = some (s', e)) :
    ClientInv (es ++ e) s' := by
  cases ClientState.step_cases h with
  | dropped => rwa [List.append_nil]
  | @began r ops w e hdead hreact _ =>
    have hstatus := ClientTransaction.reset_status { s.vars with isActive := true } ops
    have hbegan := hreact.not_began
    have hended : StatusOk [] ((ClientTransaction.reset { s.vars with isActive := true } ops).heardFrom
        r.addr) := by
      refine StatusOk.heardFrom ?_ r.addr
      rw [StatusOk, hstatus.1]
      rcases hinv.dead hdead with hfin | hcxl
      · simp [hfin]
      · simp [hcxl]
    have huntouched := ClientTransaction.reset_untouched { s.vars with isActive := true } ops
    refine ⟨?_, hreact.deadOk hstatus.2, ?_⟩
    · rw [sinceBegan_began es hbegan]
      exact hreact.statusOk hended fun _ => ⟨huntouched.isOpen, huntouched.psn, huntouched.bytes⟩
    · refine hinv.handed_append fun file version hmem => ?_
      rw [List.mem_cons] at hmem
      -- nothing can be handed over before anything was verified
      obtain ⟨-, -, -, data, early, late, hnil, -⟩ :=
        hreact.fileReceived hended (hmem.resolve_left (by simp))
      simp at hnil
  | @received r ops w e halive hjoin hreact _ =>
    have hstatus := hinv.status.heardFrom r.addr
    refine ⟨?_, hreact.deadOk halive, ?_⟩
    · rw [sinceBegan_append hreact.not_began]
      exact hreact.statusOk hstatus fun hfresh => by
        simp [ClientVars.heardFrom, hjoin] at hfresh
    · refine hinv.handed.append ?_
      by_cases hmem : ∃ file version, .fileReceived file version ∈ e
      · obtain ⟨file, version, hmem⟩ := hmem
        obtain ⟨rfl, hover⟩ := hreact.fileReceived hstatus hmem
        refine .cons ?_ .nil
        rintro file' version' ⟨⟩
        rwa [List.append_nil]
      · push Not at hmem
        exact .of_forall fun _ _ hx file version heq => absurd (heq ▸ hx) (hmem file version)
  | timeout hcancel =>
    refine ⟨?_, fun _ => Or.inr hcancel.status, hinv.handed_append fun file version hmem => ?_⟩
    · exact hcancel.statusOk _
    · obtain ⟨writes, v', rfl⟩ := hcancel.events
      simp at hmem
  | terminated =>
    refine ⟨?_, hinv.dead, hinv.handed_append (by simp)⟩
    rw [sinceBegan_append (by simp)]
    exact hinv.status.append (by simp)

/-- The client's invariant holds in every reachable state. -/
theorem clientInv_of_trace {c : ClientTransaction} {es : List ClientEvent} {s : ClientState}
    (h : (clientMachine c).Trace es s) : ClientInv es s := by
  refine h.invariant ?_ fun _ hinv hstep => ClientState.step_clientInv hinv hstep
  rintro s ⟨tempFile, rfl⟩
  exact ⟨trivial, fun _ => Or.inl rfl, .nil⟩

/-- The datagrams of a transfer of two packets, up to the last packet. -/
def twoPacketsSent : List ClientAction :=
  [.main (twoPackets.received .ntf) roomyDisk, .loop (twoPackets.received .info) roomyDisk,
    .loop firstReceived roomyDisk, .loop secondReceived roomyDisk]

/-- FIN ends a transfer whose file is verified. -/
theorem ClientTransaction.onReceive_fin {c : ClientTransaction} {v : ClientVars} {r : Received} (ops : FileOps)
    (hintact : r.msg.intact r.len = true) (hid : r.id? = some .fin) (hlen : r.payloadLen = 0)
    (hdone : v.status = .done) : c.onReceive v r ops =
      some ({ v.heardFrom r.addr with status := .fin, isActive := false },
        if c.hasClient then [.fileReceived v.tempFile v.newFileVersion] else []) := by
  have hheard : (v.heardFrom r.addr).status = .done := hdone
  simp only [onReceive, validateMessageIntegrity, hintact, hid, onFin, hheard, hlen]
  rfl

/-- The FIN of the second transfer. -/
theorem twoPackets_fin : (twoPackets.received .fin).msg.intact (twoPackets.received .fin).len = true ∧
    (twoPackets.received .fin).id? = some .fin ∧ (twoPackets.received .fin).payloadLen = 0 := by
  have hfrom : (twoPackets.received .fin).From (twoPackets.packet ⟨1, 3⟩ .fin) :=
    Received.ofMessage_from _ _ _ (twoPackets.payloadLen_le .fin)
  have harrived := ServerTransaction.arrived_of_from hfrom
  exact ⟨harrived.intact, harrived.id, harrived.payloadLen⟩

/-- Behind the last packet the client waits for FIN. -/
theorem twoPackets_verified :
    ∃ v es, (clientMachine smallClient).exec ⟨ClientTransaction.initialVars none, false⟩ twoPacketsSent =
        some (⟨v, false⟩, es) ∧ (v.joinable && v.isActive) = true ∧ v.status = .done ∧ v.newFileVersion = 7 ∧
      v.tempFile = some twoPackets.file := by
  have hrun : ((clientMachine smallClient).exec ⟨ClientTransaction.initialVars none, false⟩ twoPacketsSent).any
      (fun p => decide (p.1.terminated = false ∧ (p.1.vars.joinable && p.1.vars.isActive) = true ∧
        p.1.vars.status = .done ∧ p.1.vars.newFileVersion = 7 ∧ p.1.vars.tempFile = some twoPackets.file)) =
          true := by decide +kernel
  obtain ⟨⟨⟨v, terminated⟩, es⟩, hexec, hstate⟩ := (Option.any_eq_true _ _).mp hrun
  obtain ⟨rfl, hstate⟩ := of_decide_eq_true hstate
  exact ⟨v, es, hexec, hstate⟩

end Trftp
