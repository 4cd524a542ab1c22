import Trftp.System.Network
import Trftp.Messages
import Trftp.Server.Handshake
import Trftp.Client.Verified

/-!
# What can be in the network

The network holds what the two parties sent and nothing else. A datagram is described by its
kind and by what had to happen before it was sent: FIN follows the acceptance of DONE, and
DONE follows the verification of the served file.
-/

namespace Trftp

open Lib (chunk chunkCount)

/-- The sizes for which both sides agree on every packet: more than one packet, the last one not
full, and the sum in the constructor does not wrap. -/
def ServerTransaction.Transferable (t : ServerTransaction) : Prop :=
  sizeofPayload < t.newFileSize.toNat ∧ t.newFileSize.toNat % sizeofPayload ≠ 0 ∧
    t.newFileSize.toNat + (sizeofPayload - 1) < 2 ^ 32

/-- The client was told the version, the size and the packet count of the served file. -/
structure Announces (t : ServerTransaction) (v : ClientVars) : Prop where
  version : v.newFileVersion = t.newFileVersion
  size : v.newFileSize = t.newFileSize
  crc : v.newFileCrc32 = t.newFileCrc32
  total : v.totalPacketNumber.toNat = chunkCount sizeofPayload t.newFileSize.toNat

/-- DONE of such a client arrives with what the server compares it with. -/
theorem Announces.validateDone {t : ServerTransaction} {c : ClientTransaction} {v : ClientVars} {r : Received}
    (h : Announces t v) (hfrom : r.From (c.packet v .done)) : t.validateDone r.msg.done r.payloadLen = true := by
  have harrived := ClientTransaction.arrived_of_from hfrom
  have hlen : r.payloadLen = 12 := harrived.payloadLen
  have hversion : r.msg.done.newFileVersion = t.newFileVersion := (harrived.word 0 _ rfl).trans h.version
  have hsize : r.msg.done.fileLength = t.newFileSize := (harrived.word 1 _ rfl).trans h.size
  have hcrc : r.msg.done.crc32 = t.newFileCrc32 := (harrived.word 2 _ rfl).trans h.crc
  simp [ServerTransaction.validateDone, hlen, hversion, hsize, hcrc]

/-- A datagram of the transfer, with its kind and with what happened before it was sent. -/
inductive Genuine (tr : Transfer) (es : List SystemEvent) : MessageId → Packet → Prop
  | request {id : MessageId} {dst : SockAddr} (hid : id = .ntf ∨ id = .info ∨ id = .cxl) :
      Genuine tr es id (tr.server.packet dst id)
  | data {psn : UInt32} {dst : SockAddr} (hpsn : psn < tr.server.totalPacketNumber) :
      Genuine tr es .data (tr.server.dataPacket dst psn (chunk sizeofPayload tr.server.served psn.toNat))
  | fin {dst : SockAddr} (hsent : ∃ p, .server (.sent .fin p) ∈ es)
      (haccepted : ∃ r, .server (.accepted .done r) ∈ es) :
      Genuine tr es .fin (tr.server.packet dst .fin)
  | reply {id : MessageId} {v : ClientVars} (hid : id = .chk ∨ id = .rdy ∨ id = .rtx ∨ id = .cxl) :
      Genuine tr es id (tr.client.packet v id)
  | done {v : ClientVars} (hverified : .client (.verified tr.server.served) ∈ es)
      (hsize : tr.server.Transferable) (hannounces : Announces tr.server v) :
      Genuine tr es .done (tr.client.packet v .done)

namespace Genuine

variable {tr : Transfer} {es : List SystemEvent} {id : MessageId} {p : Packet} {r : Received}

/-- What was sent stays genuine. -/
theorem append (h : Genuine tr es id p) (es' : List SystemEvent) : Genuine tr (es ++ es') id p := by
  cases h with
  | request hid => exact .request hid
  | data hpsn => exact .data hpsn
  | fin hsent haccepted =>
    exact .fin (hsent.imp fun _ h => List.mem_append_left _ h)
      (haccepted.imp fun _ h => List.mem_append_left _ h)
  | reply hid => exact .reply hid
  | done hverified hsize hannounces => exact .done (List.mem_append_left _ hverified) hsize hannounces

/-- A datagram arrives with its kind. -/
theorem id?_eq (h : Genuine tr es id p) (hfrom : r.From p) : r.id? = some id := by
  cases h with
  | request | fin => exact (ServerTransaction.arrived_of_from hfrom).id
  | data hpsn => exact (ServerTransaction.dataArrived_of_from hpsn hfrom).id
  | reply | done => exact (ClientTransaction.arrived_of_from hfrom).id

/-- A request of the server arrives as the server sent it. -/
theorem arrived (h : Genuine tr es id p) (hfrom : r.From p) (hid : id = .ntf ∨ id = .info) :
    tr.server.Arrived r id := by
  cases h with
  | request => exact ServerTransaction.arrived_of_from hfrom
  | data | fin | done => simp at hid
  | reply hreply => rcases hid with rfl | rfl <;> simp at hreply

/-- DATA arrives as the sender loop sent it. -/
theorem dataArrived (h : Genuine tr es .data p) (hfrom : r.From p) :
    ∃ psn, psn < tr.server.totalPacketNumber ∧ tr.server.DataArrived r psn := by
  cases h with
  | request hid => simp at hid
  | data hpsn => exact ⟨_, hpsn, ServerTransaction.dataArrived_of_from hpsn hfrom⟩
  | reply hid => simp at hid

/-- FIN was sent behind the acceptance of DONE. -/
theorem of_fin (h : Genuine tr es .fin p) :
    (∃ q, .server (.sent .fin q) ∈ es) ∧ ∃ r, .server (.accepted .done r) ∈ es := by
  cases h with
  | request hid => simp at hid
  | fin hsent haccepted => exact ⟨hsent, haccepted⟩
  | reply hid => simp at hid

/-- DONE was sent behind the verification of the served file. -/
theorem of_done (h : Genuine tr es .done p) :
    (.client (.verified tr.server.served) ∈ es) ∧ tr.server.Transferable := by
  cases h with
  | request hid => simp at hid
  | reply hid => simp at hid
  | done hverified hsize _ => exact ⟨hverified, hsize⟩

/-- DONE arrives with what the server compares it with. -/
theorem validateDone (h : Genuine tr es .done p) (hfrom : r.From p) :
    tr.server.validateDone r.msg.done r.payloadLen = true := by
  cases h with
  | request hid => simp at hid
  | reply hid => simp at hid
  | done _ _ hannounces => exact hannounces.validateDone hfrom

/-- A datagram of the client is intact. -/
theorem intact_of_done (h : Genuine tr es .done p) (hfrom : r.From p) :
    r.msg.intact r.len = true := by
  cases h with
  | request hid => simp at hid
  | reply hid => simp at hid
  | done => exact (ClientTransaction.arrived_of_from hfrom).intact

end Genuine

namespace ServerState

variable {t : ServerTransaction} {s s' : ServerState} {es e : List ServerEvent}

/-- What a statement of the server puts into the network. -/
theorem step_packet {a : ServerAction} (hinv : SendingInv t es s) (h : s.step t a = some (s', e))
    {x : ServerEvent} (hx : x ∈ e) {p : Packet} (hp : x.packet? = some p) :
    (∃ id, (id = .ntf ∨ id = .info ∨ id = .cxl) ∧ p = t.packet s.vars.clientAddress id) ∨
    (s.driver = .finishing ∧ x = .sent .fin p ∧ p = t.packet s.vars.clientAddress .fin) ∨
    ∃ psn, psn < t.totalPacketNumber ∧
      p = t.dataPacket s.vars.clientAddress psn (chunk sizeofPayload t.served psn.toNat) := by
  have hreports := step_reports_mem h hx
  cases a with
  | driver =>
    revert h
    simp only [step]
    fun_cases ServerState.driverStep t s <;> intro h <;> cases h <;>
      simp only [List.mem_singleton, List.not_mem_nil] at hx <;> subst hx <;> cases hp
    case driver.case3.refl.refl phase hphase hpos =>
      refine Or.inl ⟨phase.request, ?_, rfl⟩
      cases phase
      · exact Or.inl rfl
      · exact Or.inr (Or.inl rfl)
      · exact absurd rfl hphase
    case driver.case11.refl.refl hpos => exact Or.inr (Or.inl ⟨hpos, rfl, rfl⟩)
    case driver.case12.refl.refl => exact Or.inl ⟨.cxl, by simp, rfl⟩
  | sender fileOk =>
    have hsender := hinv.sender
    revert h
    simp only [step]
    fun_cases ServerState.senderStep t s fileOk <;> intro h <;> cases h <;>
      simp only [List.mem_singleton, List.not_mem_nil] at hx <;> subst hx <;> cases hp
    case sender.case12.refl.refl hpos newFileData hread =>
      rw [SenderOk, hpos] at hsender
      have hlt : s.vars.packetSequenceNumber < t.totalPacketNumber := UInt32.lt_iff_toNat_lt.mpr hsender.1
      rw [ServerTransaction.readData_eq hlt] at hread
      cases hread
      exact Or.inr (Or.inr ⟨_, hlt, rfl⟩)
    case sender.case22.refl.refl => exact Or.inl ⟨.cxl, by simp, rfl⟩
  | timeout | deliver | receiver | abort => cases x <;> contradiction
  | abortSend =>
    obtain ⟨-, rfl⟩ := abortSendStep_eq h
    simp only [List.mem_singleton] at hx
    subst hx
    cases hp
    exact Or.inl ⟨.cxl, by simp, rfl⟩

end ServerState

end Trftp
