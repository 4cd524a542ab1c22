import Trftp.System.Sessions
import Trftp.System.Framing

/-!
# Late datagrams

A datagram of an earlier transfer is judged by its kind and by the phase in which the receiving
side finds itself. The two tables below are the phases in which it is refused; in every other
phase it is taken for a message of the transfer that goes on. A refused datagram leaves the
address of its sender behind, which the sides record before they look at the message, and, for
DATA, a request for the packet that the client expects.
-/

namespace Trftp

open Lib (EventMachine)

/-! ## At the server -/

namespace ServerState

variable {t : ServerTransaction} {s s' : ServerState} {e : List ServerEvent} {r : Received}

end ServerState

namespace Session

variable {r : Received} {S S' C : Session} {as : List SessionAction} {es e : List SystemEvent}

end Session

/-! ## At the client -/

/-- What the client answers to such a message: it asks for the packet that it expects. -/
def ClientTransaction.answer (c : ClientTransaction) (v : ClientVars) (r : Received) : List Packet :=
  if r.msg.intact r.len = true ∧ r.id? = some .data then [c.packet (v.heardFrom r.addr) .rtx] else []

namespace ClientTransaction

variable {c : ClientTransaction} {v w : ClientVars} {r : Received} {ops : FileOps} {e : List ClientEvent}

end ClientTransaction

namespace Session

variable {S S' : Session} {e : List SystemEvent} {p : Packet} {r : Received} {ops : FileOps}

/-- The same session, but for these datagrams in the network. -/
structure SameBut (ps : List Packet) (S T : Session) : Prop where
  tr : S.tr = T.tr
  server : S.sys.server = T.sys.server
  client : S.sys.client = T.sys.client
  net : ∀ q, q ∉ ps → (q ∈ S.sys.net ↔ q ∈ T.sys.net)

/-- Two executions end and show the same, but for these datagrams in the network, or neither is possible. -/
def Agree (ps : List Packet) : (x y : Option (Session × List SystemEvent)) → Prop :=
  Option.Rel fun x y => x.1.SameBut ps y.1 ∧ x.2 = y.2

/-- A step that delivers none of them does the same in both. -/
theorem SameBut.step {ps : List Packet} {S T : Session} {a : SessionAction} (h : S.SameBut ps T)
    (ha : ∀ b q, a = .current b → b.packet? = some q → q ∉ ps) :
    Agree ps (S.step a) (T.step a) := by
  obtain ⟨tr, ⟨server, client, net⟩, before⟩ := S
  obtain ⟨_, ⟨_, _, net'⟩, before'⟩ := T
  obtain ⟨rfl, rfl, rfl, hnet⟩ := h
  simp only at hnet
  have hsent {x : List Packet} {q : Packet} (hq : q ∉ ps) : q ∈ net ++ x ↔ q ∈ net' ++ x := by
    rw [List.mem_append, List.mem_append, hnet q hq]
  have hserver (q : Option (ServerState × List ServerEvent)) :
      Agree ps ((q.map (SystemState.serverDone ⟨server, client, net⟩)).map fun p => (⟨tr, p.1, before⟩, p.2))
        ((q.map (SystemState.serverDone ⟨server, client, net'⟩)).map fun p => (⟨tr, p.1, before'⟩, p.2)) := by
    cases q with
    | none => exact .none
    | some p => exact .some ⟨⟨rfl, rfl, rfl, fun q hq => hsent hq⟩, rfl⟩
  have hclient (q : Option (ClientState × List ClientEvent)) :
      Agree ps ((q.map (SystemState.clientDone ⟨server, client, net⟩)).map fun p => (⟨tr, p.1, before⟩, p.2))
        ((q.map (SystemState.clientDone ⟨server, client, net'⟩)).map fun p => (⟨tr, p.1, before'⟩, p.2)) := by
    cases q with
    | none => exact .none
    | some p => exact .some ⟨⟨rfl, rfl, rfl, fun q hq => hsent hq⟩, rfl⟩
  cases a with
  | next t =>
    simp only [Session.step]
    split_ifs
    · exact .some ⟨⟨rfl, rfl, rfl, hnet⟩, rfl⟩
    · exact .none
  | current b =>
    have hdelivers {p : Packet} {r : Received} {dst : SockAddr} (hp : b.packet? = some p) :
        SystemState.Delivers ⟨server, client, net⟩ p r dst ↔ SystemState.Delivers ⟨server, client, net'⟩ p r dst :=
      and_congr_left' (hnet p (ha b p rfl hp))
    simp only [Session.step, SystemState.step]
    cases b with
    | server b =>
      simp only
      split_ifs
      · exact hserver _
      · exact .none
    | toServer p r =>
      simp only [hdelivers rfl]
      split_ifs
      · exact hserver _
      · exact .none
    | toMain p r ops | toLoop p r ops =>
      simp only [hdelivers rfl]
      split_ifs
      · exact hclient _
      · exact .none
    | clientTimeout => exact hclient _

/-- A schedule that delivers none of them does the same in both. -/
theorem SameBut.exec {ps : List Packet} {S T : Session} (h : S.SameBut ps T) {as : List SessionAction}
    (has : ∀ b q, .current b ∈ as → b.packet? = some q → q ∉ ps) :
    Agree ps (sessionMachine.exec S as) (sessionMachine.exec T as) := by
  refine EventMachine.exec_related
    (P := fun a => ∀ b q, a = .current b → b.packet? = some q → q ∉ ps) (fun hsame ha => hsame.step ha) h ?_
  rintro a hmem b q rfl hq
  exact has b q hmem hq

end Session

end Trftp
