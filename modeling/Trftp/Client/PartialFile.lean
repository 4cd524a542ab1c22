import Trftp.Client.Exceptions
import Trftp.Client.Verified

/-!
# The file of a cancelled transfer

The branch for CXL closes the output stream and removes its file, if the stream is open. Every other
way into the status CXL goes through `SendMessage(CXL)` alone, which knows nothing of the file; and
the branch for CXL does no more than that once the stream has been closed for the verification.
-/

namespace Trftp

open Lib (EventMachine)

/-- An INFO was accepted, behind which the output file is open. -/
def ClientEvent.isInformed : ClientEvent → Bool
  | .informed _ _ _ => true
  | .began | .notified _ | .wrote _ | .verified _ | .sent _ _ | .fileReceived _ _ | .terminated => false

/-- The current transaction has opened the output file. -/
def openedFile (es : List ClientEvent) : Bool := (sinceBegan es).any ClientEvent.isInformed

namespace ClientTransaction

variable {c : ClientTransaction} {v w : ClientVars} {r : Received} {ops : FileOps} {e : List ClientEvent}

/-- `SendMessage` does not touch the file. -/
theorem sendMessage_tempFile (c : ClientTransaction) (v : ClientVars) (id : MessageId) :
    (c.sendMessage v id).1.tempFile = v.tempFile := by
  cases id <;> rfl

/-- The branch for NTF does not touch the file. -/
theorem onNtf_file (h : c.onNtf v r = some (w, e)) : w.tempFile = v.tempFile := by
  unfold onNtf at h
  split_ifs at h <;> cases h
  · exact sendMessage_tempFile c v .cxl
  · exact sendMessage_tempFile c _ .chk

/-- The branch for INFO does not remove the file. -/
theorem onInfo_file (h : c.onInfo v r ops = (w, e)) (hfile : v.tempFile ≠ none) : w.tempFile ≠ none := by
  have hopened : ((informedVars v r.msg).openStream ops).tempFile ≠ none := ClientVars.openStream_file hfile
  unfold onInfo sendReady at h
  split_ifs at h <;> cases h
  all_goals first
    | exact hfile
    | exact hopened

/-- The branch for DATA does not remove the file. -/
theorem onData_file (h : c.onData v r ops = some (w, e)) (hfile : v.tempFile ≠ none) : w.tempFile ≠ none := by
  have hwritten : (v.writeStream ops (r.msg.payload.bytes.take r.payloadLen)).tempFile ≠ none := by
    rw [ClientVars.writeStream_eq]
    exact hfile
  unfold onData at h
  split_ifs at h
  · cases h
    exact hfile
  · cases h
    exact hfile
  · cases h
    exact hfile
  · obtain ⟨⟨w', e'⟩, hafter, heq⟩ := Option.map_eq_some_iff.mp h
    obtain ⟨rfl, -⟩ := Prod.mk.inj heq
    generalize v.writeStream ops (r.msg.payload.bytes.take r.payloadLen) = u at hafter hwritten
    have hclosed : ((countedVars u).closeStream ops).tempFile ≠ none := ClientVars.closeStream_file hwritten
    unfold afterWrite sendDone at hafter
    split_ifs at hafter
    · cases hafter
      exact hwritten
    · split at hafter
      · contradiction
      · split_ifs at hafter <;> cases hafter <;> exact hclosed
    · cases hafter
      exact hwritten

/-- The branch for FIN does not touch the file. -/
theorem onFin_file (h : c.onFin v r = (w, e)) : w.tempFile = v.tempFile := by
  unfold onFin at h
  split_ifs at h <;> cases h <;> rfl

/-- `OnReceive` cleans up: a CXL arrives while the output stream is open. -/
def CleansUp (v : ClientVars) (r : Received) : Prop :=
  r.msg.intact r.len = true ∧ r.id? = some .cxl ∧ v.newFileStream.isOpen = true

/-- `OnReceive` removes the file only where it cleans up. -/
theorem onReceive_file (h : c.onReceive v r ops = some (w, e)) (hfile : v.tempFile ≠ none)
    (hother : ¬CleansUp v r) : w.tempFile ≠ none := by
  unfold onReceive validateMessageIntegrity at h
  split_ifs at h with hbad
  · cases h
    exact hfile
  · have hintact : r.msg.intact r.len = true := by simpa using hbad
    split at h
    case h_1 =>
      rw [onNtf_file h]
      exact hfile
    case h_2 => exact onInfo_file (Option.some.inj h) hfile
    case h_3 => exact onData_file h hfile
    case h_4 =>
      rw [onFin_file (Option.some.inj h)]
      exact hfile
    case h_5 hid =>
      -- without an open stream the branch for CXL only sends
      have hclosed : v.newFileStream.isOpen = false := by
        rw [← Bool.not_eq_true]
        exact fun hopen => hother ⟨hintact, hid, hopen⟩
      unfold onCxl at h
      rw [if_neg (by rw [ClientVars.heardFrom, hclosed]; decide)] at h
      cases h
      exact hfile
    case h_6 =>
      cases h
      exact hfile

/-- Where it cleans up, the stream is closed and the file is gone. -/
theorem onReceive_cleansUp (c : ClientTransaction) (ops : FileOps) (hclean : CleansUp v r) :
    ∃ w p, c.onReceive v r ops = some (w, [.sent .cxl p]) ∧ w.newFileStream.isOpen = false ∧
      w.tempFile = none ∧ w.isActive = false := by
  obtain ⟨hintact, hid, hopen⟩ := hclean
  have hstream : (v.heardFrom r.addr).newFileStream.isOpen = true := hopen
  unfold onReceive validateMessageIntegrity
  rw [hintact, hid]
  simp only [Bool.not_true, Bool.false_eq_true, if_false, onCxl, hstream, if_true]
  exact ⟨_, _, rfl, ClientVars.closeStream_isOpen _ _, rfl, rfl⟩

/-- An INFO that is accepted while the stream is closed leaves a file. -/
theorem Reaction.file_of_informed (h : Reaction c v r ops w e)
    (hclosed : v.status = .chk → v.newFileStream.isOpen = false)
    (hinformed : e.any ClientEvent.isInformed = true) : w.tempFile ≠ none := by
  cases h with
  | discarded | requested | written => simp [ClientEvent.isInformed] at hinformed
  | cancelled hc =>
    obtain ⟨writes, v', rfl⟩ := hc.events
    simp [ClientEvent.isInformed] at hinformed
  | notified _ hn =>
    rw [hn.events] at hinformed
    simp [ClientEvent.isInformed] at hinformed
  | informed _ hi =>
    have hopened := hi.opened
    rw [hi.vars] at hopened ⊢
    have hstream : (informedVars v r.msg).newFileStream.isOpen = false := hclosed hi.chk
    exact ClientVars.openStream_isOpen_file (fun hopen => by rw [hstream] at hopen; contradiction) hopened
  | completed _ _ _ hd =>
    obtain ⟨_, -, -, -, rfl⟩ := hd.file
    simp [ClientEvent.isInformed] at hinformed
  | finished _ hf =>
    rw [hf.events] at hinformed
    split_ifs at hinformed <;> simp [ClientEvent.isInformed] at hinformed

end ClientTransaction

/-- Events behind `Begin` are those of the transaction. -/
theorem openedFile_append {es e : List ClientEvent} (h : .began ∉ e) :
    openedFile (es ++ e) = (openedFile es || e.any ClientEvent.isInformed) := by
  rw [openedFile, sinceBegan_append h, List.any_append, openedFile]

/-- `Begin` forgets the file of the transaction before. -/
theorem openedFile_began (es : List ClientEvent) {e : List ClientEvent} (h : .began ∉ e) :
    openedFile (es ++ .began :: e) = e.any ClientEvent.isInformed := by
  rw [openedFile, sinceBegan_began es h]

namespace ClientState

variable {c : ClientTransaction} {s s' : ClientState} {a : ClientAction} {es e : List ClientEvent}

/-- The file that the current transaction has opened is there as long as the transaction is alive. -/
def FileThere (es : List ClientEvent) (s : ClientState) : Prop :=
  s.vars.isActive = true → openedFile es = true → s.vars.tempFile ≠ none

/-- Behind a datagram in the receive loop the file is there, unless the loop cleaned up. -/
theorem loop_file {r : Received} {ops : FileOps} (hthere : FileThere es s) (hinv : ClientInv es s)
    (h : s.step c (.loop r ops) = some (s', e)) (hother : ¬ClientTransaction.CleansUp s.vars r)
    (hopened : openedFile (es ++ e) = true) : s'.vars.tempFile ≠ none := by
  simp only [step] at h
  split_ifs at h with hblocked
  simp only [not_or, not_not, receiving, Bool.and_eq_true] at hblocked
  obtain ⟨-, -, halive⟩ := hblocked
  cases hrun : c.onReceive s.vars r ops with
  | none =>
    rw [hrun] at h
    cases h
    rw [openedFile_append (by simp)] at hopened
    exact hthere halive (by simpa [ClientEvent.isInformed] using hopened)
  | some p =>
    rw [hrun] at h
    cases h
    have hreact := (ClientTransaction.onReceive_reaction hrun).1
    rw [openedFile_append hreact.not_began, Bool.or_eq_true] at hopened
    rcases hopened with hbefore | hnow
    · exact ClientTransaction.onReceive_file hrun (hthere halive hbefore) hother
    · refine hreact.file_of_informed (fun hchk => ?_) hnow
      have hstatus := hinv.status
      rw [StatusOk, show s.vars.status = .chk from hchk] at hstatus
      exact hstatus.1.isOpen

/-- Behind a CXL that finds the stream open nothing is left. -/
theorem loop_cleansUp {r : Received} {ops : FileOps} (h : s.step c (.loop r ops) = some (s', e))
    (hclean : ClientTransaction.CleansUp s.vars r) :
    s'.vars.newFileStream.isOpen = false ∧ s'.vars.tempFile = none ∧ s'.vars.isActive = false := by
  obtain ⟨w, p, hrun, hgone⟩ := ClientTransaction.onReceive_cleansUp c ops hclean
  simp only [step] at h
  split_ifs at h
  rw [hrun] at h
  cases h
  exact hgone

/-- Behind a datagram at the main socket the file is there, if the transaction was alive or has begun. -/
theorem main_file {r : Received} {ops : FileOps} (hthere : FileThere es s)
    (h : s.step c (.main r ops) = some (s', e)) (hopened : openedFile (es ++ e) = true)
    (halive : s.vars.isActive = true ∨ .began ∈ e) : s'.vars.tempFile ≠ none := by
  cases step_cases h with
  | dropped =>
    rw [List.append_nil] at hopened
    exact hthere (halive.resolve_right (by simp)) hopened
  | began _ hreact _ =>
    rw [openedFile_began es hreact.not_began] at hopened
    exact hreact.file_of_informed (fun _ => (ClientTransaction.reset_untouched _ ops).isOpen) hopened
  | terminated =>
    rw [openedFile_append (by simp)] at hopened
    exact hthere (halive.resolve_right (by simp)) (by simpa [ClientEvent.isInformed] using hopened)

/-- Behind a timeout the file is there. -/
theorem timeout_file (hthere : FileThere es s) (h : s.step c .timeout = some (s', e))
    (hopened : openedFile (es ++ e) = true) : s'.vars.tempFile ≠ none := by
  simp only [step] at h
  split_ifs at h with hblocked
  simp only [not_or, not_not, receiving, Bool.and_eq_true] at hblocked
  cases h
  rw [openedFile_append (by simp)] at hopened
  exact hthere hblocked.2.2 (by simpa [ClientEvent.isInformed] using hopened)

/-- Every step keeps the file there while the transaction is alive. -/
theorem step_fileThere (hthere : FileThere es s) (hinv : ClientInv es s) (h : s.step c a = some (s', e)) :
    FileThere (es ++ e) s' := by
  intro halive hopened
  cases a with
  | main r ops =>
    apply main_file hthere h hopened
    cases step_cases h with
    | dropped => exact Or.inl halive
    | began => exact Or.inr (by simp)
    | terminated => exact Or.inl halive
  | loop r ops =>
    apply loop_file hthere hinv h _ hopened
    intro hclean
    rw [(loop_cleansUp h hclean).2.2] at halive
    contradiction
  | timeout => exact timeout_file hthere h hopened

end ClientState

/-- A living transaction has the file that it opened. -/
theorem fileThere_of_trace {c : ClientTransaction} {es : List ClientEvent} {s : ClientState}
    (h : (clientMachine c).Trace es s) : ClientState.FileThere es s := by
  refine h.invariant ?_ fun htrace hthere hstep =>
    ClientState.step_fileThere hthere (clientInv_of_trace htrace) hstep
  rintro s ⟨tempFile, rfl⟩ halive
  exact absurd halive (by simp [ClientTransaction.initialVars])

/-- A cancelled transfer leaves no file exactly where a CXL finds the stream open.

The client handles one datagram at a time and is in a reachable state, and a step in which it sends CXL
ends a transaction that has opened the output file. Behind the step the stream is closed and the file
is gone if and only if the step was the receipt of an intact CXL while the stream was open. -/
theorem cancelled_cleansUp_iff {c : ClientTransaction} {es e : List ClientEvent} {s s' : ClientState}
    {a : ClientAction} (h : (clientMachine c).Trace es s) (hstep : s.step c a = some (s', e))
    (hcxl : ∃ p, .sent .cxl p ∈ e) (hopened : openedFile (es ++ e) = true) :
    (s'.vars.newFileStream.isOpen = false ∧ s'.vars.tempFile = none) ↔
      ∃ r ops, a = .loop r ops ∧ ClientTransaction.CleansUp s.vars r := by
  have hthere := fileThere_of_trace h
  constructor
  · rintro ⟨-, hgone⟩
    cases a with
    | main r ops =>
      refine absurd hgone (ClientState.main_file hthere hstep hopened ?_)
      cases ClientState.step_cases hstep with
      | dropped => simp at hcxl
      | began => exact Or.inr (by simp)
      | terminated => simp at hcxl
    | loop r ops =>
      by_contra hother
      refine ClientState.loop_file hthere (clientInv_of_trace h) hstep ?_ hopened hgone
      exact fun hclean => hother ⟨r, ops, rfl, hclean⟩
    | timeout => exact absurd hgone (ClientState.timeout_file hthere hstep hopened)
  · rintro ⟨r, ops, rfl, hclean⟩
    obtain ⟨hclosed, hgone, -⟩ := ClientState.loop_cleansUp hstep hclean
    exact ⟨hclosed, hgone⟩

/-- The datagrams up to the accepted INFO. -/
def informedSchedule : List ClientAction :=
  [.main (twoPackets.received .ntf) roomyDisk, .loop (twoPackets.received .info) roomyDisk]

/-- The output file of the second transfer is open, with nothing in it. -/
theorem informedSchedule_exec :
    ∃ s es, (clientMachine smallClient).exec ⟨ClientTransaction.initialVars none, false⟩ informedSchedule =
        some (s, es) ∧ (s.terminated = false ∧ s.receiving = true ∧ s.vars.newFileStream.isOpen = true ∧
      s.vars.tempFile = some [] ∧ openedFile es = true) := by
  have hrun : ((clientMachine smallClient).exec ⟨ClientTransaction.initialVars none, false⟩ informedSchedule).any
      (fun p => decide (p.1.terminated = false ∧ p.1.receiving = true ∧ p.1.vars.newFileStream.isOpen = true ∧
        p.1.vars.tempFile = some [] ∧ openedFile p.2 = true)) = true := by decide +kernel
  obtain ⟨⟨s, es⟩, hexec, hstate⟩ := (Option.any_eq_true _ _).mp hrun
  exact ⟨s, es, hexec, of_decide_eq_true hstate⟩

/-- The server's CXL is cleaned up behind. -/
theorem cancelled_cleansUp_cxl :
    ∃ s s' es e, (clientMachine smallClient).Trace es s ∧
      s.step smallClient (.loop (twoPackets.received .cxl) roomyDisk) = some (s', e) ∧
      s'.vars.newFileStream.isOpen = false ∧ s'.vars.tempFile = none := by
  obtain ⟨s, es, hexec, hterminated, hreceiving, hopen, -, hopened⟩ := informedSchedule_exec
  have htrace : (clientMachine smallClient).Trace es s := EventMachine.exec_trace ⟨none, rfl⟩ hexec
  have hfrom : (twoPackets.received .cxl).From (twoPackets.packet ⟨1, 3⟩ .cxl) :=
    Received.ofMessage_from _ _ _ (twoPackets.payloadLen_le .cxl)
  have harrived := ServerTransaction.arrived_of_from hfrom
  have hclean : ClientTransaction.CleansUp s.vars (twoPackets.received .cxl) :=
    ⟨harrived.intact, harrived.id, hopen⟩
  obtain ⟨w, p, hrun, -⟩ := ClientTransaction.onReceive_cleansUp smallClient roomyDisk hclean
  have hstep : s.step smallClient (.loop (twoPackets.received .cxl) roomyDisk) =
      some ({ s with vars := w }, [.sent .cxl p]) := by
    simp [ClientState.step, ClientState.apply, hterminated, hreceiving, hrun]
  have hevents : openedFile (es ++ [.sent .cxl p]) = true := by
    rw [openedFile_append (by simp), hopened, Bool.true_or]
  obtain ⟨hclosed, hgone⟩ := (cancelled_cleansUp_iff htrace hstep ⟨p, List.mem_singleton_self _⟩ hevents).mpr
    ⟨_, roomyDisk, rfl, hclean⟩
  exact ⟨s, _, es, _, htrace, hstep, hclosed, hgone⟩

/-- A timeout leaves the file open. -/
theorem timeout_leaves_file :
    ¬∀ (c : ClientTransaction) (es e : List ClientEvent) (s s' : ClientState) (a : ClientAction),
      (clientMachine c).Trace es s → s.step c a = some (s', e) → (∃ p, .sent .cxl p ∈ e) →
      openedFile (es ++ e) = true → s'.vars.newFileStream.isOpen = false ∧ s'.vars.tempFile = none := by
  intro hclaim
  obtain ⟨s, es, hexec, hterminated, hreceiving, hopen, -, hopened⟩ := informedSchedule_exec
  have htrace : (clientMachine smallClient).Trace es s := EventMachine.exec_trace ⟨none, rfl⟩ hexec
  have hstep : s.step smallClient .timeout =
      some (s.apply (some (smallClient.sendMessage s.vars .cxl))) := by
    simp only [ClientState.step, hterminated, hreceiving]
    rfl
  have hevents : openedFile (es ++ (smallClient.sendMessage s.vars .cxl).2) = true := by
    rw [openedFile_append (by simp), hopened, Bool.true_or]
  have hclosed := (hclaim smallClient es _ s _ .timeout htrace hstep ⟨_, List.mem_singleton_self _⟩ hevents).1
  have hkept : s.vars.newFileStream.isOpen = false := hclosed
  rw [hopen] at hkept
  contradiction

end Trftp
