import Trftp.Client.Threads
import Trftp.Client.Receiving

/-!
# The statements and the functions

Run without interruption, the statements of `Begin` and of `OnReceive` do what the functions of
`Client.Transaction` do. So every run of the client that handles one datagram at a time is a
run of the two threads.
-/

namespace Trftp

open Lib (EventMachine)

/-- What an event tells about the transaction. -/
def ClientProcessEvent.client? : ClientProcessEvent → Option ClientEvent
  | .of _ e => some e
  | .begun _ => some .began
  | .started version => some (.notified version)
  | .threw _ => some .terminated
  | .received _ _ _ | .rejected _ | .finished => none

namespace ClientProcess

variable {c : ClientTransaction} {S S' : ClientProcess} {ops : FileOps} {r : Received} {v w : ClientVars}

/-- A statement of the main loop is a run. -/
theorem main_run {e : List ClientProcessEvent} (ops : FileOps) (hrunning : S.terminated = false)
    (h : S.mainStep c ops = some (S', e)) : (clientProcess c).Run S e S' := by
  refine EventMachine.Run.single (a := .main ops) ?_
  show S.step c (.main ops) = _
  rw [step, hrunning]
  exact h

/-- The assignments of `Reset`, one after the other. -/
theorem reset_run (c : ClientTransaction) (v : ClientVars) (ops : FileOps) (r : Received) :
    (clientProcess c).Run ⟨v, .reset .address r, .absent, false⟩ []
      ⟨{ ClientTransaction.reset v ops with joinable := v.joinable }, .reset .join r, .absent, false⟩ := by
  have hstep : ∀ pos v, pos ≠ .join → (clientProcess c).Run ⟨v, .reset pos r, .absent, false⟩ []
      ⟨(ClientTransaction.resetStep ops v pos).1, .reset (ClientTransaction.resetStep ops v pos).2 r, .absent,
        false⟩ := by
    intro pos v hpos
    apply main_run ops rfl
    cases pos <;> first | rfl | exact absurd rfl hpos
  have h1 := hstep .address v (by simp)
  have h2 := h1.trans (hstep .total _ (by simp))
  have h3 := h2.trans (hstep .psn _ (by simp))
  have h4 := h3.trans (hstep .close _ (by simp))
  have h5 := h4.trans (hstep .version _ (by simp))
  have h6 := h5.trans (hstep .size _ (by simp))
  have h7 := h6.trans (hstep .crc _ (by simp))
  have hjoinable : (ClientVars.closeStream
      { v with serverAddress := .unset, totalPacketNumber := 0, packetSequenceNumber := 0 } ops).joinable =
        v.joinable := by
    rw [ClientVars.closeStream_eq]
  rw [← hjoinable]
  exact h7

/-- `Begin` and `Reset` on a client whose receive loop has ended, up to the entry of `OnReceive`. -/
theorem begin_run (c : ClientTransaction) (ops : FileOps) (hdead : v.isActive = false)
    (hid : r.id? = some .ntf) :
    (clientProcess c).Run ⟨v, .aliveTest r, .absent, false⟩ [.begun true]
      ⟨ClientTransaction.reset { v with isActive := true } ops, .onReceive .hear r, .absent, false⟩ := by
  have halive : (clientProcess c).Run ⟨v, .aliveTest r, .absent, false⟩ [] ⟨v, .setActive r, .absent, false⟩ := by
    apply main_run ops rfl
    simp [mainStep, hdead]
  have hactive : (clientProcess c).Run ⟨v, .setActive r, .absent, false⟩ [.begun true]
      ⟨{ v with isActive := true }, .activeTest r, .absent, false⟩ := by
    apply main_run ops rfl
    simp [mainStep, hid, LoopPos.over]
  have htest : (clientProcess c).Run ⟨{ v with isActive := true }, .activeTest r, .absent, false⟩ []
      ⟨{ v with isActive := true }, .reset .address r, .absent, false⟩ := main_run ops rfl rfl
  have hjoin : (clientProcess c).Run
      ⟨{ ClientTransaction.reset { v with isActive := true } ops with joinable := v.joinable },
        .reset .join r, .absent, false⟩ []
      ⟨ClientTransaction.reset { v with isActive := true } ops, .onReceive .hear r, .absent, false⟩ := by
    apply main_run ops rfl
    cases hjoinable : v.joinable <;> simp [mainStep, join, ClientTransaction.reset]
  exact halive.trans (hactive.trans (htest.trans ((reset_run c _ ops r).trans hjoin)))

/-- A statement of the receive loop is a run. -/
theorem loop_run {e : List ClientProcessEvent} (ops : FileOps) (hrunning : S.terminated = false)
    (h : S.loopStep c ops = some (S', e)) : (clientProcess c).Run S e S' := by
  refine EventMachine.Run.single (a := .loop ops) ?_
  show S.step c (.loop ops) = _
  rw [step, hrunning]
  exact h

/-- The receive loop gets from one position of `OnReceive` to another one, or to its end, and this is seen
of the transaction. -/
def LoopRuns (c : ClientTransaction) (r : Received) (v : ClientVars) (pos : ReceivePos) (e : List ClientEvent)
    (w : ClientVars) (next : Option ReceivePos) : Prop :=
  ∀ main, ∃ es, (clientProcess c).Run ⟨v, main, .onReceive pos r, false⟩ es
    ⟨w, main, next.elim .test (.onReceive · r), false⟩ ∧ es.filterMap ClientProcessEvent.client? = e

/-- One statement. -/
theorem LoopRuns.single {pos : ReceivePos} {e : List ClientEvent} {next : Option ReceivePos}
    (ops : FileOps) (h : c.receiveStep r ops v pos = some (w, e, next)) : LoopRuns c r v pos e w next := by
  intro main
  have hloop : ClientProcess.loopStep c ⟨v, main, .onReceive pos r, false⟩ ops =
      some (⟨w, main, next.elim .test (.onReceive · r), false⟩,
        (if pos = .finDead then [.finished] else []) ++ e.map (.of .loop)) := by
    cases pos <;> simp only [loopStep, loopReceive, h] <;> contradiction
  refine ⟨_, loop_run ops rfl hloop, ?_⟩
  have hfilter : (e.map (ClientProcessEvent.of .loop)).filterMap ClientProcessEvent.client? = e := by
    rw [List.filterMap_map]
    exact List.filterMap_some
  rw [List.filterMap_append, hfilter]
  split_ifs <;> rfl

/-- One statement after the other. -/
theorem LoopRuns.trans {u : ClientVars} {pos pos' : ReceivePos} {e e' : List ClientEvent}
    {next : Option ReceivePos} (h : LoopRuns c r v pos e w (some pos')) (h' : LoopRuns c r w pos' e' u next) :
    LoopRuns c r v pos (e ++ e') u next := by
  intro main
  obtain ⟨es, hrun, hes⟩ := h main
  obtain ⟨es', hrun', hes'⟩ := h' main
  exact ⟨es ++ es', hrun.trans hrun', by rw [List.filterMap_append, hes, hes']⟩

/-- A statement that shows nothing. -/
theorem LoopRuns.step {u : ClientVars} {pos pos' : ReceivePos} {e : List ClientEvent}
    {next : Option ReceivePos} (ops : FileOps) (h : c.receiveStep r ops v pos = some (w, [], some pos'))
    (h' : LoopRuns c r w pos' e u next) : LoopRuns c r v pos e u next :=
  (LoopRuns.single ops h).trans h'

/-- `SendMessage`, for the messages that the receive loop sends. -/
theorem loopRuns_sendMessage (c : ClientTransaction) (r : Received) (v : ClientVars) {id : MessageId}
    (hid : id = .rdy ∨ id = .done ∨ id = .cxl) :
    LoopRuns c r v (.store id) (c.sendMessage v id).2 (c.sendMessage v id).1 none := by
  have hops : FileOps := ⟨true, true, 0⟩
  rcases hid with rfl | rfl | rfl
  · exact .step hops rfl (.single hops rfl)
  · exact .step hops rfl (.single hops rfl)
  · exact .step hops rfl (.step hops rfl (.single hops rfl))

/-- `SendMessage(CXL)`. -/
theorem loopRuns_cancel (c : ClientTransaction) (r : Received) (v : ClientVars) :
    LoopRuns c r v (.store .cxl) (c.sendMessage v .cxl).2 (c.sendMessage v .cxl).1 none :=
  loopRuns_sendMessage c r v (by simp)

/-- The branch for INFO. -/
theorem loopRuns_onInfo (c : ClientTransaction) (r : Received) (ops : FileOps) (v : ClientVars) :
    LoopRuns c r v .infoTest (c.onInfo v r ops).2 (c.onInfo v r ops).1 none := by
  have hcancel := fun v => loopRuns_cancel c r v
  unfold ClientTransaction.onInfo ClientTransaction.sendReady
  split_ifs with hstatus hlen hversion hsize hopen
  · exact .step ops (if_pos hstatus) (hcancel v)
  · exact .step ops ((if_neg hstatus).trans (if_pos hlen)) (hcancel v)
  all_goals refine .step ops ((if_neg hstatus).trans (if_neg hlen)) ?_
  · exact .step ops (if_pos hversion) (hcancel v)
  · exact .step ops ((if_neg hversion).trans (if_pos hsize)) (hcancel v)
  all_goals
    refine .step ops ((if_neg hversion).trans (if_neg hsize)) ?_
    refine .step ops rfl (.step ops rfl (.step ops rfl (.step ops rfl (.step ops rfl ?_))))
  · exact .step ops (if_pos hopen) (hcancel _)
  · have hready : c.receiveStep r ops ((ClientTransaction.informedVars v r.msg).openStream ops) .infoOpened =
        some (_, [.informed _ _ _], some (.store .rdy)) := if_neg hopen
    exact (LoopRuns.single ops hready).trans (loopRuns_sendMessage c r _ (by simp))

/-- The checks of the finished file. -/
theorem loopRuns_sendDone {e : List ClientEvent} (h : c.sendDone v = some (w, e)) :
    LoopRuns c r v .dataSize e w none := by
  have hops : FileOps := ⟨true, true, 0⟩
  unfold ClientTransaction.sendDone at h
  split at h
  · contradiction
  · rename_i file hfile
    have hsizeStep : c.receiveStep r hops v .dataSize =
        if v.newFileSize.toNat ≠ file.length then some (v, [], some (.store .cxl))
        else some (v, [], some .dataCrc) := by
      simp only [ClientTransaction.receiveStep, hfile]
    have hcrcStep : c.receiveStep r hops v .dataCrc =
        if v.newFileCrc32 ≠ calculateFileCrc32 (some file) then some (v, [], some (.store .cxl))
        else some (v, [.verified file], some (.store .done)) := by
      simp only [ClientTransaction.receiveStep, hfile, Option.getD_some]
    split_ifs at h with hsize hcrc <;> cases h
    · exact .step hops (hsizeStep.trans (if_pos hsize)) (loopRuns_cancel c r v)
    · refine .step hops (hsizeStep.trans (if_neg hsize)) ?_
      exact .step hops (hcrcStep.trans (if_pos hcrc)) (loopRuns_cancel c r v)
    · refine .step hops (hsizeStep.trans (if_neg hsize)) ?_
      exact (LoopRuns.single hops (hcrcStep.trans (if_neg hcrc))).trans (loopRuns_sendMessage c r v (by simp))

/-- The branch for DATA behind the write. -/
theorem loopRuns_afterWrite {e : List ClientEvent} (h : c.afterWrite v ops = some (w, e)) :
    LoopRuns c r v .dataWritten e w none := by
  unfold ClientTransaction.afterWrite at h
  split_ifs at h with hfailed hlast
  · cases h
    exact .step ops (if_pos hfailed) (loopRuns_cancel c r v)
  all_goals refine .step ops (if_neg hfailed) (.step ops rfl (.step ops rfl ?_))
  · refine .step ops (if_pos hlast) (.step ops rfl ?_)
    exact loopRuns_sendDone h
  · cases h
    exact .single ops (if_neg hlast)

/-- The branch for DATA. -/
theorem loopRuns_onData {e : List ClientEvent} (h : c.onData v r ops = some (w, e)) :
    LoopRuns c r v .dataTest e w none := by
  unfold ClientTransaction.onData at h
  split_ifs at h with hstatus hlen hnumber
  · cases h
    exact .step ops (if_pos hstatus) (loopRuns_cancel c r v)
  all_goals refine .step ops (if_neg hstatus) ?_
  · cases h
    exact .step ops (if_pos hlen) (loopRuns_cancel c r v)
  all_goals refine .step ops (if_neg hlen) ?_
  · cases h
    exact .step ops (if_pos hnumber) (.single ops rfl)
  · obtain ⟨p, hafter, heq⟩ := Option.map_eq_some_iff.mp h
    cases heq
    have hwrite : c.receiveStep r ops v .dataWrite =
        some (v.writeStream ops (r.msg.payload.bytes.take r.payloadLen),
          [.wrote (r.msg.payload.bytes.take r.payloadLen)], some .dataWritten) := rfl
    exact .step ops (if_neg hnumber) ((LoopRuns.single ops hwrite).trans (loopRuns_afterWrite hafter))

/-- The branch for FIN. -/
theorem loopRuns_onFin (c : ClientTransaction) (r : Received) (v : ClientVars) :
    LoopRuns c r v .finTest (c.onFin v r).2 (c.onFin v r).1 none := by
  have hops : FileOps := ⟨true, true, 0⟩
  unfold ClientTransaction.onFin
  split_ifs with hstatus hlen hclient
  · exact .step hops (if_pos hstatus) (loopRuns_cancel c r v)
  · exact .step hops ((if_neg hstatus).trans (if_pos hlen)) (loopRuns_cancel c r v)
  all_goals
    refine .step hops ((if_neg hstatus).trans (if_neg hlen)) (.step hops rfl (.step hops rfl ?_))
    refine .single hops ?_
  · simp [ClientTransaction.receiveStep, hclient]
  · simp [ClientTransaction.receiveStep, hclient]

/-- The branch for CXL. -/
theorem loopRuns_onCxl (c : ClientTransaction) (r : Received) (ops : FileOps) (v : ClientVars) :
    LoopRuns c r v .cxlOpen (c.onCxl v ops).2 (c.onCxl v ops).1 none := by
  unfold ClientTransaction.onCxl
  split_ifs with hopen
  · refine .step ops (if_pos hopen) (.step ops rfl (.step ops rfl (.step ops rfl ?_)))
    exact loopRuns_cancel c r _
  · refine .step ops (if_neg hopen) (.step ops rfl ?_)
    exact loopRuns_cancel c r _

/-- `OnReceive` in the receive loop, statement by statement. -/
theorem loopRuns_onReceive {e : List ClientEvent} (hjoinable : v.joinable = true)
    (h : c.onReceive v r ops = some (w, e)) : LoopRuns c r v .hear e w none := by
  refine .step ops rfl ?_
  unfold ClientTransaction.onReceive at h
  split_ifs at h with hvalid
  · cases h
    exact .single ops (if_pos hvalid)
  · have hcheck : c.receiveStep r ops (v.heardFrom r.addr) .check =
        some (v.heardFrom r.addr, [], ClientTransaction.branch r) := if_neg hvalid
    unfold ClientTransaction.branch at hcheck
    split at h <;> rename_i hid <;> simp only [hid] at hcheck
    · unfold ClientTransaction.onNtf at h
      split_ifs at h with hlen hself
      · rw [if_pos hlen] at hcheck
        cases h
        exact .step ops hcheck (loopRuns_cancel c r _)
      · exact absurd hjoinable hself
    · obtain ⟨rfl, rfl⟩ := Prod.mk.inj (Option.some.inj h)
      exact .step ops hcheck (loopRuns_onInfo c r ops _)
    · exact .step ops hcheck (loopRuns_onData h)
    · obtain ⟨rfl, rfl⟩ := Prod.mk.inj (Option.some.inj h)
      exact .step ops hcheck (loopRuns_onFin c r _)
    · obtain ⟨rfl, rfl⟩ := Prod.mk.inj (Option.some.inj h)
      exact .step ops hcheck (loopRuns_onCxl c r ops _)
    · cases h
      exact .single ops hcheck

/-- `OnReceive` with an NTF in the main loop, statement by statement. -/
theorem main_onReceive {e : List ClientEvent} (hid : r.id? = some .ntf) (hjoinable : v.joinable = false)
    (hactive : v.isActive = true) (h : c.onReceive v r ops = some (w, e)) :
    ∃ es loop, (clientProcess c).Run ⟨v, .onReceive .hear r, .absent, false⟩ es ⟨w, .idle, loop, false⟩ ∧
      loop = (if w.joinable && w.isActive then .test else .absent) ∧
      es.filterMap ClientProcessEvent.client? = e := by
  have hhear : (clientProcess c).Run ⟨v, .onReceive .hear r, .absent, false⟩ []
      ⟨v.heardFrom r.addr, .onReceive .check r, .absent, false⟩ := main_run ops rfl rfl
  generalize hu : v.heardFrom r.addr = u at hhear
  have hujoinable : u.joinable = false := by
    rw [← hu]
    exact hjoinable
  have huactive : u.isActive = true := by
    rw [← hu]
    exact hactive
  unfold ClientTransaction.onReceive at h
  rw [hu] at h
  split_ifs at h with hvalid
  · cases h
    have hcheck : (clientProcess c).Run ⟨w, .onReceive .check r, .absent, false⟩ [.rejected w.isActive]
        ⟨w, .idle, .absent, false⟩ := by
      apply main_run ops rfl
      rw [Bool.not_eq_true'] at hvalid
      simp [mainStep, mainReceive, ClientTransaction.receiveStep, hvalid]
    exact ⟨_, _, hhear.trans hcheck, by simp [hujoinable], rfl⟩
  · simp only [hid] at h
    have hbranch : ∀ pos, ClientTransaction.branch r = some pos → (clientProcess c).Run
        ⟨u, .onReceive .check r, .absent, false⟩ [] ⟨u, .onReceive pos r, .absent, false⟩ := by
      intro pos hpos
      apply main_run ops rfl
      rw [Bool.not_eq_true', Bool.not_eq_false] at hvalid
      simp [mainStep, mainReceive, ClientTransaction.receiveStep, hvalid, hpos]
    unfold ClientTransaction.onNtf at h
    split_ifs at h with hlen hself
    · have hcheck := hbranch (.store .cxl) (by rw [ClientTransaction.branch, hid]; exact if_pos hlen)
      have hstore : (clientProcess c).Run ⟨u, .onReceive (.store .cxl) r, .absent, false⟩ []
          ⟨{ u with status := .cxl }, .onReceive .dead r, .absent, false⟩ := main_run ops rfl rfl
      have hdead : (clientProcess c).Run ⟨{ u with status := .cxl }, .onReceive .dead r, .absent, false⟩ []
          ⟨(c.sendMessage u .cxl).1, .onReceive (.send .cxl) r, .absent, false⟩ := main_run ops rfl rfl
      have hsend : (clientProcess c).Run ⟨(c.sendMessage u .cxl).1, .onReceive (.send .cxl) r, .absent, false⟩
          [.of .main (.sent .cxl (c.packet u .cxl))] ⟨(c.sendMessage u .cxl).1, .idle, .absent, false⟩ :=
        main_run ops rfl rfl
      obtain ⟨rfl, rfl⟩ := Prod.mk.inj (Option.some.inj h)
      exact ⟨_, _, hhear.trans (hcheck.trans (hstore.trans (hdead.trans hsend))),
        by simp [ClientTransaction.assignStatus], rfl⟩
    · have hcheck := hbranch .ntfStatus (by rw [ClientTransaction.branch, hid]; exact if_neg hlen)
      have hstatus : (clientProcess c).Run ⟨u, .onReceive .ntfStatus r, .absent, false⟩ []
          ⟨{ u with status := .ntf }, .onReceive .ntfVersion r, .absent, false⟩ := main_run ops rfl rfl
      generalize hx : ({ u with status := .ntf, newFileVersion := r.msg.ntf.newFileVersion } : ClientVars) = x
      have hversion : (clientProcess c).Run ⟨{ u with status := .ntf }, .onReceive .ntfVersion r, .absent, false⟩ []
          ⟨x, .onReceive .ntfJoin r, .absent, false⟩ := by
        rw [← hx]
        exact main_run ops rfl rfl
      have hjoin : (clientProcess c).Run ⟨x, .onReceive .ntfJoin r, .absent, false⟩ []
          ⟨x, .onReceive .ntfStart r, .absent, false⟩ := by
        apply main_run ops rfl
        have hxjoinable : x.joinable = false := by
          rw [← hx]
          exact hujoinable
        simp [mainStep, mainReceive, join, hxjoinable]
      have hstart : (clientProcess c).Run ⟨x, .onReceive .ntfStart r, .absent, false⟩
          [.started x.newFileVersion] ⟨{ x with joinable := true }, .onReceive (.store .chk) r, .test, false⟩ :=
        main_run ops rfl rfl
      have hstore : (clientProcess c).Run
          ⟨{ x with joinable := true }, .onReceive (.store .chk) r, .test, false⟩ []
          ⟨{ x with joinable := true, status := .chk }, .onReceive (.send .chk) r, .test, false⟩ :=
        main_run ops rfl rfl
      have hsend : (clientProcess c).Run
          ⟨{ x with joinable := true, status := .chk }, .onReceive (.send .chk) r, .test, false⟩
          [.of .main (.sent .chk (c.packet { x with joinable := true, status := .chk } .chk))]
          ⟨{ x with joinable := true, status := .chk }, .idle, .test, false⟩ := main_run ops rfl rfl
      have hrun := hhear.trans (hcheck.trans (hstatus.trans (hversion.trans (hjoin.trans
        (hstart.trans (hstore.trans hsend))))))
      obtain ⟨rfl, rfl⟩ := Prod.mk.inj (Option.some.inj h)
      subst hx
      exact ⟨_, _, hrun, by simp [ClientTransaction.sendMessage, ClientTransaction.assignStatus, huactive], rfl⟩

/-- Between two datagrams: the main loop waits for one, and so does the receive loop if there is one. -/
def waiting (v : ClientVars) : ClientProcess :=
  ⟨v, .idle, if v.joinable && v.isActive then .receive else .absent, false⟩

/-- A transaction that is alive and has a thread is in its receive loop. -/
theorem waiting_receiving (h : (v.joinable && v.isActive) = true) :
    waiting v = ⟨v, .idle, .receive, false⟩ := by
  rw [waiting, if_pos h]

/-- A transaction that is not alive has no receive loop. -/
theorem waiting_dead (h : v.isActive = false) : waiting v = ⟨v, .idle, .absent, false⟩ := by
  simp [waiting, h]

/-- The receive loop goes on as long as the transaction is alive. -/
theorem settle_run (c : ClientTransaction) (hjoinable : v.isActive = true → v.joinable = true) :
    (clientProcess c).Run ⟨v, .idle, .test, false⟩ [] (waiting v) := by
  apply loop_run ⟨true, true, 0⟩ rfl
  unfold loopStep waiting
  by_cases hactive : v.isActive = true
  · simp [hactive, hjoinable hactive]
  · simp [hactive]

/-- A datagram for the main socket. -/
theorem mainDatagram_run (c : ClientTransaction) (v : ClientVars) (loop : LoopPos) (r : Received) :
    (clientProcess c).Run ⟨v, .idle, loop, false⟩
      [.received .main ⟨r.addr, r.msg.toBytes.take r.len⟩ (some r)] ⟨v, .aliveTest r, loop, false⟩ := by
  refine EventMachine.Run.single (a := .mainDatagram r.msg ⟨r.addr, r.msg.toBytes.take r.len⟩) ?_
  simp [clientProcess, step, udpReceive_take]

/-- A datagram for the transaction's socket. -/
theorem loopDatagram_run (c : ClientTransaction) (v : ClientVars) (main : MainPos) (r : Received) :
    (clientProcess c).Run ⟨v, main, .receive, false⟩
      [.received .loop ⟨r.addr, r.msg.toBytes.take r.len⟩ (some r)] ⟨v, main, .onReceive .hear r, false⟩ := by
  refine EventMachine.Run.single (a := .loopDatagram r.msg ⟨r.addr, r.msg.toBytes.take r.len⟩) ?_
  simp [clientProcess, step, udpReceive_take]

/-- A timeout of the receive loop. -/
theorem timeout_run (c : ClientTransaction) (v : ClientVars) (main : MainPos) :
    (clientProcess c).Run ⟨v, main, .receive, false⟩ [.of .loop (.sent .cxl (c.packet v .cxl))]
      ⟨(c.sendMessage v .cxl).1, main, .absent, false⟩ := by
  have hops : FileOps := ⟨true, true, 0⟩
  have htimeout : (clientProcess c).Run ⟨v, main, .receive, false⟩ [] ⟨v, main, .timeoutStore, false⟩ := by
    refine EventMachine.Run.single (a := .loopTimeout) ?_
    simp [clientProcess, step]
  have hstore : (clientProcess c).Run ⟨v, main, .timeoutStore, false⟩ []
      ⟨{ v with status := .cxl }, main, .timeoutDead, false⟩ := loop_run hops rfl rfl
  have hdead : (clientProcess c).Run ⟨{ v with status := .cxl }, main, .timeoutDead, false⟩ []
      ⟨(c.sendMessage v .cxl).1, main, .timeoutSend, false⟩ := loop_run hops rfl rfl
  have hsend : (clientProcess c).Run ⟨(c.sendMessage v .cxl).1, main, .timeoutSend, false⟩
      [.of .loop (.sent .cxl (c.packet v .cxl))] ⟨(c.sendMessage v .cxl).1, main, .absent, false⟩ :=
    loop_run hops rfl rfl
  exact htimeout.trans (hstore.trans (hdead.trans hsend))

/-- The receive loop gets to a statement that throws. -/
theorem LoopRuns.throws {pos pos' : ReceivePos} {e : List ClientEvent} (h : LoopRuns c r v pos e w (some pos'))
    (ops : FileOps) (hthrows : ∀ main, loopStep c ⟨w, main, .onReceive pos' r, false⟩ ops =
      some (ClientProcess.throws ⟨w, main, .onReceive pos' r, false⟩ .loop)) (main : MainPos) :
    ∃ es S', (clientProcess c).Run ⟨v, main, .onReceive pos r, false⟩ es S' ∧ S'.terminated = true := by
  obtain ⟨es, hrun, -⟩ := h main
  exact ⟨_, _, hrun.trans (loop_run ops rfl (hthrows main)), rfl⟩

/-- `file_size` throws if there is no file. -/
theorem dataSize_throws (h : v.tempFile = none) (main : MainPos) :
    loopStep c ⟨v, main, .onReceive .dataSize r, false⟩ ops =
      some (ClientProcess.throws ⟨v, main, .onReceive .dataSize r, false⟩ .loop) := by
  simp only [loopStep, loopReceive, ClientTransaction.receiveStep, h]

/-- Where the function throws, the receive loop comes to an end as well. -/
theorem loop_throws (h : c.onReceive v r ops = none) (main : MainPos) :
    ∃ es S', (clientProcess c).Run ⟨v, main, .onReceive .hear r, false⟩ es S' ∧ S'.terminated = true := by
  unfold ClientTransaction.onReceive at h
  split_ifs at h with hvalid
  have hcheck : c.receiveStep r ops (v.heardFrom r.addr) .check =
      some (v.heardFrom r.addr, [], ClientTransaction.branch r) := if_neg hvalid
  unfold ClientTransaction.branch at hcheck
  split at h <;> rename_i hid <;> simp only [hid] at hcheck
  case h_2 | h_4 | h_5 | h_6 => contradiction
  · unfold ClientTransaction.onNtf at h
    split_ifs at h with hlen hself
    rw [if_neg hlen] at hcheck
    have hruns : LoopRuns c r v .hear [] _ (some .ntfJoin) :=
      .step ops rfl (.step ops hcheck (.step ops rfl (.single ops rfl)))
    refine hruns.throws ops (fun main => ?_) main
    have hself' : (v.heardFrom r.addr).joinable = true := hself
    simp [loopStep, loopReceive, hself']
  · unfold ClientTransaction.onData at h
    split_ifs at h with hstatus hlen hnumber
    rw [Option.map_eq_none_iff] at h
    unfold ClientTransaction.afterWrite at h
    split_ifs at h with hfailed hlast
    unfold ClientTransaction.sendDone at h
    split at h
    · rename_i hfile
      have hwrite : c.receiveStep r ops (v.heardFrom r.addr) .dataWrite =
          some ((v.heardFrom r.addr).writeStream ops (r.msg.payload.bytes.take r.payloadLen),
            [.wrote (r.msg.payload.bytes.take r.payloadLen)], some .dataWritten) := rfl
      have hclose : LoopRuns c r ((v.heardFrom r.addr).writeStream ops (r.msg.payload.bytes.take r.payloadLen))
          .dataWritten [] _ (some .dataSize) :=
        .step ops (if_neg hfailed) (.step ops rfl (.step ops rfl (.step ops (if_pos hlast) (.single ops rfl))))
      have hdata : LoopRuns c r (v.heardFrom r.addr) .dataTest _ _ (some .dataSize) :=
        .step ops (if_neg hstatus) (.step ops (if_neg hlen) (.step ops (if_neg hnumber)
          ((LoopRuns.single ops hwrite).trans hclose)))
      have hruns : LoopRuns c r v .hear _ _ (some .dataSize) := .step ops rfl (.step ops hcheck hdata)
      exact hruns.throws ops (dataSize_throws hfile) main
    · split_ifs at h

/-- `Begin` does not throw: `Reset` has joined the thread. -/
theorem begin_ne_none (c : ClientTransaction) (v : ClientVars) (r : Received) (ops : FileOps) :
    c.begin v r ops ≠ none := by
  unfold ClientTransaction.begin
  split_ifs with hid
  · rw [Ne, Option.map_eq_none_iff]
    unfold ClientTransaction.onReceive
    split_ifs
    · simp
    · simp only [hid, ClientTransaction.onNtf]
      split_ifs with hlen hself
      · simp
      · simp [ClientVars.heardFrom, ClientTransaction.reset] at hself
      · simp
  · simp

/-- `OnReceive` does not begin a transfer. -/
theorem began_not_mem {e : List ClientEvent} (h : c.onReceive v r ops = some (w, e)) : .began ∉ e := by
  cases (ClientTransaction.onReceive_reaction h).1 with
  | discarded | requested | written => simp
  | cancelled h =>
    obtain ⟨writes, v', rfl⟩ := h.events
    simp
  | notified _ h => simp [h.events]
  | informed _ h => simp [h.events]
  | completed _ _ _ hdone =>
    obtain ⟨file, -, -, -, rfl⟩ := hdone.file
    simp
  | finished _ h =>
    rw [h.events]
    split_ifs <;> simp

/-- Where the transaction shows no beginning, `Begin` has stored nothing. -/
theorem not_begun {es : List ClientProcessEvent} {e : List ClientEvent} {wasOver : Bool}
    (hes : es.filterMap ClientProcessEvent.client? = e) (he : .began ∉ e) : .begun wasOver ∉ es := by
  intro hmem
  rw [← hes] at he
  exact he (List.mem_filterMap.mpr ⟨_, hmem, rfl⟩)

/-- A transaction that has a thread keeps it while it is alive. -/
theorem joinable_of_reaction {e : List ClientEvent} (h : ClientTransaction.Reaction c v r ops w e)
    (hjoinable : v.joinable = true) (hactive : w.isActive = true) : w.joinable = true := by
  cases h with
  | discarded => exact hjoinable
  | cancelled h =>
    rw [h.dead] at hactive
    contradiction
  | notified hid h =>
    rw [h.fresh] at hjoinable
    contradiction
  | informed hid h =>
    rw [h.vars, ClientVars.openStream_eq]
    exact hjoinable
  | requested hid hstatus => exact hjoinable
  | written hid h hmore => exact hjoinable
  | completed hid h hlast hdone =>
    rw [hdone.vars, ClientVars.closeStream_eq]
    exact hjoinable
  | finished hid h =>
    rw [h.vars] at hactive
    contradiction

/-- A datagram at the main socket of a client that is not alive. -/
theorem begin_handled {e : List ClientEvent} (hdead : v.isActive = false)
    (h : c.begin v r ops = some (w, e)) :
    ∃ es, (clientProcess c).Run (waiting v) es (waiting w) ∧ es.filterMap ClientProcessEvent.client? = e ∧
      .begun false ∉ es := by
  have hdatagram := mainDatagram_run c v .absent r
  rw [waiting_dead hdead]
  unfold ClientTransaction.begin at h
  split_ifs at h with hid
  · obtain ⟨⟨w, e⟩, hreceive, heq⟩ := Option.map_eq_some_iff.mp h
    cases heq
    have hactive : (ClientTransaction.reset { v with isActive := true } ops).isActive = true := by
      rw [ClientTransaction.reset, ClientVars.closeStream_eq]
    obtain ⟨es, loop, hrun, rfl, hes⟩ := main_onReceive hid rfl hactive hreceive
    have hbegin := hdatagram.trans ((begin_run c ops hdead hid).trans hrun)
    have hclean : .begun false ∉ es := not_begun hes (began_not_mem hreceive)
    by_cases halive : (w.joinable && w.isActive) = true
    · rw [if_pos halive] at hbegin
      rw [Bool.and_eq_true] at halive
      refine ⟨_, hbegin.trans (settle_run c fun _ => halive.1), ?_, by simp [hclean]⟩
      rw [List.append_nil, ← hes]
      rfl
    · have hend : waiting w = ⟨w, .idle, .absent, false⟩ := by
        rw [waiting, if_neg halive]
      rw [if_neg halive] at hbegin
      rw [hend]
      refine ⟨_, hbegin, ?_, by simp [hclean]⟩
      rw [← hes]
      rfl
  · cases h
    have halive : (clientProcess c).Run ⟨v, .aliveTest r, .absent, false⟩ [] ⟨v, .setActive r, .absent, false⟩ := by
      apply main_run ops rfl
      simp [mainStep, hdead]
    have hactive : (clientProcess c).Run ⟨v, .setActive r, .absent, false⟩ []
        ⟨{ v with isActive := false }, .activeTest r, .absent, false⟩ := by
      apply main_run ops rfl
      simp [mainStep, hid]
    have htest : (clientProcess c).Run ⟨{ v with isActive := false }, .activeTest r, .absent, false⟩ []
        ⟨{ v with isActive := false }, .idle, .absent, false⟩ := main_run ops rfl rfl
    rw [waiting_dead rfl]
    exact ⟨_, hdatagram.trans (halive.trans (hactive.trans htest)), rfl, by simp⟩

/-- A datagram at the main socket of a client that is alive. -/
theorem main_discarded (c : ClientTransaction) (r : Received) (halive : v.isActive = true) :
    ∃ es, (clientProcess c).Run (waiting v) es (waiting v) ∧ es.filterMap ClientProcessEvent.client? = [] ∧
      .begun false ∉ es := by
  have hdatagram := mainDatagram_run c v (if v.joinable && v.isActive then .receive else .absent) r
  have htest : (clientProcess c).Run
      ⟨v, .aliveTest r, if v.joinable && v.isActive then .receive else .absent, false⟩ [] (waiting v) := by
    apply main_run ⟨true, true, 0⟩ rfl
    simp [mainStep, halive, waiting]
  exact ⟨_, hdatagram.trans htest, rfl, by simp⟩

/-- A datagram at the socket of the transaction. -/
theorem loop_handled {e : List ClientEvent} (hreceiving : (v.joinable && v.isActive) = true)
    (h : c.onReceive v r ops = some (w, e)) :
    ∃ es, (clientProcess c).Run (waiting v) es (waiting w) ∧ es.filterMap ClientProcessEvent.client? = e ∧
      .begun false ∉ es := by
  rw [waiting_receiving hreceiving]
  rw [Bool.and_eq_true] at hreceiving
  obtain ⟨es, hrun, hes⟩ := loopRuns_onReceive hreceiving.1 h .idle
  have hsettle := settle_run c (joinable_of_reaction (ClientTransaction.onReceive_reaction h).1 hreceiving.1)
  have hclean : .begun false ∉ es := not_begun hes (began_not_mem h)
  refine ⟨_, (loopDatagram_run c v .idle r).trans (hrun.trans hsettle), ?_, by simp [hclean]⟩
  rw [List.append_nil, ← hes]
  rfl

/-- What the two clients have in common: where one has ended so has the other; else they have the same
members, the threads wait, they have shown the same, and no receive loop was running at a `Begin`. -/
def Handled (es : List ClientEvent) (s : ClientState) (es' : List ClientProcessEvent) (S : ClientProcess) :
    Prop :=
  if s.terminated then S.terminated = true
  else S = waiting s.vars ∧ es'.filterMap ClientProcessEvent.client? = es ∧ .begun false ∉ es'

/-- Each step of the client that handles one datagram at a time is made by the threads. -/
theorem step_handled {es e : List ClientEvent} {es' : List ClientProcessEvent} {s s₁ : ClientState}
    {a : ClientAction} (hrelated : Handled es s es' S) (h : s.step c a = some (s₁, e)) :
    ∃ e' S₁, (clientProcess c).Run S e' S₁ ∧ Handled (es ++ e) s₁ (es' ++ e') S₁ := by
  obtain ⟨v, terminated⟩ := s
  cases terminated with
  | true => cases a <;> simp [ClientState.step] at h
  | false =>
    obtain ⟨rfl, hes, hclean⟩ : S = waiting v ∧ es'.filterMap ClientProcessEvent.client? = es ∧
        ClientProcessEvent.begun false ∉ es' := hrelated
    have hextend : ∀ {w e}, (∃ e', (clientProcess c).Run (waiting v) e' (waiting w) ∧
        e'.filterMap ClientProcessEvent.client? = e ∧ .begun false ∉ e') →
        ∃ e' S₁, (clientProcess c).Run (waiting v) e' S₁ ∧ Handled (es ++ e) ⟨w, false⟩ (es' ++ e') S₁ := by
      rintro w e ⟨e', hrun, he, hclean'⟩
      exact ⟨e', _, hrun, rfl, by rw [List.filterMap_append, hes, he], by simp [hclean, hclean']⟩
    cases a with
    | main r ops =>
      simp only [ClientState.step, Bool.false_eq_true, if_false] at h
      split_ifs at h with halive
      · cases h
        exact hextend (main_discarded c r halive)
      · rw [Bool.not_eq_true] at halive
        cases hbegin : c.begin v r ops with
        | none => exact absurd hbegin (begin_ne_none c v r ops)
        | some p =>
          rw [hbegin] at h
          cases h
          exact hextend (begin_handled halive hbegin)
    | loop r ops =>
      simp only [ClientState.step, Bool.false_eq_true, false_or] at h
      split_ifs at h with hreceiving
      have hwaiting : waiting v = ⟨v, .idle, .receive, false⟩ := waiting_receiving hreceiving
      cases hreceive : c.onReceive v r ops with
      | none =>
        rw [hreceive] at h
        cases h
        obtain ⟨e', S₁, hrun, hended⟩ := loop_throws hreceive .idle
        rw [hwaiting]
        exact ⟨_, S₁, (loopDatagram_run c v .idle r).trans hrun, hended⟩
      | some p =>
        rw [hreceive] at h
        cases h
        exact hextend (loop_handled hreceiving hreceive)
    | timeout =>
      simp only [ClientState.step, Bool.false_eq_true, false_or] at h
      split_ifs at h with hreceiving
      have hwaiting : waiting v = ⟨v, .idle, .receive, false⟩ := waiting_receiving hreceiving
      have hrun := timeout_run c v .idle
      rw [← hwaiting, ← waiting_dead rfl] at hrun
      cases h
      exact hextend ⟨_, hrun, rfl, by simp⟩

/-- Every run of the client that handles one datagram at a time is a run of the two threads. -/
def handling (c : ClientTransaction) : EventMachine.Simulation (clientMachine c) (clientProcess c) where
  related := Handled
  initial := by
    rintro s ⟨tempFile, rfl⟩
    exact ⟨_, ⟨tempFile, rfl⟩, rfl, rfl, List.not_mem_nil⟩
  step := by
    intro es s es' S a s₁ e _ hrelated h
    exact step_handled hrelated h

end ClientProcess

end Trftp
