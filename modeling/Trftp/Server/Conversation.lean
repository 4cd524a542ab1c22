import Trftp.Server.Joining

/-!
# What the server sends, and how long it waits

Three threads send the datagrams of one transaction: `StartFileTransfer` its NTF, INFO and FIN,
the sender thread the DATA packets, and any of them, like `AbortFileTransfer`, a CXL. Apart from
CXL they come in the order of the protocol, whatever the client sends and however the threads
interleave. The order between the threads is the hard part: no packet is behind the FIN, though
the sender thread still runs.
-/

namespace Trftp

open Lib (EventMachine)

/-- The kind of the datagram that was sent, unless it is a CXL. -/
def ServerEvent.datagram? : ServerEvent → Option MessageId
  | .sent id _ => if id = .cxl then none else some id
  | .transmitted _ _ => some .data
  | .stored _ | .sampled _ | .waited _ _ | .returned _ | .iteration | .checked | .finished | .accepted _ _ => none

/-- What has been sent where the sender thread is not started. -/
def DriverPos.sent? : DriverPos → Option (List MessageId)
  | .start | .sending .ntf => some []
  | .sample .ntf | .waiting .ntf _ | .woken .ntf | .decide .ntf _ | .sending .info => some [.ntf]
  | .erase .ntf | .returned .ntf => some [.ntf]
  | .sample .info | .waiting .info _ | .woken .info | .decide .info _ | .sending .data => some [.ntf, .info]
  | .sample .data | .waiting .data _ | .woken .data | .decide .data _ | .finishing | .cancelling | .erase _
  | .returned _ => none

/-- `SendMessage(DATA)` is behind `StartFileTransfer`, and `SendMessage(FIN)` is ahead. -/
def DriverPos.transmitting : DriverPos → Bool
  | .sample .data | .waiting .data _ | .woken .data | .decide .data _ | .finishing => true
  | .start | .sending _ | .sample _ | .waiting _ _ | .woken _ | .decide _ _ | .cancelling | .erase _
  | .returned _ => false

/-- `SendMessage(FIN)` is behind `StartFileTransfer`. -/
def DriverPos.finished : DriverPos → Bool
  | .erase .fin | .returned .fin => true
  | .start | .sending _ | .sample _ | .waiting _ _ | .woken _ | .decide _ _ | .finishing | .cancelling | .erase _
  | .returned _ => false

namespace DriverPos

variable {pos : DriverPos}

/-- Places where the thread is not started. -/
theorem sent_eq {l : List MessageId} (h : pos.sent? = some l) :
    pos.transmitting = false ∧ pos.finished = false ∧ l <+: [.ntf, .info] := by
  revert h
  fun_cases DriverPos.sent? pos <;> intro h <;> cases h <;> simp [transmitting, finished]

/-- Places where the packets are sent. -/
theorem transmitting_eq (h : pos.transmitting = true) : pos.sent? = none ∧ pos.finished = false := by
  revert h
  fun_cases DriverPos.transmitting pos <;> intro h <;> simp_all [sent?, finished]

/-- Places behind FIN. -/
theorem finished_eq (h : pos.finished = true) : pos.sent? = none ∧ pos.succeeded = true := by
  revert h
  fun_cases DriverPos.finished pos <;> intro h <;> simp_all [sent?, succeeded]

end DriverPos

namespace ServerState

variable {t : ServerTransaction} {s s' : ServerState} {es e : List ServerEvent}

/-- What has been sent, by the place of `StartFileTransfer` and by whether the sender thread is started. -/
structure OrderInv (es : List ServerEvent) (s : ServerState) : Prop where
  placed : ∀ l, s.driver.sent? = some l → s.sender = .notStarted ∧ es.filterMap ServerEvent.datagram? = l
  running : s.driver.transmitting = true → s.sender ≠ .notStarted
  fresh : s.sender = .notStarted → s.driver.finished = false ∧ es.filterMap ServerEvent.datagram? <+: [.ntf, .info]
  started : s.sender ≠ .notStarted → s.driver.finished = false →
    ∃ n, es.filterMap ServerEvent.datagram? = [.ntf, .info] ++ List.replicate n .data
  done : s.sender ≠ .notStarted → s.driver.finished = true →
    ∃ n, es.filterMap ServerEvent.datagram? = [.ntf, .info] ++ List.replicate n .data ++ [.fin]

/-- The other parties send nothing but CXL and the packets of the running thread, which has not sent all. -/
theorem datagram_of_other {a : ServerAction} (hinv : SendingInv t es s) (h : s.step t a = some (s', e))
    (hother : a.ofDriver = false) :
    e.filterMap ServerEvent.datagram? = [] ∨
      e.filterMap ServerEvent.datagram? = [.data] ∧ s.sender ≠ .notStarted ∧ s.psn ≠ t.totalPacketNumber.toNat := by
  rcases step_reports h with rfl | hone
  · exact Or.inl rfl
  · obtain ⟨x, rfl, hreports⟩ := hone
    cases x with
    | transmitted psn p =>
      refine Or.inr ⟨rfl, fun hsender => ?_, fun hpsn => ?_⟩
      · obtain ⟨fileOk, rfl⟩ := step_ofLoop h (List.mem_singleton_self _) rfl
        simp only [step, senderStep, hsender] at h
        contradiction
      · obtain ⟨fileOk, rfl⟩ := step_ofLoop h (List.mem_singleton_self _) rfl
        have hpackets := (senderStep_rank hinv.sender (Or.inr (Or.inr hpsn)) h).2
        rw [packets_of_psn hinv.sender hpsn] at hpackets
        simp [ServerEvent.isTransmission] at hpackets
    | sent id p =>
      left
      cases a with
      | driver | timeout => contradiction
      | sender | abortSend =>
        have hcxl : id = .cxl := by simpa [ServerAction.reports] using hreports
        simp [ServerEvent.datagram?, hcxl]
      | deliver | receiver | abort => contradiction
    | stored | sampled | waited | returned | iteration | checked | finished | accepted => exact Or.inl rfl

/-- The other parties start no thread. -/
theorem fresh_of_other {a : ServerAction} (h : s.step t a = some (s', e)) (hother : a.ofDriver = false) :
    s'.sender = .notStarted ↔ s.sender = .notStarted := by
  cases a with
  | driver | timeout => contradiction
  | sender fileOk =>
    simp only [step] at h
    cases hpos : s.sender <;> simp only [senderStep, hpos, reduceCtorEq] at h
    all_goals
      repeat' split at h
      all_goals cases h
      all_goals simp
  | deliver r => rw [(deliverStep_frame h).1.sender]
  | receiver => rw [(receiverStep_frame h).sender]
  | abort => rw [(abortStep_eq h).2.1]; rfl
  | abortSend => rw [(abortSendStep_eq h).1]

/-- A statement that neither sends nor changes the place. -/
theorem OrderInv.same (horder : OrderInv es s) (hsent : s'.driver.sent? = s.driver.sent?)
    (htransmitting : s'.driver.transmitting = s.driver.transmitting)
    (hfinished : s'.driver.finished = s.driver.finished)
    (hsender : s'.sender = .notStarted ↔ s.sender = .notStarted)
    (hnone : e.filterMap ServerEvent.datagram? = []) : OrderInv (es ++ e) s' := by
  have hsame : (es ++ e).filterMap ServerEvent.datagram? = es.filterMap ServerEvent.datagram? := by
    rw [List.filterMap_append, hnone, List.append_nil]
  have hstarted := not_congr hsender
  refine ⟨fun l hl => ?_, fun hpos => ?_, fun hfresh => ?_, fun hs hpos => ?_, fun hs hpos => ?_⟩
  · rw [hsame, hsender]
    exact horder.placed l (hsent ▸ hl)
  · exact hstarted.mpr (horder.running (htransmitting ▸ hpos))
  · rw [hsame, hfinished]
    exact horder.fresh (hsender.mp hfresh)
  · rw [hsame]
    exact horder.started (hstarted.mp hs) (hfinished ▸ hpos)
  · rw [hsame]
    exact horder.done (hstarted.mp hs) (hfinished ▸ hpos)

/-- The other parties keep the order. -/
theorem OrderInv.step_other {a : ServerAction} (horder : OrderInv es s) (hinv : SendingInv t es s)
    (hleaving : LeavingInv t s) (h : s.step t a = some (s', e)) (hother : a.ofDriver = false) :
    OrderInv (es ++ e) s' := by
  have hdriver := driver_of_other hother h
  have hfresh := fresh_of_other h hother
  rcases datagram_of_other hinv h hother with hnone | ⟨hdata, hstarted, hpsn⟩
  · exact horder.same (by rw [hdriver]) (by rw [hdriver]) (by rw [hdriver]) hfresh hnone
  · -- a packet: the thread is started, and it has not sent all, so FIN is ahead
    have hahead : s.driver.finished = false := by
      by_contra hfinished
      exact hpsn (hleaving.succeeded (DriverPos.finished_eq (eq_true_of_ne_false hfinished)).2)
    obtain ⟨n, hn⟩ := horder.started hstarted hahead
    refine ⟨fun l hl => ?_, fun _ => ?_, fun hsender => ?_, fun _ _ => ⟨n + 1, ?_⟩, fun _ hpos => ?_⟩
    · exact absurd (horder.placed l (hdriver ▸ hl)).1 hstarted
    · rwa [ne_eq, hfresh]
    · exact absurd (hfresh.mp hsender) hstarted
    · rw [List.filterMap_append, hdata, hn, List.append_assoc, List.replicate_succ']
    · rw [hdriver, hahead] at hpos
      contradiction

/-- Where the place alone tells what has been sent. -/
theorem OrderInv.of_sent {l : List MessageId} (hsent : s.driver.sent? = some l) (hsender : s.sender = .notStarted)
    (hl : es.filterMap ServerEvent.datagram? = l) : OrderInv es s := by
  have hplace := DriverPos.sent_eq hsent
  refine ⟨fun l' hl' => ⟨hsender, ?_⟩, fun hpos => ?_, fun _ => ⟨hplace.2.1, hl ▸ hplace.2.2⟩,
    fun hstarted => absurd hsender hstarted, fun hstarted => absurd hsender hstarted⟩
  · rw [hsent] at hl'
    exact hl.trans (Option.some.inj hl')
  · rw [hplace.1] at hpos
    contradiction

/-- While the packets are sent. -/
theorem OrderInv.of_transmitting {n : ℕ} (hpos : s.driver.transmitting = true) (hsender : s.sender ≠ .notStarted)
    (hn : es.filterMap ServerEvent.datagram? = [.ntf, .info] ++ List.replicate n .data) : OrderInv es s := by
  have hplace := DriverPos.transmitting_eq hpos
  refine ⟨fun l hl => ?_, fun _ => hsender, fun hfresh => absurd hfresh hsender, fun _ _ => ⟨n, hn⟩, fun _ hdone => ?_⟩
  · rw [hplace.1] at hl
    contradiction
  · rw [hplace.2] at hdone
    contradiction

/-- Behind FIN. -/
theorem OrderInv.of_finished {n : ℕ} (hpos : s.driver.finished = true) (hsender : s.sender ≠ .notStarted)
    (hn : es.filterMap ServerEvent.datagram? = [.ntf, .info] ++ List.replicate n .data ++ [.fin]) :
    OrderInv es s := by
  have hplace := (DriverPos.finished_eq hpos).1
  refine ⟨fun l hl => ?_, fun _ => hsender, fun hfresh => absurd hfresh hsender, fun _ hahead => ?_, fun _ _ => ⟨n, hn⟩⟩
  · rw [hplace] at hl
    contradiction
  · rw [hpos] at hahead
    contradiction

/-- Where the transfer was given up. -/
theorem OrderInv.cancel (horder : OrderInv es s) (hahead : s.driver.finished = false)
    (hsender : s'.sender = s.sender) (hsent : s'.driver.sent? = none) (htransmitting : s'.driver.transmitting = false)
    (hfinished : s'.driver.finished = false) (hnone : e.filterMap ServerEvent.datagram? = []) :
    OrderInv (es ++ e) s' := by
  have hsame : (es ++ e).filterMap ServerEvent.datagram? = es.filterMap ServerEvent.datagram? := by
    rw [List.filterMap_append, hnone, List.append_nil]
  refine ⟨fun l hl => ?_, fun hpos => ?_, fun hfresh => ?_, fun hstarted _ => ?_, fun _ hdone => ?_⟩
  · rw [hsent] at hl
    contradiction
  · rw [htransmitting] at hpos
    contradiction
  · rw [hsame]
    exact ⟨hfinished, (horder.fresh (hsender ▸ hfresh)).2⟩
  · rw [hsame]
    exact horder.started (hsender ▸ hstarted) hahead
  · rw [hfinished] at hdone
    contradiction

/-- `StartFileTransfer` gives up with NTF or CXL. -/
theorem result_of_giveUp {phase : Phase} {status : Option MessageId} {result : MessageId}
    (h : phase.verdict status = .giveUp result) : phase = .ntf ∧ result = .ntf ∨ result = .cxl := by
  unfold Phase.verdict at h
  split_ifs at h with hnone hcxl
  · cases h
    exact Or.inl ⟨hnone.1, rfl⟩
  · cases h
    exact Or.inr rfl

/-- `StartFileTransfer` keeps the order. -/
theorem OrderInv.driverStep (horder : OrderInv es s) (h : s.driverStep t = some (s', e)) : OrderInv (es ++ e) s' := by
  cases hpos : s.driver <;> simp only [ServerState.driverStep, hpos] at h
  case start =>
    cases h
    exact horder.same (by rw [hpos]; rfl) (by rw [hpos]; rfl) (by rw [hpos]; rfl) Iff.rfl rfl
  case sending phase =>
    cases phase with
    | ntf =>
      obtain ⟨hsender, hl⟩ := horder.placed [] (by rw [hpos]; rfl)
      cases h
      exact OrderInv.of_sent (l := [.ntf]) rfl hsender (by rw [List.filterMap_append, hl]; rfl)
    | info =>
      obtain ⟨hsender, hl⟩ := horder.placed [.ntf] (by rw [hpos]; rfl)
      cases h
      exact OrderInv.of_sent (l := [.ntf, .info]) rfl hsender (by rw [List.filterMap_append, hl]; rfl)
    | data =>
      obtain ⟨-, hl⟩ := horder.placed [.ntf, .info] (by rw [hpos]; rfl)
      cases h
      exact OrderInv.of_transmitting (n := 0) rfl (by simp) (by rw [List.append_nil, hl]; rfl)
  case sample phase | woken phase =>
    cases h
    cases phase <;> exact horder.same (by rw [hpos]; rfl) (by rw [hpos]; rfl) (by rw [hpos]; rfl) Iff.rfl rfl
  case waiting phase oldStatus =>
    split at h <;> cases h
    cases phase <;> exact horder.same (by rw [hpos]; rfl) (by rw [hpos]; rfl) (by rw [hpos]; rfl) Iff.rfl rfl
  case decide phase status =>
    have hahead : s.driver.finished = false := by
      rw [hpos]
      rfl
    split at h <;> cases h
    case _ result hverdict =>
      rcases result_of_giveUp hverdict with ⟨rfl, rfl⟩ | rfl
      · exact horder.same (by rw [hpos]; rfl) (by rw [hpos]; rfl) (by rw [hpos]; rfl) Iff.rfl rfl
      · exact horder.cancel hahead rfl rfl rfl rfl rfl
    case _ => exact horder.cancel hahead rfl rfl rfl rfl rfl
    case _ =>
      cases phase <;> exact horder.same (by rw [hpos]; rfl) (by rw [hpos]; rfl) (by rw [hpos]; rfl) Iff.rfl rfl
  case finishing =>
    have hsender := horder.running (by rw [hpos]; rfl)
    obtain ⟨n, hn⟩ := horder.started hsender (by rw [hpos]; rfl)
    cases h
    exact OrderInv.of_finished (n := n) rfl hsender (by rw [List.filterMap_append, hn]; rfl)
  case cancelling =>
    cases h
    exact horder.cancel (by rw [hpos]; rfl) rfl rfl rfl rfl rfl
  case erase result =>
    cases h
    cases result <;> exact horder.same (by rw [hpos]; rfl) (by rw [hpos]; rfl) (by rw [hpos]; rfl) Iff.rfl rfl
  case returned => contradiction

/-- Every statement keeps the order. -/
theorem OrderInv.step {a : ServerAction} (horder : OrderInv es s) (hinv : SendingInv t es s)
    (hleaving : LeavingInv t s) (h : s.step t a = some (s', e)) : OrderInv (es ++ e) s' := by
  cases hparty : a.ofDriver with
  | false => exact horder.step_other hinv hleaving h hparty
  | true =>
    cases a with
    | driver => exact horder.driverStep h
    | timeout =>
      obtain ⟨phase, hpos, rfl, rfl⟩ := timeoutStep_eq h
      cases phase <;> exact horder.same (by rw [hpos]; rfl) (by rw [hpos]; rfl) (by rw [hpos]; rfl) Iff.rfl rfl
    | sender | deliver | receiver | abort | abortSend => contradiction

end ServerState

/-- The order holds in every reachable state. -/
theorem orderInv_of_trace {t : ServerTransaction} {es : List ServerEvent} {s : ServerState}
    (h : (serverMachine t).Trace es s) : ServerState.OrderInv es s := by
  refine h.invariant (I := ServerState.OrderInv) ?_ ?_
  · intro s hs
    cases hs
    exact ServerState.OrderInv.of_sent (l := []) rfl rfl rfl
  · intro es s a s' e htrace horder hstep
    exact horder.step (sendingInv_of_trace htrace) (leavingInv_of_trace htrace).2 hstep

/-- Behind FIN everything has been sent, and before it no FIN. -/
theorem ServerState.OrderInv.sent {es : List ServerEvent} {s : ServerState} (horder : ServerState.OrderInv es s) :
    ∃ n, (s.driver.finished = true ∧
        es.filterMap ServerEvent.datagram? = [.ntf, .info] ++ List.replicate n .data ++ [.fin]) ∨
      (s.driver.finished = false ∧ es.filterMap ServerEvent.datagram? <+: [.ntf, .info] ++ List.replicate n .data) := by
  by_cases hsender : s.sender = .notStarted
  · obtain ⟨hfinished, hprefix⟩ := horder.fresh hsender
    exact ⟨0, Or.inr ⟨hfinished, hprefix⟩⟩
  · cases hfinished : s.driver.finished with
    | true =>
      obtain ⟨n, hn⟩ := horder.done hsender hfinished
      exact ⟨n, Or.inl ⟨rfl, hn⟩⟩
    | false =>
      obtain ⟨n, hn⟩ := horder.started hsender hfinished
      exact ⟨n, Or.inr ⟨rfl, hn ▸ List.prefix_rfl⟩⟩

/-- The datagrams of a transaction come in the order of the protocol.

Apart from CXL they are one NTF, one INFO, packets of the file and one FIN, or the beginning of
that, in every run and for any datagrams of the client. `StartFileTransfer` returns FIN behind all
of it, NTF behind the NTF alone, and anything else without a FIN. -/
theorem sent_in_order {t : ServerTransaction} {es : List ServerEvent} {s : ServerState}
    (h : (serverMachine t).Trace es s) :
    (∃ n, es.filterMap ServerEvent.datagram? <+: [.ntf, .info] ++ List.replicate n .data ++ [.fin]) ∧
      (s.driver = .returned .fin →
        ∃ n, es.filterMap ServerEvent.datagram? = [.ntf, .info] ++ List.replicate n .data ++ [.fin]) ∧
      (s.driver = .returned .ntf → es.filterMap ServerEvent.datagram? = [.ntf]) ∧
      ∀ result, s.driver = .returned result → result ≠ .fin → .fin ∉ es.filterMap ServerEvent.datagram? := by
  have horder := orderInv_of_trace h
  obtain ⟨n, hsent⟩ := horder.sent
  refine ⟨⟨n, ?_⟩, fun hfin => ⟨n, ?_⟩, fun hntf => ?_, fun result hresult hne hmem => ?_⟩
  · rcases hsent with ⟨-, hall⟩ | ⟨-, hprefix⟩
    · rw [hall]
    · exact hprefix.trans (List.prefix_append _ _)
  · rcases hsent with ⟨-, hall⟩ | ⟨hahead, -⟩
    · exact hall
    · rw [hfin] at hahead
      contradiction
  · exact (horder.placed [.ntf] (by rw [hntf]; rfl)).2
  · rcases hsent with ⟨hfinished, -⟩ | ⟨-, hprefix⟩
    · rw [hresult] at hfinished
      cases result <;> contradiction
    · have hbefore := hprefix.subset hmem
      simp at hbefore

/-- The transfer of one byte sends all of it. -/
theorem sent_in_order_oneByte :
    ∃ s es n, (serverMachine oneByte).exec oneByte.registeredState oneByteSchedule = some (s, es) ∧
      es.filterMap ServerEvent.datagram? = [.ntf, .info] ++ List.replicate n .data ++ [.fin] := by
  have hrun : ((serverMachine oneByte).exec oneByte.registeredState oneByteSchedule).map (·.1.driver) =
      some (.returned .fin) := by decide +kernel
  obtain ⟨⟨s, es⟩, hexec, hfin⟩ := Option.map_eq_some_iff.mp hrun
  obtain ⟨n, hn⟩ := (sent_in_order (EventMachine.exec_trace rfl hexec)).2.1 hfin
  exact ⟨s, es, n, hexec, hn⟩

/-! ## How long it takes -/

/-- The phase whose wait returned. -/
def ServerEvent.wait? : ServerEvent → Option Phase
  | .waited phase _ => some phase
  | .stored _ | .sent _ _ | .sampled _ | .returned _ | .iteration | .checked | .transmitted _ _ | .finished
  | .accepted _ _ => none

/-- The argument of `WaitForStatus`, in seconds. -/
def Phase.timeout : Phase → ℕ
  | .ntf | .info => 1
  | .data => 5 * 60

/-- The waits that are behind `StartFileTransfer` where it goes on. -/
def DriverPos.waits? : DriverPos → Option (List Phase)
  | .start | .sending .ntf | .sample .ntf | .waiting .ntf _ | .woken .ntf => some []
  | .decide .ntf _ | .sending .info | .sample .info | .waiting .info _ | .woken .info => some [.ntf]
  | .decide .info _ | .sending .data | .sample .data | .waiting .data _ | .woken .data => some [.ntf, .info]
  | .decide .data _ => some [.ntf, .info, .data]
  | .finishing | .cancelling | .erase _ | .returned _ => none

namespace ServerState

variable {t : ServerTransaction} {s s' : ServerState} {es e : List ServerEvent}

/-- The waits come in the order of the phases. -/
structure WaitsInv (es : List ServerEvent) (s : ServerState) : Prop where
  placed : ∀ l, s.driver.waits? = some l → es.filterMap ServerEvent.wait? = l
  inOrder : es.filterMap ServerEvent.wait? <+: [.ntf, .info, .data]

/-- The place alone tells which waits are behind. -/
theorem waitsInv_of_place {l : List Phase} (hplace : s.driver.waits? = some l)
    (hl : es.filterMap ServerEvent.wait? = l) : WaitsInv es s := by
  have hprefix : ∀ pos : DriverPos, pos.waits? = some l → l <+: [.ntf, .info, .data] := by
    intro pos
    fun_cases DriverPos.waits? pos <;> intro h <;> cases h <;> simp
  refine ⟨fun l' hl' => ?_, hl ▸ hprefix _ hplace⟩
  rw [hplace] at hl'
  exact hl.trans (Option.some.inj hl')

/-- A statement that is no end of a wait. -/
theorem WaitsInv.same (hwaits : WaitsInv es s) (hplace : ∀ l, s'.driver.waits? = some l → s.driver.waits? = some l)
    (hnone : e.filterMap ServerEvent.wait? = []) : WaitsInv (es ++ e) s' := by
  have hsame : (es ++ e).filterMap ServerEvent.wait? = es.filterMap ServerEvent.wait? := by
    rw [List.filterMap_append, hnone, List.append_nil]
  exact ⟨fun l hl => hsame.trans (hwaits.placed l (hplace l hl)), hsame ▸ hwaits.inOrder⟩

/-- The end of the wait of a phase. -/
theorem WaitsInv.wait {phase : Phase} {status result : Option MessageId} (hwaits : WaitsInv es s)
    (hbefore : s.driver.waits? = (DriverPos.woken phase).waits?) (hpos : s'.driver = .decide phase status) :
    WaitsInv (es ++ [.waited phase result]) s' := by
  cases phase with
  | ntf =>
    refine waitsInv_of_place (l := [.ntf]) (by rw [hpos]; rfl) ?_
    rw [List.filterMap_append, hwaits.placed [] hbefore]
    rfl
  | info =>
    refine waitsInv_of_place (l := [.ntf, .info]) (by rw [hpos]; rfl) ?_
    rw [List.filterMap_append, hwaits.placed [.ntf] hbefore]
    rfl
  | data =>
    refine waitsInv_of_place (l := [.ntf, .info, .data]) (by rw [hpos]; rfl) ?_
    rw [List.filterMap_append, hwaits.placed [.ntf, .info] hbefore]
    rfl

/-- `StartFileTransfer` keeps the order of its waits. -/
theorem WaitsInv.driverStep (hwaits : WaitsInv es s) (h : s.driverStep t = some (s', e)) :
    WaitsInv (es ++ e) s' := by
  cases hpos : s.driver <;> simp only [ServerState.driverStep, hpos] at h
  case start | finishing | cancelling | erase =>
    cases h
    exact hwaits.same (fun l hl => by rw [hpos]; exact hl) rfl
  case sending phase =>
    cases phase <;> cases h <;> exact hwaits.same (fun l hl => by rw [hpos]; exact hl) rfl
  case sample phase =>
    cases h
    cases phase <;> exact hwaits.same (fun l hl => by rw [hpos]; exact hl) rfl
  case waiting phase oldStatus =>
    split at h <;> cases h
    cases phase <;> exact hwaits.same (fun l hl => by rw [hpos]; exact hl) rfl
  case woken phase =>
    cases h
    exact hwaits.wait (by rw [hpos]) rfl
  case decide phase status =>
    split at h <;> cases h
    case _ => exact hwaits.same (fun l hl => by cases hl) rfl
    case _ => exact hwaits.same (fun l hl => by cases hl) rfl
    case _ =>
      cases phase with
      | ntf | info => exact hwaits.same (fun l hl => by rw [hpos]; exact hl) rfl
      | data => exact hwaits.same (fun l hl => by cases hl) rfl
  case returned => contradiction

/-- Only `StartFileTransfer` waits. -/
theorem wait_of_other {a : ServerAction} (h : s.step t a = some (s', e)) (hother : a.ofDriver = false) :
    e.filterMap ServerEvent.wait? = [] := by
  rcases step_reports h with rfl | hone
  · rfl
  · obtain ⟨x, rfl, hreports⟩ := hone
    cases x with
    | waited phase status =>
      cases a with
      | driver | timeout => contradiction
      | sender | deliver | receiver | abort | abortSend => simp [ServerAction.reports] at hreports
    | stored | sent | sampled | returned | iteration | checked | transmitted | finished | accepted => rfl

/-- Every statement keeps the order of the waits. -/
theorem WaitsInv.step {a : ServerAction} (hwaits : WaitsInv es s) (h : s.step t a = some (s', e)) :
    WaitsInv (es ++ e) s' := by
  cases hparty : a.ofDriver with
  | false =>
    refine hwaits.same (fun l hl => ?_) (wait_of_other h hparty)
    rwa [driver_of_other hparty h] at hl
  | true =>
    cases a with
    | driver => exact hwaits.driverStep h
    | timeout =>
      obtain ⟨phase, hpos, rfl, rfl⟩ := timeoutStep_eq h
      exact hwaits.wait (by rw [hpos]; cases phase <;> rfl) rfl
    | sender | deliver | receiver | abort | abortSend => contradiction

end ServerState

/-- `StartFileTransfer` returns, whatever the client and the other threads do.

In every schedule it executes at most 18 statements, and it can execute the next one until it has
returned. Its waits are those of the three phases, in their order and each at most once, so their
timeouts add up to 302 seconds at most. -/
theorem startFileTransfer_returns {t : ServerTransaction} {as : List ServerAction} {es : List ServerEvent}
    {s : ServerState} (h : (serverMachine t).exec t.registeredState as = some (s, es)) :
    as.countP ServerAction.ofDriver ≤ 18 ∧
      ((∃ result, s.driver = .returned result) ∨
        ∃ a : ServerAction, a.ofDriver = true ∧ ∃ p, s.step t a = some p) ∧
      es.filterMap ServerEvent.wait? <+: [.ntf, .info, .data] ∧
      ((es.filterMap ServerEvent.wait?).map Phase.timeout).sum ≤ 302 := by
  have hwaits : ServerState.WaitsInv es s := by
    refine (EventMachine.exec_trace (M := serverMachine t) rfl h).invariant (I := ServerState.WaitsInv) ?_ ?_
    · intro s hs
      cases hs
      exact ServerState.waitsInv_of_place (l := []) rfl rfl
    · intro es s a s' e _ hwaits hstep
      exact hwaits.step hstep
  refine ⟨?_, ?_, hwaits.inOrder, ?_⟩
  · have hcount := ServerState.exec_remaining h
    have hmost := DriverPos.remaining_le t.registeredState.driver
    omega
  · by_cases hreturned : ∃ result, s.driver = .returned result
    · exact Or.inl hreturned
    · refine Or.inr (ServerState.driver_enabled ?_)
      cases hpos : s.driver with
      | returned result => exact absurd ⟨result, hpos⟩ hreturned
      | start | sending | sample | waiting | woken | decide | finishing | cancelling | erase => rfl
  · obtain ⟨rest, hrest⟩ := hwaits.inOrder
    have hsum : ((es.filterMap ServerEvent.wait? ++ rest).map Phase.timeout).sum = 302 := by
      rw [hrest]
      rfl
    rw [List.map_append, List.sum_append] at hsum
    omega

/-- The transfer of one byte takes the three waits. -/
theorem startFileTransfer_returns_oneByte :
    ∃ s es, (serverMachine oneByte).exec oneByte.registeredState oneByteSchedule = some (s, es) ∧
      oneByteSchedule.countP ServerAction.ofDriver ≤ 18 ∧
      es.filterMap ServerEvent.wait? <+: [.ntf, .info, .data] := by
  have hrun : ((serverMachine oneByte).exec oneByte.registeredState oneByteSchedule).isSome := by decide +kernel
  obtain ⟨⟨s, es⟩, hexec⟩ := Option.isSome_iff_exists.mp hrun
  have hreturns := startFileTransfer_returns hexec
  exact ⟨s, es, hexec, hreturns.1, hreturns.2.2.1⟩

end Trftp
