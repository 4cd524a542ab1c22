import Trftp.Server.Slot
import Trftp.System.Genuine

/-!
# Which transaction gets a datagram

The key of a transaction is the text that the caller gave, and the receive loop looks for the
text that `inet_ntoa` prints. The two meet exactly at the canonical spelling, and a printed
address is read back, so with canonical keys every transaction gets what comes from its
address, and no two of them share one. Under any other spelling a transaction is registered
and sends, and no answer reaches it.
-/

namespace Trftp

open Lib (EventMachine)

/-- The other threads leave `OnReceive` where it is. -/
theorem ServerState.receiver_of_call {t : ServerTransaction} {s s' : ServerState} {e : List ServerEvent}
    {a : ServerAction} (ha : a.ofCall = true) (h : s.step t a = some (s', e)) : s'.receiver = s.receiver := by
  cases a with
  | driver => exact (driverStep_frame h).receiver
  | timeout => rw [timeoutStep_frame h]
  | sender fileOk => exact (senderStep_frame h).receiver
  | abortSend => rw [(abortSendStep_eq h).1]
  | deliver | receiver | abort => contradiction

namespace ServerProcess

variable {udpSocket : SockAddr} {S S' : ServerProcess} {es e : List ProcessEvent}

/-! ## The receive loop -/

@[simp] theorem update_receiving (S : ServerProcess) (i : ℕ) (c : Call) (p : ServerState × List ServerEvent) :
    (S.update i c p).1.receiving = S.receiving := by
  unfold update
  split
  · split_ifs <;> rfl
  · rfl

@[simp] theorem update_calls (S : ServerProcess) (i : ℕ) (c : Call) (p : ServerState × List ServerEvent) :
    (S.update i c p).1.calls = Function.update S.calls i (.entered { c with state := p.1 }) := by
  unfold update
  split
  · split_ifs <;> rfl
  · rfl

/-- A step of a transaction tells of its call and of nothing else. -/
theorem dispatched_notMem_update {i j : ℕ} {c : Call} {p : ServerState × List ServerEvent} {r : Received} :
    .dispatched j r ∉ (S.update i c p).2 := by
  unfold update
  split
  · split_ifs <;> simp
  · simp

/-- `OnReceive` runs on one transaction at a time. -/
def ReceivingInv (S : ServerProcess) : Prop :=
  ∀ i c, S.calls i = .entered c → c.state.receiver ≠ .idle → S.receiving = some i

/-- A step that leaves the receive loop where it is. -/
theorem ReceivingInv.keep {i : ℕ} {d : Call} (h : ReceivingInv S)
    (hcalls : S'.calls = Function.update S.calls i (.entered d)) (hreceiving : S'.receiving = S.receiving)
    (hreceiver : d.state.receiver ≠ .idle → ∃ c, S.calls i = .entered c ∧ c.state.receiver ≠ .idle) :
    ReceivingInv S' := by
  intro j c hc hbusy
  rw [hreceiving]
  rcases entered_of_update hcalls hc with ⟨rfl, hd⟩ | ⟨-, hc⟩
  · cases hd
    obtain ⟨b, hb, hb'⟩ := hreceiver hbusy
    exact h j b hb hb'
  · exact h j c hc hbusy

/-- A call is made. -/
theorem ReceivingInv.place {i : ℕ} {status : CallStatus} (h : ReceivingInv S)
    (hcalls : S'.calls = Function.update S.calls i status) (hreceiving : S'.receiving = S.receiving)
    (hreceiver : ∀ d, status = .entered d → d.state.receiver = .idle) : ReceivingInv S' := by
  intro j c hc hbusy
  rw [hreceiving]
  rcases entered_of_update hcalls hc with ⟨rfl, hd⟩ | ⟨-, hc⟩
  · exact absurd (hreceiver c hd) hbusy
  · exact h j c hc hbusy

/-- A step of the receive loop. -/
theorem ReceivingInv.move {i : ℕ} {c : Call} {p : ServerState × List ServerEvent} (h : ReceivingInv S)
    (hreceiving : ∀ j, S.receiving = some j → j = i)
    (hcalls : S'.calls = Function.update S.calls i (.entered { c with state := p.1 }))
    (hnew : S'.receiving = if p.1.receiver = .idle then none else some i) : ReceivingInv S' := by
  intro j d hd hbusy
  rcases entered_of_update hcalls hd with ⟨rfl, hd⟩ | ⟨hne, hd⟩
  · cases hd
    rw [hnew, if_neg hbusy]
  · exact absurd (hreceiving j (h j d hd hbusy)) hne

/-- `StartFileTransfer` leaves the receive loop alone. -/
theorem ReceivingInv.start {i : ℕ} {a : StartArgs} (hinv : ReceivingInv S) :
    ReceivingInv (S.start udpSocket i a).1 := by
  unfold ServerProcess.start
  split
  · exact hinv.place rfl rfl fun d hd => by cases hd
  · split
    · exact hinv.place rfl rfl fun d hd => by cases hd
    · refine hinv.place rfl rfl fun d hd => ?_
      cases hd
      rfl

/-- So does a statement of a call or of its sender thread. -/
theorem ReceivingInv.call {i : ℕ} {c : Call} {a : ServerAction} {p : ServerState × List ServerEvent}
    (hinv : ReceivingInv S) (hcall : S.calls i = .entered c) (ha : a.ofCall = true)
    (hstep : c.state.step c.tran a = some p) : ReceivingInv (S.update i c p).1 :=
  hinv.keep (update_calls ..) (update_receiving ..) fun hbusy =>
    ⟨c, hcall, ServerState.receiver_of_call ha hstep ▸ hbusy⟩

/-- So does `AbortFileTransfer`. -/
theorem ReceivingInv.abort {i : ℕ} {c : Call} {p : ServerState × List ServerEvent}
    (hinv : ReceivingInv S) (hcall : S.calls i = .entered c) (hstep : c.state.abortStep = some p) :
    ReceivingInv (S.update i c p).1 := by
  refine hinv.keep (update_calls ..) (update_receiving ..) fun hbusy => ⟨c, hcall, ?_⟩
  have hreceiver : p.1.receiver = c.state.receiver := by
    rw [(ServerState.abortStep_eq hstep).2.1]
    rfl
  exact hreceiver ▸ hbusy

/-- A free receive loop takes up the transaction that it hands a datagram to. -/
theorem ReceivingInv.receive {buffer : TrftpMessage} {d : Datagram} (hinv : ReceivingInv S)
    (hfree : S.receiving = none) (h : S.receive buffer d = some (S', e)) : ReceivingInv S' := by
  unfold ServerProcess.receive at h
  split at h
  · cases h
    exact hinv
  · split at h
    · cases h
      exact hinv
    · split at h
      · contradiction
      · obtain ⟨p, -, hp⟩ := Option.map_eq_some_iff.mp h
        cases hp
        refine hinv.move (fun j hj => ?_) (update_calls ..) rfl
        rw [hfree] at hj
        contradiction

/-- `OnReceive` goes on in the transaction that it runs on. -/
theorem ReceivingInv.receiver (hinv : ReceivingInv S) (h : S.receiver = some (S', e)) : ReceivingInv S' := by
  unfold ServerProcess.receiver at h
  split at h
  · contradiction
  · rename_i i hreceiving
    split at h
    · contradiction
    · obtain ⟨p, -, hp⟩ := Option.map_eq_some_iff.mp h
      cases hp
      refine hinv.move (fun j hj => ?_) (update_calls ..) rfl
      exact Option.some.inj (hj.symm.trans hreceiving)

/-- Every step keeps the receive loop on one transaction. -/
theorem step_receivingInv {action : ProcessAction} (hinv : ReceivingInv S)
    (h : S.step udpSocket action = some (S', e)) : ReceivingInv S' := by
  cases action with
  | start i a =>
    simp only [step] at h
    split at h
    · obtain rfl : (S.start udpSocket i a).1 = S' := congrArg Prod.fst (Option.some.inj h)
      exact hinv.start
    · contradiction
  | call i a =>
    simp only [step] at h
    split at h
    · rename_i c _ hcall
      split_ifs at h with hguard
      obtain ⟨p, hstep, hp⟩ := Option.map_eq_some_iff.mp h
      obtain rfl : (S.update i c p).1 = S' := congrArg Prod.fst hp
      rw [not_or, not_not] at hguard
      exact hinv.call (CallStatus.call?_eq_some.mp hcall) hguard.1 hstep
    · contradiction
  | sendThrows i =>
    simp only [step] at h
    split at h
    · rename_i c _ hcall
      split_ifs at h with hguard
      cases h
      exact hinv.keep rfl rfl fun hbusy => ⟨c, CallStatus.call?_eq_some.mp hcall, hbusy⟩
    · contradiction
  | senderThrows i =>
    simp only [step] at h
    split at h
    · split_ifs at h
      cases h
      exact hinv
    · contradiction
  | abort clientIp =>
    simp only [step] at h
    split at h
    · cases h
      exact hinv
    · obtain ⟨c, hcall, h⟩ := Option.bind_eq_some_iff.mp h
      obtain ⟨p, hstep, hp⟩ := Option.map_eq_some_iff.mp h
      obtain rfl : (S.update _ c p).1 = S' := congrArg Prod.fst hp
      exact hinv.abort (CallStatus.call?_eq_some.mp hcall) hstep
    · contradiction
  | datagram buffer d =>
    simp only [step] at h
    split at h
    · rename_i hfree
      exact hinv.receive hfree h
    · contradiction
  | receiver =>
    simp only [step] at h
    split_ifs at h
    exact hinv.receiver h

/-- `OnReceive` runs on one transaction at a time in every reachable state. -/
theorem receivingInv_of_trace (h : (serverProcess udpSocket).Trace es S) : ReceivingInv S := by
  refine h.invariant (I := fun _ S => ReceivingInv S) ?_ ?_
  · rintro S rfl i c hcall
    contradiction
  · intro es S action S' e _ hinv hstep
    exact step_receivingInv hinv hstep

/-- A waiting loop dispatches a datagram to the transaction under the printed address of its sender. -/
theorem dispatched_of_dispatch {i : ℕ} {buffer : TrftpMessage} {d : Datagram}
    (h : (serverProcess udpSocket).Trace es S) (hrunning : S.terminated = false)
    (hwaiting : S.receiving = none) (hbytes : d.bytes ≠ []) :
    (∃ S' e r, S.step udpSocket (.datagram buffer d) = some (S', e) ∧ .dispatched i r ∈ e) ↔
      S.dispatch d.src.sinAddr = some i := by
  obtain ⟨r, hr⟩ : ∃ r, udpReceive buffer d = some r :=
    Option.ne_none_iff_exists'.mp fun hnone => hbytes ((udpReceive_eq_none_iff buffer d).mp hnone)
  have haddr : r.addr.sinAddr = d.src.sinAddr := congrArg SockAddr.sinAddr (udpReceive_bytes hr).1
  simp only [step, hrunning, hwaiting, receive, hr, haddr]
  constructor
  · rintro ⟨S', e, r', hstep, hmem⟩
    split at hstep
    · cases hstep
      simp at hmem
    · rename_i j hdispatch
      split at hstep
      · contradiction
      · obtain ⟨p, -, hp⟩ := Option.map_eq_some_iff.mp hstep
        cases hp
        rcases List.mem_cons.mp hmem with hmem | hmem
        · contradiction
        · rcases List.mem_cons.mp hmem with hmem | hmem
          · cases hmem
            exact hdispatch
          · exact absurd hmem dispatched_notMem_update
  · intro hdispatch
    obtain ⟨c, hcall, -, hregistered⟩ := (registryInv_of_trace h).entry hdispatch
    have hidle : c.state.receiver = .idle := by
      by_contra hbusy
      have hreceiving := receivingInv_of_trace h i c hcall hbusy
      rw [hwaiting] at hreceiving
      contradiction
    obtain ⟨p, hstep⟩ : ∃ p, c.state.deliverStep r = some p := by
      rw [ServerState.deliverStep, if_pos ⟨hidle, hregistered⟩]
      split_ifs
      · exact ⟨_, rfl⟩
      · exact ⟨_, rfl⟩
    simp only [hdispatch, hcall, CallStatus.call?, hstep, Option.map_some, Option.some.injEq]
    exact ⟨_, _, r, rfl, List.mem_cons_of_mem _ List.mem_cons_self⟩

/-! ## Keys and addresses -/

/-- Every active transaction gets the datagrams that come from the address it is for. -/
def Dispatched (S : ServerProcess) : Prop :=
  ∀ k i c, S.activeTransactions k = some i → S.calls i = .entered c →
    S.dispatch c.tran.addr.sinAddr = some i

/-- No two active transactions are for the same address. -/
def OnePerAddress (S : ServerProcess) : Prop :=
  ∀ k k' i j c d, S.activeTransactions k = some i → S.activeTransactions k' = some j →
    S.calls i = .entered c → S.calls j = .entered d → c.tran.addr.sinAddr = d.tran.addr.sinAddr → i = j

/-- A message of a transaction goes to the address that the transaction is for. -/
theorem sent_address {i : ℕ} {c : Call} {x : ServerEvent} {p : Packet}
    (h : (serverProcess udpSocket).Trace es S) (hcall : S.calls i = .entered c) (hx : .call i x ∈ es)
    (hp : x.packet? = some p) : p.dst.sinAddr = c.tran.addr.sinAddr := by
  -- the address is the one that the key stands for, and a call keeps its key
  have hkey : ∃ d, S.calls i = .entered d ∧ p.dst.sinAddr = inetAddr (cStr d.clientIp) := by
    revert hx
    refine h.invariant (I := fun es S => .call i x ∈ es →
      ∃ d, S.calls i = .entered d ∧ p.dst.sinAddr = inetAddr (cStr d.clientIp)) ?_ ?_
    · intro S _ hx
      contradiction
    · intro es S action S' e htrace ih hstep hx
      have hchange := step_change hstep
      rcases List.mem_append.mp hx with hold | hnew
      · obtain ⟨d, hd, hdst⟩ := ih hold
        obtain ⟨d', hd', hkey, -⟩ := hchange.entered hd
        exact ⟨d', hd', by rw [hkey, hdst]⟩
      · obtain ⟨d, a, s', es', hd, hmove, hmem, hd'⟩ := hchange.call hnew
        have hok := (registryInv_of_trace htrace).ok hd
        have hdst : p.dst = d.state.vars.clientAddress := by
          rcases ServerState.step_packet (sendingInv_of_trace (call_trace htrace hd)) hmove hmem hp with
            ⟨id, -, rfl⟩ | ⟨-, -, rfl⟩ | ⟨psn, -, rfl⟩
          · rfl
          · rfl
          · rfl
        refine ⟨_, hd', ?_⟩
        rw [hdst, hok.clientAddress, hok.address]
  obtain ⟨d, hd, hdst⟩ := hkey
  cases hcall.symm.trans hd
  rw [hdst, ((registryInv_of_trace h).ok hcall).address]

/-- A transaction is dispatched to under its address exactly if its key is canonical. -/
theorem dispatch_eq_iff {k : Text} {i : ℕ} {c : Call} (hinv : RegistryInv S)
    (hentry : S.activeTransactions k = some i) (hcall : S.calls i = .entered c) :
    S.dispatch c.tran.addr.sinAddr = some i ↔ Canonical k := by
  obtain ⟨d, hd, hkey, -⟩ := hinv.entry hentry
  cases hcall.symm.trans hd
  have haddress := (hinv.ok hcall).address
  rw [hkey] at haddress
  rw [canonical_iff_cStr, ← haddress]
  constructor
  · intro hdispatch
    obtain ⟨b, hb, hprinted, -⟩ := hinv.entry hdispatch
    cases hcall.symm.trans hb
    rw [← hprinted, hkey]
  · intro hcanonical
    rw [dispatch, hcanonical, hentry]

/-- Datagrams find their transactions exactly if all keys are canonical.

A transaction sends to the address that its key stands for, and a waiting receive loop hands a datagram
to the transaction under the printed address of its sender. Every active transaction gets the datagrams
that come from the address it sends to, and no two active ones share an address, if and only if each
key of the map is the canonical spelling of its address. -/
theorem dispatched_iff (h : (serverProcess udpSocket).Trace es S) :
    (∀ i c x p, S.calls i = .entered c → .call i x ∈ es → x.packet? = some p →
      p.dst.sinAddr = c.tran.addr.sinAddr) ∧
    (∀ i buffer d, S.terminated = false → S.receiving = none → d.bytes ≠ [] →
      ((∃ S' e r, S.step udpSocket (.datagram buffer d) = some (S', e) ∧ .dispatched i r ∈ e) ↔
        S.dispatch d.src.sinAddr = some i)) ∧
    ((S.Dispatched ∧ S.OnePerAddress) ↔ ∀ k i, S.activeTransactions k = some i → Canonical k) := by
  have hinv := registryInv_of_trace h
  refine ⟨fun i c x p hcall hx hp => sent_address h hcall hx hp,
    fun i buffer d hrunning hwaiting hbytes => dispatched_of_dispatch h hrunning hwaiting hbytes, ?_⟩
  constructor
  · rintro ⟨hdispatched, -⟩ k i hentry
    obtain ⟨c, hcall, -, -⟩ := hinv.entry hentry
    exact (dispatch_eq_iff hinv hentry hcall).mp (hdispatched k i c hentry hcall)
  · intro hcanonical
    have hdispatched : S.Dispatched := fun k i c hentry hcall =>
      (dispatch_eq_iff hinv hentry hcall).mpr (hcanonical k i hentry)
    refine ⟨hdispatched, fun k k' i j c d hk hk' hc hd haddr => ?_⟩
    have hi := hdispatched k i c hk hc
    rw [haddr, hdispatched k' j d hk' hd] at hi
    exact (Option.some.inj hi).symm

/-- Behind a call for `127.0.0.1` the transaction gets what comes from there. -/
theorem dispatched_localhost :
    ∃ es S, (serverProcess ⟨2, 2⟩).Trace es S ∧ S.activeTransactions localhost.clientIp = some 0 ∧
      S.Dispatched ∧ S.OnePerAddress := by
  obtain ⟨S, es, hexec, hmap⟩ : ∃ S es,
      (serverProcess ⟨2, 2⟩).exec idle [.start 0 localhost] = some (S, es) ∧
        S.activeTransactions = Function.update idle.activeTransactions localhost.clientIp (some 0) :=
    ⟨_, _, rfl, rfl⟩
  have htrace := EventMachine.exec_trace (M := serverProcess ⟨2, 2⟩) rfl hexec
  refine ⟨es, S, htrace, by rw [hmap, Function.update_self], (dispatched_iff htrace).2.2.mpr ?_⟩
  intro k i hentry
  rw [hmap] at hentry
  by_cases hk : k = localhost.clientIp
  · rw [hk]
    decide
  · rw [Function.update_of_ne hk] at hentry
    contradiction

/-- The arguments of a transfer to the same host under another spelling. -/
def loopback : StartArgs := { localhost with clientUri := "127.1:64921".toList }

/-- Under another spelling two transactions share an address, and the first gets nothing from it. -/
theorem not_dispatched_loopback :
    ∃ es S, (serverProcess ⟨2, 2⟩).Trace es S ∧ ∃ c d, S.calls 0 = .entered c ∧ S.calls 1 = .entered d ∧
      S.activeTransactions loopback.clientIp = some 0 ∧ S.activeTransactions localhost.clientIp = some 1 ∧
      c.tran.addr.sinAddr = d.tran.addr.sinAddr ∧ S.dispatch c.tran.addr.sinAddr = some 1 := by
  obtain ⟨S, es, hexec, hstate⟩ : ∃ S es,
      (serverProcess ⟨2, 2⟩).exec idle [.start 0 loopback, .start 1 localhost] = some (S, es) ∧
      ∃ c d, S.calls 0 = .entered c ∧ S.calls 1 = .entered d ∧
        S.activeTransactions loopback.clientIp = some 0 ∧ S.activeTransactions localhost.clientIp = some 1 ∧
        c.tran.addr.sinAddr = d.tran.addr.sinAddr ∧ S.dispatch c.tran.addr.sinAddr = some 1 :=
    ⟨_, _, rfl, _, _, rfl, rfl, rfl, rfl, by decide, by decide⟩
  exact ⟨es, S, EventMachine.exec_trace (M := serverProcess ⟨2, 2⟩) rfl hexec, hstate⟩

end ServerProcess

end Trftp
