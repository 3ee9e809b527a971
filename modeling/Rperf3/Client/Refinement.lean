/-
  The two readings of `client_loop` are ONE program.

  `Client.loopStep` is the loop as a party of the protocol: atomic steps over channels of units, as
  the deadlock and receipt theorems use it.  `Test.clientLoop` is the same code call by call, with
  its error paths.  On channels whose writes succeed (`channelWorld`) every run of the program is a
  run of atomic steps:

  * `clientRecv_runs` — one `client_recv`, message by message;
  * `drained` — a whole `drain_receipts`, one receipt after the other;
  * `clientLoop_runs` — the loop, by induction on the number of its iterations.
-/
import Mathlib.Logic.Relation
import Rperf3.Client.Program

namespace Rperf3

open Effect Effect.Prog

/-! ## A world of channels -/

/-- The calls of the main thread answered by the client's own channels: a poll may find nothing, a
    blocking read waits for its unit, writes succeed. -/
def channelWorld (cpu : CpuUsage) :
    (o : ClientOp) → Client → Option (Except IoError o.Ok × Client)
  | .recvByte, c =>
    match c.inbox.pop with
    | none => some (.error ⟨.wouldBlock, "Resource temporarily unavailable"⟩, c)
    | some (.byte m, rest) => some (.ok m, { c with inbox := rest })
    | some _ => none
  | .recvPort, c =>
    match c.inbox.pop with
    | some (.port p, rest) => some (.ok p, { c with inbox := rest })
    | _ => none
  | .recvResults, c =>
    match c.inbox.pop with
    | some (.results r, rest) => some (.ok r, { c with inbox := rest })
    | _ => none
  | .send i, c => some (.ok (), c.write i)
  | .setNonblocking _, c => some (.ok (), c)
  | .startStreams threads, c =>
    some (.ok (), { c with threads := c.threads ++ threads.map ClientThread.start })
  | .drainReceipts, c => some (.ok c.receiptRx, { c with receiptRx := [] })
  | .tryRecv, c =>
    match c.rxChannel with
    | [] => some (.ok none, c)
    | m :: rest => some (.ok (some m), { c with rxChannel := rest })
  | .cpuUsage _, c => some (.ok cpu, c)

/-- The client whose main thread holds the test `t` and the counters, at `pc`; the channels and
    threads are those of `c`. -/
def Test.on (t : Test) (streamsFinished : Nat) (testEndSent : Bool) (pc : ClientPc) (c : Client) :
    Client :=
  { c with
    pc := pc
    receipts := t.receipts
    streamsFinished := streamsFinished
    testEndSent := testEndSent
    isStarted := t.isStarted
    isRunning := t.isRunning
    dataPortOverride := t.dataPortOverride }

/-- Some steps of the main thread. -/
def Client.Runs (cfg : Config) (token : Option String) : Client → Client → Prop :=
  Relation.ReflTransGen fun c c' => ∃ cpu, Client.loopStep cfg token cpu c = some c'

section

variable {cfg : Config} {token : Option String} {cpu : CpuUsage} {t t' : Test} {w w' : Client}
  {k : Nat} {sent : Bool}

theorem runs_step {c c' : Client} (cpu : CpuUsage)
    (h : Client.loopStep cfg token cpu c = some c') : Client.Runs cfg token c c' :=
  Relation.ReflTransGen.single ⟨cpu, h⟩

theorem Client.Runs.trans {c c' c'' : Client} (h : Client.Runs cfg token c c')
    (h' : Client.Runs cfg token c' c'') : Client.Runs cfg token c c'' :=
  Relation.ReflTransGen.trans h h'

/-! ## What the calls find -/

theorem attempt_runIn {o : ClientOp} {r : Except IoError (Except IoError o.Ok)}
    (h : (ClientM.attempt o).runIn (channelWorld cpu) w = some (r, w')) :
    ∃ a, channelWorld cpu o w = some (a, w') ∧ r = .ok a := by
  obtain ⟨⟨a, w₁⟩, hcall, hret⟩ := Option.bind_eq_some_iff.mp h
  cases hret
  exact ⟨a, hcall, rfl⟩

theorem setNonblocking_runIn (on : Bool) :
    (ClientM.attempt (.setNonblocking on)).runIn (channelWorld cpu) w = some (.ok (.ok ()), w) :=
  rfl

theorem send_runIn (i : Item) : (ClientM.attempt (.send i)).runIn (channelWorld cpu) w =
    some (.ok (.ok ()), w.write i) := rfl

theorem sendLogged_runIn (ht : t.connected = true) (i : Item) :
    (t.sendLogged i).runIn (channelWorld cpu) w = some (.ok (), w.write i) := by
  rw [Test.sendLogged, if_pos ht]
  rfl

theorem recvPort_channelWorld {a : Except IoError Nat}
    (h : channelWorld cpu .recvPort w = some (a, w')) :
    ∃ p rest, w.inbox.pop = some (.port p, rest) ∧ a = .ok p ∧ w' = { w with inbox := rest } := by
  rw [channelWorld] at h
  split at h
  · rename_i p rest hpop
    cases h
    exact ⟨p, rest, hpop, rfl, rfl⟩
  · cases h

theorem recvResults_channelWorld {a : Except IoError Results}
    (h : channelWorld cpu .recvResults w = some (a, w')) :
    ∃ r rest, w.inbox.pop = some (.results r, rest) ∧ a = .ok r ∧
      w' = { w with inbox := rest } := by
  rw [channelWorld] at h
  split at h
  · rename_i r rest hpop
    cases h
    exact ⟨r, rest, hpop, rfl, rfl⟩
  · cases h

/-! ## Draining -/

/-- At a place that drains, the steps take the receipts one by one. -/
theorem drained {pc : ClientPc} (hpc : ∀ c : Client, c.pc = pc →
      ∃ after, Client.loopStep cfg token .zero c = some (c.drainOr after)) :
    ∀ (rs : List ClientStreamReceipt) (t : Test), Client.Runs cfg token
      (t.on k sent pc { w with receiptRx := rs })
      (Test.on { t with receipts := t.receipts ++ rs } k sent pc { w with receiptRx := [] })
  | [], t => by
    rw [List.append_nil]
    exact Relation.ReflTransGen.refl
  | r :: rs, t => by
    obtain ⟨after, hstep⟩ := hpc (t.on k sent pc { w with receiptRx := r :: rs }) rfl
    have hrest := drained hpc rs { t with receipts := t.receipts ++ [r] }
    rw [show t.receipts ++ [r] ++ rs = t.receipts ++ r :: rs from List.append_assoc ..] at hrest
    exact (runs_step .zero hstep).trans hrest

/-- `drain_receipts`, at each of its three places. -/
theorem drainReceipts_runs {pc : ClientPc} (hpc : pc = .drain ∨ pc = .exchange ∨ pc = .finalDrain)
    (h : t.drainReceipts.runIn (channelWorld cpu) w = some (.ok t', w')) :
    Client.Runs cfg token (t.on k sent pc w) (t'.on k sent pc w') ∧
      t'.connected = t.connected ∧ w'.receiptRx = [] := by
  cases h
  refine ⟨drained (fun c hc => ?_) w.receiptRx t, rfl, rfl⟩
  rcases hpc with rfl | rfl | rfl
  · exact ⟨_, by rw [Client.loopStep, hc]⟩
  · exact ⟨_, by rw [Client.loopStep, hc]⟩
  · exact ⟨_, by rw [Client.loopStep, hc]⟩

/-! ## Messages -/

/-- The second half of `exchange_results`: write ours, read theirs. -/
theorem swapResults_runs (ht : t.connected = true) (hrx : w.receiptRx = [])
    (h : (t.swapResults (buildClientResults t.receipts cpu)).runIn (channelWorld cpu) w =
      some (.ok t', w')) :
    Client.Runs cfg token (t.on k sent .exchange w) (t'.on k sent .drain w') ∧ t' = t := by
  rw [Test.swapResults, if_neg (by rw [ht]; decide), runIn_bind_ok (send_runIn _)] at h
  dsimp only at h
  rw [runIn_bind_ok (setNonblocking_runIn false)] at h
  dsimp only at h
  obtain ⟨_, w₁, hrecv, h⟩ := runIn_bind_eq_ok h
  obtain ⟨a, hcall, -⟩ := attempt_runIn hrecv
  obtain ⟨r, rest, hpop, -, rfl⟩ := recvResults_channelWorld hcall
  cases h
  have hsend : Client.loopStep cfg token cpu (t.on k sent .exchange w) =
      some (t.on k sent .readResults (w.write (.results (buildClientResults t.receipts cpu)))) := by
    simp only [Client.loopStep, Client.drainOr, Client.write, Test.on, hrx]
  refine ⟨(runs_step cpu hsend).trans (runs_step cpu ?_), rfl⟩
  simp only [Client.loopStep, Test.on, hpop]

theorem readDataPort_runs (ht : t.connected = true)
    (h : t.readDataPort.runIn (channelWorld cpu) w = some (.ok t', w')) :
    Client.Runs cfg token (t.on k sent .readPort w) (t'.on k sent .drain w') ∧
      t'.connected = true := by
  rw [Test.readDataPort, if_neg (by rw [ht]; decide)] at h
  obtain ⟨_, w₁, hmode, h⟩ := runIn_bind_eq_ok h
  cases hmode
  obtain ⟨port, w₂, hrecv, h⟩ := runIn_bind_eq_ok h
  obtain ⟨a, hcall, hport⟩ := attempt_runIn hrecv
  cases hport
  obtain ⟨p, rest, hpop, rfl, rfl⟩ := recvPort_channelWorld hcall
  cases h
  refine ⟨runs_step cpu ?_, ht⟩
  replace hpop : w.inbox.pop = some (.port p, rest) := hpop
  simp only [Client.loopStep, Test.on, hpop]

theorem exchangeResults_runs (ht : t.connected = true)
    (h : t.exchangeResults.runIn (channelWorld cpu) w = some (.ok t', w')) :
    Client.Runs cfg token (t.on k sent .exchange w) (t'.on k sent .drain w') ∧
      t'.connected = true := by
  obtain ⟨t₁, w₁, hdrain, h⟩ := runIn_bind_eq_ok h
  obtain ⟨hruns, hconn, hrx⟩ := drainReceipts_runs (Or.inr (Or.inl rfl)) hdrain
  obtain ⟨c, w₂, hcpu, h⟩ := runIn_bind_eq_ok h
  cases hcpu
  obtain ⟨hswap, rfl⟩ := swapResults_runs (hconn.trans ht) hrx h
  exact ⟨hruns.trans hswap, hconn.trans ht⟩

/-- Where `client_recv` leaves the loop. -/
def afterRecv (isDone : Bool) : ClientPc := if isDone then .finalDrain else .drain

/-- **Every message** is handled alike. -/
theorem handleMessageClient_runs (ht : t.connected = true) {m : Message} {isDone : Bool}
    (h : (t.handleMessageClient cfg token m).runIn (channelWorld cpu) w =
      some (.ok (isDone, t'), w')) :
    Client.Runs cfg token (Client.handleMessage cfg token m (t.on k sent .poll w))
      (t'.on k sent (afterRecv isDone) w') ∧ t'.connected = true := by
  cases m with
  | paramExchange =>
    rw [Test.handleMessageClient, runIn_bind_ok (sendLogged_runIn ht _)] at h
    cases h
    exact ⟨Relation.ReflTransGen.refl, ht⟩
  | exchangeResults =>
    obtain ⟨t₁, w₁, hex, h⟩ := runIn_bind_eq_ok h
    cases h
    have hruns : Client.Runs cfg token (t.on k sent .exchange w) (t'.on k sent .drain w') ∧ _ :=
      exchangeResults_runs ht hex
    exact hruns
  | setDataPort =>
    obtain ⟨t₁, w₁, hport, h⟩ := runIn_bind_eq_ok h
    cases h
    have hruns : Client.Runs cfg token (t.on k sent .readPort w) (t'.on k sent .drain w') ∧ _ :=
      readDataPort_runs ht hport
    exact hruns
  | displayResults =>
    rw [Test.handleMessageClient, runIn_bind_ok (sendLogged_runIn ht _)] at h
    cases h
    exact ⟨Relation.ReflTransGen.refl, ht⟩
  | _ =>
    cases h
    exact ⟨Relation.ReflTransGen.refl, ht⟩

/-- `client_recv`. -/
theorem clientRecv_runs (ht : t.connected = true) {isDone : Bool}
    (h : (t.clientRecv cfg token).runIn (channelWorld cpu) w = some (.ok (isDone, t'), w')) :
    Client.Runs cfg token (t.on k sent .poll w) (t'.on k sent (afterRecv isDone) w') ∧
      t'.connected = true := by
  rw [Test.clientRecv, if_neg (by rw [ht]; decide)] at h
  obtain ⟨r, w₁, hrecv, h⟩ := runIn_bind_eq_ok h
  obtain ⟨a, hcall, hr⟩ := attempt_runIn hrecv
  cases hr
  rw [channelWorld] at hcall
  split at hcall
  · -- the poll has found nothing
    rename_i hpop
    cases hcall
    cases h
    refine ⟨runs_step cpu ?_, ht⟩
    simp only [Client.loopStep, Test.on, hpop]
    rfl
  · rename_i m rest hpop
    cases hcall
    obtain ⟨hruns, hconn⟩ := handleMessageClient_runs ht h
    refine ⟨(runs_step cpu ?_).trans hruns, hconn⟩
    simp only [Client.loopStep, Test.on, hpop]
  · cases hcall

/-! ## The loop -/

/-- At most one notice is taken and counted. -/
theorem notice_runs (ht : t.connected = true) {notice : Option Message} {w₁ : Client} {k' : Nat}
    {sent' : Bool} (htake : ClientM.tryRecv.runIn (channelWorld cpu) w = some (.ok notice, w₁))
    (hcount : (t.countNotice cfg k sent notice).runIn (channelWorld cpu) w₁ =
      some (.ok (k', sent'), w')) :
    Client.Runs cfg token (t.on k sent .tryRecv w) (t.on k' sent' .poll w') := by
  refine runs_step cpu ?_
  have hcall : channelWorld cpu .tryRecv w = some (.ok notice, w₁) :=
    (runIn_perform _ _).symm.trans htake
  rw [channelWorld] at hcall
  split at hcall
  · rename_i hrx
    cases hcall
    cases hcount
    simp only [Client.loopStep, Test.on, hrx]
  · rename_i m rest hrx
    cases hcall
    cases m with
    | testEnd =>
      rw [Test.countNotice] at hcount
      simp only [Client.loopStep, Test.on, hrx, Client.finishStream]
      split at hcount
      · rename_i hall
        cases hcount
        rw [if_pos ⟨hall.1, hall.2.1⟩]
        rfl
      · rename_i hall
        cases hcount
        rw [if_neg fun h => hall ⟨h.1, h.2, ht⟩]
    | _ =>
      cases hcount
      simp only [Client.loopStep, Test.on, hrx]

/-- **The program is a run of the atomic steps.**  After `n` iterations the loop is at its poll
    again, or it has ended with the test it returns. -/
theorem clientLoop_runs (n : Nat) : ∀ {t : Test} {w w' : Client} {k : Nat} {sent : Bool}
    {result : Option Test}, t.connected = true →
    (Test.clientLoop cfg token n t k sent).runIn (channelWorld cpu) w = some (.ok result, w') →
    ∃ (t' : Test) (k' : Nat) (sent' : Bool), (result = none ∨ result = some t') ∧
      Client.Runs cfg token (t.on k sent .poll w)
        (t'.on k' sent' (if result.isSome then .done else .poll) w') := by
  induction n with
  | zero =>
    intro t w w' k sent result _ h
    cases h
    exact ⟨t, k, sent, Or.inl rfl, Relation.ReflTransGen.refl⟩
  | succ n ih =>
    intro t w w' k sent result ht h
    rw [Test.clientLoop] at h
    obtain ⟨⟨isDone, t₁⟩, w₁, hrecv, h⟩ := runIn_bind_eq_ok h
    obtain ⟨hruns, ht₁⟩ := clientRecv_runs ht hrecv
    cases isDone with
    | true =>
      obtain ⟨t₂, w₂, hdrain, h⟩ := runIn_bind_eq_ok h
      obtain ⟨hdrained, -, hrx⟩ := drainReceipts_runs (Or.inr (Or.inr rfl)) hdrain
      cases h
      refine ⟨t₂, k, sent, Or.inr rfl, (hruns.trans hdrained).trans (runs_step cpu ?_)⟩
      simp only [Client.loopStep, Client.drainOr, Test.on, hrx]
      rfl
    | false =>
      obtain ⟨t₂, w₂, hdrain, h⟩ := runIn_bind_eq_ok h
      obtain ⟨hdrained, ht₂, hrx⟩ := drainReceipts_runs (Or.inl rfl) hdrain
      obtain ⟨notice, w₃, htake, h⟩ := runIn_bind_eq_ok h
      obtain ⟨⟨k', sent'⟩, w₄, hcount, h⟩ := runIn_bind_eq_ok h
      have hstep : Client.Runs cfg token (t₂.on k sent .drain w₂) (t₂.on k sent .tryRecv w₂) := by
        refine runs_step cpu ?_
        simp only [Client.loopStep, Client.drainOr, Test.on, hrx]
      have hnotice : Client.Runs cfg token (t₂.on k sent .tryRecv w₂) (t₂.on k' sent' .poll w₄) :=
        notice_runs (ht₂.trans ht₁) htake hcount
      obtain ⟨t', k'', sent'', hresult, hrest⟩ := ih (ht₂.trans ht₁) h
      exact ⟨t', k'', sent'', hresult,
        (((hruns.trans hdrained).trans hstep).trans hnotice).trans hrest⟩

end

end Rperf3
