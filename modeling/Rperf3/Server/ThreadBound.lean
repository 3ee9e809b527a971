/-
  HOW MANY THREADS the concurrent server can be made to run.

  `validate_options` bounds the streams of one session, the registry bounds the sessions, and the
  per-IP counter those of one address.  Together they bound the threads of all sessions that are
  still counted, over every run of the server and whatever its clients do; they say nothing about
  threads that a session has left behind.

  1. `spawnBudget` — a discipline that only looks at `spawn`: a session never starts a thread beyond
     `sessionThreads`.
  2. `runUdpReceiver_unstopped` — a receiver whose flag stays down does not end.
  3. `Demux.driven` — what a session of the server has done is an unfinished run of its driver.
  4. `live_threads_le` — the bound, by registry entries and by addresses.
  5. `receivers_accumulate` — clients that hang up during a UDP test leave one receiver each, and
     the server ends up with any number of them and an empty registry.
-/
import Mathlib.Algebra.Order.BigOperators.Group.List
import Rperf3.Common.UdpGrace
import Rperf3.Server.Abandoned
import Rperf3.Server.Conduct
import Rperf3.Server.DemuxRouting
import Rperf3.Server.SlotRelease

namespace Rperf3

open Effect Effect.Prog Discipline Transition

/-! ## One session -/

/-- The threads behind a job: `run_tcp_send_streams` in a thread of its own starts one more per
    stream. -/
def Job.threads : Job → Nat
  | .tcpSendStreams cs _ => cs.length + 1
  | _ => 1

/-- As many as a test both ways over the largest number of streams needs. -/
def sessionThreads : Nat := 2 * maxParallelStreams + 1

def spawnMay (n : Nat) : Op → Prop
  | .spawn j => n + j.threads ≤ sessionThreads
  | _ => True

def countSpawn (n : Nat) : (o : Op) → Except Stop o.Ok → Nat
  | .spawn j, .ok _ => n + j.threads
  | _, _ => n

/-- Threads are started within the budget; the phase is the number started. -/
def spawnBudget : Discipline Op Op.Ok Stop Nat where
  may := spawnMay
  answers _ := streamsCounted
  next := countSpawn

/-- The threads started in a transcript. -/
def threadsStarted (tr : Transcript) : Nat := spawnBudget.after 0 tr

section Rules

variable {α β : Type} {n : Nat}

/-- From `n`, the program stays within the budget, and returns only with `R`. -/
abbrev Budgeted (p : Session α) (n : Nat) (R : Nat → α → Prop) : Prop :=
  spawnBudget.Ensures p n R fun _ => True

def Op.isSpawn : Op → Bool
  | .spawn _ => true
  | _ => false

theorem overlooks_of_isSpawn {o : Op} (h : o.isSpawn = false) : spawnBudget.Overlooks n o := by
  cases o with
  | spawn j => cases h
  | _ => exact ⟨trivial, fun _ => rfl⟩

theorem opening_spawnBudget (n : Nat) : Opening spawnBudget n := by
  intro o ho
  refine overlooks_of_isSpawn ?_
  cases o with
  | spawn j => cases ho
  | _ => rfl

/-- A program that starts no thread. -/
def Idle (p : Session α) : Prop := Uses (fun o => o.isSpawn = false) p

theorem idle_call {o : Op} (h : o.isSpawn = false) : Idle (call o) := ⟨h, fun _ => trivial⟩

theorem Idle.budgeted {p : Session α} (hp : Idle p) : Budgeted p n fun _ _ => True :=
  ensures_of_overlooks (uses_mono (fun _ => overlooks_of_isSpawn) hp) trivial fun _ => trivial

theorem Idle.bind {p : Session α} (hp : Idle p) {f : α → Session β} {R : Nat → β → Prop}
    (hf : ∀ v, Budgeted (f v) n R) : Budgeted (p >>= f) n R :=
  ensures_overlooked_bind (uses_mono (fun _ => overlooks_of_isSpawn) hp) trivial hf

end Rules

/-! ### Starting threads -/

section Spawning

variable {β : Type} {n : Nat}

theorem budgeted_spawn_bind {j : Job} {f : Unit → Session β} {R : Nat → β → Prop}
    (hroom : n + j.threads ≤ sessionThreads) (hf : Budgeted (f ()) (n + j.threads) R) :
    Budgeted (spawn j >>= f) n R :=
  ensures_perform_bind (o := Op.spawn j) hroom (fun _ _ => trivial) fun _ _ => hf

/-- Threads of one stream each. -/
theorem budgeted_spawnAll_bind {js : List Job} {f : Unit → Session β} {R : Nat → β → Prop}
    (hone : ∀ j ∈ js, j.threads = 1) (hroom : n + js.length ≤ sessionThreads)
    (hf : Budgeted (f ()) (n + js.length) R) : Budgeted (spawnAll js >>= f) n R := by
  induction js generalizing n with
  | nil => exact hf
  | cons j js ih =>
    obtain ⟨hj, hjs⟩ := List.forall_mem_cons.mp hone
    rw [List.length_cons] at hroom hf
    show Budgeted ((spawn j >>= fun _ => spawnAll js) >>= f) n R
    rw [bind_assoc]
    refine budgeted_spawn_bind (by omega) (ih hjs (by omega) ?_)
    rw [hj, Nat.add_assoc, Nat.add_comm 1]
    exact hf

theorem budgeted_spawnUdpSenders_bind {js : List Job} {f : Unit → Session β} {R : Nat → β → Prop}
    (hone : ∀ j ∈ js, j.threads = 1) (hroom : n + js.length ≤ sessionThreads)
    (hf : Budgeted (f ()) (n + js.length) R) : Budgeted (spawnUdpSenders js >>= f) n R := by
  induction js generalizing n with
  | nil => exact hf
  | cons j js ih =>
    obtain ⟨hj, hjs⟩ := List.forall_mem_cons.mp hone
    rw [List.length_cons] at hroom hf
    have hclone : Idle (expect "udp try_clone" cloneUdp) := by
      refine uses_onResult (idle_call rfl) fun r => ?_
      rcases r with (e | m) | u
      · trivial
      · trivial
      · trivial
    show Budgeted ((expect "udp try_clone" cloneUdp >>= fun _ => spawn j >>= fun _ =>
      spawnUdpSenders js) >>= f) n R
    rw [bind_assoc]
    refine hclone.bind fun _ => ?_
    rw [bind_assoc]
    refine budgeted_spawn_bind (by omega) (ih hjs (by omega) ?_)
    rw [hj, Nat.add_assoc, Nat.add_comm 1]
    exact hf

theorem idle_joinOr (d : List StreamReceipt) (j : Job) : Idle (joinOr d j) := by
  refine uses_bind (uses_attempt (idle_call rfl)) fun r => ?_
  cases r with
  | ok rs => trivial
  | error e => trivial

theorem idle_joinStreamTotals (js : List Job) : Idle (joinStreamTotals js) := by
  induction js with
  | nil => trivial
  | cons j js ih =>
    exact uses_bind (idle_joinOr _ j) fun _ => uses_bind ih fun _ => trivial

theorem idle_waitForTestEnd : Idle waitForTestEnd := uses_bind (idle_call rfl) fun _ => trivial

theorem idle_ignore_wait : Idle (ignore waitForTestEnd) := uses_ignore idle_waitForTestEnd

theorem threads_of_mem_readerJobs {cs : List Conn} {w : Nat} :
    ∀ j ∈ readerJobs cs w, j.threads = 1 := by
  intro j hj
  obtain ⟨p, -, rfl⟩ := List.mem_map.mp hj
  rfl

theorem threads_of_mem_tcpSenderJobs {cs : List Conn} {o : ClientOptions} :
    ∀ j ∈ tcpSenderJobs cs o, j.threads = 1 := by
  intro j hj
  obtain ⟨p, -, rfl⟩ := List.mem_map.mp hj
  rfl

theorem threads_of_mem_udpSenderJobs {addrs : List SocketAddr} {o : ClientOptions} :
    ∀ j ∈ udpSenderJobs addrs o, j.threads = 1 := by
  intro j hj
  obtain ⟨p, -, rfl⟩ := List.mem_map.mp hj
  rfl

end Spawning

/-! ### Transfers -/

section Transfers

variable {opts : ClientOptions} {cs : List Conn} {addrs : List SocketAddr}

theorem budgeted_tcpForward (hcs : cs.length ≤ maxParallelStreams) :
    Budgeted (tcpForward cs opts) 0 fun _ _ => True := by
  have hroom : 0 + (readerJobs cs (omitWindow opts)).length ≤ sessionThreads := by
    rw [length_readerJobs]
    unfold sessionThreads
    omega
  refine budgeted_spawnAll_bind threads_of_mem_readerJobs hroom ?_
  exact idle_waitForTestEnd.bind fun _ => (idle_joinStreamTotals _).budgeted

theorem budgeted_tcpReverse (hcs : cs.length ≤ maxParallelStreams) :
    Budgeted (tcpReverse cs opts) 0 fun _ _ => True := by
  have hroom : 0 + (tcpSenderJobs cs opts).length ≤ sessionThreads := by
    rw [length_tcpSenderJobs]
    unfold sessionThreads
    omega
  unfold tcpReverse runTcpSendStreams
  rw [bind_assoc]
  refine budgeted_spawnAll_bind threads_of_mem_tcpSenderJobs hroom ?_
  refine (idle_joinStreamTotals _).bind fun _ => ?_
  exact idle_ignore_wait.bind fun _ => ensures_pure trivial

theorem budgeted_cloneAll (cs : List Conn) :
    Budgeted (cloneAll cs) 0 fun n halves => n = 0 ∧ halves.length = cs.length := by
  induction cs with
  | nil => exact ensures_pure ⟨rfl, rfl⟩
  | cons c cs ih =>
    refine (idle_call rfl).bind fun half => ?_
    refine Ensures.bind ih ?_
    rintro _ halves ⟨rfl, hlen⟩
    exact ensures_pure ⟨rfl, congrArg (· + 1) hlen⟩

/-- Both ways: the sender's threads and the readers fill the budget. -/
theorem budgeted_tcpBidirectional (hcs : cs.length ≤ maxParallelStreams) :
    Budgeted (tcpBidirectional cs opts) 0 fun _ _ => True := by
  refine (budgeted_cloneAll cs).bind ?_
  rintro _ halves ⟨rfl, hlen⟩
  have hsender : (Job.tcpSendStreams halves opts).threads = cs.length + 1 := by
    rw [← hlen]
    rfl
  have hreaders := length_readerJobs cs (omitWindow opts)
  refine budgeted_spawn_bind (by unfold sessionThreads; omega) ?_
  refine budgeted_spawnAll_bind threads_of_mem_readerJobs (by unfold sessionThreads; omega) ?_
  refine idle_waitForTestEnd.bind fun _ => ?_
  refine (idle_joinStreamTotals _).bind fun _ => ?_
  exact (idle_joinOr _ _).bind fun _ => ensures_pure trivial

theorem budgeted_udpForward : Budgeted (udpForward addrs opts) 0 fun _ _ => True := by
  refine budgeted_spawn_bind (Nat.le_add_left _ _) ?_
  refine idle_waitForTestEnd.bind fun _ => ?_
  exact (idle_call rfl).bind fun _ => (idle_joinOr _ _).budgeted

theorem budgeted_runUdpSendStreams {n : Nat} (hroom : n + addrs.length ≤ sessionThreads) :
    Budgeted (runUdpSendStreams addrs opts) n fun _ _ => True := by
  rw [← length_udpSenderJobs addrs opts] at hroom
  exact budgeted_spawnUdpSenders_bind threads_of_mem_udpSenderJobs hroom
    (idle_joinStreamTotals _).budgeted

theorem budgeted_udpBidirectional (haddrs : addrs.length ≤ maxParallelStreams) :
    Budgeted (udpBidirectional addrs opts) 0 fun _ _ => True := by
  have hone : (Job.udpReceiver addrs (omitWindow opts)).threads = 1 := rfl
  refine (idle_call rfl).bind fun _ => ?_
  refine budgeted_spawn_bind (Nat.le_add_left _ _) ?_
  refine Ensures.bind (budgeted_runUdpSendStreams (by unfold sessionThreads; omega))
    fun n sent _ => ?_
  refine idle_ignore_wait.bind fun _ => ?_
  refine (idle_call rfl).bind fun _ => ?_
  exact (idle_joinOr _ _).bind fun _ => ensures_pure trivial

end Transfers

/-! ### The drivers -/

theorem budgeted_transfers (entry : Entry) (cookie : Bytes) {opts : ClientOptions}
    (hvalid : validateOptions opts = .ok ()) :
    Transfers spawnBudget entry cookie opts 0 (fun _ => True) fun _ => True := by
  have hmax : opts.parallel ≤ maxParallelStreams := ((validateOptions_ok_iff opts).mp hvalid).1.2
  have haddrs : ∀ addrs : List SocketAddr,
      streamsCounted (.acceptUdpStreams cookie opts.parallel) (.ok addrs) →
      addrs.length ≤ maxParallelStreams := fun addrs h => Nat.le_trans (Nat.le_of_eq h) hmax
  exact {
    tcpForward := fun _ _ _ cs hlen => budgeted_tcpForward (hlen ▸ hmax)
    tcpReverse := fun _ _ cs hlen => budgeted_tcpReverse (hlen ▸ hmax)
    tcpBoth := fun _ _ _ cs hlen => budgeted_tcpBidirectional (hlen ▸ hmax)
    udpForward := fun _ _ _ addrs _ => budgeted_udpForward
    udpReverse := fun _ _ _ addrs h => budgeted_runUdpSendStreams (by
      have := haddrs addrs h
      unfold sessionThreads
      omega)
    udpBoth := fun _ _ addrs h => budgeted_udpBidirectional (haddrs addrs h) }

theorem idle_tolerateClosed {p : Session Unit} (hp : Idle p) : Idle (tolerateClosed p) := by
  refine uses_bind (uses_attempt hp) fun r => ?_
  cases r with
  | ok u => trivial
  | error e =>
    show Idle (if isPeerClosed e then pure () else fail (Stop.io e) : Session Unit)
    split
    · trivial
    · trivial

theorem idle_reportResults (timeout : Option Nat) (receipts : List StreamReceipt) :
    Idle (reportResults timeout receipts) := by
  have hexchange : ∀ cpu, Idle (exchangeResults receipts cpu) := by
    intro cpu
    refine uses_bind (idle_call rfl) fun _ => ?_
    refine uses_bind (uses_ignore (idle_call rfl)) fun _ => ?_
    refine uses_bind (uses_attempt (idle_call rfl)) fun r => ?_
    cases r with
    | ok theirs => trivial
    | error e =>
      show Idle (if isPeerClosed e then pure () else fail (Stop.io ⟨e.kind, e.msg⟩) : Session Unit)
      split
      · trivial
      · trivial
  have hfinalize : Idle finalizeTest :=
    uses_bind (idle_call rfl) fun _ => uses_bind (idle_call rfl) fun _ => trivial
  refine uses_bind (idle_call rfl) fun _ => ?_
  refine uses_bind (idle_call rfl) fun cpu => ?_
  refine uses_bind (idle_tolerateClosed (hexchange cpu)) fun _ => ?_
  exact uses_bind (idle_tolerateClosed hfinalize) fun _ => trivial

theorem budgeted_sessionProgram (entry : Entry) (auth : AuthConfig) (cookie : Bytes)
    (timeout : Option Nat) :
    Budgeted (sessionProgram entry auth cookie timeout) 0 fun _ _ => True := by
  have hrecv : Budgeted recvOptions 0 fun n _ => n = 0 :=
    ensures_of_overlooks (uses_mono (fun _ => overlooks_of_isSpawn) (idle_call rfl)) trivial
      fun _ => rfl
  exact overlook_sessionProgram (p := fun _ => 0) auth cookie (opening_spawnBudget 0) trivial
    (fun _ => opening_spawnBudget 0) (fun _ => trivial) hrecv
    (fun cookie opts hvalid => budgeted_transfers entry cookie hvalid)
    (fun _ _ => idle_ignore_wait.budgeted) fun _ receipts _ =>
      (idle_reportResults timeout receipts).budgeted

/-- At no point of its run has a session started more threads than the budget has. -/
theorem threadsStarted_le {entry : Entry} {auth : AuthConfig} {cookie : Bytes}
    {timeout : Option Nat} {tr : Transcript} {q : Session Nat}
    (h : Steps (sessionProgram entry auth cookie timeout) tr q) (hcounted : UdpStreamsCounted tr) :
    threadsStarted tr ≤ sessionThreads := by
  have hanswered : spawnBudget.Answered tr := fun ev hev _ => hcounted ev hev
  have hallows : spawnBudget.Allows 0 tr :=
    wp_steps_answered h (budgeted_sessionProgram entry auth cookie timeout) hanswered
  refine Allows.invariant (I := (· ≤ sessionThreads)) (fun n o r hn hmay _ => ?_) hallows hanswered
    (Nat.zero_le _)
  cases o with
  | spawn j =>
    cases r with
    | ok u => exact hmay
    | error e => exact hn
  | _ => exact hn

/-! ## A receiver without its flag -/

/-- An iteration that sees the flag down and a working socket. -/
def Tick.Unstopped (t : Tick) : Prop := t.stop = false ∧ t.outcome.leaves = false

theorem loop_unstopped {omitWindow : Nat} {ticks : List Tick} (h : ∀ t ∈ ticks, t.Unstopped) :
    ∀ r : Receiver, Receiver.loop omitWindow ticks r = none := by
  induction ticks with
  | nil => exact fun _ => rfl
  | cons t ticks ih =>
    intro r
    obtain ⟨ht, hrest⟩ := List.forall_mem_cons.mp h
    have hstays : (r.tick omitWindow t).2 = false := by
      rw [(tick_cases omitWindow t r).1, ht.2]
      unfold Receiver.checkStop
      rw [ht.1, if_neg Bool.false_ne_true]
      rfl
    rw [loop_cons, hstays, if_neg Bool.false_ne_true]
    exact ih hrest _

theorem runUdpReceiver_unstopped {order : List SocketAddr} {omitWindow : Nat} {ticks : List Tick}
    (h : ∀ t ∈ ticks, t.Unstopped) : runUdpReceiver order omitWindow ticks = none := by
  unfold runUdpReceiver
  rw [loop_unstopped h]
  rfl

/-! ## The whole server -/

namespace Demux

variable {maxConcurrent : Nat} {timeout : Option Nat} {s : Demux}

/-- A delivery changes a channel, not what the session does. -/
theorem mem_deliver {cookie : Bytes} {c : Conn} {x : ChannelSession} (h : x ∈ s.deliver cookie c) :
    ∃ y ∈ s.sessions, x.auth = y.auth ∧ x.transcript = y.transcript ∧ x.rest = y.rest := by
  unfold deliver at h
  split at h
  · exact ⟨x, h, rfl, rfl, rfl⟩
  · split at h
    · rename_i t y ht hy
      split at h
      · rcases List.mem_or_eq_of_mem_set h with hmem | rfl
        · exact ⟨x, hmem, rfl, rfl, rfl⟩
        · exact ⟨y, List.mem_of_getElem? hy, rfl, rfl, rfl⟩
      · exact ⟨x, h, rfl, rfl, rfl⟩
    · exact ⟨x, h, rfl, rfl, rfl⟩

/-- What a session has done so far is an unfinished run of its driver. -/
theorem driven (h : (system maxConcurrent timeout).Reachable s) : ∀ x ∈ s.sessions, ∃ cookie,
    Steps (serveSessionFromChannel x.auth cookie timeout) x.transcript x.rest := by
  refine h.invariant (I := fun s => ∀ x ∈ s.sessions, ∃ cookie,
    Steps (serveSessionFromChannel x.auth cookie timeout) x.transcript x.rest) ?_ ?_
  · rintro _ rfl x hx
    cases hx
  · intro a u v hu hstep x hx
    cases moves_of_step hstep with
    | quiet ha hloop => exact hu x hx
    | accept hcookie hpc => exact hu x hx
    | dispatch hheld hpc =>
      obtain ⟨y, hy, hauth, htr, hrest⟩ := mem_deliver hx
      rw [hauth, htr, hrest]
      exact hu y hy
    | @register cookie ip auth hpc =>
      rcases List.mem_append.mp hx with hx | hx
      · exact hu x hx
      · rw [List.mem_singleton.mp hx]
        exact ⟨cookie, .refl _⟩
    | perform hy hrest hanswer =>
      rcases List.mem_or_eq_of_mem_set hx with hx | rfl
      · exact hu x hx
      · obtain ⟨cookie, hsteps⟩ := hu _ (List.mem_of_getElem? hy)
        rw [hrest] at hsteps
        exact ⟨cookie, steps_concat _ hsteps⟩

/-- The threads that the sessions of certain session threads have started. -/
def threadsOf (s : Demux) (keep : SessionThread → Bool) : Nat :=
  (((s.loop.threads.zip s.sessions).filter fun p => keep p.1).map fun p =>
    threadsStarted p.2.transcript).sum

theorem threadsOf_le (h : (system maxConcurrent timeout).Reachable s)
    (hcounted : ∀ x ∈ s.sessions, UdpStreamsCounted x.transcript) (keep : SessionThread → Bool) :
    s.threadsOf keep ≤ s.loop.threads.countP keep * sessionThreads := by
  have hpaired : s.sessions.length = s.loop.threads.length := (inv_reachable h).paired
  have hlen : ((s.loop.threads.zip s.sessions).filter fun p => keep p.1).length =
      s.loop.threads.countP keep := by
    rw [← List.countP_eq_length_filter]
    conv_rhs => rw [← List.map_fst_zip (Nat.le_of_eq hpaired.symm), List.countP_map]
    rfl
  have hle : ∀ n ∈ ((s.loop.threads.zip s.sessions).filter fun p => keep p.1).map
      (fun p => threadsStarted p.2.transcript), n ≤ sessionThreads := by
    intro n hn
    obtain ⟨p, hp, rfl⟩ := List.mem_map.mp hn
    have hx : p.2 ∈ s.sessions := (List.of_mem_zip (List.mem_filter.mp hp).1).2
    obtain ⟨cookie, hsteps⟩ := driven h p.2 hx
    have hprogram : Steps (sessionProgram .channel p.2.auth cookie timeout) p.2.transcript
        p.2.rest := hsteps
    exact threadsStarted_le hprogram (hcounted p.2 hx)
  have hsum := List.sum_le_card_nsmul _ _ hle
  rw [List.length_map, hlen, Nat.nsmul_eq_mul] at hsum
  exact hsum

/-! ### Clients that hang up -/

/-- Everything succeeds until the wait for `TestEnd` of a UDP test, when the client hangs up. -/
def hangUp : (o : Op) → Except Stop o.Ok
  | .recvOptions => .ok forwardUdpOptions
  | .udpPort => .ok (40000 : Nat)
  | .acceptUdpStreams _ _ => .ok [⟨2130706433, 40001⟩]
  | .awaitByte _ => .error (.io ⟨.unexpectedEof, "control channel closed"⟩)
  | .send _ => .ok ()
  | .bindUdp _ _ => .ok ()
  | .setUdpTimeout _ => .ok ()
  | .setReadTimeout _ => .ok ()
  | .spawn _ => .ok ()
  | _ => .error (.io ⟨.other, "unused"⟩)

/-- The session thread performs several operations. -/
def advances (answer : (o : Op) → Except Stop o.Ok) : Nat → ChannelSession → Option ChannelSession
  | 0, x => some x
  | n + 1, x => (x.advance answer).bind (advances answer n)

theorem leads_performs {xs : List ChannelSession} {t : SessionThread}
    (ht : s.loop.threads[xs.length]? = some t) (hserving : t.phase = .serving)
    (answer : (o : Op) → Except Stop o.Ok) (n : Nat) : ∀ {x x' : ChannelSession},
      advances answer n x = some x' →
      (system maxConcurrent timeout).Leads { s with sessions := xs ++ [x] }
        { s with sessions := xs ++ [x'] } := by
  induction n with
  | zero =>
    intro x x' h
    obtain rfl := Option.some.inj h
    exact .refl _
  | succ n ih =>
    intro x x' h
    obtain ⟨y, hy, hrest⟩ := Option.bind_eq_some_iff.mp h
    refine .head (.perform xs.length answer) ?_ (ih hrest)
    show (s.loop.threads[xs.length]?).bind _ = _
    rw [ht, Option.bind_some, if_pos hserving]
    show ((xs ++ [x])[xs.length]?).bind _ = _
    rw [List.getElem?_concat_length, Option.bind_some, hy, Option.map_some]
    show some { s with sessions := (xs ++ [x]).set xs.length y } = _
    rw [List.set_append_right _ _ (Nat.le_refl _), Nat.sub_self]
    rfl

/-- What such a session has come to. -/
def hungUp (timeout : Option Nat) (control : Nat) : ChannelSession :=
  ⟨none, control, Fifo.empty, hungUpRun sessionCookie timeout,
    .ret (.error (.io ⟨.unexpectedEof, "control channel closed"⟩))⟩

theorem advances_hungUp (timeout : Option Nat) (control : Nat) :
    advances hangUp 14 (ChannelSession.new none sessionCookie timeout control) =
      some (hungUp timeout control) := rfl

/-- The server between two clients. -/
def idleServer (ts : List SessionThread) (hs : List Conn) (xs : List ChannelSession) : Demux :=
  ⟨⟨∅, ∅, ts, .waiting⟩, none, hs, xs⟩

section HangUp

variable (ts : List SessionThread) (hs : List Conn) (xs : List ChannelSession)

/-- The last session thread, in phase `ph`. -/
def lastThread (ph : Phase) : List SessionThread := ts ++ [⟨sessionCookie, ownConn.peer.ip, ph⟩]

theorem getElem?_lastThread (ph : Phase) :
    (lastThread ts ph)[ts.length]? = some ⟨sessionCookie, ownConn.peer.ip, ph⟩ :=
  List.getElem?_concat_length

theorem set_lastThread (ph ph' : Phase) :
    (lastThread ts ph).set ts.length ⟨sessionCookie, ownConn.peer.ip, ph'⟩ = lastThread ts ph' := by
  unfold lastThread
  rw [List.set_append_right _ _ (Nat.le_refl _), Nat.sub_self]
  rfl

/-- The server with one client, whose session is `x` and whose thread is in phase `ph`. -/
def withClient (ph : Phase) (x : ChannelSession) : Demux :=
  ⟨⟨AList.insert sessionCookie ts.length ∅,
      (AList.insert ownConn.peer.ip 0 ∅).insert ownConn.peer.ip 1, lastThread ts ph, .waiting⟩,
    none, hs ++ [ownConn], xs ++ [x]⟩

/-- A client is admitted by an idle server, and its thread runs. -/
theorem leads_admitted (hmax : 1 < maxConcurrent) :
    (system maxConcurrent timeout).Leads (idleServer ts hs xs)
      (withClient ts hs xs .serving
        (ChannelSession.new none sessionCookie timeout hs.length)) := by
  let ip := ownConn.peer.ip
  let one : Table Nat Nat := (AList.insert ip 0 ∅).insert ip 1
  let reg : Table Bytes Nat := AList.insert sessionCookie ts.length ∅
  let new := ChannelSession.new none sessionCookie timeout hs.length
  have hdispatch : AcceptLoop.dispatch maxConcurrent sessionCookie ip
      ⟨∅, ∅, ts, .holding sessionCookie ip⟩ = ⟨∅, one, ts, .acquired sessionCookie ip⟩ := by
    have hroom : ¬ maxConcurrent ≤ Table.size (∅ : Table Bytes Nat) := by
      show ¬ maxConcurrent ≤ 0
      omega
    exact (if_neg Bool.false_ne_true).trans (if_neg hroom)
  have hcontrol : (hs ++ [ownConn]).length - 1 = hs.length := by
    rw [List.length_append]
    exact Nat.add_sub_cancel _ _
  refine .head (u := ⟨⟨∅, ∅, ts, .cookieRead sessionCookie ip⟩, some ownConn, hs, xs⟩)
    (.accept ownConn) rfl ?_
  refine .head (u := ⟨⟨∅, ∅, ts, .holding sessionCookie ip⟩, some ownConn, hs, xs⟩)
    .lockRegistry rfl ?_
  refine .head (u := ⟨⟨∅, one, ts, .acquired sessionCookie ip⟩, none, hs ++ [ownConn], xs⟩)
    .dispatch ?_ ?_
  · show some (Demux.mk (AcceptLoop.dispatch maxConcurrent sessionCookie ip
      ⟨∅, ∅, ts, .holding sessionCookie ip⟩) none (hs ++ [ownConn]) xs) = _
    rw [hdispatch]
  refine .head (u := ⟨⟨reg, one, lastThread ts .starting, .spawning ts.length⟩, none,
    hs ++ [ownConn], xs ++ [new]⟩) (.register none) ?_ ?_
  · show some (Demux.mk _ none (hs ++ [ownConn]) (xs ++ [ChannelSession.new none sessionCookie
      timeout ((hs ++ [ownConn]).length - 1)])) = _
    rw [hcontrol]
    rfl
  refine .head .spawnThread ?_ (.refl _)
  show (((lastThread ts .starting)[ts.length]?).bind _).map _ = _
  rw [getElem?_lastThread, Option.bind_some, Option.map_some]
  show some (Demux.mk ⟨reg, one, (lastThread ts .starting).set ts.length _, .waiting⟩ none _ _) = _
  rw [set_lastThread]
  rfl

/-- A session that has returned with an error gives back its entry and its guard. -/
theorem leads_ended {x : ChannelSession} {e : IoError} (hlen : xs.length = ts.length)
    (hx : x.rest = .ret (.error (.io e))) :
    (system maxConcurrent timeout).Leads (withClient ts hs xs .serving x)
      (idleServer (lastThread ts (.terminated false)) (hs ++ [ownConn]) (xs ++ [x])) := by
  let one : Table Nat Nat := (AList.insert ownConn.peer.ip 0 ∅).insert ownConn.peer.ip 1
  refine .head (u := withClient ts hs xs .returned x) (.finish ts.length) ?_ ?_
  · show ((xs ++ [x])[ts.length]?).bind _ = _
    rw [← hlen, List.getElem?_concat_length, Option.bind_some, hx, hlen]
    show (((lastThread ts .serving)[ts.length]?).bind _).map _ = _
    rw [getElem?_lastThread, Option.bind_some, if_pos rfl, Option.map_some]
    show some (Demux.mk ⟨_, one, (lastThread ts .serving).set ts.length _, .waiting⟩ none _ _) = _
    rw [set_lastThread]
    rfl
  refine .head (u := ⟨⟨∅, one, lastThread ts .removed, .waiting⟩, none, hs ++ [ownConn],
    xs ++ [x]⟩) (.removeEntry ts.length) ?_ ?_
  · show (((lastThread ts .returned)[ts.length]?).bind _).map _ = _
    rw [getElem?_lastThread, Option.bind_some, if_pos ⟨rfl, rfl⟩, Option.map_some]
    show some (Demux.mk ⟨_, one, (lastThread ts .returned).set ts.length _, .waiting⟩ none _ _) = _
    rw [set_lastThread]
    rfl
  refine .head (.dropGuard ts.length) ?_ (.refl _)
  show (((lastThread ts .removed)[ts.length]?).bind _).map _ = _
  rw [getElem?_lastThread, Option.bind_some, if_pos rfl, Option.map_some]
  show some (Demux.mk ⟨∅, _, (lastThread ts .removed).set ts.length _, .waiting⟩ none _ _) = _
  rw [set_lastThread]
  rfl

/-- A client connects, starts a UDP test and hangs up: the driver is about to return. -/
theorem leads_served (hmax : 1 < maxConcurrent) (hlen : xs.length = ts.length) :
    (system maxConcurrent timeout).Leads (idleServer ts hs xs)
      (withClient ts hs xs .serving (hungUp timeout hs.length)) := by
  have hthread : (lastThread ts .serving)[xs.length]? =
      some ⟨sessionCookie, ownConn.peer.ip, .serving⟩ := by
    rw [hlen]
    exact getElem?_lastThread ts .serving
  have hperforms : (system maxConcurrent timeout).Leads
      (withClient ts hs xs .serving (ChannelSession.new none sessionCookie timeout hs.length))
      (withClient ts hs xs .serving (hungUp timeout hs.length)) :=
    leads_performs (s := withClient ts hs xs .serving (hungUp timeout hs.length)) hthread rfl hangUp
      14 (advances_hungUp timeout hs.length)
  exact (leads_admitted ts hs xs hmax).trans hperforms

end HangUp

/-- Any number of such clients, one after the other. -/
theorem reachable_hungUp (hmax : 1 < maxConcurrent) (timeout : Option Nat) (n : Nat) :
    ∃ ts hs xs, List.length ts = n ∧ List.length xs = n ∧
      (∀ t ∈ ts, t.phase = .terminated false) ∧
      (∀ x ∈ xs, x.transcript = hungUpRun sessionCookie timeout) ∧
      (system maxConcurrent timeout).Reachable (idleServer ts hs xs) := by
  induction n with
  | zero =>
    exact ⟨[], [], [], rfl, rfl, fun t ht => absurd ht List.not_mem_nil,
      fun x hx => absurd hx List.not_mem_nil, .init rfl⟩
  | succ n ih =>
    obtain ⟨ts, hs, xs, hts, hxs, hended, hruns, hreach⟩ := ih
    have hlen : xs.length = ts.length := hxs.trans hts.symm
    obtain ⟨as, hrun⟩ := (leads_served ts hs xs hmax hlen).trans (leads_ended ts hs xs hlen rfl)
    refine ⟨_, _, _, ?_, ?_, ?_, ?_, hreach.run hrun⟩
    · rw [lastThread, List.length_append, hts]
      rfl
    · rw [List.length_append, hxs]
      rfl
    · intro t ht
      rcases List.mem_append.mp ht with ht | ht
      · exact hended t ht
      · rw [List.mem_singleton.mp ht]
    · intro x hx
      rcases List.mem_append.mp hx with hx | hx
      · exact hruns x hx
      · rw [List.mem_singleton.mp hx]
        rfl

/-! ### The bound, and what it leaves out -/

/-- **The thread bound.**  At every point of every run of the concurrent server, whatever its
    clients send and however the threads interleave: the sessions in the registry have started at
    most `sessionThreads` threads each, so at most `max_concurrent` times as many together; and the
    sessions of one address that still hold their guard (a panicked one has lost it, although it
    stays in the registry) at most `PER_IP_SESSION_CAP` times as many. -/
theorem live_threads_le (h : (system maxConcurrent timeout).Reachable s)
    (hcounted : ∀ x ∈ s.sessions, UdpStreamsCounted x.transcript) :
    s.threadsOf (fun t => t.phase.inRegistry) ≤ maxConcurrent * sessionThreads ∧
    ∀ ip, s.threadsOf (fun t => t.phase.holdsGuard && t.ip == ip) ≤
      perIpSessionCap * sessionThreads := by
  have hloop := AcceptLoop.inv_reachable (inv_reachable h).loop
  constructor
  · exact Nat.le_trans (threadsOf_le h hcounted _)
      (Nat.mul_le_mul_right _ (AcceptLoop.size_registry hloop ▸ hloop.size_le))
  · intro ip
    have hcap : s.loop.threads.countP (fun t => t.phase.holdsGuard && t.ip == ip) ≤
        perIpSessionCap := Nat.le_trans (Nat.le_add_right _ _) (hloop.cap ip)
    exact Nat.le_trans (threadsOf_le h hcounted _) (Nat.mul_le_mul_right _ hcap)

/-- One client that is being served. -/
theorem live_threads_le_oneClient :
    ∃ s, (system 2 none).Reachable s ∧ s.threadsOf (fun t => t.phase.inRegistry) = 1 ∧
      s.threadsOf (fun t => t.phase.inRegistry) ≤ 2 * sessionThreads := by
  obtain ⟨as, hrun⟩ : (system 2 none).Leads (idleServer [] [] [])
      (withClient [] [] [] .serving (hungUp none 0)) := leads_served [] [] [] (by decide) rfl
  have hreach : (system 2 none).Reachable (withClient [] [] [] .serving (hungUp none 0)) :=
    System.Reachable.run (.init rfl) hrun
  have hcounted : ∀ x ∈ (withClient [] [] [] .serving (hungUp none 0)).sessions,
      UdpStreamsCounted x.transcript := by
    intro x hx
    obtain rfl := List.mem_singleton.mp hx
    simp [UdpStreamsCounted, hungUp, hungUpRun, streamsCounted]
  exact ⟨_, hreach, rfl, (live_threads_le hreach hcounted).1⟩

/-- The threads that terminated sessions have left behind. -/
def leftBehind (s : Demux) : List Job :=
  ((s.loop.threads.zip s.sessions).filter fun p => p.1.phase.isTerminated).flatMap fun p =>
    (Crew.of p.2.transcript).left

/-- **Receivers accumulate.**  No session cap bounds the threads of ended sessions: for every `n`
    there is a run of the server after which every session has ended without a panic, the registry
    and the per-IP map are empty, and `n` UDP receivers are left.  None of their flags has been
    raised, and without that a receiver whose socket works does not end. -/
theorem receivers_accumulate (hmax : 1 < maxConcurrent) (timeout : Option Nat) (n : Nat) :
    ∃ s, (system maxConcurrent timeout).Reachable s ∧ s.loop.pc = .waiting ∧
      s.loop.registry = ∅ ∧ s.loop.perIp = ∅ ∧
      (∀ t ∈ s.loop.threads, t.phase = .terminated false) ∧
      (∀ x ∈ s.sessions, (Crew.of x.transcript).told = false) ∧ s.leftBehind.length = n ∧
      ∀ j ∈ s.leftBehind, ∃ addrs window, j = .udpReceiver addrs window ∧
        ∀ ticks, (∀ t ∈ ticks, t.Unstopped) → runUdpReceiver addrs window ticks = none := by
  obtain ⟨ts, hs, xs, hts, hxs, hended, hruns, hreach⟩ := reachable_hungUp hmax timeout n
  have hall : (ts.zip xs).filter (fun p => p.1.phase.isTerminated) = ts.zip xs := by
    refine List.filter_eq_self.mpr fun p hp => ?_
    rw [hended p.1 (List.of_mem_zip hp).1]
    rfl
  have hleft : (idleServer ts hs xs).leftBehind =
      (ts.zip xs).map fun _ => .udpReceiver [⟨2130706433, 40001⟩] 0 := by
    unfold leftBehind
    rw [show (idleServer ts hs xs).loop.threads.zip (idleServer ts hs xs).sessions = ts.zip xs from
      rfl, hall, List.map_eq_flatMap]
    refine List.flatMap_congr fun p hp => ?_
    rw [hruns p.2 (List.of_mem_zip hp).2]
    rfl
  refine ⟨_, hreach, rfl, rfl, rfl, hended, ?_, ?_, ?_⟩
  · intro x hx
    rw [hruns x hx]
    rfl
  · rw [hleft, List.length_map, List.length_zip, hts, hxs, Nat.min_self]
  · intro j hj
    rw [hleft] at hj
    obtain ⟨-, -, rfl⟩ := List.mem_map.mp hj
    exact ⟨_, _, rfl, fun ticks hticks => runUdpReceiver_unstopped hticks⟩

theorem receivers_accumulate_thrice :
    1 < 2 ∧ ∃ s, (system 2 none).Reachable s ∧ s.loop.registry = ∅ ∧ s.leftBehind.length = 3 := by
  obtain ⟨s, hreach, -, hempty, -, -, -, hthree, -⟩ :=
    receivers_accumulate (show 1 < 2 by decide) none 3
  exact ⟨by decide, s, hreach, hempty, hthree⟩

end Demux

end Rperf3
