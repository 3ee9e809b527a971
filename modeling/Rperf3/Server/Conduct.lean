/-
  A session against ANY client: what it writes, which data streams it takes and which threads it
  starts and joins.

  Nothing is assumed about the peer or the network (every call may fail, every read may bring
  anything); the one fact used is that `accept_udp_streams` returns as many addresses as it was
  asked for.

  1. `Ledger` — the options received, the control units written, the number of data streams taken,
     the threads started and joined; `Ledger.enter` is the effect of one answered call.
  2. `sessionMay` — what a session may do at a ledger.  Control units go out in the order of
     `Item.rank`, each at most once; data streams are taken only up to the number negotiated,
     threads are started once each and only for the streams taken, and no result is written before
     every thread has been joined.
  3. One lemma per driver function (`conducts_…`), bottom up.
  4. `session_conduct` — every call of every run of either driver is one that the ledger allows;
     options that are not admitted are refused; no thread outlives a session that returns a total.
-/
import Rperf3.Server.AuthGate

namespace Rperf3

open Effect Effect.Prog Discipline

/-! ## The ledger of a run -/

/-- The place of a control unit in the order of the script; zero for what a server never writes. -/
def Item.rank : Item → Nat
  | .byte .paramExchange => 1
  | .byte .setDataPort => 2
  | .port _ => 3
  | .byte .createStreams => 4
  | .byte .testStart => 5
  | .byte .testRunning => 6
  | .byte .exchangeResults => 7
  | .results _ => 8
  | .byte .displayResults => 9
  | .byte .accessDenied => 10
  | _ => 0

/-- What a transcript of a session amounts to. -/
structure Ledger where
  options : Option ClientOptions
  written : List Item
  streams : Nat
  spawned : List Job
  joined : List Job

namespace Ledger

def empty : Ledger := ⟨none, [], 0, [], []⟩

/-- The effect of one call and its outcome.  A write counts as made even if it fails, a thread as
    joined even if it has panicked. -/
def enter (l : Ledger) : (o : Op) → Except Stop o.Ok → Ledger
  | .recvOptions, .ok opts => { l with options := some opts }
  | .send i, _ => { l with written := l.written ++ [i] }
  | .acceptData, .ok _ => { l with streams := l.streams + 1 }
  | .recvDataStream _, .ok _ => { l with streams := l.streams + 1 }
  | .acceptUdpStreams _ _, .ok addrs => { l with streams := l.streams + List.length addrs }
  | .spawn j, .ok _ => { l with spawned := l.spawned ++ [j] }
  | .join j, _ => { l with joined := l.joined ++ [j] }
  | _, _ => l

def Admitted (auth : AuthConfig) (l : Ledger) : Prop :=
  ∃ opts, l.options = some opts ∧ admitted auth opts

/-- The last unit written. -/
def Wrote (l : Ledger) (i : Item) : Prop := l.written.getLast? = some i

/-- May the unit be written, its place in the order aside? -/
def Fits (auth : AuthConfig) (l : Ledger) : Item → Prop
  | .byte .paramExchange => l.options = none
  | .byte .accessDenied => l.written = [.byte .paramExchange] ∧
    ∃ opts, l.options = some opts ∧ ¬ admitted auth opts
  | .byte .testStart => l.Admitted auth ∧ ∀ opts, l.options = some opts → l.streams = opts.parallel
  | .byte .exchangeResults | .results _ | .byte .displayResults =>
    l.Admitted auth ∧ l.joined.Perm l.spawned
  | _ => l.Admitted auth

end Ledger

/-- What a session may do next. -/
def sessionMay (auth : AuthConfig) (l : Ledger) : Op → Prop
  | .send i => 0 < i.rank ∧ (∀ w ∈ l.written, w.rank < i.rank) ∧ l.Fits auth i
  | .recvOptions => l.written = [.byte .paramExchange]
  | .acceptData | .recvDataStream _ =>
    l.Wrote (.byte .createStreams) ∧ ∃ opts, l.options = some opts ∧ l.streams < opts.parallel
  | .acceptUdpStreams _ n =>
    l.Wrote (.byte .createStreams) ∧ l.streams = 0 ∧
      ∃ opts, l.options = some opts ∧ n = opts.parallel
  | .spawn j => l.Wrote (.byte .testRunning) ∧ j ∉ l.spawned ∧ l.spawned.length ≤ l.streams
  | .join j => j ∈ l.spawned ∧ j ∉ l.joined
  | _ => True

/-- `accept_udp_streams` returns with as many addresses as it was asked for. -/
def streamsCounted : (o : Op) → Except Stop o.Ok → Prop
  | .acceptUdpStreams _ n, .ok addrs => List.length addrs = n
  | _, _ => True

/-- The server's protocol. -/
def sessionConduct (auth : AuthConfig) : Discipline Op Op.Ok Stop Ledger where
  may := sessionMay auth
  answers _ := streamsCounted
  next := Ledger.enter

/-! ## Rules -/

section Rules

variable {α β : Type} {auth : AuthConfig} {l : Ledger}

/-- From `l`, the program keeps the protocol, and if it returns `v` then with a ledger that
    satisfies `R`. -/
def Conducts (auth : AuthConfig) (p : Session α) (l : Ledger) (R : Ledger → α → Prop) : Prop :=
  (sessionConduct auth).wp p (fun l' r => ∀ v, r = .ok v → R l' v) l

theorem conducts_pure {v : α} {R : Ledger → α → Prop} (h : R l v) :
    Conducts auth (pure v) l R := by
  intro w hw
  obtain rfl := Except.ok.inj hw
  exact h

theorem conducts_fail {e : Stop} {R : Ledger → α → Prop} : Conducts auth (fail e) l R := by
  intro w hw
  cases hw

theorem Conducts.bind {p : Session α} {f : α → Session β} {S : Ledger → α → Prop}
    {R : Ledger → β → Prop} (hp : Conducts auth p l S)
    (hf : ∀ l' v, S l' v → Conducts auth (f v) l' R) : Conducts auth (p >>= f) l R := by
  refine wp_bind (R := S) (wp_mono (fun l' r h => ?_) hp) hf
  cases r with
  | ok v => exact h v rfl
  | error e =>
    intro w hw
    cases hw

theorem Conducts.mono {p : Session α} {R R' : Ledger → α → Prop} (hp : Conducts auth p l R)
    (hR : ∀ l' v, R l' v → R' l' v) : Conducts auth p l R' :=
  wp_mono (fun l' _ h v hv => hR l' v (h v hv)) hp

theorem conducts_call_bind {o : Op} {f : o.Ok → Session β} {R : Ledger → β → Prop}
    (hmay : sessionMay auth l o)
    (hf : ∀ v, streamsCounted o (.ok v) → Conducts auth (f v) (l.enter o (.ok v)) R) :
    Conducts auth (call o >>= f) l R := by
  refine ⟨hmay, fun r hr => ?_⟩
  cases r with
  | ok v => exact hf v hr
  | error e => exact conducts_fail

/-- The calls that the protocol does not look at. -/
def Op.isPlain : Op → Bool
  | .send _ | .recvOptions | .acceptData | .recvDataStream _ | .acceptUdpStreams _ _ | .spawn _
  | .join _ => false
  | _ => true

theorem neutral_of_isPlain {o : Op} (h : o.isPlain = true) : (sessionConduct auth).Neutral o := by
  intro l
  cases o with
  | send i => cases h
  | recvOptions => cases h
  | acceptData => cases h
  | recvDataStream t => cases h
  | acceptUdpStreams c n => cases h
  | spawn j => cases h
  | join j => cases h
  | _ => exact ⟨trivial, fun _ => rfl⟩

/-- A program of plain calls. -/
def Plain (p : Session α) : Prop := Uses (fun o => o.isPlain = true) p

theorem plain_call {o : Op} (h : o.isPlain = true) : Plain (call o) := ⟨h, fun _ => trivial⟩

theorem Plain.conducts {p : Session α} (hp : Plain p) {R : Ledger → α → Prop} (h : ∀ v, R l v) :
    Conducts auth p l R :=
  wp_of_neutral (uses_mono (fun _ => neutral_of_isPlain) hp) fun _ v _ => h v

/-- Plain calls leave the ledger to what follows. -/
theorem Plain.bind {p : Session α} (hp : Plain p) {f : α → Session β} {R : Ledger → β → Prop}
    (hf : ∀ v, Conducts auth (f v) l R) : Conducts auth (p >>= f) l R := by
  refine Conducts.bind (S := fun l' _ => l' = l) (hp.conducts fun _ => rfl) ?_
  rintro _ v rfl
  exact hf v

/-- What holds however the program ends holds behind an `attempt` of it. -/
theorem anyway_attempt {p : Session α} {S : Ledger → Prop}
    (hp : (sessionConduct auth).wp p (fun l' _ => S l') l) :
    (sessionConduct auth).wp (attempt p) (fun l' _ => S l') l := by
  refine wp_onResult.mpr (wp_mono (fun l' r h => ?_) hp)
  rcases r with (e | msg) | v
  · exact h
  · exact h
  · exact h

theorem conducts_of_wp {p : Session α} {S : Ledger → Prop}
    (hp : (sessionConduct auth).wp p (fun l' _ => S l') l) :
    Conducts auth p l fun l' _ => S l' :=
  wp_mono (fun _ _ h _ _ => h) hp

theorem anyway_ignore {p : Session α} {S : Ledger → Prop}
    (hp : (sessionConduct auth).wp p (fun l' _ => S l') l) :
    (sessionConduct auth).wp (ignore p) (fun l' _ => S l') l :=
  wp_bind_phase (anyway_attempt hp) (fun _ h => h) fun _ _ h => h

theorem conducts_tolerateClosed {p : Session Unit} {S : Ledger → Prop}
    (hp : (sessionConduct auth).wp p (fun l' _ => S l') l) :
    Conducts auth (tolerateClosed p) l fun l' _ => S l' := by
  refine (conducts_of_wp (anyway_attempt hp)).bind fun l' r h => ?_
  cases r with
  | ok v => exact conducts_pure h
  | error e =>
    show Conducts auth (if isPeerClosed e then pure () else fail (.io e)) l' _
    split
    · exact conducts_pure h
    · exact conducts_fail

end Rules

/-! ## Admission and streams -/

section Setup

variable {β : Type} {auth : AuthConfig} {opts : ClientOptions} {l : Ledger} {k n : Nat}

/-- Before the threads: options admitted, units up to rank `k` written, `n` streams taken. -/
structure Ledger.At (auth : AuthConfig) (opts : ClientOptions) (k n : Nat) (l : Ledger) : Prop where
  options : l.options = some opts
  accepted : admitted auth opts
  ranks : ∀ w ∈ l.written, w.rank ≤ k
  streams : l.streams = n
  spawned : l.spawned = []
  joined : l.joined = []

theorem Ledger.At.admitted (h : l.At auth opts k n) : l.Admitted auth :=
  ⟨opts, h.options, h.accepted⟩

theorem Ledger.wrote_enter (l : Ledger) (i : Item) (r : Except Stop Unit) :
    (l.enter (.send i) r).Wrote i :=
  List.getLast?_concat

theorem ranks_enter {i : Item} (h : ∀ w ∈ l.written, w.rank ≤ k) (hk : k < i.rank) :
    ∀ w ∈ l.written ++ [i], w.rank ≤ i.rank := by
  intro w hw
  rcases List.mem_append.mp hw with hw | hw
  · have := h w hw
    omega
  · rw [List.mem_singleton.mp hw]

theorem may_send {i : Item} (h : ∀ w ∈ l.written, w.rank ≤ k) (hk : k < i.rank)
    (hfits : l.Fits auth i) : sessionMay auth l (.send i) := by
  refine ⟨by omega, fun w hw => ?_, hfits⟩
  have := h w hw
  omega

/-- Writing the next unit of the script. -/
theorem conducts_send_bind {i : Item} {f : Unit → Session β} {R : Ledger → β → Prop}
    (h : l.At auth opts k n) (hk : k < i.rank) (hfits : l.Fits auth i)
    (hf : ∀ l', l'.At auth opts i.rank n → l'.Wrote i → Conducts auth (f ()) l' R) :
    Conducts auth (sendItem i >>= f) l R := by
  refine conducts_call_bind (o := .send i) (may_send h.ranks hk hfits) fun _ _ => ?_
  exact hf _ ⟨h.options, h.accepted, ranks_enter h.ranks hk, h.streams, h.spawned, h.joined⟩
    (l.wrote_enter i _)

/-- Refusing is all a session does for options that are not admitted. -/
theorem conducts_refuse {e : Stop} {R : Ledger → β → Prop}
    (hwritten : l.written = [.byte .paramExchange]) (hopts : l.options = some opts)
    (hno : ¬ admitted auth opts) :
    Conducts auth (ignore (sendByte .accessDenied) >>= fun _ => fail e) l R := by
  have hranks : ∀ w ∈ l.written, w.rank ≤ 1 := by
    intro w hw
    rw [hwritten] at hw
    rw [List.mem_singleton.mp hw]
    exact Nat.le_refl 1
  have hmay : sessionMay auth l (.send (.byte .accessDenied)) :=
    may_send hranks (by decide) ⟨hwritten, opts, hopts, hno⟩
  have hsend : (sessionConduct auth).wp (sendByte .accessDenied) (fun _ _ => True) l :=
    ⟨hmay, fun _ _ => trivial⟩
  exact (conducts_of_wp (anyway_ignore hsend)).bind fun _ _ _ => conducts_fail

/-- What the opening lines leave on the ledger. -/
def Ledger.opened (opts : ClientOptions) : Ledger := ⟨some opts, [.byte .paramExchange], 0, [], []⟩

theorem conducts_negotiateOptions :
    Conducts auth negotiateOptions Ledger.empty fun l' opts => l' = Ledger.opened opts := by
  have hmay : sessionMay auth Ledger.empty (.send (.byte .paramExchange)) :=
    may_send (k := 0) (fun w hw => absurd hw List.not_mem_nil) (by decide) rfl
  refine conducts_call_bind (o := .send (.byte .paramExchange)) hmay fun _ _ => ?_
  refine ⟨rfl, fun r _ v hv => ?_⟩
  obtain rfl := hv
  rfl

theorem conducts_checkAuth (hvalid : validateOptions opts = .ok ()) :
    Conducts auth (checkAuth auth opts) (Ledger.opened opts) fun l' _ =>
      l' = Ledger.opened opts ∧ admitted auth opts := by
  cases auth with
  | none => exact conducts_pure ⟨rfl, hvalid, fun inner hinner => by cases hinner⟩
  | some inner =>
    simp only [checkAuth]
    cases hinner : inner opts with
    | ok u =>
      refine conducts_pure ⟨rfl, hvalid, fun inner' h => ?_⟩
      obtain rfl := Option.some.inj h
      exact hinner
    | error e =>
      refine conducts_refuse rfl rfl fun hadm => ?_
      rw [hadm.2 inner rfl] at hinner
      cases hinner

/-- **Admission**: a session goes on only with options that both checks accept. -/
theorem conducts_admitOptions :
    Conducts auth (admitOptions auth) Ledger.empty fun l' opts => l'.At auth opts 1 0 := by
  refine conducts_negotiateOptions.bind ?_
  rintro _ opts rfl
  cases hvalid : validateOptions opts with
  | error e =>
    refine conducts_refuse rfl rfl fun hadm => ?_
    rw [hadm.1] at hvalid
    cases hvalid
  | ok u =>
    refine (conducts_checkAuth hvalid).bind ?_
    rintro _ _ ⟨rfl, hadm⟩
    refine conducts_pure ⟨rfl, hadm, fun w hw => ?_, rfl, rfl, rfl⟩
    rw [List.mem_singleton.mp hw]
    exact Nat.le_refl 1

/-- One more data stream. -/
theorem Ledger.At.succ (h : l.At auth opts k n) :
    ({ l with streams := l.streams + 1 } : Ledger).At auth opts k (n + 1) :=
  ⟨h.options, h.accepted, h.ranks, congrArg (· + 1) h.streams, h.spawned, h.joined⟩

/-- Another data stream may be taken while there are fewer than negotiated. -/
theorem Ledger.At.may_take (h : l.At auth opts k n) (hwrote : l.Wrote (.byte .createStreams))
    (hn : n < opts.parallel) :
    l.Wrote (.byte .createStreams) ∧ ∃ o, l.options = some o ∧ l.streams < o.parallel := by
  refine ⟨hwrote, opts, h.options, ?_⟩
  rw [h.streams]
  exact hn

/-- Taking the data streams that the listener accepts: as many as negotiated, or the session
    ends. -/
theorem conducts_acceptStreamsLoop (cookie : Bytes) (timeout : Option Nat) (m i : Nat)
    (h : l.At auth opts 4 n) (hwrote : l.Wrote (.byte .createStreams))
    (hm : n + m = opts.parallel) :
    Conducts auth (acceptStreamsLoop cookie timeout i m) l fun l' cs =>
      l'.At auth opts 4 opts.parallel ∧ cs.length = m := by
  induction m generalizing i n l with
  | zero =>
    obtain rfl : n = opts.parallel := hm
    exact conducts_pure ⟨h, rfl⟩
  | succ m ih =>
    have hmay := h.may_take hwrote (by omega)
    refine conducts_call_bind (o := .acceptData) hmay fun data _ => ?_
    refine (plain_call rfl).bind fun _ => ?_
    refine (plain_call rfl).bind fun got => ?_
    split
    · exact conducts_fail
    · refine (plain_call rfl).bind fun _ => ?_
      refine (ih (i + 1) h.succ hwrote (by omega)).bind ?_
      rintro l' rest ⟨h', hlen⟩
      exact conducts_pure ⟨h', congrArg (· + 1) hlen⟩

/-- Taking the data streams that the accept loop hands over. -/
theorem conducts_acceptStreamsFromChannel (timeout : Option Nat) (m : Nat)
    (h : l.At auth opts 4 n) (hwrote : l.Wrote (.byte .createStreams))
    (hm : n + m = opts.parallel) :
    Conducts auth (acceptStreamsFromChannel timeout m) l fun l' cs =>
      l'.At auth opts 4 opts.parallel ∧ cs.length = m := by
  induction m generalizing n l with
  | zero =>
    obtain rfl : n = opts.parallel := hm
    exact conducts_pure ⟨h, rfl⟩
  | succ m ih =>
    have hmay := h.may_take hwrote (by omega)
    refine conducts_call_bind (o := .recvDataStream timeout) hmay fun stream _ => ?_
    refine (ih h.succ hwrote (by omega)).bind ?_
    rintro l' rest ⟨h', hlen⟩
    exact conducts_pure ⟨h', congrArg (· + 1) hlen⟩

/-- Taking the addresses of the UDP streams. -/
theorem conducts_collectUdpStreams_bind {cookie : Bytes} {f : List SocketAddr → Session β}
    {R : Ledger → β → Prop} (h : l.At auth opts 4 0) (hwrote : l.Wrote (.byte .createStreams))
    (hf : ∀ l' addrs, l'.At auth opts 4 opts.parallel → addrs.length = opts.parallel →
      Conducts auth (f addrs) l' R) :
    Conducts auth (collectUdpStreams cookie opts.parallel >>= f) l R := by
  refine conducts_call_bind (o := .acceptUdpStreams cookie opts.parallel)
    ⟨hwrote, h.streams, opts, h.options, rfl⟩ fun addrs haddrs => ?_
  refine hf _ addrs ⟨h.options, h.accepted, h.ranks, ?_, h.spawned, h.joined⟩ haddrs
  show l.streams + List.length addrs = opts.parallel
  rw [h.streams, haddrs, Nat.zero_add]

/-- The test starts once all streams are there. -/
theorem conducts_sendTestStartRunning_bind {f : Unit → Session β} {R : Ledger → β → Prop}
    (h : l.At auth opts 4 opts.parallel)
    (hf : ∀ l', l'.At auth opts 6 opts.parallel → l'.Wrote (.byte .testRunning) →
      Conducts auth (f ()) l' R) :
    Conducts auth (sendTestStartRunning >>= f) l R := by
  have hfits : l.Fits auth (.byte .testStart) := by
    refine ⟨h.admitted, fun o ho => ?_⟩
    obtain rfl := Option.some.inj (h.options.symm.trans ho)
    exact h.streams
  unfold sendTestStartRunning
  rw [bind_assoc]
  refine conducts_send_bind (i := .byte .testStart) h (by decide) hfits fun l₁ h₁ _ => ?_
  exact conducts_send_bind (i := .byte .testRunning) h₁ (by decide) h₁.admitted hf

end Setup

/-! ## Threads -/

section Threads

variable {α β : Type} {auth : AuthConfig} {opts : ClientOptions} {l : Ledger}

/-- The first of several threads that are new and for which there is room. -/
theorem conducts_spawn_bind {j : Job} {js : List Job} {f : Unit → Session β}
    {R : Ledger → β → Prop} (hwrote : l.Wrote (.byte .testRunning))
    (hnew : (l.spawned ++ j :: js).Nodup) (hroom : (l.spawned ++ j :: js).length ≤ l.streams + 1)
    (hf : Conducts auth (f ()) { l with spawned := l.spawned ++ [j] } R) :
    Conducts auth (spawn j >>= f) l R := by
  have hfresh : j ∉ l.spawned :=
    fun hj => (List.nodup_append.mp hnew).2.2 j hj j List.mem_cons_self rfl
  have hlen : l.spawned.length ≤ l.streams := by
    simp only [List.length_append, List.length_cons] at hroom
    omega
  exact conducts_call_bind (o := .spawn j) ⟨hwrote, hfresh, hlen⟩ fun _ _ => hf

/-- Starting threads: each is new, and with them there are at most one more than streams. -/
theorem conducts_spawnAll_bind {js : List Job} {f : Unit → Session β} {R : Ledger → β → Prop}
    (hwrote : l.Wrote (.byte .testRunning)) (hnew : (l.spawned ++ js).Nodup)
    (hroom : (l.spawned ++ js).length ≤ l.streams + 1)
    (hf : Conducts auth (f ()) { l with spawned := l.spawned ++ js } R) :
    Conducts auth (spawnAll js >>= f) l R := by
  induction js generalizing l with
  | nil =>
    rw [List.append_nil] at hf
    exact hf
  | cons j js ih =>
    show Conducts auth ((spawn j >>= fun _ => spawnAll js) >>= f) l R
    rw [bind_assoc]
    refine conducts_spawn_bind hwrote hnew hroom ?_
    rw [List.append_cons] at hnew hroom hf
    exact ih (l := { l with spawned := l.spawned ++ [j] }) hwrote hnew hroom hf

theorem plain_cloneUdp (msg : String) : Plain (expect msg cloneUdp) := by
  refine uses_onResult (plain_call rfl) fun r => ?_
  rcases r with (e | m) | u
  · trivial
  · trivial
  · trivial

theorem conducts_spawnUdpSenders_bind {js : List Job} {f : Unit → Session β}
    {R : Ledger → β → Prop} (hwrote : l.Wrote (.byte .testRunning))
    (hnew : (l.spawned ++ js).Nodup) (hroom : (l.spawned ++ js).length ≤ l.streams + 1)
    (hf : Conducts auth (f ()) { l with spawned := l.spawned ++ js } R) :
    Conducts auth (spawnUdpSenders js >>= f) l R := by
  induction js generalizing l with
  | nil =>
    rw [List.append_nil] at hf
    exact hf
  | cons j js ih =>
    show Conducts auth ((expect "udp try_clone" cloneUdp >>= fun _ => spawn j >>= fun _ =>
      spawnUdpSenders js) >>= f) l R
    rw [bind_assoc]
    refine (plain_cloneUdp _).bind fun _ => ?_
    rw [bind_assoc]
    refine conducts_spawn_bind hwrote hnew hroom ?_
    rw [List.append_cons] at hnew hroom hf
    exact ih (l := { l with spawned := l.spawned ++ [j] }) hwrote hnew hroom hf

theorem conducts_joinOr {d : List StreamReceipt} {j : Job} (hj : j ∈ l.spawned)
    (hopen : j ∉ l.joined) :
    Conducts auth (joinOr d j) l fun l' _ => l' = { l with joined := l.joined ++ [j] } := by
  have hjoin : (sessionConduct auth).wp (join j)
      (fun l' _ => l' = { l with joined := l.joined ++ [j] }) l :=
    ⟨⟨hj, hopen⟩, fun _ _ => rfl⟩
  refine (conducts_of_wp (anyway_attempt hjoin)).bind fun l' r hl' => ?_
  cases r with
  | ok rs => exact conducts_pure hl'
  | error e => exact conducts_pure hl'

/-- Joining threads: each has been started and is joined once. -/
theorem conducts_joinStreamTotals {js : List Job} (hstarted : ∀ j ∈ js, j ∈ l.spawned)
    (honce : (l.joined ++ js).Nodup) :
    Conducts auth (joinStreamTotals js) l fun l' _ =>
      l' = { l with joined := l.joined ++ js } := by
  induction js generalizing l with
  | nil => exact conducts_pure (by rw [List.append_nil])
  | cons j js ih =>
    rw [List.append_cons] at honce
    have hopen : j ∉ l.joined := by
      have hleft := (List.nodup_append.mp honce).1
      exact fun hj => (List.nodup_append.mp hleft).2.2 j hj j (List.mem_singleton_self j) rfl
    refine (conducts_joinOr (hstarted j List.mem_cons_self) hopen).bind ?_
    rintro _ r rfl
    have hrest := ih (l := { l with joined := l.joined ++ [j] })
      (fun j' hj' => hstarted j' (List.mem_cons_of_mem j hj')) honce
    refine hrest.bind ?_
    rintro _ rs rfl
    exact conducts_pure (by simp only [List.append_assoc, List.singleton_append])

/-- The test runs and no thread has been started. -/
structure Ledger.Running (auth : AuthConfig) (opts : ClientOptions) (l : Ledger) : Prop
    extends l.At auth opts 6 opts.parallel where
  wrote : l.Wrote (.byte .testRunning)

/-- Units up to rank `k` have been written, and every thread has been joined. -/
structure Ledger.Reporting (auth : AuthConfig) (opts : ClientOptions) (k : Nat) (l : Ledger) :
    Prop where
  options : l.options = some opts
  accepted : admitted auth opts
  ranks : ∀ w ∈ l.written, w.rank ≤ k
  allJoined : l.joined.Perm l.spawned

/-- A ledger with no threads, and then with these. -/
def Ledger.during (l : Ledger) (spawned joined : List Job) : Ledger :=
  { l with spawned := spawned, joined := joined }

theorem Ledger.Running.during_nil (h : l.Running auth opts) : l.during [] [] = l := by
  obtain ⟨options, written, streams, spawned, joined⟩ := l
  obtain rfl : spawned = [] := h.spawned
  obtain rfl : joined = [] := h.joined
  rfl

/-- Once the threads have been joined, the session may report. -/
theorem Ledger.Running.reporting (h : l.Running auth opts) {spawned joined : List Job}
    (hperm : joined.Perm spawned) : (l.during spawned joined).Reporting auth opts 6 :=
  ⟨h.options, h.accepted, h.ranks, hperm⟩

/-- Room for as many threads as there are streams, and one more. -/
theorem Ledger.Running.room (h : l.Running auth opts) {js : List Job}
    (hjs : js.length ≤ opts.parallel + 1) : js.length ≤ l.streams + 1 := by
  rw [h.streams]
  exact hjs

/-- Jobs numbered by their streams are all different. -/
theorem nodup_jobs {X : Type} (job : Nat → X → Job) (hjob : ∀ {i j x y}, job i x = job j y → i = j)
    (xs : List X) : (xs.zipIdx.map fun p => job (p.2 + 1) p.1).Nodup := by
  have hindex : (xs.zipIdx.map Prod.snd).Nodup := by
    rw [List.zipIdx_map_snd]
    exact List.nodup_range'
  refine List.pairwise_map.mpr ((List.pairwise_map.mp hindex).imp ?_)
  intro p q hne heq
  have := hjob heq
  omega

theorem nodup_readerJobs (cs : List Conn) (window : Nat) : (readerJobs cs window).Nodup :=
  nodup_jobs (fun i c => .tcpReader i c window) (fun h => (Job.tcpReader.inj h).1) cs

theorem nodup_tcpSenderJobs (cs : List Conn) (o : ClientOptions) : (tcpSenderJobs cs o).Nodup :=
  nodup_jobs (fun i c => .tcpSender i c o) (fun h => (Job.tcpSender.inj h).1) cs

theorem nodup_udpSenderJobs (addrs : List SocketAddr) (o : ClientOptions) :
    (udpSenderJobs addrs o).Nodup :=
  nodup_jobs (fun i a => .udpSender i a o) (fun h => (Job.udpSender.inj h).1) addrs

theorem plain_waitForTestEnd : Plain waitForTestEnd :=
  uses_bind (plain_call rfl) fun _ => trivial

theorem plain_ignore_waitForTestEnd : Plain (ignore waitForTestEnd) :=
  uses_ignore plain_waitForTestEnd

theorem plain_cloneAll (cs : List Conn) : Plain (cloneAll cs) := by
  induction cs with
  | nil => trivial
  | cons c cs ih => exact uses_bind (plain_call rfl) fun _ => uses_bind ih fun _ => trivial

/-! ### Transfers -/

variable {cs : List Conn} {addrs : List SocketAddr}

theorem length_readerJobs (cs : List Conn) (window : Nat) :
    (readerJobs cs window).length = cs.length := by
  simp only [readerJobs, List.length_map, List.length_zipIdx]

theorem length_tcpSenderJobs (cs : List Conn) (o : ClientOptions) :
    (tcpSenderJobs cs o).length = cs.length := by
  simp only [tcpSenderJobs, List.length_map, List.length_zipIdx]

theorem length_udpSenderJobs (addrs : List SocketAddr) (o : ClientOptions) :
    (udpSenderJobs addrs o).length = addrs.length := by
  simp only [udpSenderJobs, List.length_map, List.length_zipIdx]

theorem conducts_tcpForward (h : l.Running auth opts) (hcs : cs.length = opts.parallel) :
    Conducts auth (tcpForward cs opts) l fun l' _ => l'.Reporting auth opts 6 := by
  have hnodup := nodup_readerJobs cs (omitWindow opts)
  have hroom : (readerJobs cs (omitWindow opts)).length ≤ opts.parallel + 1 := by
    rw [length_readerJobs]
    omega
  rw [← h.during_nil]
  refine conducts_spawnAll_bind h.wrote hnodup (h.room hroom) ?_
  refine plain_waitForTestEnd.bind fun _ => ?_
  refine Conducts.mono (conducts_joinStreamTotals (fun _ hj => hj) hnodup) ?_
  rintro _ receipts rfl
  exact h.reporting (.refl _)

theorem conducts_tcpReverse (h : l.Running auth opts) (hcs : cs.length = opts.parallel) :
    Conducts auth (tcpReverse cs opts) l fun l' _ => l'.Reporting auth opts 6 := by
  have hnodup := nodup_tcpSenderJobs cs opts
  have hroom : (tcpSenderJobs cs opts).length ≤ opts.parallel + 1 := by
    rw [length_tcpSenderJobs]
    omega
  rw [← h.during_nil]
  unfold tcpReverse runTcpSendStreams
  rw [bind_assoc]
  refine conducts_spawnAll_bind h.wrote hnodup (h.room hroom) ?_
  refine Conducts.bind (conducts_joinStreamTotals (fun _ hj => hj) hnodup) ?_
  rintro _ receipts rfl
  exact plain_ignore_waitForTestEnd.bind fun _ => conducts_pure (h.reporting (.refl _))

/-- Both ways: one thread for all senders, and a reader for each stream. -/
theorem conducts_tcpBidirectional (h : l.Running auth opts) (hcs : cs.length = opts.parallel) :
    Conducts auth (tcpBidirectional cs opts) l fun l' _ => l'.Reporting auth opts 6 := by
  have hreaders := nodup_readerJobs cs (omitWindow opts)
  rw [← h.during_nil]
  refine (plain_cloneAll cs).bind fun halves => ?_
  have hsender : Job.tcpSendStreams halves opts ∉ readerJobs cs (omitWindow opts) := by
    intro hmem
    obtain ⟨p, -, hp⟩ := List.mem_map.mp hmem
    cases hp
  have hnodup : (Job.tcpSendStreams halves opts :: readerJobs cs (omitWindow opts)).Nodup :=
    List.nodup_cons.mpr ⟨hsender, hreaders⟩
  have hroom : (Job.tcpSendStreams halves opts :: readerJobs cs (omitWindow opts)).length
      ≤ opts.parallel + 1 := by
    rw [List.length_cons, length_readerJobs]
    omega
  refine conducts_spawn_bind h.wrote hnodup (h.room hroom) ?_
  refine conducts_spawnAll_bind h.wrote hnodup (h.room hroom) ?_
  refine plain_waitForTestEnd.bind fun _ => ?_
  refine (conducts_joinStreamTotals (fun _ hj => List.mem_cons_of_mem _ hj) hreaders).bind ?_
  rintro _ received rfl
  refine (conducts_joinOr List.mem_cons_self hsender).bind ?_
  rintro _ sent rfl
  exact conducts_pure (h.reporting (List.perm_append_singleton _ _))

theorem conducts_udpForward (h : l.Running auth opts) :
    Conducts auth (udpForward addrs opts) l fun l' _ => l'.Reporting auth opts 6 := by
  have hroom : [Job.udpReceiver addrs (omitWindow opts)].length ≤ opts.parallel + 1 :=
    Nat.le_add_left 1 _
  rw [← h.during_nil]
  refine conducts_spawn_bind h.wrote (List.nodup_singleton _) (h.room hroom) ?_
  refine plain_waitForTestEnd.bind fun _ => ?_
  refine (plain_call rfl).bind fun _ => ?_
  refine (conducts_joinOr (List.mem_singleton_self _) List.not_mem_nil).mono ?_
  rintro _ receipts rfl
  exact h.reporting (.refl _)

/-- The senders of `run_udp_send_streams`, next to the threads already there. -/
theorem conducts_runUdpSendStreams_bind {spawned : List Job}
    {f : List StreamReceipt → Session β} {R : Ledger → β → Prop} (h : l.Running auth opts)
    (hnodup : (spawned ++ udpSenderJobs addrs opts).Nodup)
    (hroom : (spawned ++ udpSenderJobs addrs opts).length ≤ opts.parallel + 1)
    (hf : ∀ sent, Conducts auth (f sent)
      (l.during (spawned ++ udpSenderJobs addrs opts) (udpSenderJobs addrs opts)) R) :
    Conducts auth (runUdpSendStreams addrs opts >>= f) (l.during spawned []) R := by
  unfold runUdpSendStreams
  rw [bind_assoc]
  refine conducts_spawnUdpSenders_bind h.wrote hnodup (h.room hroom) ?_
  refine (conducts_joinStreamTotals (fun _ hj => List.mem_append_right _ hj)
    (nodup_udpSenderJobs addrs opts)).bind ?_
  rintro _ sent rfl
  exact hf sent

theorem conducts_udpReverse (h : l.Running auth opts) (haddrs : addrs.length = opts.parallel) :
    Conducts auth (runUdpSendStreams addrs opts) l fun l' _ => l'.Reporting auth opts 6 := by
  have hroom : (udpSenderJobs addrs opts).length ≤ opts.parallel + 1 := by
    rw [length_udpSenderJobs]
    omega
  rw [← h.during_nil, ← bind_pure (runUdpSendStreams addrs opts)]
  exact conducts_runUdpSendStreams_bind h (nodup_udpSenderJobs addrs opts) hroom fun _ =>
    conducts_pure (h.reporting (.refl _))

theorem conducts_udpBidirectional (h : l.Running auth opts)
    (haddrs : addrs.length = opts.parallel) :
    Conducts auth (udpBidirectional addrs opts) l fun l' _ => l'.Reporting auth opts 6 := by
  have hreceiver : Job.udpReceiver addrs (omitWindow opts) ∉ udpSenderJobs addrs opts := by
    intro hmem
    obtain ⟨p, -, hp⟩ := List.mem_map.mp hmem
    cases hp
  have hnodup : (Job.udpReceiver addrs (omitWindow opts) :: udpSenderJobs addrs opts).Nodup :=
    List.nodup_cons.mpr ⟨hreceiver, nodup_udpSenderJobs addrs opts⟩
  have hroom : (Job.udpReceiver addrs (omitWindow opts) :: udpSenderJobs addrs opts).length
      ≤ opts.parallel + 1 := by
    rw [List.length_cons, length_udpSenderJobs]
    omega
  rw [← h.during_nil]
  refine (plain_call rfl).bind fun _ => ?_
  refine conducts_spawn_bind h.wrote hnodup (h.room hroom) ?_
  refine conducts_runUdpSendStreams_bind (l := l) h hnodup hroom fun sent => ?_
  refine plain_ignore_waitForTestEnd.bind fun _ => ?_
  refine (plain_call rfl).bind fun _ => ?_
  refine (conducts_joinOr List.mem_cons_self hreceiver).bind ?_
  rintro _ received rfl
  exact conducts_pure (h.reporting (List.perm_append_singleton _ _))

end Threads

/-! ## The drivers -/

section Drivers

variable {α : Type} {auth : AuthConfig} {opts : ClientOptions} {l : Ledger}

/-- `CreateStreams`, and then the streams of the listener. -/
theorem conducts_acceptStreamsViaListener (cookie : Bytes) (timeout : Option Nat)
    (h : l.At auth opts 1 0) :
    Conducts auth (acceptStreamsViaListener cookie opts.parallel timeout) l fun l' cs =>
      l'.At auth opts 4 opts.parallel ∧ cs.length = opts.parallel :=
  conducts_send_bind (i := .byte .createStreams) h (by decide) h.admitted fun _ h₁ hwrote =>
    conducts_acceptStreamsLoop cookie timeout _ 0 h₁ hwrote (Nat.zero_add _)

theorem plain_ignore_tune (cs : List Conn) (t : TuningOpts) : Plain (ignore (applyTuning cs t)) :=
  uses_ignore (plain_call rfl)

theorem conducts_runTcpBranch (cookie : Bytes) (timeout : Option Nat) (h : l.At auth opts 1 0) :
    Conducts auth (runTcpBranch cookie opts timeout) l fun l' _ => l'.Reporting auth opts 6 := by
  refine (conducts_acceptStreamsViaListener cookie timeout h).bind ?_
  rintro l₁ cs ⟨h₁, hcs⟩
  refine (plain_ignore_tune cs _).bind fun _ => ?_
  refine conducts_sendTestStartRunning_bind h₁ fun l₂ h₂ hwrote => ?_
  refine (plain_call rfl).bind fun _ => ?_
  have hrun : l₂.Running auth opts := ⟨h₂, hwrote⟩
  split
  · exact conducts_tcpBidirectional hrun hcs
  · split
    · exact conducts_tcpReverse hrun hcs
    · exact conducts_tcpForward hrun hcs

theorem conducts_channelTcpBranch (timeout : Option Nat) (h : l.At auth opts 1 0) :
    Conducts auth (channelTcpBranch opts timeout) l fun l' _ => l'.Reporting auth opts 6 := by
  refine conducts_send_bind (i := .byte .createStreams) h (by decide) h.admitted
    fun l₀ h₀ hcreate => ?_
  refine (conducts_acceptStreamsFromChannel timeout _ h₀ hcreate (Nat.zero_add _)).bind ?_
  rintro l₁ cs ⟨h₁, hcs⟩
  refine (plain_ignore_tune cs _).bind fun _ => ?_
  refine conducts_sendTestStartRunning_bind h₁ fun l₂ h₂ hwrote => ?_
  refine (plain_call rfl).bind fun _ => ?_
  have hrun : l₂.Running auth opts := ⟨h₂, hwrote⟩
  split
  · exact conducts_tcpReverse hrun hcs
  · split
    · exact conducts_tcpBidirectional hrun hcs
    · exact conducts_tcpForward hrun hcs

theorem plain_waitForTestEndIf (c : Bool) : Plain (waitForTestEndIf c) := by
  unfold waitForTestEndIf
  split
  · exact plain_ignore_waitForTestEnd
  · trivial

/-- The wait behind a UDP transfer. -/
theorem Conducts.waitForTestEndIf {p : Session (List StreamReceipt)} {c : Bool}
    (hp : Conducts auth p l fun l' _ => l'.Reporting auth opts 6) :
    Conducts auth (p >>= fun receipts => waitForTestEndIf c >>= fun _ => pure receipts) l
      fun l' _ => l'.Reporting auth opts 6 :=
  hp.bind fun _ _ h => (plain_waitForTestEndIf c).bind fun _ => conducts_pure h

/-- The opening of a UDP test, from `CreateStreams` to the transfer. -/
theorem conducts_udpOpening {k : Nat} {cookie : Bytes} {timeout : Option Nat}
    {f : List SocketAddr → Session α} {R : Ledger → α → Prop} (h : l.At auth opts k 0) (hk : k < 4)
    (hf : ∀ l' addrs, l'.Running auth opts → addrs.length = opts.parallel →
      Conducts auth (f addrs) l' R) :
    Conducts auth (sendByte .createStreams >>= fun _ => collectUdpStreams cookie opts.parallel
      >>= fun addrs => setUdpTimeout none >>= fun _ => sendTestStartRunning >>= fun _ =>
        setReadTimeout timeout >>= fun _ => f addrs) l R := by
  refine conducts_send_bind (i := .byte .createStreams) h hk h.admitted fun l₀ h₀ hcreate => ?_
  refine conducts_collectUdpStreams_bind h₀ hcreate fun l₁ addrs h₁ haddrs => ?_
  refine (plain_call rfl).bind fun _ => ?_
  refine conducts_sendTestStartRunning_bind h₁ fun l₂ h₂ hwrote => ?_
  refine (plain_call rfl).bind fun _ => ?_
  exact hf l₂ addrs ⟨h₂, hwrote⟩ haddrs

theorem conducts_runUdpBranch (cookie : Bytes) (timeout : Option Nat) (h : l.At auth opts 1 0) :
    Conducts auth (runUdpBranch cookie opts timeout) l fun l' _ => l'.Reporting auth opts 6 := by
  refine (plain_call rfl).bind fun _ => ?_
  refine (plain_call rfl).bind fun _ => ?_
  refine conducts_udpOpening h (by decide) fun l' addrs hrun haddrs => ?_
  dsimp only
  split
  · exact (conducts_udpBidirectional hrun haddrs).waitForTestEndIf
  · split
    · exact (conducts_udpReverse hrun haddrs).waitForTestEndIf
    · exact (conducts_udpForward hrun).waitForTestEndIf

/-- The accept loop's UDP sessions announce their port first. -/
theorem conducts_channelUdpBranch (cookie : Bytes) (timeout : Option Nat)
    (h : l.At auth opts 1 0) :
    Conducts auth (channelUdpBranch cookie opts timeout) l
      fun l' _ => l'.Reporting auth opts 6 := by
  refine (plain_call rfl).bind fun _ => ?_
  refine (plain_call rfl).bind fun dataPort => ?_
  refine conducts_send_bind (i := .byte .setDataPort) h (by decide) h.admitted fun l₀ h₀ _ => ?_
  refine conducts_send_bind (i := .port dataPort) h₀ (Nat.lt_succ_self 2) h₀.admitted
    fun l₁ h₁ _ => ?_
  refine conducts_udpOpening h₁ (Nat.lt_succ_self 3) fun l' addrs hrun haddrs => ?_
  dsimp only
  split
  · exact (conducts_udpBidirectional hrun haddrs).waitForTestEndIf
  · split
    · refine (conducts_udpReverse hrun haddrs).bind fun _ r hreport => ?_
      refine plain_ignore_waitForTestEnd.bind fun _ => ?_
      exact Conducts.waitForTestEndIf (conducts_pure hreport)
    · exact (conducts_udpForward hrun).waitForTestEndIf

theorem conducts_transfer (entry : Entry) (cookie : Bytes) (timeout : Option Nat)
    (h : l.At auth opts 1 0) :
    Conducts auth (transfer entry cookie opts timeout) l fun l' _ => l'.Reporting auth opts 6 := by
  cases entry with
  | listener =>
    show Conducts auth (if opts.udp then _ else _) l _
    split
    · exact conducts_runUdpBranch cookie timeout h
    · exact conducts_runTcpBranch cookie timeout h
  | channel =>
    show Conducts auth (if opts.udp then _ else _) l _
    split
    · exact conducts_channelUdpBranch cookie timeout h
    · exact conducts_channelTcpBranch timeout h

/-! ### Reporting -/

theorem Ledger.Reporting.mono {j k : Nat} (h : l.Reporting auth opts j) (hjk : j ≤ k) :
    l.Reporting auth opts k := by
  refine ⟨h.options, h.accepted, fun w hw => ?_, h.allJoined⟩
  have := h.ranks w hw
  omega

/-- A unit of the report, whether or not the write succeeds. -/
theorem report_sendItem {i : Item} {k : Nat} (h : l.Reporting auth opts k) (hk : k < i.rank)
    (hfits : l.Fits auth i) :
    (sessionConduct auth).wp (sendItem i) (fun l' _ => l'.Reporting auth opts i.rank) l :=
  ⟨may_send h.ranks hk hfits,
    fun _ _ => ⟨h.options, h.accepted, ranks_enter h.ranks hk, h.allJoined⟩⟩

theorem Ledger.Reporting.fits {k : Nat} (h : l.Reporting auth opts k) :
    l.Admitted auth ∧ l.joined.Perm l.spawned :=
  ⟨⟨opts, h.options, h.accepted⟩, h.allJoined⟩

/-- Our results are written and the client's read, or the exchange breaks off. -/
theorem report_exchangeResults {receipts : List StreamReceipt} {cpu : CpuUsage}
    (h : l.Reporting auth opts 6) :
    (sessionConduct auth).wp (exchangeResults receipts cpu)
      (fun l' _ => l'.Reporting auth opts 8) l := by
  have hbyte := report_sendItem (i := .byte .exchangeResults) h (by decide) h.fits
  refine wp_bind_phase hbyte (fun _ h₁ => h₁.mono (by decide)) fun l₁ _ h₁ => ?_
  have hresults := report_sendItem (i := .results (buildServerResults receipts cpu)) h₁
    (Nat.lt_succ_self 7) h₁.fits
  refine wp_bind_phase (anyway_ignore hresults) (fun _ h₂ => h₂) fun l₂ _ h₂ => ?_
  have hread : Plain (attempt recvResults) := uses_attempt (plain_call rfl)
  refine wp_of_neutral (uses_mono (fun _ => neutral_of_isPlain) ?_) fun _ => h₂
  refine uses_bind hread fun r => ?_
  cases r with
  | ok theirs => trivial
  | error e =>
    show Uses _ (if isPeerClosed e then pure () else fail (Stop.io ⟨e.kind, e.msg⟩) : Session Unit)
    split
    · trivial
    · trivial

theorem report_finalizeTest (h : l.Reporting auth opts 8) :
    (sessionConduct auth).wp finalizeTest (fun l' _ => l'.Reporting auth opts 9) l := by
  have hbyte := report_sendItem (i := .byte .displayResults) h (by decide) h.fits
  refine wp_bind_phase hbyte (fun _ h₁ => h₁) fun l₁ _ h₁ => ?_
  refine wp_of_neutral ?_ fun _ => h₁
  exact uses_bind ⟨neutral_of_isPlain rfl, fun _ => trivial⟩ fun _ => trivial

theorem conducts_reportResults (timeout : Option Nat) (receipts : List StreamReceipt)
    (h : l.Reporting auth opts 6) :
    Conducts auth (reportResults timeout receipts) l fun l' _ => l'.Reporting auth opts 9 := by
  refine (plain_call rfl).bind fun _ => ?_
  refine (plain_call rfl).bind fun cpu => ?_
  refine (conducts_tolerateClosed (report_exchangeResults h)).bind fun l₁ _ h₁ => ?_
  refine (conducts_tolerateClosed (report_finalizeTest h₁)).bind fun l₂ _ h₂ => ?_
  exact conducts_pure h₂

theorem conducts_sessionBody (entry : Entry) (timeout : Option Nat) (cookie : Bytes) :
    Conducts auth (sessionBody entry auth timeout cookie) Ledger.empty fun l' _ =>
      l'.joined.Perm l'.spawned := by
  refine conducts_admitOptions.bind fun l₁ opts h₁ => ?_
  refine (conducts_transfer entry cookie timeout h₁).bind fun l₂ receipts h₂ => ?_
  exact (conducts_reportResults timeout receipts h₂).mono fun _ _ h₃ => h₃.allJoined

theorem plain_acceptControl (timeout : Option Nat) : Plain (acceptControl timeout) :=
  uses_bind (plain_call rfl) fun _ => uses_bind (plain_call rfl) fun _ => plain_call rfl

theorem conducts_sessionProgram (entry : Entry) (cookie : Bytes) (timeout : Option Nat) :
    Conducts auth (sessionProgram entry auth cookie timeout) Ledger.empty fun l' _ =>
      l'.joined.Perm l'.spawned := by
  cases entry with
  | listener =>
    exact (plain_acceptControl timeout).bind fun c => conducts_sessionBody .listener timeout c
  | channel => exact conducts_sessionBody .channel timeout cookie

end Drivers

/-- The ledger of a transcript. -/
def Ledger.of (tr : Transcript) : Ledger :=
  tr.foldl (fun l ev => l.enter ev.1 ev.2) Ledger.empty

/-- `accept_udp_streams` returned as many addresses as it was asked for. -/
def UdpStreamsCounted (tr : Transcript) : Prop := ∀ ev ∈ tr, streamsCounted ev.1 ev.2

/-- Options that are not admitted are refused, and the session fails. -/
theorem refused_of_not_admitted {entry : Entry} {auth : AuthConfig} {cookie : Bytes}
    {timeout : Option Nat} {tr : Transcript} {r : Except Stop Nat}
    (hrun : Exec (sessionProgram entry auth cookie timeout) tr r) {opts : ClientOptions}
    (hopts : receivedOptions tr = some opts) (hno : ¬ admitted auth opts) :
    controlWrites tr = [.byte .paramExchange, .byte .accessDenied] ∧ ∃ e, r = .error e := by
  obtain ⟨pre, body, rfl, hpre, hbody⟩ := exec_sessionProgram hrun
  obtain ⟨hrec, hwrites, -⟩ := setup_silent body hpre
  rw [hrec] at hopts
  rcases hbody with ⟨rfl, -⟩ | ⟨cookie', hbody⟩
  · cases hopts
  rcases exec_sessionBody_cases hbody with ⟨hnone, -⟩ | ⟨opts', hsome, hadm⟩ |
    ⟨opts', a, e, -, rfl, rfl⟩
  · rw [hnone] at hopts
    cases hopts
  · rw [hsome] at hopts
    cases hopts
    exact absurd hadm hno
  · refine ⟨?_, e, rfl⟩
    rw [controlWrites, List.filterMap_append, ← controlWrites, hwrites]
    rfl

/-- **A session against any client.**  Every call that either driver makes is one that the ledger of
    the run so far allows, whatever the client, the network and the threads have answered.  If the
    options it received are not admitted, then it has written `ParamExchange` and `AccessDenied` and
    nothing else, and has failed.  When it returns a total, it has joined exactly the threads it
    started. -/
theorem session_conduct (entry : Entry) (auth : AuthConfig) (cookie : Bytes)
    (timeout : Option Nat) :
    (∀ before ev rest q,
      Steps (sessionProgram entry auth cookie timeout) (before ++ ev :: rest) q →
      UdpStreamsCounted (before ++ ev :: rest) → sessionMay auth (Ledger.of before) ev.1) ∧
    (∀ tr r opts, Exec (sessionProgram entry auth cookie timeout) tr r →
      receivedOptions tr = some opts → ¬ admitted auth opts →
      controlWrites tr = [.byte .paramExchange, .byte .accessDenied] ∧ ∃ e, r = .error e) ∧
    ∀ tr total, Exec (sessionProgram entry auth cookie timeout) tr (.ok total) →
      UdpStreamsCounted tr → (Ledger.of tr).joined.Perm (Ledger.of tr).spawned := by
  have hconducts : Conducts auth (sessionProgram entry auth cookie timeout) Ledger.empty fun l' _ =>
      l'.joined.Perm l'.spawned := conducts_sessionProgram entry cookie timeout
  refine ⟨?_, fun tr r opts hrun hopts hno => refused_of_not_admitted hrun hopts hno, ?_⟩
  · intro before ev rest q hsteps hcounted
    exact (wp_steps_answered hsteps hconducts fun ev hev _ => hcounted ev hev).of_split
  · intro tr total hexec hcounted
    exact wp_exec hexec hconducts (fun ev hev _ => hcounted ev hev) total rfl

/-- A session with one stream, from the options to the goodbye. -/
def oneReaderRun : Transcript :=
  let c : Conn := ⟨⟨1, 50000⟩, ⟨[], .closes⟩⟩
  let reader : Job := .tcpReader 1 c 0
  let receipt : StreamReceipt := { StreamReceipt.empty with bytes := 7 }
  [⟨.send (.byte .paramExchange), .ok ()⟩, ⟨.recvOptions, .ok tokenlessOptions⟩,
    ⟨.send (.byte .createStreams), .ok ()⟩, ⟨.recvDataStream none, .ok c⟩,
    ⟨.tune [c] (tuning tokenlessOptions), .ok ()⟩, ⟨.send (.byte .testStart), .ok ()⟩,
    ⟨.send (.byte .testRunning), .ok ()⟩, ⟨.setReadTimeout none, .ok ()⟩, ⟨.spawn reader, .ok ()⟩,
    ⟨.awaitByte [.testEnd], .ok Message.testEnd⟩, ⟨.join reader, .ok [receipt]⟩,
    ⟨.setReadTimeout none, .ok ()⟩, ⟨.cpuUsage 0, .ok ⟨0, 0, 0⟩⟩,
    ⟨.send (.byte .exchangeResults), .ok ()⟩,
    ⟨.send (.results (buildServerResults [receipt] ⟨0, 0, 0⟩)), .ok ()⟩,
    ⟨.recvResults, .ok (buildServerResults [] ⟨0, 0, 0⟩)⟩, ⟨.send (.byte .displayResults), .ok ()⟩,
    ⟨.awaitByte [.iperfDone, .clientTerminate], .ok Message.iperfDone⟩]

/-- The session with one stream; and one that refuses a client without a token, the write of
    `AccessDenied` failing. -/
theorem session_conduct_oneReader :
    (Exec (sessionProgram .channel none [] none) oneReaderRun (.ok 7) ∧
      (Ledger.of oneReaderRun).joined.Perm (Ledger.of oneReaderRun).spawned) ∧
    ∃ tr r, Exec (sessionProgram .channel (some fun _ => .error "no token") [] none) tr r ∧
      tr.length = 3 ∧ controlWrites tr = [.byte .paramExchange, .byte .accessDenied] ∧
      ∃ e, r = .error e := by
  constructor
  · have hexec : Exec (sessionProgram .channel none [] none) oneReaderRun (.ok 7) :=
      .op _ (.op _ (.op _ (.op _ (.op _ (.op _ (.op _ (.op _ (.op _ (.op _ (.op _ (.op _ (.op _
        (.op _ (.op _ (.op _ (.op _ (.op _ (.ret _))))))))))))))))))
    have hcounted : UdpStreamsCounted oneReaderRun := by
      simp [UdpStreamsCounted, oneReaderRun, streamsCounted]
    exact ⟨hexec, (session_conduct .channel none [] none).2.2 _ _ hexec hcounted⟩
  · have hexec : ∃ r, Exec (sessionProgram .channel (some fun _ => .error "no token") [] none)
        [⟨.send (.byte .paramExchange), .ok ()⟩, ⟨.recvOptions, .ok tokenlessOptions⟩,
          ⟨.send (.byte .accessDenied), .error (.io ⟨.brokenPipe, "Broken pipe"⟩)⟩] r :=
      ⟨_, .op _ (.op _ (.op _ (.ret _)))⟩
    obtain ⟨r, hexec⟩ := hexec
    have hno : ¬ admitted (some fun _ => .error "no token") tokenlessOptions :=
      fun hadm => by cases hadm.2 _ rfl
    exact ⟨_, r, hexec, rfl, (session_conduct .channel _ [] none).2.1 _ _ _ hexec rfl hno⟩

end Rperf3
