/-
  Both session drivers KEEP THE DIALOGUE — except one branch of one of them.

  `Ends opts p s t`: started at place `s`, the program `p` keeps the discipline whatever sockets,
  threads and clocks do, and if it returns a value it is at place `t`.  The rules compose like the
  code: `Ends.bind` for a sequence, `Quiet.ends` for whole stretches of socket and thread handling,
  `Returns` for the control operations, which (writes succeeding, reads only ever blocking) always
  return.

  Every branch of `transfer` must get from "options read" to "`TestEnd` read".  The UDP half of
  `serve_session_from_channel` does so only if the test is NOT reversed: with `reverse` set it
  reads `TestEnd` in the branch and then once more after it.
-/
import Rperf3.Protocol.Script
import Rperf3.Server.AuthGate

namespace Rperf3

open Effect Effect.Prog Effect.Discipline

variable {α β : Type} {opts : ClientOptions}

/-! ## Quiet programs -/

/-- The program never touches the control channel. -/
def Quiet (p : Session α) : Prop := Uses (fun o => o.isQuiet = true) p

theorem quiet_pure (a : α) : Quiet (pure a) := trivial

theorem quiet_fail (e : Stop) : Quiet (fail e : Session α) := trivial

theorem quiet_call {o : Op} (h : o.isQuiet = true) : Quiet (call o) := ⟨h, fun _ => trivial⟩

theorem Quiet.bind {p : Session α} {f : α → Session β} (hp : Quiet p) (hf : ∀ a, Quiet (f a)) :
    Quiet (p >>= f) :=
  uses_bind hp hf

theorem Quiet.attempt {p : Session α} (hp : Quiet p) : Quiet (attempt p) := uses_attempt hp

theorem Quiet.ignore {p : Session α} (hp : Quiet p) : Quiet (ignore p) := uses_ignore hp

theorem Quiet.expect {p : Session α} (hp : Quiet p) (msg : String) : Quiet (expect msg p) := by
  refine uses_onResult hp fun r => ?_
  rcases r with (e | m) | a
  · exact quiet_fail _
  · exact quiet_fail _
  · exact quiet_pure _

theorem quiet_acceptStreamsLoop (cookie : Bytes) (timeout : Option Nat) (i n : Nat) :
    Quiet (acceptStreamsLoop cookie timeout i n) :=
  uses_acceptStreamsLoop (N := fun o => o.isQuiet = true) rfl (fun _ _ => rfl) (fun _ _ => rfl)
    cookie timeout i n

theorem quiet_acceptStreamsFromChannel (timeout : Option Nat) (n : Nat) :
    Quiet (acceptStreamsFromChannel timeout n) := by
  induction n with
  | zero => exact quiet_pure _
  | succ n ih => exact Quiet.bind (quiet_call rfl) fun _ => ih.bind fun _ => quiet_pure _

theorem quiet_spawnAll (js : List Job) : Quiet (spawnAll js) := by
  induction js with
  | nil => exact quiet_pure _
  | cons j js ih => exact Quiet.bind (quiet_call rfl) fun _ => ih

theorem quiet_spawnUdpSenders (js : List Job) : Quiet (spawnUdpSenders js) := by
  induction js with
  | nil => exact quiet_pure _
  | cons j js ih =>
    refine Quiet.bind (Quiet.expect (quiet_call rfl) _) fun _ => ?_
    exact Quiet.bind (quiet_call rfl) fun _ => ih

theorem quiet_joinOr (default : List StreamReceipt) (j : Job) : Quiet (joinOr default j) := by
  refine Quiet.bind (Quiet.attempt (quiet_call rfl)) fun r => ?_
  cases r with
  | ok rs => exact quiet_pure _
  | error e => exact quiet_pure _

theorem quiet_joinStreamTotals (js : List Job) : Quiet (joinStreamTotals js) := by
  induction js with
  | nil => exact quiet_pure _
  | cons j js ih => exact (quiet_joinOr _ j).bind fun _ => ih.bind fun _ => quiet_pure _

theorem quiet_cloneAll (cs : List Conn) : Quiet (cloneAll cs) := by
  induction cs with
  | nil => exact quiet_pure _
  | cons c cs ih => exact Quiet.bind (quiet_call rfl) fun _ => ih.bind fun _ => quiet_pure _

theorem quiet_runTcpSendStreams (cs : List Conn) (opts : ClientOptions) :
    Quiet (runTcpSendStreams cs opts) :=
  (quiet_spawnAll _).bind fun _ => quiet_joinStreamTotals _

theorem quiet_runUdpSendStreams (addrs : List SocketAddr) (opts : ClientOptions) :
    Quiet (runUdpSendStreams addrs opts) :=
  (quiet_spawnUdpSenders _).bind fun _ => quiet_joinStreamTotals _

theorem quiet_acceptControl (timeout : Option Nat) : Quiet (acceptControl timeout) :=
  Quiet.bind (quiet_call rfl) fun _ => Quiet.bind (quiet_call rfl) fun _ => quiet_call rfl

/-! ## Keeping the dialogue -/

/-- From `s`, the program keeps the dialogue and returns a value only at `t`. -/
def Ends (opts : ClientOptions) (p : Session α) (s t : Place) : Prop :=
  (dialogue opts).wp p (fun q r => ∀ a, r = .ok a → q = t) s

/-- From `s`, the program keeps the dialogue and returns, with `R` of its place and value. -/
def Returns (opts : ClientOptions) (p : Session α) (s : Place) (R : Place → α → Prop) : Prop :=
  (dialogue opts).wp p (fun q r => ∃ a, r = .ok a ∧ R q a) s

theorem ends_pure (a : α) (s : Place) : Ends opts (pure a) s s := fun _ _ => rfl

theorem Quiet.ends {p : Session α} (hp : Quiet p) (s : Place) : Ends opts p s s :=
  wp_of_neutral (uses_mono (fun _ => neutral_of_isQuiet) hp) fun _ _ _ => rfl

theorem Ends.bind {p : Session α} {f : α → Session β} {s t u : Place} (hp : Ends opts p s t)
    (hf : ∀ a, Ends opts (f a) t u) : Ends opts (p >>= f) s u := by
  refine wp_bind (R := fun q _ => q = t) (wp_mono (fun q r hr => ?_) hp) fun q a hq => ?_
  · cases r with
    | ok a => exact hr a rfl
    | error e => exact fun a ha => nomatch ha
  · rw [hq]
    exact hf a

theorem Returns.mono {p : Session α} {s : Place} {R R' : Place → α → Prop}
    (hp : Returns opts p s R) (hR : ∀ q a, R q a → R' q a) : Returns opts p s R' :=
  wp_mono (fun q _ ⟨a, hr, ha⟩ => ⟨a, hr, hR q a ha⟩) hp

theorem Returns.ends {p : Session α} {s t : Place} (hp : Returns opts p s fun q _ => q = t) :
    Ends opts p s t :=
  wp_mono (fun _ _ ⟨_, _, hq⟩ _ _ => hq) hp

/-- After a program that returns, whatever the rest is to do. -/
theorem Returns.wp_bind {p : Session α} {f : α → Session β} {s : Place} {R : Place → α → Prop}
    {Q : Place → Except Stop β → Prop} (hp : Returns opts p s R)
    (hf : ∀ q a, R q a → (dialogue opts).wp (f a) Q q) : (dialogue opts).wp (p >>= f) Q s := by
  refine Discipline.wp_bind (R := R) (wp_mono (fun q r hr => ?_) hp) hf
  obtain ⟨a, rfl, ha⟩ := hr
  exact ha

theorem Returns.bind {p : Session α} {f : α → Session β} {s : Place} {R : Place → α → Prop}
    {R' : Place → β → Prop} (hp : Returns opts p s R)
    (hf : ∀ q a, R q a → Returns opts (f a) q R') : Returns opts (p >>= f) s R' :=
  hp.wp_bind hf

theorem returns_pure {a : α} {s : Place} {R : Place → α → Prop} (h : R s a) :
    Returns opts (pure a) s R :=
  ⟨a, rfl, h⟩

/-- A program that returns leaves `attempt` nothing to catch. -/
theorem Returns.attempt {p : Session α} {s : Place} {R : Place → α → Prop}
    (hp : Returns opts p s R) :
    Returns opts (attempt p) s fun q x => ∃ a, x = .ok a ∧ R q a := by
  refine wp_onResult.mpr (wp_mono (fun q r hr => ?_) hp)
  obtain ⟨a, rfl, ha⟩ := hr
  exact ⟨.ok a, rfl, a, rfl, ha⟩

theorem Returns.ignore {p : Session α} {s t : Place} (hp : Returns opts p s fun q _ => q = t) :
    Returns opts (ignore p) s fun q _ => q = t :=
  hp.attempt.bind fun _ _ ⟨_, _, hq⟩ => returns_pure hq

theorem Returns.tolerateClosed {p : Session Unit} {s t : Place}
    (hp : Returns opts p s fun q _ => q = t) :
    Returns opts (tolerateClosed p) s fun q _ => q = t := by
  refine hp.attempt.bind fun q x hx => ?_
  obtain ⟨a, rfl, hq⟩ := hx
  exact returns_pure hq

/-! ### The control operations -/

theorem returns_sendItem {i : Item} {s : Place} {t : Stage}
    (hstep : serverScript.step i s.wrote = some t)
    (hend : i = .byte .exchangeResults → s.read.isEnded = true) :
    Returns opts (sendItem i) s fun q _ => q = ⟨t, s.read⟩ := by
  refine wp_perform ⟨by rw [hstep]; rfl, hend⟩ fun r hr => ⟨(), hr, ?_⟩
  show Place.mk ((serverScript.step i s.wrote).getD s.wrote) s.read = ⟨t, s.read⟩
  rw [hstep]
  rfl

theorem returns_sendByte {m : Message} {s : Place} {t : Stage}
    (hstep : serverScript.step (.byte m) s.wrote = some t) (hm : m ≠ .exchangeResults) :
    Returns opts (sendByte m) s fun q _ => q = ⟨t, s.read⟩ :=
  returns_sendItem hstep fun h => absurd (Item.byte.inj h) hm

/-- `ParamExchange`, then the client's options. -/
theorem returns_negotiateOptions :
    Returns opts negotiateOptions ⟨.idle, .nothing⟩
      fun q a => q = ⟨.asked, .options⟩ ∧ a = opts := by
  refine (returns_sendByte rfl (by decide)).bind fun q _ hq => ?_
  rw [hq]
  exact wp_perform rfl fun r hr => ⟨opts, hr, rfl, rfl⟩

theorem returns_sendTestStartRunning :
    Returns opts sendTestStartRunning ⟨.created, .options⟩ fun q _ => q = ⟨.running, .options⟩ := by
  refine (returns_sendByte rfl (by decide)).bind fun q _ hq => ?_
  rw [hq]
  exact returns_sendByte rfl (by decide)

/-- The one place where `TestEnd` may be awaited. -/
theorem returns_waitForTestEnd :
    Returns opts waitForTestEnd ⟨.running, .options⟩ fun q _ => q = ⟨.running, .testEnd⟩ := by
  have hread : Returns opts (awaitByte [.testEnd]) ⟨.running, .options⟩
      fun q _ => q = ⟨.running, .testEnd⟩ :=
    wp_perform (Or.inl ⟨rfl, rfl⟩) fun r ⟨m, _, hr⟩ => ⟨m, hr, rfl⟩
  exact hread.bind fun q _ hq => returns_pure hq

theorem returns_finalizeTest :
    Returns opts finalizeTest ⟨.reported, .results⟩ fun q _ => q = ⟨.display, .iperfDone⟩ := by
  refine (returns_sendByte rfl (by decide)).bind fun q _ hq => ?_
  rw [hq]
  have hread : Returns opts (awaitByte [.iperfDone, .clientTerminate]) ⟨.display, .results⟩
      fun q _ => q = ⟨.display, .iperfDone⟩ :=
    wp_perform (Or.inr ⟨rfl, rfl⟩) fun r ⟨m, _, hr⟩ => ⟨m, hr, rfl⟩
  exact hread.bind fun q _ hq => returns_pure hq

theorem returns_exchangeResults (receipts : List StreamReceipt) (cpu : CpuUsage) :
    Returns opts (exchangeResults receipts cpu) ⟨.running, .testEnd⟩
      fun q _ => q = ⟨.reported, .results⟩ := by
  refine (returns_sendItem rfl fun _ => rfl).bind fun q _ hq => ?_
  rw [hq]
  have hbody : Returns opts (sendItem (.results (buildServerResults receipts cpu)))
      ⟨.exchange, .testEnd⟩ fun q _ => q = ⟨.reported, .testEnd⟩ :=
    returns_sendItem rfl fun h => nomatch h
  refine hbody.ignore.bind fun q _ hq => ?_
  rw [hq]
  have hread : Returns opts recvResults ⟨.reported, .testEnd⟩
      fun q _ => q = ⟨.reported, .results⟩ :=
    wp_perform rfl fun r ⟨x, hr⟩ => ⟨x, hr, rfl⟩
  refine hread.attempt.bind fun q x hx => ?_
  obtain ⟨a, rfl, hq⟩ := hx
  exact returns_pure hq

/-! ## The transfer branches

Each must get from `running, options` (the test runs, its end is awaited) to `running, testEnd`. -/

theorem ends_tcpForward (cs : List Conn) (o : ClientOptions) :
    Ends opts (tcpForward cs o) ⟨.running, .options⟩ ⟨.running, .testEnd⟩ := by
  refine ((quiet_spawnAll _).ends _).bind fun _ => ?_
  refine returns_waitForTestEnd.ends.bind fun _ => ?_
  exact (quiet_joinStreamTotals _).ends _

theorem ends_tcpReverse (cs : List Conn) (o : ClientOptions) :
    Ends opts (tcpReverse cs o) ⟨.running, .options⟩ ⟨.running, .testEnd⟩ := by
  refine ((quiet_runTcpSendStreams _ _).ends _).bind fun r => ?_
  exact returns_waitForTestEnd.ignore.ends.bind fun _ => ends_pure r _

theorem ends_tcpBidirectional (cs : List Conn) (o : ClientOptions) :
    Ends opts (tcpBidirectional cs o) ⟨.running, .options⟩ ⟨.running, .testEnd⟩ := by
  refine ((quiet_cloneAll _).ends _).bind fun _ => ?_
  refine (Quiet.ends (quiet_call rfl) _).bind fun _ => ?_
  refine ((quiet_spawnAll _).ends _).bind fun _ => ?_
  refine returns_waitForTestEnd.ends.bind fun _ => ?_
  refine ((quiet_joinStreamTotals _).ends _).bind fun _ => ?_
  exact ((quiet_joinOr _ _).ends _).bind fun _ => ends_pure _ _

theorem ends_udpForward (addrs : List SocketAddr) (o : ClientOptions) :
    Ends opts (udpForward addrs o) ⟨.running, .options⟩ ⟨.running, .testEnd⟩ := by
  refine (Quiet.ends (quiet_call rfl) _).bind fun _ => ?_
  refine returns_waitForTestEnd.ends.bind fun _ => ?_
  refine (Quiet.ends (quiet_call rfl) _).bind fun _ => ?_
  exact (quiet_joinOr _ _).ends _

theorem ends_udpBidirectional (addrs : List SocketAddr) (o : ClientOptions) :
    Ends opts (udpBidirectional addrs o) ⟨.running, .options⟩ ⟨.running, .testEnd⟩ := by
  refine (Quiet.ends (quiet_call rfl) _).bind fun _ => ?_
  refine (Quiet.ends (quiet_call rfl) _).bind fun _ => ?_
  refine ((quiet_runUdpSendStreams _ _).ends _).bind fun _ => ?_
  refine returns_waitForTestEnd.ignore.ends.bind fun _ => ?_
  refine (Quiet.ends (quiet_call rfl) _).bind fun _ => ?_
  exact ((quiet_joinOr _ _).ends _).bind fun _ => ends_pure _ _

theorem ends_runTcpBranch (cookie : Bytes) (o : ClientOptions) (timeout : Option Nat) :
    Ends opts (runTcpBranch cookie o timeout) ⟨.asked, .options⟩ ⟨.running, .testEnd⟩ := by
  have haccept : Ends opts (acceptStreamsViaListener cookie o.parallel timeout)
      ⟨.asked, .options⟩ ⟨.created, .options⟩ :=
    (returns_sendByte rfl (by decide)).ends.bind fun _ => (quiet_acceptStreamsLoop _ _ _ _).ends _
  refine haccept.bind fun streams => ?_
  refine (Quiet.ends (Quiet.ignore (quiet_call rfl)) _).bind fun _ => ?_
  refine returns_sendTestStartRunning.ends.bind fun _ => ?_
  refine (Quiet.ends (quiet_call rfl) _).bind fun _ => ?_
  split
  · exact ends_tcpBidirectional streams o
  split
  · exact ends_tcpReverse streams o
  · exact ends_tcpForward streams o

theorem ends_channelTcpBranch (o : ClientOptions) (timeout : Option Nat) :
    Ends opts (channelTcpBranch o timeout) ⟨.asked, .options⟩ ⟨.running, .testEnd⟩ := by
  refine (returns_sendByte rfl (by decide)).ends.bind fun _ => ?_
  refine ((quiet_acceptStreamsFromChannel _ _).ends _).bind fun streams => ?_
  refine (Quiet.ends (Quiet.ignore (quiet_call rfl)) _).bind fun _ => ?_
  refine returns_sendTestStartRunning.ends.bind fun _ => ?_
  refine (Quiet.ends (quiet_call rfl) _).bind fun _ => ?_
  split
  · exact ends_tcpReverse streams o
  split
  · exact ends_tcpBidirectional streams o
  · exact ends_tcpForward streams o

/-- No client asks for both at once, see `sendOptions`. -/
theorem ends_runUdpBranch (cookie : Bytes) {o : ClientOptions} (timeout : Option Nat)
    (ho : ¬ (o.reverse = true ∧ o.bidirectional = true)) :
    Ends opts (runUdpBranch cookie o timeout) ⟨.asked, .options⟩ ⟨.running, .testEnd⟩ := by
  refine (Quiet.ends (quiet_call rfl) _).bind fun _ => ?_
  refine (Quiet.ends (quiet_call rfl) _).bind fun _ => ?_
  refine (returns_sendByte rfl (by decide)).ends.bind fun _ => ?_
  refine (Quiet.ends (quiet_call rfl) _).bind fun addrs => ?_
  refine (Quiet.ends (quiet_call rfl) _).bind fun _ => ?_
  refine returns_sendTestStartRunning.ends.bind fun _ => ?_
  refine (Quiet.ends (quiet_call rfl) _).bind fun _ => ?_
  cases hb : o.bidirectional with
  | true =>
    have hr : o.reverse = false := Bool.eq_false_iff.mpr fun hr => ho ⟨hr, hb⟩
    rw [hr]
    refine (ends_udpBidirectional addrs o).bind fun receipts => ?_
    exact (ends_pure () _).bind fun _ => ends_pure receipts _
  | false =>
    cases hr : o.reverse with
    | true =>
      refine ((quiet_runUdpSendStreams addrs o).ends _).bind fun receipts => ?_
      exact returns_waitForTestEnd.ignore.ends.bind fun _ => ends_pure receipts _
    | false =>
      refine (ends_udpForward addrs o).bind fun receipts => ?_
      exact (ends_pure () _).bind fun _ => ends_pure receipts _

/-- A reversed test would read `TestEnd` twice here. -/
theorem ends_channelUdpBranch (cookie : Bytes) {o : ClientOptions} (timeout : Option Nat)
    (hr : o.reverse = false) :
    Ends opts (channelUdpBranch cookie o timeout) ⟨.asked, .options⟩ ⟨.running, .testEnd⟩ := by
  refine (Quiet.ends (quiet_call rfl) _).bind fun _ => ?_
  refine (Quiet.ends (quiet_call rfl) _).bind fun dataPort => ?_
  refine (returns_sendByte rfl (by decide)).ends.bind fun _ => ?_
  have hport : Returns opts (sendItem (.port dataPort)) ⟨.portAnnounced, .options⟩
      fun q _ => q = ⟨.portSent, .options⟩ := returns_sendItem rfl fun h => nomatch h
  refine hport.ends.bind fun _ => ?_
  refine (returns_sendByte rfl (by decide)).ends.bind fun _ => ?_
  refine (Quiet.ends (quiet_call rfl) _).bind fun addrs => ?_
  refine (Quiet.ends (quiet_call rfl) _).bind fun _ => ?_
  refine returns_sendTestStartRunning.ends.bind fun _ => ?_
  refine (Quiet.ends (quiet_call rfl) _).bind fun _ => ?_
  rw [hr]
  cases hb : o.bidirectional with
  | true =>
    refine (ends_udpBidirectional addrs o).bind fun receipts => ?_
    exact (ends_pure () _).bind fun _ => ends_pure receipts _
  | false =>
    refine (ends_udpForward addrs o).bind fun receipts => ?_
    exact (ends_pure () _).bind fun _ => ends_pure receipts _

/-! ## The drivers -/

/-- The entry and options for which the server reads `TestEnd` once too often. -/
def ReadsEndTwice (entry : Entry) (opts : ClientOptions) : Prop :=
  entry = .channel ∧ opts.udp = true ∧ opts.reverse = true

theorem ends_transfer {entry : Entry} (cookie : Bytes) {o : ClientOptions} (timeout : Option Nat)
    (ho : ¬ (o.reverse = true ∧ o.bidirectional = true)) (hgood : ¬ ReadsEndTwice entry o) :
    Ends opts (transfer entry cookie o timeout) ⟨.asked, .options⟩ ⟨.running, .testEnd⟩ := by
  cases entry with
  | listener =>
    show Ends opts (if o.udp then _ else _) _ _
    split
    · exact ends_runUdpBranch cookie timeout ho
    · exact ends_runTcpBranch cookie o timeout
  | channel =>
    show Ends opts (if o.udp then _ else _) _ _
    split
    · rename_i hudp
      exact ends_channelUdpBranch cookie timeout
        (Bool.eq_false_iff.mpr fun hr => hgood ⟨rfl, hudp, hr⟩)
    · exact ends_channelTcpBranch o timeout

theorem ends_reportResults (timeout : Option Nat) (receipts : List StreamReceipt) :
    Ends opts (reportResults timeout receipts) ⟨.running, .testEnd⟩ ⟨.display, .iperfDone⟩ := by
  refine (Quiet.ends (quiet_call rfl) _).bind fun _ => ?_
  refine (Quiet.ends (quiet_call rfl) _).bind fun cpu => ?_
  refine (returns_exchangeResults receipts cpu).tolerateClosed.ends.bind fun _ => ?_
  refine returns_finalizeTest.tolerateClosed.ends.bind fun _ => ?_
  exact ends_pure _ _

theorem checkAuth_eq_pure {auth : AuthConfig} {o : ClientOptions}
    (h : ∀ inner ∈ auth, inner o = .ok ()) : checkAuth auth o = pure () := by
  cases auth with
  | none => rfl
  | some inner =>
    simp only [checkAuth]
    rw [h inner rfl]

/-- Options both checks accept are admitted. -/
theorem returns_admitOptions {auth : AuthConfig} (hadm : admitted auth opts) :
    Returns opts (admitOptions auth) ⟨.idle, .nothing⟩
      fun q a => q = ⟨.asked, .options⟩ ∧ a = opts := by
  refine returns_negotiateOptions.bind fun q a hqa => ?_
  obtain ⟨rfl, rfl⟩ := hqa
  obtain ⟨hvalid, hinner⟩ := hadm
  rw [hvalid]
  show Returns a (checkAuth auth a >>= fun _ => pure a) _ _
  rw [checkAuth_eq_pure hinner]
  exact returns_pure ⟨rfl, rfl⟩

theorem ends_sessionBody {entry : Entry} {auth : AuthConfig} (timeout : Option Nat) (cookie : Bytes)
    (hadm : admitted auth opts) (ho : ¬ (opts.reverse = true ∧ opts.bidirectional = true))
    (hgood : ¬ ReadsEndTwice entry opts) :
    Ends opts (sessionBody entry auth timeout cookie) ⟨.idle, .nothing⟩ ⟨.display, .iperfDone⟩ := by
  refine (returns_admitOptions hadm).wp_bind fun q a hqa => ?_
  obtain ⟨rfl, rfl⟩ := hqa
  exact (ends_transfer cookie timeout ho hgood).bind fun receipts =>
    ends_reportResults timeout receipts

/-- **Both drivers keep the dialogue**, unless the session comes from the accept loop and the test
    is a reversed UDP one. -/
theorem ends_sessionProgram {entry : Entry} {auth : AuthConfig} (cookie : Bytes)
    (timeout : Option Nat) (hadm : admitted auth opts)
    (ho : ¬ (opts.reverse = true ∧ opts.bidirectional = true))
    (hgood : ¬ ReadsEndTwice entry opts) :
    Ends opts (sessionProgram entry auth cookie timeout) ⟨.idle, .nothing⟩
      ⟨.display, .iperfDone⟩ := by
  cases entry with
  | listener =>
    exact ((quiet_acceptControl timeout).ends _).bind fun c =>
      ends_sessionBody timeout c hadm ho hgood
  | channel => exact ends_sessionBody timeout cookie hadm ho hgood

end Rperf3
