/-
  Both session drivers, for protocols that look at nothing before the transfer.

  A protocol about the threads of a session does not care how the session came to its streams.  It
  overlooks every call of the opening (`Opening`), and what is left to say is what each kind of
  test does (`Transfers`) and what the report does; the walk through the two drivers is made here,
  once, for all such protocols.
-/
import Rperf3.Server.AuthGate

namespace Rperf3

open Effect Effect.Prog Discipline

/-- The calls of a driver that lead up to a transfer, the arrival of the options aside. -/
def Op.isOpening : Op → Bool
  | .recvOptions | .recvResults | .awaitByte _ | .cloneUdp | .cloneTcp _ | .spawn _ | .join _
  | .raiseStop | .cpuUsage _ => false
  | _ => true

/-- In `ph`, the protocol overlooks all of them. -/
def Opening {P : Type} (D : Discipline Op Op.Ok Stop P) (ph : P) : Prop :=
  ∀ o, o.isOpening = true → D.Overlooks ph o

/-- A program of such calls. -/
def Opens {α : Type} (p : Session α) : Prop := Uses (fun o => o.isOpening = true) p

theorem opens_call {o : Op} (h : o.isOpening = true) : Opens (call o) := ⟨h, fun _ => trivial⟩

section Rules

variable {P α β : Type} {D : Discipline Op Op.Ok Stop P} {ph : P} {E : P → Prop}

theorem Opens.bind {p : Session α} (hp : Opens p) {f : α → Session β} {R : P → β → Prop}
    (hopen : Opening D ph) (hE : E ph) (hf : ∀ v, D.Ensures (f v) ph R E) :
    D.Ensures (p >>= f) ph R E :=
  ensures_overlooked_bind (uses_mono hopen hp) hE hf

/-- The listener hands over as many streams as were asked for, or the session fails. -/
theorem overlook_acceptStreamsLoop (hopen : Opening D ph) (hE : E ph) (cookie : Bytes)
    (timeout : Option Nat) (n i : Nat) :
    D.Ensures (acceptStreamsLoop cookie timeout i n) ph
      (fun ph' cs => ph' = ph ∧ cs.length = n) E := by
  induction n generalizing i with
  | zero => exact ensures_pure ⟨rfl, rfl⟩
  | succ n ih =>
    refine (opens_call rfl).bind hopen hE fun data => ?_
    refine (opens_call rfl).bind hopen hE fun _ => ?_
    refine (opens_call rfl).bind hopen hE fun got => ?_
    split
    · exact ensures_fail hE
    · refine (opens_call rfl).bind hopen hE fun _ => ?_
      refine (ih (i + 1)).bind ?_
      rintro _ rest ⟨rfl, hlen⟩
      exact ensures_pure ⟨rfl, congrArg (· + 1) hlen⟩

theorem overlook_acceptStreamsFromChannel (hopen : Opening D ph) (hE : E ph) (timeout : Option Nat)
    (n : Nat) :
    D.Ensures (acceptStreamsFromChannel timeout n) ph
      (fun ph' cs => ph' = ph ∧ cs.length = n) E := by
  induction n with
  | zero => exact ensures_pure ⟨rfl, rfl⟩
  | succ n ih =>
    refine (opens_call rfl).bind hopen hE fun stream => ?_
    refine ih.bind ?_
    rintro _ rest ⟨rfl, hlen⟩
    exact ensures_pure ⟨rfl, congrArg (· + 1) hlen⟩

end Rules

/-! ## Transfers -/

/-- What a protocol says about each kind of test.  Where a client asks for both ways and for the
    reverse, the channel driver reverses and the listener driver goes both ways. -/
structure Transfers {P : Type} (D : Discipline Op Op.Ok Stop P) (entry : Entry) (cookie : Bytes)
    (opts : ClientOptions) (ph : P) (R E : P → Prop) : Prop where
  tcpForward : opts.udp = false → opts.bidirectional = false → opts.reverse = false →
    ∀ cs, cs.length = opts.parallel → D.Ensures (tcpForward cs opts) ph (fun ph' _ => R ph') E
  tcpReverse : opts.udp = false → opts.reverse = true →
    ∀ cs, cs.length = opts.parallel → D.Ensures (tcpReverse cs opts) ph (fun ph' _ => R ph') E
  tcpBoth : opts.udp = false → opts.bidirectional = true →
    (entry = .channel → opts.reverse = false) →
    ∀ cs, cs.length = opts.parallel → D.Ensures (tcpBidirectional cs opts) ph (fun ph' _ => R ph') E
  udpForward : opts.udp = true → opts.bidirectional = false → opts.reverse = false →
    ∀ addrs, D.answers ph (.acceptUdpStreams cookie opts.parallel) (.ok addrs) →
      D.Ensures (udpForward addrs opts) ph (fun ph' _ => R ph') E
  udpReverse : opts.udp = true → opts.bidirectional = false → opts.reverse = true →
    ∀ addrs, D.answers ph (.acceptUdpStreams cookie opts.parallel) (.ok addrs) →
      D.Ensures (runUdpSendStreams addrs opts) ph (fun ph' _ => R ph') E
  udpBoth : opts.udp = true → opts.bidirectional = true →
    ∀ addrs, D.answers ph (.acceptUdpStreams cookie opts.parallel) (.ok addrs) →
      D.Ensures (udpBidirectional addrs opts) ph (fun ph' _ => R ph') E

section Transfers

variable {P : Type} {D : Discipline Op Op.Ok Stop P} {entry : Entry} {cookie : Bytes}
  {opts : ClientOptions} {timeout : Option Nat} {ph : P} {R E : P → Prop}

theorem opens_sendTestStartRunning : Opens sendTestStartRunning :=
  uses_bind (opens_call rfl) fun _ => opens_call rfl

theorem opens_ignore_tune (cs : List Conn) (t : TuningOpts) : Opens (ignore (applyTuning cs t)) :=
  uses_ignore (opens_call rfl)

theorem overlook_runTcpBranch (hopen : Opening D ph) (hE : E ph) (hudp : opts.udp = false)
    (h : Transfers D .listener cookie opts ph R E) :
    D.Ensures (runTcpBranch cookie opts timeout) ph (fun ph' _ => R ph') E := by
  have hstreams : D.Ensures (acceptStreamsViaListener cookie opts.parallel timeout) ph
      (fun ph' cs => ph' = ph ∧ cs.length = opts.parallel) E :=
    (opens_call rfl).bind hopen hE fun _ => overlook_acceptStreamsLoop hopen hE cookie timeout _ 0
  refine hstreams.bind ?_
  rintro _ cs ⟨rfl, hlen⟩
  refine (opens_ignore_tune cs _).bind hopen hE fun _ => ?_
  refine opens_sendTestStartRunning.bind hopen hE fun _ => ?_
  refine (opens_call rfl).bind hopen hE fun _ => ?_
  split
  · rename_i hboth
    exact h.tcpBoth hudp hboth (fun heq => by cases heq) cs hlen
  · rename_i hboth
    split
    · rename_i hback
      exact h.tcpReverse hudp hback cs hlen
    · rename_i hback
      exact h.tcpForward hudp (eq_false_of_ne_true hboth) (eq_false_of_ne_true hback) cs hlen

theorem overlook_channelTcpBranch (hopen : Opening D ph) (hE : E ph) (hudp : opts.udp = false)
    (h : Transfers D .channel cookie opts ph R E) :
    D.Ensures (channelTcpBranch opts timeout) ph (fun ph' _ => R ph') E := by
  refine (opens_call rfl).bind hopen hE fun _ => ?_
  refine (overlook_acceptStreamsFromChannel hopen hE timeout _).bind ?_
  rintro _ cs ⟨rfl, hlen⟩
  refine (opens_ignore_tune cs _).bind hopen hE fun _ => ?_
  refine opens_sendTestStartRunning.bind hopen hE fun _ => ?_
  refine (opens_call rfl).bind hopen hE fun _ => ?_
  split
  · rename_i hback
    exact h.tcpReverse hudp hback cs hlen
  · rename_i hback
    split
    · rename_i hboth
      exact h.tcpBoth hudp hboth (fun _ => eq_false_of_ne_true hback) cs hlen
    · rename_i hboth
      exact h.tcpForward hudp (eq_false_of_ne_true hboth) (eq_false_of_ne_true hback) cs hlen

variable (hwait : ∀ ph', R ph' → D.Ensures (ignore waitForTestEnd) ph' (fun ph'' _ => R ph'') E)
include hwait

/-- The wait behind a UDP transfer. -/
theorem overlook_waitForTestEndIf {p : Session (List StreamReceipt)} {b : Bool}
    (hp : D.Ensures p ph (fun ph' _ => R ph') E) :
    D.Ensures (p >>= fun receipts => waitForTestEndIf b >>= fun _ => pure receipts) ph
      (fun ph' _ => R ph') E := by
  refine hp.bind fun ph' receipts hR => ?_
  unfold waitForTestEndIf
  split
  · exact (hwait ph' hR).bind fun _ _ hR' => ensures_pure hR'
  · exact ensures_pure hR

omit hwait in
/-- From `CreateStreams` to the start of a UDP transfer. -/
theorem overlook_udpOpening {α : Type} {S : P → α → Prop} {f : List SocketAddr → Session α}
    (hopen : Opening D ph) (hE : E ph)
    (hf : ∀ addrs, D.answers ph (.acceptUdpStreams cookie opts.parallel) (.ok addrs) →
      D.Ensures (f addrs) ph S E) :
    D.Ensures (sendByte .createStreams >>= fun _ => collectUdpStreams cookie opts.parallel
      >>= fun addrs => setUdpTimeout none >>= fun _ => sendTestStartRunning >>= fun _ =>
        setReadTimeout timeout >>= fun _ => f addrs) ph S E := by
  have hcollect : D.Overlooks ph (.acceptUdpStreams cookie opts.parallel) := hopen _ rfl
  refine (opens_call rfl).bind hopen hE fun _ => ?_
  refine ensures_perform_bind (o := Op.acceptUdpStreams cookie opts.parallel) hcollect.1
    (fun e _ => by rw [hcollect.2]; exact hE) fun addrs haddrs => ?_
  rw [hcollect.2]
  refine (opens_call rfl).bind hopen hE fun _ => ?_
  refine opens_sendTestStartRunning.bind hopen hE fun _ => ?_
  exact (opens_call rfl).bind hopen hE fun _ => hf addrs haddrs

theorem overlook_runUdpBranch (hopen : Opening D ph) (hE : E ph) (hudp : opts.udp = true)
    (h : Transfers D .listener cookie opts ph R E) :
    D.Ensures (runUdpBranch cookie opts timeout) ph (fun ph' _ => R ph') E := by
  refine (opens_call rfl).bind hopen hE fun _ => ?_
  refine (opens_call rfl).bind hopen hE fun _ => ?_
  refine overlook_udpOpening hopen hE fun addrs haddrs => ?_
  dsimp only
  split
  · rename_i hboth
    exact overlook_waitForTestEndIf hwait (h.udpBoth hudp hboth addrs haddrs)
  · rename_i hboth
    have hboth := eq_false_of_ne_true hboth
    split
    · rename_i hback
      exact overlook_waitForTestEndIf hwait (h.udpReverse hudp hboth hback addrs haddrs)
    · rename_i hback
      exact overlook_waitForTestEndIf hwait
        (h.udpForward hudp hboth (eq_false_of_ne_true hback) addrs haddrs)

theorem overlook_channelUdpBranch (hopen : Opening D ph) (hE : E ph) (hudp : opts.udp = true)
    (h : Transfers D .channel cookie opts ph R E) :
    D.Ensures (channelUdpBranch cookie opts timeout) ph (fun ph' _ => R ph') E := by
  refine (opens_call rfl).bind hopen hE fun _ => ?_
  refine (opens_call rfl).bind hopen hE fun dataPort => ?_
  refine (opens_call rfl).bind hopen hE fun _ => ?_
  refine (opens_call rfl).bind hopen hE fun _ => ?_
  refine overlook_udpOpening hopen hE fun addrs haddrs => ?_
  dsimp only
  split
  · rename_i hboth
    exact overlook_waitForTestEndIf hwait (h.udpBoth hudp hboth addrs haddrs)
  · rename_i hboth
    have hboth := eq_false_of_ne_true hboth
    split
    · rename_i hback
      refine (h.udpReverse hudp hboth hback addrs haddrs).bind fun ph' r hR => ?_
      refine (hwait ph' hR).bind fun ph'' _ hR' => ?_
      exact overlook_waitForTestEndIf hwait (ensures_pure hR')
    · rename_i hback
      exact overlook_waitForTestEndIf hwait
        (h.udpForward hudp hboth (eq_false_of_ne_true hback) addrs haddrs)

/-- **Both drivers, from the admitted options to the receipts.** -/
theorem overlook_transfer (hopen : Opening D ph) (hE : E ph)
    (h : Transfers D entry cookie opts ph R E) :
    D.Ensures (transfer entry cookie opts timeout) ph (fun ph' _ => R ph') E := by
  cases entry with
  | listener =>
    show D.Ensures (if opts.udp then _ else _) ph _ E
    split
    · exact overlook_runUdpBranch hwait hopen hE ‹_› h
    · exact overlook_runTcpBranch hopen hE (eq_false_of_ne_true ‹_›) h
  | channel =>
    show D.Ensures (if opts.udp then _ else _) ph _ E
    split
    · exact overlook_channelUdpBranch hwait hopen hE ‹_› h
    · exact overlook_channelTcpBranch hopen hE (eq_false_of_ne_true ‹_›) h

end Transfers

/-! ## Whole sessions -/

section Sessions

variable {P : Type} {D : Discipline Op Op.Ok Stop P} {ph₀ : P} {p : ClientOptions → P}
  {E : P → Prop}

/-- Admission ends with options that `validate_options` accepts. -/
theorem overlook_admitOptions (auth : AuthConfig) (hopen₀ : Opening D ph₀) (hE₀ : E ph₀)
    (hopen : ∀ opts, Opening D (p opts)) (hE : ∀ opts, E (p opts))
    (hrecv : D.Ensures recvOptions ph₀ (fun ph' opts => ph' = p opts) E) :
    D.Ensures (admitOptions auth) ph₀
      (fun ph' opts => ph' = p opts ∧ validateOptions opts = .ok ()) E := by
  have hrefuse : Opens (ignore (sendByte .accessDenied)) := uses_ignore (opens_call rfl)
  have hnegotiate : D.Ensures negotiateOptions ph₀ (fun ph' opts => ph' = p opts) E :=
    (opens_call rfl).bind hopen₀ hE₀ fun _ => hrecv
  refine hnegotiate.bind ?_
  rintro _ opts rfl
  cases hvalid : validateOptions opts with
  | error e => exact hrefuse.bind (hopen opts) (hE opts) fun _ => ensures_fail (hE opts)
  | ok u =>
    have hauth : D.Ensures (checkAuth auth opts) (p opts) (fun ph' _ => ph' = p opts) E := by
      unfold checkAuth
      split
      · exact ensures_pure rfl
      · split
        · exact ensures_pure rfl
        · exact hrefuse.bind (hopen opts) (hE opts) fun _ => ensures_fail (hE opts)
    refine hauth.bind ?_
    rintro _ _ rfl
    exact ensures_pure ⟨rfl, hvalid⟩

/-- **Both drivers, from the first call to the last.**  What a protocol that overlooks the opening
    has to say about a session: what the arrival of the options does, what the transfers do and
    what the report does. -/
theorem overlook_sessionProgram {entry : Entry} (auth : AuthConfig) (cookie : Bytes)
    {timeout : Option Nat} {R Q : P → Prop} (hopen₀ : Opening D ph₀) (hE₀ : E ph₀)
    (hopen : ∀ opts, Opening D (p opts)) (hE : ∀ opts, E (p opts))
    (hrecv : D.Ensures recvOptions ph₀ (fun ph' opts => ph' = p opts) E)
    (htransfers : ∀ cookie opts, validateOptions opts = .ok () →
      Transfers D entry cookie opts (p opts) R E)
    (hwait : ∀ ph', R ph' → D.Ensures (ignore waitForTestEnd) ph' (fun ph'' _ => R ph'') E)
    (hreport : ∀ ph' receipts, R ph' →
      D.Ensures (reportResults timeout receipts) ph' (fun ph'' _ => Q ph'') E) :
    D.Ensures (sessionProgram entry auth cookie timeout) ph₀ (fun ph' _ => Q ph') E := by
  have hbody : ∀ cookie, D.Ensures (sessionBody entry auth timeout cookie) ph₀
      (fun ph' _ => Q ph') E := by
    intro cookie
    refine (overlook_admitOptions auth hopen₀ hE₀ hopen hE hrecv).bind ?_
    rintro _ opts ⟨rfl, hvalid⟩
    refine (overlook_transfer hwait (hopen opts) (hE opts) (htransfers cookie opts hvalid)).bind ?_
    exact hreport
  cases entry with
  | channel => exact hbody cookie
  | listener =>
    have hcontrol : Opens (acceptControl timeout) :=
      uses_bind (opens_call rfl) fun _ => uses_bind (opens_call rfl) fun _ => opens_call rfl
    exact hcontrol.bind hopen₀ hE₀ hbody

end Sessions

end Rperf3
