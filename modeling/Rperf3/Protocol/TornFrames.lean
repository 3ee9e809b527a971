/-
  What the two control writers do AFTER A SEND HAS FAILED.

  * A server session: a failed port number ends it; a failed results frame does not, the server goes
    on to its `DisplayResults` byte and stops writing there.  `torn` is that rule as a discipline,
    kept by both session drivers whatever the world answers.
  * A client logs every failed send and goes on; all one can say is that it sends no port numbers.
-/
import Rperf3.Client.Program
import Rperf3.Protocol.ServerConforms

namespace Rperf3

open Effect Effect.Prog Effect.Discipline

variable {α β : Type}

/-! ## What a server session writes -/

/-- The sends of a session, with their outcomes. -/
def sentItem : Event Op Op.Ok Stop → Option (Item × Except Stop Unit)
  | ⟨.send i, r⟩ => some (i, r)
  | _ => none

def serverSends (tr : Transcript) : List (Item × Except Stop Unit) := tr.filterMap sentItem

/-- What has gone wrong on the control connection so far. -/
inductive Torn
  | nothing
  | results
  | ended
  deriving DecidableEq

/-- After a failed results frame only `DisplayResults` may be written, after that nothing. -/
def tornMay : Torn → Op → Prop
  | .results, .send i => i = .byte .displayResults
  | .ended, .send _ => False
  | _, _ => True

/-- A failed byte leaves nothing behind; any other failed item may have been cut. -/
def Torn.after : Item → Torn
  | .byte _ => .nothing
  | .results _ => .results
  | _ => .ended

def tornNext : Torn → (o : Op) → Except Stop o.Ok → Torn
  | .nothing, .send i, .error _ => .after i
  | .results, .send _, _ => .ended
  | t, _, _ => t

/-- Whatever the world answers. -/
def torn : Discipline Op Op.Ok Stop Torn where
  may := tornMay
  answers _ _ _ := True
  next := tornNext

theorem sends_of_ended : ∀ {tr : Transcript}, torn.Allows .ended tr → serverSends tr = []
  | [], _ => rfl
  | ⟨o, a⟩ :: tr, ⟨hmay, hrest⟩ => by
    cases o with
    | send i => exact absurd hmay id
    | _ => exact (sends_of_ended hrest :)

theorem sends_of_results : ∀ {tr : Transcript}, torn.Allows .results tr →
    serverSends tr = [] ∨ ∃ r, serverSends tr = [(.byte .displayResults, r)]
  | [], _ => Or.inl rfl
  | ⟨o, a⟩ :: tr, ⟨hmay, hrest⟩ => by
    cases o with
    | send i =>
      obtain rfl : i = .byte .displayResults := hmay
      exact Or.inr ⟨a, congrArg (List.cons (Item.byte .displayResults, a)) (sends_of_ended hrest)⟩
    | _ => exact (sends_of_results hrest :)

theorem sends_of_after {tr : Transcript} {i : Item} (hi : ∀ m, i ≠ .byte m)
    (h : torn.Allows (.after i) tr) :
    serverSends tr = [] ∨ (∃ r, i = .results r) ∧
      ∃ a, serverSends tr = [(.byte .displayResults, a)] := by
  cases i with
  | byte m => exact absurd rfl (hi m)
  | port p => exact Or.inl (sends_of_ended h)
  | options o => exact Or.inl (sends_of_ended h)
  | results r => exact (sends_of_results h).imp_right fun hlast => ⟨⟨r, rfl⟩, hlast⟩

/-- **After a failed send** of more than a byte: nothing, or `DisplayResults` behind a results
    frame. -/
theorem sends_after_failure : ∀ {tr : Transcript}, torn.Allows .nothing tr →
    ∀ {before after : List (Item × Except Stop Unit)} {i : Item} {e : Stop},
    serverSends tr = before ++ (i, .error e) :: after → (∀ m, i ≠ .byte m) →
      after = [] ∨ (∃ r, i = .results r) ∧ ∃ a, after = [(.byte .displayResults, a)]
  | [], _, before, after, i, e, hsplit, _ =>
    absurd hsplit.symm (List.append_ne_nil_of_right_ne_nil before nofun)
  | ⟨o, a⟩ :: tr, ⟨_, hrest⟩, before, after, i, e, hsplit, hi => by
    cases o with
    | send j =>
      replace hsplit : ((j, a) : Item × Except Stop Unit) :: serverSends tr =
        before ++ (i, .error e) :: after := hsplit
      cases before with
      | nil =>
        obtain ⟨hhead, rfl⟩ := List.cons.inj hsplit
        cases hhead
        exact sends_of_after hi hrest
      | cons x before =>
        have htail : serverSends tr = before ++ (i, .error e) :: after := (List.cons.inj hsplit).2
        cases a with
        | ok u => exact sends_after_failure hrest htail hi
        | error e' =>
          by_cases hj : ∃ m, j = .byte m
          · obtain ⟨m, rfl⟩ := hj
            exact sends_after_failure hrest htail hi
          · -- this send may have been cut, so `i`, which is not a byte, was not sent after it
            have hmem : (i, Except.error e) ∈ serverSends tr := by
              rw [htail]
              exact List.mem_append_right before List.mem_cons_self
            rcases sends_of_after (fun m hm => hj ⟨m, hm⟩) hrest with hnil | ⟨-, b, hlast⟩
            · rw [hnil] at hmem
              exact absurd hmem List.not_mem_nil
            · rw [hlast] at hmem
              exact absurd (congrArg Prod.fst (List.mem_singleton.mp hmem)) (hi _)
    | _ =>
      have htail : serverSends tr = before ++ (i, .error e) :: after := hsplit
      exact sends_after_failure hrest htail hi

/-! ## Both drivers keep the rule -/

/-- Every send is a single byte. -/
def Op.sendsByte : Op → Bool
  | .send (.byte _) => true
  | .send _ => false
  | _ => true

def ByteSends (p : Session α) : Prop := Uses (fun o => o.sendsByte = true) p

/-- Nothing can have been cut when the program returns a value. -/
def KeepsWhole (p : Session α) : Prop :=
  torn.wp p (fun t r => ∀ a, r = .ok a → t = .nothing) .nothing

theorem ByteSends.stays {p : Session α} (hp : ByteSends p) {Q : Torn → Except Stop α → Prop}
    (hQ : ∀ r, Q .nothing r) : torn.wp p Q .nothing := by
  refine wp_of_stays (uses_mono (fun o ho => ?_) hp) hQ
  cases o with
  | send i =>
    cases i with
    | byte m =>
      refine ⟨trivial, fun r => ?_⟩
      cases r with
      | ok u => rfl
      | error e => rfl
    | _ => cases ho
  | _ => exact ⟨trivial, fun _ => rfl⟩

theorem ByteSends.keepsWhole {p : Session α} (hp : ByteSends p) : KeepsWhole p :=
  hp.stays fun _ _ _ => rfl

theorem KeepsWhole.bind {p : Session α} {f : α → Session β} (hp : KeepsWhole p)
    {Q : Torn → Except Stop β → Prop} (herr : ∀ t e, Q t (.error e))
    (hf : ∀ a, torn.wp (f a) Q .nothing) : torn.wp (p >>= f) Q .nothing := by
  refine wp_bind (R := fun t _ => t = .nothing) (wp_mono (fun t r hr => ?_) hp) fun t a ht => ?_
  · cases r with
    | ok a => exact hr a rfl
    | error e => exact herr t e
  · rw [ht]
    exact hf a

theorem Quiet.byteSends {p : Session α} (hp : Quiet p) : ByteSends p := by
  refine uses_mono (fun o ho => ?_) hp
  cases o with
  | send i => cases ho
  | _ => rfl

theorem byteSends_call {o : Op} (h : o.sendsByte = true) : ByteSends (call o) :=
  ⟨h, fun _ => trivial⟩

theorem byteSends_pure (a : α) : ByteSends (pure a) := trivial

theorem ByteSends.bind {p : Session α} {f : α → Session β} (hp : ByteSends p)
    (hf : ∀ a, ByteSends (f a)) : ByteSends (p >>= f) :=
  uses_bind hp hf

theorem byteSends_waitForTestEnd : ByteSends waitForTestEnd :=
  (byteSends_call rfl).bind fun _ => byteSends_pure ()

theorem byteSends_waitForTestEndIf (c : Bool) : ByteSends (waitForTestEndIf c) := by
  unfold waitForTestEndIf
  split
  · exact uses_ignore byteSends_waitForTestEnd
  · exact byteSends_pure ()

/-- The end of both UDP branches. -/
theorem byteSends_closeUdp (o : ClientOptions) (receipts : List StreamReceipt) : ByteSends (do
    waitForTestEndIf o.reverse
    pure receipts) :=
  (byteSends_waitForTestEndIf _).bind fun _ => byteSends_pure receipts

theorem byteSends_sendTestStartRunning : ByteSends sendTestStartRunning :=
  (byteSends_call rfl).bind fun _ => byteSends_call rfl

theorem byteSends_tcpForward (cs : List Conn) (o : ClientOptions) :
    ByteSends (tcpForward cs o) := by
  refine (quiet_spawnAll _).byteSends.bind fun _ => ?_
  exact byteSends_waitForTestEnd.bind fun _ => (quiet_joinStreamTotals _).byteSends

theorem byteSends_tcpReverse (cs : List Conn) (o : ClientOptions) :
    ByteSends (tcpReverse cs o) := by
  refine (quiet_runTcpSendStreams _ _).byteSends.bind fun r => ?_
  exact ByteSends.bind (uses_ignore byteSends_waitForTestEnd) fun _ => byteSends_pure r

theorem byteSends_tcpBidirectional (cs : List Conn) (o : ClientOptions) :
    ByteSends (tcpBidirectional cs o) := by
  refine (quiet_cloneAll _).byteSends.bind fun _ => ?_
  refine (byteSends_call rfl).bind fun _ => ?_
  refine (quiet_spawnAll _).byteSends.bind fun _ => ?_
  refine byteSends_waitForTestEnd.bind fun _ => ?_
  refine (quiet_joinStreamTotals _).byteSends.bind fun _ => ?_
  exact (quiet_joinOr _ _).byteSends.bind fun _ => byteSends_pure _

theorem byteSends_udpForward (addrs : List SocketAddr) (o : ClientOptions) :
    ByteSends (udpForward addrs o) := by
  refine (byteSends_call rfl).bind fun _ => ?_
  refine byteSends_waitForTestEnd.bind fun _ => ?_
  exact (byteSends_call rfl).bind fun _ => (quiet_joinOr _ _).byteSends

theorem byteSends_udpBidirectional (addrs : List SocketAddr) (o : ClientOptions) :
    ByteSends (udpBidirectional addrs o) := by
  refine (byteSends_call rfl).bind fun _ => ?_
  refine (byteSends_call rfl).bind fun _ => ?_
  refine (quiet_runUdpSendStreams _ _).byteSends.bind fun _ => ?_
  refine ByteSends.bind (uses_ignore byteSends_waitForTestEnd) fun _ => ?_
  refine (byteSends_call rfl).bind fun _ => ?_
  exact (quiet_joinOr _ _).byteSends.bind fun _ => byteSends_pure _

theorem byteSends_runTcpBranch (cookie : Bytes) (o : ClientOptions) (timeout : Option Nat) :
    ByteSends (runTcpBranch cookie o timeout) := by
  have haccept : ByteSends (acceptStreamsViaListener cookie o.parallel timeout) :=
    (byteSends_call rfl).bind fun _ => (quiet_acceptStreamsLoop _ _ _ _).byteSends
  refine haccept.bind fun streams => ?_
  refine ByteSends.bind (uses_ignore (byteSends_call rfl)) fun _ => ?_
  refine byteSends_sendTestStartRunning.bind fun _ => ?_
  refine (byteSends_call rfl).bind fun _ => ?_
  split
  · exact byteSends_tcpBidirectional streams o
  split
  · exact byteSends_tcpReverse streams o
  · exact byteSends_tcpForward streams o

theorem byteSends_channelTcpBranch (o : ClientOptions) (timeout : Option Nat) :
    ByteSends (channelTcpBranch o timeout) := by
  refine (byteSends_call rfl).bind fun _ => ?_
  refine (quiet_acceptStreamsFromChannel _ _).byteSends.bind fun streams => ?_
  refine ByteSends.bind (uses_ignore (byteSends_call rfl)) fun _ => ?_
  refine byteSends_sendTestStartRunning.bind fun _ => ?_
  refine (byteSends_call rfl).bind fun _ => ?_
  split
  · exact byteSends_tcpReverse streams o
  split
  · exact byteSends_tcpBidirectional streams o
  · exact byteSends_tcpForward streams o

theorem byteSends_runUdpBranch (cookie : Bytes) (o : ClientOptions) (timeout : Option Nat) :
    ByteSends (runUdpBranch cookie o timeout) := by
  refine (byteSends_call rfl).bind fun _ => ?_
  refine (byteSends_call rfl).bind fun _ => ?_
  refine (byteSends_call rfl).bind fun _ => ?_
  refine (byteSends_call rfl).bind fun addrs => ?_
  refine (byteSends_call rfl).bind fun _ => ?_
  refine byteSends_sendTestStartRunning.bind fun _ => ?_
  refine (byteSends_call rfl).bind fun _ => ?_
  dsimp only
  split
  · exact (byteSends_udpBidirectional addrs o).bind (byteSends_closeUdp o)
  split
  · exact (quiet_runUdpSendStreams addrs o).byteSends.bind (byteSends_closeUdp o)
  · exact (byteSends_udpForward addrs o).bind (byteSends_closeUdp o)

/-- A port number that could not be sent ends the session. -/
theorem keepsWhole_sendItem (i : Item) : KeepsWhole (sendItem i) := by
  refine wp_perform trivial fun r _ a hr => ?_
  rw [hr]
  rfl

theorem keepsWhole_channelUdpBranch (cookie : Bytes) (o : ClientOptions) (timeout : Option Nat) :
    KeepsWhole (channelUdpBranch cookie o timeout) := by
  have herr : ∀ (t : Torn) (e : Stop) (rs : List StreamReceipt),
      Except.error e = Except.ok rs → t = .nothing := fun _ _ _ h => nomatch h
  refine (byteSends_call rfl).keepsWhole.bind herr fun _ => ?_
  refine (byteSends_call rfl).keepsWhole.bind herr fun dataPort => ?_
  refine (byteSends_call rfl).keepsWhole.bind herr fun _ => ?_
  refine (keepsWhole_sendItem (.port dataPort)).bind herr fun _ => ?_
  refine ByteSends.keepsWhole ?_
  refine (byteSends_call rfl).bind fun _ => ?_
  refine (byteSends_call rfl).bind fun addrs => ?_
  refine (byteSends_call rfl).bind fun _ => ?_
  refine byteSends_sendTestStartRunning.bind fun _ => ?_
  refine (byteSends_call rfl).bind fun _ => ?_
  dsimp only
  split
  · exact (byteSends_udpBidirectional addrs o).bind (byteSends_closeUdp o)
  split
  · refine (quiet_runUdpSendStreams addrs o).byteSends.bind fun r => ?_
    exact ByteSends.bind (uses_ignore byteSends_waitForTestEnd) fun _ => byteSends_closeUdp o r
  · exact (byteSends_udpForward addrs o).bind (byteSends_closeUdp o)

theorem keepsWhole_transfer (entry : Entry) (cookie : Bytes) (o : ClientOptions)
    (timeout : Option Nat) : KeepsWhole (transfer entry cookie o timeout) := by
  cases entry with
  | listener =>
    show KeepsWhole (if o.udp then _ else _)
    split
    · exact (byteSends_runUdpBranch cookie o timeout).keepsWhole
    · exact (byteSends_runTcpBranch cookie o timeout).keepsWhole
  | channel =>
    show KeepsWhole (if o.udp then _ else _)
    split
    · exact keepsWhole_channelUdpBranch cookie o timeout
    · exact (byteSends_channelTcpBranch o timeout).keepsWhole

/-- `attempt` hands results on and touches nothing. -/
theorem wp_attempt {p : Session α} {R : Torn → Prop} {t : Torn} (h : torn.wp p (fun t _ => R t) t) :
    torn.wp (attempt p) (fun t _ => R t) t := by
  refine wp_onResult.mpr (wp_mono (fun t r ht => ?_) h)
  rcases r with (e | msg) | a
  · exact ht
  · exact ht
  · exact ht

theorem wp_attempt_bind {p : Session α} {f : Except IoError α → Session β} {R : Torn → Prop}
    {t : Torn} (h : torn.wp p (fun t _ => R t) t)
    (hf : ∀ t r, R t → torn.wp (f r) (fun t _ => R t) t) :
    torn.wp (attempt p >>= f) (fun t _ => R t) t :=
  wp_bind_phase (wp_attempt h) (fun _ ht => ht) hf

theorem wp_tolerateClosed {p : Session Unit} {R : Torn → Prop} {t : Torn}
    (h : torn.wp p (fun t _ => R t) t) : torn.wp (tolerateClosed p) (fun t _ => R t) t := by
  refine wp_attempt_bind h fun t r ht => ?_
  cases r with
  | ok u => exact ht
  | error e =>
    show torn.wp (if isPeerClosed e then _ else _) _ _
    split
    · exact ht
    · exact ht

/-- The results frame may fail; the exchange goes on. -/
theorem wp_exchangeResults (receipts : List StreamReceipt) (cpu : CpuUsage) :
    torn.wp (exchangeResults receipts cpu) (fun t _ => t ≠ .ended) .nothing := by
  have hbyte : ByteSends (sendByte .exchangeResults) := byteSends_call rfl
  refine wp_bind_phase (R := (· = .nothing)) (hbyte.stays fun _ => rfl) (fun t ht => ?_)
    fun t _ ht => ?_
  · rw [ht]
    exact nofun
  rw [ht]
  have hframe : torn.wp (sendItem (.results (buildServerResults receipts cpu)))
      (fun t _ => t ≠ .ended) .nothing := by
    refine wp_perform trivial fun r _ => ?_
    cases r with
    | ok u => exact nofun
    | error e => exact nofun
  refine wp_bind_phase (wp_attempt_bind hframe fun t r ht => ht) (fun _ ht => ht) fun t _ ht => ?_
  have hread : torn.wp recvResults (fun t _ => t ≠ .ended) t := by
    cases t with
    | ended => exact absurd rfl ht
    | _ => exact wp_perform trivial fun _ _ => ht
  refine wp_attempt_bind hread fun t r ht => ?_
  cases r with
  | ok u => exact ht
  | error e =>
    show torn.wp (if isPeerClosed e then _ else _) _ _
    split
    · exact ht
    · exact ht

/-- `DisplayResults` is the last unit either way. -/
theorem wp_finalizeTest {t : Torn} (ht : t ≠ .ended) :
    torn.wp finalizeTest (fun _ _ => True) t := by
  have hbyte : torn.wp (sendByte .displayResults) (fun _ _ => True) t := by
    cases t with
    | ended => exact absurd rfl ht
    | results => exact wp_perform rfl fun _ _ => trivial
    | nothing => exact wp_perform trivial fun _ _ => trivial
  refine wp_bind_phase hbyte (fun _ h => h) fun t _ _ => ?_
  have hread : torn.wp (awaitByte [.iperfDone, .clientTerminate]) (fun _ _ => True) t := by
    cases t with
    | _ => exact wp_perform trivial fun _ _ => trivial
  exact wp_bind_phase hread (fun _ h => h) fun _ _ h => h

theorem wp_reportResults (timeout : Option Nat) (receipts : List StreamReceipt) :
    torn.wp (reportResults timeout receipts) (fun _ _ => True) .nothing := by
  refine (byteSends_call rfl).keepsWhole.bind (fun _ _ => trivial) fun _ => ?_
  refine (byteSends_call rfl).keepsWhole.bind (fun _ _ => trivial) fun cpu => ?_
  refine wp_bind_phase (wp_tolerateClosed (wp_exchangeResults receipts cpu)) (fun _ _ => trivial)
    fun t _ ht => ?_
  exact wp_bind_phase (wp_tolerateClosed (wp_finalizeTest ht)) (fun _ h => h) fun _ _ h => h

/-- **Both drivers keep the rule**, whatever the world answers. -/
theorem wp_sessionProgram (entry : Entry) (auth : AuthConfig) (cookie : Bytes)
    (timeout : Option Nat) :
    torn.wp (sessionProgram entry auth cookie timeout) (fun _ _ => True) .nothing := by
  have hbody : ∀ cookie, torn.wp (sessionBody entry auth timeout cookie) (fun _ _ => True)
      .nothing := fun cookie => by
    have hadmit : ByteSends (admitOptions auth) :=
      uses_admitOptions (N := fun o => o.sendsByte = true) (fun _ => rfl) rfl auth
    refine hadmit.keepsWhole.bind (fun _ _ => trivial) fun opts => ?_
    refine (keepsWhole_transfer entry cookie opts timeout).bind (fun _ _ => trivial) ?_
    exact fun receipts => wp_reportResults timeout receipts
  cases entry with
  | channel => exact hbody cookie
  | listener =>
    exact (quiet_acceptControl timeout).byteSends.keepsWhole.bind (fun _ _ => trivial) hbody

/-! ## What a client writes on its control connection -/

def clientSent : Event ClientOp ClientOp.Ok IoError → Option (Item × Except IoError Unit)
  | ⟨.send i, r⟩ => some (i, r)
  | _ => none

def clientSends (tr : List (Event ClientOp ClientOp.Ok IoError)) :
    List (Item × Except IoError Unit) :=
  tr.filterMap clientSent

/-- Only the server sends port numbers. -/
def ClientOp.sendsNoPort : ClientOp → Bool
  | .send (.port _) => false
  | _ => true

def NoPort (p : ClientM α) : Prop := Uses (fun o => o.sendsNoPort = true) p

theorem noPort_attempt {o : ClientOp} (h : o.sendsNoPort = true) : NoPort (ClientM.attempt o) :=
  ⟨h, fun _ => trivial⟩

theorem noPort_logged {o : ClientOp} (h : o.sendsNoPort = true) : NoPort (ClientM.logged o) :=
  uses_bind (noPort_attempt h) fun _ => trivial

theorem noPort_call {o : ClientOp} (h : o.sendsNoPort = true) : NoPort (ClientM.call o) :=
  ⟨h, fun _ => trivial⟩

theorem noPort_drainReceipts (t : Test) : NoPort t.drainReceipts :=
  uses_bind (noPort_call rfl) fun _ => trivial

theorem noPort_sendLogged (t : Test) {i : Item} (h : (ClientOp.send i).sendsNoPort = true) :
    NoPort (t.sendLogged i) := by
  unfold Test.sendLogged
  split
  · exact noPort_logged h
  · trivial

theorem noPort_swapResults (t : Test) (ours : Results) : NoPort (t.swapResults ours) := by
  unfold Test.swapResults
  split
  · trivial
  refine uses_bind (noPort_attempt rfl) fun r => ?_
  cases r with
  | error e => trivial
  | ok u =>
    refine uses_bind (noPort_attempt rfl) fun r => ?_
    cases r with
    | error e => trivial
    | ok u =>
      refine uses_bind (noPort_attempt rfl) fun _ => ?_
      exact uses_bind (noPort_logged rfl) fun _ => trivial

theorem noPort_readDataPort (t : Test) : NoPort t.readDataPort := by
  unfold Test.readDataPort
  split
  · trivial
  refine uses_bind (noPort_logged rfl) fun _ => ?_
  refine uses_bind (noPort_attempt rfl) fun port => ?_
  refine uses_bind (noPort_logged rfl) fun _ => ?_
  cases port with
  | ok p => trivial
  | error e => trivial

theorem noPort_handleMessageClient (cfg : Config) (token : Option String) (m : Message)
    (t : Test) : NoPort (t.handleMessageClient cfg token m) := by
  cases m with
  | paramExchange => exact uses_bind (noPort_sendLogged t rfl) fun _ => trivial
  | createStreams => exact uses_bind (noPort_call rfl) fun _ => trivial
  | displayResults => exact uses_bind (noPort_sendLogged t rfl) fun _ => trivial
  | setDataPort => exact uses_bind (noPort_readDataPort t) fun _ => trivial
  | exchangeResults =>
    refine uses_bind ?_ fun _ => trivial
    refine uses_bind (noPort_drainReceipts t) fun t => ?_
    exact uses_bind (noPort_call rfl) fun cpu => noPort_swapResults t _
  | _ => trivial

theorem noPort_clientRecv (cfg : Config) (token : Option String) (t : Test) :
    NoPort (t.clientRecv cfg token) := by
  unfold Test.clientRecv
  split
  · trivial
  refine uses_bind (noPort_attempt rfl) fun r => ?_
  cases r with
  | ok m => exact noPort_handleMessageClient cfg token m t
  | error e => trivial

theorem noPort_countNotice (cfg : Config) (t : Test) (k : Nat) (sent : Bool)
    (notice : Option Message) : NoPort (t.countNotice cfg k sent notice) := by
  unfold Test.countNotice
  split
  · split
    · exact uses_bind (noPort_logged rfl) fun _ => trivial
    · trivial
  · trivial

theorem noPort_clientLoop (cfg : Config) (token : Option String) (n : Nat) (t : Test) (k : Nat)
    (sent : Bool) : NoPort (Test.clientLoop cfg token n t k sent) := by
  induction n generalizing t k sent with
  | zero => trivial
  | succ n ih =>
    refine uses_bind (noPort_clientRecv cfg token t) fun dt => ?_
    dsimp only
    split
    · exact uses_bind (noPort_drainReceipts _) fun _ => trivial
    · refine uses_bind (noPort_drainReceipts _) fun t => ?_
      refine uses_bind (noPort_call rfl) fun notice => ?_
      exact uses_bind (noPort_countNotice cfg t k sent notice) fun ks => ih t ks.1 ks.2

/-- A client sends bytes, options and results. -/
theorem clientSends_noPort {p q : ClientM α} {tr : List (Event ClientOp ClientOp.Ok IoError)}
    (h : Steps p tr q) (hp : NoPort p) {i : Item} {r : Except IoError Unit}
    (hmem : (i, r) ∈ clientSends tr) (port : Nat) : i ≠ .port port := by
  obtain ⟨⟨o, a⟩, hev, hsent⟩ := List.mem_filterMap.mp hmem
  have ho := uses_steps h hp _ hev
  cases o with
  | send j =>
    obtain rfl : j = i := congrArg Prod.fst (Option.some.inj hsent)
    rintro rfl
    cases ho
  | _ => cases hsent

end Rperf3
