/-
  `client_loop` against ANY server.

  Nothing is assumed about the other end: every read may bring any message, any port or an error,
  every write may fail, and the stream threads report what and when they like.  What the client does
  is then stated relative to an ACCOUNT of the run so far:

  1. `Account` — what has been read, which requests have been answered, the last port, the receipts
     and notices taken, the `TestEnd`s written; `Account.enter` is the effect of one answered call.
  2. `conductMay` — what the client may do at an account.  A request is answered before the next
     message is read, by the one call that belongs to it and with the right content; a `TestEnd` is
     written when the last notice has been counted, and nothing else is ever written.
  3. The crux (`keeps_handleMessageClient`, `keeps_countNotice`): handling a message that has been
     entered settles it, and a notice keeps the count of `TestEnd`s in step with the notices.
  4. `clientLoop_conduct` — every call of every run is one that the account allows, and a run whose
     loop has ended has answered every request it read.
-/
import Rperf3.Client.Exit

namespace Rperf3

open Effect Effect.Prog Discipline ClientM

/-! ## The account of a run -/

/-- The messages that call for one answer. -/
def Message.asks : Message → Bool
  | .paramExchange | .createStreams | .exchangeResults | .displayResults | .setDataPort => true
  | _ => false

/-- What a transcript of the main thread amounts to. -/
structure Account where
  read : List Message
  answered : List Message
  port : Option Nat
  receipts : List ClientStreamReceipt
  notices : Nat
  testEnds : Nat

namespace Account

def empty : Account := ⟨[], [], none, [], 0, 0⟩

/-- The requests among the messages read. -/
def requests (a : Account) : List Message := a.read.filter Message.asks

/-- Every request has been answered, in order. -/
def Settled (a : Account) : Prop := a.requests = a.answered

/-- Only the answer to `m`, the last request, is missing. -/
def Owes (a : Account) (m : Message) : Prop := a.requests = a.answered ++ [m]

def receive (a : Account) (m : Message) : Account := { a with read := a.read ++ [m] }

def answer (a : Account) (m : Message) : Account := { a with answered := a.answered ++ [m] }

/-- The effect of one call and its outcome.  A write counts as made even if it fails. -/
def enter (a : Account) : (o : ClientOp) → Except IoError o.Ok → Account
  | .recvByte, .ok m => a.receive m
  | .recvPort, .ok p => { a.answer .setDataPort with port := some p }
  | .recvPort, .error _ => a.answer .setDataPort
  | .send (.options _), _ => a.answer .paramExchange
  | .send (.results _), _ => a.answer .exchangeResults
  | .send (.byte .iperfDone), _ => a.answer .displayResults
  | .send (.byte .testEnd), _ => { a with testEnds := a.testEnds + 1 }
  | .startStreams _, _ => a.answer .createStreams
  | .drainReceipts, .ok (rs : List ClientStreamReceipt) =>
    { a with receipts := a.receipts ++ rs }
  | .tryRecv, .ok (some .testEnd) => { a with notices := a.notices + 1 }
  | _, _ => a

end Account

/-- What the client may do next. -/
def conductMay (cfg : Config) (token : Option String) (a : Account) : ClientOp → Prop
  | .recvByte => a.Settled ∧ ∀ m ∈ a.read, m.endsLoop = false
  | .recvPort => a.Owes .setDataPort
  | .recvResults => a.Settled ∧ a.answered.getLast? = some .exchangeResults
  | .send (.options o) => a.Owes .paramExchange ∧ o = sendOptions cfg token
  | .send (.results r) =>
    a.Owes .exchangeResults ∧ r.streams = a.receipts.map streamResults
  | .send (.byte .iperfDone) => a.Owes .displayResults
  | .send (.byte .testEnd) => a.Settled ∧ a.testEnds = 0 ∧ a.notices = expectedStreams cfg
  | .send _ => False
  | .startStreams threads => a.Owes .createStreams ∧ threads = createStreams cfg a.port
  | _ => True

/-- The client's protocol: the world may answer anything. -/
def conduct (cfg : Config) (token : Option String) :
    Discipline ClientOp ClientOp.Ok IoError Account where
  may := conductMay cfg token
  answers _ _ _ := True
  next := Account.enter

/-! ## Rules -/

section Rules

variable {α β : Type} {cfg : Config} {token : Option String} {a : Account}

/-- From `a`, the program keeps the protocol, and if it returns `v` then with an account that
    satisfies `R`. -/
def Keeps (cfg : Config) (token : Option String) (p : ClientM α) (a : Account)
    (R : Account → α → Prop) : Prop :=
  (conduct cfg token).wp p (fun a' r => ∀ v, r = .ok v → R a' v) a

theorem keeps_pure {v : α} {R : Account → α → Prop} (h : R a v) :
    Keeps cfg token (pure v) a R := by
  intro w hw
  obtain rfl := Except.ok.inj hw
  exact h

theorem Keeps.bind {p : ClientM α} {f : α → ClientM β} {S : Account → α → Prop}
    {R : Account → β → Prop} (hp : Keeps cfg token p a S)
    (hf : ∀ a' v, S a' v → Keeps cfg token (f v) a' R) : Keeps cfg token (p >>= f) a R := by
  refine wp_bind (R := S) (wp_mono (fun a' r h => ?_) hp) hf
  cases r with
  | ok v => exact h v rfl
  | error e =>
    intro w hw
    cases hw

theorem keeps_attempt_bind {o : ClientOp} {f : Except IoError o.Ok → ClientM β}
    {R : Account → β → Prop} (hmay : conductMay cfg token a o)
    (hf : ∀ r, Keeps cfg token (f r) (a.enter o r) R) : Keeps cfg token (attempt o >>= f) a R :=
  ⟨hmay, fun r _ => hf r⟩

theorem keeps_logged_bind {o : ClientOp} {f : Unit → ClientM β} {R : Account → β → Prop}
    (hmay : conductMay cfg token a o) (hf : ∀ r, Keeps cfg token (f ()) (a.enter o r) R) :
    Keeps cfg token (logged o >>= f) a R :=
  ⟨hmay, fun r _ => hf r⟩

/-- A call that cannot fail. -/
theorem keeps_call_bind {o : ClientOp} {f : o.Ok → ClientM β} {R : Account → β → Prop}
    (hmay : conductMay cfg token a o) (hf : ∀ v, Keeps cfg token (f v) (a.enter o (.ok v)) R) :
    Keeps cfg token (call o >>= f) a R := by
  refine ⟨hmay, fun r _ => ?_⟩
  cases r with
  | ok v => exact hf v
  | error e =>
    intro w hw
    cases hw

end Rules

/-! ## One iteration -/

section Iteration

variable {cfg : Config} {token : Option String} {a : Account} {t : Test}

/-- The account agrees with the fields of the test. -/
structure Account.Tracks (a : Account) (t : Test) : Prop where
  connected : t.connected = true
  receipts : t.receipts = a.receipts
  port : t.dataPortOverride = a.port

/-- The account agrees with the loop's two counters. -/
structure Account.Counts (cfg : Config) (a : Account) (streamsFinished : Nat)
    (testEndSent : Bool) : Prop where
  notices : a.notices = streamsFinished
  sent : testEndSent = decide (expectedStreams cfg ≤ streamsFinished)
  testEnds : a.testEnds = testEndSent.toNat

/-- The account between two steps of an iteration. -/
structure Account.InLoop (cfg : Config) (a : Account) (t : Test) (streamsFinished : Nat)
    (testEndSent : Bool) : Prop where
  tracks : a.Tracks t
  counts : a.Counts cfg streamsFinished testEndSent
  settled : a.Settled

/-- What handling a message leaves as it was. -/
structure Account.SameFlow (a a' : Account) : Prop where
  read : a'.read = a.read
  notices : a'.notices = a.notices
  testEnds : a'.testEnds = a.testEnds

theorem keeps_drainReceipts (ht : a.Tracks t) :
    Keeps cfg token t.drainReceipts a fun a' t' =>
      a'.Tracks t' ∧ a.SameFlow a' ∧ a'.answered = a.answered := by
  refine keeps_call_bind trivial fun (rs : List ClientStreamReceipt) => keeps_pure ?_
  exact ⟨⟨ht.connected, congrArg (· ++ rs) ht.receipts, ht.port⟩, ⟨rfl, rfl, rfl⟩, rfl⟩

/-- A logged write, on a connected control channel. -/
theorem keeps_sendLogged_bind {β : Type} {i : Item} {f : Unit → ClientM β}
    {R : Account → β → Prop} (ht : a.Tracks t) (hmay : conductMay cfg token a (.send i))
    (hf : ∀ r, Keeps cfg token (f ()) (a.enter (.send i) r) R) :
    Keeps cfg token (t.sendLogged i >>= f) a R := by
  unfold Test.sendLogged
  rw [if_pos ht.connected]
  exact keeps_logged_bind hmay hf

/-- What handling a message leads to. -/
structure Account.Handled (a a' : Account) (t' : Test) : Prop where
  settled : a'.Settled
  tracks : a'.Tracks t'
  flow : a.SameFlow a'

/-- One call answers the request, and the test keeps its fields. -/
theorem Account.Owes.handled {m : Message} (howes : a.Owes m) (ht : a.Tracks t) :
    a.Handled (a.answer m) t :=
  ⟨howes, ⟨ht.connected, ht.receipts, ht.port⟩, ⟨rfl, rfl, rfl⟩⟩

theorem keeps_readDataPort (ht : a.Tracks t) (howes : a.Owes .setDataPort) :
    Keeps cfg token t.readDataPort a a.Handled := by
  unfold Test.readDataPort
  rw [ht.connected]
  refine keeps_logged_bind trivial fun _ => ?_
  refine keeps_attempt_bind howes fun r => ?_
  refine keeps_logged_bind trivial fun _ => ?_
  cases r with
  | ok p => exact keeps_pure ⟨howes, ⟨rfl, ht.receipts, rfl⟩, ⟨rfl, rfl, rfl⟩⟩
  | error e => exact keeps_pure (howes.handled ht)

/-- Our results go out first; the server's are read only behind them. -/
theorem keeps_swapResults {ours : Results} (ht : a.Tracks t) (howes : a.Owes .exchangeResults)
    (hours : ours.streams = a.receipts.map streamResults) :
    Keeps cfg token (t.swapResults ours) a a.Handled := by
  have hdone := howes.handled ht
  unfold Test.swapResults
  rw [ht.connected]
  refine keeps_attempt_bind ⟨howes, hours⟩ fun sent => ?_
  cases sent with
  | error e => exact keeps_pure hdone
  | ok u =>
    refine keeps_attempt_bind trivial fun switched => ?_
    cases switched with
    | error e => exact keeps_pure hdone
    | ok u =>
      refine keeps_attempt_bind ⟨hdone.settled, List.getLast?_concat⟩ fun theirs => ?_
      exact keeps_logged_bind trivial fun _ => keeps_pure hdone

theorem keeps_exchangeResults (ht : a.Tracks t) (howes : a.Owes .exchangeResults) :
    Keeps cfg token t.exchangeResults a a.Handled := by
  refine (keeps_drainReceipts ht).bind ?_
  rintro a₁ t₁ ⟨ht₁, hflow₁, hanswered⟩
  refine keeps_call_bind trivial fun cpu => ?_
  have howes₁ : a₁.Owes .exchangeResults := by
    unfold Account.Owes Account.requests at howes ⊢
    rw [hflow₁.read, hanswered]
    exact howes
  have hours : (buildClientResults t₁.receipts cpu).streams = a₁.receipts.map streamResults :=
    congrArg (List.map streamResults) ht₁.receipts
  refine wp_mono (fun a' r h v hv => ?_) (keeps_swapResults ht₁ howes₁ hours)
  obtain ⟨hsettled, htracks, hflow⟩ := h v hv
  exact ⟨hsettled, htracks, ⟨hflow.read.trans hflow₁.read, hflow.notices.trans hflow₁.notices,
    hflow.testEnds.trans hflow₁.testEnds⟩⟩

/-- **Handling a message** that has been entered: a request is answered, anything else leaves the
    account settled; the loop is told to end exactly by the messages that end it. -/
theorem keeps_handleMessageClient {m : Message} (ht : a.Tracks t)
    (hasks : m.asks = true → a.Owes m) (hother : m.asks = false → a.Settled) :
    Keeps cfg token (t.handleMessageClient cfg token m) a fun a' v =>
      v.1 = m.endsLoop ∧ a.Handled a' v.2 := by
  have hstay : ∀ t', a.Tracks t' → m.asks = false → a.Handled a t' :=
    fun t' ht' hm => ⟨hother hm, ht', ⟨rfl, rfl, rfl⟩⟩
  cases m with
  | paramExchange =>
    have howes := hasks rfl
    exact keeps_sendLogged_bind ht ⟨howes, rfl⟩ fun _ => keeps_pure ⟨rfl, howes.handled ht⟩
  | createStreams =>
    have howes := hasks rfl
    have hport : createStreams cfg t.dataPortOverride = createStreams cfg a.port :=
      congrArg (createStreams cfg) ht.port
    exact keeps_call_bind ⟨howes, hport⟩ fun _ => keeps_pure ⟨rfl, howes.handled ht⟩
  | exchangeResults =>
    exact (keeps_exchangeResults ht (hasks rfl)).bind fun _ _ h => keeps_pure ⟨rfl, h⟩
  | displayResults =>
    have howes := hasks rfl
    exact keeps_sendLogged_bind ht howes fun _ => keeps_pure ⟨rfl, howes.handled ht⟩
  | setDataPort =>
    exact (keeps_readDataPort ht (hasks rfl)).bind fun _ _ h => keeps_pure ⟨rfl, h⟩
  | testStart =>
    exact keeps_pure ⟨rfl, hstay _ ⟨ht.connected, ht.receipts, ht.port⟩ rfl⟩
  | testRunning =>
    exact keeps_pure ⟨rfl, hstay _ ⟨ht.connected, ht.receipts, ht.port⟩ rfl⟩
  | _ => exact keeps_pure ⟨rfl, hstay t ht rfl⟩

theorem Account.requests_receive (a : Account) (m : Message) :
    (a.receive m).requests = a.requests ++ if m.asks then [m] else [] := by
  show (a.read ++ [m]).filter Message.asks = _
  simp only [List.filter_append, List.filter_cons, List.filter_nil]
  rfl

theorem Account.Settled.receive_request {m : Message} (h : a.Settled) (hm : m.asks = true) :
    (a.receive m).Owes m := by
  unfold Account.Owes
  rw [a.requests_receive, if_pos hm, h]
  rfl

theorem Account.Settled.receive_other {m : Message} (h : a.Settled) (hm : m.asks = false) :
    (a.receive m).Settled := by
  unfold Account.Settled
  rw [a.requests_receive, hm, if_neg Bool.false_ne_true, List.append_nil, h]
  rfl

/-- No message read so far ends the loop; once the loop is done, the last one does. -/
def Account.Ended (a : Account) (isDone : Bool) : Prop :=
  ∃ earlier last, a.read = earlier ++ last ∧ (∀ m ∈ earlier, m.endsLoop = false) ∧
    if isDone then ∃ m, last = [m] ∧ m.endsLoop = true else last = []

theorem Account.ended_false : a.Ended false ↔ ∀ m ∈ a.read, m.endsLoop = false := by
  constructor
  · rintro ⟨earlier, last, hread, hearlier, hlast⟩
    obtain rfl : last = [] := hlast
    rw [hread, List.append_nil]
    exact hearlier
  · intro h
    exact ⟨a.read, [], (List.append_nil _).symm, h, rfl⟩

theorem Account.ended_true : a.Ended true ↔ ∃ earlier m, a.read = earlier ++ [m] ∧
    m.endsLoop = true ∧ ∀ m' ∈ earlier, m'.endsLoop = false := by
  constructor
  · rintro ⟨earlier, last, hread, hearlier, m, rfl, hm⟩
    exact ⟨earlier, m, hread, hm, hearlier⟩
  · rintro ⟨earlier, m, hread, hm, hearlier⟩
    exact ⟨earlier, [m], hread, hearlier, m, rfl, hm⟩

theorem Account.ended_receive {m : Message} (h : ∀ m' ∈ a.read, m'.endsLoop = false) :
    (a.receive m).Ended m.endsLoop := by
  cases hm : m.endsLoop with
  | true => exact ended_true.mpr ⟨a.read, m, rfl, hm, h⟩
  | false =>
    refine ended_false.mpr fun m' hm' => ?_
    rcases List.mem_append.mp hm' with hm' | hm'
    · exact h m' hm'
    · obtain rfl := List.mem_singleton.mp hm'
      exact hm

theorem keeps_clientRecv {k : Nat} {sent : Bool} (h : a.InLoop cfg t k sent)
    (hopen : ∀ m ∈ a.read, m.endsLoop = false) :
    Keeps cfg token (t.clientRecv cfg token) a fun a' v =>
      a'.InLoop cfg v.2 k sent ∧ a'.Ended v.1 := by
  unfold Test.clientRecv
  rw [h.tracks.connected]
  refine keeps_attempt_bind ⟨h.settled, hopen⟩ fun r => ?_
  cases r with
  | error e => exact keeps_pure ⟨h, Account.ended_false.mpr hopen⟩
  | ok m =>
    have hhandle : Keeps cfg token (t.handleMessageClient cfg token m) (a.receive m) fun a' v =>
        v.1 = Message.endsLoop m ∧ (a.receive m).Handled a' v.2 :=
      keeps_handleMessageClient ⟨h.tracks.connected, h.tracks.receipts, h.tracks.port⟩
        h.settled.receive_request h.settled.receive_other
    refine wp_mono (fun a' r hr v hv => ?_) hhandle
    obtain ⟨hdone, hsettled, htracks, hflow⟩ := hr v hv
    have hended : (a.receive m).Ended (Message.endsLoop m) := Account.ended_receive hopen
    refine ⟨⟨htracks, ⟨hflow.notices.trans h.counts.notices, h.counts.sent,
      hflow.testEnds.trans h.counts.testEnds⟩, hsettled⟩, ?_⟩
    unfold Account.Ended at hended ⊢
    rw [hdone, hflow.read]
    exact hended

theorem keeps_drainReceipts_inLoop {k : Nat} {sent : Bool} (h : a.InLoop cfg t k sent) :
    Keeps cfg token t.drainReceipts a fun a' t' => a'.InLoop cfg t' k sent ∧ a'.read = a.read := by
  refine wp_mono (fun a' r hr v hv => ?_) (keeps_drainReceipts h.tracks)
  obtain ⟨htracks, hflow, hanswered⟩ := hr v hv
  refine ⟨⟨htracks, ⟨hflow.notices.trans h.counts.notices, h.counts.sent,
    hflow.testEnds.trans h.counts.testEnds⟩, ?_⟩, hflow.read⟩
  unfold Account.Settled Account.requests
  rw [hflow.read, hanswered]
  exact h.settled

/-- A notice that completes no stream. -/
theorem Account.enter_other_notice {notice : Option Message} (h : notice ≠ some .testEnd) :
    a.enter .tryRecv (.ok notice) = a := by
  match notice, h with
  | none, _ => rfl
  | some m, h =>
    cases m with
    | testEnd => exact absurd rfl h
    | _ => rfl

/-- **Taking a notice**: the `TestEnd` goes out with the notice that completes the count. -/
theorem keeps_countNotice {k : Nat} {sent : Bool} {notice : Option Message}
    (h : a.InLoop cfg t k sent) :
    Keeps cfg token (t.countNotice cfg k sent notice) (a.enter .tryRecv (.ok notice))
      fun a' v => a'.InLoop cfg t v.1 v.2 ∧ a'.read = a.read := by
  by_cases hnotice : notice = some .testEnd
  · subst hnotice
    have hnotices : a.notices + 1 = k + 1 := congrArg (· + 1) h.counts.notices
    have hsent := h.counts.sent
    unfold Test.countNotice
    by_cases hsend : expectedStreams cfg ≤ k + 1 ∧ ¬ sent ∧ t.connected
    · rw [if_pos hsend]
      obtain rfl : sent = false := Bool.eq_false_iff.mpr hsend.2.1
      -- not sent before: the count was short by this one notice
      have hshort : ¬ expectedStreams cfg ≤ k := of_decide_eq_false hsent.symm
      have hfull : a.notices + 1 = expectedStreams cfg := by
        rw [hnotices]
        omega
      have hfirst : a.testEnds = 0 := h.counts.testEnds
      refine keeps_logged_bind ⟨h.settled, hfirst, hfull⟩ fun _ => keeps_pure ?_
      refine ⟨⟨⟨h.tracks.connected, h.tracks.receipts, h.tracks.port⟩, ⟨hnotices, ?_, ?_⟩,
        h.settled⟩, rfl⟩
      · exact (decide_eq_true hsend.1).symm
      · exact congrArg (· + 1) hfirst
    · rw [if_neg hsend]
      refine keeps_pure ⟨⟨⟨h.tracks.connected, h.tracks.receipts, h.tracks.port⟩,
        ⟨hnotices, ?_, h.counts.testEnds⟩, h.settled⟩, rfl⟩
      cases sent with
      | true =>
        have hle : expectedStreams cfg ≤ k := of_decide_eq_true hsent.symm
        exact (decide_eq_true (by omega)).symm
      | false =>
        have hshort : ¬ expectedStreams cfg ≤ k + 1 :=
          fun hle => hsend ⟨hle, Bool.false_ne_true, h.tracks.connected⟩
        exact (decide_eq_false hshort).symm
  · have hother : t.countNotice cfg k sent notice = pure (k, sent) := by
      unfold Test.countNotice
      split
      · exact absurd rfl hnotice
      · rfl
    rw [Account.enter_other_notice hnotice, hother]
    exact keeps_pure ⟨h, rfl⟩

/-! ## The loop -/

/-- What the loop leaves behind when it has ended, or after the iterations it was given. -/
structure Account.Closed (cfg : Config) (a : Account) (result : Option Test) : Prop where
  settled : a.Settled
  testEnds : a.testEnds = if expectedStreams cfg ≤ a.notices then 1 else 0
  ended : a.Ended result.isSome
  receipts : ∀ t, result = some t → t.receipts = a.receipts

theorem Account.Counts.testEnds_eq {k : Nat} {sent : Bool} (h : a.Counts cfg k sent) :
    a.testEnds = if expectedStreams cfg ≤ a.notices then 1 else 0 := by
  rw [h.testEnds, h.sent, h.notices]
  by_cases hle : expectedStreams cfg ≤ k
  · rw [if_pos hle, decide_eq_true hle]
    rfl
  · rw [if_neg hle, decide_eq_false hle]
    rfl

theorem keeps_clientLoop (n : Nat) {k : Nat} {sent : Bool} (h : a.InLoop cfg t k sent)
    (hopen : ∀ m ∈ a.read, m.endsLoop = false) :
    Keeps cfg token (t.clientLoop cfg token n k sent) a fun a' result => a'.Closed cfg result := by
  induction n generalizing a t k sent with
  | zero =>
    refine keeps_pure ⟨h.settled, h.counts.testEnds_eq, Account.ended_false.mpr hopen, ?_⟩
    intro t' ht'
    cases ht'
  | succ n ih =>
    refine (keeps_clientRecv h hopen).bind ?_
    rintro a₁ ⟨isDone, t₁⟩ ⟨h₁, hended⟩
    cases isDone with
    | true =>
      refine (keeps_drainReceipts_inLoop h₁).bind ?_
      rintro a₂ t₂ ⟨h₂, hread⟩
      refine keeps_pure ⟨h₂.settled, h₂.counts.testEnds_eq, ?_, ?_⟩
      · unfold Account.Ended at hended ⊢
        rw [hread]
        exact hended
      · intro t' ht'
        obtain rfl := Option.some.inj ht'
        exact h₂.tracks.receipts
    | false =>
      refine (keeps_drainReceipts_inLoop h₁).bind ?_
      rintro a₂ t₂ ⟨h₂, hread₂⟩
      refine keeps_call_bind trivial fun notice => ?_
      refine (keeps_countNotice h₂).bind ?_
      rintro a₃ ⟨k', sent'⟩ ⟨h₃, hread₃⟩
      refine ih h₃ fun m hm => Account.ended_false.mp hended m ?_
      rw [hread₃, hread₂] at hm
      exact hm

end Iteration

/-- The account of a transcript. -/
def Account.of (tr : List (Event ClientOp ClientOp.Ok IoError)) : Account :=
  tr.foldl (fun a ev => a.enter ev.1 ev.2) Account.empty

/-- **The client against any server.**  Every call that `client_loop` makes is one that the account
    of the run so far allows, whatever the server, the network and the stream threads have answered;
    and when the loop has ended, every request that was read has been answered once and in order,
    `TestEnd` was written once if all notices came and never otherwise, and the last message read is
    the one that ended the loop. -/
theorem clientLoop_conduct (cfg : Config) (token : Option String) (n : Nat) :
    (∀ before ev rest q,
      Steps ((Test.new true).clientLoop cfg token n 0 false) (before ++ ev :: rest) q →
      conductMay cfg token (Account.of before) ev.1) ∧
    ∀ tr result, Exec ((Test.new true).clientLoop cfg token n 0 false) tr (.ok result) →
      (Account.of tr).Closed cfg result := by
  have hstart : Account.empty.InLoop cfg (Test.new true) 0 false := by
    refine ⟨⟨rfl, rfl, rfl⟩, ⟨rfl, ?_, rfl⟩, rfl⟩
    have hpos := expectedStreams_pos cfg
    exact (decide_eq_false (by omega)).symm
  have hkeeps : Keeps cfg token ((Test.new true).clientLoop cfg token n 0 false) Account.empty
      fun a' result => a'.Closed cfg result :=
    keeps_clientLoop n hstart fun m hm => absurd hm List.not_mem_nil
  constructor
  · intro before ev rest q hsteps
    exact (wp_steps_answered hsteps hkeeps fun _ _ _ => trivial).of_split
  · intro tr result hexec
    exact wp_exec hexec hkeeps (fun _ _ _ => trivial) result rfl

/-- A server that asks for the options twice and then turns the client away. -/
def askedTwice : List (Event ClientOp ClientOp.Ok IoError) :=
  let options : Event ClientOp ClientOp.Ok IoError :=
    ⟨.send (.options (sendOptions (Config.withHost "server") none)), .ok ()⟩
  [⟨.recvByte, .ok Message.paramExchange⟩, options, ⟨.drainReceipts, .ok []⟩, ⟨.tryRecv, .ok none⟩,
    ⟨.recvByte, .ok Message.paramExchange⟩, options, ⟨.drainReceipts, .ok []⟩, ⟨.tryRecv, .ok none⟩,
    ⟨.recvByte, .ok Message.accessDenied⟩, ⟨.drainReceipts, .ok []⟩]

theorem clientLoop_conduct_askedTwice :
    Exec ((Test.new true).clientLoop (Config.withHost "server") none 3 0 false) askedTwice
      (.ok (some (Test.new true))) ∧
    (Account.of askedTwice).Closed (Config.withHost "server") (some (Test.new true)) ∧
    (Account.of askedTwice).answered = [.paramExchange, .paramExchange] := by
  have hexec : Exec ((Test.new true).clientLoop (Config.withHost "server") none 3 0 false)
      askedTwice (.ok (some (Test.new true))) :=
    .op _ (.op _ (.op _ (.op _ (.op _ (.op _ (.op _ (.op _ (.op _ (.op _ (.ret _))))))))))
  exact ⟨hexec, (clientLoop_conduct _ none 3).2 _ _ hexec, rfl⟩

end Rperf3
