/-
  `client.rs` and `common/json_output.rs`: THE SUMMARY that `exchange_results` prints.

  The client's own row is printed before the results are exchanged, the server's row, or the JSON
  document in place of both, once the server's results have been read.

  1. `exchangeAndPrint` is `Test.exchangeResults` with its output.
  2. `sent` and `received` read the two figures of a summary off its lines, whichever form it has.
  3. The figures, against what the two sides have counted: the byte total of the server is that of
     the whole test, the duration it is shown with is the client's; and in the JSON document the
     client is the sender in either direction.
-/
import Rperf3.Client.Program
import Rperf3.Server.TcpConservation
import Rperf3.Transfer.OmitWindow

namespace Rperf3

open Effect

/-! ## What is printed -/

inductive Role
  | sender | receiver
  deriving DecidableEq

/-- A row of the summary table, before it is formatted. -/
structure SummaryRow where
  streamId : Nat
  startSec : ℚ
  endSec : ℚ
  bytes : Nat
  role : Role
  deriving DecidableEq

structure JsonSum where
  bytes : Nat
  seconds : ℚ
  bitsPerSecond : ℚ
  deriving DecidableEq

/-- `JsonSum::new`. -/
def JsonSum.new (bytes : Nat) (seconds : ℚ) : JsonSum where
  bytes := bytes
  seconds := seconds
  bitsPerSecond := bytes * 8 / max seconds (1 / 1000000)

structure JsonEnd where
  sumSent : JsonSum
  sumReceived : JsonSum
  deriving DecidableEq

structure JsonTestStart where
  protocol : String
  numStreams : Nat
  blksize : Nat
  duration : Nat
  reverse : Nat
  bidir : Nat
  deriving DecidableEq

structure JsonStart where
  connectingTo : Option (String × Nat)
  testStart : JsonTestStart
  deriving DecidableEq

structure JsonOutput where
  start : JsonStart
  finish : JsonEnd
  deriving DecidableEq

/-- One `println!` of the summary. -/
inductive Line
  | separator
  | header
  | row (r : SummaryRow)
  | retransmits (n : Nat)
  | cpu (usage : CpuUsage)
  | json (j : JsonOutput)
  deriving DecidableEq

/-! ## `exchange_results` with its output -/

section Summary

variable (cfg : Config) (receipts : List ClientStreamReceipt)

/-- `sender_bytes` and `sender_duration`: of the steady state if some of the test is omitted. -/
def senderFigures : Nat × Nat :=
  let steady := clientMeasuredDuration receipts
  if 0 < cfg.omitSecs ∧ steady ≠ 0 then
    ((receipts.map ClientStreamReceipt.bytesMeasured).sum, steady)
  else
    ((receipts.map ClientStreamReceipt.bytesSent).sum, (clientSessionDuration receipts).getD 0)

/-- `sender_secs`. -/
def senderSecs : ℚ := secs (senderFigures cfg receipts).2

/-- `client_role`. -/
def clientRole (dir : Direction) : Role :=
  if dir.isBidirectional then .sender else if dir.isReverse then .receiver else .sender

/-- `server_role`. -/
def serverRole (dir : Direction) : Role :=
  if dir.isBidirectional then .receiver else if dir.isReverse then .sender else .receiver

/-- What is printed before the results are exchanged. -/
def clientLines : List Line :=
  if cfg.json then []
  else
    [.separator, .header,
      .row ⟨1, 0, senderSecs cfg receipts, (senderFigures cfg receipts).1,
        clientRole cfg.direction⟩]

/-- `server_bytes`. -/
def serverBytes (server : Results) : Nat := (server.streams.map StreamResults.bytes).sum

/-- The JSON document. -/
def jsonOutput (server : Results) : JsonOutput where
  start :=
    { connectingTo := some (cfg.host, cfg.port)
      testStart :=
        { protocol := if cfg.transport.isUdp then "UDP" else "TCP"
          numStreams := cfg.parallel
          blksize := cfg.len
          duration := cfg.time
          reverse := if cfg.direction.isReverse then 1 else 0
          bidir := if cfg.direction.isBidirectional then 1 else 0 } }
  finish :=
    { sumSent := .new (senderFigures cfg receipts).1 (senderSecs cfg receipts)
      sumReceived := .new (serverBytes server) (senderSecs cfg receipts) }

/-- The optional lines below a table. -/
def extraLines (cpu : CpuUsage) : List Line :=
  let retransmits := (receipts.map ClientStreamReceipt.retransmits).sum
  (if 0 < retransmits then [.retransmits retransmits] else []) ++
    if 0 < cpu.totalPct then [.cpu cpu] else []

/-- What is printed when the server's results have been read. -/
def serverLines (cpu : CpuUsage) (server : Results) : List Line :=
  if cfg.json then [.json (jsonOutput cfg receipts server)]
  else
    .row ⟨1, 0, senderSecs cfg receipts, serverBytes server, serverRole cfg.direction⟩ ::
      extraLines receipts cpu

/-- The summary of a test whose results have been exchanged. -/
def summary (cpu : CpuUsage) (server : Results) : List Line :=
  clientLines cfg receipts ++ serverLines cfg receipts cpu server

end Summary

namespace Test

/-- The second half of `exchange_results`, with the lines it prints. -/
def swapAndPrint (cfg : Config) (t : Test) (cpu : CpuUsage) : ClientM (Test × List Line) :=
  if !t.connected then pure (t, [])
  else do
    match ← ClientM.attempt (.send (.results (buildClientResults t.receipts cpu))) with
    | .error _ => pure (t, [])
    | .ok _ =>
      match ← ClientM.attempt (.setNonblocking false) with
      | .error _ => pure (t, [])
      | .ok _ => do
        let server ← ClientM.attempt .recvResults
        ClientM.logged (.setNonblocking true)
        match server with
        | .ok server => pure (t, serverLines cfg t.receipts cpu server)
        | .error _ => pure (t, [])

/-- `exchange_results`, with the lines it prints. -/
def exchangeAndPrint (cfg : Config) (t : Test) : ClientM (Test × List Line) := do
  let t ← t.drainReceipts
  let cpu ← ClientM.cpuUsage ((clientSessionDuration t.receipts).getD 0)
  let (t, lines) ← t.swapAndPrint cfg cpu
  pure (t, clientLines cfg t.receipts ++ lines)

/-- The calls are those of `swapResults`. -/
theorem fst_swapAndPrint (cfg : Config) (t : Test) (cpu : CpuUsage) :
    Prod.fst <$> t.swapAndPrint cfg cpu = t.swapResults (buildClientResults t.receipts cpu) := by
  unfold swapAndPrint swapResults
  split
  · rfl
  · rw [map_bind]
    congr 1
    funext sent
    cases sent with
    | error e => rfl
    | ok _ =>
      rw [map_bind]
      congr 1
      funext switched
      cases switched with
      | error e => rfl
      | ok _ =>
        rw [map_bind]
        congr 1
        funext server
        rw [map_bind]
        congr 1
        funext _
        cases server with
        | error e => rfl
        | ok server => rfl

/-- **The program that prints makes the same calls** as the one that does not. -/
theorem fst_exchangeAndPrint (cfg : Config) (t : Test) :
    Prod.fst <$> t.exchangeAndPrint cfg = t.exchangeResults := by
  unfold exchangeAndPrint exchangeResults
  rw [map_bind]
  congr 1
  funext t
  rw [map_bind]
  congr 1
  funext cpu
  rw [map_bind, ← fst_swapAndPrint cfg]
  rw [map_eq_pure_bind]
  rfl

theorem exec_attempt_bind {o : ClientOp} {α : Type} {f : Except IoError o.Ok → ClientM α}
    {tr : List (Prog.Event ClientOp ClientOp.Ok IoError)} {r : Except IoError α}
    (h : Prog.Exec (ClientM.attempt o >>= f) tr r) :
    ∃ a tr', tr = ⟨o, a⟩ :: tr' ∧ Prog.Exec (f a) tr' r :=
  Prog.exec_op.mp h

theorem exec_pure_ok {α : Type} {a b : α} {tr : List (Prog.Event ClientOp ClientOp.Ok IoError)}
    (h : Prog.Exec (pure a : ClientM α) tr (.ok b)) : b = a := by
  obtain ⟨-, hb⟩ := Prog.exec_ret.mp h
  exact Except.ok.inj hb

/-- The server's lines come from results that have been read. -/
theorem lines_of_swapAndPrint {cfg : Config} {t : Test} {cpu : CpuUsage}
    {tr : List (Prog.Event ClientOp ClientOp.Ok IoError)} {p : Test × List Line}
    (h : Prog.Exec (t.swapAndPrint cfg cpu) tr (.ok p)) :
    p = (t, []) ∨ ∃ server, ⟨.recvResults, .ok server⟩ ∈ tr ∧
      p = (t, serverLines cfg t.receipts cpu server) := by
  unfold swapAndPrint at h
  split at h
  · exact .inl (exec_pure_ok h)
  obtain ⟨sent, tr₁, rfl, hsent⟩ := exec_attempt_bind h
  cases sent with
  | error e => exact .inl (exec_pure_ok hsent)
  | ok _ =>
    obtain ⟨switched, tr₂, rfl, hswitched⟩ := exec_attempt_bind hsent
    cases switched with
    | error e => exact .inl (exec_pure_ok hswitched)
    | ok _ =>
      obtain ⟨server, tr₃, rfl, hserver⟩ := exec_attempt_bind hswitched
      obtain ⟨restored, tr₄, rfl, hrestored⟩ := exec_attempt_bind hserver
      cases server with
      | error e => exact .inl (exec_pure_ok hrestored)
      | ok server =>
        refine .inr ⟨server, ?_, exec_pure_ok hrestored⟩
        exact List.mem_cons_of_mem _ (List.mem_cons_of_mem _ List.mem_cons_self)

/-- **What an execution prints**: the client's own lines, and with the server's results, once they
    have been read, the whole summary. -/
theorem lines_of_exchangeAndPrint {cfg : Config} {t t' : Test} {lines : List Line}
    {tr : List (Prog.Event ClientOp ClientOp.Ok IoError)}
    (h : Prog.Exec (t.exchangeAndPrint cfg) tr (.ok (t', lines))) :
    lines = clientLines cfg t'.receipts ∨
      ∃ cpu server, ⟨.recvResults, .ok server⟩ ∈ tr ∧
        lines = summary cfg t'.receipts cpu server := by
  rcases Prog.exec_bind.mp h with ⟨e, -, he⟩ | ⟨tr₁, tr₂, t₁, rfl, -, h₁⟩
  · cases he
  rcases Prog.exec_bind.mp h₁ with ⟨e, -, he⟩ | ⟨tr₃, tr₄, cpu, rfl, -, h₂⟩
  · cases he
  rcases Prog.exec_bind.mp h₂ with ⟨e, -, he⟩ | ⟨tr₅, tr₆, ⟨t₂, printed⟩, rfl, hswap, h₃⟩
  · cases he
  cases exec_pure_ok h₃
  rcases lines_of_swapAndPrint hswap with hprinted | ⟨server, hread, hprinted⟩
  · cases hprinted
    exact .inl (List.append_nil _)
  · cases hprinted
    refine .inr ⟨cpu, server, ?_, rfl⟩
    exact List.mem_append_right _ (List.mem_append_right _ (List.mem_append_left _ hread))

end Test

/-! ## The two figures -/

/-- Bytes and seconds under the label of a role. -/
def Line.figure (role : Role) : Line → Option (Nat × ℚ)
  | row r => if r.role = role then some (r.bytes, r.endSec - r.startSec) else none
  | json j =>
    match role with
    | .sender => some (j.finish.sumSent.bytes, j.finish.sumSent.seconds)
    | .receiver => some (j.finish.sumReceived.bytes, j.finish.sumReceived.seconds)
  | _ => none

section Figures

variable (cfg : Config) (receipts : List ClientStreamReceipt) (cpu : CpuUsage) (server : Results)

/-- The lines below a table hold no figure. -/
theorem figure_extraLines (role : Role) :
    (extraLines receipts cpu).filterMap (Line.figure role) = [] := by
  rw [List.filterMap_eq_nil_iff]
  intro line hline
  rcases List.mem_append.mp hline with h | h
  · split at h
    · rw [List.mem_singleton.mp h]
      rfl
    · cases h
  · split at h
    · rw [List.mem_singleton.mp h]
      rfl
    · cases h

/-- The two rows of a table have different labels. -/
theorem serverRole_eq_iff (dir : Direction) (role : Role) :
    serverRole dir = role ↔ clientRole dir ≠ role := by
  cases dir <;> cases role <;> decide

/-- What the client's total is labelled: a document takes it for the sender's. -/
def clientLabel : Role := if cfg.json then .sender else clientRole cfg.direction

/-- **Each role has one figure**: the client's total or the server's, and the client's duration. -/
theorem figure_summary (role : Role) :
    (summary cfg receipts cpu server).filterMap (Line.figure role) =
      [(if clientLabel cfg = role then (senderFigures cfg receipts).1 else serverBytes server,
        senderSecs cfg receipts)] := by
  unfold summary clientLines serverLines clientLabel
  cases cfg.json with
  | true =>
    cases role with
    | sender => rfl
    | receiver => rfl
  | false =>
    simp only [Bool.false_eq_true, if_false, List.cons_append, List.nil_append,
      List.filterMap_cons, Line.figure, figure_extraLines, serverRole_eq_iff, sub_zero]
    by_cases hrole : clientRole cfg.direction = role
    · rw [if_pos hrole, if_neg (not_not_intro hrole), if_pos hrole]
    · rw [if_neg hrole, if_pos hrole, if_neg hrole]

end Figures

/-! ## The omit window -/

/-- Two totals, one term by term below the other, agree iff all terms do. -/
theorem sum_map_eq_iff {α : Type} {f g : α → Nat} (h : ∀ x, g x ≤ f x) (l : List α) :
    (l.map f).sum = (l.map g).sum ↔ ∀ x ∈ l, f x = g x := by
  induction l with
  | nil => simp
  | cons x l ih =>
    have hx := h x
    have hl : (l.map g).sum ≤ (l.map f).sum := List.sum_le_sum fun y _ => h y
    rw [List.map_cons, List.map_cons, List.sum_cons, List.sum_cons, List.forall_mem_cons, ← ih]
    omega

theorem serverBytes_buildServerResults (served : List StreamReceipt) (cpu : CpuUsage) :
    serverBytes (buildServerResults served cpu) = (served.map StreamReceipt.bytes).sum := by
  rw [serverBytes, bytes_serverResults]

/-- **The receiver's figure is that of the measurement window iff nothing fell into the omit
    window.**  The sender's always is. -/
theorem receiver_figure_measured_iff (cfg : Config) (receipts : List ClientStreamReceipt)
    (cpu serverCpu : CpuUsage) (served : List StreamReceipt) (hdir : cfg.direction = .forward)
    (homit : 0 < cfg.omitSecs) (hsteady : clientMeasuredDuration receipts ≠ 0) :
    (summary cfg receipts cpu (buildServerResults served serverCpu)).filterMap
        (Line.figure .sender) =
      [((receipts.map ClientStreamReceipt.bytesMeasured).sum,
        secs (clientMeasuredDuration receipts))] ∧
    ((summary cfg receipts cpu (buildServerResults served serverCpu)).filterMap
        (Line.figure .receiver) =
      [((served.map StreamReceipt.bytesMeasured).sum, secs (clientMeasuredDuration receipts))] ↔
      ∀ r ∈ served, r.bytesOmit = 0 ∨ r.bytes = 0) := by
  have hfigures : senderFigures cfg receipts =
      ((receipts.map ClientStreamReceipt.bytesMeasured).sum, clientMeasuredDuration receipts) :=
    if_pos ⟨homit, hsteady⟩
  have hlabel : clientLabel cfg = .sender := by
    unfold clientLabel
    rw [hdir]
    split
    · rfl
    · rfl
  have hsecs : senderSecs cfg receipts = secs (clientMeasuredDuration receipts) := by
    rw [senderSecs, hfigures]
  rw [figure_summary, figure_summary, hlabel, hfigures, hsecs, serverBytes_buildServerResults]
  refine ⟨rfl, ?_⟩
  rw [if_neg (by decide)]
  have hsum := sum_map_eq_iff (f := StreamReceipt.bytes) (g := StreamReceipt.bytesMeasured)
    (fun r => Nat.sub_le _ _) served
  have hterm : ∀ r : StreamReceipt, r.bytes = r.bytesMeasured ↔ r.bytesOmit = 0 ∨ r.bytes = 0 := by
    intro r
    unfold StreamReceipt.bytesMeasured
    omega
  simp only [hterm] at hsum
  rw [← hsum]
  constructor
  · intro h
    exact congrArg Prod.fst (List.head_eq_of_cons_eq h)
  · intro h
    rw [h]

/-- A test that leaves out its first second. -/
def omitOneSecond : Config := { Config.withHost "localhost" with omitSecs := 1 }

/-- A thousand bytes at once and after each of two seconds, then the end. -/
def threeTransfers : List Turn :=
  [⟨0, 0, 0, .ok 1000⟩, ⟨0, 0, nanos, .ok 1000⟩, ⟨0, 0, nanos, .ok 1000⟩,
    ⟨fromSecs 20, 0, 0, .ok 0⟩]

/-- Both sides move 3000 bytes, 1000 of them in the omit window, and measure for one second.  The
    client reports 2000 bytes sent and 3000 received in that second. -/
theorem omitted_bytes_reported_as_received :
    ∃ s s', (startLoop omitOneSecond 1).run 0 0 threeTransfers = some (.left s) ∧
      (recvStreamBytesLoop (fromSecs omitOneSecond.omitSecs) none).run 0 0 threeTransfers =
        some (.left s') ∧
      clientMeasuredDuration [s.receipt] = nanos ∧ s'.receipt.bytesMeasured = 2000 ∧
      (summary omitOneSecond [s.receipt] .zero (buildServerResults [s'.receipt] .zero)).filterMap
        (Line.figure .sender) = [(2000, secs nanos)] ∧
      (summary omitOneSecond [s.receipt] .zero (buildServerResults [s'.receipt] .zero)).filterMap
        (Line.figure .receiver) = [(3000, secs nanos)] := by
  refine ⟨_, _, rfl, rfl, rfl, rfl, ?_, ?_⟩
  · rw [figure_summary]
    rfl
  · rw [figure_summary]
    rfl

/-- A client's receipt over two seconds, the second one measured. -/
def twoSeconds : ClientStreamReceipt :=
  { ClientStreamReceipt.empty 1 with
    bytesSent := 2000
    bytesOmit := 1000
    firstSendAt := some 0
    firstMeasuredAt := some nanos
    lastSendAt := some (2 * nanos) }

theorem receiver_figure_measured_iff_noneOmitted :
    (summary omitOneSecond [twoSeconds] .zero
      (buildServerResults [{ StreamReceipt.empty with bytes := 1000 }] .zero)).filterMap
        (Line.figure .receiver) = [(1000, secs (clientMeasuredDuration [twoSeconds]))] :=
  (receiver_figure_measured_iff omitOneSecond [twoSeconds] .zero .zero
    [{ StreamReceipt.empty with bytes := 1000 }] rfl (by decide) (by decide)).2.mpr fun r hr => by
      rw [List.mem_singleton.mp hr]
      exact .inl rfl

/-! ## The direction -/

/-- What the side that sends the data has counted. -/
def countedBySender (dir : Direction) (receipts : List ClientStreamReceipt) (server : Results) :
    Nat :=
  if dir.clientSends then (receipts.map ClientStreamReceipt.bytesSent).sum else serverBytes server

/-- What the side that receives the data has counted. -/
def countedByReceiver (dir : Direction) (receipts : List ClientStreamReceipt) (server : Results) :
    Nat :=
  if dir.clientSends then serverBytes server else (receipts.map ClientStreamReceipt.bytesSent).sum

/-- The byte totals of a role. -/
def bytesAs (role : Role) (lines : List Line) : List Nat :=
  (lines.filterMap (Line.figure role)).map Prod.fst

/-- Without an omit window the client's total is all its bytes. -/
theorem bytesAs_summary {cfg : Config} (homit : cfg.omitSecs = 0)
    (receipts : List ClientStreamReceipt) (cpu : CpuUsage) (server : Results) (role : Role) :
    bytesAs role (summary cfg receipts cpu server) =
      [if clientLabel cfg = role then (receipts.map ClientStreamReceipt.bytesSent).sum
        else serverBytes server] := by
  have hfigures : (senderFigures cfg receipts).1 =
      (receipts.map ClientStreamReceipt.bytesSent).sum := by
    unfold senderFigures
    dsimp only
    rw [if_neg fun h => absurd h.1 (homit ▸ Nat.lt_irrefl 0)]
  rw [bytesAs, figure_summary, hfigures]
  rfl

/-- **The table labels the totals by what the two sides have done; the document does iff the client
    sends**, or the totals happen to be the same. -/
theorem json_roles_agree_iff (cfg : Config) (receipts : List ClientStreamReceipt) (cpu : CpuUsage)
    (server : Results) (homit : cfg.omitSecs = 0) (hdir : cfg.direction ≠ .bidirectional) :
    bytesAs .sender (summary { cfg with json := false } receipts cpu server) =
      [countedBySender cfg.direction receipts server] ∧
    bytesAs .receiver (summary { cfg with json := false } receipts cpu server) =
      [countedByReceiver cfg.direction receipts server] ∧
    (bytesAs .sender (summary { cfg with json := true } receipts cpu server) =
        [countedBySender cfg.direction receipts server] ∧
      bytesAs .receiver (summary { cfg with json := true } receipts cpu server) =
        [countedByReceiver cfg.direction receipts server] ↔
      cfg.direction = .forward ∨
        (receipts.map ClientStreamReceipt.bytesSent).sum = serverBytes server) := by
  have homit' : ∀ json, ({ cfg with json := json } : Config).omitSecs = 0 := fun _ => homit
  rw [bytesAs_summary (homit' false), bytesAs_summary (homit' false), bytesAs_summary (homit' true),
    bytesAs_summary (homit' true)]
  unfold clientLabel countedBySender countedByReceiver
  dsimp only
  generalize cfg.direction = dir at hdir ⊢
  cases dir with
  | forward => exact ⟨rfl, rfl, iff_of_true ⟨rfl, rfl⟩ (.inl rfl)⟩
  | reverse =>
    refine ⟨rfl, rfl, ?_⟩
    -- the document has the client's total as the sender's, and the client has received
    show [(receipts.map ClientStreamReceipt.bytesSent).sum] = [serverBytes server] ∧
      [serverBytes server] = [(receipts.map ClientStreamReceipt.bytesSent).sum] ↔ _
    constructor
    · rintro ⟨hsender, -⟩
      exact .inr (List.cons.inj hsender).1
    · rintro (hforward | hsame)
      · cases hforward
      · rw [hsame]
        exact ⟨rfl, rfl⟩
  | bidirectional => exact absurd rfl hdir

/-- A client that receives. -/
def reverseTest : Config := { Config.withHost "localhost" with direction := .reverse }

/-- The server sends 5000 bytes of which 3000 arrive.  The document has the 3000 as sent and the
    5000 as received. -/
theorem json_swaps_reverse_totals :
    let receipts := [{ ClientStreamReceipt.empty 1 with bytesSent := 3000 }]
    let server := buildServerResults [{ StreamReceipt.empty with bytes := 5000 }] .zero
    bytesAs .sender (summary { reverseTest with json := false } receipts .zero server) = [5000] ∧
    bytesAs .receiver (summary { reverseTest with json := false } receipts .zero server) = [3000] ∧
    bytesAs .sender (summary { reverseTest with json := true } receipts .zero server) = [3000] ∧
    bytesAs .receiver (summary { reverseTest with json := true } receipts .zero server) =
      [5000] := by
  dsimp only
  rw [bytesAs_summary rfl, bytesAs_summary rfl, bytesAs_summary rfl, bytesAs_summary rfl]
  exact ⟨rfl, rfl, rfl, rfl⟩

theorem json_roles_agree_iff_forward :
    bytesAs .sender (summary { Config.withHost "localhost" with json := true } [twoSeconds] .zero
      (buildServerResults [{ StreamReceipt.empty with bytes := 1000 }] .zero)) = [2000] :=
  ((json_roles_agree_iff (.withHost "localhost") [twoSeconds] .zero
    (buildServerResults [{ StreamReceipt.empty with bytes := 1000 }] .zero) rfl
    (by decide)).2.2.mpr (.inl rfl)).1

end Rperf3
