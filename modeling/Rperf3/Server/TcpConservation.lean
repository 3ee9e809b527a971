/-
  A forward TCP test in single-session mode: what the client's threads wrote against what the
  server's readers counted.

  1. `ForwardStream` — one data connection, both ends: the client thread that wrote it and the
     connection as it reaches the listener (any segmentation, cookie and payload in one segment or
     not).  The fields say that the thread reported, that its cookie went out whole and that the
     network delivers what was written and then the end.
  2. `streamWorld` — the listener's arrivals together with the reader threads, each on the turns of
     its own connection.
  3. Connection by connection the server counts what the client counted
     (`forwardTransfer_run`), so the two `Results` carry the same byte counts — as MULTISETS.
  4. As to who is who: the server numbers the streams in order of ARRIVAL, the client reports the id
     each thread was started with.  The two numberings agree exactly when the connections arrived in
     the order of their ids.
-/
import Mathlib.Data.List.Nodup
import Rperf3.Client.Loop
import Rperf3.Common.TcpStream
import Rperf3.Server.AcceptStreams
import Rperf3.Server.StreamReader

namespace Rperf3

open Effect Effect.Prog

/-! ## The two ends of a data connection -/

/-- A data connection of a forward test. -/
structure ForwardStream (cfg : Config) (cookie : Bytes) where
  streamId : Nat
  env : TcpEnv
  payload : Bytes
  receipt : ClientStreamReceipt
  conn : Conn
  reported : startTcp cfg cookie streamId env = some ⟨cookie, payload, .reported receipt⟩
  delivered : conn.incoming.stream = cookie ++ payload
  closed : conn.incoming.ending = .closes

namespace ForwardStream

variable {cfg : Config} {cookie : Bytes}

theorem bytesSent_eq (s : ForwardStream cfg cookie) : s.receipt.bytesSent = s.payload.length :=
  (startTcp_bytes s.reported).1

theorem receipt_id (s : ForwardStream cfg cookie) : s.receipt.streamId = s.streamId :=
  (startTcp_bytes s.reported).2

/-- After the cookie the payload is left, however the segments were cut. -/
theorem stream_afterCookie (hlen : cookie.length = cookieLen) (s : ForwardStream cfg cookie) :
    s.conn.incoming.afterCookie.stream = s.payload := by
  rw [Rperf3.stream_afterCookie, s.delivered, List.drop_left' hlen]

theorem presentsCookie (hlen : cookie.length = cookieLen) (timeout : Option Nat)
    (s : ForwardStream cfg cookie) : Rperf3.presentsCookie cookie timeout s.conn :=
  presentsCookie_of_prefix hlen timeout s.delivered

end ForwardStream

/-! ## The server's end -/

/-- The world of a forward transfer: arriving connections, and reader threads of which number
    `streamId` meets `turns streamId`. -/
def streamWorld (turns : Nat → List RecvTurn) :
    (o : Op) → List Conn → Option (Except Stop o.Ok × List Conn)
  | .spawn _, cs => some (.ok (), cs)
  | .awaitByte (m :: _), cs => some (.ok m, cs)
  | .join (.tcpReader streamId _ window), cs =>
    (recvStreamBytes window (turns streamId)).map fun r => (.ok [r], cs)
  | o, cs => arrivalWorld o cs

/-- Collect the streams, start the readers, wait for `TestEnd`, join the readers. -/
def forwardTransfer (cookie : Bytes) (n : Nat) (timeout : Option Nat) (opts : ClientOptions) :
    Session (List StreamReceipt) := do
  let cs ← acceptStreamsViaListener cookie n timeout
  tcpForward cs opts

/-- The operations of `accept_streams_via_listener`. -/
def Op.isAccept : Op → Bool
  | .acceptData | .setTimeouts _ _ | .recvCookie _ _ | .send _ => true
  | _ => false

/-- The readers do not change what the listener loop meets. -/
theorem acceptStreams_streamWorld (turns : Nat → List RecvTurn) (cookie : Bytes) (n : Nat)
    (timeout : Option Nat) (cs : List Conn) :
    (acceptStreamsViaListener cookie n timeout).runIn (streamWorld turns) cs =
      (acceptStreamsViaListener cookie n timeout).runIn arrivalWorld cs := by
  refine Discipline.uses_runIn (N := fun o => o.isAccept = true) ?_ (fun o ho => ?_) cs
  · refine Discipline.uses_bind ⟨rfl, fun _ => trivial⟩ fun _ => ?_
    exact uses_acceptStreamsLoop (N := fun o => o.isAccept = true) rfl (fun _ _ => rfl)
      (fun _ _ => rfl) cookie timeout 0 n
  · funext cs
    cases o with
    | acceptData => rfl
    | setTimeouts c t => rfl
    | recvCookie c t => rfl
    | send i => rfl
    | _ => cases ho

theorem spawnAll_run (turns : Nat → List RecvTurn) (cs : List Conn) : ∀ js : List Job,
    (spawnAll js).runIn (streamWorld turns) cs = some (.ok (), cs)
  | [] => rfl
  | _ :: js => spawnAll_run turns cs js

/-- Joining readers that have all finished gives their receipts in order. -/
theorem joinReaders_run (turns : Nat → List RecvTurn) (window : Nat) (cs : List Conn)
    {ps : List (Conn × Nat)} {rs : List StreamReceipt}
    (h : List.Forall₂ (fun p r => recvStreamBytes window (turns (p.2 + 1)) = some r) ps rs) :
    (joinStreamTotals (ps.map fun p => .tcpReader (p.2 + 1) p.1 window)).runIn (streamWorld turns)
      cs = some (.ok rs, cs) := by
  induction h with
  | nil => rfl
  | @cons p r ps rs hr _ ih =>
    have hjoin : (joinOr [StreamReceipt.empty] (.tcpReader (p.2 + 1) p.1 window)).runIn
        (streamWorld turns) cs = some (.ok [r], cs) := by
      show Option.bind (Option.map _ (recvStreamBytes window (turns (p.2 + 1)))) _ = _
      rw [hr]
      rfl
    rw [List.map_cons, joinStreamTotals, runIn_bind_ok hjoin, runIn_bind_ok ih]
    rfl

section

variable {cfg : Config} {cookie : Bytes}

/-- Every reader counts what the thread at the other end counted. -/
theorem readers_count (hlen : cookie.length = cookieLen) (turns : Nat → List RecvTurn)
    (window : Nat) : ∀ (arrivals : List (ForwardStream cfg cookie)) (k : Nat),
      (∀ (i : Nat) (s : ForwardStream cfg cookie), arrivals[i]? = some s →
        Drains s.conn.incoming.afterCookie.stream (turns (k + i + 1))) →
      ∃ rs : List StreamReceipt,
        List.Forall₂ (fun p r => recvStreamBytes window (turns (p.2 + 1)) = some r)
          ((arrivals.map ForwardStream.conn).zipIdx k) rs ∧
        rs.map StreamReceipt.bytes = arrivals.map fun s => s.receipt.bytesSent
  | [], _, _ => ⟨[], .nil, rfl⟩
  | s :: arrivals, k, h => by
    obtain ⟨r, hr, hbytes⟩ := recvStreamBytes_drains window (h 0 s rfl)
    obtain ⟨rs, hrs, hcounts⟩ := readers_count hlen turns window arrivals (k + 1) fun i t ht => by
      have hdrains := h (i + 1) t ht
      rwa [show k + (i + 1) + 1 = k + 1 + i + 1 by omega] at hdrains
    refine ⟨r :: rs, .cons hr hrs, ?_⟩
    rw [List.map_cons, List.map_cons, hcounts, hbytes, s.stream_afterCookie hlen, s.bytesSent_eq]

/-- **The server's end of a forward transfer**: it returns one receipt per connection, in order of
    arrival, with the byte count of the thread at the other end. -/
theorem forwardTransfer_run (hlen : cookie.length = cookieLen) (timeout : Option Nat)
    (opts : ClientOptions) {turns : Nat → List RecvTurn}
    {arrivals : List (ForwardStream cfg cookie)}
    (hturns : ∀ (i : Nat) (s : ForwardStream cfg cookie), arrivals[i]? = some s →
      Drains s.conn.incoming.afterCookie.stream (turns (i + 1))) :
    ∃ receipts, (forwardTransfer cookie arrivals.length timeout opts).runIn (streamWorld turns)
        (arrivals.map ForwardStream.conn) = some (.ok receipts, []) ∧
      receipts.map StreamReceipt.bytes = arrivals.map fun s => s.receipt.bytesSent := by
  obtain ⟨receipts, hreaders, hcounts⟩ := readers_count hlen turns (omitWindow opts) arrivals 0
    fun i s hs => by rw [Nat.zero_add]; exact hturns i s hs
  refine ⟨receipts, ?_, hcounts⟩
  have haccept : (acceptStreamsViaListener cookie arrivals.length timeout).runIn
      (streamWorld turns) (arrivals.map ForwardStream.conn) =
        some (.ok (arrivals.map ForwardStream.conn), []) := by
    rw [acceptStreams_streamWorld]
    refine (acceptStreams_ok_iff _ _ _ _ _ _).mpr ⟨(List.append_nil _).symm, ?_, fun c hc => ?_⟩
    · exact List.length_map _
    · obtain ⟨s, -, rfl⟩ := List.mem_map.mp hc
      exact s.presentsCookie hlen timeout
  rw [forwardTransfer, runIn_bind_ok haccept, tcpForward, runIn_bind_ok (spawnAll_run turns [] _)]
  exact joinReaders_run turns (omitWindow opts) [] hreaders

/-! ## The two results -/

theorem bytes_serverResults (receipts : List StreamReceipt) (cpu : CpuUsage) :
    (buildServerResults receipts cpu).streams.map StreamResults.bytes =
      receipts.map StreamReceipt.bytes := by
  show (receipts.zipIdx.map _).map StreamResults.bytes = _
  conv_rhs => rw [← List.zipIdx_map_fst 0 receipts]
  rw [List.map_map, List.map_map]
  rfl

/-- **Conservation.**  However the network cuts the streams and in whatever order the connections
    arrive, each reader's receipt has the byte count of the client thread at the other end, so the
    two sides report the same byte counts, each as often, and the same sum. -/
theorem tcp_bytes_conserved (hlen : cookie.length = cookieLen) (timeout : Option Nat)
    (opts : ClientOptions) {turns : Nat → List RecvTurn}
    {arrivals : List (ForwardStream cfg cookie)}
    (hturns : ∀ (i : Nat) (s : ForwardStream cfg cookie), arrivals[i]? = some s →
      Drains s.conn.incoming.afterCookie.stream (turns (i + 1))) :
    ∃ receipts, (forwardTransfer cookie arrivals.length timeout opts).runIn (streamWorld turns)
        (arrivals.map ForwardStream.conn) = some (.ok receipts, []) ∧
      receipts.length = arrivals.length ∧
      (∀ (i : Nat) (r : StreamReceipt) (s : ForwardStream cfg cookie), receipts[i]? = some r →
        arrivals[i]? = some s → r.bytes = s.receipt.bytesSent) ∧
      ∀ (clientReceipts : List ClientStreamReceipt) (cpu cpu' : CpuUsage),
        clientReceipts.Perm (arrivals.map ForwardStream.receipt) →
        ((buildServerResults receipts cpu).streams.map StreamResults.bytes).Perm
          ((buildClientResults clientReceipts cpu').streams.map StreamResults.bytes) ∧
        ((buildServerResults receipts cpu).streams.map StreamResults.bytes).sum =
          ((buildClientResults clientReceipts cpu').streams.map StreamResults.bytes).sum := by
  obtain ⟨receipts, hrun, hcounts⟩ := forwardTransfer_run hlen timeout opts hturns
  refine ⟨receipts, hrun, ?_, ?_, ?_⟩
  · have := congrArg List.length hcounts
    rwa [List.length_map, List.length_map] at this
  · intro i r s hr hs
    have hi := congrArg (fun l : List Nat => l[i]?) hcounts
    simp only [List.getElem?_map, hr, hs, Option.map_some, Option.some.injEq] at hi
    exact hi
  · intro clientReceipts cpu cpu' hperm
    have hclient : (buildClientResults clientReceipts cpu').streams.map StreamResults.bytes =
        clientReceipts.map ClientStreamReceipt.bytesSent := List.map_map
    have hbytes : ((buildServerResults receipts cpu).streams.map StreamResults.bytes).Perm
        ((buildClientResults clientReceipts cpu').streams.map StreamResults.bytes) := by
      rw [bytes_serverResults, hcounts, hclient]
      have := (hperm.map ClientStreamReceipt.bytesSent).symm
      rwa [List.map_map] at this
    exact ⟨hbytes, hbytes.sum_nat⟩

/-! ## Who is who -/

/-- A forward test starts one thread per id, counting from one. -/
theorem createStreams_ids {cfg : Config} (hfwd : cfg.direction = .forward) (port : Option Nat) :
    (createStreams cfg port).map StreamThread.streamId = List.range' 1 (max cfg.parallel 1) := by
  have hone : ∀ (host : String) (i : Nat),
      ∃ kind host', streamThreads cfg host i = [⟨kind, host', i⟩] := by
    intro host i
    unfold streamThreads
    rw [hfwd]
    cases cfg.transport.isUdp with
    | false => exact ⟨_, _, rfl⟩
    | true => exact ⟨_, _, rfl⟩
  unfold createStreams
  induction List.range' 1 (max cfg.parallel 1) with
  | nil => rfl
  | cons i is ih =>
    obtain ⟨kind, host', hthreads⟩ := hone (cfg.host ++ ":" ++ toString (port.getD cfg.port)) i
    rw [List.flatMap_cons, List.map_append, hthreads, ih]
    rfl

section Entries

variable {arrivals finished : List (ForwardStream cfg cookie)} {receipts : List StreamReceipt}
  (cpu : CpuUsage)

/-- An entry of the server's results: its id is the position of its connection among the
    arrivals. -/
theorem serverEntry_iff
    (hcounts : receipts.map StreamReceipt.bytes = arrivals.map fun s => s.receipt.bytesSent)
    {s : ForwardStream cfg cookie} {id bytes : Nat} :
    (∃ e, (e, s) ∈ (buildServerResults receipts cpu).streams.zip arrivals ∧ e.id = id ∧
        e.bytes = bytes) ↔
      ∃ i, arrivals[i]? = some s ∧ id = i + 1 ∧ bytes = s.receipt.bytesSent := by
  have hentry : ∀ i : Nat, (buildServerResults receipts cpu).streams[i]? =
      (receipts[i]?).map fun r =>
        StreamResults.mk (i + 1) r.bytes 0 r.jitterMs r.lost r.packets := by
    intro i
    show (receipts.zipIdx.map _)[i]? = _
    rw [List.getElem?_map, List.getElem?_zipIdx, Option.map_map, Nat.zero_add]
    rfl
  have hbytes : ∀ i : Nat, (receipts[i]?).map StreamReceipt.bytes =
      (arrivals[i]?).map fun s : ForwardStream cfg cookie => s.receipt.bytesSent := by
    intro i
    rw [← List.getElem?_map, hcounts, List.getElem?_map]
  constructor
  · rintro ⟨e, hmem, rfl, rfl⟩
    obtain ⟨i, hi⟩ := List.mem_iff_getElem?.mp hmem
    obtain ⟨he, hs⟩ := List.getElem?_zip_eq_some.mp hi
    rw [hentry, Option.map_eq_some_iff] at he
    obtain ⟨r, hr, rfl⟩ := he
    have hcount := hbytes i
    rw [hr, hs, Option.map_some, Option.map_some, Option.some.injEq] at hcount
    exact ⟨i, hs, rfl, hcount⟩
  · rintro ⟨i, hs, rfl, rfl⟩
    have hcount := hbytes i
    rw [hs, Option.map_some, Option.map_eq_some_iff] at hcount
    obtain ⟨r, hr, hcount⟩ := hcount
    have he := hentry i
    rw [hr, Option.map_some] at he
    exact ⟨_, List.mem_iff_getElem?.mpr ⟨i, List.getElem?_zip_eq_some.mpr ⟨he, hs⟩⟩, rfl, hcount⟩

/-- An entry of the client's results: id and byte count of the thread that reported there. -/
theorem clientEntry_iff {s : ForwardStream cfg cookie} {id bytes : Nat} :
    (∃ e, (e, s) ∈ (buildClientResults (finished.map ForwardStream.receipt) cpu).streams.zip
        finished ∧ e.id = id ∧ e.bytes = bytes) ↔
      s ∈ finished ∧ id = s.streamId ∧ bytes = s.receipt.bytesSent := by
  have hzip : (buildClientResults (finished.map ForwardStream.receipt) cpu).streams.zip finished =
      finished.map fun s => (streamResults s.receipt, s) := by
    show ((finished.map ForwardStream.receipt).map streamResults).zip finished = _
    rw [List.map_map, List.zip_map_left, List.zip_eq_zipWith, List.zipWith_self, List.map_map]
    rfl
  rw [hzip]
  constructor
  · rintro ⟨e, hmem, rfl, rfl⟩
    obtain ⟨s', hs', heq⟩ := List.mem_map.mp hmem
    cases heq
    exact ⟨hs', s.receipt_id, rfl⟩
  · rintro ⟨hs, rfl, rfl⟩
    exact ⟨_, List.mem_map.mpr ⟨s, hs, rfl⟩, s.receipt_id, rfl⟩

/-! Every entry of either side is about some stream. -/

theorem exists_serverEntry
    (hcounts : receipts.map StreamReceipt.bytes = arrivals.map fun s => s.receipt.bytesSent)
    {e : StreamResults} (he : e ∈ (buildServerResults receipts cpu).streams) :
    ∃ s, (e, s) ∈ (buildServerResults receipts cpu).streams.zip arrivals := by
  have hlen : (buildServerResults receipts cpu).streams.length ≤ arrivals.length := by
    have := congrArg List.length hcounts
    rw [List.length_map, List.length_map] at this
    show (receipts.zipIdx.map _).length ≤ _
    rw [List.length_map, List.length_zipIdx, this]
  rw [← List.map_fst_zip hlen] at he
  obtain ⟨⟨_, s⟩, hes, rfl⟩ := List.mem_map.mp he
  exact ⟨s, hes⟩

theorem exists_clientEntry {e : StreamResults}
    (he : e ∈ (buildClientResults (finished.map ForwardStream.receipt) cpu).streams) :
    ∃ s, (e, s) ∈ (buildClientResults (finished.map ForwardStream.receipt) cpu).streams.zip
      finished := by
  have hlen : (buildClientResults (finished.map ForwardStream.receipt) cpu).streams.length ≤
      finished.length := by
    show ((finished.map ForwardStream.receipt).map streamResults).length ≤ _
    rw [List.length_map, List.length_map]
  rw [← List.map_fst_zip hlen] at he
  obtain ⟨⟨_, s⟩, hes, rfl⟩ := List.mem_map.mp he
  exact ⟨s, hes⟩

/-! Entries of equal id, against the order of arrival. -/

section Order

variable {cpu} {cpu' : CpuUsage} {n : Nat}
  (hcounts : receipts.map StreamReceipt.bytes = arrivals.map fun s => s.receipt.bytesSent)
  (hfinished : finished.Perm arrivals)

include hcounts hfinished

/-- In order of arrival, the entry of id `i + 1` is about the stream of that id. -/
theorem same_of_inOrder (horder : arrivals.map ForwardStream.streamId = List.range' 1 n)
    {e e' : StreamResults} {s s' : ForwardStream cfg cookie}
    (he : (e, s) ∈ (buildServerResults receipts cpu).streams.zip arrivals)
    (he' : (e', s') ∈ (buildClientResults (finished.map ForwardStream.receipt) cpu').streams.zip
      finished) (hid : e.id = e'.id) : s = s' := by
  obtain ⟨i, hs, hei, -⟩ := (serverEntry_iff cpu hcounts).mp ⟨e, he, rfl, rfl⟩
  obtain ⟨hs', hei', -⟩ := (clientEntry_iff cpu').mp ⟨e', he', rfl, rfl⟩
  have hi : (List.range' 1 n)[i]? = some s.streamId := by
    rw [← horder, List.getElem?_map, hs]
    rfl
  obtain ⟨_, hsid⟩ := List.getElem?_eq_some_iff.mp hi
  rw [List.getElem_range'] at hsid
  have hnd : (arrivals.map ForwardStream.streamId).Nodup := horder ▸ List.nodup_range' 1
  exact List.inj_on_of_nodup_map hnd (List.mem_of_getElem? hs) (hfinished.subset hs') (by omega)

/-- Position `i` must hold the stream that the client reports under id `i + 1`. -/
theorem inOrder_of_same
    (hids : (arrivals.map ForwardStream.streamId).Perm (List.range' 1 n))
    (hsame : ∀ e s e' s', (e, s) ∈ (buildServerResults receipts cpu).streams.zip arrivals →
      (e', s') ∈ (buildClientResults (finished.map ForwardStream.receipt) cpu').streams.zip
        finished → e.id = e'.id → s = s') :
    arrivals.map ForwardStream.streamId = List.range' 1 n := by
  have hlength := hids.length_eq
  refine List.ext_getElem hlength fun i h₁ h₂ => ?_
  rw [List.length_map] at h₁
  rw [List.length_range'] at h₂
  rw [List.getElem_map, List.getElem_range', Nat.one_mul, Nat.add_comm]
  have hmem : i + 1 ∈ arrivals.map ForwardStream.streamId :=
    hids.symm.subset (List.mem_range'_1.mpr (by omega))
  obtain ⟨s', hs', hid⟩ := List.mem_map.mp hmem
  obtain ⟨e, he, hei, -⟩ := (serverEntry_iff cpu hcounts).mpr
    ⟨i, List.getElem?_eq_getElem h₁, rfl, rfl⟩
  obtain ⟨e', he', hei', -⟩ := (clientEntry_iff cpu').mpr ⟨hfinished.symm.subset hs', rfl, rfl⟩
  rw [hsame e _ e' s' he he' (by omega), hid]

end Order

end Entries

/-- **Stream identity.**  `arrivals` are the client's data connections in the order in which they
    reached the server, `finished` the same ones in the order in which their threads reported.  An
    entry of the server's `Results` is about the connection accepted at its position, an entry of
    the client's about the thread that reported there.  Entries of equal id are about the same
    connection exactly when the connections arrived in the order of their ids; then they also carry
    the same byte count. -/
theorem stream_identity_iff (hlen : cookie.length = cookieLen) (timeout : Option Nat)
    (opts : ClientOptions) (hfwd : cfg.direction = .forward) (port : Option Nat)
    {turns : Nat → List RecvTurn} {arrivals finished : List (ForwardStream cfg cookie)}
    (hids : (arrivals.map ForwardStream.streamId).Perm
      ((createStreams cfg port).map StreamThread.streamId))
    (hfinished : finished.Perm arrivals)
    (hturns : ∀ (i : Nat) (s : ForwardStream cfg cookie), arrivals[i]? = some s →
      Drains s.conn.incoming.afterCookie.stream (turns (i + 1))) :
    ∃ receipts, (forwardTransfer cookie arrivals.length timeout opts).runIn (streamWorld turns)
        (arrivals.map ForwardStream.conn) = some (.ok receipts, []) ∧
      ∀ (cpu cpu' : CpuUsage) (server client : List StreamResults),
        server = (buildServerResults receipts cpu).streams →
        client = (buildClientResults (finished.map ForwardStream.receipt) cpu').streams →
        (∀ e s, (e, s) ∈ server.zip arrivals → e.bytes = s.receipt.bytesSent) ∧
        (∀ e s, (e, s) ∈ client.zip finished →
          e.id = s.streamId ∧ e.bytes = s.receipt.bytesSent) ∧
        ((∀ e s e' s', (e, s) ∈ server.zip arrivals → (e', s') ∈ client.zip finished →
            e.id = e'.id → s = s') ↔
          arrivals.map ForwardStream.streamId =
            (createStreams cfg port).map StreamThread.streamId) ∧
        (arrivals.map ForwardStream.streamId =
            (createStreams cfg port).map StreamThread.streamId →
          ∀ e ∈ server, ∀ e' ∈ client, e.id = e'.id → e.bytes = e'.bytes) := by
  obtain ⟨receipts, hrun, hcounts⟩ := forwardTransfer_run hlen timeout opts hturns
  refine ⟨receipts, hrun, ?_⟩
  rintro cpu cpu' server client rfl rfl
  rw [createStreams_ids hfwd port] at hids ⊢
  refine ⟨?_, ?_, ⟨inOrder_of_same hcounts hfinished hids, ?_⟩, ?_⟩
  · intro e s he
    obtain ⟨_, _, _, hbytes⟩ := (serverEntry_iff cpu hcounts).mp ⟨e, he, rfl, rfl⟩
    exact hbytes
  · intro e s he
    exact ((clientEntry_iff cpu').mp ⟨e, he, rfl, rfl⟩).2
  · intro horder e s e' s' he he' hid
    exact same_of_inOrder hcounts hfinished horder he he' hid
  · intro horder e he e' he' hid
    obtain ⟨s, hes⟩ := exists_serverEntry cpu hcounts he
    obtain ⟨s', hes'⟩ := exists_clientEntry cpu' he'
    obtain ⟨_, _, _, hbytes⟩ := (serverEntry_iff cpu hcounts).mp ⟨e, hes, rfl, rfl⟩
    obtain ⟨_, _, hbytes'⟩ := (clientEntry_iff cpu').mp ⟨e', hes', rfl, rfl⟩
    rw [hbytes, hbytes', same_of_inOrder hcounts hfinished horder hes hes' hid]

end

/-! ### Two streams that overtake each other -/

/-- Two streams with blocks of eight bytes. -/
def pairConfig : Config := { Config.withHost "127.0.0.1" with parallel := 2, len := 8 }

/-- A thread whose only `send` takes `n` bytes. -/
def pairEnv (n : Nat) : TcpEnv where
  opened := true
  cookieSend := .accepts cookieLen
  blocking := true
  turns := [⟨false, .accepts n, 0⟩, ⟨true, .accepts 0, 0⟩]
  retransmits := 0

/-- Stream 1: three bytes; the first of them shares a segment with the cookie. -/
def firstStream : ForwardStream pairConfig sessionCookie where
  streamId := 1
  env := pairEnv 3
  payload := [1, 1, 1]
  receipt := { ClientStreamReceipt.empty 1 with
    bytesSent := 3, firstSendAt := some 0, lastSendAt := some 0, firstMeasuredAt := some 0 }
  conn := ⟨⟨2130706433, 40001⟩, ⟨[sessionCookie ++ [1], [1, 1]], .closes⟩⟩
  reported := by decide +kernel
  delivered := rfl
  closed := rfl

/-- Stream 2: five bytes. -/
def secondStream : ForwardStream pairConfig sessionCookie where
  streamId := 2
  env := pairEnv 5
  payload := [1, 1, 1, 1, 1]
  receipt := { ClientStreamReceipt.empty 2 with
    bytesSent := 5, firstSendAt := some 0, lastSendAt := some 0, firstMeasuredAt := some 0 }
  conn := ⟨⟨2130706433, 40002⟩, ⟨[sessionCookie, [1, 1, 1, 1, 1]], .closes⟩⟩
  reported := by decide +kernel
  delivered := rfl
  closed := rfl

/-- The connection of stream 2 is accepted first. -/
def swappedArrivals : List (ForwardStream pairConfig sessionCookie) := [secondStream, firstStream]

/-- The readers: five bytes at once on the first connection, two pieces on the other. -/
def swappedTurns (streamId : Nat) : List RecvTurn :=
  if streamId = 1 then [⟨0, .ok 5⟩, ⟨0, .ok 0⟩] else [⟨0, .ok 1⟩, ⟨0, .ok 2⟩, ⟨0, .ok 0⟩]

theorem swapped_drains (i : Nat) (s : ForwardStream pairConfig sessionCookie)
    (h : swappedArrivals[i]? = some s) :
    Drains s.conn.incoming.afterCookie.stream (swappedTurns (i + 1)) := by
  match i, h with
  | 0, h =>
    cases h
    rw [secondStream.stream_afterCookie (by decide)]
    exact .piece (by decide) (by decide) (by decide) .closed
  | 1, h =>
    cases h
    rw [firstStream.stream_afterCookie (by decide)]
    exact .piece (by decide) (by decide) (by decide)
      (.piece (by decide) (by decide) (by decide) .closed)

theorem tcp_bytes_conserved_swapped :
    ∃ receipts, (forwardTransfer sessionCookie 2 none (sendOptions pairConfig none)).runIn
        (streamWorld swappedTurns) (swappedArrivals.map ForwardStream.conn) =
          some (.ok receipts, []) ∧
      ((buildServerResults receipts .zero).streams.map StreamResults.bytes).Perm [3, 5] := by
  obtain ⟨receipts, hrun, -, -, hresults⟩ := tcp_bytes_conserved (by decide) none
    (sendOptions pairConfig none) swapped_drains
  refine ⟨receipts, hrun, ?_⟩
  exact (hresults [firstStream.receipt, secondStream.receipt] .zero .zero
    (List.Perm.swap _ _ _)).1

/-- Both sides report one entry for each id; under id 1 the client reports three bytes and the
    server five. -/
theorem swapped_arrivals_swap_ids :
    (swappedArrivals.map ForwardStream.streamId).Perm
      ((createStreams pairConfig none).map StreamThread.streamId) ∧
    ∃ receipts, (forwardTransfer sessionCookie 2 none (sendOptions pairConfig none)).runIn
        (streamWorld swappedTurns) (swappedArrivals.map ForwardStream.conn) =
          some (.ok receipts, []) ∧
      (buildServerResults receipts .zero).streams.map (fun e => (e.id, e.bytes)) =
        [(1, 5), (2, 3)] ∧
      (buildClientResults ([firstStream, secondStream].map ForwardStream.receipt) .zero).streams.map
        (fun e => (e.id, e.bytes)) = [(1, 3), (2, 5)] := by
  refine ⟨List.Perm.swap _ _ _, _, rfl, rfl, rfl⟩

theorem stream_identity_iff_swapped :
    ∃ receipts, (forwardTransfer sessionCookie 2 none (sendOptions pairConfig none)).runIn
        (streamWorld swappedTurns) (swappedArrivals.map ForwardStream.conn) =
          some (.ok receipts, []) ∧
      ((∀ e s e' s', (e, s) ∈ (buildServerResults receipts .zero).streams.zip swappedArrivals →
          (e', s') ∈ (buildClientResults ([firstStream, secondStream].map ForwardStream.receipt)
            .zero).streams.zip [firstStream, secondStream] → e.id = e'.id → s = s') ↔
        [2, 1] = [1, 2]) := by
  have hids : (swappedArrivals.map ForwardStream.streamId).Perm
      ((createStreams pairConfig none).map StreamThread.streamId) := List.Perm.swap _ _ _
  have hfinished : [firstStream, secondStream].Perm swappedArrivals := List.Perm.swap _ _ _
  obtain ⟨receipts, hrun, hresults⟩ := stream_identity_iff (by decide) none
    (sendOptions pairConfig none) rfl none hids hfinished swapped_drains
  exact ⟨receipts, hrun, (hresults .zero .zero _ _ rfl rfl).2.2.1⟩

end Rperf3
