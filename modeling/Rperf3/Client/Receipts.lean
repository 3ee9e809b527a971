/-
  No receipt is lost and none is counted twice.

  The client of `Client/Loop.lean` is put against ANY server that keeps two rules — it asks for
  streams once, and it asks for the results only after it has read `TestEnd` — and otherwise sends
  whatever control messages it likes, whenever it likes.  `receiptSystem` has one action per send of
  a stream thread, per step of the main thread and per read or write of the server.

  The results are complete because of two orders: every thread sends its RECEIPT BEFORE its notice,
  and the server's request comes AFTER the byte that the last notice triggers.  `ReceiptInv` states
  what these orders leave behind in every state; the drain at the top of `exchange_results` then
  finds every receipt either already collected or still in the channel.
-/
import Rperf3.Lib.Pool
import Rperf3.Client.Loop

namespace Rperf3

open Transition

/-! ## The client and an arbitrary server -/

/-- Framing: a port follows `SetDataPort`, a results body follows `ExchangeResults`, and nothing
    else does. -/
def follows : Option Item → Item → Bool
  | some (.byte .setDataPort), .port _ => true
  | some (.byte .setDataPort), _ => false
  | some (.byte .exchangeResults), .results _ => true
  | some (.byte .exchangeResults), _ => false
  | _, .byte _ => true
  | _, _ => false

/-- What the server may write next: well-framed units, `CreateStreams` once, and
    `ExchangeResults` only when it has read `TestEnd`. -/
def ServerMay (c : Client) (i : Item) : Prop :=
  follows c.inbox.sent.getLast? i = true ∧
  (i = .byte .createStreams → .byte .createStreams ∉ c.inbox.sent) ∧
  (i = .byte .exchangeResults → .byte .testEnd ∈ c.outbox.taken)

instance (c : Client) (i : Item) : Decidable (ServerMay c i) :=
  inferInstanceAs (Decidable (_ ∧ _ ∧ _))

inductive ReceiptAct
  | client (a : Client.Act)
  | serverSend (i : Item)
  | serverRecv

def receiptStep (cfg : Config) (token : Option String) : ReceiptAct → Client → Option Client
  | .client a, c => Client.act cfg token a c
  | .serverSend i, c => if ServerMay c i then some { c with inbox := c.inbox.push i } else none
  | .serverRecv, c => c.outbox.pop.map fun ar => { c with outbox := ar.2 }

/-- A client with these settings against any server that keeps the two rules. -/
def receiptSystem (cfg : Config) (token : Option String) : System Client ReceiptAct where
  init c := c = Client.initial
  step := receiptStep cfg token

/-! ## The invariant -/

/-- What holds between the threads, the channels and the counters at any time. -/
structure ReceiptInv (cfg : Config) (c : Client) : Prop where
  /-- The threads are those of one `create_streams` call. -/
  spawned : c.threads = [] ∨ ∃ port, c.threads.map ClientThread.spec = createStreams cfg port
  asked_streams : c.threads ≠ [] → .byte .createStreams ∈ c.inbox.taken
  create_once : c.inbox.sent.count (.byte .createStreams) ≤ 1
  /-- Every finished thread's notice is in the channel or has been counted. -/
  notices : c.rxChannel.length + c.streamsFinished = c.threads.countP ClientThread.isFinished
  only_ends : ∀ m ∈ c.rxChannel, m = .testEnd
  /-- Every receipt sent is in the channel or has been collected. -/
  receipts : (c.receipts ++ c.receiptRx).Perm (c.threads.filterMap ClientThread.receipt)
  end_once : c.outbox.sent.count (.byte .testEnd) = if c.testEndSent then 1 else 0
  end_after : c.testEndSent = true → expectedStreams cfg ≤ c.streamsFinished
  asked_results : .byte .exchangeResults ∈ c.inbox.sent → c.testEndSent = true
  exchanging : c.pc = .exchange → .byte .exchangeResults ∈ c.inbox.taken
  /-- Whatever results have been written were built from all the receipts. -/
  results : ∀ r, .results r ∈ c.outbox.sent → c.testEndSent = true ∧
    ∃ receipts cpu, r = buildClientResults receipts cpu ∧
      receipts.Perm (c.threads.filterMap ClientThread.receipt)

namespace ReceiptInv

variable {cfg : Config} {token : Option String} {c c' : Client}

theorem length_threads (inv : ReceiptInv cfg c) (h : c.threads ≠ []) :
    c.threads.length = expectedStreams cfg := by
  rcases inv.spawned with hnil | ⟨port, hport⟩
  · exact absurd hnil h
  · rw [← length_createStreams cfg port, ← hport, List.length_map]

/-- **Once `TestEnd` is out, every thread has finished.** -/
theorem all_finished (inv : ReceiptInv cfg c) (h : c.testEndSent = true) :
    c.threads.length = expectedStreams cfg ∧ ∀ t ∈ c.threads, t.isFinished = true := by
  have hpos := expectedStreams_pos cfg
  have hcount := inv.notices
  have hafter := inv.end_after h
  have hle : c.threads.countP ClientThread.isFinished ≤ c.threads.length := List.countP_le_length
  have hne : c.threads ≠ [] := by
    intro hnil
    have hzero : c.threads.length = 0 := by rw [hnil]; rfl
    omega
  have hlen := inv.length_threads hne
  refine ⟨hlen, List.countP_eq_length.mp ?_⟩
  omega

theorem not_sent_of_running (inv : ReceiptInv cfg c) {i : Nat} {spec : StreamThread}
    (h : c.threads[i]? = some ⟨spec, .running⟩) : c.testEndSent = false := by
  cases hsent : c.testEndSent with
  | false => rfl
  | true => exact absurd ((inv.all_finished hsent).2 _ (List.mem_of_getElem? h)) Bool.false_ne_true

/-- The first request for streams finds no thread running. -/
theorem threads_eq_nil (inv : ReceiptInv cfg c) {rest : Fifo Item}
    (hpop : c.inbox.pop = some (.byte .createStreams, rest)) : c.threads = [] := by
  by_contra hne
  have hmem := inv.asked_streams hne
  have honce := inv.create_once
  have hcount : 0 < c.inbox.taken.count (.byte .createStreams) := List.count_pos_iff.mpr hmem
  unfold Fifo.sent at honce
  rw [(Fifo.pop_eq_some.mp hpop).1, List.count_append, List.count_cons_self] at honce
  omega

/-! ## One move keeps it -/

theorem initial : ReceiptInv cfg Client.initial where
  spawned := Or.inl rfl
  asked_streams h := absurd rfl h
  create_once := Nat.zero_le 1
  notices := rfl
  only_ends _ h := nomatch h
  receipts := List.Perm.refl []
  end_once := rfl
  end_after h := nomatch h
  asked_results h := nomatch h
  exchanging h := nomatch h
  results _ h := nomatch h

/-- Only the reading end of the control channel has moved. -/
theorem read (inv : ReceiptInv cfg c) {i : Item} {rest : Fifo Item}
    (hpop : c.inbox.pop = some (i, rest)) : ReceiptInv cfg { c with inbox := rest } := by
  have htaken : ∀ j ∈ c.inbox.taken, j ∈ rest.taken := by
    intro j hj
    rw [Fifo.taken_of_pop hpop]
    exact List.mem_append_left _ hj
  have hsent : rest.sent = c.inbox.sent := Fifo.sent_of_pop hpop
  exact { inv with
    asked_streams := fun h => htaken _ (inv.asked_streams h)
    create_once := by rw [hsent]; exact inv.create_once
    asked_results := by rw [hsent]; exact inv.asked_results
    exchanging := fun h => htaken _ (inv.exchanging h) }

/-- The main thread goes elsewhere; entering `exchange_results` takes a request. -/
theorem goto (inv : ReceiptInv cfg c) {pc : ClientPc}
    (hpc : pc = .exchange → .byte .exchangeResults ∈ c.inbox.taken) :
    ReceiptInv cfg { c with pc := pc } :=
  { inv with exchanging := hpc }

/-- A unit that is neither `TestEnd` nor a results body is written. -/
theorem write (inv : ReceiptInv cfg c) {i : Item} (hend : i ≠ .byte .testEnd)
    (hresults : ∀ r, i ≠ .results r) : ReceiptInv cfg (c.write i) where
  __ := inv
  end_once := (Fifo.count_sent_push_of_ne hend).trans inv.end_once
  results := by
    intro r hr
    rcases Fifo.mem_sent_push.mp hr with hold | hnew
    · exact inv.results r hold
    · exact absurd hnew.symm (hresults r)

/-- `create_streams`: all threads are running, none has sent anything. -/
theorem create (inv : ReceiptInv cfg c) {rest : Fifo Item}
    (hpop : c.inbox.pop = some (.byte .createStreams, rest)) :
    ReceiptInv cfg (Client.handleMessage cfg token .createStreams { c with inbox := rest }) := by
  have hnil : c.threads = [] := inv.threads_eq_nil hpop
  have hunsent : c.testEndSent = false := by
    cases hsent : c.testEndSent with
    | false => rfl
    | true =>
      have hlen := (inv.all_finished hsent).1
      have hpos := expectedStreams_pos cfg
      rw [hnil, List.length_nil] at hlen
      omega
  have hthreads : ∀ ts : List StreamThread,
      (ts.map ClientThread.start).filterMap ClientThread.receipt = [] ∧
        (ts.map ClientThread.start).countP ClientThread.isFinished = 0 := by
    intro ts
    induction ts with
    | nil => exact ⟨rfl, rfl⟩
    | cons t ts ih => exact ih
  have inv' := inv.read hpop
  have hnotices := inv.notices
  have hreceipts := inv.receipts
  rw [hnil] at hnotices hreceipts
  exact { inv' with
    spawned := by
      refine Or.inr ⟨c.dataPortOverride, ?_⟩
      show (c.threads ++ _).map ClientThread.spec = _
      rw [hnil, List.nil_append, List.map_map]
      exact List.map_id _
    asked_streams := fun _ => by
      show _ ∈ rest.taken
      rw [Fifo.taken_of_pop hpop]
      exact List.mem_append_right _ (List.mem_singleton.mpr rfl)
    notices := by
      show _ = (c.threads ++ _).countP ClientThread.isFinished
      rw [hnil, List.nil_append, (hthreads _).2]
      exact hnotices
    receipts := by
      show (c.receipts ++ c.receiptRx).Perm ((c.threads ++ _).filterMap ClientThread.receipt)
      rw [hnil, List.nil_append, (hthreads _).1]
      exact hreceipts
    exchanging := fun h => nomatch h
    results := fun r hr => absurd (inv.results r hr).1 (by rw [hunsent]; exact Bool.false_ne_true) }

theorem message (inv : ReceiptInv cfg c) {m : Message} {rest : Fifo Item}
    (hpop : c.inbox.pop = some (.byte m, rest)) :
    ReceiptInv cfg (Client.handleMessage cfg token m { c with inbox := rest }) := by
  have inv' := inv.read hpop
  cases m with
  | createStreams => exact inv.create hpop
  | paramExchange =>
    have hwrite := inv'.write (i := .options (sendOptions cfg token)) (fun h => nomatch h)
      (fun r h => nomatch h)
    exact hwrite.goto fun h => nomatch h
  | displayResults =>
    have hwrite := inv'.write (i := .byte .iperfDone) (fun h => nomatch h) (fun r h => nomatch h)
    exact hwrite.goto fun h => nomatch h
  | exchangeResults =>
    refine inv'.goto fun _ => ?_
    rw [Fifo.taken_of_pop hpop]
    exact List.mem_append_right _ (List.mem_singleton.mpr rfl)
  | _ => exact { inv' with exchanging := fun h => nomatch h }

/-- A receipt goes from the channel to the collected ones. -/
theorem drainOne (inv : ReceiptInv cfg c) {r : ClientStreamReceipt}
    {rs : List ClientStreamReceipt} (hrx : c.receiptRx = r :: rs) :
    ReceiptInv cfg { c with receiptRx := rs, receipts := c.receipts ++ [r] } where
  __ := inv
  receipts := by
    have h := inv.receipts
    rw [hrx] at h
    show ((c.receipts ++ [r]) ++ rs).Perm _
    rw [List.append_assoc]
    exact h

/-- **The results are built from all the receipts**: the request is there, so `TestEnd` was out, so
    all threads had finished, so all receipts had been sent; and the drain left none behind. -/
theorem sendResults (inv : ReceiptInv cfg c) {cpu : CpuUsage} (hpc : c.pc = .exchange)
    (hrx : c.receiptRx = []) :
    ReceiptInv cfg
      { c.write (.results (buildClientResults c.receipts cpu)) with pc := .readResults } where
  __ := inv
  end_once := (Fifo.count_sent_push_of_ne (by simp)).trans inv.end_once
  exchanging h := nomatch h
  results := by
    intro r hr
    rcases Fifo.mem_sent_push.mp hr with hold | hnew
    · exact inv.results r hold
    · have hperm := inv.receipts
      rw [hrx, List.append_nil] at hperm
      exact ⟨inv.asked_results (Fifo.mem_sent_of_mem_taken (inv.exchanging hpc)),
        c.receipts, cpu, Item.results.inj hnew, hperm⟩

/-- The counter takes one notice; the one that completes the count sends `TestEnd`. -/
theorem notice (inv : ReceiptInv cfg c) {rest : List Message}
    (hrx : c.rxChannel = .testEnd :: rest) :
    ReceiptInv cfg (Client.finishStream cfg { c with rxChannel := rest }) := by
  have hnotices : rest.length + (c.streamsFinished + 1) =
      c.threads.countP ClientThread.isFinished := by
    have h := inv.notices
    rw [hrx, List.length_cons] at h
    omega
  have honly : ∀ m ∈ rest, m = .testEnd := by
    intro m hm
    refine inv.only_ends m ?_
    rw [hrx]
    exact List.mem_cons_of_mem _ hm
  simp only [Client.finishStream]
  split
  · rename_i hlast
    obtain ⟨hcount, hunsent⟩ := hlast
    have hunsent : c.testEndSent = false := Bool.not_eq_true _ ▸ hunsent
    have honce := inv.end_once
    rw [hunsent] at honce
    exact { inv with
      notices := hnotices
      only_ends := honly
      end_once := by
        show (c.outbox.push _).sent.count _ = 1
        rw [Fifo.sent_push, List.count_append, List.count_singleton_self, honce]
        rfl
      end_after := fun _ => hcount
      asked_results := fun _ => rfl
      exchanging := fun h => nomatch h
      results := by
        intro r hr
        rcases Fifo.mem_sent_push.mp hr with hold | hnew
        · exact absurd (inv.results r hold).1 (by rw [hunsent]; exact Bool.false_ne_true)
        · exact nomatch hnew }
  · exact { inv with
      notices := hnotices
      only_ends := honly
      end_after := fun h => Nat.le_succ_of_le (inv.end_after h)
      exchanging := fun h => nomatch h }

theorem spawned_step (inv : ReceiptInv cfg c) {i : Nat} {spec : StreamThread}
    {st : ThreadStatus} (hi : c.threads[i]? = some ⟨spec, st⟩) (st' : ThreadStatus) :
    ∃ port, (c.threads.set i ⟨spec, st'⟩).map ClientThread.spec = createStreams cfg port := by
  rcases inv.spawned with hnil | ⟨port, hport⟩
  · rw [hnil] at hi
    cases hi
  · have hsame : (c.threads.set i ⟨spec, st'⟩).map ClientThread.spec =
        c.threads.map ClientThread.spec := Pool.map_step hi rfl
    exact ⟨port, hsame.trans hport⟩

/-- A running thread sends its receipt; `TestEnd` is not out yet. -/
theorem receipt (inv : ReceiptInv cfg c) {i : Nat} {spec : StreamThread}
    {r : ClientStreamReceipt} (hi : c.threads[i]? = some ⟨spec, .running⟩) :
    ReceiptInv cfg
      { c with
        threads := c.threads.set i ⟨spec, .reported r⟩, receiptRx := c.receiptRx ++ [r] } where
  __ := inv
  spawned := Or.inr (inv.spawned_step hi _)
  asked_streams _ := inv.asked_streams (List.ne_nil_of_mem (List.mem_of_getElem? hi))
  notices :=
    inv.notices.trans (Pool.countP_step hi ⟨spec, .reported r⟩ ClientThread.isFinished).symm
  receipts := by
    have hnew : ((c.threads.set i ⟨spec, .reported r⟩).filterMap ClientThread.receipt).Perm
        (c.threads.filterMap ClientThread.receipt ++ [r]) := Pool.filterMap_step hi rfl rfl
    show (c.receipts ++ (c.receiptRx ++ [r])).Perm _
    rw [← List.append_assoc]
    exact (inv.receipts.append_right [r]).trans hnew.symm
  results := fun s hs =>
    absurd (inv.results s hs).1 (by rw [inv.not_sent_of_running hi]; exact Bool.false_ne_true)

/-- A thread that has sent its receipt sends its notice. -/
theorem finish (inv : ReceiptInv cfg c) {i : Nat} {spec : StreamThread}
    {r : ClientStreamReceipt} (hi : c.threads[i]? = some ⟨spec, .reported r⟩) :
    ReceiptInv cfg
      { c with
        threads := c.threads.set i ⟨spec, .finished r⟩
        rxChannel := c.rxChannel ++ [.testEnd] } := by
  have hsame : (c.threads.set i ⟨spec, .finished r⟩).filterMap ClientThread.receipt =
      c.threads.filterMap ClientThread.receipt := Pool.filterMap_step_same hi rfl
  exact { inv with
    spawned := Or.inr (inv.spawned_step hi _)
    asked_streams := fun _ => inv.asked_streams (List.ne_nil_of_mem (List.mem_of_getElem? hi))
    notices := by
      have hcount : (c.threads.set i ⟨spec, .finished r⟩).countP ClientThread.isFinished + 0 =
          c.threads.countP ClientThread.isFinished + 1 :=
        Pool.countP_step hi ⟨spec, .finished r⟩ ClientThread.isFinished
      have hnotices := inv.notices
      show (c.rxChannel ++ [Message.testEnd]).length + c.streamsFinished =
        (c.threads.set i ⟨spec, .finished r⟩).countP ClientThread.isFinished
      rw [List.length_append, List.length_singleton]
      omega
    only_ends := by
      intro m hm
      rcases List.mem_append.mp hm with hold | hnew
      · exact inv.only_ends m hold
      · exact List.mem_singleton.mp hnew
    receipts := by rw [hsame]; exact inv.receipts
    results := by rw [hsame]; exact inv.results }

/-- **Every move of the client keeps the invariant.** -/
theorem moves (inv : ReceiptInv cfg c) (h : Client.Moves cfg token c c') : ReceiptInv cfg c' := by
  cases h with
  | noMessage hpc hempty => exact inv.goto fun h => nomatch h
  | message m rest hpc hpop => exact inv.message hpop
  | gotPort p rest hpc hpop =>
    exact { inv.read hpop with exchanging := fun h => nomatch h }
  | gotResults r rest hpc hpop => exact (inv.read hpop).goto fun h => nomatch h
  | drainOne r rs hrx => exact inv.drainOne hrx
  | sendResults cpu hpc hrx => exact inv.sendResults hpc hrx
  | drained hpc => exact inv.goto fun h => nomatch h
  | noNotice hpc => exact inv.goto fun h => nomatch h
  | notice rest hpc hnext => exact inv.notice hnext
  | unknownNotice m rest hpc hnext hm =>
    -- the threads send nothing else
    refine absurd (inv.only_ends m ?_) hm
    rw [hnext]
    exact List.mem_cons_self
  | exit hpc => exact inv.goto fun h => nomatch h
  | receipt i spec r hi => exact inv.receipt hi
  | finish i spec r hi => exact inv.finish hi

/-- The server writes a unit. -/
theorem serverSend (inv : ReceiptInv cfg c) {i : Item} (hmay : ServerMay c i) :
    ReceiptInv cfg { c with inbox := c.inbox.push i } where
  __ := inv
  create_once := by
    by_cases hi : i = .byte .createStreams
    · have hnone := List.count_eq_zero.mpr (hmay.2.1 hi)
      show (c.inbox.push i).sent.count _ ≤ 1
      rw [Fifo.sent_push, List.count_append, hnone, hi, List.count_singleton_self]
    · exact (Fifo.count_sent_push_of_ne hi).trans_le inv.create_once
  asked_results := by
    intro hmem
    rcases Fifo.mem_sent_push.mp hmem with hold | hnew
    · exact inv.asked_results hold
    · -- the server has read `TestEnd`, so the client has written it
      have hread := Fifo.mem_sent_of_mem_taken (hmay.2.2 hnew.symm)
      have hcount := List.count_pos_iff.mpr hread
      rw [inv.end_once] at hcount
      cases hsent : c.testEndSent with
      | true => rfl
      | false =>
        rw [hsent] at hcount
        cases hcount

/-- The server reads a unit. -/
theorem serverRecv (inv : ReceiptInv cfg c) {i : Item} {rest : Fifo Item}
    (hpop : c.outbox.pop = some (i, rest)) : ReceiptInv cfg { c with outbox := rest } := by
  have hsent : rest.sent = c.outbox.sent := Fifo.sent_of_pop hpop
  exact { inv with
    end_once := by rw [hsent]; exact inv.end_once
    results := by rw [hsent]; exact inv.results }

theorem step {a : ReceiptAct} (inv : ReceiptInv cfg c)
    (h : receiptStep cfg token a c = some c') : ReceiptInv cfg c' := by
  cases a with
  | client a => exact inv.moves (Client.act_moves h)
  | serverSend i =>
    simp only [receiptStep] at h
    split at h
    · rename_i hmay
      cases h
      exact inv.serverSend hmay
    · cases h
  | serverRecv =>
    obtain ⟨⟨i, rest⟩, hpop, rfl⟩ := Option.map_eq_some_iff.mp h
    exact inv.serverRecv hpop

/-- The invariant holds in every run. -/
theorem reachable (h : (receiptSystem cfg token).Reachable c) : ReceiptInv cfg c := by
  refine h.invariant (fun s hs => ?_) (fun a s t inv hst => inv.step hst)
  cases hs
  exact initial

end ReceiptInv

/-! ## Complete results -/

/-- **No lost or duplicated receipt.**  In every run against a server that asks for results only
    after `TestEnd`: `TestEnd` is written at most once, and only when all threads have finished; the
    threads are as many as the loop waits for; and any results written hold exactly one entry per
    thread, the one of its receipt. -/
theorem receipts_complete (cfg : Config) (token : Option String) {c : Client}
    (h : (receiptSystem cfg token).Reachable c) :
    c.outbox.sent.count (.byte .testEnd) ≤ 1 ∧
    (.byte .testEnd ∈ c.outbox.sent →
      c.threads.length = expectedStreams cfg ∧ ∀ t ∈ c.threads, t.isFinished = true) ∧
    (c.threads ≠ [] → (∃ port, c.threads.map ClientThread.spec = createStreams cfg port) ∧
      c.threads.length = expectedStreams cfg) ∧
    (∀ r, .results r ∈ c.outbox.sent → r.streams.length = c.threads.length ∧
      r.streams.Perm (c.threads.filterMap fun t => t.receipt.map streamResults)) := by
  have inv := ReceiptInv.reachable h
  refine ⟨?_, fun hmem => ?_, fun hne => ⟨?_, inv.length_threads hne⟩, fun r hr => ?_⟩
  · rw [inv.end_once]
    split
    · exact Nat.le_refl 1
    · exact Nat.zero_le 1
  · have hcount := List.count_pos_iff.mpr hmem
    rw [inv.end_once] at hcount
    refine inv.all_finished ?_
    by_contra hunsent
    rw [if_neg hunsent] at hcount
    exact Nat.lt_irrefl 0 hcount
  · exact inv.spawned.resolve_left hne
  · obtain ⟨hsent, receipts, cpu, rfl, hperm⟩ := inv.results r hr
    have hentries : (receipts.map streamResults).Perm
        (c.threads.filterMap fun t => t.receipt.map streamResults) := by
      rw [← List.map_filterMap]
      exact hperm.map streamResults
    refine ⟨?_, hentries⟩
    show (receipts.map streamResults).length = c.threads.length
    rw [List.length_map, hperm.length_eq, List.length_filterMap_eq_countP, List.countP_eq_length]
    exact fun t ht => ClientThread.receipt_isSome_of_isFinished ((inv.all_finished hsent).2 t ht)

/-! ### Two streams, the second receipt collected by `exchange_results` itself -/

def twoStreams : Config := { Config.withHost "server" with parallel := 2 }

/-- The second thread ends while the loop is past its drain, so its receipt is still in the channel
    when `ExchangeResults` arrives. -/
def lateReceiptRun : List ReceiptAct :=
  [.serverSend (.byte .createStreams), .client (.loop .zero),
    .client (.emitReceipt 0 (.empty 0)), .client (.emitEnd 0),
    .client (.loop .zero), .client (.loop .zero), .client (.loop .zero),
    .client (.loop .zero), .client (.loop .zero),
    .client (.emitReceipt 1 (.empty 0)), .client (.emitEnd 1),
    .client (.loop .zero), .serverRecv, .serverSend (.byte .exchangeResults),
    .client (.loop .zero), .client (.loop .zero), .client (.loop .zero)]

def lateReceiptState : Client where
  pc := .readResults
  threads := [⟨⟨.tcpSend, twoStreams.hostPort, 1⟩, .finished (.empty 1)⟩,
    ⟨⟨.tcpSend, twoStreams.hostPort, 2⟩, .finished (.empty 2)⟩]
  receiptRx := []
  rxChannel := []
  receipts := [.empty 1, .empty 2]
  streamsFinished := 2
  testEndSent := true
  isStarted := false
  isRunning := false
  dataPortOverride := none
  inbox := ⟨[.byte .createStreams, .byte .exchangeResults], []⟩
  outbox := ⟨[.byte .testEnd], [.results (buildClientResults [.empty 1, .empty 2] .zero)]⟩

theorem lateReceipt_reachable : (receiptSystem twoStreams none).Reachable lateReceiptState :=
  System.reachable_iff_run.mpr ⟨Client.initial, lateReceiptRun, rfl, rfl⟩

theorem receipts_complete_lateReceipt :
    lateReceiptState.outbox.sent.count (.byte .testEnd) ≤ 1 ∧
    (buildClientResults [.empty 1, .empty 2] .zero).streams.length = 2 := by
  have hall := receipts_complete twoStreams none lateReceipt_reachable
  refine ⟨hall.1, (hall.2.2.2 _ ?_).1⟩
  exact List.mem_append_right _ (List.mem_singleton.mpr rfl)

end Rperf3
