/-
  WHOLE RUNS of a client and a session: what has been said, in either direction.

  `InStep` relates the two parties at one moment.  Here the channels' memory is added: everything
  the server has written is a word of its script, everything it has read a word of the client's
  (`Stage.Said`, `Reply.Said` spell the words out), the client's counters and receipts are as in
  `ReceiptInv`, and the results the server has written are those its session ends with.

  `Joined` collects this; every action of either party keeps it (`Joined.step`), so it holds in all
  runs of a session that keeps the dialogue (`Joined.reachable`).
-/
import Rperf3.Client.Receipts
import Rperf3.Protocol.Deadlock

namespace Rperf3

open Transition Effect Effect.Prog Effect.Discipline

/-! ## The scripts as words -/

/-- What the server writes before `CreateStreams`; a session of the accept loop announces the port
    of its UDP socket. -/
def opening (port : Option Nat) : List Item :=
  .byte .paramExchange :: (port.toList.flatMap fun n => [.byte .setDataPort, .port n])

/-- The server's words, by the stage they lead to. -/
def Stage.Said : Stage → List Item → Prop
  | .idle, xs => xs = []
  | .asked, xs => xs = opening none
  | .portAnnounced, xs => xs = opening none ++ [.byte .setDataPort]
  | .portSent, xs => ∃ n, xs = opening (some n)
  | .created, xs => ∃ port, xs = opening port ++ [.byte .createStreams]
  | .started, xs => ∃ port, xs = opening port ++ [.byte .createStreams, .byte .testStart]
  | .running, xs =>
    ∃ port, xs = opening port ++ [.byte .createStreams, .byte .testStart, .byte .testRunning]
  | .exchange, xs =>
    ∃ port, xs = opening port ++ [.byte .createStreams, .byte .testStart, .byte .testRunning,
      .byte .exchangeResults]
  | .reported, xs =>
    ∃ port r, xs = opening port ++ [.byte .createStreams, .byte .testStart, .byte .testRunning,
      .byte .exchangeResults, .results r]
  | .display, xs =>
    ∃ port r, xs = opening port ++ [.byte .createStreams, .byte .testStart, .byte .testRunning,
      .byte .exchangeResults, .results r, .byte .displayResults]

/-- The client's words. -/
def Reply.Said (opts : ClientOptions) : Reply → List Item → Prop
  | .nothing, xs => xs = []
  | .options, xs => xs = [.options opts]
  | .testEnd, xs => xs = [.options opts, .byte .testEnd]
  | .results, xs => ∃ r, xs = [.options opts, .byte .testEnd, .results r]
  | .iperfDone, xs => ∃ r, xs = [.options opts, .byte .testEnd, .results r, .byte .iperfDone]

theorem said_of_serverScript {xs : List Item} {w : Stage}
    (h : serverScript.run xs .idle = some w) : w.Said xs := by
  refine serverScript.run_history (P := fun xs w => w.Said xs) (show Stage.idle.Said [] from rfl)
    (fun xs a s t hs hstep => ?_) h
  replace hstep : serverScriptStep a s = some t := hstep
  unfold serverScriptStep at hstep
  -- one goal per line of the script
  split at hstep
  all_goals cases hstep
  · exact congrArg (· ++ [_]) hs
  · exact congrArg (· ++ [_]) hs
  · rename_i n
    exact ⟨n, congrArg (· ++ [_]) hs⟩
  · exact ⟨none, congrArg (· ++ [_]) hs⟩
  · obtain ⟨n, rfl⟩ := hs
    exact ⟨some n, rfl⟩
  · obtain ⟨port, rfl⟩ := hs
    exact ⟨port, List.append_assoc _ _ _⟩
  · obtain ⟨port, rfl⟩ := hs
    exact ⟨port, List.append_assoc _ _ _⟩
  · obtain ⟨port, rfl⟩ := hs
    exact ⟨port, List.append_assoc _ _ _⟩
  · rename_i r
    obtain ⟨port, rfl⟩ := hs
    exact ⟨port, r, List.append_assoc _ _ _⟩
  · obtain ⟨port, r, rfl⟩ := hs
    exact ⟨port, r, List.append_assoc _ _ _⟩

theorem said_of_clientScript {opts : ClientOptions} {xs : List Item} {w : Reply}
    (h : (clientScript opts).run xs .nothing = some w) : w.Said opts xs := by
  refine (clientScript opts).run_history (P := fun xs w => w.Said opts xs)
    (show Reply.nothing.Said opts [] from rfl) (fun xs a s t hs hstep => ?_) h
  replace hstep : clientScriptStep opts a s = some t := hstep
  unfold clientScriptStep at hstep
  split at hstep
  · split at hstep
    · rename_i ho
      cases hstep
      rw [show xs = [] from hs, ho]
      rfl
    · cases hstep
  · cases hstep
    exact congrArg (· ++ [_]) hs
  · rename_i r
    cases hstep
    exact ⟨r, congrArg (· ++ [_]) hs⟩
  · cases hstep
    obtain ⟨r, rfl⟩ := hs
    exact ⟨r, rfl⟩
  · cases hstep

/-! What the words tell the invariant of the client. -/

/-- `CreateStreams` has been written once the early stages are over, and not before. -/
theorem Stage.Said.createStreams {w : Stage} {xs : List Item} (h : w.Said xs) :
    .byte .createStreams ∈ xs ↔ w.isEarly = false := by
  have hopening : ∀ port, Item.byte .createStreams ∉ opening port := by
    intro port
    cases port with
    | none => decide
    | some n => simp [opening]
  cases w with
  | idle => simp [show xs = [] from h, Stage.isEarly]
  | asked =>
    rw [show xs = opening none from h]
    simp [hopening, Stage.isEarly]
  | portAnnounced =>
    rw [show xs = opening none ++ [.byte .setDataPort] from h]
    simp [hopening, Stage.isEarly]
  | portSent =>
    obtain ⟨n, rfl⟩ := h
    simp [hopening, Stage.isEarly]
  | created => obtain ⟨port, rfl⟩ := h; simp [Stage.isEarly]
  | started => obtain ⟨port, rfl⟩ := h; simp [Stage.isEarly]
  | running => obtain ⟨port, rfl⟩ := h; simp [Stage.isEarly]
  | exchange => obtain ⟨port, rfl⟩ := h; simp [Stage.isEarly]
  | reported => obtain ⟨port, r, rfl⟩ := h; simp [Stage.isEarly]
  | display => obtain ⟨port, r, rfl⟩ := h; simp [Stage.isEarly]

theorem Reply.Said.testEnd {opts : ClientOptions} {w : Reply} {xs : List Item} (h : w.Said opts xs)
    (hended : w.isEnded = true) : .byte .testEnd ∈ xs := by
  cases w with
  | nothing => cases hended
  | options => cases hended
  | testEnd =>
    rw [show xs = [.options opts, .byte .testEnd] from h]
    exact List.mem_cons_of_mem _ List.mem_cons_self
  | results =>
    obtain ⟨r, rfl⟩ := h
    exact List.mem_cons_of_mem _ List.mem_cons_self
  | iperfDone =>
    obtain ⟨r, rfl⟩ := h
    exact List.mem_cons_of_mem _ List.mem_cons_self

/-- A unit that continues the script may follow the unit before it. -/
theorem Stage.Said.follows {w t : Stage} {xs : List Item} (h : w.Said xs) {i : Item}
    (hstep : serverScript.step i w = some t) : follows xs.getLast? i = true := by
  replace hstep : serverScriptStep i w = some t := hstep
  unfold serverScriptStep at hstep
  split at hstep
  all_goals cases hstep
  · rw [show xs = [] from h]
    rfl
  · rw [show xs = opening none from h]
    rfl
  · rw [show xs = opening none ++ [.byte .setDataPort] from h]
    rfl
  · rw [show xs = opening none from h]
    rfl
  · obtain ⟨n, rfl⟩ := h
    rfl
  · obtain ⟨port, rfl⟩ := h
    rw [List.getLast?_append_of_ne_nil _ (List.cons_ne_nil _ _)]
    rfl
  · obtain ⟨port, rfl⟩ := h
    rw [List.getLast?_append_of_ne_nil _ (List.cons_ne_nil _ _)]
    rfl
  · obtain ⟨port, rfl⟩ := h
    rw [List.getLast?_append_of_ne_nil _ (List.cons_ne_nil _ _)]
    rfl
  · obtain ⟨port, rfl⟩ := h
    rw [List.getLast?_append_of_ne_nil _ (List.cons_ne_nil _ _)]
    rfl
  · obtain ⟨port, r, rfl⟩ := h
    rw [List.getLast?_append_of_ne_nil _ (List.cons_ne_nil _ _)]
    rfl

/-! ## The results of a session -/

/-- The results bodies among some units. -/
def resultsIn (xs : List Item) : List Results :=
  xs.filterMap fun
    | .results r => some r
    | _ => none

/-- The results an operation writes. -/
def Op.resultsSent : Op → List Results
  | .send i => resultsIn [i]
  | _ => []

/-- A session watched for the results it writes; writes succeed. -/
def reporting : Discipline Op Op.Ok Stop (List Results) where
  may _ _ := True
  answers _ o r := match o, r with
    | .send _, .error _ => False
    | _, _ => True
  next sent o _ := sent ++ o.resultsSent

/-- The results a session has written when it returns `total`: one entry per stream, numbered from
    one, with `total` bytes in all. -/
def ReportsTotal (sent : List Results) (r : Except Stop Nat) : Prop :=
  ∀ total, r = .ok total → ∃ res ∈ sent,
    (res.streams.map StreamResults.bytes).sum = total ∧
    res.streams.map StreamResults.id = List.range' 1 res.streams.length

section Reporting

variable {α β : Type} {sent : List Results}

/-- Whatever a program does, it may do. -/
theorem reporting_any (p : Session α) : reporting.wp p (fun _ _ => True) sent := by
  induction p generalizing sent with
  | ret r => trivial
  | op o k ih => exact ⟨trivial, fun r _ => ih r⟩

/-- What has been written stays written. -/
theorem reporting_keeps (p : Session α) {res : Results} (h : res ∈ sent) :
    reporting.wp p (fun sent _ => res ∈ sent) sent := by
  induction p generalizing sent with
  | ret r => exact h
  | op o k ih => exact ⟨trivial, fun r _ => ih r (List.mem_append_left _ h)⟩

theorem reporting_sendItem (i : Item) :
    reporting.wp (sendItem i) (fun s r => r = .ok () ∧ s = sent ++ resultsIn [i]) sent := by
  refine ⟨trivial, fun r hr => ?_⟩
  cases r with
  | ok u => exact ⟨rfl, rfl⟩
  | error e => exact hr.elim

/-- Sequencing for what is kept on every path. -/
theorem reporting_bind {p : Session α} {f : α → Session β} {R : List Results → Prop}
    (hp : reporting.wp p (fun s _ => R s) sent)
    (hf : ∀ s a, R s → reporting.wp (f a) (fun s _ => R s) s) :
    reporting.wp (p >>= f) (fun s _ => R s) sent :=
  wp_bind_phase hp (fun _ h => h) hf

/-- **The results go out before the exchange can fail.** -/
theorem reporting_exchangeResults (receipts : List StreamReceipt) (cpu : CpuUsage) :
    reporting.wp (exchangeResults receipts cpu)
      (fun s _ => buildServerResults receipts cpu ∈ s) sent := by
  refine wp_bind (R := fun _ _ => True) (wp_mono ?_ (reporting_sendItem _)) fun s _ _ => ?_
  · rintro s r ⟨rfl, -⟩
    trivial
  have hbody : reporting.wp (ignore (sendItem (.results (buildServerResults receipts cpu))))
      (fun s _ => buildServerResults receipts cpu ∈ s) s := by
    refine wp_bind (R := fun s _ => buildServerResults receipts cpu ∈ s)
      (wp_onResult.mpr (wp_mono ?_ (reporting_sendItem _))) fun _ _ h => h
    rintro s' r ⟨rfl, rfl⟩
    exact List.mem_append_right _ List.mem_cons_self
  exact reporting_bind hbody fun s' _ h => reporting_keeps _ h

/-- The entries of the server's results are its receipts, numbered from one. -/
theorem streams_buildServerResults (receipts : List StreamReceipt) (cpu : CpuUsage) :
    (buildServerResults receipts cpu).streams.map StreamResults.bytes =
      receipts.map StreamReceipt.bytes ∧
    (buildServerResults receipts cpu).streams.map StreamResults.id =
      List.range' 1 receipts.length ∧
    (buildServerResults receipts cpu).streams.length = receipts.length := by
  refine ⟨?_, ?_, ?_⟩
  · show (receipts.zipIdx.map _).map _ = _
    rw [List.map_map]
    show receipts.zipIdx.map (StreamReceipt.bytes ∘ Prod.fst) = _
    rw [← List.map_map, List.zipIdx_map_fst]
  · show (receipts.zipIdx.map _).map _ = _
    rw [List.map_map]
    show receipts.zipIdx.map ((· + 1) ∘ Prod.snd) = _
    rw [← List.map_map, List.zipIdx_map_snd, funext fun n => Nat.add_comm n 1]
    exact List.map_add_range' 0 receipts.length 1
  · simp only [buildServerResults, List.length_map, List.length_zipIdx]

/-- Sequencing towards a total: a failed part ends the session without one. -/
theorem reporting_then {p : Session α} {f : α → Session Nat} {R : List Results → Prop}
    (hp : reporting.wp p (fun s _ => R s) sent)
    (hf : ∀ s a, R s → reporting.wp (f a) ReportsTotal s) :
    reporting.wp (p >>= f) ReportsTotal sent := by
  refine wp_bind (R := fun s _ => R s) (wp_mono (fun s r h => ?_) hp) hf
  cases r with
  | ok a => exact h
  | error e => exact nofun

/-- **A session that returns a total has written results that add up to it.** -/
theorem reporting_reportResults (timeout : Option Nat) (receipts : List StreamReceipt) :
    reporting.wp (reportResults timeout receipts) ReportsTotal sent := by
  refine reporting_then (reporting_any _) fun s₁ _ _ => ?_
  refine reporting_then (reporting_any _) fun s₂ cpu _ => ?_
  have hexchange : reporting.wp (tolerateClosed (exchangeResults receipts cpu))
      (fun s _ => buildServerResults receipts cpu ∈ s) s₂ := by
    refine reporting_bind (wp_onResult.mpr ?_) fun s _ h => reporting_keeps _ h
    exact wp_mono (fun s r h => reporting_keeps _ h) (reporting_exchangeResults receipts cpu)
  refine reporting_then hexchange fun s₃ _ h₃ => ?_
  refine reporting_then (reporting_keeps _ h₃) fun s₄ _ h₄ => ?_
  rintro total htotal
  obtain rfl := Except.ok.inj htotal
  obtain ⟨hbytes, hids, hlen⟩ := streams_buildServerResults receipts cpu
  exact ⟨_, h₄, by rw [hbytes], by rw [hids, hlen]⟩

theorem reporting_sessionProgram (entry : Entry) (auth : AuthConfig) (cookie : Bytes)
    (timeout : Option Nat) :
    reporting.wp (sessionProgram entry auth cookie timeout) ReportsTotal sent := by
  have hbody : ∀ c s, reporting.wp (sessionBody entry auth timeout c) ReportsTotal s := by
    intro c s
    refine reporting_then (reporting_any _) fun s₁ opts _ => ?_
    exact reporting_then (reporting_any _) fun s₂ receipts _ =>
      reporting_reportResults timeout receipts
  cases entry with
  | listener => exact reporting_then (reporting_any _) fun s c _ => hbody c s
  | channel => exact hbody cookie sent

end Reporting

/-! ## Both parties, with their history -/

/-- A client and a session in step, and all that has passed between them. -/
structure Joined (cfg : Config) (token : Option String) (p : Place) (k : Stage) (s : Net) :
    Prop where
  inStep : InStep (sendOptions cfg token) p k s
  ends : Ends (sendOptions cfg token) s.server p ⟨.display, .iperfDone⟩
  wrote : serverScript.run s.client.inbox.sent .idle = some p.wrote
  read : (clientScript (sendOptions cfg token)).run s.client.outbox.taken .nothing = some p.read
  reports : reporting.wp s.server ReportsTotal (resultsIn s.client.inbox.sent)
  receipts : ReceiptInv cfg s.client
  /-- The last notice is answered with `TestEnd` at once. -/
  counted : expectedStreams cfg ≤ s.client.streamsFinished → s.client.testEndSent = true
  created : .byte .createStreams ∈ s.client.inbox.taken → s.client.threads ≠ []

/-! ### The client's moves -/

section Moves

variable {cfg : Config} {token : Option String} {c c' : Client}

/-- The client neither writes its inbox nor reads its outbox. -/
theorem Client.Moves.channels (h : Client.Moves cfg token c c') :
    c'.inbox.sent = c.inbox.sent ∧ c'.outbox.taken = c.outbox.taken := by
  cases h with
  | message m rest hpc hpop =>
    obtain ⟨hinbox, houtbox⟩ := Client.handleMessage_channels cfg token m { c with inbox := rest }
    exact ⟨(congrArg Fifo.sent hinbox).trans (Fifo.sent_of_pop hpop), houtbox⟩
  | gotPort p rest hpc hpop => exact ⟨Fifo.sent_of_pop hpop, rfl⟩
  | gotResults r rest hpc hpop => exact ⟨Fifo.sent_of_pop hpop, rfl⟩
  | notice rest hpc hrx =>
    obtain ⟨hinbox, houtbox⟩ := Client.finishStream_channels cfg { c with rxChannel := rest }
    exact ⟨congrArg Fifo.sent hinbox, houtbox⟩
  | _ => exact ⟨rfl, rfl⟩

/-- The count and the end of the test stay together. -/
theorem Client.Moves.counted (h : Client.Moves cfg token c c')
    (hc : expectedStreams cfg ≤ c.streamsFinished → c.testEndSent = true) :
    expectedStreams cfg ≤ c'.streamsFinished → c'.testEndSent = true := by
  cases h with
  | message m rest hpc hpop =>
    cases m with
    | _ => exact hc
  | notice rest hpc hrx =>
    intro hall
    rcases Client.lastNotice_or_not cfg { c with rxChannel := rest } with hlast | hmore
    · rw [Client.finishStream_last hlast]
    · rw [Client.finishStream_more hmore] at hall ⊢
      rcases hmore with hmore | hsent
      · exact absurd hall (Nat.not_le.mpr hmore)
      · exact hsent
  | _ => exact hc

/-- Once `CreateStreams` has been read there are threads. -/
theorem Client.Moves.created (h : Client.Moves cfg token c c')
    (hc : .byte .createStreams ∈ c.inbox.taken → c.threads ≠ []) :
    .byte .createStreams ∈ c'.inbox.taken → c'.threads ≠ [] := by
  -- a unit read that is not `CreateStreams` changes nothing here
  have hread : ∀ {i : Item} {rest : Fifo Item}, c.inbox.pop = some (i, rest) →
      i ≠ .byte .createStreams → .byte .createStreams ∈ rest.taken → c.threads ≠ [] := by
    intro i rest hpop hi hmem
    rw [Fifo.taken_of_pop hpop, List.mem_append, List.mem_singleton] at hmem
    exact hc (hmem.resolve_right fun h => hi h.symm)
  cases h with
  | message m rest hpc hpop =>
    rw [(Client.handleMessage_channels cfg token m { c with inbox := rest }).1]
    by_cases hm : m = .createStreams
    · subst hm
      intro _ hnil
      have hlen := length_createStreams cfg c.dataPortOverride
      have hpos := expectedStreams_pos cfg
      have hspawned := List.map_eq_nil_iff.mp (List.append_eq_nil_iff.mp hnil).2
      rw [show createStreams cfg c.dataPortOverride = [] from hspawned, List.length_nil] at hlen
      omega
    · have hkeep : (Client.handleMessage cfg token m { c with inbox := rest }).threads =
          c.threads := by
        cases m with
        | createStreams => exact absurd rfl hm
        | _ => rfl
      rw [hkeep]
      exact hread hpop fun h => hm (Item.byte.inj h)
  | gotPort p rest hpc hpop => exact hread hpop nofun
  | gotResults r rest hpc hpop => exact hread hpop nofun
  | notice rest hpc hrx =>
    rw [(Client.finishStream_channels cfg { c with rxChannel := rest }).1]
    intro hmem
    rcases Client.lastNotice_or_not cfg { c with rxChannel := rest } with hlast | hmore
    · rw [Client.finishStream_last hlast]
      exact hc hmem
    · rw [Client.finishStream_more hmore]
      exact hc hmem
  | receipt i spec r hi =>
    intro hmem hnil
    exact hc hmem ((List.set_eq_nil_iff ..).mp hnil)
  | finish i spec r hi =>
    intro hmem hnil
    exact hc hmem ((List.set_eq_nil_iff ..).mp hnil)
  | _ => exact hc

end Moves

/-- Only a client that has read `DisplayResults` has written `IperfDone`. -/
theorem eq_display_of_replied {c : Client} {k : Stage} (h : c.replied k = .iperfDone) :
    k = .display := by
  have hif : ∀ {b : Bool} {x y : Reply}, x ≠ .iperfDone → y ≠ .iperfDone →
      (if b then x else y) ≠ .iperfDone := by
    intro b x y hx hy
    cases b with
    | true => exact hx
    | false => exact hy
  cases k with
  | created => exact absurd h (hif nofun nofun)
  | started => exact absurd h (hif nofun nofun)
  | running => exact absurd h (hif nofun nofun)
  | exchange =>
    simp only [Client.replied] at h
    split at h
    · cases h
    · cases h
  | display => rfl
  | _ => cases h

namespace Joined

variable {cfg : Config} {token : Option String} {p : Place} {k : Stage} {s : Net}

theorem clientMove (h : Joined cfg token p k s) {c : Client}
    (hmove : Client.Moves cfg token s.client c) : ∃ k', Joined cfg token p k' ⟨c, s.server⟩ := by
  obtain ⟨k', hstep⟩ := h.inStep.clientMove hmove
  obtain ⟨hinbox, houtbox⟩ := hmove.channels
  refine ⟨k', hstep, h.ends, ?_, ?_, ?_, h.receipts.moves hmove, hmove.counted h.counted,
    hmove.created h.created⟩
  · rw [hinbox]
    exact h.wrote
  · rw [houtbox]
    exact h.read
  · rw [hinbox]
    exact h.reports

/-- The server writes a unit of its script. -/
theorem serverSend {c : Client} {i : Item} {next : Except Stop Unit → Session Nat}
    (h : Joined cfg token p k ⟨c, .op (.send i) next⟩) :
    Joined cfg token (dialogueNext p (.send i)) k
      ⟨{ c with inbox := c.inbox.push i }, next (.ok ())⟩ := by
  obtain ⟨⟨hsome, hend⟩, hnext⟩ := h.ends
  obtain ⟨t, hstep⟩ := Option.isSome_iff_exists.mp hsome
  have hplace : dialogueNext p (.send i) = ⟨t, p.read⟩ := by
    simp only [dialogueNext, hstep, Option.getD_some]
  have hsaid := said_of_serverScript h.wrote
  have hmay : ServerMay c i := by
    refine ⟨hsaid.follows hstep, fun hi hmem => ?_, fun hi => ?_⟩
    · subst hi
      have hlate := hsaid.createStreams.mp hmem
      rcases serverScript_byte hstep with ⟨h, -⟩ | ⟨h, -⟩ | ⟨-, hw, -⟩ | ⟨h, -⟩ | ⟨h, -⟩ | ⟨h, -⟩ |
        ⟨h, -⟩
      · cases h
      · cases h
      · rcases hw with hw | hw
        · rw [hw] at hlate
          cases hlate
        · rw [hw] at hlate
          cases hlate
      · cases h
      · cases h
      · cases h
      · cases h
    · exact (said_of_clientScript h.read).testEnd (hend hi)
  have hwrote : serverScript.run (c.inbox.push i).sent .idle = some t := by
    rw [Fifo.sent_push, serverScript.run_append, h.wrote]
    show (serverScript.step i p.wrote).bind (serverScript.run []) = some t
    rw [hstep]
    rfl
  rw [hplace]
  refine ⟨⟨?_, { h.inStep.client with }, Fifo.between_push h.inStep.down hstep, h.inStep.up, ?_⟩,
    ?_, hwrote, h.read, ?_, h.receipts.serverSend hmay, h.counted, h.created⟩
  · exact hplace ▸ h.inStep.session.2 (.ok ()) rfl
  · intro ht
    rcases isReporting_enter hstep ht with hold | hnew
    · exact h.inStep.order hold
    · exact hend hnew
  · exact hplace ▸ hnext (.ok ()) rfl
  · have hlog := h.reports.2 (.ok ()) trivial
    show reporting.wp _ ReportsTotal (resultsIn (c.inbox.push i).sent)
    rw [Fifo.sent_push, resultsIn, List.filterMap_append]
    exact hlog

/-- The server reads a unit, which its read was waiting for. -/
theorem serverRecv {c : Client} {o : Op} {next : Except Stop o.Ok → Session Nat} {a : o.Ok}
    {i : Item} {rest : Fifo Item} {r : Reply} (h : Joined cfg token p k ⟨c, .op o next⟩)
    (hread : o.isControlRead = true) (hanswer : dialogueAnswers (sendOptions cfg token) o (.ok a))
    (hplace : dialogueNext p o = ⟨p.wrote, r⟩) (hpop : c.outbox.pop = some (i, rest))
    (hstep : (clientScript (sendOptions cfg token)).step i p.read = some r) :
    Joined cfg token ⟨p.wrote, r⟩ k ⟨{ c with outbox := rest }, next (.ok a)⟩ := by
  have hin := h.inStep.serverRecv hanswer hplace hpop hstep
  refine ⟨hin, ?_, h.wrote, ?_, ?_, h.receipts.serverRecv hpop, h.counted, h.created⟩
  · exact hplace ▸ h.ends.2 (.ok a) hanswer
  · show (clientScript (sendOptions cfg token)).run rest.taken .nothing = some r
    rw [Fifo.taken_of_pop hpop, System.run_append, h.read]
    show ((clientScript (sendOptions cfg token)).step i p.read).bind _ = some r
    rw [hstep]
    rfl
  · have hanswers : reporting.answers (resultsIn c.inbox.sent) o (.ok a) := by
      cases o with
      | _ => trivial
    have hnone : reporting.next (resultsIn c.inbox.sent) o (.ok a) = resultsIn c.inbox.sent := by
      cases o with
      | send i => cases hread
      | _ => exact List.append_nil _
    exact hnone ▸ h.reports.2 (.ok a) hanswers

/-- **Every operation of the session keeps the history.** -/
theorem serverMove {c : Client} {o : Op} {next : Except Stop o.Ok → Session Nat}
    {world : (o : Op) → Except Stop o.Ok} {t : Net} (h : Joined cfg token p k ⟨c, .op o next⟩)
    (hstep : serveOp world c o next = some t) :
    ∃ p' r, Joined cfg token p' k t ∧ t.server = next r := by
  cases o with
  | send i =>
    cases hstep
    exact ⟨_, .ok (), h.serverSend, rfl⟩
  | recvOptions =>
    simp only [serveOp] at hstep
    split at hstep
    · rename_i o rest hpop
      cases hstep
      obtain rfl : p = ⟨.asked, .nothing⟩ := h.inStep.session.1
      obtain ⟨r, hr, -⟩ := Fifo.between_pop h.inStep.up hpop
      obtain ⟨rfl, rfl⟩ := clientScript_options hr
      exact ⟨_, .ok _, h.serverRecv rfl rfl rfl hpop hr, rfl⟩
    · cases hstep
  | recvResults =>
    simp only [serveOp] at hstep
    split at hstep
    · rename_i res rest hpop
      cases hstep
      obtain rfl : p = ⟨.reported, .testEnd⟩ := h.inStep.session.1
      exact ⟨_, .ok res, h.serverRecv rfl ⟨res, rfl⟩ rfl hpop rfl, rfl⟩
    · cases hstep
  | awaitByte stops =>
    simp only [serveOp] at hstep
    split at hstep
    · rename_i m rest hpop
      cases hstep
      obtain ⟨r, hr, -⟩ := Fifo.between_pop h.inStep.up hpop
      rcases h.inStep.session.1 with ⟨rfl, rfl⟩ | ⟨rfl, rfl⟩
      · rcases clientScript_byte hr with ⟨rfl, -, rfl⟩ | ⟨-, hread, -⟩
        · exact ⟨_, .ok .testEnd, h.serverRecv rfl ⟨.testEnd, by decide, rfl⟩ rfl hpop hr, rfl⟩
        · cases hread
      · rcases clientScript_byte hr with ⟨-, hread, -⟩ | ⟨rfl, -, rfl⟩
        · cases hread
        · exact ⟨_, .ok .iperfDone, h.serverRecv rfl ⟨.iperfDone, by decide, rfl⟩ rfl hpop hr, rfl⟩
    · cases hstep
  | _ =>
    cases hstep
    have hin : InStep (sendOptions cfg token) p k ⟨c, next (world _)⟩ :=
      ⟨h.inStep.session.2 _ trivial, h.inStep.client, h.inStep.down, h.inStep.up, h.inStep.order⟩
    refine ⟨p, world _, ⟨hin, h.ends.2 _ trivial, h.wrote, h.read, ?_, h.receipts, h.counted,
      h.created⟩, rfl⟩
    have hlog := h.reports.2 (world _) trivial
    exact List.append_nil (resultsIn c.inbox.sent) ▸ hlog

theorem step {t : Net} {a : NetAct} (h : Joined cfg token p k s)
    (hstep : netStep cfg token a s = some t) : ∃ p' k', Joined cfg token p' k' t := by
  cases a with
  | client a =>
    obtain ⟨c, hact, rfl⟩ := Option.map_eq_some_iff.mp hstep
    exact ⟨p, h.clientMove (Client.act_moves hact)⟩
  | server world =>
    obtain ⟨c, server⟩ := s
    cases server with
    | ret r => cases hstep
    | op o next =>
      obtain ⟨p', r, hp', -⟩ := h.serverMove hstep
      exact ⟨p', k, hp'⟩

/-- **The history of every run** of an admitted session. -/
theorem reachable {entry : Entry} {auth : AuthConfig} {cookie : Bytes} {timeout : Option Nat}
    (hadm : admitted auth (sendOptions cfg token))
    (hgood : ¬ (entry = .channel ∧ cfg.transport = .udp ∧ cfg.direction = .reverse))
    (h : (netSystem cfg token (sessionProgram entry auth cookie timeout)).Reachable s) :
    ∃ p k, Joined cfg token p k s := by
  have hends := ends_sessionProgram cookie timeout hadm (sendOptions_not_both cfg token)
    (fun h => hgood (readsEndTwice_iff.mp h))
  refine h.invariant (I := fun s => ∃ p k, Joined cfg token p k s)
    (fun s hs => ?_) (fun a s t ⟨p, k, hst⟩ hstep => hst.step hstep)
  cases hs
  refine ⟨⟨.idle, .nothing⟩, .idle, ?_, hends, rfl, rfl, reporting_sessionProgram entry auth cookie
    timeout, .initial, fun h => ?_, fun h => absurd h List.not_mem_nil⟩
  · exact ⟨Discipline.wp_mono (fun _ _ _ => trivial) hends,
      .before .poll rfl (by decide) ⟨rfl, rfl, rfl⟩ rfl, rfl, rfl, fun h => nomatch h⟩
  · exact absurd h (Nat.not_le.mpr (expectedStreams_pos cfg))

/-- A session that has returned a value and its client have said all there is to say. -/
theorem finished (h : Joined cfg token p k s) {total : Nat} (hret : s.server = .ret (.ok total)) :
    p = ⟨.display, .iperfDone⟩ ∧ k = .display ∧ s.client.inbox.pending = [] ∧
      s.client.outbox.pending = [] := by
  have hplace : p = ⟨.display, .iperfDone⟩ := by
    have hends := h.ends
    rw [hret] at hends
    exact hends total rfl
  have hup : (clientScript (sendOptions cfg token)).run s.client.outbox.pending p.read =
      some (s.client.replied k) := h.inStep.up
  have hdown : serverScript.run s.client.inbox.pending k = some p.wrote := h.inStep.down
  rw [hplace] at hup hdown
  -- nothing follows `IperfDone`, and only its writer has read `DisplayResults`
  cases hout : s.client.outbox.pending with
  | cons i rest =>
    rw [hout] at hup
    obtain ⟨r, hstep, -⟩ := ((clientScript (sendOptions cfg token)).run_cons_eq_some).mp hup
    rcases clientScript_kind hstep with ⟨-, hr⟩ | ⟨-, hr | hr⟩ | ⟨-, hr⟩
    · cases hr
    · cases hr
    · cases hr
    · cases hr
  | nil =>
    rw [hout] at hup
    obtain rfl : k = .display := eq_display_of_replied (Option.some.inj hup).symm
    refine ⟨hplace, rfl, ?_, rfl⟩
    cases hin : s.client.inbox.pending with
    | nil => rfl
    | cons i rest =>
      rw [hin] at hdown
      obtain ⟨t, hstep, -⟩ := (serverScript.run_cons_eq_some).mp hdown
      rcases serverScript_kind hstep with ⟨⟨m, rfl⟩, -, -⟩ | ⟨-, ht⟩ | ⟨-, ht⟩
      · rcases serverScript_byte hstep with h | h | h | h | h | h | h
        all_goals simp at h
      · cases ht
      · cases ht

end Joined

/-- **What a completed test has said.**  On a control channel whose reads and writes do not fail,
    whenever a session that admits its client has returned a total (the reversed UDP test of the
    channel driver, which waits for `TestEnd` twice, is left out): the server has written exactly
    the dialogue of `Protocol/Script`, and the client has read all of it; the client has written its
    options, `TestEnd`, its results and `IperfDone`, and the server has read all of it; the server's
    results number its streams from one and add up to the total returned; and the client's results
    hold exactly the receipts of its stream threads. -/
theorem completed_dialogue (cfg : Config) (token : Option String) (entry : Entry)
    (auth : AuthConfig) (cookie : Bytes) (timeout : Option Nat)
    (hadm : admitted auth (sendOptions cfg token))
    (hgood : ¬ (entry = .channel ∧ cfg.transport = .udp ∧ cfg.direction = .reverse)) {s : Net}
    (hs : (netSystem cfg token (sessionProgram entry auth cookie timeout)).Reachable s)
    {total : Nat} (hret : s.server = .ret (.ok total)) :
    ∃ port theirs ours,
      s.client.inbox.taken = opening port ++ [.byte .createStreams, .byte .testStart,
        .byte .testRunning, .byte .exchangeResults, .results theirs, .byte .displayResults] ∧
      s.client.inbox.pending = [] ∧
      s.client.outbox.taken = [.options (sendOptions cfg token), .byte .testEnd, .results ours,
        .byte .iperfDone] ∧
      s.client.outbox.pending = [] ∧
      (theirs.streams.map StreamResults.bytes).sum = total ∧
      theirs.streams.map StreamResults.id = List.range' 1 theirs.streams.length ∧
      ours.streams.Perm (s.client.threads.filterMap fun t => t.receipt.map streamResults) ∧
      ours.streams.length = expectedStreams cfg := by
  obtain ⟨p, k, h⟩ := Joined.reachable hadm hgood hs
  obtain ⟨hplace, -, hin, hout⟩ := h.finished hret
  have hsent : s.client.inbox.sent = s.client.inbox.taken := by
    unfold Fifo.sent
    rw [hin, List.append_nil]
  have hsaid := said_of_serverScript h.wrote
  have hread := said_of_clientScript h.read
  rw [hplace] at hsaid hread
  obtain ⟨port, theirs, htheirs⟩ := hsaid
  obtain ⟨ours, hours⟩ := hread
  have hreports := h.reports
  rw [hret] at hreports
  obtain ⟨res, hres, hsum, hids⟩ := hreports total rfl
  have honly : resultsIn s.client.inbox.sent = [theirs] := by
    rw [htheirs]
    cases port with
    | none => rfl
    | some n => rfl
  rw [honly, List.mem_singleton] at hres
  subst hres
  have hmem : .results ours ∈ s.client.outbox.sent := by
    refine Fifo.mem_sent_of_mem_taken ?_
    rw [hours]
    simp
  obtain ⟨hend, receipts, cpu, rfl, hperm⟩ := h.receipts.results ours hmem
  have hentries : (receipts.map streamResults).Perm
      (s.client.threads.filterMap fun t => t.receipt.map streamResults) := by
    rw [← List.map_filterMap]
    exact hperm.map streamResults
  refine ⟨port, res, _, hsent ▸ htheirs, hin, hours, hout, hsum, hids, hentries, ?_⟩
  obtain ⟨hlen, hfinished⟩ := h.receipts.all_finished hend
  show (receipts.map streamResults).length = expectedStreams cfg
  rw [List.length_map, hperm.length_eq, List.length_filterMap_eq_countP, ← hlen,
    List.countP_eq_length]
  exact fun t ht => ClientThread.receipt_isSome_of_isFinished (hfinished t ht)

/-- A world in which every socket works and the one data thread has received 1448 bytes. -/
def oneStreamWorld : (o : Op) → Except Stop o.Ok
  | .recvDataStream _ => .ok (⟨⟨1, 50000⟩, ⟨[], .closes⟩⟩ : Conn)
  | .join _ => .ok [{ StreamReceipt.empty with bytes := 1448 }]
  | .cpuUsage _ => .ok CpuUsage.zero
  | .tune _ _ => .ok ()
  | .setReadTimeout _ => .ok ()
  | .spawn _ => .ok ()
  | _ => .error (.io ⟨.other, "not asked for"⟩)

/-- A whole test with one stream: the parties take turns, each as far as it can go. -/
def oneStreamTest : List NetAct :=
  let server (n : Nat) := List.replicate n (NetAct.server oneStreamWorld)
  let client (n : Nat) := List.replicate n (NetAct.client (.loop .zero))
  server 1 ++ client 3 ++ server 8 ++ client 9 ++
    [.client (.emitReceipt 0 (.empty 0)), .client (.emitEnd 0)] ++ client 4 ++
    server 6 ++ client 5 ++ server 2 ++ client 2 ++ server 1

/-- A test with one stream that runs to its end. -/
theorem completed_dialogue_oneStream :
    ∃ s theirs ours, (netSystem (.withHost "server") none
        (sessionProgram .channel none [] none)).Reachable s ∧
      s.server = .ret (.ok 1448) ∧ .results theirs ∈ s.client.inbox.taken ∧
      (theirs.streams.map StreamResults.bytes).sum = 1448 ∧
      .results ours ∈ s.client.outbox.taken ∧ ours.streams.length = 1 := by
  obtain ⟨c, hrun⟩ : ∃ c, (netSystem (.withHost "server") none
      (sessionProgram .channel none [] none)).run oneStreamTest
        ⟨Client.initial, sessionProgram .channel none [] none⟩ = some ⟨c, .ret (.ok 1448)⟩ :=
    ⟨_, rfl⟩
  have hreach := (System.Reachable.init rfl).run hrun
  obtain ⟨port, theirs, ours, htaken, -, hread, -, hsum, -, -, hlen⟩ := completed_dialogue
    (.withHost "server") none .channel none [] none ⟨rfl, fun _ h => nomatch h⟩
    (fun h => nomatch h.2.1) hreach rfl
  refine ⟨_, theirs, ours, hreach, rfl, ?_, hsum, ?_, hlen⟩
  · rw [htaken]
    simp
  · rw [hread]
    simp

end Rperf3
