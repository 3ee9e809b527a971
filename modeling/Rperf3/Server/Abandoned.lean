/-
  THREADS LEFT BEHIND: what a session that fails leaves running.

  Both drivers start the threads of a transfer, wait for `TestEnd` and join the threads.  In the
  forward tests, and in the TCP test both ways, the wait is `wait_for_test_end(control)?`: if the
  control channel breaks first, the session returns from there, and nobody joins its threads or
  raises the stop flag of the UDP receiver.

  1. `Crew` — the threads a run has started and joined, and whether the last thing that happened
     was a wait that failed; `Crew.enter` is the effect of one answered call.
  2. `Leaves` — by the options: the threads such a session leaves.
  3. One lemma per kind of test (`crew_…`); everything else a driver does leaves the crew alone.
  4. `threads_left_iff` — threads are left if and only if the last call of the run is a failed wait
     for `TestEnd`, and then they are all the threads the session started.
-/
import Rperf3.Server.TransferRules

namespace Rperf3

open Effect Effect.Prog Discipline

/-! ## The threads of a run -/

/-- What a transcript says about threads.  `told`: the stop flag of the receiver has been raised;
    `unheard`: the last call was a wait for `TestEnd`, and it failed. -/
structure Crew where
  options : Option ClientOptions
  started : List Job
  joined : List Job
  told : Bool
  unheard : Bool

namespace Crew

def empty : Crew := ⟨none, [], [], false, false⟩

/-- The effect of one call and its outcome. -/
def enter (c : Crew) : (o : Op) → Except Stop o.Ok → Crew
  | .recvOptions, .ok opts => { c with options := some opts, unheard := false }
  | .spawn j, .ok _ => { c with started := c.started ++ [j], unheard := false }
  | .join j, _ => { c with joined := c.joined ++ [j], unheard := false }
  | .raiseStop, .ok _ => { c with told := true, unheard := false }
  | .awaitByte stops, .error _ => { c with unheard := decide (stops = [.testEnd]) }
  | _, _ => { c with unheard := false }

/-- The threads of a transcript. -/
def of (tr : Transcript) : Crew := tr.foldl (fun c ev => c.enter ev.1 ev.2) empty

def AllJoined (c : Crew) : Prop := ∀ j ∈ c.started, j ∈ c.joined

/-- The threads started and not joined. -/
def left (c : Crew) : List Job := c.started.filter fun j => j ∉ c.joined

theorem left_eq_nil_iff {c : Crew} : c.left = [] ↔ c.AllJoined := by
  unfold left AllJoined
  rw [List.filter_eq_nil_iff]
  simp only [decide_not, Bool.not_eq_true', decide_eq_false_iff_not, Decidable.not_not]

/-- The admitted session, with these threads. -/
def running (opts : ClientOptions) (started joined : List Job) : Crew :=
  ⟨some opts, started, joined, false, false⟩

end Crew

/-- The threads a session with these options leaves when its wait for `TestEnd` fails.  Where a
    client asks for both, the channel driver reverses and the listener driver goes both ways. -/
inductive Leaves (entry : Entry) (opts : ClientOptions) : List Job → Prop
  | udpReceiver (addrs : List SocketAddr) (hudp : opts.udp = true)
      (hboth : opts.bidirectional = false) (hback : opts.reverse = false) :
      Leaves entry opts [.udpReceiver addrs (omitWindow opts)]
  | tcpReaders (cs : List Conn) (hcs : cs ≠ []) (hudp : opts.udp = false)
      (hboth : opts.bidirectional = false) (hback : opts.reverse = false) :
      Leaves entry opts (readerJobs cs (omitWindow opts))
  | tcpBoth (cs halves : List Conn) (hudp : opts.udp = false) (hboth : opts.bidirectional = true)
      (hback : entry = .channel → opts.reverse = false) :
      Leaves entry opts (.tcpSendStreams halves opts :: readerJobs cs (omitWindow opts))

theorem Leaves.ne_nil {entry : Entry} {opts : ClientOptions} {js : List Job}
    (h : Leaves entry opts js) : js ≠ [] := by
  cases h with
  | udpReceiver addrs hudp hboth hback => exact List.cons_ne_nil _ _
  | tcpReaders cs hcs hudp hboth hback =>
    intro hnil
    exact hcs (List.zipIdx_eq_nil_iff.mp (List.map_eq_nil_iff.mp hnil))
  | tcpBoth cs halves hudp hboth hback => exact List.cons_ne_nil _ _

/-- The session went away with its threads running. -/
structure Abandoned (entry : Entry) (c : Crew) : Prop where
  unheard : c.unheard = true
  joined : c.joined = []
  told : c.told = false
  left : ∃ opts, c.options = some opts ∧ Leaves entry opts c.started

/-- How a run can end. -/
def Ended (entry : Entry) (c : Crew) : Prop :=
  (c.AllJoined ∧ c.unheard = false) ∨ Abandoned entry c

/-! ## Rules -/

/-- No call panics by itself, and those that start threads or raise the flag succeed. -/
def orderly : (o : Op) → Except Stop o.Ok → Prop
  | .spawn _, .error _ => False
  | .cloneUdp, .error _ => False
  | .raiseStop, .error _ => False
  | _, .error (.panic _) => False
  | _, _ => True

/-- Nothing is forbidden; the phases record the threads. -/
def crewWork : Discipline Op Op.Ok Stop Crew where
  may _ _ := True
  answers _ := orderly
  next := Crew.enter

/-- The calls that have nothing to do with threads. -/
def Op.isBystander : Op → Bool
  | .recvOptions | .spawn _ | .join _ | .raiseStop => false
  | .awaitByte stops => decide (stops ≠ [.testEnd])
  | _ => true

theorem overlooks_of_isBystander {c : Crew} (hcalm : c.unheard = false) {o : Op}
    (h : o.isBystander = true) : crewWork.Overlooks c o := by
  have hsame : ({ c with unheard := false } : Crew) = c := by
    rw [← hcalm]
  refine ⟨trivial, fun r => ?_⟩
  cases o with
  | recvOptions => cases h
  | spawn j => cases h
  | join j => cases h
  | raiseStop => cases h
  | awaitByte stops =>
    cases r with
    | ok m => exact hsame
    | error e =>
      show ({ c with unheard := decide (stops = [.testEnd]) } : Crew) = c
      rw [decide_eq_false (of_decide_eq_true h)]
      exact hsame
  | _ => exact hsame

theorem opening_of_calm {c : Crew} (hcalm : c.unheard = false) : Opening crewWork c := by
  intro o ho
  refine overlooks_of_isBystander hcalm ?_
  cases o with
  | recvOptions => cases ho
  | spawn j => cases ho
  | join j => cases ho
  | raiseStop => cases ho
  | awaitByte stops => cases ho
  | _ => rfl

/-- A program of bystanders. -/
def Bystands {α : Type} (p : Session α) : Prop := Uses (fun o => o.isBystander = true) p

theorem bystands_call {o : Op} (h : o.isBystander = true) : Bystands (call o) :=
  ⟨h, fun _ => trivial⟩

theorem Bystands.bind {α β : Type} {p : Session α} (hp : Bystands p) {f : α → Session β} {c : Crew}
    {R : Crew → β → Prop} {E : Crew → Prop} (hcalm : c.unheard = false) (hE : E c)
    (hf : ∀ v, crewWork.Ensures (f v) c R E) : crewWork.Ensures (p >>= f) c R E :=
  ensures_overlooked_bind (uses_mono (fun _ => overlooks_of_isBystander hcalm) hp) hE hf

/-! ## Threads -/

section Threads

variable {β : Type} {opts : ClientOptions} {started joined : List Job} {E : Crew → Prop}

theorem crew_spawn_bind {j : Job} {f : Unit → Session β} {R : Crew → β → Prop}
    (hf : crewWork.Ensures (f ()) (.running opts (started ++ [j]) joined) R E) :
    crewWork.Ensures (spawn j >>= f) (.running opts started joined) R E :=
  ensures_perform_bind (o := Op.spawn j) trivial (fun _ h => h.elim) fun _ _ => hf

theorem crew_spawnAll_bind {js : List Job} {f : Unit → Session β} {R : Crew → β → Prop}
    (hf : crewWork.Ensures (f ()) (.running opts (started ++ js) joined) R E) :
    crewWork.Ensures (spawnAll js >>= f) (.running opts started joined) R E := by
  induction js generalizing started with
  | nil =>
    rw [List.append_nil] at hf
    exact hf
  | cons j js ih =>
    show crewWork.Ensures ((spawn j >>= fun _ => spawnAll js) >>= f) _ R E
    rw [bind_assoc]
    rw [List.append_cons] at hf
    exact crew_spawn_bind (ih hf)

theorem crew_spawnUdpSenders_bind {js : List Job} {f : Unit → Session β} {R : Crew → β → Prop}
    (hf : crewWork.Ensures (f ()) (.running opts (started ++ js) joined) R E) :
    crewWork.Ensures (spawnUdpSenders js >>= f) (.running opts started joined) R E := by
  induction js generalizing started with
  | nil =>
    rw [List.append_nil] at hf
    exact hf
  | cons j js ih =>
    show crewWork.Ensures ((expect "udp try_clone" cloneUdp >>= fun _ => spawn j >>= fun _ =>
      spawnUdpSenders js) >>= f) _ R E
    rw [bind_assoc]
    have hclone : crewWork.Ensures (expect "udp try_clone" cloneUdp) (.running opts started joined)
        (fun c' _ => c' = .running opts started joined) E := by
      refine ⟨trivial, fun r hr => ?_⟩
      cases r with
      | ok u => exact ensures_pure rfl
      | error e => exact hr.elim
    refine hclone.bind ?_
    rintro _ _ rfl
    rw [bind_assoc]
    rw [List.append_cons] at hf
    exact crew_spawn_bind (ih hf)

/-- A join always returns to the session. -/
theorem crew_joinOr {told : Bool} (d : List StreamReceipt) (j : Job) :
    crewWork.Ensures (joinOr d j) ⟨some opts, started, joined, told, false⟩
      (fun c' _ => c' = ⟨some opts, started, joined ++ [j], told, false⟩) E := by
  refine ⟨trivial, fun r hr => ?_⟩
  rcases r with (e | msg) | receipts
  · exact ensures_pure rfl
  · exact hr.elim
  · exact ensures_pure rfl

theorem crew_joinStreamTotals (js : List Job) :
    crewWork.Ensures (joinStreamTotals js) (.running opts started joined)
      (fun c' _ => c' = .running opts started (joined ++ js)) E := by
  induction js generalizing joined with
  | nil => exact ensures_pure (by rw [List.append_nil])
  | cons j js ih =>
    refine Ensures.bind (crew_joinOr _ j) ?_
    rintro _ r rfl
    refine Ensures.bind ih ?_
    rintro _ rs rfl
    exact ensures_pure (by rw [← List.append_cons])

/-- `wait_for_test_end(control)?` -/
theorem crew_waitForTestEnd_bind {f : Unit → Session β} {R : Crew → β → Prop}
    (hE : E ⟨some opts, started, joined, false, true⟩)
    (hf : crewWork.Ensures (f ()) (.running opts started joined) R E) :
    crewWork.Ensures (waitForTestEnd >>= f) (.running opts started joined) R E := by
  unfold waitForTestEnd
  rw [bind_assoc]
  exact ensures_perform_bind (o := Op.awaitByte [.testEnd]) trivial (fun _ _ => hE) fun _ _ => hf

/-- `let _ = wait_for_test_end(control);` -/
theorem crew_ignore_wait (c : Crew) :
    crewWork.Ensures (ignore waitForTestEnd) c
      (fun c' _ => ∃ b, c' = { c with unheard := b }) E := by
  refine ⟨trivial, fun r hr => ?_⟩
  rcases r with (e | msg) | m
  · exact ensures_pure ⟨_, rfl⟩
  · exact hr.elim
  · exact ensures_pure ⟨_, rfl⟩

theorem crew_raiseStop_bind {b : Bool} {f : Unit → Session β} {R : Crew → β → Prop}
    (hf : crewWork.Ensures (f ()) ⟨some opts, started, joined, true, false⟩ R E) :
    crewWork.Ensures (raiseStop >>= f) ⟨some opts, started, joined, false, b⟩ R E :=
  ensures_perform_bind (o := Op.raiseStop) trivial (fun _ h => h.elim) fun _ _ => hf

end Threads

/-! ## Transfers -/

section Transfers

variable {entry : Entry} {opts : ClientOptions} {cs : List Conn} {addrs : List SocketAddr}

theorem ended_running : Ended entry (.running opts [] []) :=
  Or.inl ⟨fun _ hj => hj, rfl⟩

theorem ended_of_leaves {js : List Job} (h : Leaves entry opts js) :
    Ended entry ⟨some opts, js, [], false, true⟩ :=
  Or.inr ⟨rfl, rfl, rfl, opts, rfl, h⟩

theorem crew_tcpForward (hcs : cs ≠ []) (hudp : opts.udp = false)
    (hboth : opts.bidirectional = false) (hback : opts.reverse = false) :
    crewWork.Ensures (tcpForward cs opts) (.running opts [] []) (fun c' _ => c'.AllJoined)
      (Ended entry) := by
  refine crew_spawnAll_bind ?_
  refine crew_waitForTestEnd_bind (ended_of_leaves (.tcpReaders cs hcs hudp hboth hback)) ?_
  refine (crew_joinStreamTotals _).mono ?_
  rintro _ _ rfl j hj
  exact hj

theorem crew_tcpReverse :
    crewWork.Ensures (tcpReverse cs opts) (.running opts [] []) (fun c' _ => c'.AllJoined)
      (Ended entry) := by
  unfold tcpReverse runTcpSendStreams
  rw [bind_assoc]
  refine crew_spawnAll_bind ?_
  refine Ensures.bind (crew_joinStreamTotals _) ?_
  rintro _ r rfl
  refine Ensures.bind (crew_ignore_wait _) ?_
  rintro _ _ ⟨b, rfl⟩
  exact ensures_pure fun _ hj => hj

theorem bystands_cloneAll (cs : List Conn) : Bystands (cloneAll cs) := by
  induction cs with
  | nil => trivial
  | cons c cs ih => exact uses_bind (bystands_call rfl) fun _ => uses_bind ih fun _ => trivial

theorem crew_tcpBidirectional (hudp : opts.udp = false) (hboth : opts.bidirectional = true)
    (hback : entry = .channel → opts.reverse = false) :
    crewWork.Ensures (tcpBidirectional cs opts) (.running opts [] []) (fun c' _ => c'.AllJoined)
      (Ended entry) := by
  refine (bystands_cloneAll cs).bind rfl ended_running fun halves => ?_
  refine crew_spawn_bind ?_
  refine crew_spawnAll_bind ?_
  refine crew_waitForTestEnd_bind (ended_of_leaves (.tcpBoth cs halves hudp hboth hback)) ?_
  refine Ensures.bind (crew_joinStreamTotals _) ?_
  rintro _ received rfl
  refine Ensures.bind (crew_joinOr _ _) ?_
  rintro _ sent rfl
  refine ensures_pure fun j hj => ?_
  -- the sender is joined last, and was started first
  rcases List.mem_cons.mp hj with rfl | hj
  · exact List.mem_append_right _ (List.mem_singleton_self _)
  · exact List.mem_append_left _ hj

theorem crew_udpForward (hudp : opts.udp = true) (hboth : opts.bidirectional = false)
    (hback : opts.reverse = false) :
    crewWork.Ensures (udpForward addrs opts) (.running opts [] []) (fun c' _ => c'.AllJoined)
      (Ended entry) := by
  refine crew_spawn_bind ?_
  refine crew_waitForTestEnd_bind (ended_of_leaves (.udpReceiver addrs hudp hboth hback)) ?_
  refine crew_raiseStop_bind ?_
  refine (crew_joinOr _ _).mono ?_
  rintro _ _ rfl j hj
  exact hj

theorem crew_runUdpSendStreams {started : List Job} {E : Crew → Prop} :
    crewWork.Ensures (runUdpSendStreams addrs opts) (.running opts started [])
      (fun c' _ => c' = .running opts (started ++ udpSenderJobs addrs opts)
        (udpSenderJobs addrs opts)) E :=
  crew_spawnUdpSenders_bind (crew_joinStreamTotals _)

theorem crew_udpBidirectional :
    crewWork.Ensures (udpBidirectional addrs opts) (.running opts [] []) (fun c' _ => c'.AllJoined)
      (Ended entry) := by
  refine (bystands_call rfl).bind rfl ended_running fun _ => ?_
  refine crew_spawn_bind ?_
  refine Ensures.bind crew_runUdpSendStreams ?_
  rintro _ sent rfl
  refine Ensures.bind (crew_ignore_wait _) ?_
  rintro _ _ ⟨b, rfl⟩
  refine crew_raiseStop_bind ?_
  refine Ensures.bind (crew_joinOr _ _) ?_
  rintro _ received rfl
  refine ensures_pure fun j hj => ?_
  rcases List.mem_cons.mp hj with rfl | hj
  · exact List.mem_append_right _ (List.mem_singleton_self _)
  · exact List.mem_append_left _ hj

theorem crew_udpReverse :
    crewWork.Ensures (runUdpSendStreams addrs opts) (.running opts [] []) (fun c' _ => c'.AllJoined)
      (Ended entry) := by
  refine Ensures.mono crew_runUdpSendStreams ?_
  rintro _ _ rfl j hj
  exact hj

end Transfers

/-! ## The drivers -/

section Drivers

variable {entry : Entry}

theorem crew_transfers (entry : Entry) (cookie : Bytes) {opts : ClientOptions}
    (hvalid : validateOptions opts = .ok ()) :
    Transfers crewWork entry cookie opts (.running opts [] []) Crew.AllJoined (Ended entry) where
  tcpForward hudp hboth hback cs hlen := by
    have hpos : 1 ≤ opts.parallel := ((validateOptions_ok_iff opts).mp hvalid).1.1
    exact crew_tcpForward (List.ne_nil_of_length_pos (by omega)) hudp hboth hback
  tcpReverse _ _ _ _ := crew_tcpReverse
  tcpBoth hudp hboth hback _ _ := crew_tcpBidirectional hudp hboth hback
  udpForward hudp hboth hback _ _ := crew_udpForward hudp hboth hback
  udpReverse _ _ _ _ _ := crew_udpReverse
  udpBoth _ _ _ _ := crew_udpBidirectional

theorem bystands_tolerateClosed {p : Session Unit} (hp : Bystands p) :
    Bystands (tolerateClosed p) := by
  refine uses_bind (uses_attempt hp) fun r => ?_
  cases r with
  | ok u => trivial
  | error e =>
    show Bystands (if isPeerClosed e then pure () else fail (Stop.io e) : Session Unit)
    split
    · trivial
    · trivial

theorem bystands_exchangeResults (receipts : List StreamReceipt) (cpu : CpuUsage) :
    Bystands (exchangeResults receipts cpu) := by
  refine uses_bind (bystands_call rfl) fun _ => ?_
  refine uses_bind (uses_ignore (bystands_call rfl)) fun _ => ?_
  refine uses_bind (uses_attempt (bystands_call rfl)) fun r => ?_
  cases r with
  | ok theirs => trivial
  | error e =>
    show Bystands (if isPeerClosed e then pure () else fail (.io ⟨e.kind, e.msg⟩) : Session Unit)
    split
    · trivial
    · trivial

theorem bystands_finalizeTest : Bystands finalizeTest := by
  refine uses_bind (bystands_call rfl) fun _ => ?_
  exact uses_bind (bystands_call (by decide)) fun _ => trivial

/-- The report starts no threads, and no call of it is a wait for `TestEnd`. -/
theorem crew_reportResults {c : Crew} (timeout : Option Nat) (receipts : List StreamReceipt)
    (h : c.AllJoined) :
    crewWork.Ensures (reportResults timeout receipts) c (fun c' _ => Ended entry c')
      (Ended entry) := by
  have hended : Ended entry { c with unheard := false } := Or.inl ⟨h, rfl⟩
  refine ensures_perform_bind (o := Op.setReadTimeout timeout) trivial (fun _ _ => hended)
    fun _ _ => ?_
  refine Bystands.bind (c := { c with unheard := false }) (bystands_call rfl) rfl hended
    fun cpu => ?_
  refine (bystands_tolerateClosed (bystands_exchangeResults receipts cpu)).bind rfl hended
    fun _ => ?_
  refine (bystands_tolerateClosed bystands_finalizeTest).bind rfl hended fun _ => ?_
  exact ensures_pure hended

theorem crew_sessionProgram (entry : Entry) (auth : AuthConfig) (cookie : Bytes)
    (timeout : Option Nat) :
    crewWork.Ensures (sessionProgram entry auth cookie timeout) Crew.empty
      (fun c' _ => Ended entry c') (Ended entry) := by
  have hempty : Ended entry Crew.empty := Or.inl ⟨fun _ hj => hj, rfl⟩
  have hrecv : crewWork.Ensures recvOptions Crew.empty (fun c' opts => c' = .running opts [] [])
      (Ended entry) := by
    refine ⟨trivial, fun r _ => ?_⟩
    cases r with
    | ok opts => exact ensures_pure rfl
    | error e => exact ensures_fail hempty
  have hwait : ∀ c : Crew, c.AllJoined →
      crewWork.Ensures (ignore waitForTestEnd) c (fun c' _ => c'.AllJoined) (Ended entry) := by
    intro c h
    refine (crew_ignore_wait c).mono ?_
    rintro _ _ ⟨b, rfl⟩
    exact h
  exact overlook_sessionProgram auth cookie (opening_of_calm rfl) hempty
    (fun _ => opening_of_calm rfl) (fun _ => ended_running) hrecv
    (fun cookie opts hvalid => crew_transfers entry cookie hvalid) hwait
    fun _ receipts h => crew_reportResults timeout receipts h

end Drivers

/-! ## Whole runs -/

theorem Crew.of_concat (tr : Transcript) (ev : Event Op Op.Ok Stop) :
    Crew.of (tr ++ [ev]) = (Crew.of tr).enter ev.1 ev.2 := by
  unfold Crew.of
  rw [List.foldl_append]
  rfl

/-- `unheard` is about the last call. -/
theorem Crew.unheard_of_iff (tr : Transcript) :
    (Crew.of tr).unheard = true ↔
      ∃ before e, tr = before ++ [⟨.awaitByte [.testEnd], .error e⟩] := by
  constructor
  · intro h
    rcases List.eq_nil_or_concat tr with rfl | ⟨before, ⟨o, r⟩, rfl⟩
    · cases h
    · rw [List.concat_eq_append] at h ⊢
      rw [Crew.of_concat] at h
      cases o with
      | awaitByte stops =>
        cases r with
        | ok m => cases h
        | error e =>
          obtain rfl : stops = [.testEnd] := of_decide_eq_true h
          exact ⟨before, e, rfl⟩
      | recvOptions =>
        cases r with
        | ok opts => cases h
        | error e => cases h
      | spawn j =>
        cases r with
        | ok u => cases h
        | error e => cases h
      | raiseStop =>
        cases r with
        | ok u => cases h
        | error e => cases h
      | _ => cases h
  · rintro ⟨before, e, rfl⟩
    rw [Crew.of_concat]
    rfl

/-- Every call of the run is answered in an orderly way. -/
def Orderly (tr : Transcript) : Prop := ∀ ev ∈ tr, orderly ev.1 ev.2

/-- **Threads left behind.**  However a session ends, whatever its client did: it leaves a thread
    running if and only if the last thing that happened to it is that its wait for `TestEnd` failed.
    Then it has joined none of its threads and has not told the UDP receiver to stop; the options
    say which threads these are. -/
theorem threads_left_iff (entry : Entry) (auth : AuthConfig) (cookie : Bytes)
    (timeout : Option Nat) {tr : Transcript} {r : Except Stop Nat}
    (hexec : Exec (sessionProgram entry auth cookie timeout) tr r) (horderly : Orderly tr) :
    ((Crew.of tr).left ≠ [] ↔ ∃ before e, tr = before ++ [⟨.awaitByte [.testEnd], .error e⟩]) ∧
    ((Crew.of tr).left ≠ [] → (Crew.of tr).left = (Crew.of tr).started ∧
      (Crew.of tr).told = false ∧
      ∃ opts, (Crew.of tr).options = some opts ∧ Leaves entry opts (Crew.of tr).started) := by
  have hended : Ended entry (Crew.of tr) := by
    have hpost := (crew_sessionProgram entry auth cookie timeout).exec hexec
      fun ev hev _ => horderly ev hev
    cases r with
    | ok total => exact hpost.1 total rfl
    | error e => exact hpost.2 e rfl
  rw [← Crew.unheard_of_iff, ne_eq, Crew.left_eq_nil_iff]
  rcases hended with ⟨hall, hheard⟩ | habandoned
  · rw [hheard]
    exact ⟨⟨fun h => absurd hall h, fun h => by cases h⟩, fun h => absurd hall h⟩
  · obtain ⟨opts, hopts, hleaves⟩ := habandoned.left
    have hleft : ¬ (Crew.of tr).AllJoined := by
      intro hall
      obtain ⟨j, js, hjs⟩ := List.exists_cons_of_ne_nil hleaves.ne_nil
      have hj := hall j (hjs ▸ List.mem_cons_self)
      rw [habandoned.joined] at hj
      cases hj
    have hall : (Crew.of tr).left = (Crew.of tr).started := by
      refine List.filter_eq_self.mpr fun j _ => ?_
      rw [habandoned.joined]
      exact decide_eq_true List.not_mem_nil
    exact ⟨⟨fun _ => habandoned.unheard, fun _ => hleft⟩, fun _ =>
      ⟨hall, habandoned.told, opts, hopts, hleaves⟩⟩

/-- A UDP test with one stream, client to server. -/
def forwardUdpOptions : ClientOptions :=
  { ClientOptions.tcpDefaults 1 1 1460 with tcp := false, udp := true }

/-- A UDP session whose client hangs up as soon as the test runs. -/
def hungUpRun (cookie : Bytes) (timeout : Option Nat) : Transcript :=
  let peer : SocketAddr := ⟨2130706433, 40001⟩
  [⟨.send (.byte .paramExchange), .ok ()⟩, ⟨.recvOptions, .ok forwardUdpOptions⟩,
    ⟨.bindUdp anyAddr timeout, .ok ()⟩, ⟨.udpPort, .ok (40000 : Nat)⟩,
    ⟨.send (.byte .setDataPort), .ok ()⟩, ⟨.send (.port 40000), .ok ()⟩,
    ⟨.send (.byte .createStreams), .ok ()⟩, ⟨.acceptUdpStreams cookie 1, .ok [peer]⟩,
    ⟨.setUdpTimeout none, .ok ()⟩, ⟨.send (.byte .testStart), .ok ()⟩,
    ⟨.send (.byte .testRunning), .ok ()⟩,
    ⟨.setReadTimeout (runTimeout timeout forwardUdpOptions), .ok ()⟩,
    ⟨.spawn (.udpReceiver [peer] 0), .ok ()⟩,
    ⟨.awaitByte [.testEnd], .error (.io ⟨.unexpectedEof, "control channel closed"⟩)⟩]

theorem exec_hungUpRun (cookie : Bytes) (timeout : Option Nat) :
    Exec (serveSessionFromChannel none cookie timeout) (hungUpRun cookie timeout)
      (.error (.io ⟨.unexpectedEof, "control channel closed"⟩)) :=
  .op _ (.op _ (.op _ (.op _ (.op _ (.op _ (.op _ (.op _ (.op _ (.op _ (.op _ (.op _ (.op _ (.op _
    (.ret _))))))))))))))

theorem orderly_hungUpRun (cookie : Bytes) (timeout : Option Nat) :
    Orderly (hungUpRun cookie timeout) := by
  simp [Orderly, hungUpRun, orderly]

theorem threads_left_iff_hungUp :
    Orderly (hungUpRun [] none) ∧ (Crew.of (hungUpRun [] none)).left ≠ [] ∧
    (Crew.of (hungUpRun [] none)).told = false := by
  have horderly := orderly_hungUpRun [] none
  obtain ⟨hiff, hwhich⟩ :=
    threads_left_iff .channel none [] none (exec_hungUpRun [] none) horderly
  have hleft : (Crew.of (hungUpRun [] none)).left ≠ [] :=
    hiff.mpr ⟨(hungUpRun [] none).dropLast, _, rfl⟩
  exact ⟨horderly, hleft, (hwhich hleft).2.1⟩

end Rperf3
