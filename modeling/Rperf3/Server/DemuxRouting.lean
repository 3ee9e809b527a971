/-
  Which connections a session gets from the concurrent server.

  `DemuxInv` is the inductive invariant of `Demux`: what has been pushed on a channel is a prefix of
  the later connections with the session's cookie, and all of them as long as the session can still
  receive; no connection is in two sessions' hands.  A session that has left
  `accept_streams_from_channel` has taken its streams off the front of that channel.
-/
import Rperf3.Server.Demux

namespace Rperf3

open Effect Effect.Prog Transition

/-! ## The connections a session is to get -/

/-- The connections handled after position `control` that present the cookie, in order. -/
def laterWith (timeout : Option Nat) (handled : List Conn) (control : Nat) (cookie : Bytes) :
    List HandledConn :=
  handled.zipIdx.filter fun a => control < a.2 ∧ presentsCookie cookie timeout a.1

section LaterWith

variable {timeout : Option Nat} {handled : List Conn} {control : Nat} {cookie : Bytes}

theorem mem_laterWith {a : HandledConn} (h : a ∈ laterWith timeout handled control cookie) :
    handled[a.2]? = some a.1 ∧ control < a.2 ∧ presentsCookie cookie timeout a.1 := by
  obtain ⟨hmem, hkeep⟩ := List.mem_filter.mp h
  exact ⟨List.mem_zipIdx_iff_getElem?.mp hmem, of_decide_eq_true hkeep⟩

/-- One more handled connection. -/
theorem laterWith_concat (hcontrol : control < handled.length) (c : Conn) :
    laterWith timeout (handled ++ [c]) control cookie =
      laterWith timeout handled control cookie ++
        if presentsCookie cookie timeout c then [(c, handled.length)] else [] := by
  unfold laterWith
  rw [List.zipIdx_append, List.filter_append]
  congr 1
  rw [List.zipIdx_singleton, Nat.zero_add]
  by_cases hc : presentsCookie cookie timeout c
  · rw [if_pos hc]
    exact List.filter_cons_of_pos (decide_eq_true ⟨hcontrol, hc⟩)
  · rw [if_neg hc]
    exact List.filter_cons_of_neg fun h => hc (of_decide_eq_true h).2

/-- Nothing is later than the last one. -/
theorem laterWith_last (h : handled.length ≤ control + 1) :
    laterWith timeout handled control cookie = [] := by
  refine List.filter_eq_nil_iff.mpr fun a ha hkeep => ?_
  have hlt : a.2 < handled.length :=
    (List.getElem?_eq_some_iff.mp (List.mem_zipIdx_iff_getElem?.mp ha)).1
  have := (of_decide_eq_true hkeep).1
  omega

theorem nodup_laterWith : ((laterWith timeout handled control cookie).map Prod.snd).Nodup := by
  refine List.Nodup.sublist (List.filter_sublist.map Prod.snd) ?_
  rw [List.zipIdx_map_snd]
  exact List.nodup_range'

end LaterWith

/-! ## The invariant -/

/-- What the session received on its channel in one operation. -/
def received : Event Op Op.Ok Stop → Option Conn
  | ⟨.recvDataStream _, .ok c⟩ => some c
  | _ => none

/-- One session `x`, served by thread `t`. -/
structure SessionInv (timeout : Option Nat) (handled : List Conn) (t : SessionThread)
    (x : ChannelSession) : Prop where
  control : ∃ c, handled[x.control]? = some c ∧ presentsCookie t.cookie timeout c
  sent : x.channel.sent <+: laterWith timeout handled x.control t.cookie
  all : t.phase.receiving = true → x.channel.sent = laterWith timeout handled x.control t.cookie
  taken : x.transcript.filterMap received = x.channel.taken.map Prod.fst
  resumes : ∀ tr r, Exec x.rest tr r →
    Exec (serveSessionFromChannel x.auth t.cookie timeout) (x.transcript ++ tr) r

/-- What every reachable state satisfies. -/
structure DemuxInv (maxConcurrent : Nat) (timeout : Option Nat) (s : Demux) : Prop where
  loop : (AcceptLoop.system maxConcurrent).Reachable s.loop
  paired : s.sessions.length = s.loop.threads.length
  held : ∀ cookie, Demux.presented s.loop.pc = some cookie →
    ∃ c, s.held = some c ∧ presentsCookie cookie timeout c
  control : ∀ cookie, Demux.admitted s.loop.pc = some cookie →
    ∃ earlier c, s.handled = earlier ++ [c] ∧ presentsCookie cookie timeout c ∧
      ∀ x ∈ s.sessions, ∀ j ∈ x.connections, j < earlier.length
  session : ∀ (id : Nat) (t : SessionThread) (x : ChannelSession), s.loop.threads[id]? = some t →
    s.sessions[id]? = some x → SessionInv timeout s.handled t x
  disjoint : ∀ (id id' : Nat) (x x' : ChannelSession), s.sessions[id]? = some x →
    s.sessions[id']? = some x' → id ≠ id' → ∀ j ∈ x.connections, j ∉ x'.connections

section SessionInv

variable {timeout : Option Nat} {handled : List Conn} {t : SessionThread} {x : ChannelSession}

theorem SessionInv.control_lt (h : SessionInv timeout handled t x) :
    x.control < handled.length := by
  obtain ⟨c, hc, -⟩ := h.control
  exact (List.getElem?_eq_some_iff.mp hc).1

theorem SessionInv.mem_sent (h : SessionInv timeout handled t x) {a : HandledConn}
    (ha : a ∈ x.channel.sent) :
    handled[a.2]? = some a.1 ∧ x.control < a.2 ∧ presentsCookie t.cookie timeout a.1 :=
  mem_laterWith (h.sent.subset ha)

theorem SessionInv.connections_lt (h : SessionInv timeout handled t x) {j : Nat}
    (hj : j ∈ x.connections) : j < handled.length := by
  rcases List.mem_cons.mp hj with rfl | hj
  · exact h.control_lt
  · obtain ⟨a, ha, rfl⟩ := List.mem_map.mp hj
    exact (List.getElem?_eq_some_iff.mp (h.mem_sent ha).1).1

/-- No connection comes to the session twice, the control connection included. -/
theorem SessionInv.nodup (h : SessionInv timeout handled t x) : x.connections.Nodup := by
  refine List.nodup_cons.mpr ⟨fun hmem => ?_, (h.sent.sublist.map Prod.snd).nodup nodup_laterWith⟩
  obtain ⟨a, ha, heq⟩ := List.mem_map.mp hmem
  have := (h.mem_sent ha).2.1
  omega

theorem SessionInv.new (auth : AuthConfig) {cookie : Bytes} (ip : Nat) (ph : Phase)
    {earlier : List Conn} {c : Conn} (hc : presentsCookie cookie timeout c) :
    SessionInv timeout (earlier ++ [c]) ⟨cookie, ip, ph⟩
      (ChannelSession.new auth cookie timeout earlier.length) where
  control := ⟨c, List.getElem?_concat_length, hc⟩
  sent := List.nil_prefix
  all _ := by
    rw [show (ChannelSession.new auth cookie timeout earlier.length).control = earlier.length from
      rfl, laterWith_last (by rw [List.length_append]; exact Nat.le_refl _)]
    rfl
  taken := rfl
  resumes _ _ h := h

/-- The thread moves on without getting its receiver back. -/
theorem SessionInv.setThread (h : SessionInv timeout handled t x) {t' : SessionThread}
    (hcookie : t'.cookie = t.cookie)
    (hphase : t'.phase.receiving = true → t.phase.receiving = true) :
    SessionInv timeout handled t' x where
  control := by rw [hcookie]; exact h.control
  sent := by rw [hcookie]; exact h.sent
  all hrec := by rw [hcookie]; exact h.all (hphase hrec)
  taken := h.taken
  resumes := by rw [hcookie]; exact h.resumes

/-- A connection with the session's cookie is pushed on its channel. -/
theorem SessionInv.push (h : SessionInv timeout handled t x) {c : Conn}
    (hc : presentsCookie t.cookie timeout c) (hrec : t.phase.receiving = true) :
    SessionInv timeout (handled ++ [c]) t
      { x with channel := x.channel.push (c, handled.length) } := by
  have hsent : (x.channel.push (c, handled.length)).sent =
      laterWith timeout (handled ++ [c]) x.control t.cookie := by
    rw [Fifo.sent_push, laterWith_concat h.control_lt, if_pos hc, h.all hrec]
  obtain ⟨d, hd, hcookie⟩ := h.control
  exact {
    control := ⟨d, (List.getElem?_append_left h.control_lt).trans hd, hcookie⟩
    sent := hsent ▸ List.prefix_rfl
    all := fun _ => hsent
    taken := h.taken
    resumes := h.resumes }

/-- A connection is not pushed on its channel: it presents another cookie, or the receiver is
    gone. -/
theorem SessionInv.skip (h : SessionInv timeout handled t x) {c : Conn}
    (hc : presentsCookie t.cookie timeout c → t.phase.receiving = false) :
    SessionInv timeout (handled ++ [c]) t x := by
  obtain ⟨d, hd, hcookie⟩ := h.control
  exact {
    control := ⟨d, (List.getElem?_append_left h.control_lt).trans hd, hcookie⟩
    sent := by
      rw [laterWith_concat h.control_lt]
      exact h.sent.trans (List.prefix_append _ _)
    all := fun hrec => by
      have hother : ¬ presentsCookie t.cookie timeout c := by
        intro hpres
        rw [hc hpres] at hrec
        cases hrec
      rw [laterWith_concat h.control_lt, if_neg hother, List.append_nil]
      exact h.all hrec
    taken := h.taken
    resumes := h.resumes }

/-- What an answered operation does to the channel. -/
theorem sessionAnswer_spec {answer : (o : Op) → Except Stop o.Ok} {q q' : Fifo HandledConn} {o : Op}
    {r : Except Stop o.Ok} (h : sessionAnswer answer q o = some (r, q')) :
    q'.sent = q.sent ∧
      q'.taken.map Prod.fst = q.taken.map Prod.fst ++ (received ⟨o, r⟩).toList := by
  cases o with
  | recvDataStream timeout =>
    simp only [sessionAnswer] at h
    split at h
    · rename_i a q'' hpop
      cases h
      refine ⟨Fifo.sent_of_pop hpop, ?_⟩
      rw [Fifo.taken_of_pop hpop, List.map_append]
      rfl
    · cases h
      exact ⟨rfl, (List.append_nil _).symm⟩
    · cases h
  | _ =>
    cases h
    exact ⟨rfl, (List.append_nil _).symm⟩

/-- The session performs its next operation. -/
theorem SessionInv.advance (h : SessionInv timeout handled t x)
    {answer : (o : Op) → Except Stop o.Ok} {o : Op} {k : Except Stop o.Ok → Session Nat}
    (hrest : x.rest = .op o k) {r : Except Stop o.Ok} {q : Fifo HandledConn}
    (hanswer : sessionAnswer answer x.channel o = some (r, q)) :
    SessionInv timeout handled t
      { x with channel := q, transcript := x.transcript ++ [⟨o, r⟩], rest := k r } := by
  obtain ⟨hsent, htaken⟩ := sessionAnswer_spec hanswer
  exact {
    control := h.control
    sent := hsent ▸ h.sent
    all := fun hrec => hsent.trans (h.all hrec)
    taken := by
      show (x.transcript ++ [Sigma.mk o r]).filterMap received = q.taken.map Prod.fst
      rw [List.filterMap_append, h.taken, htaken]
      rfl
    resumes := fun tr r' hexec => by
      rw [List.append_assoc]
      exact h.resumes _ _ (hrest ▸ Exec.op r hexec) }

end SessionInv

namespace Demux

variable {maxConcurrent : Nat} {timeout : Option Nat} {s : Demux}

theorem inv_empty : DemuxInv maxConcurrent timeout empty where
  loop := .init rfl
  paired := rfl
  held cookie h := by cases h
  control cookie h := by cases h
  session id t x h := by cases h
  disjoint id id' x x' h := by cases h

theorem inv_quiet (h : DemuxInv maxConcurrent timeout s) {loop : AcceptLoop}
    (hreach : (AcceptLoop.system maxConcurrent).Reachable loop) (hquiet : Quiet s.loop loop) :
    DemuxInv maxConcurrent timeout { s with loop := loop } where
  loop := hreach
  paired := h.paired.trans hquiet.size.symm
  held cookie hc := h.held cookie (hquiet.presented cookie hc)
  control cookie hc := h.control cookie (hquiet.admitted cookie hc)
  session id t' x ht' hx := by
    obtain ⟨t, ht, hcookie, hphase⟩ := hquiet.threads id t' ht'
    exact (h.session id t x ht hx).setThread hcookie hphase
  disjoint := h.disjoint

theorem inv_accept (h : DemuxInv maxConcurrent timeout s) {c : Conn} {cookie : Bytes}
    (hcookie : presentsCookie cookie timeout c)
    (hreach : (AcceptLoop.system maxConcurrent).Reachable
      { s.loop with pc := .cookieRead cookie c.peer.ip }) :
    DemuxInv maxConcurrent timeout
      { s with loop := { s.loop with pc := .cookieRead cookie c.peer.ip }, held := some c } where
  loop := hreach
  paired := h.paired
  held cookie' hc := by
    cases hc
    exact ⟨c, rfl, hcookie⟩
  control cookie' hc := by cases hc
  session := h.session
  disjoint := h.disjoint

/-- Where a dispatched connection goes: to the session that is registered under its cookie and can
    receive, and to nobody else. -/
theorem deliver_spec (h : DemuxInv maxConcurrent timeout s) {cookie : Bytes} {c : Conn} {id : Nat}
    {t : SessionThread} {x' : ChannelSession} (ht : s.loop.threads[id]? = some t)
    (hx' : (s.deliver cookie c)[id]? = some x') :
    ∃ x, s.sessions[id]? = some x ∧
      ((s.loop.registry.lookup cookie = some id ∧ t.cookie = cookie ∧ t.phase.receiving = true ∧
          x' = { x with channel := x.channel.push (c, s.handled.length) }) ∨
        (x' = x ∧ (t.cookie = cookie → t.phase.receiving = false))) := by
  have hentries := (AcceptLoop.inv_reachable h.loop).entries
  -- a session that can receive is registered under its cookie
  have hregistered : t.cookie = cookie → s.loop.registry.lookup cookie ≠ some id →
      t.phase.receiving = false := by
    intro hcookie hother
    by_contra hrec
    exact hother ((hentries cookie id).mpr
      ⟨t, ht, hcookie, Phase.inRegistry_of_receiving (Bool.not_eq_false _ ▸ hrec)⟩)
  unfold deliver at hx'
  split at hx'
  · rename_i hnone
    exact ⟨x', hx', Or.inr ⟨rfl, fun hcookie => hregistered hcookie (by rw [hnone]; exact nofun)⟩⟩
  · rename_i id' hsome
    split at hx'
    · rename_i t' x ht' hx
      by_cases hid : id = id'
      · subst hid
        rw [ht] at ht'
        cases ht'
        obtain ⟨t', ht', hcookie, -⟩ := (hentries cookie id).mp hsome
        rw [ht] at ht'
        cases ht'
        split at hx'
        · rename_i hrec
          rw [Pool.getElem?_step hx, if_pos rfl] at hx'
          cases hx'
          exact ⟨x, hx, Or.inl ⟨hsome, hcookie, hrec, rfl⟩⟩
        · rename_i hrec
          exact ⟨x', hx', Or.inr ⟨rfl, fun _ => Bool.not_eq_true _ ▸ hrec⟩⟩
      · have hother : t.cookie = cookie → t.phase.receiving = false := fun hcookie =>
          hregistered hcookie fun heq => hid (Option.some.inj (heq.symm.trans hsome))
        split at hx'
        · rw [Pool.getElem?_step hx, if_neg hid] at hx'
          exact ⟨x', hx', Or.inr ⟨rfl, hother⟩⟩
        · exact ⟨x', hx', Or.inr ⟨rfl, hother⟩⟩
    · rename_i hmissing
      obtain ⟨t', ht', -⟩ := (hentries cookie id').mp hsome
      have hlt : id' < s.sessions.length :=
        h.paired ▸ (List.getElem?_eq_some_iff.mp ht').1
      exact absurd (List.getElem?_eq_getElem hlt) (hmissing t' _ ht')

theorem length_deliver (s : Demux) (cookie : Bytes) (c : Conn) :
    (s.deliver cookie c).length = s.sessions.length := by
  unfold deliver
  split
  · rfl
  split
  · split
    · exact List.length_set
    · rfl
  · rfl

/-- What the decision does to the loop, as far as connections are concerned. -/
theorem dispatch_spec (maxConcurrent : Nat) (l : AcceptLoop) (cookie : Bytes) (ip : Nat) :
    (l.dispatch maxConcurrent cookie ip).threads = l.threads ∧
      presented (l.dispatch maxConcurrent cookie ip).pc = none ∧
      ∀ c, admitted (l.dispatch maxConcurrent cookie ip).pc = some c →
        c = cookie ∧ l.registry.lookup cookie = none := by
  unfold AcceptLoop.dispatch
  by_cases hknown : (l.registry.lookup cookie).isSome
  · rw [if_pos hknown]
    exact ⟨rfl, rfl, nofun⟩
  by_cases hfull : maxConcurrent ≤ l.registry.size
  · rw [if_neg hknown, if_pos hfull]
    exact ⟨rfl, rfl, nofun⟩
  rw [if_neg hknown, if_neg hfull]
  rcases tryAcquire ip perIpSessionCap l.perIp with ⟨_ | _, perIp⟩
  · exact ⟨rfl, rfl, nofun⟩
  · refine ⟨rfl, rfl, fun c hc => ⟨(Option.some.inj hc).symm, ?_⟩⟩
    exact Option.not_isSome_iff_eq_none.mp hknown

theorem mem_connections_push {x : ChannelSession} {c : Conn} {n j : Nat} :
    j ∈ ({ x with channel := x.channel.push (c, n) } : ChannelSession).connections ↔
      j ∈ x.connections ∨ j = n := by
  show j ∈ x.control :: (x.channel.push (c, n)).sent.map Prod.snd ↔ _
  rw [Fifo.sent_push, List.map_append, ← List.cons_append, List.mem_append]
  exact or_congr_right List.mem_singleton

theorem exists_thread (h : DemuxInv maxConcurrent timeout s) {id : Nat}
    (hlt : id < s.sessions.length) : ∃ t, s.loop.threads[id]? = some t :=
  ⟨_, List.getElem?_eq_getElem (h.paired ▸ hlt)⟩

theorem connections_lt (h : DemuxInv maxConcurrent timeout s) {id : Nat} {x : ChannelSession}
    (hx : s.sessions[id]? = some x) {j : Nat} (hj : j ∈ x.connections) : j < s.handled.length := by
  obtain ⟨t, ht⟩ := exists_thread h (List.getElem?_eq_some_iff.mp hx).1
  exact (h.session id t x ht hx).connections_lt hj

/-- The new connection is in at most one session's hands, the others are where they were. -/
theorem disjoint_deliver (h : DemuxInv maxConcurrent timeout s) (cookie : Bytes) (c : Conn)
    {id id' : Nat} {x x' : ChannelSession} (hx : (s.deliver cookie c)[id]? = some x)
    (hx' : (s.deliver cookie c)[id']? = some x') (hid : id ≠ id') :
    ∀ j ∈ x.connections, j ∉ x'.connections := by
  obtain ⟨t, ht⟩ := exists_thread h
    (length_deliver s cookie c ▸ (List.getElem?_eq_some_iff.mp hx).1)
  obtain ⟨t', ht'⟩ := exists_thread h
    (length_deliver s cookie c ▸ (List.getElem?_eq_some_iff.mp hx').1)
  obtain ⟨y, hy, hcase⟩ := deliver_spec h ht hx
  obtain ⟨y', hy', hcase'⟩ := deliver_spec h ht' hx'
  intro j hj hj'
  have hdisjoint := h.disjoint id id' y y' hy hy' hid j
  rcases hcase with ⟨hlookup, -, -, rfl⟩ | ⟨rfl, -⟩
  · rcases hcase' with ⟨hlookup', -, -, rfl⟩ | ⟨rfl, -⟩
    · exact hid (Option.some.inj (hlookup.symm.trans hlookup'))
    · rcases mem_connections_push.mp hj with hold | rfl
      · exact hdisjoint hold hj'
      · exact Nat.lt_irrefl _ (connections_lt h hy' hj')
  · rcases hcase' with ⟨-, -, -, rfl⟩ | ⟨rfl, -⟩
    · rcases mem_connections_push.mp hj' with hold | rfl
      · exact hdisjoint hj hold
      · exact Nat.lt_irrefl _ (connections_lt h hy hj)
    · exact hdisjoint hj hj'

theorem inv_dispatch (h : DemuxInv maxConcurrent timeout s) {c : Conn} {cookie : Bytes} {ip : Nat}
    (hheld : s.held = some c) (hpc : s.loop.pc = .holding cookie ip)
    (hreach : (AcceptLoop.system maxConcurrent).Reachable
      (s.loop.dispatch maxConcurrent cookie ip)) :
    DemuxInv maxConcurrent timeout
      { loop := s.loop.dispatch maxConcurrent cookie ip, held := none
        handled := s.handled ++ [c], sessions := s.deliver cookie c } := by
  obtain ⟨hthreads, hpresented, hadmitted⟩ :=
    dispatch_spec maxConcurrent s.loop cookie ip
  have hcookie : presentsCookie cookie timeout c := by
    obtain ⟨c', hc', hpres⟩ := h.held cookie (by rw [hpc]; rfl)
    rw [hheld] at hc'
    cases hc'
    exact hpres
  exact {
    loop := hreach
    paired := by
      show (s.deliver cookie c).length = _
      rw [length_deliver, hthreads]
      exact h.paired
    held := fun cookie' hc' => by
      rw [hpresented] at hc'
      cases hc'
    control := fun cookie' hc' => by
      obtain ⟨rfl, hnone⟩ := hadmitted cookie' hc'
      refine ⟨s.handled, c, rfl, hcookie, fun x hx j hj => ?_⟩
      have hsame : s.deliver cookie' c = s.sessions := by
        unfold deliver
        rw [hnone]
      obtain ⟨id, hid⟩ := List.mem_iff_getElem?.mp (hsame ▸ hx)
      exact connections_lt h hid hj
    session := fun id t x' ht hx' => by
      rw [hthreads] at ht
      obtain ⟨x, hx, ⟨-, rfl, hrec, rfl⟩ | ⟨rfl, hskip⟩⟩ := deliver_spec h ht hx'
      · exact (h.session id t x ht hx).push hcookie hrec
      · exact (h.session id t x' ht hx).skip fun hpres =>
          hskip (presentsCookie_unique hpres hcookie)
    disjoint := fun id id' x x' hx hx' hid => disjoint_deliver h cookie c hx hx' hid }

theorem inv_register (h : DemuxInv maxConcurrent timeout s) (auth : AuthConfig) {cookie : Bytes}
    {ip : Nat} (hpc : s.loop.pc = .acquired cookie ip) {loop : AcceptLoop}
    (hreach : (AcceptLoop.system maxConcurrent).Reachable loop)
    (hthreads : loop.threads = s.loop.threads ++ [⟨cookie, ip, .starting⟩])
    (hloop : loop.pc = .spawning s.loop.threads.length) :
    DemuxInv maxConcurrent timeout
      { s with
        loop := loop
        sessions :=
          s.sessions ++ [ChannelSession.new auth cookie timeout (s.handled.length - 1)] } := by
  obtain ⟨earlier, c, hhandled, hcookie, hearlier⟩ := h.control cookie (by rw [hpc]; rfl)
  have hcontrol : s.handled.length - 1 = earlier.length := by
    rw [hhandled, List.length_append]
    rfl
  rw [hcontrol]
  have hold : ∀ {id : Nat} {x : ChannelSession}, s.sessions[id]? = some x →
      earlier.length ∉ x.connections := fun hx hj =>
    Nat.lt_irrefl _ (hearlier _ (List.mem_of_getElem? hx) _ hj)
  have hnew : ∀ {j : Nat}, j ∈ (ChannelSession.new auth cookie timeout earlier.length).connections →
      j = earlier.length := fun hj => List.mem_singleton.mp hj
  exact {
    loop := hreach
    paired := by
      rw [hthreads, List.length_append, List.length_append, h.paired]
      rfl
    held := fun cookie' hc' => by
      rw [hloop] at hc'
      cases hc'
    control := fun cookie' hc' => by
      rw [hloop] at hc'
      cases hc'
    session := fun id t x ht hx => by
      rw [hthreads, Pool.getElem?_start, ← h.paired] at ht
      rw [Pool.getElem?_start] at hx
      by_cases hid : id = s.sessions.length
      · rw [if_pos hid] at ht hx
        cases ht
        cases hx
        show SessionInv timeout s.handled _ _
        rw [hhandled]
        exact SessionInv.new auth ip .starting hcookie
      · rw [if_neg hid] at ht hx
        exact h.session id t x ht hx
    disjoint := fun id id' x x' hx hx' hne j hj hj' => by
      rw [Pool.getElem?_start] at hx hx'
      by_cases hid : id = s.sessions.length
      · rw [if_pos hid] at hx
        rw [if_neg fun hid' => hne (hid.trans hid'.symm)] at hx'
        cases hx
        exact hold hx' (hnew hj ▸ hj')
      · rw [if_neg hid] at hx
        by_cases hid' : id' = s.sessions.length
        · rw [if_pos hid'] at hx'
          cases hx'
          exact hold hx (hnew hj' ▸ hj)
        · rw [if_neg hid'] at hx'
          exact h.disjoint id id' x x' hx hx' hne j hj hj' }

theorem inv_perform (h : DemuxInv maxConcurrent timeout s) {id : Nat} {x x' : ChannelSession}
    (hx : s.sessions[id]? = some x)
    (hinv : ∀ t, SessionInv timeout s.handled t x → SessionInv timeout s.handled t x')
    (hsame : x'.connections = x.connections) :
    DemuxInv maxConcurrent timeout { s with sessions := s.sessions.set id x' } := by
  have hget : ∀ {i : Nat} {y : ChannelSession}, (s.sessions.set id x')[i]? = some y →
      ∃ z, s.sessions[i]? = some z ∧ y.connections = z.connections ∧
        ∀ t, SessionInv timeout s.handled t z → SessionInv timeout s.handled t y := by
    intro i y hy
    rw [Pool.getElem?_step hx] at hy
    by_cases hi : i = id
    · rw [if_pos hi] at hy
      cases hy
      exact ⟨x, hi ▸ hx, hsame, hinv⟩
    · rw [if_neg hi] at hy
      exact ⟨y, hy, rfl, fun _ hy => hy⟩
  exact {
    loop := h.loop
    paired := List.length_set.trans h.paired
    held := h.held
    control := fun cookie hc => by
      obtain ⟨earlier, c, hhandled, hcookie, hearlier⟩ := h.control cookie hc
      refine ⟨earlier, c, hhandled, hcookie, fun y hy j hj => ?_⟩
      obtain ⟨i, hi⟩ := List.mem_iff_getElem?.mp hy
      obtain ⟨z, hz, hconn, -⟩ := hget hi
      exact hearlier z (List.mem_of_getElem? hz) j (hconn ▸ hj)
    session := fun i t y ht hy => by
      obtain ⟨z, hz, -, hkeep⟩ := hget hy
      exact hkeep t (h.session i t z ht hz)
    disjoint := fun i i' y y' hy hy' hne => by
      obtain ⟨z, hz, hconn, -⟩ := hget hy
      obtain ⟨z', hz', hconn', -⟩ := hget hy'
      rw [hconn, hconn']
      exact h.disjoint i i' z z' hz hz' hne }

theorem inv_step (a : DemuxAct) (s s' : Demux) (h : DemuxInv maxConcurrent timeout s)
    (hstep : s.step maxConcurrent timeout a = some s') : DemuxInv maxConcurrent timeout s' := by
  have hmoves := moves_of_step hstep
  have hreach := reachable_loop hmoves h.loop
  cases hmoves with
  | quiet ha hloop =>
    exact inv_quiet h hreach (quiet_step (AcceptLoop.inv_reachable h.loop) ha hloop)
  | accept hcookie _ => exact inv_accept h hcookie hreach
  | dispatch hheld hpc => exact inv_dispatch h hheld hpc hreach
  | register auth hpc => exact inv_register h auth hpc hreach rfl rfl
  | @perform id x _ o k r q hx hrest hanswer =>
    refine inv_perform h hx (fun t ht => ht.advance hrest hanswer) ?_
    show x.control :: q.sent.map Prod.snd = x.control :: x.channel.sent.map Prod.snd
    rw [(sessionAnswer_spec hanswer).1]

theorem inv_reachable {s : Demux} (h : (system maxConcurrent timeout).Reachable s) :
    DemuxInv maxConcurrent timeout s :=
  h.invariant (fun s hs => by rw [show s = empty from hs]; exact inv_empty) inv_step

end Demux

/-! ## What a session has collected -/

/-- The driver up to its call of `accept_streams_from_channel`. -/
def requestStreams (auth : AuthConfig) : Session ClientOptions := do
  let opts ← admitOptions auth
  sendByte .createStreams
  pure opts

/-- The session asked for `n` TCP streams, and `accept_streams_from_channel` returned `ds`. -/
def Collected (timeout : Option Nat) (x : ChannelSession) (n : Nat) (ds : List Conn) : Prop :=
  ∃ opts tr₁ tr₂ tr₃, x.transcript = tr₁ ++ tr₂ ++ tr₃ ∧
    Exec (requestStreams x.auth) tr₁ (.ok opts) ∧ opts.udp = false ∧ opts.parallel = n ∧
    Exec (acceptStreamsFromChannel timeout n) tr₂ (.ok ds)

/-- An operation that does not read the channel. -/
def offChannel (o : Op) : Prop := ∀ r, received ⟨o, r⟩ = none

theorem uses_requestStreams (auth : AuthConfig) :
    Discipline.Uses offChannel (requestStreams auth) := by
  have hsend : ∀ m, offChannel (.send (.byte m)) := fun _ _ => rfl
  refine Discipline.uses_bind (uses_admitOptions hsend (fun _ => rfl) auth) fun opts => ?_
  exact Discipline.uses_bind (uses_sendByte (hsend _)) fun _ => trivial

/-- `accept_streams_from_channel` returns what it has received, `n` streams. -/
theorem exec_acceptStreamsFromChannel {timeout : Option Nat} : ∀ {n : Nat}
    {tr : List (Event Op Op.Ok Stop)} {ds : List Conn},
    Exec (acceptStreamsFromChannel timeout n) tr (.ok ds) →
      tr.filterMap received = ds ∧ ds.length = n
  | 0, tr, ds, h => by
    obtain ⟨rfl, heq⟩ := exec_ret.mp h
    cases heq
    exact ⟨rfl, rfl⟩
  | n + 1, tr, ds, h => by
    rcases exec_bind.mp h with ⟨e, -, heq⟩ | ⟨tr₁, tr₂, c, rfl, hrecv, hrest⟩
    · cases heq
    rcases exec_bind.mp hrest with ⟨e, -, heq⟩ | ⟨tr₃, tr₄, rest, rfl, hloop, hret⟩
    · cases heq
    obtain ⟨rfl, heq⟩ := exec_ret.mp hret
    cases heq
    obtain rfl := exec_perform.mp hrecv
    obtain ⟨hreceived, hlen⟩ := exec_acceptStreamsFromChannel hloop
    rw [List.append_nil, List.filterMap_append, hreceived, List.length_cons, hlen]
    exact ⟨rfl, rfl⟩

/-- The collected streams are the first connections taken off the channel. -/
theorem SessionInv.collected {timeout : Option Nat} {handled : List Conn} {t : SessionThread}
    {x : ChannelSession} (h : SessionInv timeout handled t x) {n : Nat} {ds : List Conn}
    (hds : Collected timeout x n ds) :
    ds.length = n ∧ ds = (x.channel.taken.take n).map Prod.fst ∧
      x.channel.taken.take n = (laterWith timeout handled x.control t.cookie).take n := by
  obtain ⟨opts, tr₁, tr₂, tr₃, htr, hrequest, -, -, haccept⟩ := hds
  obtain ⟨hreceived, hlen⟩ := exec_acceptStreamsFromChannel haccept
  have hsilent : tr₁.filterMap received = [] :=
    List.filterMap_eq_nil_iff.mpr fun ev hev =>
      Discipline.uses_exec (uses_requestStreams x.auth) hrequest ev hev ev.2
  have htaken := h.taken
  rw [htr, List.filterMap_append, List.filterMap_append, hsilent, hreceived,
    List.nil_append] at htaken
  have hn : n ≤ x.channel.taken.length := by
    have := congrArg List.length htaken
    rw [List.length_append, List.length_map] at this
    omega
  refine ⟨hlen, ?_, ?_⟩
  · rw [List.map_take, ← htaken, List.take_left' hlen]
  · -- what has been taken is a prefix of what the session is to get
    obtain ⟨rest, hrest⟩ : x.channel.taken <+: laterWith timeout handled x.control t.cookie :=
      (List.prefix_append _ _).trans h.sent
    rw [← hrest, List.take_append_of_le_length hn]

namespace Demux

/-- **Demultiplexing loses and misroutes nothing.**  In every reachable state of the concurrent
    server, whatever the peers connect with and however the threads interleave:

    * the streams a session has collected are the first connections with its cookie that the loop
      handled after the session's control connection, in that order;
    * no connection is given to a session twice, and none to two sessions;
    * every connection a session is given, its control connection included, presents its cookie. -/
theorem demux_exact {maxConcurrent : Nat} {timeout : Option Nat} {s : Demux}
    (h : (system maxConcurrent timeout).Reachable s) :
    (∀ (id : Nat) (t : SessionThread) (x : ChannelSession), s.loop.threads[id]? = some t →
      s.sessions[id]? = some x → ∀ (n : Nat) (ds : List Conn), Collected timeout x n ds →
        ds.length = n ∧ ds = (x.channel.taken.take n).map Prod.fst ∧
          x.channel.taken.take n = (laterWith timeout s.handled x.control t.cookie).take n) ∧
    (∀ (id : Nat) (x : ChannelSession), s.sessions[id]? = some x → x.connections.Nodup) ∧
    (∀ (id id' : Nat) (x x' : ChannelSession), s.sessions[id]? = some x →
      s.sessions[id']? = some x' → id ≠ id' → ∀ j ∈ x.connections, j ∉ x'.connections) ∧
    (∀ (id : Nat) (t : SessionThread) (x : ChannelSession), s.loop.threads[id]? = some t →
      s.sessions[id]? = some x → ∀ j ∈ x.connections,
        ∃ c, s.handled[j]? = some c ∧ presentsCookie t.cookie timeout c) := by
  have hinv := inv_reachable h
  refine ⟨fun id t x ht hx n ds hds => (hinv.session id t x ht hx).collected hds, ?_,
    hinv.disjoint, ?_⟩
  · intro id x hx
    obtain ⟨t, ht⟩ := exists_thread hinv (List.getElem?_eq_some_iff.mp hx).1
    exact (hinv.session id t x ht hx).nodup
  · intro id t x ht hx j hj
    have hsession := hinv.session id t x ht hx
    rcases List.mem_cons.mp hj with rfl | hj
    · exact hsession.control
    · obtain ⟨a, ha, rfl⟩ := List.mem_map.mp hj
      exact ⟨a.1, (hsession.mem_sent ha).1, (hsession.mem_sent ha).2.2⟩

/-! ### Two clients at once -/

def otherCookie : Bytes := List.replicate 36 98 ++ [0]

/-- A client of another session. -/
def otherConn : Conn := ⟨⟨167772161, 50000⟩, ⟨[otherCookie], .stalls⟩⟩

/-- The accept thread handles one connection. -/
def handle (c : Conn) : List DemuxAct := [.accept c, .lockRegistry, .dispatch]

/-- Every operation succeeds, and the client asks for one TCP stream. -/
def oneStream : (o : Op) → Except Stop o.Ok
  | .recvOptions => .ok (ClientOptions.tcpDefaults 10 1 defaultTcpLen)
  | .send _ => .ok ()
  | _ => .error (.io ⟨.other, "unused"⟩)

/-- Two control connections, then two data connections in the other order, and the first session
    up to its stream. -/
def twoClients : List DemuxAct :=
  handle ownConn ++ [.register none, .spawnThread] ++ handle otherConn ++
    [.register none, .spawnThread] ++ handle otherConn ++ handle ownConn ++
    List.replicate 4 (.perform 0 oneStream)

/-- What such a session has done by then. -/
theorem collected_oneStream {x : ChannelSession} (hauth : x.auth = none)
    (htr : x.transcript =
      [⟨.send (.byte .paramExchange), .ok ()⟩,
        ⟨.recvOptions, .ok (ClientOptions.tcpDefaults 10 1 defaultTcpLen)⟩,
        ⟨.send (.byte .createStreams), .ok ()⟩, ⟨.recvDataStream none, .ok ownConn⟩]) :
    Collected none x 1 [ownConn] := by
  refine ⟨ClientOptions.tcpDefaults 10 1 defaultTcpLen, _, _, [],
    htr.trans (show _ = [_, _, _] ++ [_] ++ [] from rfl), ?_, rfl, rfl, ?_⟩
  · rw [hauth]
    exact Exec.op _ (Exec.op _ (Exec.op _ (Exec.ret _)))
  · exact Exec.op _ (Exec.ret _)

theorem demux_exact_twoClients :
    ∃ s t x, (system 2 none).run twoClients empty = some s ∧ s.loop.threads[0]? = some t ∧
      s.sessions[0]? = some x ∧ Collected none x 1 [ownConn] ∧ x.channel.sent = [(ownConn, 3)] ∧
      x.channel.taken.take 1 = (laterWith none s.handled x.control t.cookie).take 1 := by
  obtain ⟨s, hs⟩ : ∃ s, (system 2 none).run twoClients empty = some s := ⟨_, rfl⟩
  have hreach : (system 2 none).Reachable s :=
    System.reachable_iff_run.mpr ⟨empty, twoClients, rfl, hs⟩
  cases hs
  exact ⟨_, _, _, rfl, rfl, rfl, collected_oneStream rfl rfl, rfl,
    ((demux_exact hreach).1 0 _ _ rfl rfl 1 [ownConn] (collected_oneStream rfl rfl)).2.2⟩

end Demux

end Rperf3
