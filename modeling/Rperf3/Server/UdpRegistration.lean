/-
  `accept_udp_streams` with its ACKNOWLEDGEMENTS and its socket errors.

  The loop keeps a set of the sources seen and a vector of the addresses registered, answers every
  registration with one datagram, and drops everything else without an answer.

  1. `Registered` — the invariant: set, vector and acknowledgements stand for the same sources, the
     distinct ones among the stream-inits read so far.
  2. `registerLoop_inserts` — what is dropped leaves no trace, wherever it arrives.
  3. `registers_first_sources` — so the result is the first `n` distinct sources and nothing that a
     third party sends in between can change it, or draw an answer.
-/
import Rperf3.Server.UdpReverse

namespace Rperf3

/-- What `accept_udp_streams` has done so far; `sends` are its calls of `send_to`, whose results it
    ignores. -/
structure Registration where
  addrs : List SocketAddr
  seen : List SocketAddr
  sends : List (SocketAddr × Bytes)

namespace Registration

def start : Registration := ⟨[], [], []⟩

/-- The body of the loop, after `recv_from` has returned a datagram. -/
def receive (expectedCookie : Bytes) (d : Datagram) (r : Registration) : Registration :=
  if !isValidInit expectedCookie d.payload then r
  else if d.src ∈ r.seen then r
  else
    { addrs := r.addrs ++ [d.src]
      seen := d.src :: r.seen
      sends := r.sends ++ [(d.src, udpStreamAck)] }

end Registration

/-- The outcome of one `recv_from`. -/
abbrev Received := Except IoError Datagram

/-- `while addrs.len() < n`: how the loop ends, `none` if it still waits, and what it has done. -/
def registerLoop (expectedCookie : Bytes) (n : Nat) :
    List Received → Registration → Option (Except IoError Unit) × Registration
  | [], r => if r.addrs.length < n then (none, r) else (some (.ok ()), r)
  | o :: os, r =>
    if r.addrs.length < n then
      match o with
      | .error e => (some (.error e), r)
      | .ok d => registerLoop expectedCookie n os (r.receive expectedCookie d)
    else (some (.ok ()), r)

/-- `accept_udp_streams`: its result and its acknowledgements. -/
def registerUdpStreams (expectedCookie : Bytes) (n : Nat) (os : List Received) :
    Option (Except IoError (List SocketAddr)) × List (SocketAddr × Bytes) :=
  let (result, r) := registerLoop expectedCookie n os .start
  (result.map (·.map fun _ => r.addrs), r.sends)

/-! ## The sources of the stream-inits -/

/-- The datagrams before the first socket error. -/
def datagramsBeforeError : List Received → List Datagram
  | [] => []
  | .error _ :: _ => []
  | .ok d :: os => d :: datagramsBeforeError os

/-- The sources of the stream-inits among some datagrams, in order of arrival. -/
def initSources (expectedCookie : Bytes) (ds : List Datagram) : List SocketAddr :=
  (ds.filter fun d => isValidInit expectedCookie d.payload).map Datagram.src

theorem initSources_append (expectedCookie : Bytes) (ds ds' : List Datagram) :
    initSources expectedCookie (ds ++ ds') =
      initSources expectedCookie ds ++ initSources expectedCookie ds' := by
  unfold initSources
  rw [List.filter_append, List.map_append]

theorem initSources_singleton (expectedCookie : Bytes) (d : Datagram) :
    initSources expectedCookie [d] =
      if isValidInit expectedCookie d.payload then [d.src] else [] := by
  unfold initSources
  cases hvalid : isValidInit expectedCookie d.payload with
  | true => simp [hvalid]
  | false => simp [hvalid]

theorem eraseDups_concat {α : Type} [DecidableEq α] (l : List α) (a : α) :
    (l ++ [a]).eraseDups = if a ∈ l then l.eraseDups else l.eraseDups ++ [a] := by
  rw [List.eraseDups_append]
  by_cases h : a ∈ l
  · simp [List.removeAll, h]
  · simp [List.removeAll, h, List.eraseDups_cons]

/-! ## The invariant -/

/-- Set, vector and acknowledgements stand for the sources of the stream-inits among `ds`. -/
structure Registered (expectedCookie : Bytes) (ds : List Datagram) (r : Registration) : Prop where
  addrs_eq : r.addrs = (initSources expectedCookie ds).eraseDups
  nodup : r.addrs.Nodup
  seen_iff : ∀ a, a ∈ r.seen ↔ a ∈ r.addrs
  sends_eq : r.sends = r.addrs.map fun a => (a, udpStreamAck)

theorem registered_start (expectedCookie : Bytes) : Registered expectedCookie [] .start :=
  ⟨rfl, List.nodup_nil, fun _ => Iff.rfl, rfl⟩

/-- **One datagram.** -/
theorem Registered.receive {expectedCookie : Bytes} {ds : List Datagram} {r : Registration}
    (h : Registered expectedCookie ds r) (d : Datagram) :
    Registered expectedCookie (ds ++ [d]) (r.receive expectedCookie d) := by
  have hmem : d.src ∈ r.seen ↔ d.src ∈ initSources expectedCookie ds := by
    rw [h.seen_iff, h.addrs_eq, List.mem_eraseDups]
  unfold Registration.receive
  cases hvalid : isValidInit expectedCookie d.payload with
  | false =>
    have hsame : initSources expectedCookie (ds ++ [d]) = initSources expectedCookie ds := by
      rw [initSources_append, initSources_singleton, hvalid]
      exact List.append_nil _
    exact ⟨hsame ▸ h.addrs_eq, h.nodup, h.seen_iff, h.sends_eq⟩
  | true =>
    have hmore : initSources expectedCookie (ds ++ [d]) =
        initSources expectedCookie ds ++ [d.src] := by
      rw [initSources_append, initSources_singleton, hvalid]
      rfl
    by_cases hseen : d.src ∈ r.seen
    · rw [if_neg (by decide), if_pos hseen]
      refine ⟨?_, h.nodup, h.seen_iff, h.sends_eq⟩
      rw [hmore, eraseDups_concat, if_pos (hmem.mp hseen)]
      exact h.addrs_eq
    · rw [if_neg (by decide), if_neg hseen]
      have hnew : d.src ∉ r.addrs := fun ha => hseen ((h.seen_iff _).mpr ha)
      refine ⟨?_, ?_, ?_, ?_⟩
      · rw [hmore, eraseDups_concat, if_neg fun hi => hseen (hmem.mpr hi), h.addrs_eq]
      · exact List.nodup_append.mpr ⟨h.nodup, List.nodup_singleton _, fun a ha b hb => by
          rw [List.mem_singleton.mp hb]
          rintro rfl
          exact hnew ha⟩
      · intro a
        rw [List.mem_cons, List.mem_append, List.mem_singleton, h.seen_iff, or_comm]
      · rw [List.map_append, ← h.sends_eq]
        rfl

theorem length_receive_le (expectedCookie : Bytes) (d : Datagram) (r : Registration) :
    (r.receive expectedCookie d).addrs.length ≤ r.addrs.length + 1 := by
  unfold Registration.receive
  split
  · exact Nat.le_succ _
  split
  · exact Nat.le_succ _
  · rw [List.length_append]
    rfl

/-- A loop that has registered enough reads nothing. -/
theorem registerLoop_full {expectedCookie : Bytes} {n : Nat} {r : Registration}
    (h : ¬ r.addrs.length < n) (os : List Received) :
    registerLoop expectedCookie n os r = (some (.ok ()), r) := by
  cases os with
  | nil => exact if_neg h
  | cons o os => exact if_neg h

/-- **The loop**, by induction on what the socket returns: at `Ok` it has read some datagrams, their
    distinct sources are registered, and there are `n` of them. -/
theorem registerLoop_ok (expectedCookie : Bytes) (n : Nat) (os : List Received) :
    ∀ {ds : List Datagram} {r r' : Registration}, Registered expectedCookie ds r →
      r.addrs.length ≤ n → registerLoop expectedCookie n os r = (some (.ok ()), r') →
      r'.addrs.length = n ∧ ∃ more rest, datagramsBeforeError os = more ++ rest ∧
        Registered expectedCookie (ds ++ more) r' := by
  -- the loop stops when it has registered enough, before it reads on
  have hfull : ∀ {os : List Received} {ds : List Datagram} {r r' : Registration},
      Registered expectedCookie ds r → r.addrs.length ≤ n → ¬ r.addrs.length < n →
      (some (.ok ()), r) = ((some (.ok ()), r') : Option (Except IoError Unit) × Registration) →
      r'.addrs.length = n ∧ ∃ more rest, datagramsBeforeError os = more ++ rest ∧
        Registered expectedCookie (ds ++ more) r' := by
    intro os ds r r' h hle hlt heq
    cases heq
    exact ⟨by omega, [], datagramsBeforeError os, rfl, by rw [List.append_nil]; exact h⟩
  induction os with
  | nil =>
    intro ds r r' h hle hloop
    by_cases hlt : r.addrs.length < n
    · rw [registerLoop, if_pos hlt] at hloop
      cases hloop
    · rw [registerLoop_full hlt] at hloop
      exact hfull h hle hlt hloop
  | cons o os ih =>
    intro ds r r' h hle hloop
    by_cases hlt : r.addrs.length < n
    · cases o with
      | error e =>
        rw [registerLoop, if_pos hlt] at hloop
        cases hloop
      | ok d =>
        rw [registerLoop, if_pos hlt] at hloop
        have hstep := length_receive_le expectedCookie d r
        obtain ⟨hlen, more, rest, hread, hreg⟩ := ih (h.receive d) (by omega) hloop
        refine ⟨hlen, d :: more, rest, ?_, ?_⟩
        · rw [datagramsBeforeError, hread]
          rfl
        · rw [List.append_cons]
          exact hreg
    · rw [registerLoop_full hlt] at hloop
      exact hfull h hle hlt hloop

/-! ## What is dropped -/

/-- A datagram that the loop drops after `pre`: no stream-init, or one of a source that has already
    sent one. -/
def Noise (expectedCookie : Bytes) (pre : List Datagram) (d : Datagram) : Prop :=
  isValidInit expectedCookie d.payload = false ∨ d.src ∈ initSources expectedCookie pre

/-- The second sequence is the first with noise inserted; `pre` came before both. -/
inductive Inserts (expectedCookie : Bytes) :
    List Datagram → List Received → List Received → Prop
  | nil {pre : List Datagram} : Inserts expectedCookie pre [] []
  | keep {pre : List Datagram} {d : Datagram} {os os' : List Received}
      (rest : Inserts expectedCookie (pre ++ [d]) os os') :
      Inserts expectedCookie pre (.ok d :: os) (.ok d :: os')
  | keepError {pre : List Datagram} {e : IoError} {os os' : List Received}
      (rest : Inserts expectedCookie pre os os') :
      Inserts expectedCookie pre (.error e :: os) (.error e :: os')
  | insert {pre : List Datagram} {d : Datagram} {os os' : List Received}
      (hnoise : Noise expectedCookie pre d) (rest : Inserts expectedCookie pre os os') :
      Inserts expectedCookie pre os (.ok d :: os')

/-- Noise leaves the registration as it is. -/
theorem receive_noise {expectedCookie : Bytes} {pre : List Datagram} {r : Registration}
    (h : Registered expectedCookie pre r) {d : Datagram} (hnoise : Noise expectedCookie pre d) :
    r.receive expectedCookie d = r := by
  unfold Registration.receive
  rcases hnoise with hinvalid | hsrc
  · rw [hinvalid]
    rfl
  · have hseen : d.src ∈ r.seen := by
      rw [h.seen_iff, h.addrs_eq, List.mem_eraseDups]
      exact hsrc
    rw [if_pos hseen]
    split
    · rfl
    · rfl

/-- **Noise makes no difference to the loop.** -/
theorem registerLoop_inserts {expectedCookie : Bytes} (n : Nat) {pre : List Datagram}
    {os os' : List Received} (h : Inserts expectedCookie pre os os') :
    ∀ {r : Registration}, Registered expectedCookie pre r →
      registerLoop expectedCookie n os' r = registerLoop expectedCookie n os r := by
  induction h with
  | nil =>
    intro r _
    rfl
  | keep rest ih =>
    intro r hr
    rw [registerLoop, registerLoop, ih (hr.receive _)]
  | keepError rest ih =>
    intro r hr
    rfl
  | insert hnoise rest ih =>
    intro r hr
    by_cases hlt : r.addrs.length < n
    · rw [registerLoop, if_pos hlt, receive_noise hr hnoise]
      exact ih hr
    · rw [registerLoop_full hlt, registerLoop_full hlt]

/-! ## The result -/

/-- **Registration.**  When `accept_udp_streams` returns, it has registered the first `n` distinct
    sources of stream-inits, in order of appearance; it has acknowledged each of them once, in that
    order, and nobody else; and noise inserted anywhere changes neither. -/
theorem registers_first_sources (expectedCookie : Bytes) (n : Nat) (os : List Received)
    (addrs : List SocketAddr) (sends : List (SocketAddr × Bytes))
    (h : registerUdpStreams expectedCookie n os = (some (.ok addrs), sends)) :
    addrs.length = n ∧ addrs.Nodup ∧
    addrs = ((initSources expectedCookie (datagramsBeforeError os)).eraseDups).take n ∧
    sends = addrs.map (fun a => (a, udpStreamAck)) ∧
    ∀ os', Inserts expectedCookie [] os os' →
      registerUdpStreams expectedCookie n os' = (some (.ok addrs), sends) := by
  have hinserts : ∀ os', Inserts expectedCookie [] os os' →
      registerUdpStreams expectedCookie n os' = (some (.ok addrs), sends) := by
    intro os' hos'
    rw [← h, registerUdpStreams, registerUdpStreams,
      registerLoop_inserts n hos' (registered_start expectedCookie)]
  unfold registerUdpStreams at h
  rcases hloop : registerLoop expectedCookie n os .start with ⟨result, r⟩
  rw [hloop] at h
  obtain ⟨hresult, rfl⟩ := Prod.mk.inj h
  obtain ⟨ending, rfl, hending⟩ := Option.map_eq_some_iff.mp hresult
  cases ending with
  | error e => cases hending
  | ok u =>
    cases hending
    obtain ⟨hlen, more, rest, hread, hreg⟩ := registerLoop_ok expectedCookie n os
      (registered_start expectedCookie) (Nat.zero_le n) hloop
    rw [List.nil_append] at hreg
    refine ⟨hlen, hreg.nodup, ?_, hreg.sends_eq, hinserts⟩
    show r.addrs = _
    rw [hread, initSources_append, List.eraseDups_append, ← hreg.addrs_eq, ← hlen, List.take_left]

/-- Two registrations with a stray datagram before them and a repeated init between them. -/
theorem registers_first_sources_withNoise :
    registerUdpStreams sampleCookie.bytes 2
        [.ok ⟨⟨167772161, 9⟩, [1, 2, 3]⟩, .ok ⟨lonePeer, sampleCookie.bytes⟩,
          .ok ⟨lonePeer, udpStreamInit⟩, .ok ⟨nearPeer, udpStreamInit⟩] =
      (some (.ok [lonePeer, nearPeer]),
        [(lonePeer, udpStreamAck), (nearPeer, udpStreamAck)]) :=
  (registers_first_sources sampleCookie.bytes 2
    [.ok ⟨lonePeer, sampleCookie.bytes⟩, .ok ⟨nearPeer, udpStreamInit⟩] _ _ (by rfl)).2.2.2.2 _
    (.insert (.inl (by decide)) (.keep (.insert (.inr (by decide)) (.keep .nil))))

/-! ## Against the receiver's view -/

/-- The loop of `acceptUdpStreams`, which keeps neither the acknowledgements nor the set, registers
    the same addresses. -/
theorem registerLoop_eq_acceptUdpLoop (expectedCookie : Bytes) (n : Nat)
    (arrivals : List Datagram) :
    ∀ {need : Nat} {r : Registration}, (∀ a, a ∈ r.seen ↔ a ∈ r.addrs) →
      r.addrs.length + need = n →
      (registerLoop expectedCookie n (arrivals.map .ok) r).1.map
          (·.map fun _ => (registerLoop expectedCookie n (arrivals.map .ok) r).2.addrs) =
        (acceptUdpLoop expectedCookie need r.addrs arrivals).map fun p => .ok p.1 := by
  induction arrivals with
  | nil =>
    intro need r hseen hneed
    cases need with
    | zero =>
      rw [List.map_nil, registerLoop_full (by omega)]
      rfl
    | succ need =>
      rw [List.map_nil, registerLoop, if_pos (by omega)]
      rfl
  | cons d arrivals ih =>
    intro need r hseen hneed
    cases need with
    | zero =>
      rw [registerLoop_full (by omega)]
      rfl
    | succ need =>
      rw [List.map_cons, registerLoop, if_pos (by omega), acceptUdpLoop, Registration.receive]
      split
      · exact ih hseen hneed
      by_cases hmem : d.src ∈ r.seen
      · rw [if_pos hmem, if_pos ((hseen _).mp hmem)]
        exact ih hseen hneed
      · rw [if_neg hmem, if_neg fun ha => hmem ((hseen _).mpr ha)]
        refine ih (r := ⟨_, _, _⟩) ?_ ?_
        · intro a
          rw [List.mem_cons, List.mem_append, List.mem_singleton, hseen, or_comm]
        · rw [List.length_append, List.length_singleton]
          omega

/-- **The two models of registration agree** on sockets that deliver datagrams only. -/
theorem registerUdpStreams_eq_accept (expectedCookie : Bytes) (n : Nat)
    (arrivals : List Datagram) :
    (registerUdpStreams expectedCookie n (arrivals.map .ok)).1 =
      (acceptUdpStreams expectedCookie n arrivals).map fun p => .ok p.1 :=
  registerLoop_eq_acceptUdpLoop expectedCookie n arrivals (fun _ => Iff.rfl) (Nat.zero_add n)

end Rperf3
