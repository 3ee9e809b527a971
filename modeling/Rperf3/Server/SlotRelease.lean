/-
  Does a session slot come back when its thread has terminated?

  A session holds two resources.  The per-IP guard is released by `Drop`, so it comes back on
  EVERY exit.  The registry entry is removed by a statement after `serve_session_from_channel`, so
  it comes back only when that call RETURNS: a panic inside it unwinds past the removal and the
  entry stays for ever.  (`run_server_loop` wraps the same kind of call in `catch_unwind`; the
  concurrent loop does not.)

  This is proved for every reachable state.  The concrete case: the session driver itself panics
  when the UDP socket cannot be cloned.
-/
import Rperf3.Server.AcceptLoop

namespace Rperf3

open Transition Effect Effect.Prog

def Phase.isTerminated : Phase → Bool
  | .terminated _ => true
  | _ => false

/-- The guard is held exactly until the thread has terminated. -/
theorem Phase.holdsGuard_eq (ph : Phase) : ph.holdsGuard = !ph.isTerminated := by
  cases ph <;> rfl

namespace AcceptLoop

variable {maxConcurrent : Nat} {s : AcceptLoop}

/-- Sessions of an address that have not terminated, and the one about to be created. -/
def liveSessions (s : AcceptLoop) (ip : Nat) : Nat :=
  s.threads.countP (fun t => !t.phase.isTerminated && t.ip == ip) + s.pc.guardsOf ip

/-- No thread was terminated by a panic. -/
def NoPanic (s : AcceptLoop) : Prop := ∀ t ∈ s.threads, t.phase ≠ .terminated true

/-- An entry under this cookie, if there is one, belongs to a session that has not terminated. -/
def OwnedByLive (s : AcceptLoop) (cookie : Bytes) : Prop :=
  ∀ id, s.registry.lookup cookie = some id →
    ∃ t, s.threads[id]? = some t ∧ t.phase.isTerminated = false

/-- A connection with this cookie from this address becomes a new session. -/
def Admits (maxConcurrent : Nat) (s : AcceptLoop) (cookie : Bytes) (ip : Nat) : Prop :=
  ∃ s', (system maxConcurrent).run
      [.connect (.ok cookie) ip, .lockRegistry, .dispatch, .register, .spawnThread] s = some s' ∧
    s'.threads = s.threads ++ [⟨cookie, ip, .serving⟩]

theorem liveSessions_eq_guards (s : AcceptLoop) (ip : Nat) : s.liveSessions ip = s.guards ip := by
  unfold liveSessions guards threadGuards
  simp only [Phase.holdsGuard_eq]

/-- The per-IP count is released on every exit. -/
theorem perIp_released (h : LoopInv maxConcurrent s) (ip : Nat) :
    HoldsCount s.perIp ip (s.liveSessions ip) := by
  rw [liveSessions_eq_guards]
  exact h.counts ip

/-- The entry of a terminated thread is gone exactly when it did not panic. -/
theorem entries_released_iff (h : LoopInv maxConcurrent s) :
    (∀ t ∈ s.threads, t.phase.isTerminated = true → s.OwnedByLive t.cookie) ↔ s.NoPanic := by
  constructor
  · intro hall t ht hpanic
    obtain ⟨id, hid⟩ := List.mem_iff_getElem?.mp ht
    -- the panicked thread still owns its entry
    have hown : s.registry.lookup t.cookie = some id :=
      (h.entries _ _).mpr ⟨t, hid, rfl, by rw [hpanic]; rfl⟩
    obtain ⟨t', ht', hlive⟩ := hall t ht (by rw [hpanic]; rfl) id hown
    rw [hid] at ht'
    cases ht'
    rw [hpanic] at hlive
    cases hlive
  · intro hno t _ _ id hlookup
    obtain ⟨t', ht', -, hreg⟩ := (h.entries _ _).mp hlookup
    refine ⟨t', ht', ?_⟩
    have hne := hno t' (List.mem_of_getElem? ht')
    cases hph : t'.phase with
    | terminated panicked =>
      rw [hph] at hreg hne
      cases panicked with
      | true => exact absurd rfl hne
      | false => cases hreg
    | _ => rfl

/-- Once all threads have terminated, the registry is empty unless one of them panicked. -/
theorem registry_empty_iff (h : LoopInv maxConcurrent s)
    (hall : ∀ t ∈ s.threads, t.phase.isTerminated = true) : s.registry = ∅ ↔ s.NoPanic := by
  constructor
  · intro hempty t ht hpanic
    obtain ⟨id, hid⟩ := List.mem_iff_getElem?.mp ht
    have hown : s.registry.lookup t.cookie = some id :=
      (h.entries _ _).mpr ⟨t, hid, rfl, by rw [hpanic]; rfl⟩
    rw [hempty, AList.lookup_empty] at hown
    cases hown
  · intro hno
    apply Table.eq_empty_of_lookup_none
    intro c
    cases hlookup : s.registry.lookup c with
    | none => rfl
    | some id =>
      obtain ⟨t, ht, hcookie, -⟩ := (h.entries _ _).mp hlookup
      have hmem := List.mem_of_getElem? ht
      obtain ⟨t', ht', hlive⟩ :=
        (entries_released_iff h).mpr hno t hmem (hall t hmem) id (hcookie ▸ hlookup)
      rw [ht] at ht'
      cases ht'
      rw [hall t hmem] at hlive
      cases hlive

/-! ### Who is admitted -/

/-- The thread that has just been registered starts serving. -/
theorem spawn_registered (s : AcceptLoop) (cookie : Bytes) (ip : Nat) (perIp : Table Nat Nat) :
    (system maxConcurrent).run [.register, .spawnThread]
        { s with perIp := perIp, pc := .acquired cookie ip } =
      some ⟨s.registry.insert cookie s.threads.length, perIp,
        s.threads ++ [⟨cookie, ip, .serving⟩], .waiting⟩ := by
  have hstart : (s.threads ++ [(⟨cookie, ip, .starting⟩ : SessionThread)])[s.threads.length]? =
      some ⟨cookie, ip, .starting⟩ := List.getElem?_concat_length
  simp only [System.run, system, step, Option.bind_some, hstart, setPhase]
  rw [List.set_append_right _ _ (Nat.le_refl _), Nat.sub_self]
  rfl

/-- **An idle accept thread admits a client exactly if there is room for it.** -/
theorem admits_iff_hasRoom (h : LoopInv maxConcurrent s) (hpc : s.pc = .waiting) (cookie : Bytes)
    (ip : Nat) : Admits maxConcurrent s cookie ip ↔ HasRoom maxConcurrent s cookie ip := by
  -- the first two steps only lead to the decision
  have hrun : (system maxConcurrent).run
      [.connect (.ok cookie) ip, .lockRegistry, .dispatch, .register, .spawnThread] s =
      (system maxConcurrent).run [.register, .spawnThread]
        (dispatch maxConcurrent cookie ip { s with pc := .holding cookie ip }) := by
    simp only [System.run, system, step, hpc, if_true, Option.bind_some]
  have hholding : LoopInv maxConcurrent { s with pc := .holding cookie ip } :=
    inv_setPc h (fun c ip' heq => by rw [hpc] at heq; cases heq) (fun _ _ heq => by cases heq)
      (fun _ heq => by cases heq)
  have hsame : HasRoom maxConcurrent { s with pc := .holding cookie ip } cookie ip ↔
      HasRoom maxConcurrent s cookie ip := by
    unfold HasRoom guards
    rw [hpc]
    rfl
  rw [← hsame, Admits, hrun]
  rcases dispatch_cases hholding cookie ip with ⟨hroom, heq⟩ | ⟨hfull, heq⟩
  · rw [heq]
    exact iff_of_true ⟨_, spawn_registered s cookie ip _, rfl⟩ hroom
  · rw [heq]
    refine iff_of_false ?_ hfull
    rintro ⟨s', hs', -⟩
    cases hs'

/-! ### What occupies the registry -/

/-- Every thread that counts for the registry has an entry of its own, and there are no others. -/
theorem size_registry (h : LoopInv maxConcurrent s) :
    s.registry.size = s.threads.countP fun t => t.phase.inRegistry := by
  let registered := s.threads.zipIdx.filter fun p => p.1.phase.inRegistry
  have hentry : ∀ p ∈ registered, s.registry.lookup p.1.cookie = some p.2 := by
    intro p hp
    obtain ⟨hmem, hin⟩ := List.mem_filter.mp hp
    exact (h.entries _ _).mpr ⟨p.1, List.mem_zipIdx_iff_getElem?.mp hmem, rfl, hin⟩
  have hcount : registered.length = s.threads.countP fun t => t.phase.inRegistry := by
    rw [← List.countP_eq_length_filter]
    conv_rhs => rw [← List.zipIdx_map_fst 0 s.threads, List.countP_map]
    rfl
  have hnodup : (registered.map fun p => p.1.cookie).Nodup := by
    have hindex : (s.threads.zipIdx.map Prod.snd).Nodup := by
      rw [List.zipIdx_map_snd]
      exact List.nodup_range'
    refine List.pairwise_map.mpr (((List.pairwise_map.mp hindex).filter _).imp_of_mem ?_)
    intro p q hp hq hne heq
    have hp' := hentry p hp
    rw [heq, hentry q hq] at hp'
    exact hne (Option.some.inj hp').symm
  have hkeys : ∀ c, c ∈ s.registry.keys ↔ c ∈ registered.map fun p => p.1.cookie := by
    intro c
    rw [← AList.mem_keys, ← AList.lookup_isSome, Option.isSome_iff_exists, List.mem_map]
    constructor
    · rintro ⟨id, hid⟩
      obtain ⟨t, ht, hcookie, hin⟩ := (h.entries c id).mp hid
      exact ⟨(t, id), List.mem_filter.mpr ⟨List.mem_zipIdx_iff_getElem?.mpr ht, hin⟩, hcookie⟩
    · rintro ⟨p, hp, rfl⟩
      exact ⟨p.2, hentry p hp⟩
  rw [← hcount, ← List.length_map fun p : SessionThread × Nat => p.1.cookie]
  exact ((List.perm_ext_iff_of_nodup (AList.keys_nodup _) hnodup).mpr hkeys).length_eq

/-- An idle server with an empty registry and no live session admits anyone. -/
theorem admits_of_idle (h : LoopInv maxConcurrent s) (hmax : 1 < maxConcurrent)
    (hpc : s.pc = .waiting) (hempty : s.registry = ∅)
    (hall : ∀ t ∈ s.threads, t.phase.isTerminated = true) (cookie : Bytes) (ip : Nat) :
    Admits maxConcurrent s cookie ip := by
  have hlive : s.liveSessions ip = 0 := by
    rw [liveSessions, hpc, List.countP_eq_zero.mpr]
    · rfl
    · intro t ht
      rw [hall t ht]
      exact Bool.false_ne_true
  rw [admits_iff_hasRoom h hpc, HasRoom, hempty, ← liveSessions_eq_guards, hlive]
  exact ⟨AList.lookup_empty _, Nat.lt_trans Nat.zero_lt_one hmax, by decide⟩

/-- **Slots and panics.**  In every reachable state the per-IP counts are those of the sessions that
    have not terminated.  The registry entries of the terminated threads are gone if and only if
    none of them panicked; and when all threads have terminated and the accept thread is idle, the
    registry is empty and every new client is admitted if and only if none of them panicked. -/
theorem slot_released_iff (hmax : 1 < maxConcurrent) (hreach : (system maxConcurrent).Reachable s) :
    (∀ ip, HoldsCount s.perIp ip (s.liveSessions ip)) ∧
    ((∀ t ∈ s.threads, t.phase.isTerminated = true → s.OwnedByLive t.cookie) ↔ s.NoPanic) ∧
    ((∀ t ∈ s.threads, t.phase.isTerminated = true) → s.pc = .waiting →
      ((s.registry = ∅ ∧ ∀ cookie ip, Admits maxConcurrent s cookie ip) ↔ s.NoPanic)) := by
  have h := inv_reachable hreach
  refine ⟨perIp_released h, entries_released_iff h, fun hall hpc => ?_⟩
  constructor
  · rintro ⟨hempty, -⟩
    exact (registry_empty_iff h hall).mp hempty
  · intro hno
    have hempty := (registry_empty_iff h hall).mpr hno
    exact ⟨hempty, admits_of_idle h hmax hpc hempty hall⟩

end AcceptLoop

/-! ### A session that panics -/

/-- A reverse UDP test with one stream. -/
def reverseUdpOptions : ClientOptions :=
  { ClientOptions.tcpDefaults 1 1 1460 with tcp := false, udp := true, reverse := true }

/-- A world in which everything works, except that the process has run out of file descriptors when
    the UDP socket is cloned. -/
def exhaustedWorld : (o : Op) → Unit → Option (Except Stop o.Ok × Unit)
  | .recvOptions, w => some (.ok reverseUdpOptions, w)
  | .udpPort, w => some (.ok (40000 : Nat), w)
  | .acceptUdpStreams _ _, w => some (.ok [⟨2130706433, 40001⟩], w)
  | .cloneUdp, w => some (.error (.io ⟨.other, "Too many open files (os error 24)"⟩), w)
  | .send _, w => some (.ok (), w)
  | .setReadTimeout _, w => some (.ok (), w)
  | .bindUdp _ _, w => some (.ok (), w)
  | .setUdpTimeout _, w => some (.ok (), w)
  | _, _ => none

def clonePanic : Except Stop Nat :=
  .error (.panic "udp try_clone: Too many open files (os error 24)")

/-- The driver panics in that world. -/
theorem serve_panics : ∃ tr, Exec (serveSessionFromChannel none [1] none) tr clonePanic := by
  have hrun : (serveSessionFromChannel none [1] none).runIn exhaustedWorld () =
      some (clonePanic, ()) := by
    decide +kernel
  exact exec_of_runIn hrun

namespace AcceptLoop

/-- One session from connection to termination, ended by the panic. -/
def panickedSession (id : Nat) (cookie : Bytes) : List LoopAct :=
  [.connect (.ok cookie) 7, .lockRegistry, .dispatch, .register, .spawnThread,
    .finish id clonePanic, .dropGuard id]

/-- Two panicked sessions later: both threads have terminated and no guard is left, but both entries
    are still there. -/
def leakedState : AcceptLoop where
  registry := (AList.insert [1] 0 ∅).insert [2] 1
  perIp := ∅
  threads := [⟨[1], 7, .terminated true⟩, ⟨[2], 7, .terminated true⟩]
  pc := .waiting

/-- Two sessions end by the panic of their own driver, and a server for two sessions refuses the
    next client although nobody is being served. -/
theorem udp_clone_panic_leaks :
    (∃ tr, Exec (serveSessionFromChannel none [1] none) tr clonePanic) ∧
    (system 2).run (panickedSession 0 [1] ++ panickedSession 1 [2]) empty = some leakedState ∧
    leakedState.registry.lookup [1] = some 0 ∧
    (system 2).run [.connect (.ok [3]) 8, .lockRegistry, .dispatch] leakedState =
      some leakedState :=
  ⟨serve_panics, rfl, by decide, rfl⟩

theorem slot_released_iff_panicked :
    ∃ s, (system 2).run (panickedSession 0 [1]) empty = some s ∧
      ((∀ t ∈ s.threads, t.phase.isTerminated = true → s.OwnedByLive t.cookie) ↔ s.NoPanic) := by
  obtain ⟨s, hs⟩ : ∃ s, (system 2).run (panickedSession 0 [1]) empty = some s :=
    Option.isSome_iff_exists.mp (by decide)
  have hreach : (system 2).Reachable s := System.reachable_iff_run.mpr ⟨empty, _, rfl, hs⟩
  exact ⟨s, hs, (slot_released_iff (by decide) hreach).2.1⟩

end AcceptLoop

end Rperf3
