/-
  `run_concurrent_accept_loop`: the accept thread, the session threads it spawns, the registry and
  the per-IP counter, as ONE transition system.

  The accept thread handles a connection in several atomic steps (read the cookie, take the registry
  lock, decide, register, spawn); it holds the lock from the decision to the registration.  A
  session thread serves, removes its registry entry (under the lock) and drops its per-IP guard,
  each a step of its own; when `serve_session_from_channel` PANICS, the removal is skipped and
  unwinding only drops the guard.  Cookies and addresses are whatever the peers choose.

  `LoopInv` is the inductive invariant; the last section reads off what it says about the registry
  and the counter in every reachable state.
-/
import Rperf3.Lib.Pool
import Rperf3.Lib.Table
import Rperf3.Lib.Transition
import Rperf3.Server.Session

namespace Rperf3

open Transition

/-! ## The per-IP counter -/

def perIpSessionCap : Nat := 4

/-- `PerIpCounter::try_acquire`: whether a handle is given out, and the map afterwards. -/
def tryAcquire (ip limit : Nat) (m : Table Nat Nat) : Bool × Table Nat Nat :=
  let m := if (m.lookup ip).isNone then m.insert ip 0 else m
  let count := (m.lookup ip).getD 0
  if limit ≤ count then (false, m) else (true, m.insert ip (count + 1))

/-- `PerIpHandle::drop`. -/
def releaseHandle (ip : Nat) (m : Table Nat Nat) : Table Nat Nat :=
  match m.lookup ip with
  | none => m
  | some count =>
    let count := count - 1
    if count = 0 then m.erase ip else m.insert ip count

/-! ## States -/

/-- Where a session thread is.  `starting` lasts from the registration of the session until its
    thread runs. -/
inductive Phase
  | starting
  | serving
  | returned
  | unwinding
  | removed
  | terminated (panicked : Bool)
  deriving DecidableEq, Repr

/-- The removal step has not been run (a panicked thread never runs it). -/
def Phase.inRegistry : Phase → Bool
  | .starting | .serving | .returned | .unwinding | .terminated true => true
  | .removed | .terminated false => false

/-- The per-IP guard has not been dropped. -/
def Phase.holdsGuard : Phase → Bool
  | .starting | .serving | .returned | .unwinding | .removed => true
  | .terminated _ => false

structure SessionThread where
  cookie : Bytes
  ip : Nat
  phase : Phase
  deriving DecidableEq, Repr

/-- Where the accept thread is; it owns the registry lock in `holding` and `acquired`. -/
inductive LoopPc
  | waiting
  | cookieRead (cookie : Bytes) (ip : Nat)
  | holding (cookie : Bytes) (ip : Nat)
  | acquired (cookie : Bytes) (ip : Nat)
  | spawning (id : Nat)
  deriving DecidableEq, Repr

def LoopPc.holdsLock : LoopPc → Bool
  | .holding _ _ | .acquired _ _ => true
  | _ => false

/-- The guards of an address that the accept thread itself owns. -/
def LoopPc.guardsOf (pc : LoopPc) (ip : Nat) : Nat :=
  match pc with
  | .acquired _ ip' => if ip' = ip then 1 else 0
  | _ => 0

/-- The whole server: registry entries point to session ids, positions in `threads`. -/
structure AcceptLoop where
  registry : Table Bytes Nat
  perIp : Table Nat Nat
  threads : List SessionThread
  pc : LoopPc

/-! ## Steps -/

inductive LoopAct
  | connect (cookie : Except IoError Bytes) (ip : Nat)
  | lockRegistry
  | dispatch
  | register
  | spawnThread
  | finish (id : Nat) (r : Except Stop Nat)
  | removeEntry (id : Nat)
  | dropGuard (id : Nat)

namespace AcceptLoop

/-- Move session thread `id`, currently `t`, to phase `ph`. -/
def setPhase (s : AcceptLoop) (id : Nat) (t : SessionThread) (ph : Phase) : AcceptLoop :=
  { s with threads := s.threads.set id { t with phase := ph } }

/-- How `serve_session_from_channel` left. -/
def afterServe : Except Stop Nat → Phase
  | .ok _ => .returned
  | .error (.io _) => .returned
  | .error (.panic _) => .unwinding

/-- The `if`-chain under the registry lock: an existing session gets the stream, a full registry or
    a full per-IP quota is answered with `AccessDenied`, anyone else gets a handle. -/
def dispatch (maxConcurrent : Nat) (cookie : Bytes) (ip : Nat) (s : AcceptLoop) : AcceptLoop :=
  if (s.registry.lookup cookie).isSome then { s with pc := .waiting }
  else if maxConcurrent ≤ s.registry.size then { s with pc := .waiting }
  else
    match tryAcquire ip perIpSessionCap s.perIp with
    | (false, perIp) => { s with perIp := perIp, pc := .waiting }
    | (true, perIp) => { s with perIp := perIp, pc := .acquired cookie ip }

/-- One atomic step of the accept thread or of a session thread. -/
def step (maxConcurrent : Nat) (a : LoopAct) (s : AcceptLoop) : Option AcceptLoop :=
  match a with
  | .connect cookie ip =>
    if s.pc = .waiting then
      match cookie with
      | .ok c => some { s with pc := .cookieRead c ip }
      | .error _ => some s
    else none
  | .lockRegistry =>
    match s.pc with
    | .cookieRead c ip => some { s with pc := .holding c ip }
    | _ => none
  | .dispatch =>
    match s.pc with
    | .holding c ip => some (s.dispatch maxConcurrent c ip)
    | _ => none
  | .register =>
    match s.pc with
    | .acquired c ip =>
      some { s with
        registry := s.registry.insert c s.threads.length
        threads := s.threads ++ [⟨c, ip, .starting⟩]
        pc := .spawning s.threads.length }
    | _ => none
  | .spawnThread =>
    match s.pc with
    | .spawning id =>
      (s.threads[id]?).bind fun t => some { s.setPhase id t .serving with pc := .waiting }
    | _ => none
  | .finish id r =>
    (s.threads[id]?).bind fun t =>
      if t.phase = .serving then some (s.setPhase id t (afterServe r)) else none
  | .removeEntry id =>
    (s.threads[id]?).bind fun t =>
      if t.phase = .returned ∧ s.pc.holdsLock = false then
        some { s.setPhase id t .removed with registry := s.registry.erase t.cookie }
      else none
  | .dropGuard id =>
    (s.threads[id]?).bind fun t =>
      if t.phase = .removed then
        some { s.setPhase id t (.terminated false) with perIp := releaseHandle t.ip s.perIp }
      else if t.phase = .unwinding then
        some { s.setPhase id t (.terminated true) with perIp := releaseHandle t.ip s.perIp }
      else none

/-- Nothing registered, nobody served. -/
def empty : AcceptLoop := ⟨∅, ∅, [], .waiting⟩

/-- The server with a given `max_concurrent`. -/
def system (maxConcurrent : Nat) : System AcceptLoop LoopAct where
  init s := s = empty
  step := step maxConcurrent

/-- The undropped guards of an address that session threads own. -/
def threadGuards (threads : List SessionThread) (ip : Nat) : Nat :=
  threads.countP fun t => t.phase.holdsGuard && t.ip == ip

/-- All undropped guards of an address; the accept thread owns the one it has just acquired. -/
def guards (s : AcceptLoop) (ip : Nat) : Nat := threadGuards s.threads ip + s.pc.guardsOf ip

end AcceptLoop

/-! ## Acquiring and releasing a handle -/

/-- `m` holds the number of guards `g` of `ip`, and no zero. -/
def HoldsCount (m : Table Nat Nat) (ip g : Nat) : Prop :=
  m.lookup ip = if g = 0 then none else some g

/-- A handle is given out below the limit; it counts for its own address only. -/
theorem tryAcquire_spec {m : Table Nat Nat} {ip limit g : Nat} (hlimit : 0 < limit)
    (h : HoldsCount m ip g) :
    (limit ≤ g ∧ tryAcquire ip limit m = (false, m)) ∨
    (g < limit ∧ (tryAcquire ip limit m).1 = true ∧
      HoldsCount (tryAcquire ip limit m).2 ip (g + 1) ∧
      ∀ ip' ≠ ip, (tryAcquire ip limit m).2.lookup ip' = m.lookup ip') := by
  unfold HoldsCount at h
  unfold tryAcquire
  by_cases hg : g = 0
  · -- first guard of this address: `or_insert(0)` creates the entry
    rw [if_pos hg] at h
    have hlookup : ((m.insert ip 0).lookup ip).getD 0 = 0 := by rw [AList.lookup_insert]; rfl
    refine Or.inr ⟨by omega, ?_⟩
    simp only [h, Option.isNone_none, if_true, hlookup, if_neg (Nat.not_le.mpr hlimit), true_and]
    constructor
    · rw [HoldsCount, AList.lookup_insert, if_neg (Nat.succ_ne_zero g), hg]
    · intro ip' hne
      rw [AList.lookup_insert_ne hne, AList.lookup_insert_ne hne]
  · rw [if_neg hg] at h
    simp only [h, Option.isNone_some, Bool.false_eq_true, if_false, Option.getD_some]
    by_cases hfull : limit ≤ g
    · exact Or.inl ⟨hfull, if_pos hfull⟩
    · refine Or.inr ⟨Nat.not_le.mp hfull, ?_⟩
      simp only [if_neg hfull, true_and]
      constructor
      · rw [HoldsCount, AList.lookup_insert, if_neg (Nat.succ_ne_zero g)]
      · intro ip' hne
        exact AList.lookup_insert_ne hne

/-- Dropping a counted guard takes one off its own address, and the entry with the last one. -/
theorem releaseHandle_spec {m : Table Nat Nat} {ip g : Nat} (h : HoldsCount m ip (g + 1)) :
    HoldsCount (releaseHandle ip m) ip g ∧
      ∀ ip' ≠ ip, (releaseHandle ip m).lookup ip' = m.lookup ip' := by
  rw [HoldsCount, if_neg (Nat.succ_ne_zero g)] at h
  unfold releaseHandle
  simp only [h, Nat.add_sub_cancel]
  by_cases hg : g = 0
  · rw [if_pos hg, HoldsCount, if_pos hg]
    exact ⟨AList.lookup_erase ip m, fun ip' hne => AList.lookup_erase_ne hne⟩
  · rw [if_neg hg, HoldsCount, if_neg hg]
    exact ⟨AList.lookup_insert m, fun ip' hne => AList.lookup_insert_ne hne⟩

/-! ## The invariant -/

/-- What every reachable state satisfies. -/
structure LoopInv (maxConcurrent : Nat) (s : AcceptLoop) : Prop where
  entries : ∀ c id, s.registry.lookup c = some id ↔
    ∃ t, s.threads[id]? = some t ∧ t.cookie = c ∧ t.phase.inRegistry = true
  size_le : s.registry.size ≤ maxConcurrent
  room : ∀ c ip, s.pc = .acquired c ip →
    s.registry.lookup c = none ∧ s.registry.size < maxConcurrent
  counts : ∀ ip, HoldsCount s.perIp ip (s.guards ip)
  cap : ∀ ip, s.guards ip ≤ perIpSessionCap
  spawned : ∀ id, s.pc = .spawning id → ∃ t, s.threads[id]? = some t ∧ t.phase = .starting

namespace AcceptLoop

variable {maxConcurrent : Nat} {s : AcceptLoop}

theorem inv_empty (maxConcurrent : Nat) : LoopInv maxConcurrent empty where
  entries c id := by
    constructor
    · intro h
      cases h
    · rintro ⟨t, ht, -⟩
      cases ht
  size_le := Nat.zero_le _
  room c ip h := by cases h
  counts ip := rfl
  cap ip := Nat.zero_le _
  spawned id h := by cases h

/-- A step of the accept thread that touches neither map nor holds a handle. -/
theorem inv_setPc (h : LoopInv maxConcurrent s) {pc : LoopPc} (hold : ∀ c ip, s.pc ≠ .acquired c ip)
    (hacq : ∀ c ip, pc ≠ .acquired c ip) (hspawn : ∀ id, pc ≠ .spawning id) :
    LoopInv maxConcurrent { s with pc := pc } := by
  have hguards : ∀ ip, guards { s with pc := pc } ip = s.guards ip := by
    intro ip
    have hzero : ∀ pc' : LoopPc, (∀ c ip, pc' ≠ .acquired c ip) → pc'.guardsOf ip = 0 := by
      intro pc' hne
      cases pc' with
      | acquired c ip' => exact absurd rfl (hne c ip')
      | _ => rfl
    show threadGuards s.threads ip + pc.guardsOf ip = threadGuards s.threads ip + s.pc.guardsOf ip
    rw [hzero pc hacq, hzero s.pc hold]
  exact {
    entries := h.entries
    size_le := h.size_le
    room := fun c ip hpc => absurd hpc (hacq c ip)
    counts := fun ip => by rw [hguards]; exact h.counts ip
    cap := fun ip => by rw [hguards]; exact h.cap ip
    spawned := fun id hpc => absurd hpc (hspawn id) }

/-- A new session may start: its cookie is not registered, and there is room for it in the registry
    and in the quota of its address. -/
def HasRoom (maxConcurrent : Nat) (s : AcceptLoop) (c : Bytes) (ip : Nat) : Prop :=
  s.registry.lookup c = none ∧ s.registry.size < maxConcurrent ∧ s.guards ip < perIpSessionCap

/-- **What the decision comes to**: a handle if there is room, and otherwise nothing at all. -/
theorem dispatch_cases (h : LoopInv maxConcurrent s) (c : Bytes) (ip : Nat) :
    (HasRoom maxConcurrent s c ip ∧
      s.dispatch maxConcurrent c ip =
        { s with perIp := (tryAcquire ip perIpSessionCap s.perIp).2, pc := .acquired c ip }) ∨
    (¬ HasRoom maxConcurrent s c ip ∧
      s.dispatch maxConcurrent c ip = { s with pc := .waiting }) := by
  unfold dispatch
  by_cases hknown : (s.registry.lookup c).isSome
  · rw [if_pos hknown]
    refine .inr ⟨fun hroom => ?_, rfl⟩
    rw [hroom.1] at hknown
    cases hknown
  by_cases hfull : maxConcurrent ≤ s.registry.size
  · rw [if_neg hknown, if_pos hfull]
    exact .inr ⟨fun hroom => Nat.not_lt.mpr hfull hroom.2.1, rfl⟩
  rw [if_neg hknown, if_neg hfull]
  have hcap : 0 < perIpSessionCap := by decide
  rcases tryAcquire_spec hcap (h.counts ip) with ⟨hle, hno⟩ | ⟨hlt, hyes, -, -⟩
  · rw [hno]
    exact .inr ⟨fun hroom => Nat.not_lt.mpr hle hroom.2.2, rfl⟩
  · refine .inl ⟨⟨Option.not_isSome_iff_eq_none.mp hknown, Nat.not_le.mp hfull, hlt⟩, ?_⟩
    rcases hacq : tryAcquire ip perIpSessionCap s.perIp with ⟨b, perIp⟩
    rw [hacq] at hyes
    cases hyes
    rfl

/-- The decision under the lock. -/
theorem inv_dispatch (h : LoopInv maxConcurrent s) {c : Bytes} {ip : Nat}
    (hpc : s.pc = .holding c ip) : LoopInv maxConcurrent (s.dispatch maxConcurrent c ip) := by
  have hwait : LoopInv maxConcurrent { s with pc := .waiting } :=
    inv_setPc h (fun c' ip' heq => by rw [hpc] at heq; cases heq)
      (fun _ _ heq => by cases heq) (fun _ heq => by cases heq)
  rcases dispatch_cases h c ip with ⟨⟨hnone, hsize, hlt⟩, heq⟩ | ⟨-, heq⟩
  · rw [heq]
    have hcap : 0 < perIpSessionCap := by decide
    rcases tryAcquire_spec hcap (h.counts ip) with ⟨hle, -⟩ | ⟨-, -, hnew, hother⟩
    · exact absurd hlt (Nat.not_lt.mpr hle)
    -- the new handle counts as a guard of `ip`
    have hguards : ∀ ip', guards { s with
        perIp := (tryAcquire ip perIpSessionCap s.perIp).2, pc := .acquired c ip } ip' =
        s.guards ip' + if ip = ip' then 1 else 0 := by
      intro ip'
      show _ = threadGuards s.threads ip' + s.pc.guardsOf ip' + _
      rw [hpc]
      rfl
    exact {
      entries := h.entries
      size_le := h.size_le
      room := fun c' ip' heq => by
        cases heq
        exact ⟨hnone, hsize⟩
      counts := fun ip' => by
        rw [hguards]
        by_cases hip : ip = ip'
        · rw [if_pos hip, ← hip]
          exact hnew
        · rw [if_neg hip, Nat.add_zero]
          exact (hother ip' (Ne.symm hip)).trans (h.counts ip')
      cap := fun ip' => by
        rw [hguards]
        by_cases hip : ip = ip'
        · rw [if_pos hip, ← hip]
          exact hlt
        · rw [if_neg hip, Nat.add_zero]
          exact h.cap ip'
      spawned := fun id heq => by cases heq }
  · rw [heq]
    exact hwait

/-- The registry still mirrors the threads when a session is registered under a new cookie. -/
theorem entries_register (h : LoopInv maxConcurrent s) {c : Bytes}
    (hnone : s.registry.lookup c = none) (ip : Nat) (c' : Bytes) (id : Nat) :
    (s.registry.insert c s.threads.length).lookup c' = some id ↔
      ∃ t, (s.threads ++ [⟨c, ip, .starting⟩])[id]? = some t ∧ t.cookie = c' ∧
        t.phase.inRegistry = true := by
  rw [Pool.getElem?_start]
  by_cases hc : c' = c
  · subst hc
    rw [AList.lookup_insert]
    constructor
    · intro heq
      cases heq
      exact ⟨_, if_pos rfl, rfl, rfl⟩
    · rintro ⟨t, ht, hcookie, hreg⟩
      by_cases hid : id = s.threads.length
      · rw [hid]
      · -- an older thread with this cookie would already have an entry
        rw [if_neg hid] at ht
        have := (h.entries c' id).mpr ⟨t, ht, hcookie, hreg⟩
        rw [hnone] at this
        cases this
  · rw [AList.lookup_insert_ne hc, h.entries]
    constructor
    · rintro ⟨t, ht, hrest⟩
      have hid : id ≠ s.threads.length :=
        Nat.ne_of_lt (List.getElem?_eq_some_iff.mp ht).1
      exact ⟨t, by rw [if_neg hid]; exact ht, hrest⟩
    · rintro ⟨t, ht, hcookie, hreg⟩
      by_cases hid : id = s.threads.length
      · rw [if_pos hid] at ht
        cases ht
        exact absurd hcookie.symm hc
      · rw [if_neg hid] at ht
        exact ⟨t, ht, hcookie, hreg⟩

/-- Registration: the guard moves from the accept thread to the new session. -/
theorem inv_register (h : LoopInv maxConcurrent s) {c : Bytes} {ip : Nat}
    (hpc : s.pc = .acquired c ip) :
    LoopInv maxConcurrent { s with
      registry := s.registry.insert c s.threads.length
      threads := s.threads ++ [⟨c, ip, .starting⟩]
      pc := .spawning s.threads.length } := by
  obtain ⟨hnone, hroom⟩ := h.room c ip hpc
  have hguards : ∀ ip', guards { s with
      registry := s.registry.insert c s.threads.length
      threads := s.threads ++ [⟨c, ip, .starting⟩]
      pc := .spawning s.threads.length } ip' = s.guards ip' := by
    intro ip'
    show threadGuards (s.threads ++ [⟨c, ip, .starting⟩]) ip' + 0 =
      threadGuards s.threads ip' + s.pc.guardsOf ip'
    rw [hpc, threadGuards, List.countP_append, List.countP_singleton]
    simp only [Phase.holdsGuard, Bool.true_and, beq_iff_eq, Nat.add_zero]
    rfl
  exact {
    entries := entries_register h hnone ip
    size_le := by
      show Table.size (s.registry.insert c s.threads.length) ≤ maxConcurrent
      rw [Table.size_insert_of_lookup_none _ hnone]
      exact hroom
    room := fun c' ip' heq => by cases heq
    counts := fun ip' => by rw [hguards]; exact h.counts ip'
    cap := fun ip' => by rw [hguards]; exact h.cap ip'
    spawned := fun id heq => by
      cases heq
      exact ⟨_, List.getElem?_concat_length, rfl⟩ }

/-! ### Steps of session threads -/

/-- The guards of an address after thread `id` has moved on. -/
theorem guards_setPhase {id : Nat} {t : SessionThread} (ht : s.threads[id]? = some t) (ph : Phase)
    (ip : Nat) :
    (s.setPhase id t ph).guards ip + (if t.phase.holdsGuard && t.ip == ip then 1 else 0) =
      s.guards ip + (if ph.holdsGuard && t.ip == ip then 1 else 0) := by
  have h := Pool.countP_step ht { t with phase := ph } (fun t => t.phase.holdsGuard && t.ip == ip)
  show threadGuards (s.threads.set id { t with phase := ph }) ip + s.pc.guardsOf ip + _ =
    threadGuards s.threads ip + s.pc.guardsOf ip + _
  simp only [threadGuards] at h ⊢
  omega

/-- The registry still mirrors the threads when a thread keeps its registration. -/
theorem entries_setPhase (h : LoopInv maxConcurrent s) {id : Nat} {t : SessionThread}
    (ht : s.threads[id]? = some t) {ph : Phase} (hreg : ph.inRegistry = t.phase.inRegistry)
    (c : Bytes) (id' : Nat) :
    s.registry.lookup c = some id' ↔
      ∃ t', (s.setPhase id t ph).threads[id']? = some t' ∧ t'.cookie = c ∧
        t'.phase.inRegistry = true := by
  rw [h.entries]
  show _ ↔ ∃ t', (s.threads.set id { t with phase := ph })[id']? = some t' ∧ _
  rw [Pool.getElem?_step ht]
  by_cases hid : id' = id
  · subst hid
    rw [if_pos rfl, ht]
    constructor
    · rintro ⟨t', heq, hrest⟩
      cases heq
      exact ⟨_, rfl, hrest.1, hreg.trans hrest.2⟩
    · rintro ⟨t', heq, hrest⟩
      cases heq
      exact ⟨t, rfl, hrest.1, hreg.symm.trans hrest.2⟩
  · rw [if_neg hid]

/-- Another thread's lookup is not affected. -/
theorem spawned_setPhase (h : LoopInv maxConcurrent s) {id : Nat} {t : SessionThread}
    (ht : s.threads[id]? = some t) (hph : t.phase ≠ .starting) (ph : Phase) (id' : Nat)
    (hpc : s.pc = .spawning id') :
    ∃ t', (s.setPhase id t ph).threads[id']? = some t' ∧ t'.phase = .starting := by
  obtain ⟨t', ht', hstart⟩ := h.spawned id' hpc
  have hid : id' ≠ id := by
    rintro rfl
    rw [ht] at ht'
    cases ht'
    exact hph hstart
  refine ⟨t', ?_, hstart⟩
  show (s.threads.set id _)[id']? = some t'
  rw [Pool.getElem?_step ht, if_neg hid]
  exact ht'

/-- A thread that changes neither its registration nor its guard. -/
theorem inv_setPhase (h : LoopInv maxConcurrent s) {id : Nat} {t : SessionThread}
    (ht : s.threads[id]? = some t) {ph : Phase} (hreg : ph.inRegistry = t.phase.inRegistry)
    (hguard : ph.holdsGuard = t.phase.holdsGuard) (hph : t.phase ≠ .starting) :
    LoopInv maxConcurrent (s.setPhase id t ph) := by
  have hguards : ∀ ip, (s.setPhase id t ph).guards ip = s.guards ip := by
    intro ip
    have := guards_setPhase ht ph ip
    rw [hguard] at this
    omega
  exact {
    entries := entries_setPhase h ht hreg
    size_le := h.size_le
    room := h.room
    counts := fun ip => by rw [hguards]; exact h.counts ip
    cap := fun ip => by rw [hguards]; exact h.cap ip
    spawned := spawned_setPhase h ht hph ph }

/-- The new thread starts serving. -/
theorem inv_spawnThread (h : LoopInv maxConcurrent s) {id : Nat} (hpc : s.pc = .spawning id)
    {t : SessionThread} (ht : s.threads[id]? = some t) :
    LoopInv maxConcurrent { s.setPhase id t .serving with pc := .waiting } := by
  obtain ⟨t', ht', hstart⟩ := h.spawned id hpc
  rw [ht] at ht'
  cases ht'
  have hguards : ∀ ip,
      guards { s.setPhase id t .serving with pc := .waiting } ip = s.guards ip := by
    intro ip
    have hstep := guards_setPhase ht .serving ip
    rw [hstart] at hstep
    have hsame : guards { s.setPhase id t .serving with pc := .waiting } ip =
        (s.setPhase id t .serving).guards ip := by
      show _ = threadGuards (s.setPhase id t .serving).threads ip + s.pc.guardsOf ip
      rw [hpc]
      rfl
    rw [hsame]
    exact Nat.add_right_cancel hstep
  exact {
    entries := entries_setPhase h ht (by rw [hstart]; rfl)
    size_le := h.size_le
    room := fun c ip heq => by cases heq
    counts := fun ip => by rw [hguards]; exact h.counts ip
    cap := fun ip => by rw [hguards]; exact h.cap ip
    spawned := fun id' heq => by cases heq }

/-- The registry still mirrors the threads when a thread has removed its own entry. -/
theorem entries_remove (h : LoopInv maxConcurrent s) {id : Nat} {t : SessionThread}
    (ht : s.threads[id]? = some t) (hreg : t.phase.inRegistry = true) (c : Bytes) (id' : Nat) :
    (s.registry.erase t.cookie).lookup c = some id' ↔
      ∃ t', (s.setPhase id t .removed).threads[id']? = some t' ∧ t'.cookie = c ∧
        t'.phase.inRegistry = true := by
  have hown : s.registry.lookup t.cookie = some id :=
    (h.entries t.cookie id).mpr ⟨t, ht, rfl, hreg⟩
  show _ ↔ ∃ t', (s.threads.set id { t with phase := .removed })[id']? = some t' ∧ _
  rw [Pool.getElem?_step ht]
  by_cases hc : c = t.cookie
  · -- nobody else is registered under this cookie
    subst hc
    rw [AList.lookup_erase]
    constructor
    · intro heq
      cases heq
    · rintro ⟨t', ht', hcookie, hreg⟩
      by_cases hid : id' = id
      · rw [if_pos hid] at ht'
        cases ht'
        cases hreg
      · rw [if_neg hid] at ht'
        have hother := (h.entries t.cookie id').mpr ⟨t', ht', hcookie, hreg⟩
        rw [hown] at hother
        cases hother
        exact absurd rfl hid
  · rw [AList.lookup_erase_ne hc, h.entries]
    by_cases hid : id' = id
    · subst hid
      rw [if_pos rfl, ht]
      constructor
      · rintro ⟨t', heq, hcookie, -⟩
        cases heq
        exact absurd hcookie.symm hc
      · rintro ⟨t', heq, hcookie, -⟩
        cases heq
        exact absurd hcookie.symm hc
    · rw [if_neg hid]

/-- A returned thread removes its own entry. -/
theorem inv_removeEntry (h : LoopInv maxConcurrent s) {id : Nat} {t : SessionThread}
    (ht : s.threads[id]? = some t) (hph : t.phase = .returned) (hlock : s.pc.holdsLock = false) :
    LoopInv maxConcurrent
      { s.setPhase id t .removed with registry := s.registry.erase t.cookie } := by
  have hguards : ∀ ip, guards { s.setPhase id t .removed with
      registry := s.registry.erase t.cookie } ip = s.guards ip := by
    intro ip
    have := guards_setPhase ht .removed ip
    rw [hph] at this
    exact Nat.add_right_cancel this
  exact {
    entries := entries_remove h ht (by rw [hph]; rfl)
    size_le := Nat.le_trans (Table.size_erase_le _ _) h.size_le
    room := fun c ip heq => by
      have hpc : s.pc = .acquired c ip := heq
      rw [hpc] at hlock
      cases hlock
    counts := fun ip => by rw [hguards]; exact h.counts ip
    cap := fun ip => by rw [hguards]; exact h.cap ip
    spawned := spawned_setPhase h ht (by rw [hph]; exact fun heq => by cases heq) .removed }

/-- An undropped guard is counted. -/
theorem guards_pos (s : AcceptLoop) {id : Nat} {t : SessionThread} (ht : s.threads[id]? = some t)
    (hguard : t.phase.holdsGuard = true) : ∃ g, s.guards t.ip = g + 1 := by
  have hpos : 0 < s.threads.countP fun t' => t'.phase.holdsGuard && t'.ip == t.ip :=
    List.countP_pos_iff.mpr ⟨t, List.mem_of_getElem? ht, by simp [hguard]⟩
  exact Nat.exists_eq_add_one.mpr (Nat.lt_of_lt_of_le hpos (Nat.le_add_right _ _))

/-- A thread that ends drops its guard. -/
theorem inv_dropGuard (h : LoopInv maxConcurrent s) {id : Nat} {t : SessionThread}
    (ht : s.threads[id]? = some t) (hguard : t.phase.holdsGuard = true) {panicked : Bool}
    (hreg : (Phase.terminated panicked).inRegistry = t.phase.inRegistry)
    (hph : t.phase ≠ .starting) :
    LoopInv maxConcurrent
      { s.setPhase id t (.terminated panicked) with perIp := releaseHandle t.ip s.perIp } := by
  obtain ⟨g, hg⟩ := guards_pos s ht hguard
  have hcount := h.counts t.ip
  rw [hg] at hcount
  obtain ⟨hnew, hother⟩ := releaseHandle_spec hcount
  have hguards : ∀ ip, guards { s.setPhase id t (.terminated panicked) with
      perIp := releaseHandle t.ip s.perIp } ip + (if t.ip = ip then 1 else 0) = s.guards ip := by
    intro ip
    have hstep := guards_setPhase ht (.terminated panicked) ip
    rw [hguard] at hstep
    simp only [Phase.holdsGuard, Bool.true_and, Bool.false_and, beq_iff_eq, Bool.false_eq_true,
      if_false, Nat.add_zero] at hstep
    exact hstep
  exact {
    entries := entries_setPhase h ht hreg
    size_le := h.size_le
    room := h.room
    counts := fun ip => by
      have hip := hguards ip
      by_cases heq : t.ip = ip
      · subst heq
        rw [if_pos rfl, hg] at hip
        rw [Nat.add_right_cancel hip]
        exact hnew
      · rw [if_neg heq, Nat.add_zero] at hip
        rw [hip]
        exact (hother ip (Ne.symm heq)).trans (h.counts ip)
    cap := fun ip => by
      have hip := hguards ip
      have := h.cap ip
      omega
    spawned := spawned_setPhase h ht hph _ }

/-! ### The invariant holds in every reachable state -/

theorem inv_step (maxConcurrent : Nat) (a : LoopAct) (s s' : AcceptLoop)
    (h : LoopInv maxConcurrent s) (hstep : step maxConcurrent a s = some s') :
    LoopInv maxConcurrent s' := by
  cases a with
  | connect cookie ip =>
    simp only [step] at hstep
    split at hstep
    · rename_i hpc
      cases cookie with
      | error e => cases hstep; exact h
      | ok c =>
        cases hstep
        exact inv_setPc h (fun c' ip' heq => by rw [hpc] at heq; cases heq)
          (fun _ _ heq => by cases heq) (fun _ heq => by cases heq)
    · cases hstep
  | lockRegistry =>
    simp only [step] at hstep
    split at hstep
    · rename_i c ip hpc
      cases hstep
      exact inv_setPc h (fun c' ip' heq => by rw [hpc] at heq; cases heq)
        (fun _ _ heq => by cases heq) (fun _ heq => by cases heq)
    · cases hstep
  | dispatch =>
    simp only [step] at hstep
    split at hstep
    · rename_i c ip hpc
      cases hstep
      exact inv_dispatch h hpc
    · cases hstep
  | register =>
    simp only [step] at hstep
    split at hstep
    · rename_i c ip hpc
      cases hstep
      exact inv_register h hpc
    · cases hstep
  | spawnThread =>
    simp only [step] at hstep
    split at hstep
    · rename_i id hpc
      obtain ⟨t, ht, heq⟩ := Option.bind_eq_some_iff.mp hstep
      cases heq
      exact inv_spawnThread h hpc ht
    · cases hstep
  | finish id r =>
    obtain ⟨t, ht, heq⟩ := Option.bind_eq_some_iff.mp hstep
    split at heq
    · rename_i hph
      cases heq
      have hreg : (afterServe r).inRegistry = true ∧ (afterServe r).holdsGuard = true := by
        rcases r with (e | m) | n
        · exact ⟨rfl, rfl⟩
        · exact ⟨rfl, rfl⟩
        · exact ⟨rfl, rfl⟩
      exact inv_setPhase h ht (by rw [hreg.1, hph]; rfl) (by rw [hreg.2, hph]; rfl)
        (by rw [hph]; exact fun heq => by cases heq)
    · cases heq
  | removeEntry id =>
    obtain ⟨t, ht, heq⟩ := Option.bind_eq_some_iff.mp hstep
    split at heq
    · rename_i hph
      cases heq
      exact inv_removeEntry h ht hph.1 hph.2
    · cases heq
  | dropGuard id =>
    obtain ⟨t, ht, heq⟩ := Option.bind_eq_some_iff.mp hstep
    split at heq
    · rename_i hph
      cases heq
      exact inv_dropGuard h ht (by rw [hph]; rfl) (by rw [hph]; rfl)
        (by rw [hph]; exact fun heq => by cases heq)
    split at heq
    · rename_i hph
      cases heq
      exact inv_dropGuard h ht (by rw [hph]; rfl) (by rw [hph]; rfl)
        (by rw [hph]; exact fun heq => by cases heq)
    · cases heq

theorem inv_reachable {s : AcceptLoop} (h : (system maxConcurrent).Reachable s) :
    LoopInv maxConcurrent s :=
  h.invariant (fun s hs => by rw [show s = empty from hs]; exact inv_empty maxConcurrent)
    (inv_step maxConcurrent)

/-- **The registry invariant.**  In every reachable state, whatever cookies and addresses the peers
    use and however the threads interleave:

    * the registry is never above `max_concurrent`;
    * its entries are exactly the sessions that have not run their removal step, one per cookie, and
      a removal step deletes the thread's own entry and no other;
    * the per-IP map holds exactly the undropped guards, without zero entries and within the cap,
      and a dropped guard is always taken off a positive count. -/
theorem registry_invariant {s : AcceptLoop} (h : (system maxConcurrent).Reachable s) :
    s.registry.size ≤ maxConcurrent ∧
    (∀ c id, s.registry.lookup c = some id ↔
      ∃ t, s.threads[id]? = some t ∧ t.cookie = c ∧ t.phase.inRegistry = true) ∧
    (∀ c c' id, s.registry.lookup c = some id → s.registry.lookup c' = some id → c = c') ∧
    (∀ id s', step maxConcurrent (.removeEntry id) s = some s' →
      ∃ t, s.threads[id]? = some t ∧ s.registry.lookup t.cookie = some id ∧
        s'.registry.lookup t.cookie = none ∧
        ∀ c ≠ t.cookie, s'.registry.lookup c = s.registry.lookup c) ∧
    (∀ ip, s.perIp.lookup ip = if s.guards ip = 0 then none else some (s.guards ip)) ∧
    (∀ ip, s.guards ip ≤ perIpSessionCap) ∧
    (∀ id s', step maxConcurrent (.dropGuard id) s = some s' →
      ∃ t n, s.threads[id]? = some t ∧ s.perIp.lookup t.ip = some (n + 1)) := by
  have hinv := inv_reachable h
  refine ⟨hinv.size_le, hinv.entries, ?_, ?_, hinv.counts, hinv.cap, ?_⟩
  · intro c c' id hc hc'
    obtain ⟨t, ht, hcookie, -⟩ := (hinv.entries c id).mp hc
    obtain ⟨t', ht', hcookie', -⟩ := (hinv.entries c' id).mp hc'
    rw [ht] at ht'
    cases ht'
    exact hcookie.symm.trans hcookie'
  · intro id s' hstep
    obtain ⟨t, ht, heq⟩ := Option.bind_eq_some_iff.mp hstep
    split at heq
    · rename_i hph
      cases heq
      refine ⟨t, ht, ?_, AList.lookup_erase _ _, fun c hc => AList.lookup_erase_ne hc⟩
      exact (hinv.entries _ _).mpr ⟨t, ht, rfl, by rw [hph.1]; rfl⟩
    · cases heq
  · intro id s' hstep
    obtain ⟨t, ht, heq⟩ := Option.bind_eq_some_iff.mp hstep
    have hguard : t.phase.holdsGuard = true := by
      split at heq
      · rename_i hph
        rw [hph]
        rfl
      split at heq
      · rename_i hph
        rw [hph]
        rfl
      · cases heq
    obtain ⟨g, hg⟩ := guards_pos s ht hguard
    refine ⟨t, g, ht, ?_⟩
    rw [hinv.counts t.ip, hg]
    exact if_neg (Nat.succ_ne_zero g)

/-- Two clients of one address; the first one's session ends while the second one is served, and
    removes its entry. -/
def overlappingSessions : List LoopAct :=
  [.connect (.ok [1]) 7, .lockRegistry, .dispatch, .register, .spawnThread,
    .connect (.ok [2]) 7, .lockRegistry, .dispatch, .register, .spawnThread,
    .finish 0 (.ok 0)]

theorem registry_invariant_overlapping :
    ∃ s, (system 2).run overlappingSessions empty = some s ∧ s.guards 7 = 2 ∧
      s.registry.size ≤ 2 ∧ s.perIp.lookup 7 = some 2 ∧
      ∃ s', step 2 (.removeEntry 0) s = some s' ∧ s'.registry.lookup [1] = none ∧
        s'.registry.lookup [2] = s.registry.lookup [2] := by
  obtain ⟨s, hs, hfacts⟩ : ∃ s, (system 2).run overlappingSessions empty = some s ∧
      (s.guards 7, s.threads[0]?, (step 2 (.removeEntry 0) s).isSome) =
        (2, some ⟨[1], 7, .returned⟩, true) := Option.map_eq_some_iff.mp (by decide)
  obtain ⟨hguards, hrest⟩ := Prod.mk.inj hfacts
  obtain ⟨hthread, hremoves⟩ := Prod.mk.inj hrest
  have hreach : (system 2).Reachable s := System.reachable_iff_run.mpr ⟨empty, _, rfl, hs⟩
  obtain ⟨hsize, -, -, hremove, hperIp, -, -⟩ := registry_invariant hreach
  obtain ⟨s', hs'⟩ := Option.isSome_iff_exists.mp hremoves
  obtain ⟨t, ht, -, hgone, hothers⟩ := hremove 0 s' hs'
  rw [hthread] at ht
  cases ht
  have hcount := hperIp 7
  rw [hguards] at hcount
  exact ⟨s, hs, hguards, hsize, hcount, s', hs', hgone, hothers [2] (by decide)⟩

end AcceptLoop

end Rperf3
