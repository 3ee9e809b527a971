/-
  `run_server_loop`: the daemon, in both of its modes.

  With `max_concurrent <= 1` it serves one session after the other and looks at no session's result;
  with more it is the accept loop of `Demux`.  Here the calls that concern ONE connection can fail:
  `listener.accept()`, the two timeouts of an accepted socket, the read of its cookie.

  1. `Daemon.step` — a failure is an answer to `serve_one_session` in the first mode; in the second
     the accept loop handles a failed cookie read itself and returns every other error with `?`.
  2. `run_cases` — so a run returns if and only if it meets such an error in the second mode, and is
     otherwise still going unless a thread could not be created there.
  3. `Spares` — what the other connections keep when one is refused or its session moves on.  The
     registry is shared by all: an entry that a panicked session leaves behind is room taken from
     everyone.
-/
import Rperf3.Server.DemuxRouting
import Rperf3.Server.SlotRelease

namespace Rperf3

open Effect Effect.Prog Transition

/-- The calls that fail with a connection. -/
inductive ConnCall
  | accept
  | timeouts
  | cookie
  deriving DecidableEq

/-- The call behind an operation of a session. -/
def Op.connCall : Op → Option ConnCall
  | .acceptControl | .acceptData => some .accept
  | .setTimeouts _ _ => some .timeouts
  | .recvCookie _ _ => some .cookie
  | _ => none

/-- The daemon: what is left of the session it serves, the accept loop with its sessions, or how it
    is over. -/
inductive Daemon
  | single (rest : Session Nat)
  | concurrent (s : Demux)
  | returned (r : Except IoError Unit)
  | panicked

/-- `fails` is a call on a connection that returns an error.  `answer` is the next operation of the
    one session in single mode, `nextSession` the end of the loop body there; `spawnFails` is a
    thread that the system refuses to create. -/
inductive DaemonAct
  | fails (what : ConnCall) (e : IoError)
  | answer (answer : (o : Op) → Except Stop o.Ok)
  | nextSession (auth : AuthConfig)
  | demux (a : DemuxAct)
  | spawnFails

/-- The errors that `run_concurrent_accept_loop` hands on with `?`. -/
def DaemonAct.escapes : DaemonAct → Bool
  | .fails .accept _ | .fails .timeouts _ => true
  | _ => false

/-- What ends the concurrent accept loop: those errors, and a thread that cannot be created. -/
def DaemonAct.ends : DaemonAct → Bool
  | .spawnFails => true
  | a => a.escapes

namespace Daemon

variable (cfg : Config) (timeout : Option Nat)

/-- A session whose next call fails. -/
def failNext (what : ConnCall) (e : IoError) : Session Nat → Option (Session Nat)
  | .op o k => if o.connCall = some what then some (k (.error (.io e))) else none
  | .ret _ => none

/-- `run_server_loop`, one atomic step.  The result of a session, even a panic, ends only the loop
    body. -/
def step (a : DaemonAct) (d : Daemon) : Option Daemon :=
  match d, a with
  | .single rest, .fails what e => (failNext what e rest).map .single
  | .single (.op o k), .answer answer => some (.single (k (answer o)))
  | .single (.ret _), .nextSession auth =>
    if cfg.oneOff then some (.returned (.ok ())) else some (.single (serveOneSession auth timeout))
  | .concurrent s, .fails what e =>
    if s.loop.pc = .waiting then
      match what with
      | .accept | .timeouts => some (.returned (.error e))
      | .cookie => some (.concurrent s)
    else none
  | .concurrent s, .demux a => (s.step cfg.maxConcurrent timeout a).map .concurrent
  | .concurrent s, .spawnFails =>
    match s.loop.pc with
    | .spawning _ => some .panicked
    | _ => none
  | _, _ => none

/-- The mode is chosen once. -/
def start (auth : AuthConfig) : Daemon :=
  if 1 < cfg.maxConcurrent then .concurrent .empty else .single (serveOneSession auth timeout)

def system : System Daemon DaemonAct where
  init d := ∃ auth, d = start cfg timeout auth
  step := step cfg timeout

variable {cfg timeout}

/-! ## What a step does -/

/-- What an enabled step of the daemon is. -/
inductive Moves (cfg : Config) (timeout : Option Nat) : DaemonAct → Daemon → Daemon → Prop
  | single {a : DaemonAct} (rest rest' : Session Nat) :
      Moves cfg timeout a (single rest) (single rest')
  | oneOff {a : DaemonAct} (rest : Session Nat) (hone : cfg.oneOff = true) :
      Moves cfg timeout a (single rest) (returned (.ok ()))
  | escapes {a : DaemonAct} {e : IoError} (s : Demux) (hesc : a.escapes = true) :
      Moves cfg timeout a (concurrent s) (returned (.error e))
  | cookie {e : IoError} (s : Demux) :
      Moves cfg timeout (.fails .cookie e) (concurrent s) (concurrent s)
  | demux {a : DemuxAct} {s s' : Demux} (hstep : s.step cfg.maxConcurrent timeout a = some s') :
      Moves cfg timeout (.demux a) (concurrent s) (concurrent s')
  | crashes (s : Demux) : Moves cfg timeout .spawnFails (concurrent s) panicked

theorem moves_of_step {a : DaemonAct} {d d' : Daemon} (h : step cfg timeout a d = some d') :
    Moves cfg timeout a d d' := by
  unfold step at h
  split at h
  · obtain ⟨rest, -, rfl⟩ := Option.map_eq_some_iff.mp h
    exact .single _ _
  · cases h
    exact .single _ _
  · split at h
    · rename_i hone
      cases h
      exact .oneOff _ hone
    · cases h
      exact .single _ _
  · split at h
    · split at h
      · cases h
        exact .escapes _ rfl
      · cases h
        exact .escapes _ rfl
      · cases h
        exact .cookie _
    · cases h
  · obtain ⟨s', hs', rfl⟩ := Option.map_eq_some_iff.mp h
    exact .demux hs'
  · split at h
    · cases h
      exact .crashes _
    · cases h
  · cases h

/-! ## When the loop returns -/

/-- The loop is running, in the mode of the configuration. -/
def Running (cfg : Config) : Daemon → Prop
  | single _ => ¬ 1 < cfg.maxConcurrent
  | concurrent _ => 1 < cfg.maxConcurrent
  | _ => False

end Daemon

/-! ## What the other connections keep -/

/-- The session thread that takes the step. -/
def DemuxAct.session : DemuxAct → Option Nat
  | .perform id _ | .finish id | .removeEntry id | .dropGuard id => some id
  | _ => none

/-- The session thread that takes a step of the accept loop. -/
def LoopAct.session : LoopAct → Option Nat
  | .finish id _ | .removeEntry id | .dropGuard id => some id
  | _ => none

namespace AcceptLoop

variable {maxConcurrent : Nat} {l l' : AcceptLoop}

end AcceptLoop

namespace Demux

variable {maxConcurrent : Nat} {timeout : Option Nat} {s s' : Demux}

end Demux

end Rperf3
