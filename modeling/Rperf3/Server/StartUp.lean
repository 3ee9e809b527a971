/-
  START-UP: which files gate the sessions of a process.

  `AUTH_CONFIG` is a `OnceLock`: the first `set_auth_config` of the process decides, every later
  call is silently ignored.  `run_server` calls it only with both paths, and refuses to start when
  `--require-auth` is given without them; but whether a session is gated is decided when its
  `check_auth` reads the cell.

  A process is any order of `set_auth_config` and `run_server` calls and of `check_auth`s by the
  servers that have started.

  1. `firstConfigured` — the cell holds what the first configuring call gave (`Holds`).
  2. `require_auth_gates_iff` — so a check by a server started with `--require-auth` is gated iff
     that FIRST call gave both paths; and then by that call's files, not necessarily by the server's
     own.
-/
import Rperf3.Lib.Transition
import Rperf3.Server.AuthGate
import Rperf3.Server.Logins

namespace Rperf3

open Effect Effect.Prog Transition

/-! ## `AUTH_CONFIG` -/

/-- The `OnceLock` with its two optional paths. -/
abbrev AuthCell := Option (Option String × Option String)

/-- `set_auth_config`. -/
def setAuthConfig (privKey authorized : Option String) : AuthCell → AuthCell
  | some paths => some paths
  | none => some (privKey, authorized)

/-- The `let … else` of `check_auth`: both paths, or no check at all. -/
def authPaths : AuthCell → Option (String × String)
  | some (some pkPath, some usersPath) => some (pkPath, usersPath)
  | _ => none

/-! ## `run_server` -/

/-- What `run_server` reads of the configuration before its accept loop. -/
structure ServerArgs where
  host : String
  port : Nat
  rsaPrivateKey : Option String
  authorizedUsers : Option String
  requireAuth : Bool
  deriving DecidableEq

def ServerArgs.authConfigured (args : ServerArgs) : Bool :=
  args.rsaPrivateKey.isSome && args.authorizedUsers.isSome

/-- `is_loopback_bind`; `parseIp` tells of an address literal whether it is a loopback address. -/
def isLoopbackBind (parseIp : String → Option Bool) (host : String) : Bool :=
  match parseIp host with
  | some loopback => loopback
  | none => host == "localhost"

/-- How `run_server` begins: what it prints, whether it goes on to its accept loop, and the cell. -/
structure StartUp where
  printed : List String
  serving : Bool
  authConfig : AuthCell

def publicBindWarning (host : String) : String :=
  "WARNING: server bound to " ++ host ++ " with no authentication configured. " ++
    "Any reachable peer can run tests. " ++
    "Pass --rsa-private-key + --authorized-users (and --require-auth) " ++
    "or bind to 127.0.0.1 for testing."

/-- `run_server` up to `run_server_loop`; `bound` is the outcome of `TcpListener::bind`. -/
def runServer (parseIp : String → Option Bool) (bound : Except String Unit) (args : ServerArgs)
    (cell : AuthCell) : StartUp :=
  let cell :=
    if args.authConfigured then setAuthConfig args.rsaPrivateKey args.authorizedUsers cell else cell
  if args.requireAuth && !args.authConfigured then
    ⟨["ERROR: --require-auth set but --rsa-private-key and --authorized-users are not both " ++
      "configured; refusing to start"], false, cell⟩
  else
    let warning :=
      if !args.authConfigured && !isLoopbackBind parseIp args.host then
        [publicBindWarning args.host]
      else []
    match bound with
    | .error e =>
      ⟨warning ++ ["failed to bind " ++ args.host ++ s!":{args.port}: " ++ e], false, cell⟩
    | .ok () => ⟨warning ++ [s!"Server listening on {args.port}"], true, cell⟩

/-- A server that serves with `--require-auth` has both paths. -/
theorem runServer_serving {parseIp : String → Option Bool} {bound : Except String Unit}
    {args : ServerArgs} {cell : AuthCell} (h : (runServer parseIp bound args cell).serving = true)
    (hreq : args.requireAuth = true) : args.authConfigured = true := by
  cases hconf : args.authConfigured with
  | true => rfl
  | false =>
    unfold runServer at h
    rw [hreq, hconf] at h
    cases h

theorem runServer_authConfig (parseIp : String → Option Bool) (bound : Except String Unit)
    (args : ServerArgs) (cell : AuthCell) :
    (runServer parseIp bound args cell).authConfig =
      if args.authConfigured then setAuthConfig args.rsaPrivateKey args.authorizedUsers cell
      else cell := by
  unfold runServer
  dsimp only
  split
  · rfl
  · split
    · rfl
    · rfl

/-! ## A process -/

/-- The cell, the servers that have started, and the checks made so far: by which server, and with
    which files. -/
structure Process where
  authConfig : AuthCell
  servers : List ServerArgs
  checks : List (ServerArgs × Option (String × String))

inductive ProcessAct
  | setAuthConfig (privKey authorized : Option String)
  | runServer (args : ServerArgs) (bound : Except String Unit)
  /-- Server number `i` checks a session. -/
  | checkAuth (i : Nat)

namespace Process

def start : Process := ⟨none, [], []⟩

def step (parseIp : String → Option Bool) : ProcessAct → Process → Option Process
  | .setAuthConfig privKey authorized, p =>
    some { p with authConfig := setAuthConfig privKey authorized p.authConfig }
  | .runServer args bound, p =>
    let up := runServer parseIp bound args p.authConfig
    some { p with
      authConfig := up.authConfig
      servers := if up.serving then p.servers ++ [args] else p.servers }
  | .checkAuth i, p =>
    (p.servers[i]?).map fun args =>
      { p with checks := p.checks ++ [(args, authPaths p.authConfig)] }

def system (parseIp : String → Option Bool) : System Process ProcessAct where
  init p := p = start
  step := step parseIp

end Process

/-- The paths a call would put into an empty cell. -/
def ProcessAct.configures : ProcessAct → AuthCell
  | .setAuthConfig privKey authorized => some (privKey, authorized)
  | .runServer args _ =>
    if args.authConfigured then some (args.rsaPrivateKey, args.authorizedUsers) else none
  | .checkAuth _ => none

/-- What the first configuring call of a process gave. -/
def firstConfigured (acts : List ProcessAct) : AuthCell := acts.findSome? ProcessAct.configures

theorem firstConfigured_concat (acts : List ProcessAct) (a : ProcessAct) :
    firstConfigured (acts ++ [a]) = (firstConfigured acts).or a.configures := by
  unfold firstConfigured
  rw [List.findSome?_append]
  cases h : a.configures with
  | none => simp [h]
  | some paths => simp [h]

/-- The first call stays the first. -/
theorem firstConfigured_concat_of_isSome {acts : List ProcessAct} (a : ProcessAct)
    (h : (firstConfigured acts).isSome = true) :
    firstConfigured (acts ++ [a]) = firstConfigured acts := by
  rw [firstConfigured_concat]
  obtain ⟨paths, hpaths⟩ := Option.isSome_iff_exists.mp h
  rw [hpaths, Option.some_or]

theorem setAuthConfig_eq_or (privKey authorized : Option String) (cell : AuthCell) :
    setAuthConfig privKey authorized cell = cell.or (some (privKey, authorized)) := by
  cases cell with
  | none => rfl
  | some paths => rfl

namespace Process

variable {parseIp : String → Option Bool} {acts : List ProcessAct} {p p' : Process}

/-- What a process has come to after the actions `acts`. -/
structure Holds (acts : List ProcessAct) (p : Process) : Prop where
  cell : p.authConfig = firstConfigured acts
  required : ∀ args ∈ p.servers, args.requireAuth = true → (firstConfigured acts).isSome = true
  checks : ∀ args paths, (args, paths) ∈ p.checks → args.requireAuth = true →
    (firstConfigured acts).isSome = true ∧ paths = authPaths (firstConfigured acts)

theorem Holds.step (h : Holds acts p) {a : ProcessAct}
    (hstep : (system parseIp).step a p = some p') : Holds (acts ++ [a]) p' := by
  -- what was configured stays configured, with the same paths
  have hkept : ∀ args paths, (args, paths) ∈ p.checks → args.requireAuth = true →
      (firstConfigured (acts ++ [a])).isSome = true ∧
        paths = authPaths (firstConfigured (acts ++ [a])) := by
    intro args paths hmem hreq
    obtain ⟨hsome, hpaths⟩ := h.checks args paths hmem hreq
    rw [firstConfigured_concat_of_isSome a hsome]
    exact ⟨hsome, hpaths⟩
  have hservers : ∀ args ∈ p.servers, args.requireAuth = true →
      (firstConfigured (acts ++ [a])).isSome = true := by
    intro args hmem hreq
    rw [firstConfigured_concat_of_isSome a (h.required args hmem hreq)]
    exact h.required args hmem hreq
  cases a with
  | setAuthConfig privKey authorized =>
    cases hstep
    refine ⟨?_, hservers, hkept⟩
    rw [firstConfigured_concat, ← h.cell]
    exact setAuthConfig_eq_or _ _ _
  | runServer args bound =>
    cases hstep
    have hcell : (runServer parseIp bound args p.authConfig).authConfig =
        firstConfigured (acts ++ [.runServer args bound]) := by
      rw [firstConfigured_concat, runServer_authConfig, ← h.cell]
      cases hconf : args.authConfigured with
      | true =>
        rw [ProcessAct.configures, hconf, if_pos rfl, if_pos rfl]
        exact setAuthConfig_eq_or _ _ _
      | false =>
        rw [ProcessAct.configures, hconf, if_neg Bool.false_ne_true, if_neg Bool.false_ne_true,
          Option.or_none]
    refine ⟨hcell, ?_, hkept⟩
    intro args' hmem hreq
    dsimp only at hmem
    split at hmem
    · rename_i hserving
      rcases List.mem_append.mp hmem with hold | hnew
      · exact hservers args' hold hreq
      · -- a server that insists on authentication has just configured it, or found it configured
        obtain rfl := List.mem_singleton.mp hnew
        rw [firstConfigured_concat, ProcessAct.configures,
          if_pos (runServer_serving hserving hreq), Option.isSome_or]
        exact Bool.or_true _
    · exact hservers args' hmem hreq
  | checkAuth i =>
    obtain ⟨args, hargs, hp'⟩ := Option.map_eq_some_iff.mp
      (show (p.servers[i]?).map _ = some p' from hstep)
    subst hp'
    have hsame : firstConfigured (acts ++ [.checkAuth i]) = firstConfigured acts := by
      rw [firstConfigured_concat]
      exact Option.or_none
    refine ⟨h.cell.trans hsame.symm, hservers, ?_⟩
    intro args' paths hmem hreq
    rcases List.mem_append.mp hmem with hold | hnew
    · exact hkept args' paths hold hreq
    · obtain ⟨rfl, rfl⟩ := Prod.mk.inj (List.mem_singleton.mp hnew)
      rw [hsame, h.cell]
      exact ⟨h.required _ (List.mem_of_getElem? hargs) hreq, rfl⟩

theorem holds (h : (system parseIp).run acts start = some p) : Holds acts p := by
  refine System.run_history _ ?_ (fun as a s t hs hstep => hs.step hstep) h
  exact ⟨rfl, fun args hmem => absurd hmem List.not_mem_nil,
    fun args paths hmem => absurd hmem List.not_mem_nil⟩

end Process

/-! ## What a gated session has shown -/

/-- `check_auth` with the files at the two paths, at the clocks and the cache of this session. -/
def gateWith {K D : Type} [DecidableEq D] (C : Crypto K D) (F : KeyFormats K)
    (files : String → SecretFile) (wall : Int) (now : Nat) (cache : NonceCache D)
    (paths : Option (String × String)) : AuthConfig :=
  paths.map fun (key, users) opts =>
    (checkAuthInner C (Login.attempt F ⟨files key, files users, opts, wall, now⟩) cache).1

/-- A session that gets past the gate has been admitted. -/
theorem admitted_of_gated {entry : Entry} {auth : AuthConfig} {cookie : Bytes}
    {timeout : Option Nat} {tr : Transcript} {r : Except Stop Nat}
    (hrun : Exec (sessionProgram entry auth cookie timeout) tr r)
    (hgated : ∃ ev ∈ tr, ev.1.gated = true) :
    ∃ opts, receivedOptions tr = some opts ∧ admitted auth opts := by
  obtain ⟨pre, body, rfl, hpre, hbody⟩ := exec_sessionProgram hrun
  obtain ⟨hrec, -, hungated⟩ := setup_silent body hpre
  obtain ⟨ev, hev, hg⟩ := hgated
  have hbodyEv : ev ∈ body := by
    rcases List.mem_append.mp hev with hev | hev
    · rw [hungated ev hev] at hg
      cases hg
    · exact hev
  rw [hrec]
  rcases hbody with ⟨rfl, e, rfl⟩ | ⟨cookie', hbody⟩
  · exact absurd hbodyEv List.not_mem_nil
  rcases exec_sessionBody_cases hbody with ⟨-, hno⟩ | hok | ⟨opts, a, e, -, -, rfl⟩
  · rw [hno ev hbodyEv] at hg
    cases hg
  · exact hok
  · -- a rejected session has only greeted and refused
    rw [refusal_ungated hbodyEv] at hg
    cases hg

/-- Without direct calls of `set_auth_config`, the first configuring call was a `run_server`. -/
theorem firstConfigured_runServer {acts : List ProcessAct}
    (hindirect : ∀ key users, ProcessAct.setAuthConfig key users ∉ acts)
    (h : (firstConfigured acts).isSome = true) :
    ∃ args bound key users, ProcessAct.runServer args bound ∈ acts ∧
      args.rsaPrivateKey = some key ∧ args.authorizedUsers = some users ∧
      firstConfigured acts = some (some key, some users) := by
  obtain ⟨paths, hpaths⟩ := Option.isSome_iff_exists.mp h
  obtain ⟨a, hmem, hconf⟩ := List.exists_of_findSome?_eq_some hpaths
  cases a with
  | setAuthConfig key users => exact absurd hmem (hindirect key users)
  | checkAuth i => cases hconf
  | runServer args bound =>
    rw [ProcessAct.configures] at hconf
    split at hconf
    · rename_i hboth
      obtain ⟨hkey, husers⟩ := Bool.and_eq_true_iff.mp hboth
      obtain ⟨key, hkey⟩ := Option.isSome_iff_exists.mp hkey
      obtain ⟨users, husers⟩ := Option.isSome_iff_exists.mp husers
      refine ⟨args, bound, key, users, hmem, hkey, husers, ?_⟩
      rw [hpaths, ← hconf, hkey, husers]
    · cases hconf

/-- **`--require-auth` gates, exactly.**  In every run of a process, whenever a server that was
    started with `--require-auth` checks a session: the check looks at a token iff the FIRST
    configuring call of the process gave both paths, and then at that call's files; if nobody calls
    `set_auth_config` directly, that call was a `run_server` (which may have failed to bind), and
    both paths are there; and a session so checked, whichever of its calls fail, sends, binds and
    accepts nothing unless `check_auth_inner` has accepted its token with these files. -/
theorem require_auth_gates_iff {K D : Type} [DecidableEq D] (C : Crypto K D) (F : KeyFormats K)
    (parseIp : String → Option Bool) (acts : List ProcessAct) (p : Process)
    (hrun : (Process.system parseIp).run acts Process.start = some p) {args : ServerArgs}
    {paths : Option (String × String)} (hcheck : (args, paths) ∈ p.checks)
    (hreq : args.requireAuth = true) :
    (∀ key users, paths = some (key, users) ↔ firstConfigured acts = some (some key, some users)) ∧
    ((∀ key users, ProcessAct.setAuthConfig key users ∉ acts) →
      ∃ args' bound key users, ProcessAct.runServer args' bound ∈ acts ∧
        args'.rsaPrivateKey = some key ∧ args'.authorizedUsers = some users ∧
        paths = some (key, users)) ∧
    ∀ key users, paths = some (key, users) →
      ∀ files wall now cache entry cookie timeout tr r,
        Exec (sessionProgram entry (gateWith C F files wall now cache paths) cookie timeout) tr r →
        (∃ ev ∈ tr, ev.1.gated = true) →
        ∃ opts, receivedOptions tr = some opts ∧ validateOptions opts = .ok () ∧
          (checkAuthInner C (Login.attempt F ⟨files key, files users, opts, wall, now⟩) cache).1
            = .ok () := by
  obtain ⟨hsome, rfl⟩ := (Process.holds hrun).checks args paths hcheck hreq
  have hboth : ∀ key users, authPaths (firstConfigured acts) = some (key, users) ↔
      firstConfigured acts = some (some key, some users) := by
    intro key users
    constructor
    · intro h
      unfold authPaths at h
      split at h
      · rename_i hfirst
        cases h
        exact hfirst
      · cases h
    · intro h
      rw [h]
      rfl
  refine ⟨hboth, fun hindirect => ?_, ?_⟩
  · obtain ⟨args', bound, key, users, hmem, hkey, husers, hfirst⟩ :=
      firstConfigured_runServer hindirect hsome
    exact ⟨args', bound, key, users, hmem, hkey, husers, (hboth key users).mpr hfirst⟩
  · intro key users hpaths files wall now cache entry cookie timeout tr r hexec hgated
    obtain ⟨opts, hopts, hvalid, hauth⟩ := admitted_of_gated hexec hgated
    rw [hpaths] at hauth
    exact ⟨opts, hopts, hvalid, hauth _ rfl⟩

/-- A server that insists on its own files. -/
def strictArgs (key users : String) : ServerArgs := ⟨"0.0.0.0", 5201, some key, some users, true⟩

/-- Two servers in one process; the second checks a session. -/
def twoStrictServers : List ProcessAct :=
  [.runServer (strictArgs "a.pem" "a.users") (.ok ()),
    .runServer (strictArgs "b.pem" "b.users") (.ok ()), .checkAuth 1]

/-- The second server's sessions are checked with the first one's files. -/
theorem require_auth_gates_iff_second :
    ∃ p, (Process.system fun _ => none).run twoStrictServers Process.start = some p ∧
      (strictArgs "b.pem" "b.users", some ("a.pem", "a.users")) ∈ p.checks ∧
      ∃ args' bound, ProcessAct.runServer args' bound ∈ twoStrictServers ∧
        args'.rsaPrivateKey = some "a.pem" := by
  obtain ⟨p, hrun, hchecks⟩ : ∃ p,
      (Process.system fun _ => none).run twoStrictServers Process.start = some p ∧
        p.checks = [(strictArgs "b.pem" "b.users", some ("a.pem", "a.users"))] := ⟨_, rfl, rfl⟩
  have hmem : (strictArgs "b.pem" "b.users", some ("a.pem", "a.users")) ∈ p.checks := by
    rw [hchecks]
    exact List.mem_singleton_self _
  have hindirect : ∀ key users, ProcessAct.setAuthConfig key users ∉ twoStrictServers := by
    intro key users h
    simp [twoStrictServers] at h
  obtain ⟨-, hfrom, -⟩ :=
    require_auth_gates_iff edgeCrypto anyText (fun _ => none) twoStrictServers p hrun hmem rfl
  obtain ⟨args', bound, key, users, hcall, hkey, -, hpaths⟩ := hfrom hindirect
  obtain ⟨rfl, -⟩ := Prod.mk.inj (Option.some.inj hpaths)
  exact ⟨p, hrun, hmem, args', bound, hcall, hkey⟩

/-- An incomplete pair in the cell: the same server checks no token at all. -/
example : ((Process.system fun _ => none).run [.setAuthConfig none none,
    .runServer (strictArgs "a.pem" "a.users") (.ok ()), .checkAuth 0] Process.start).map
      Process.checks = some [(strictArgs "a.pem" "a.users", none)] := rfl

end Rperf3
