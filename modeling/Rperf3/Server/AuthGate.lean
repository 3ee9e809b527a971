/-
  The AUTHENTICATION GATE of both session drivers.

  A transcript is the list of operations a driver performed with their answers.  Over ALL
  transcripts — any options received, any key, user file, clock and replay-cache state, any
  behaviour of sockets and threads, control writes succeeding —

  1. a gated operation (any control byte after admission, binding the UDP socket, taking a data
     stream) occurs only if `validate_options` and `check_auth_inner` both accepted the options;
  2. otherwise the session writes `ParamExchange`, `AccessDenied` and nothing else, and fails; its
     transcript does not depend on which check failed, nor why.
-/
import Rperf3.Common.Auth
import Rperf3.Server.Session

namespace Rperf3

open Effect Effect.Prog

/-- A session's transcript. -/
abbrev Transcript := List (Event Op Op.Ok Stop)

/-! ## Reading transcripts -/

/-- The options the session received: the first answer to `recvOptions`. -/
def receivedOptions : Transcript → Option ClientOptions
  | [] => none
  | ⟨.recvOptions, .ok opts⟩ :: _ => some opts
  | _ :: tr => receivedOptions tr

/-- The units written to the control channel. -/
def controlWrites (tr : Transcript) : List Item :=
  tr.filterMap fun ev =>
    match ev.1 with
    | .send i => some i
    | _ => none

/-- Every control write succeeded. -/
def WritesOk (tr : Transcript) : Prop :=
  ∀ (i : Item) (a : Except Stop (Op.Ok (.send i))), (⟨.send i, a⟩ : Event Op Op.Ok Stop) ∈ tr →
    a = .ok ()

/-- The operations that only an admitted session may perform. -/
def Op.gated : Op → Bool
  | .send (.byte .paramExchange) => false
  | .send (.byte .accessDenied) => false
  | .send _ => true
  | .bindUdp _ _ => true
  | .acceptData => true
  | .acceptUdpStreams _ _ => true
  | .recvDataStream _ => true
  | _ => false

/-- The state `check_auth_inner` reads besides the options. -/
structure AuthState (K D : Type) where
  crypto : Crypto K D
  keyFile : Except String K
  usersFile : Except String (Table Text Text)
  wall : Int
  now : Nat
  cache : NonceCache D

/-- Its verdict on some options. -/
def AuthState.verdict {K D : Type} [DecidableEq D] (s : AuthState K D) (opts : ClientOptions) :
    Except String Unit :=
  (checkAuthInner s.crypto ⟨s.keyFile, s.usersFile, opts, s.wall, s.now⟩ s.cache).1

theorem WritesOk.left {tr₁ tr₂ : Transcript} (h : WritesOk (tr₁ ++ tr₂)) : WritesOk tr₁ :=
  fun i a hmem => h i a (List.mem_append_left _ hmem)

theorem WritesOk.right {tr₁ tr₂ : Transcript} (h : WritesOk (tr₁ ++ tr₂)) : WritesOk tr₂ :=
  fun i a hmem => h i a (List.mem_append_right _ hmem)

/-! ## Executions of the admission lines -/

theorem exec_call {o : Op} {tr : Transcript} {r : Except Stop o.Ok} (h : Exec (call o) tr r) :
    tr = [⟨o, r⟩] :=
  exec_perform.mp h

/-- A best-effort write is just the write. -/
theorem exec_ignore_sendByte {m : Message} {tr : Transcript} {r : Except Stop Unit}
    (h : Exec (ignore (sendByte m)) tr r) :
    ∃ a, tr = [⟨.send (.byte m), a⟩] ∧ (a = .ok () → r = .ok ()) := by
  -- `ignore` and `attempt` only post-process the answer
  rw [ignore, bind_eq, attempt] at h
  obtain ⟨tr₁, tr₂, r₁, rfl, h₁, h₂⟩ := exec_onResult.mp h
  obtain ⟨tr₃, tr₄, r₃, rfl, h₃, h₄⟩ := exec_onResult.mp h₁
  obtain rfl := exec_call h₃
  refine ⟨r₃, ?_⟩
  rcases r₃ with (e | msg) | u
  · obtain ⟨rfl, rfl⟩ := exec_ret.mp h₄
    obtain ⟨rfl, -⟩ := exec_ret.mp h₂
    exact ⟨rfl, fun hr => by cases hr⟩
  · obtain ⟨rfl, rfl⟩ := exec_ret.mp h₄
    obtain ⟨rfl, -⟩ := exec_ret.mp h₂
    exact ⟨rfl, fun hr => by cases hr⟩
  · obtain ⟨rfl, rfl⟩ := exec_ret.mp h₄
    obtain ⟨rfl, rfl⟩ := exec_ret.mp h₂
    exact ⟨rfl, fun _ => rfl⟩

/-- Refusing: the write is made, and whatever becomes of it the program fails. -/
theorem exec_refuse {α : Type} {e : IoError} {tr : Transcript} {r : Except Stop α}
    (h : Exec (ignore (sendByte .accessDenied) >>= fun _ => fail (.io e)) tr r) :
    ∃ a e', tr = [⟨.send (.byte .accessDenied), a⟩] ∧ r = .error e' ∧
      (a = .ok () → e' = .io e) := by
  rcases exec_bind.mp h with ⟨e', h₁, rfl⟩ | ⟨tr₁, tr₂, u, rfl, h₁, h₂⟩
  · obtain ⟨a, rfl, hr⟩ := exec_ignore_sendByte h₁
    exact ⟨a, e', rfl, rfl, fun ha => by cases hr ha⟩
  · obtain ⟨a, rfl, -⟩ := exec_ignore_sendByte h₁
    obtain ⟨rfl, rfl⟩ := exec_ret.mp h₂
    exact ⟨a, .io e, rfl, rfl, fun _ => rfl⟩

/-- Do both checks accept? -/
def admitted (auth : AuthConfig) (opts : ClientOptions) : Prop :=
  validateOptions opts = .ok () ∧ ∀ inner ∈ auth, inner opts = .ok ()

/-- The transcript of the admission lines up to the options. -/
def openingTranscript (opts : ClientOptions) : Transcript :=
  [⟨.send (.byte .paramExchange), .ok ()⟩, ⟨.recvOptions, .ok opts⟩]

/-- The transcript of a rejection. -/
def rejectionTranscript (opts : ClientOptions) : Transcript :=
  openingTranscript opts ++ [⟨.send (.byte .accessDenied), .ok ()⟩]

/-- What a rejected session returns. -/
def rejectionError (opts : ClientOptions) : IoError :=
  match validateOptions opts with
  | .error e => e
  | .ok () => ⟨.permissionDenied, "authentication failed"⟩

theorem exec_negotiateOptions {tr : Transcript} {r : Except Stop ClientOptions}
    (h : Exec negotiateOptions tr r) :
    (∃ e, r = .error e ∧ tr = [⟨.send (.byte .paramExchange), .error e⟩]) ∨
      tr = [⟨.send (.byte .paramExchange), .ok ()⟩, ⟨.recvOptions, r⟩] := by
  rcases exec_bind.mp h with ⟨e, h₁, rfl⟩ | ⟨tr₁, tr₂, u, rfl, h₁, h₂⟩
  · exact .inl ⟨e, rfl, exec_call h₁⟩
  · rw [exec_call h₁, exec_call h₂]
    exact .inr rfl

theorem exec_checkAuth {auth : AuthConfig} {opts : ClientOptions} {tr : Transcript}
    {r : Except Stop Unit} (h : Exec (checkAuth auth opts) tr r) :
    (tr = [] ∧ r = .ok () ∧ ∀ inner ∈ auth, inner opts = .ok ()) ∨
    (∃ a e, tr = [⟨.send (.byte .accessDenied), a⟩] ∧ r = .error e ∧
      (a = .ok () → e = .io ⟨.permissionDenied, "authentication failed"⟩) ∧
      ¬ ∀ inner ∈ auth, inner opts = .ok ()) := by
  cases auth with
  | none =>
    obtain ⟨rfl, rfl⟩ := exec_ret.mp h
    exact Or.inl ⟨rfl, rfl, fun inner hmem => by cases hmem⟩
  | some inner =>
    rw [checkAuth] at h
    cases hv : inner opts with
    | ok u =>
      rw [hv] at h
      obtain ⟨rfl, rfl⟩ := exec_ret.mp h
      exact Or.inl ⟨rfl, rfl, fun inner' hmem => by cases hmem; exact hv⟩
    | error e =>
      rw [hv] at h
      have hno : ¬ ∀ inner' ∈ some inner, inner' opts = .ok () := fun hall => by
        have := hall inner rfl
        rw [hv] at this
        cases this
      obtain ⟨a, e', rfl, rfl, he⟩ := exec_refuse h
      exact Or.inr ⟨a, e', rfl, rfl, he, hno⟩

/-- **The admission lines**, whatever becomes of the writes: no greeting, no options, admission, or
    a rejection. -/
theorem exec_admitOptions_cases {auth : AuthConfig} {tr : Transcript}
    {r : Except Stop ClientOptions} (h : Exec (admitOptions auth) tr r) :
    (∃ e, r = .error e ∧ (tr = [⟨.send (.byte .paramExchange), .error e⟩] ∨
      tr = [⟨.send (.byte .paramExchange), .ok ()⟩, ⟨.recvOptions, .error e⟩])) ∨
    (∃ opts, admitted auth opts ∧ r = .ok opts ∧ tr = openingTranscript opts) ∨
    (∃ opts a e, ¬ admitted auth opts ∧ r = .error e ∧
      tr = openingTranscript opts ++ [⟨.send (.byte .accessDenied), a⟩] ∧
      (a = .ok () → e = .io (rejectionError opts))) := by
  rcases exec_bind.mp h with ⟨e, h₁, rfl⟩ | ⟨tr₁, tr₂, opts, rfl, h₁, h₂⟩
  · rcases exec_negotiateOptions h₁ with ⟨e', he, rfl⟩ | rfl
    · cases he
      exact Or.inl ⟨e, rfl, Or.inl rfl⟩
    · exact Or.inl ⟨e, rfl, Or.inr rfl⟩
  · rcases exec_negotiateOptions h₁ with ⟨e', he, -⟩ | rfl
    · cases he
    refine Or.inr ?_
    cases hval : validateOptions opts with
    | error e =>
      rw [hval] at h₂
      obtain ⟨a, e', rfl, rfl, he⟩ := exec_refuse h₂
      refine Or.inr ⟨opts, a, e', fun hadm => ?_, rfl, rfl, fun ha => ?_⟩
      · have := hadm.1
        rw [hval] at this
        cases this
      · rw [he ha, rejectionError, hval]
    | ok u =>
      rw [hval] at h₂
      rcases exec_bind.mp h₂ with ⟨e, h₃, rfl⟩ | ⟨tr₃, tr₄, u', rfl, h₃, h₄⟩
      · rcases exec_checkAuth h₃ with ⟨-, hr, -⟩ | ⟨a, e', rfl, hr, he, hno⟩
        · cases hr
        · cases hr
          refine Or.inr ⟨opts, a, e, fun hadm => hno hadm.2, rfl, rfl, fun ha => ?_⟩
          rw [he ha, rejectionError, hval]
      · rcases exec_checkAuth h₃ with ⟨rfl, -, hok⟩ | ⟨a, e', -, hr, -⟩
        · obtain ⟨rfl, rfl⟩ := exec_ret.mp h₄
          exact Or.inl ⟨opts, ⟨hval, hok⟩, rfl, rfl⟩
        · cases hr

/-- When the writes succeed a rejection has the one transcript. -/
theorem exec_admitOptions {auth : AuthConfig} {tr : Transcript} {r : Except Stop ClientOptions}
    (h : Exec (admitOptions auth) tr r) (hw : WritesOk tr) :
    (∃ e, r = .error e ∧
      tr = [⟨.send (.byte .paramExchange), .ok ()⟩, ⟨.recvOptions, .error e⟩]) ∨
    (∃ opts, admitted auth opts ∧ r = .ok opts ∧ tr = openingTranscript opts) ∨
    (∃ opts, ¬ admitted auth opts ∧ r = .error (.io (rejectionError opts)) ∧
      tr = rejectionTranscript opts) := by
  rcases exec_admitOptions_cases h with ⟨e, rfl, rfl | rfl⟩ | hadm | ⟨opts, a, e, hno, rfl, rfl, he⟩
  · cases hw (.byte .paramExchange) (.error e) List.mem_cons_self
  · exact Or.inl ⟨e, rfl, rfl⟩
  · exact Or.inr (Or.inl hadm)
  · obtain rfl := hw.right (.byte .accessDenied) a List.mem_cons_self
    exact Or.inr (Or.inr ⟨opts, hno, by rw [he rfl], rfl⟩)

/-- The rejection does happen: it is the run in which every operation succeeds. -/
theorem exec_admitOptions_rejected {auth : AuthConfig} {opts : ClientOptions}
    (hno : ¬ admitted auth opts) :
    Exec (admitOptions auth) (rejectionTranscript opts) (.error (.io (rejectionError opts))) := by
  have hnegotiate : Exec negotiateOptions (openingTranscript opts) (.ok opts) :=
    exec_bind.mpr (Or.inr ⟨[_], [_], (), rfl, exec_perform.mpr rfl, exec_perform.mpr rfl⟩)
  have hdenied : Exec (ignore (sendByte .accessDenied)) [⟨.send (.byte .accessDenied), .ok ()⟩]
      (.ok ()) := by
    rw [ignore, bind_eq, attempt]
    refine exec_onResult.mpr
      ⟨_, [], .ok (.ok ()), (List.append_nil _).symm, ?_, exec_ret.mpr ⟨rfl, rfl⟩⟩
    exact exec_onResult.mpr
      ⟨_, [], .ok (), (List.append_nil _).symm, exec_perform.mpr rfl, exec_ret.mpr ⟨rfl, rfl⟩⟩
  refine exec_bind.mpr (Or.inr ⟨_, _, opts, rfl, hnegotiate, ?_⟩)
  rw [rejectionError]
  cases hval : validateOptions opts with
  | error e => exact exec_bind.mpr (Or.inr ⟨_, [], (), rfl, hdenied, exec_ret.mpr ⟨rfl, rfl⟩⟩)
  | ok u =>
    refine exec_bind.mpr (Or.inl ⟨_, ?_, rfl⟩)
    cases auth with
    | none => exact absurd ⟨hval, fun inner hmem => by cases hmem⟩ hno
    | some inner =>
      rw [checkAuth]
      cases hv : inner opts with
      | ok u => exact absurd ⟨hval, fun inner' hmem => by cases hmem; exact hv⟩ hno
      | error e => exact exec_bind.mpr (Or.inr ⟨_, [], (), rfl, hdenied, exec_ret.mpr ⟨rfl, rfl⟩⟩)

/-! ## Executions of a whole session -/

/-- The operations of `accept_control`. -/
def Op.isSetup : Op → Bool
  | .acceptControl | .setTimeouts _ _ | .recvCookie _ _ => true
  | _ => false

theorem uses_acceptControl (timeout : Option Nat) :
    Discipline.Uses (fun o => o.isSetup = true) (acceptControl timeout) := by
  refine Discipline.uses_bind ⟨rfl, fun _ => trivial⟩ fun c => ?_
  refine Discipline.uses_bind ⟨rfl, fun _ => trivial⟩ fun _ => ?_
  exact ⟨rfl, fun _ => trivial⟩

/-- Setup operations are not gated, read no options and write nothing. -/
theorem setup_silent {pre : Transcript} (tr : Transcript) (h : ∀ ev ∈ pre, ev.1.isSetup = true) :
    receivedOptions (pre ++ tr) = receivedOptions tr ∧ controlWrites pre = [] ∧
      ∀ ev ∈ pre, ev.1.gated = false := by
  induction pre with
  | nil => exact ⟨rfl, rfl, fun ev hev => absurd hev List.not_mem_nil⟩
  | cons ev pre ih =>
    obtain ⟨hrec, hwr, hg⟩ := ih fun ev' hev' => h ev' (List.mem_cons_of_mem _ hev')
    have hev := h ev List.mem_cons_self
    obtain ⟨o, a⟩ := ev
    cases o with
    | acceptControl => exact ⟨hrec, hwr, List.forall_mem_cons.mpr ⟨rfl, hg⟩⟩
    | setTimeouts c t => exact ⟨hrec, hwr, List.forall_mem_cons.mpr ⟨rfl, hg⟩⟩
    | recvCookie c t => exact ⟨hrec, hwr, List.forall_mem_cons.mpr ⟨rfl, hg⟩⟩
    | _ => exact absurd hev Bool.false_ne_true

/-- A session by its entry point; the channel entry gets the cookie from the accept loop. -/
def sessionProgram (entry : Entry) (auth : AuthConfig) (cookie : Bytes) (timeout : Option Nat) :
    Session Nat :=
  match entry with
  | .listener => serveOneSession auth timeout
  | .channel => serveSessionFromChannel auth cookie timeout

/-- Every session is some setup followed by the body, or fails during the setup. -/
theorem exec_sessionProgram {entry : Entry} {auth : AuthConfig} {cookie : Bytes}
    {timeout : Option Nat} {tr : Transcript} {r : Except Stop Nat}
    (h : Exec (sessionProgram entry auth cookie timeout) tr r) :
    ∃ pre body, tr = pre ++ body ∧ (∀ ev ∈ pre, ev.1.isSetup = true) ∧
      ((body = [] ∧ ∃ e, r = .error e) ∨
        ∃ cookie', Exec (sessionBody entry auth timeout cookie') body r) := by
  cases entry with
  | channel => exact ⟨[], tr, rfl, fun ev hev => absurd hev List.not_mem_nil, Or.inr ⟨cookie, h⟩⟩
  | listener =>
    rcases exec_bind.mp h with ⟨e, h₁, rfl⟩ | ⟨tr₁, tr₂, cookie', rfl, h₁, h₂⟩
    · refine ⟨tr, [], (List.append_nil tr).symm, ?_, Or.inl ⟨rfl, e, rfl⟩⟩
      exact Discipline.uses_exec (uses_acceptControl timeout) h₁
    · exact ⟨tr₁, tr₂, rfl, Discipline.uses_exec (uses_acceptControl timeout) h₁,
        Or.inr ⟨cookie', h₂⟩⟩

/-- **The body of a session**, whatever becomes of the writes: it ends before it has options, its
    options were admitted, or it refuses them and fails. -/
theorem exec_sessionBody_cases {entry : Entry} {auth : AuthConfig} {cookie : Bytes}
    {timeout : Option Nat} {tr : Transcript} {r : Except Stop Nat}
    (h : Exec (sessionBody entry auth timeout cookie) tr r) :
    (receivedOptions tr = none ∧ ∀ ev ∈ tr, ev.1.gated = false) ∨
    (∃ opts, receivedOptions tr = some opts ∧ admitted auth opts) ∨
    (∃ opts a e, ¬ admitted auth opts ∧ r = .error e ∧
      tr = openingTranscript opts ++ [⟨.send (.byte .accessDenied), a⟩]) := by
  rcases exec_bind.mp h with ⟨e, h₁, rfl⟩ | ⟨tr₁, tr₂, opts, rfl, h₁, h₂⟩
  · rcases exec_admitOptions_cases h₁ with ⟨e', -, rfl | rfl⟩ | ⟨opts, -, hr, -⟩ |
      ⟨opts, a, e', hno, hr, rfl, -⟩
    · exact Or.inl ⟨rfl, by simp [Op.gated]⟩
    · exact Or.inl ⟨rfl, by simp [Op.gated]⟩
    · cases hr
    · exact Or.inr (Or.inr ⟨opts, a, e, hno, rfl, rfl⟩)
  · rcases exec_admitOptions_cases h₁ with ⟨e, hr, -⟩ | ⟨opts', hadm, hr, rfl⟩ |
      ⟨opts', a, e, -, hr, -⟩
    · cases hr
    · exact Or.inr (Or.inl ⟨opts', rfl, hadm⟩)
    · cases hr

/-- A refusal is not gated. -/
theorem refusal_ungated {opts : ClientOptions} {a : Except Stop Unit} {ev : Event Op Op.Ok Stop}
    (h : ev ∈ openingTranscript opts ++ [⟨.send (.byte .accessDenied), a⟩]) :
    ev.1.gated = false := by
  simp only [openingTranscript, List.cons_append, List.nil_append, List.mem_cons, List.not_mem_nil,
    or_false] at h
  rcases h with rfl | rfl | rfl
  · rfl
  · rfl
  · rfl

/-- When the writes succeed a rejected session has the one transcript and the one error. -/
theorem exec_sessionBody {entry : Entry} {auth : AuthConfig} {cookie : Bytes} {timeout : Option Nat}
    {tr : Transcript} {r : Except Stop Nat} (h : Exec (sessionBody entry auth timeout cookie) tr r)
    (hw : WritesOk tr) :
    (receivedOptions tr = none ∧ ∀ ev ∈ tr, ev.1.gated = false) ∨
    (∃ opts, receivedOptions tr = some opts ∧ admitted auth opts) ∨
    (∃ opts, ¬ admitted auth opts ∧ r = .error (.io (rejectionError opts)) ∧
      tr = rejectionTranscript opts) := by
  rcases exec_bind.mp h with ⟨e, h₁, rfl⟩ | ⟨tr₁, tr₂, opts, rfl, h₁, h₂⟩
  · rcases exec_admitOptions h₁ hw with ⟨e', -, rfl⟩ | ⟨opts, -, hr, -⟩ | ⟨opts, hno, hr, rfl⟩
    · exact Or.inl ⟨rfl, by simp [Op.gated]⟩
    · cases hr
    · cases hr
      exact Or.inr (Or.inr ⟨opts, hno, rfl, rfl⟩)
  · rcases exec_admitOptions h₁ hw.left with ⟨e, hr, -⟩ | ⟨opts', hadm, hr, rfl⟩ | ⟨opts', -, hr, -⟩
    · cases hr
    · exact Or.inr (Or.inl ⟨opts', rfl, hadm⟩)
    · cases hr

/-- **The authentication gate.** -/
theorem auth_gate {K D : Type} [DecidableEq D] (s : AuthState K D) (entry : Entry) (cookie : Bytes)
    (timeout : Option Nat) {tr : Transcript} {r : Except Stop Nat}
    (hrun : Exec (sessionProgram entry (some s.verdict) cookie timeout) tr r) (hw : WritesOk tr) :
    ((∃ ev ∈ tr, ev.1.gated = true) →
      ∃ opts, receivedOptions tr = some opts ∧ validateOptions opts = .ok () ∧
        s.verdict opts = .ok ()) ∧
    ∀ opts, receivedOptions tr = some opts →
      ¬ (validateOptions opts = .ok () ∧ s.verdict opts = .ok ()) →
      controlWrites tr = [.byte .paramExchange, .byte .accessDenied] ∧
        r = .error (.io (rejectionError opts)) ∧
        ∃ setup, (∀ ev ∈ setup, ev.1.isSetup = true) ∧ tr = setup ++ rejectionTranscript opts := by
  have hadm : ∀ opts, admitted (some s.verdict) opts ↔
      validateOptions opts = .ok () ∧ s.verdict opts = .ok () := fun opts =>
    ⟨fun h => ⟨h.1, h.2 _ rfl⟩, fun h => ⟨h.1, fun inner hmem => by cases hmem; exact h.2⟩⟩
  obtain ⟨pre, body, rfl, hpre, hbody⟩ := exec_sessionProgram hrun
  obtain ⟨hrec, hwrites, hungated⟩ := setup_silent body hpre
  rw [hrec]
  have hgate : (∃ ev ∈ pre ++ body, ev.1.gated = true) → ∃ ev ∈ body, ev.1.gated = true := by
    rintro ⟨ev, hev, hg⟩
    rcases List.mem_append.mp hev with hev | hev
    · rw [hungated ev hev] at hg
      cases hg
    · exact ⟨ev, hev, hg⟩
  rcases hbody with ⟨rfl, e, rfl⟩ | ⟨cookie', hbody⟩
  · refine ⟨fun hg => ?_, fun opts hopts => by cases hopts⟩
    obtain ⟨ev, hev, -⟩ := hgate hg
    exact absurd hev List.not_mem_nil
  rcases exec_sessionBody hbody hw.right with
    ⟨hnone, hno⟩ | ⟨opts, hsome, hok⟩ | ⟨opts, hrej, rfl, rfl⟩
  · refine ⟨fun hg => ?_, fun opts hopts => by rw [hnone] at hopts; cases hopts⟩
    obtain ⟨ev, hev, hg⟩ := hgate hg
    rw [hno ev hev] at hg
    cases hg
  · refine ⟨fun _ => ⟨opts, hsome, (hadm opts).mp hok⟩, fun opts' hopts' hbad => ?_⟩
    rw [hsome] at hopts'
    cases hopts'
    exact absurd ((hadm opts).mp hok) hbad
  · refine ⟨fun hg => ?_, fun opts' hopts' hbad => ?_⟩
    · obtain ⟨ev, hev, hg⟩ := hgate hg
      rw [refusal_ungated hev] at hg
      cases hg
    · cases hopts'
      refine ⟨?_, rfl, pre, hpre, rfl⟩
      rw [controlWrites, List.filterMap_append, ← controlWrites, hwrites]
      rfl

/-! ### A session without a token -/

/-- Key and user files load; nothing else is ever consulted when the token is missing. -/
def tokenlessState : AuthState Unit Unit where
  crypto := ⟨fun _ => .error "unused", fun _ _ => .error "unused", fun _ => ()⟩
  keyFile := .ok ()
  usersFile := .ok ∅
  wall := 0
  now := 0
  cache := NonceCache.new

def tokenlessOptions : ClientOptions := ClientOptions.tcpDefaults 10 1 defaultTcpLen

theorem tokenless_exec :
    Exec (sessionProgram .channel (some tokenlessState.verdict) [] none)
      (rejectionTranscript tokenlessOptions) (.error (.io (rejectionError tokenlessOptions))) :=
  exec_bind.mpr (Or.inl ⟨_, exec_admitOptions_rejected (fun h => by cases h.2 _ rfl), rfl⟩)

theorem tokenless_writesOk : WritesOk (rejectionTranscript tokenlessOptions) := by
  intro i a hmem
  simp only [rejectionTranscript, openingTranscript, List.cons_append, List.nil_append,
    List.mem_cons, List.not_mem_nil, or_false, Sigma.mk.injEq] at hmem
  rcases hmem with ⟨hi, ha⟩ | ⟨hi, -⟩ | ⟨hi, ha⟩
  · cases hi
    exact eq_of_heq ha
  · cases hi
  · cases hi
    exact eq_of_heq ha

theorem auth_gate_tokenless :
    controlWrites (rejectionTranscript tokenlessOptions) =
      [.byte .paramExchange, .byte .accessDenied] :=
  ((auth_gate tokenlessState .channel [] none tokenless_exec tokenless_writesOk).2
    tokenlessOptions rfl (fun h => by cases h.2)).1

end Rperf3
