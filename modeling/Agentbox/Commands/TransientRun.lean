import Agentbox.Commands.DetachedServer
import Agentbox.Session.ConnectView

/-! # The end of a transient run

Once the container of a transient run is started, it is stopped and looked for exactly once,
whenever the run is interrupted and whatever the server and the client do. -/

namespace Agentbox.Commands.TransientRun

open Agentbox.Base.Text Agentbox.Base.Path Agentbox.Base.Errors Agentbox.Lib.Program
  Agentbox.Runtime.Kind Agentbox.Runtime.Spec Agentbox.Workspace.Identity Agentbox.Commands.HostCalls
  Agentbox.Commands.CodexAttachAuth Agentbox.Commands.ContainerCleanup
  Agentbox.Commands.RuntimeCommand Agentbox.Commands.DetachedServer Agentbox.Session.ConnectView

/-- The code that `main` ends the process with. -/
def mainExitCode : Except Error Unit → Nat
  | .ok _ => 0
  | .error (.exitCode code) | .error (.exitCodeWithMessage code _) => code
  | .error _ => 1

/-! ### Interrupts -/

/-- What each call may answer a command: anything, but that a set interrupt flag stays set, that
those who read it see it, and that an exit code has eight bits. -/
def interruptMachine : Machine HostOps Bool where
  step flag o r flag' := match o, r with
    | .installInterrupt _, _ => True
    | .interrupted, r => (flag = true → flag' = true) ∧ (flag = true → r = true) ∧
        (r = true → flag' = true)
    | .waitForServerEndpoint _ _ _, r => (flag = true → flag' = true) ∧
        (r = .ok .interrupted → flag' = true)
    | .runHostClient _ _ _, r => (flag = true → flag' = true) ∧
        ∀ status code, r = .ok status → status.code = some code → 0 ≤ code ∧ code < 256
    | _, _ => flag = true → flag' = true

variable {σ : Type} {M : Machine HostOps σ} {s s' : σ} {t : List (Event HostOps σ)}
  {workspace : WorkspaceIdentity}

/-- A call that started the container. -/
def isStart : (o : HostOp) × o.Ret → Bool
  | ⟨.runDetached _ _, .ok _⟩ => true
  | _ => false

/-- A call that stops a container or asks whether it is gone. -/
def isCleanup : (o : HostOp) × o.Ret → Bool
  | ⟨.stopIgnore _, _⟩ | ⟨.containerExists _, _⟩ => true
  | _ => false

/-! ### Calls whose failure is a value -/

section
variable {α : Type} {containerName : String} {res : Except Error α}

theorem exec_stopIgnore {f : Except Error Unit → Command α}
    (h : Exec M ((stopIgnore containerName).attempt.bind f) s t s' res) :
    ∃ r s1 t1, t = ⟨s, .stopIgnore containerName, r, s1⟩ :: t1 ∧ Exec M (f r) s1 t1 s' res := by
  obtain ⟨r, s1, t1, ht, -, h1⟩ :=
    (exec_attempt_call (S := HostOps) (o := .stopIgnore containerName) fun r => r).1 h
  exact ⟨r, s1, t1, ht, h1⟩

theorem exec_containerExists {f : Except Error Bool → Command α}
    (h : Exec M ((containerExists containerName).attempt.bind f) s t s' res) :
    ∃ r s1 t1, t = ⟨s, .containerExists containerName, r, s1⟩ :: t1 ∧
      Exec M (f r) s1 t1 s' res := by
  obtain ⟨r, s1, t1, ht, -, h1⟩ :=
    (exec_attempt_call (S := HostOps) (o := .containerExists containerName) fun r => r).1 h
  exact ⟨r, s1, t1, ht, h1⟩

end

section
variable {α : Type} {res : Except Error α}

theorem exec_waitForServerEndpoint {containerName : String} {runtime : RuntimeKind}
    {context : ServerEndpointContext} {f : Except Error ServerEndpointWait → Command α}
    (h : Exec M ((waitForServerEndpoint containerName runtime context).attempt.bind f) s t s'
      res) :
    ∃ r s1 t1, t = ⟨s, .waitForServerEndpoint containerName runtime context, r, s1⟩ :: t1 ∧
      M.step s (.waitForServerEndpoint containerName runtime context) r s1 ∧
        Exec M (f r) s1 t1 s' res :=
  (exec_attempt_call (S := HostOps) (o := .waitForServerEndpoint containerName runtime context)
    fun r => r).1 h

theorem exec_runHostClient {argv : List String} {workdir : Utf8Path} {token : Option String}
    {f : Except Error ExitStatus → Command α}
    (h : Exec M ((runHostClient argv workdir token).attempt.bind f) s t s' res) :
    ∃ r s1 t1, t = ⟨s, .runHostClient argv workdir token, r, s1⟩ :: t1 ∧
      M.step s (.runHostClient argv workdir token) r s1 ∧ Exec M (f r) s1 t1 s' res :=
  (exec_attempt_call (S := HostOps) (o := .runHostClient argv workdir token) fun r => r).1 h

theorem exec_logsTail {containerName : String} {f : Except Error String → Command α}
    (h : Exec M ((logsTail containerName).attempt.bind f) s t s' res) :
    ∃ r s1 t1, t = ⟨s, .logsTail containerName, r, s1⟩ :: t1 ∧ Exec M (f r) s1 t1 s' res := by
  obtain ⟨r, s1, t1, ht, -, h1⟩ :=
    (exec_attempt_call (S := HostOps) (o := .logsTail containerName) fun r => r).1 h
  exact ⟨r, s1, t1, ht, h1⟩

theorem exec_runDetached {containerName : String} {spec : RuntimeRunSpec}
    {f : Except Error Unit → Command α}
    (h : Exec M ((runDetached containerName spec).attempt.bind f) s t s' res) :
    ∃ r s1 t1, t = ⟨s, .runDetached containerName spec, r, s1⟩ :: t1 ∧
      Exec M (f r) s1 t1 s' res := by
  obtain ⟨r, s1, t1, ht, -, h1⟩ :=
    (exec_attempt_call (S := HostOps) (o := .runDetached containerName spec) fun r => r).1 h
  exact ⟨r, s1, t1, ht, h1⟩

end

/-! ### The cleanup -/

def cleanupLog (containerName : String) (stopped : Except Error Unit)
    (verified : Except Error Bool) : List ((o : HostOp) × o.Ret) :=
  [⟨.stopIgnore containerName, stopped⟩, ⟨.containerExists containerName, verified⟩]

def cleanupFailure (containerName : String) (stopped : Except Error Unit)
    (verified : Except Error Bool) : Option ContainerCleanupFailure :=
  (ManagedContainerCleanup.mk (stopErrorOf stopped) (.ofExists verified)).remainingFailure
    containerName

def cleanupMessage (containerName : String) (failure : ContainerCleanupFailure) : String :=
  "failed to clean up transient run container `" ++ containerName ++ "`: " ++
    failure.renderStopMessage

def cleanupResult (containerName : String) (stopped : Except Error Unit)
    (verified : Except Error Bool) : Except Error Unit :=
  match cleanupFailure containerName stopped verified with
  | some failure => .error (.msg (cleanupMessage containerName failure))
  | none => .ok ()

theorem cleanupFailure_eq_none {containerName : String} {stopped : Except Error Unit}
    {verified : Except Error Bool} :
    cleanupFailure containerName stopped verified = none ↔ verified = .ok false := by
  unfold cleanupFailure ManagedContainerCleanup.remainingFailure
    ManagedContainerCleanup.remainingContainerIssue
  rcases verified with e | _ | _
  · simp [ContainerCleanupVerification.ofExists]
  · simp [ContainerCleanupVerification.ofExists]
  · simp [ContainerCleanupVerification.ofExists]

theorem exec_cleanupTransientContainer {res : Except Error Unit}
    (h : Exec M (cleanupTransientContainer workspace) s t s' res) :
    ∃ stopped verified, log t = cleanupLog workspace.containerName stopped verified ∧
      res = cleanupResult workspace.containerName stopped verified := by
  unfold cleanupTransientContainer ManagedContainerCleanup.stopAndVerify at h
  simp only [Prog.bind_eq, Prog.bind_assoc] at h
  obtain ⟨stopped, s1, t1, rfl, h1⟩ := exec_stopIgnore h
  obtain ⟨verified, s2, t2, rfl, h2⟩ := exec_containerExists h1
  rw [Prog.pure_eq, Prog.done_bind] at h2
  have hend : t2 = [] ∧ res = cleanupResult workspace.containerName stopped verified := by
    change Exec M (match cleanupFailure workspace.containerName stopped verified with
      | some failure => .fail (.msg (cleanupMessage workspace.containerName failure))
      | none => .done ()) s2 t2 s' res at h2
    unfold cleanupResult
    generalize cleanupFailure workspace.containerName stopped verified = cleanup at h2 ⊢
    rcases cleanup with _ | failure
    · obtain ⟨rfl, -, rfl⟩ := exec_done.1 h2
      exact ⟨rfl, rfl⟩
    · obtain ⟨rfl, -, rfl⟩ := exec_fail.1 h2
      exact ⟨rfl, rfl⟩
  obtain ⟨rfl, rfl⟩ := hend
  exact ⟨stopped, verified, rfl, rfl⟩

section
variable {α : Type} {res : Except Error α}

/-- What comes after a cleanup gets its result. -/
theorem exec_cleanup {f : Except Error Unit → Command α}
    (h : Exec M ((cleanupTransientContainer workspace).attempt.bind f) s t s' res) :
    ∃ stopped verified s1 t1 t2, t = t1 ++ t2 ∧
      log t1 = cleanupLog workspace.containerName stopped verified ∧
      Exec M (f (cleanupResult workspace.containerName stopped verified)) s1 t2 s' res := by
  obtain ⟨e, -, h1⟩ | ⟨result, s1, t1, t2, rfl, h1, h2⟩ := exec_bind.1 h
  · obtain ⟨r, hr, -⟩ := exec_attempt.1 h1
    cases hr
  · obtain ⟨r, hr, h1⟩ := exec_attempt.1 h1
    cases hr
    obtain ⟨stopped, verified, hlog, rfl⟩ := exec_cleanupTransientContainer h1
    exact ⟨stopped, verified, s1, t1, t2, rfl, hlog, h2⟩

theorem exec_withCleanupResult {error : Error}
    (h : Exec M ((withCleanupResult workspace error).bind fun error => (.fail error : Command α))
      s t s' res) :
    ∃ stopped verified, log t = cleanupLog workspace.containerName stopped verified ∧
      res = .error (combineErrorWithCleanupResult error
        (cleanupResult workspace.containerName stopped verified)) := by
  unfold withCleanupResult at h
  rw [Prog.bind_eq, Prog.bind_assoc] at h
  obtain ⟨stopped, verified, s1, t1, t2, rfl, hlog, h1⟩ := exec_cleanup h
  obtain ⟨rfl, -, rfl⟩ := exec_fail.1 h1
  exact ⟨stopped, verified, by rw [List.append_nil, hlog], rfl⟩

def interruptedError (workspace : WorkspaceIdentity) : Error :=
  .msg ("run interrupted before transient container `" ++ workspace.containerName ++ "` for `" ++
    workspace.canonicalGitRoot.asStr ++ "` finished")

/-- A check for an interrupt goes on, or ends the run after a cleanup. -/
theorem exec_checkInterrupted {f : Unit → Command α}
    (h : Exec M ((transientServerLifecycle workspace).checkInterrupted.bind f) s t s' res) :
    (∃ s1 t1, t = ⟨s, .interrupted, false, s1⟩ :: t1 ∧ M.step s .interrupted false s1 ∧
      Exec M (f ()) s1 t1 s' res) ∨
    ∃ stopped verified, log t = ⟨.interrupted, true⟩ ::
        cleanupLog workspace.containerName stopped verified ∧
      res = .error (combineErrorWithCleanupResult (interruptedError workspace)
        (cleanupResult workspace.containerName stopped verified)) := by
  obtain ⟨seen, s1, t1, rfl, hstep, h1⟩ := exec_call.1 h
  cases seen with
  | false => exact .inl ⟨s1, t1, rfl, hstep, h1⟩
  | true =>
    change Exec M (Prog.bind ((withCleanupResult workspace (interruptedError workspace)).bind
      fun error => .fail error) f) s1 t1 s' res at h1
    rw [Prog.bind_assoc] at h1
    obtain ⟨stopped, verified, hlog, hres⟩ := exec_withCleanupResult h1
    exact .inr ⟨stopped, verified, by rw [log_cons, hlog], hres⟩

end

/-! ### After the start of the container -/

/-- The error of a server that did not get ready, with the logs of its container. -/
def loggedError (workspace : WorkspaceIdentity) (originalError : Error) (logs : Except Error String) :
    Error :=
  let containerName := workspace.containerName
  let description := ContainerLogContext.transientRun.description
  let command := "podman logs --tail " ++ s!"{FAILURE_LOG_TAIL_LINES}" ++ " " ++ containerName
  match logs with
  | .ok logs =>
    if trimEnd logs = "" then
      .msg (originalError.display ++ "\n\n" ++ description ++ " `" ++
        containerName ++ "` produced no logs; inspect it with `" ++ command ++ "`")
    else
      .msg (originalError.display ++ "\n\n" ++ description ++ " logs (`" ++
        command ++ "`):\n" ++ trimEnd logs)
  | .error logError =>
    .msg (originalError.display ++ "\n\nfailed to read " ++ description ++
      " logs with `" ++ command ++ "`: " ++ logError.display)

theorem errorWithContainerLogs_eq (originalError : Error) :
    errorWithContainerLogs workspace .transientRun originalError =
      (logsTail workspace.containerName).attempt.bind fun logs =>
        .done (loggedError workspace originalError logs) := by
  unfold errorWithContainerLogs loggedError
  simp only [Prog.bind_eq]
  congr 1
  funext logs
  rcases logs with e | logs
  · rfl
  · simp only
    split_ifs <;> rfl

/-- What `finish_host_client_run` makes of a client and a cleanup. -/
def finishedResult (workspace : WorkspaceIdentity) (runtime : RuntimeKind)
    (endpoint : AttachEndpoint) (clientArgs : List String) (status : Except Error ExitStatus)
    (cleanup : Except Error Unit) : Except Error Unit :=
  match status with
  | .ok status =>
    if status.success then cleanup
    else .error (exitFailure status (hostClientStatusError runtime endpoint
      workspace.canonicalTarget status clientArgs) cleanup)
  | .error error => .error (combineErrorWithCleanupResult error cleanup)

/-- The calls of a run that gets to its client. -/
def clientLog (workspace : WorkspaceIdentity) (runtime : RuntimeKind) (endpoint : AttachEndpoint)
    (clientArgs : List String) (token : Option CodexAttachToken) (status : Except Error ExitStatus)
    (stopped : Except Error Unit) (verified : Except Error Bool) : List ((o : HostOp) × o.Ret) :=
  ⟨.interrupted, false⟩ :: ⟨.waitForServerEndpoint workspace.containerName runtime
    .transientRunContainer, .ok (.ready endpoint)⟩ :: ⟨.interrupted, false⟩ ::
  ⟨.runHostClient (runtime.hostClientCommand endpoint ++ clientArgs) workspace.canonicalTarget
    (token.map CodexAttachToken.value), status⟩ ::
  cleanupLog workspace.containerName stopped verified

/-- How a transient run goes on once its container is started: its calls and its result. -/
inductive AfterStart (workspace : WorkspaceIdentity) (runtime : RuntimeKind)
    (codexAttachToken : Option CodexAttachToken) (clientArgs : List String) :
    List ((o : HostOp) × o.Ret) → Except Error Unit → Prop
  | interruptedAtOnce (stopped : Except Error Unit) (verified : Except Error Bool) :
    AfterStart workspace runtime codexAttachToken clientArgs
      (⟨.interrupted, true⟩ :: cleanupLog workspace.containerName stopped verified)
      (.error (combineErrorWithCleanupResult (interruptedError workspace)
        (cleanupResult workspace.containerName stopped verified)))
  | notReady (error : Error) (logs : Except Error String) (stopped : Except Error Unit)
      (verified : Except Error Bool) :
    AfterStart workspace runtime codexAttachToken clientArgs
      (⟨.interrupted, false⟩ :: ⟨.waitForServerEndpoint workspace.containerName runtime
          .transientRunContainer, .error error⟩ ::
        ⟨.logsTail workspace.containerName, logs⟩ ::
        cleanupLog workspace.containerName stopped verified)
      (.error (combineErrorWithCleanupResult (loggedError workspace error logs)
        (cleanupResult workspace.containerName stopped verified)))
  | interruptedLater (wait : ServerEndpointWait) (stopped : Except Error Unit)
      (verified : Except Error Bool) :
    AfterStart workspace runtime codexAttachToken clientArgs
      (⟨.interrupted, false⟩ :: ⟨.waitForServerEndpoint workspace.containerName runtime
          .transientRunContainer, .ok wait⟩ :: ⟨.interrupted, true⟩ ::
        cleanupLog workspace.containerName stopped verified)
      (.error (combineErrorWithCleanupResult (interruptedError workspace)
        (cleanupResult workspace.containerName stopped verified)))
  | missingToken (endpoint : AttachEndpoint) (error : Error) (stopped : Except Error Unit)
      (verified : Except Error Bool)
      (htoken : requiredCodexClientToken runtime codexAttachToken = .error error) :
    AfterStart workspace runtime codexAttachToken clientArgs
      (⟨.interrupted, false⟩ :: ⟨.waitForServerEndpoint workspace.containerName runtime
          .transientRunContainer, .ok (.ready endpoint)⟩ :: ⟨.interrupted, false⟩ ::
        cleanupLog workspace.containerName stopped verified)
      (.error (combineErrorWithCleanupResult error
        (cleanupResult workspace.containerName stopped verified)))
  | connected (endpoint : AttachEndpoint) (token : Option CodexAttachToken)
      (status : Except Error ExitStatus) (stopped : Except Error Unit)
      (verified : Except Error Bool)
      (htoken : requiredCodexClientToken runtime codexAttachToken = .ok token)
      (hcode : ∀ exit code, status = .ok exit → exit.code = some code → 0 ≤ code ∧ code < 256) :
    AfterStart workspace runtime codexAttachToken clientArgs
      (clientLog workspace runtime endpoint clientArgs token status stopped verified)
      (finishedResult workspace runtime endpoint clientArgs status
        (cleanupResult workspace.containerName stopped verified))

variable {runtime : RuntimeKind} {spec : RuntimeRunSpec}
  {codexAttachToken : Option CodexAttachToken} {clientArgs : List String} {res : Except Error Unit}

theorem exec_finishHostClientRun {endpoint : AttachEndpoint} {status : Except Error ExitStatus}
    (h : Exec M (finishHostClientRun workspace runtime endpoint status clientArgs) s t s' res) :
    ∃ stopped verified, log t = cleanupLog workspace.containerName stopped verified ∧
      res = finishedResult workspace runtime endpoint clientArgs status
        (cleanupResult workspace.containerName stopped verified) := by
  unfold finishHostClientRun at h
  obtain ⟨stopped, verified, s1, t1, t2, rfl, hlog, h1⟩ := exec_cleanup h
  refine ⟨stopped, verified, ?_⟩
  have hend : t2 = [] ∧ res = finishedResult workspace runtime endpoint clientArgs status
      (cleanupResult workspace.containerName stopped verified) := by
    unfold finishedResult
    rcases status with e | status
    · obtain ⟨rfl, -, rfl⟩ := exec_fail.1 h1
      exact ⟨rfl, rfl⟩
    · simp only at h1 ⊢
      split_ifs at h1 ⊢ with hsuccess
      · rcases hcleanup : cleanupResult workspace.containerName stopped verified with e | _
        · rw [hcleanup] at h1
          obtain ⟨rfl, -, rfl⟩ := exec_fail.1 h1
          exact ⟨rfl, rfl⟩
        · rw [hcleanup] at h1
          obtain ⟨rfl, -, rfl⟩ := exec_done.1 h1
          exact ⟨rfl, rfl⟩
      · obtain ⟨rfl, -, rfl⟩ := exec_fail.1 h1
        exact ⟨rfl, rfl⟩
  obtain ⟨rfl, hres⟩ := hend
  exact ⟨by rw [List.append_nil, hlog], hres⟩

theorem exec_client {flag flag' : Bool} {t : List (Event HostOps Bool)} {endpoint : AttachEndpoint}
    (h : Exec interruptMachine ((runHostRuntimeClientStatus runtime endpoint
      workspace.canonicalTarget codexAttachToken clientArgs).attempt.bind fun status =>
        finishHostClientRun workspace runtime endpoint status clientArgs) flag t flag' res) :
    AfterStart workspace runtime codexAttachToken clientArgs
      (⟨.interrupted, false⟩ :: ⟨.waitForServerEndpoint workspace.containerName runtime
        .transientRunContainer, .ok (.ready endpoint)⟩ :: ⟨.interrupted, false⟩ :: log t) res := by
  unfold runHostRuntimeClientStatus at h
  rcases htoken : requiredCodexClientToken runtime codexAttachToken with e | token
  · rw [htoken] at h
    change Exec _ (finishHostClientRun workspace runtime endpoint (.error e) clientArgs) _ _ _ _ at h
    obtain ⟨stopped, verified, hlog, rfl⟩ := exec_finishHostClientRun h
    rw [hlog]
    exact .missingToken endpoint e stopped verified htoken
  · rw [htoken] at h
    change Exec _ ((runHostClient (runtime.hostClientCommand endpoint ++ clientArgs)
      workspace.canonicalTarget (token.map CodexAttachToken.value)).attempt.bind fun status =>
        finishHostClientRun workspace runtime endpoint status clientArgs) _ _ _ _ at h
    obtain ⟨status, s1, t1, rfl, hstep, h1⟩ := exec_runHostClient h
    obtain ⟨stopped, verified, hlog, rfl⟩ := exec_finishHostClientRun h1
    rw [log_cons, hlog]
    exact .connected endpoint token status stopped verified htoken hstep.2

/-- **The run of a transient run.** Its calls and its result, whatever the answers are. -/
theorem exec_executeTransientRunLaunch {flag flag' : Bool} {t : List (Event HostOps Bool)}
    (h : Exec interruptMachine
      (executeTransientRunLaunch workspace runtime spec codexAttachToken clientArgs) flag t flag' res) :
    (∀ call ∈ log t, isStart call = false) ∨
      ∃ installed after, log t = ⟨.installInterrupt "run", installed⟩ ::
          ⟨.runDetached workspace.containerName spec, .ok ()⟩ :: after ∧
        AfterStart workspace runtime codexAttachToken clientArgs after res := by
  unfold executeTransientRunLaunch launchDetachedServer at h
  simp only [Prog.bind_eq, Prog.bind_assoc] at h
  obtain ⟨installed, s1, t1, rfl, -, h1⟩ := exec_call.1 h
  rcases installed with e | ⟨⟩
  · obtain ⟨rfl, -, -⟩ := exec_fail.1 h1
    exact .inl (by simp [isStart])
  obtain ⟨ran, s2, t2, rfl, h2⟩ := exec_runDetached h1
  rcases ran with e | ⟨⟩
  · -- the container is not started
    simp only [Prog.bind_assoc] at h2
    refine .inl ?_
    obtain ⟨s3, t3, rfl, -, h3⟩ | ⟨stopped, verified, hlog, -⟩ := exec_checkInterrupted h2
    · obtain ⟨rfl, -, -⟩ := exec_fail.1 h3
      simp [isStart]
    · simp [hlog, cleanupLog, isStart]
  refine .inr ⟨.ok (), log t2, rfl, ?_⟩
  simp only [Prog.bind_assoc] at h2
  obtain ⟨s3, t3, rfl, -, h3⟩ | ⟨stopped, verified, hlog, rfl⟩ := exec_checkInterrupted h2
  · obtain ⟨wait, s4, t4, rfl, hwait, h4⟩ := exec_waitForServerEndpoint h3
    rcases wait with e | endpoint | _
    · -- the server did not get ready
      change Exec _ (Prog.bind (Prog.bind (Prog.bind (errorWithContainerLogs workspace
        .transientRun e) (withCleanupResult workspace)) Prog.fail) _) s4 t4 flag' res at h4
      rw [errorWithContainerLogs_eq] at h4
      simp only [Prog.bind_assoc, Prog.done_bind, Prog.fail_bind] at h4
      obtain ⟨logs, s5, t5, rfl, h5⟩ := exec_logsTail h4
      obtain ⟨stopped, verified, hlog, rfl⟩ := exec_withCleanupResult h5
      rw [log_cons, log_cons, log_cons, hlog]
      exact .notReady e logs stopped verified
    · simp only [Prog.bind_assoc] at h4
      obtain ⟨s5, t5, rfl, -, h5⟩ | ⟨stopped, verified, hlog, rfl⟩ := exec_checkInterrupted h4
      · rw [log_cons, log_cons, log_cons]
        exact exec_client h5
      · rw [log_cons, log_cons, hlog]
        exact .interruptedLater (.ready endpoint) stopped verified
    · -- the wait has seen the flag, and so does the check
      simp only [Prog.bind_assoc] at h4
      obtain ⟨s5, t5, rfl, hcheck, h5⟩ | ⟨stopped, verified, hlog, rfl⟩ := exec_checkInterrupted h4
      · cases hcheck.2.1 (hwait.2 rfl)
      · rw [log_cons, log_cons, hlog]
        exact .interruptedLater .interrupted stopped verified
  · rw [hlog]
    exact .interruptedAtOnce stopped verified

/-! ### Both outcomes -/

/-- The text of something that went wrong before the cleanup. -/
inductive IsFailure (workspace : WorkspaceIdentity) (runtime : RuntimeKind)
    (codexAttachToken : Option CodexAttachToken) (after : List ((o : HostOp) × o.Ret)) :
    String → Prop
  | interrupted (h : ⟨.interrupted, true⟩ ∈ after) :
    IsFailure workspace runtime codexAttachToken after (interruptedError workspace).display
  | notReady (name : String) (kind : RuntimeKind) (context : ServerEndpointContext) (error : Error)
      (h : ⟨.waitForServerEndpoint name kind context, .error error⟩ ∈ after) :
    IsFailure workspace runtime codexAttachToken after error.display
  | missingToken (name : String) (kind : RuntimeKind) (context : ServerEndpointContext)
      (endpoint : AttachEndpoint) (error : Error)
      (h : ⟨.waitForServerEndpoint name kind context, .ok (.ready endpoint)⟩ ∈ after)
      (hno : ⟨.interrupted, true⟩ ∉ after)
      (htoken : requiredCodexClientToken runtime codexAttachToken = .error error) :
    IsFailure workspace runtime codexAttachToken after error.display
  | notSpawned (argv : List String) (workdir : Utf8Path) (token : Option String) (error : Error)
      (h : ⟨.runHostClient argv workdir token, .error error⟩ ∈ after) :
    IsFailure workspace runtime codexAttachToken after error.display
  | exited (argv : List String) (workdir : Utf8Path) (token : Option String) (status : ExitStatus)
      (h : ⟨.runHostClient argv workdir token, .ok status⟩ ∈ after)
      (hstatus : status.success = false) :
    IsFailure workspace runtime codexAttachToken after
      ("`" ++ " ".intercalate argv ++ "` exited with " ++ status.text)

/-- The text is part of the message of the error. -/
def Mentions (error : Error) (text : String) : Prop := text.toList <:+: error.display.toList

theorem mentions_combined {error cleanupError : Error} {text : String} (h : Mentions error text) :
    Mentions (.msg (combinedErrorMessage error cleanupError)) text ∧
      Mentions (.msg (combinedErrorMessage error cleanupError)) cleanupError.display := by
  have hdisplay : (Error.msg (combinedErrorMessage error cleanupError)).display.toList =
      error.display.toList ++ "; additionally, ".toList ++ cleanupError.display.toList := by
    change (error.display ++ "; additionally, " ++ cleanupError.display).toList = _
    rw [String.toList_append, String.toList_append]
  rw [Mentions, Mentions, hdisplay]
  refine ⟨h.trans ?_, (List.suffix_append _ _).isInfix⟩
  exact (List.prefix_append _ _).isInfix.trans (List.prefix_append _ _).isInfix

/-- The run cleans up once, and its result tells both outcomes. -/
def CleansUp (workspace : WorkspaceIdentity) (runtime : RuntimeKind)
    (codexAttachToken : Option CodexAttachToken) (after : List ((o : HostOp) × o.Ret))
    (res : Except Error Unit) : Prop :=
  ∃ stopped verified,
    after.filter isCleanup = cleanupLog workspace.containerName stopped verified ∧
    (res = .ok () ↔ (∃ argv workdir token status,
      ⟨.runHostClient argv workdir token, .ok status⟩ ∈ after ∧ status.code = some 0) ∧
        verified = .ok false) ∧
    (∀ argv workdir token status code, ⟨.runHostClient argv workdir token, .ok status⟩ ∈ after →
      status.code = some code → code ≠ 0 → (mainExitCode res : Int) = code) ∧
    ∀ failure, cleanupFailure workspace.containerName stopped verified = some failure →
      ∀ text, IsFailure workspace runtime codexAttachToken after text →
        ∃ error, res = .error error ∧ Mentions error text ∧
          Mentions error (cleanupMessage workspace.containerName failure)

/-- A run that ends before its client. -/
theorem cleansUp_of_error {after : List ((o : HostOp) × o.Ret)} {error : Error}
    {stopped : Except Error Unit} {verified : Except Error Bool}
    (hcleanup : after.filter isCleanup = cleanupLog workspace.containerName stopped verified)
    (hclient : ∀ argv workdir token status, ⟨.runHostClient argv workdir token, status⟩ ∉ after)
    (hfailure : ∀ text, IsFailure workspace runtime codexAttachToken after text →
      Mentions error text) :
    CleansUp workspace runtime codexAttachToken after (.error (combineErrorWithCleanupResult error
      (cleanupResult workspace.containerName stopped verified))) := by
  refine ⟨stopped, verified, hcleanup, ⟨nofun, ?_⟩, ?_, fun failure hfailed text htext => ?_⟩
  · rintro ⟨⟨argv, workdir, token, status, hmem, -⟩, -⟩
    exact absurd hmem (hclient argv workdir token _)
  · intro argv workdir token status code hmem
    exact absurd hmem (hclient argv workdir token _)
  · refine ⟨_, rfl, ?_⟩
    simp only [cleanupResult, hfailed]
    exact mentions_combined (hfailure text htext)

theorem isCleanup_of_mem {containerName : String} {stopped : Except Error Unit}
    {verified : Except Error Bool} {call : (o : HostOp) × o.Ret}
    (h : call ∈ cleanupLog containerName stopped verified) : isCleanup call = true := by
  rcases List.mem_pair.1 h with rfl | rfl <;> rfl

theorem mentions_append (text rest : String) : Mentions (.msg (text ++ rest)) text := by
  have hdisplay : (Error.msg (text ++ rest)).display.toList = text.toList ++ rest.toList :=
    String.toList_append
  rw [Mentions, hdisplay]
  exact (List.prefix_append _ _).isInfix

theorem mentions_loggedError (error : Error) (logs : Except Error String) :
    Mentions (loggedError workspace error logs) error.display := by
  have happend : ∀ {s : String} (rest : String), (∃ r, s = error.display ++ r) →
      ∃ r, s ++ rest = error.display ++ r := by
    rintro s rest ⟨r, rfl⟩
    exact ⟨r ++ rest, String.append_assoc⟩
  have hself : ∃ r, error.display = error.display ++ r := ⟨"", String.append_empty.symm⟩
  have hstart : ∃ s, loggedError workspace error logs = .msg s ∧ ∃ r, s = error.display ++ r := by
    unfold loggedError
    rcases logs with e | logs
    · refine ⟨_, rfl, ?_⟩
      repeat refine happend _ ?_
      exact hself
    · simp only
      split_ifs
      · refine ⟨_, rfl, ?_⟩
        repeat refine happend _ ?_
        exact hself
      · refine ⟨_, rfl, ?_⟩
        repeat refine happend _ ?_
        exact hself
  obtain ⟨s, hs, rest, rfl⟩ := hstart
  rw [hs]
  exact mentions_append _ _

theorem cleanupResult_eq_ok {containerName : String} {stopped : Except Error Unit}
    {verified : Except Error Bool} :
    cleanupResult containerName stopped verified = .ok () ↔ verified = .ok false := by
  rw [← @cleanupFailure_eq_none containerName stopped, cleanupResult]
  rcases cleanupFailure containerName stopped verified with _ | failure
  · exact iff_of_true rfl rfl
  · exact iff_of_false nofun nofun

/-- A code of the client is the code of the process. -/
theorem mainExitCode_exitFailure {status : ExitStatus} {error : Error} {cleanup : Except Error Unit}
    {code : Int} (hcode : status.code = some code) (hrange : 0 ≤ code ∧ code < 256) :
    (mainExitCode (.error (exitFailure status error cleanup)) : Int) = code := by
  have hfilter : status.code.filter (fun code => 0 ≤ code && code < 256) = some code := by
    rw [hcode, Option.filter_some, if_pos (by simp [hrange])]
  unfold exitFailure
  rw [hfilter]
  rcases cleanup with e | _
  · exact Int.toNat_of_nonneg hrange.1
  · exact Int.toNat_of_nonneg hrange.1

/-- The error of a client mentions the client and the cleanup. -/
theorem mentions_exitFailure {status : ExitStatus} {error cleanupError : Error} :
    Mentions (exitFailure status error (.error cleanupError)) error.display ∧
      Mentions (exitFailure status error (.error cleanupError)) cleanupError.display := by
  have hboth := @mentions_combined error cleanupError _
    (show Mentions error error.display from List.infix_refl _)
  unfold exitFailure
  rcases hfilter : status.code.filter (fun code => 0 ≤ code && code < 256) with _ | code
  · simp only [hfilter]
    exact hboth
  · simp only [hfilter]
    exact hboth

theorem display_hostClientStatusError (runtime : RuntimeKind) (endpoint : AttachEndpoint)
    (launchDirectory : Utf8Path) (status : ExitStatus) (clientArgs : List String) :
    (hostClientStatusError runtime endpoint launchDirectory status clientArgs).display =
      "`" ++ " ".intercalate (runtime.hostClientCommand endpoint ++ clientArgs) ++
        "` exited with " ++ status.text :=
  Error.display_message _

section
variable {endpoint : AttachEndpoint} {clientArgs : List String}
  {token : Option CodexAttachToken} {status : Except Error ExitStatus}
  {stopped : Except Error Unit} {verified : Except Error Bool}

/-- The client is called once. -/
theorem client_of_mem {argv : List String} {workdir : Utf8Path} {token' : Option String}
    {status' : Except Error ExitStatus} (h : ⟨.runHostClient argv workdir token', status'⟩ ∈
      clientLog workspace runtime endpoint clientArgs token status stopped verified) :
    argv = runtime.hostClientCommand endpoint ++ clientArgs ∧ status' = status := by
  rcases h with _ | ⟨_, _ | ⟨_, _ | ⟨_, _ | ⟨_, h⟩⟩⟩⟩
  · exact ⟨rfl, rfl⟩
  · cases isCleanup_of_mem h

/-- A run whose client was started, or could not be. -/
theorem cleansUp_connected
    (htoken : requiredCodexClientToken runtime codexAttachToken = .ok token)
    (hcode : ∀ exit code, status = .ok exit → exit.code = some code → 0 ≤ code ∧ code < 256) :
    CleansUp workspace runtime codexAttachToken
      (clientLog workspace runtime endpoint clientArgs token status stopped verified)
      (finishedResult workspace runtime endpoint clientArgs status
        (cleanupResult workspace.containerName stopped verified)) := by
  have hmem : (⟨.runHostClient (runtime.hostClientCommand endpoint ++ clientArgs)
      workspace.canonicalTarget (token.map CodexAttachToken.value), status⟩ : (o : HostOp) × o.Ret) ∈
        clientLog workspace runtime endpoint clientArgs token status stopped verified :=
    .tail _ (.tail _ (.tail _ (.head _)))
  refine ⟨stopped, verified, rfl, ?_, ?_, ?_⟩
  · -- success
    unfold finishedResult
    rcases status with e | status
    · refine iff_of_false nofun ?_
      rintro ⟨⟨argv, workdir, token', status', h, -⟩, -⟩
      cases (client_of_mem h).2
    · by_cases hsuccess : status.success = true
      · simp only [hsuccess, if_true, cleanupResult_eq_ok]
        exact ⟨fun h => ⟨⟨_, _, _, _, hmem, eq_of_beq hsuccess⟩, h⟩, fun h => h.2⟩
      · simp only [hsuccess]
        refine iff_of_false nofun ?_
        rintro ⟨⟨argv, workdir, token', status', h, hzero⟩, -⟩
        cases (client_of_mem h).2
        exact hsuccess (beq_iff_eq.2 hzero)
  · -- the exit code
    intro argv workdir token' status' code h hsome hne
    obtain rfl := (client_of_mem h).2
    have hsuccess : ¬ status'.success = true := by
      intro hsuccess
      have hzero : status'.code = some 0 := eq_of_beq hsuccess
      rw [hsome] at hzero
      exact hne (Option.some.inj hzero)
    simp only [finishedResult, hsuccess]
    exact mainExitCode_exitFailure hsome (hcode _ _ rfl hsome)
  · -- both messages
    intro failure hfailed text htext
    have hcleanup : cleanupResult workspace.containerName stopped verified =
        .error (.msg (cleanupMessage workspace.containerName failure)) := by
      simp only [cleanupResult, hfailed]
    rw [hcleanup]
    cases htext with
    | interrupted h =>
      rcases h with _ | ⟨_, _ | ⟨_, _ | ⟨_, _ | ⟨_, h⟩⟩⟩⟩
      cases isCleanup_of_mem h
    | notReady name kind context error h =>
      rcases h with _ | ⟨_, _ | ⟨_, _ | ⟨_, _ | ⟨_, h⟩⟩⟩⟩
      cases isCleanup_of_mem h
    | missingToken name kind context endpoint' error h hno herror =>
      rw [htoken] at herror
      cases herror
    | notSpawned argv workdir token' error h =>
      obtain rfl := (client_of_mem h).2
      exact ⟨_, rfl, mentions_combined (List.infix_refl _)⟩
    | exited argv workdir token' status' h hstatus =>
      obtain ⟨rfl, rfl⟩ := client_of_mem h
      rw [← display_hostClientStatusError runtime endpoint workspace.canonicalTarget]
      simp only [finishedResult, hstatus, Bool.false_eq_true, if_false]
      generalize hostClientStatusError runtime endpoint workspace.canonicalTarget status'
        clientArgs = error
      generalize cleanupMessage workspace.containerName failure = message
      exact ⟨_, rfl, mentions_exitFailure⟩

end

/-- A run that is started cleans up. -/
theorem cleansUp_of_afterStart {after : List ((o : HostOp) × o.Ret)}
    (h : AfterStart workspace runtime codexAttachToken clientArgs after res) :
    CleansUp workspace runtime codexAttachToken after res := by
  cases h with
  | interruptedAtOnce stopped verified =>
    refine cleansUp_of_error rfl ?_ ?_
    · intro argv workdir token status h
      rcases h with _ | ⟨_, h⟩
      cases isCleanup_of_mem h
    · intro text htext
      cases htext with
      | interrupted h => exact List.infix_refl _
      | notReady name kind context error h =>
        rcases h with _ | ⟨_, h⟩
        cases isCleanup_of_mem h
      | missingToken name kind context endpoint error h hno herror =>
        exact absurd (.head _) hno
      | notSpawned argv workdir token error h =>
        rcases h with _ | ⟨_, h⟩
        cases isCleanup_of_mem h
      | exited argv workdir token status h hstatus =>
        rcases h with _ | ⟨_, h⟩
        cases isCleanup_of_mem h
  | notReady error logs stopped verified =>
    refine cleansUp_of_error rfl ?_ ?_
    · intro argv workdir token status h
      rcases h with _ | ⟨_, _ | ⟨_, _ | ⟨_, h⟩⟩⟩
      cases isCleanup_of_mem h
    · intro text htext
      cases htext with
      | interrupted h =>
        rcases h with _ | ⟨_, _ | ⟨_, _ | ⟨_, h⟩⟩⟩
        cases isCleanup_of_mem h
      | notReady name kind context error' h =>
        rcases h with _ | ⟨_, _ | ⟨_, _ | ⟨_, h⟩⟩⟩
        · exact mentions_loggedError error logs
        · cases isCleanup_of_mem h
      | missingToken name kind context endpoint error h hno herror =>
        rcases h with _ | ⟨_, _ | ⟨_, _ | ⟨_, h⟩⟩⟩
        cases isCleanup_of_mem h
      | notSpawned argv workdir token error h =>
        rcases h with _ | ⟨_, _ | ⟨_, _ | ⟨_, h⟩⟩⟩
        cases isCleanup_of_mem h
      | exited argv workdir token status h hstatus =>
        rcases h with _ | ⟨_, _ | ⟨_, _ | ⟨_, h⟩⟩⟩
        cases isCleanup_of_mem h
  | interruptedLater wait stopped verified =>
    refine cleansUp_of_error rfl ?_ ?_
    · intro argv workdir token status h
      rcases h with _ | ⟨_, _ | ⟨_, _ | ⟨_, h⟩⟩⟩
      cases isCleanup_of_mem h
    · intro text htext
      cases htext with
      | interrupted h => exact List.infix_refl _
      | notReady name kind context error h =>
        rcases h with _ | ⟨_, _ | ⟨_, _ | ⟨_, h⟩⟩⟩
        cases isCleanup_of_mem h
      | missingToken name kind context endpoint error h hno herror =>
        exact absurd (.tail _ (.tail _ (.head _))) hno
      | notSpawned argv workdir token error h =>
        rcases h with _ | ⟨_, _ | ⟨_, _ | ⟨_, h⟩⟩⟩
        cases isCleanup_of_mem h
      | exited argv workdir token status h hstatus =>
        rcases h with _ | ⟨_, _ | ⟨_, _ | ⟨_, h⟩⟩⟩
        cases isCleanup_of_mem h
  | missingToken endpoint error stopped verified htoken =>
    refine cleansUp_of_error rfl ?_ ?_
    · intro argv workdir token status h
      rcases h with _ | ⟨_, _ | ⟨_, _ | ⟨_, h⟩⟩⟩
      cases isCleanup_of_mem h
    · intro text htext
      cases htext with
      | interrupted h =>
        rcases h with _ | ⟨_, _ | ⟨_, _ | ⟨_, h⟩⟩⟩
        cases isCleanup_of_mem h
      | notReady name kind context error h =>
        rcases h with _ | ⟨_, _ | ⟨_, _ | ⟨_, h⟩⟩⟩
        cases isCleanup_of_mem h
      | missingToken name kind context endpoint' error' h hno herror =>
        rw [htoken] at herror
        cases herror
        exact List.infix_refl _
      | notSpawned argv workdir token error h =>
        rcases h with _ | ⟨_, _ | ⟨_, _ | ⟨_, h⟩⟩⟩
        cases isCleanup_of_mem h
      | exited argv workdir token status h hstatus =>
        rcases h with _ | ⟨_, _ | ⟨_, _ | ⟨_, h⟩⟩⟩
        cases isCleanup_of_mem h
  | connected endpoint token status stopped verified htoken hcode =>
    exact cleansUp_connected htoken hcode

theorem isStart_of_afterStart {after : List ((o : HostOp) × o.Ret)}
    (h : AfterStart workspace runtime codexAttachToken clientArgs after res) :
    ∀ call ∈ after, isStart call = false := by
  cases h <;> simp [isStart, cleanupLog, clientLog]

/-- **A transient run cleans up.** Whatever podman, the server, the client and the interrupt flag
do, a run whose container was started stops it and looks for it once before it returns, and its
result tells how the client and the cleanup ended. -/
theorem cleansUp {flag flag' : Bool} {t : List (Event HostOps Bool)}
    (h : Exec interruptMachine
      (executeTransientRunLaunch workspace runtime spec codexAttachToken clientArgs) flag t flag' res)
    {before after : List ((o : HostOp) × o.Ret)} {call : (o : HostOp) × o.Ret}
    (hlog : log t = before ++ call :: after) (hstart : isStart call = true) :
    CleansUp workspace runtime codexAttachToken after res := by
  obtain hnone | ⟨installed, after', hlog', hafter⟩ := exec_executeTransientRunLaunch h
  · have hcall : isStart call = false := hnone call (by rw [hlog]; simp)
    rw [hstart] at hcall
    cases hcall
  · rw [hlog'] at hlog
    rcases before with _ | ⟨first, _ | ⟨second, before⟩⟩
    · obtain ⟨rfl, -⟩ := List.cons.inj hlog
      cases hstart
    · obtain ⟨-, h1⟩ := List.cons.inj hlog
      obtain ⟨-, rfl⟩ := List.cons.inj h1
      exact cleansUp_of_afterStart hafter
    · obtain ⟨-, h1⟩ := List.cons.inj hlog
      obtain ⟨-, rfl⟩ := List.cons.inj h1
      have hcall : isStart call = false := isStart_of_afterStart hafter call (by simp)
      rw [hstart] at hcall
      cases hcall

def demoSpec : RuntimeRunSpec where
  create := ⟨"localhost/agentbox", ∅, [], ["agentbox"], ∅, [], {}⟩
  workdir := demoWorkspace.canonicalTarget

def demoEndpoint : AttachEndpoint := ⟨"http", "127.0.0.1", 40000⟩

/-- The client exits with 3, and the container is still there after its stop. -/
theorem cleansUp_demo : ∃ t res, Exec interruptMachine
      (executeTransientRunLaunch demoWorkspace .opencode demoSpec none []) false t true res ∧
    mainExitCode res = 3 ∧ ∃ after, log t = [⟨.installInterrupt "run", .ok ()⟩] ++
        ⟨.runDetached demoWorkspace.containerName demoSpec, .ok ()⟩ :: after ∧
      CleansUp demoWorkspace .opencode none after res := by
  have hcode : ∀ status code, (Except.ok ⟨some 3, "exit status: 3"⟩ : Except Error ExitStatus) =
      .ok status → status.code = some code → 0 ≤ code ∧ code < 256 := by
    rintro _ _ ⟨⟩ ⟨⟩
    exact ⟨by decide, by decide⟩
  have h : Exec interruptMachine (executeTransientRunLaunch demoWorkspace .opencode demoSpec none [])
      false _ true _ :=
    exec_call.2 ⟨.ok (), false, _, rfl, trivial,
      exec_call.2 ⟨.ok (), false, _, rfl, id,
      exec_call.2 ⟨false, false, _, rfl, ⟨id, nofun, nofun⟩,
      exec_call.2 ⟨.ok (.ready demoEndpoint), false, _, rfl, ⟨id, nofun⟩,
      exec_call.2 ⟨false, false, _, rfl, ⟨id, nofun, nofun⟩,
      exec_call.2 ⟨.ok ⟨some 3, "exit status: 3"⟩, true, _, rfl, ⟨fun _ => rfl, hcode⟩,
      exec_call.2 ⟨.ok (), true, _, rfl, id,
      exec_call.2 ⟨.ok true, true, _, rfl, id, .fail _ _⟩⟩⟩⟩⟩⟩⟩⟩
  obtain ⟨t, res, h, hres, after, hlog⟩ : ∃ t res, Exec interruptMachine
      (executeTransientRunLaunch demoWorkspace .opencode demoSpec none []) false t true res ∧
      mainExitCode res = 3 ∧ ∃ after, log t = [⟨.installInterrupt "run", .ok ()⟩] ++
        ⟨.runDetached demoWorkspace.containerName demoSpec, .ok ()⟩ :: after :=
    ⟨_, _, h, rfl, _, rfl⟩
  exact ⟨t, res, h, hres, after, hlog, cleansUp h hlog rfl⟩

end Agentbox.Commands.TransientRun
