import Agentbox.Commands.ContainerCleanup
import Agentbox.Commands.ContainerLaunch

/-! # Starting a detached server

`commands/detached_server.rs` with its two lifecycles, the managed server and the transient run. -/

namespace Agentbox.Commands.DetachedServer

open Agentbox.Base.Text Agentbox.Base.Path Agentbox.Base.Errors Agentbox.Lib.Program
  Agentbox.Runtime.Kind Agentbox.Runtime.Spec Agentbox.Workspace.Identity Agentbox.Session.Conflict
  Agentbox.Commands.HostCalls Agentbox.Commands.CodexAttachAuth Agentbox.Commands.ContainerCleanup
  Agentbox.Commands.RuntimeCommand

/-! ### Logs -/

def FAILURE_LOG_TAIL_LINES : Nat := 80

inductive ContainerLogContext
  | managedSession
  | transientRun
  deriving DecidableEq, Repr

def ContainerLogContext.description : ContainerLogContext → String
  | managedSession => "container"
  | transientRun => "transient run container"

/-- `str::trim_end`. -/
def trimEnd (s : String) : String :=
  String.ofList (s.toList.reverse.dropWhile isWhitespace).reverse

def errorWithContainerLogs (workspace : WorkspaceIdentity) (context : ContainerLogContext)
    (originalError : Error) : Command Error := do
  let containerName := workspace.containerName
  let command := "podman logs --tail " ++ s!"{FAILURE_LOG_TAIL_LINES}" ++ " " ++ containerName
  match ← (logsTail containerName).attempt with
  | .ok logs =>
    if trimEnd logs = "" then
      .done (.msg (originalError.display ++ "\n\n" ++ context.description ++ " `" ++
        containerName ++ "` produced no logs; inspect it with `" ++ command ++ "`"))
    else
      .done (.msg (originalError.display ++ "\n\n" ++ context.description ++ " logs (`" ++
        command ++ "`):\n" ++ trimEnd logs))
  | .error logError =>
    .done (.msg (originalError.display ++ "\n\nfailed to read " ++ context.description ++
      " logs with `" ++ command ++ "`: " ++ logError.display))

/-! ### The launch -/

/-- `DetachedServerLifecycle`, of one workspace and specification. -/
structure DetachedServerLifecycle where
  commandName : String
  readinessContext : ServerEndpointContext
  /-- Fails, after its cleanup, when the command was interrupted. -/
  checkInterrupted : Command Unit
  runDetachedError : Error → Command Error
  readinessError : Error → Command Error

def launchDetachedServer (workspace : WorkspaceIdentity) (runtime : RuntimeKind)
    (spec : RuntimeRunSpec) (lifecycle : DetachedServerLifecycle) : Command AttachEndpoint := do
  installInterrupt lifecycle.commandName
  match ← (runDetached workspace.containerName spec).attempt with
  | .error error => do
    lifecycle.checkInterrupted
    let error ← lifecycle.runDetachedError error
    .fail error
  | .ok () => do
    lifecycle.checkInterrupted
    let wait ← (waitForServerEndpoint workspace.containerName runtime
      lifecycle.readinessContext).attempt
    match wait with
    | .error error => do
      let error ← lifecycle.readinessError error
      .fail error
    | .ok .interrupted => do
      lifecycle.checkInterrupted
      .fail (.msg "runtime server readiness wait was interrupted")
    | .ok (.ready endpoint) => do
      lifecycle.checkInterrupted
      return endpoint

/-! ### Managed servers -/

structure ManagedServerLaunchPolicy where
  commandName : String
  createAction : String
  checkInterrupted : Command Unit
  wrapError : Error → Error

def classifyManagedServerCreateError (workspace : WorkspaceIdentity) (spec : RuntimeRunSpec)
    (action : String) (originalError : Error) : Command Error :=
  let wrapped := Error.runtimeCommandFailed workspace.canonicalGitRoot workspace.containerName
    action originalError.display
  classifyCreateErrorOrElse inspectOne workspace spec.create wrapped
    (errorWithContainerLogs workspace .managedSession)

def managedServerLifecycle (workspace : WorkspaceIdentity) (spec : RuntimeRunSpec)
    (policy : ManagedServerLaunchPolicy) : DetachedServerLifecycle where
  commandName := policy.commandName
  readinessContext := .managedSession
  checkInterrupted := policy.checkInterrupted
  runDetachedError error := do
    let error ← classifyManagedServerCreateError workspace spec policy.createAction error
    return policy.wrapError error
  readinessError error := do
    let error ← errorWithContainerLogs workspace .managedSession error
    return policy.wrapError error

structure ManagedServerCompletion where
  /-- How the session came to be, in the text of an error. -/
  created : String
  connect : Bool
  clientLaunchDirectory : Utf8Path
  retryTarget : Utf8Path

/-- `ManagedServerLaunch::execute`. -/
def executeManagedServerLaunch (workspace : WorkspaceIdentity) (runtime : RuntimeKind)
    (spec : RuntimeRunSpec) (codexAttachToken : Option CodexAttachToken)
    (policy : ManagedServerLaunchPolicy) (completion : ManagedServerCompletion) : Command Unit := do
  let endpoint ← launchDetachedServer workspace runtime spec
    (managedServerLifecycle workspace spec policy)
  if completion.connect then
    let result ← (runHostRuntimeClient runtime endpoint completion.clientLaunchDirectory
      codexAttachToken []).attempt
    match result with
    | .ok () => return ()
    | .error error => .fail (.msg ("failed to connect to " ++ completion.created ++
        " managed session `" ++ workspace.containerName ++ "` for `" ++
        workspace.canonicalGitRoot.asStr ++ "`: " ++ error.display ++
        ". The session remains running; retry with `agentbox connect " ++
        completion.retryTarget.asStr ++ "` or stop it with `agentbox stop " ++
        completion.retryTarget.asStr ++ "`."))
  else return ()

/-! ### Transient runs -/

/-- `TransientRun::cleanup` and an error before it. -/
def withCleanupResult (workspace : WorkspaceIdentity) (error : Error) : Command Error := do
  let cleanup ← (cleanupTransientContainer workspace).attempt
  return combineErrorWithCleanupResult error cleanup

def transientServerLifecycle (workspace : WorkspaceIdentity) : DetachedServerLifecycle where
  commandName := "run"
  readinessContext := .transientRunContainer
  checkInterrupted := do
    if ← interrupted then
      let error ← withCleanupResult workspace (.msg
        ("run interrupted before transient container `" ++ workspace.containerName ++ "` for `" ++
          workspace.canonicalGitRoot.asStr ++ "` finished"))
      .fail error
    else return ()
  runDetachedError error := .done (.msg ("failed to start transient run container `" ++
    workspace.containerName ++ "` for `" ++ workspace.canonicalGitRoot.asStr ++ "`: " ++
    error.display))
  readinessError error := do
    let error ← errorWithContainerLogs workspace .transientRun error
    withCleanupResult workspace error

/-- `CommandExitFailure::into_error_with_cleanup_result`, of a status that is not a success. -/
def exitFailure (status : ExitStatus) (error : Error) (cleanup : Except Error Unit) : Error :=
  match status.code.filter (fun code => 0 ≤ code && code < 256), cleanup with
  | some code, .ok _ => .exitCode code.toNat
  | some code, .error cleanupError =>
    .exitCodeWithMessage code.toNat (combinedErrorMessage error cleanupError)
  | none, cleanup => combineErrorWithCleanupResult error cleanup

/-- `TransientRun::finish_host_client_run`. -/
def finishHostClientRun (workspace : WorkspaceIdentity) (runtime : RuntimeKind)
    (endpoint : AttachEndpoint) (status : Except Error ExitStatus) (clientArgs : List String) :
    Command Unit := do
  let cleanup ← (cleanupTransientContainer workspace).attempt
  match status with
  | .ok status =>
    if status.success then Prog.ofExcept cleanup
    else .fail (exitFailure status (hostClientStatusError runtime endpoint
      workspace.canonicalTarget status clientArgs) cleanup)
  | .error error => .fail (combineErrorWithCleanupResult error cleanup)

/-- `TransientRunLaunch::execute`. -/
def executeTransientRunLaunch (workspace : WorkspaceIdentity) (runtime : RuntimeKind)
    (spec : RuntimeRunSpec) (codexAttachToken : Option CodexAttachToken) (clientArgs : List String) :
    Command Unit := do
  let endpoint ← launchDetachedServer workspace runtime spec (transientServerLifecycle workspace)
  let status ← (runHostRuntimeClientStatus runtime endpoint workspace.canonicalTarget
    codexAttachToken clientArgs).attempt
  finishHostClientRun workspace runtime endpoint status clientArgs

end Agentbox.Commands.DetachedServer
