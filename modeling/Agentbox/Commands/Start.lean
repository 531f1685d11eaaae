import Agentbox.Commands.DetachedServer

/-! # start and run

`commands/start.rs` with `start/interrupt.rs`, and `commands/run.rs`. The runtime is chosen before
the command gets here. -/

namespace Agentbox.Commands.Start

open Agentbox.Base.Text Agentbox.Base.Errors Agentbox.Config.Limits Agentbox.Files.Snapshot
  Agentbox.Lib.Program Agentbox.Runtime.Kind Agentbox.Workspace.Identity Agentbox.Commands.HostCalls
  Agentbox.Commands.WorkspaceFlow Agentbox.Commands.ContainerCleanup
  Agentbox.Commands.ContainerLaunch Agentbox.Commands.DetachedServer Agentbox.DevEnv.Environment

structure StartArgs where
  runtime : RuntimeKind
  devEnv : DevEnvMode
  connect : Bool
  limits : ResourceLimitOverrides
  directory : OsPath
  agentArgs : List String

/-! ### Interrupts -/

/-- `InterruptedRunCleanup`. -/
structure InterruptedRunCleanup where
  failures : List String
  cacheVolumeRemoved : Bool

namespace InterruptedRunCleanup

def run (workspace : WorkspaceIdentity) (cacheVolumeExistedBefore : Bool) :
    Command InterruptedRunCleanup := do
  let cleanup ← ManagedContainerCleanup.stopAndVerify workspace.containerName
  let failures := cleanup.interruptedMessages
  if cacheVolumeExistedBefore then return ⟨failures, false⟩
  else if cleanup.containerRemoved then
    match ← (removeVolume workspace.containerName).attempt with
    | .ok () => return ⟨failures, true⟩
    | .error error => return ⟨failures ++ ["cache volume removal failed: " ++ error.display], false⟩
  else return ⟨failures ++ cleanup.interruptedCacheVolumeSkipMessage.toList, false⟩

def render (cleanup : InterruptedRunCleanup) (workspace : WorkspaceIdentity)
    (cacheVolumeExistedBefore : Bool) : String :=
  let volume := "cache volume `" ++ workspace.containerName ++ "`"
  let volumeDetail :=
    if cacheVolumeExistedBefore then "preserved existing " ++ volume
    else if cleanup.cacheVolumeRemoved then "removed newly-created " ++ volume
    else "no new " ++ volume ++ " remained"
  let detail :=
    if cleanup.failures = [] then
      "; cleaned up managed container `" ++ workspace.containerName ++ "` and " ++ volumeDetail
    else "; partial cleanup failed: " ++ "; ".intercalate cleanup.failures
  "start interrupted before managed session `" ++ workspace.containerName ++ "` for `" ++
    workspace.canonicalGitRoot.asStr ++ "` became ready" ++ detail ++
    "; default runtime image was left untouched"

end InterruptedRunCleanup

def startServerLaunchPolicy (workspace : WorkspaceIdentity) (cacheVolumeExistedBefore : Bool) :
    ManagedServerLaunchPolicy where
  commandName := "start"
  createAction := "start the runtime server command"
  checkInterrupted := do
    if ← interrupted then
      let cleanup ← InterruptedRunCleanup.run workspace cacheVolumeExistedBefore
      .fail (.msg (cleanup.render workspace cacheVolumeExistedBefore))
    else return ()
  wrapError error := error

/-! ### The commands -/

/-- `start`, under the lock of the workspace. -/
def startLocked (args : StartArgs) (resourceLimits : ResourceLimits)
    (workspace : WorkspaceIdentity) : Command Unit := do
  let preparation ← prepareRuntimeLaunch (managedServerLaunchRequest workspace args.runtime
    args.devEnv args.connect args.agentArgs resourceLimits)
  let cacheVolumeExistedBefore ← volumeExists workspace.containerName
  executeManagedServerLaunch workspace args.runtime preparation.runSpec
    preparation.codexAttachToken (startServerLaunchPolicy workspace cacheVolumeExistedBefore)
    { created := "newly created"
      connect := args.connect
      clientLaunchDirectory := workspace.canonicalTarget
      retryTarget := workspace.requestedTarget }

/-- `run` of `commands/start.rs`. -/
def start (args : StartArgs) : Command Unit := do
  let defaults ← loadConfig
  withLockedWorkspace args.directory (startLocked args (defaults.overlay args.limits))

structure RunArgs where
  runtime : RuntimeKind
  devEnv : DevEnvMode
  limits : ResourceLimitOverrides
  directory : OsPath
  agentArgs : List String

def runLocked (args : RunArgs) (resourceLimits : ResourceLimits) (workspace : WorkspaceIdentity) :
    Command Unit := do
  let preparation ← prepareRuntimeLaunch (transientServerLaunchRequest workspace args.runtime
    args.devEnv resourceLimits)
  executeTransientRunLaunch workspace args.runtime preparation.runSpec preparation.codexAttachToken
    args.agentArgs

/-- `run` of `commands/run.rs`. -/
def run (args : RunArgs) : Command Unit := do
  let defaults ← loadConfig
  withLockedWorkspace args.directory (runLocked args (defaults.overlay args.limits))

end Agentbox.Commands.Start
