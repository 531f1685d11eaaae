import Agentbox.Commands.DetachedServer
import Agentbox.Session.Restartable
import Agentbox.Session.Target

/-! # restart

`commands/restart.rs`: the target is resolved, locked and resolved again; what is stored on the
session is checked and prepared; then the session is stopped and a replacement started. -/

namespace Agentbox.Commands.Restart

open Agentbox.Base.Path Agentbox.Base.Errors Agentbox.Config.Limits Agentbox.Files.Snapshot
  Agentbox.Lib.Program Agentbox.Runtime.Kind Agentbox.Workspace.Identity Agentbox.Session.Record
  Agentbox.Session.Restartable Agentbox.Session.Target Agentbox.Commands.HostCalls
  Agentbox.Commands.WorkspaceFlow Agentbox.Commands.ContainerCleanup
  Agentbox.Commands.ContainerLaunch Agentbox.Commands.DetachedServer Agentbox.DevEnv.Environment

structure RestartArgs where
  target : SessionTargetInput
  devEnv : DevEnvMode
  connect : Bool
  overrides : ResourceLimitOverrides

def restartResourceLimits (session : SessionRecord) (overrides : ResourceLimitOverrides) :
    Command ResourceLimits := do
  let defaults ← loadConfig
  let stored ← Prog.ofExcept session.metadata.storedResourceLimits
  return ⟨(overrides.cpus.or stored.cpus).or defaults.cpus,
    (overrides.memory.or stored.memory).or defaults.memory⟩

/-- The workspace of a stored launch directory. -/
def restartWorkspaceOf (host : Host) (gitRoot : Utf8Path) (session : SessionRecord)
    (launchDirectory : Utf8Path) : Except Error WorkspaceIdentity :=
  match resolveWorkspaceIdentity host (.utf8 launchDirectory) with
  | .error error => .error (.msg ("stored launch directory `" ++ launchDirectory.asStr ++
      "` for managed session `" ++ session.containerName ++ "` cannot be used for restart: " ++
      error.display))
  | .ok workspace =>
    if workspace.canonicalGitRoot.asStr = gitRoot.asStr then .ok workspace
    else .error (.msg ("stored launch directory `" ++ launchDirectory.asStr ++
      "` for managed session `" ++ session.containerName ++ "` now resolves to git root `" ++
      workspace.canonicalGitRoot.asStr ++ "` instead of `" ++ gitRoot.asStr ++
      "`; stop and start the session from the desired directory"))

def restartLaunchWorkspace (gitRoot : Utf8Path) (session : SessionRecord)
    (launchDirectory : Utf8Path) : Command WorkspaceIdentity := do
  let host ← readHost
  Prog.ofExcept (restartWorkspaceOf host gitRoot session launchDirectory)

def stopExistingSession (session : SessionRecord) : Command Unit := do
  let cleanup ← ManagedContainerCleanup.stopAndVerify session.containerName
  match cleanup.remainingFailure session.containerName with
  | some failure => .fail (.msg ("failed to stop managed session `" ++ session.containerName ++
      "` for restart; replacement was not started: " ++ failure.renderStopMessage))
  | none => .done ()

def restartAfterStopError (workspace : WorkspaceIdentity) (runtime : RuntimeKind) (error : Error) :
    Error :=
  .msg (error.display ++ "\n\nThe previous managed session for `" ++
    workspace.canonicalGitRoot.asStr ++ "` may already be gone because restart stopped it before " ++
    "starting the replacement. Retry with `agentbox start --runtime " ++ runtime.asStr ++ " " ++
    workspace.canonicalTarget.asStr ++ "` or inspect the container with Podman.")

def restartServerLaunchPolicy (workspace : WorkspaceIdentity) (runtime : RuntimeKind) :
    ManagedServerLaunchPolicy where
  commandName := "restart"
  createAction := "start the replacement runtime server command"
  checkInterrupted := do
    if ← interrupted then
      .fail (restartAfterStopError workspace runtime
        (.msg "restart interrupted after the previous managed session was stopped"))
    else return ()
  wrapError error := restartAfterStopError workspace runtime error

/-- What is done with the selected session: it is prepared, stopped and replaced. -/
def restartSession (args : RestartArgs) (gitRoot : Utf8Path) (session : SessionRecord) :
    Command Unit := do
  let restart ← Prog.ofExcept (prepareRestartSession args.target.display session)
  let workspace ← restartLaunchWorkspace gitRoot restart.session restart.launchDirectory
  let resourceLimits ← restartResourceLimits restart.session args.overrides
  let preparation ← prepareRuntimeLaunch (replacementServerLaunchRequest workspace restart.runtime
    args.devEnv args.connect restart.serverArgs resourceLimits)
  stopExistingSession restart.session
  executeManagedServerLaunch workspace restart.runtime preparation.runSpec
    preparation.codexAttachToken (restartServerLaunchPolicy workspace restart.runtime)
    { created := "restarted"
      connect := args.connect
      clientLaunchDirectory := workspace.canonicalTarget
      retryTarget := workspace.canonicalTarget }

def restartLocked (args : RestartArgs) (plan : RestartSessionTargetPlan) : Command Unit := do
  let session ← plan.selectSessionCandidate readHost (discoverSessions plan.lockGitRoot)
    discoverAgentboxContainers plan.lockGitRoot
  restartSession args plan.lockGitRoot session

def restartTarget (args : RestartArgs) : Command Unit := do
  let plan ← RestartSessionTargetPlan.resolve readHost discoverAgentboxContainers args.target
  withLockedGitRoot plan.lockGitRoot (restartLocked args plan)

end Agentbox.Commands.Restart
