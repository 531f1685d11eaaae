import Agentbox.Commands.CodexAttachAuth

/-! # Stopping containers

`commands/container_cleanup.rs`: a container is stopped, and then it is asked whether it is gone. -/

namespace Agentbox.Commands.ContainerCleanup

open Agentbox.Base.Text Agentbox.Base.Errors Agentbox.Lib.Program Agentbox.Workspace.Identity
  Agentbox.Session.Record Agentbox.Commands.HostCalls Agentbox.Commands.CodexAttachAuth

inductive ContainerCleanupVerification
  | removed
  | stillExists
  | failed (error : String)
  deriving DecidableEq, Repr

inductive ContainerCleanupIssue
  | stopFailed (error : String)
  | stillExists
  | verificationFailed (error : String)
  deriving DecidableEq, Repr

structure ManagedContainerCleanup where
  stopError : Option String
  verification : ContainerCleanupVerification
  deriving DecidableEq, Repr

structure ContainerCleanupFailure where
  containerName : String
  issues : List ContainerCleanupIssue
  deriving DecidableEq, Repr

namespace ContainerCleanupIssue

def interruptedMessage : ContainerCleanupIssue → String
  | stopFailed error => "container stop failed: " ++ error
  | stillExists => "container still exists after cleanup"
  | verificationFailed error => "container cleanup verification failed: " ++ error

def stopMessage : ContainerCleanupIssue → String
  | stopFailed error => "stop failed: " ++ error
  | stillExists => "container still exists after stop"
  | verificationFailed error => "follow-up inspect failed: " ++ error

end ContainerCleanupIssue

def ContainerCleanupFailure.renderStopMessage (failure : ContainerCleanupFailure) : String :=
  "container `" ++ failure.containerName ++ "` (" ++
    joinComma (failure.issues.map ContainerCleanupIssue.stopMessage) ++ ")"

def ContainerCleanupVerification.ofExists : Except Error Bool → ContainerCleanupVerification
  | .ok false => removed
  | .ok true => stillExists
  | .error e => failed e.display

def stopErrorOf : Except Error Unit → Option String
  | .ok _ => none
  | .error e => some e.display

namespace ManagedContainerCleanup

def stopAndVerify (containerName : String) : Command ManagedContainerCleanup := do
  let stopped ← (stopIgnore containerName).attempt
  let verified ← (containerExists containerName).attempt
  return ⟨stopErrorOf stopped, .ofExists verified⟩

variable (cleanup : ManagedContainerCleanup)

def containerRemoved : Bool := cleanup.verification == .removed

def stopIssue : Option ContainerCleanupIssue := cleanup.stopError.map .stopFailed

def remainingContainerIssue : Option ContainerCleanupIssue :=
  match cleanup.verification with
  | .removed => none
  | .stillExists => some .stillExists
  | .failed error => some (.verificationFailed error)

def interruptedMessages : List String :=
  (cleanup.stopIssue.toList ++ cleanup.remainingContainerIssue.toList).map
    ContainerCleanupIssue.interruptedMessage

def interruptedCacheVolumeSkipMessage : Option String :=
  match cleanup.verification with
  | .removed => none
  | .stillExists => some "cache volume removal skipped because the container still exists"
  | .failed _ =>
    some "cache volume removal skipped because container cleanup could not be verified"

def remainingFailure (containerName : String) : Option ContainerCleanupFailure :=
  cleanup.remainingContainerIssue.map fun issue =>
    ⟨containerName, cleanup.stopIssue.toList ++ [issue]⟩

end ManagedContainerCleanup

def combinedErrorMessage (error cleanupError : Error) : String :=
  error.display ++ "; additionally, " ++ cleanupError.display

def combineErrorWithCleanupResult (error : Error) : Except Error Unit → Error
  | .ok _ => error
  | .error cleanupError => .msg (combinedErrorMessage error cleanupError)

def cleanupTransientContainer (workspace : WorkspaceIdentity) : Command Unit := do
  let cleanup ← ManagedContainerCleanup.stopAndVerify workspace.containerName
  match cleanup.remainingFailure workspace.containerName with
  | some failure => .fail (.msg ("failed to clean up transient run container `" ++
      workspace.containerName ++ "`: " ++ failure.renderStopMessage))
  | none => .done ()

def cleanupManagedContainer (session : SessionRecord) :
    Command (Option ContainerCleanupFailure) := do
  let cleanup ← ManagedContainerCleanup.stopAndVerify session.containerName
  match cleanup.remainingFailure session.containerName with
  | some failure => return some failure
  | none => do
    let _ ← (removeCodexAttachTokenForSession session).attempt
    return none

def cleanupManagedContainers : List SessionRecord → Command (List ContainerCleanupFailure)
  | [] => .done []
  | session :: sessions => do
    let failure ← cleanupManagedContainer session
    let failures ← cleanupManagedContainers sessions
    return failure.toList ++ failures

end Agentbox.Commands.ContainerCleanup
