import Agentbox.Lib.Program
import Agentbox.Session.Inspected
import Agentbox.Session.Selection

/-! # Conflicts

`session/conflict.rs`: the errors for a container that is in the way of a launch. Some of them ask
Podman what the container is. -/

namespace Agentbox.Session.Conflict

open Agentbox.Base.Path Agentbox.Base.Errors Agentbox.Lib.Program Agentbox.Metadata.Labels
  Agentbox.Podman.Model Agentbox.Runtime.Spec Agentbox.Workspace.Identity Agentbox.Session.Record
  Agentbox.Session.Inspected Agentbox.Session.Selection

def duplicateAgentboxContainersError (workspace : WorkspaceIdentity) : Error :=
  .duplicateAgentboxContainers workspace.canonicalGitRoot

def genericFailedSessionError (workspace : WorkspaceIdentity) (containerName : String) : Error :=
  .failedManagedSession workspace.canonicalGitRoot containerName

def failureConflictError (workspace : WorkspaceIdentity) (containerKind : AgentboxContainerKind)
    (containerName : String) (failure : SessionFailure) : Error :=
  resourceFailureRequiresActionError containerKind workspace.canonicalGitRoot containerName failure

def unmanagedContainerConflictError (workspace : WorkspaceIdentity) : Error :=
  .msg ("container name `" ++ workspace.containerName ++
    "` is already in use by a different container; remove or rename that container before " ++
    "retrying `" ++ workspace.canonicalGitRoot.asStr ++ "`")

def runningExistingResourceError (workspace : WorkspaceIdentity) (session : SessionRecord) :
    Error :=
  match session.containerKind with
  | .managed => .msg ("managed session `" ++ session.containerName ++
      "` is already running for `" ++ workspace.canonicalGitRoot.asStr ++
      "`; use `agentbox connect " ++ workspace.requestedTarget.asStr ++
      "` to connect to it or `agentbox stop " ++ workspace.requestedTarget.asStr ++
      "` to stop it first")
  | .run => .msg ("transient run container `" ++ session.containerName ++
      "` is already running for `" ++ workspace.canonicalGitRoot.asStr ++
      "`; use `agentbox stop " ++ session.stableId.getD session.containerName ++
      "` to stop it first")

/-! ### Named containers -/

structure ManagedContainerConflict where
  workspace : WorkspaceIdentity
  containerName : String
  containerKind : AgentboxContainerKind
  identity : SessionIdentityLabels
  sameRootFailure : Option SessionFailure
  inspect : PodmanContainerInspect

namespace ManagedContainerConflict

variable (c : ManagedContainerConflict)

def rootMatchesWorkspace : Bool :=
  c.identity.canonicalGitRoot.asStr == c.workspace.canonicalGitRoot.asStr

def hashMatchesWorkspace : Bool := c.identity.gitRootHash == c.workspace.hash12

def hashMatchesDifferentRoot : Bool := c.hashMatchesWorkspace && !c.rootMatchesWorkspace

def sameRootError : Error :=
  match c.sameRootFailure with
  | some failure => failureConflictError c.workspace c.containerKind c.containerName failure
  | none =>
    if !c.hashMatchesWorkspace then
      failureConflictError c.workspace c.containerKind c.containerName .driftedGitRootHash
    else if !hasVolumeMountDestination c.inspect.mounts NIX_CACHE_DESTINATION then
      failureConflictError c.workspace c.containerKind c.containerName .missingCacheMount
    else genericFailedSessionError c.workspace c.containerName

def hashCollisionError : Error :=
  .msg ("managed container `" ++ c.containerName ++ "` collides on git-root hash `" ++
    c.workspace.hash12 ++ "`: stored root `" ++ c.identity.canonicalGitRoot.asStr ++
    "` does not match `" ++ c.workspace.canonicalGitRoot.asStr ++
    "`; remove or recreate the conflicting container before retrying")

def differentRootError : Error :=
  let resource := match c.containerKind with
    | .managed => "managed session"
    | .run => "transient run container"
  .msg ("container name `" ++ c.workspace.containerName ++ "` is already used by " ++ resource ++
    " `" ++ c.containerName ++ "` for `" ++ c.identity.canonicalGitRoot.asStr ++
    "`; remove or rename the conflicting container before retrying `" ++
    c.workspace.canonicalGitRoot.asStr ++ "`")

def classify : Error :=
  if c.hashMatchesDifferentRoot then c.hashCollisionError
  else if c.rootMatchesWorkspace then c.sameRootError
  else c.differentRootError

end ManagedContainerConflict

def errorOf {ε α : Type} : Except ε α → Option ε
  | .error e => some e
  | .ok _ => none

def classifyNamedContainerConflict (workspace : WorkspaceIdentity) (expectedName : String)
    (inspect : PodmanContainerInspect) : Error :=
  let metadata : SessionMetadata := ⟨inspect.labels⟩
  let containerName := metadata.logicalNameOr expectedName
  match metadata.containerKind with
  | none => unmanagedContainerConflictError workspace
  | some containerKind =>
    let report := SessionLabelReport.fromMetadata metadata
    match report.identity with
    | .error failure => failureConflictError workspace containerKind containerName failure
    | .ok identity =>
      ManagedContainerConflict.classify ⟨workspace, containerName, containerKind, identity,
        (errorOf report.required).or (errorOf report.attachLabels), inspect⟩

/-! ### Asking Podman -/

variable {S : Sig} (inspectOne : String → Prog S Error PodmanContainerInspect)

def existingSessionError (workspace : WorkspaceIdentity) (session : SessionRecord) :
    Prog S Error Error :=
  match session.status with
  | .duplicate => .done (duplicateSessionsError workspace)
  | .running => .done (runningExistingResourceError workspace session)
  | .orphaned =>
    .done (.orphanedManagedSession workspace.canonicalGitRoot session.containerName)
  | .failed (some failure) =>
    .done (resourceFailureRequiresActionError session.containerKind workspace.canonicalGitRoot
      session.containerName failure)
  | .failed none => do
    match ← (inspectOne session.containerName).attempt with
    | .ok inspect => return classifyNamedContainerConflict workspace session.containerName inspect
    | .error _ => return genericFailedSessionError workspace session.containerName

def classifyCreateErrorOrElse (workspace : WorkspaceIdentity) (createSpec : RuntimeCreateSpec)
    (originalError : Error) (fallback : Error → Prog S Error Error) : Prog S Error Error := do
  let expectedName := createSpec.logicalName.getD workspace.containerName
  match ← (inspectOne workspace.containerName).attempt with
  | .ok inspect => return classifyNamedContainerConflict workspace expectedName inspect
  | .error _ => fallback originalError

end Agentbox.Session.Conflict
