import Agentbox.Commands.RuntimeCommand
import Agentbox.Commands.WorkspaceFlow
import Agentbox.Session.Conflict

/-! # Preparing a launch

`commands/container_launch`: the checks before a server container is started, and the specification
that it is started with. -/

namespace Agentbox.Commands.ContainerLaunch

open Agentbox.Base.Path Agentbox.Base.Errors Agentbox.Config.Limits Agentbox.Lib.Program
  Agentbox.Metadata.Labels Agentbox.Metadata.Session Agentbox.Runtime.Kind Agentbox.Runtime.Spec
  Agentbox.Workspace.Identity Agentbox.Session.Record Agentbox.Session.Selection
  Agentbox.Session.Conflict Agentbox.Commands.HostCalls Agentbox.Commands.WorkspaceFlow
  Agentbox.Commands.CodexAttachAuth Agentbox.Commands.RuntimeCommand Agentbox.DevEnv.Environment

/-! ### Policies -/

inductive HostClientRequirement
  | required
  | notRequired
  deriving DecidableEq, Repr

inductive ExistingResourceScope
  | managedSessions
  | agentboxContainers
  deriving DecidableEq, Repr

inductive ExistingResourceCheck
  | requireAbsent (scope : ExistingResourceScope)
  | allowExisting
  deriving DecidableEq, Repr

structure RuntimeLaunchPolicy where
  runMode : RuntimeRunMode
  hostClient : HostClientRequirement
  existingCheck : ExistingResourceCheck
  recordRuntimeImageVersion : Bool
  deriving DecidableEq, Repr

def hostClientForConnect (connectAfterStart : Bool) : HostClientRequirement :=
  if connectAfterStart then .required else .notRequired

namespace RuntimeLaunchPolicy

def managedServer (connectAfterStart : Bool) : RuntimeLaunchPolicy where
  runMode := .managedSession
  hostClient := hostClientForConnect connectAfterStart
  existingCheck := .requireAbsent .agentboxContainers
  recordRuntimeImageVersion := true

def transientServer : RuntimeLaunchPolicy where
  runMode := .transientServer
  hostClient := .required
  existingCheck := .requireAbsent .agentboxContainers
  recordRuntimeImageVersion := false

def replacementServer (connectAfterStart : Bool) : RuntimeLaunchPolicy where
  runMode := .managedSession
  hostClient := hostClientForConnect connectAfterStart
  existingCheck := .allowExisting
  recordRuntimeImageVersion := true

end RuntimeLaunchPolicy

/-! ### Existing resources -/

def discoverExistingResources (workspace : WorkspaceIdentity) :
    ExistingResourceScope → Command (List SessionRecord)
  | .managedSessions => discover (.forGitRoot workspace.canonicalGitRoot) .managedSessions
  | .agentboxContainers => discover (.forGitRoot workspace.canonicalGitRoot) .agentboxOwned

def selectExistingResource (sessions : List SessionRecord) (workspace : WorkspaceIdentity)
    (scope : ExistingResourceScope) : Except Error (Option SessionRecord) :=
  match sessions with
  | [] => .ok none
  | [session] => .ok (some session)
  | sessions =>
    if scope = .agentboxContainers then .error (duplicateAgentboxContainersError workspace)
    else selectSingleSession sessions workspace

def ensureRequiredResourcesAbsent (workspace : WorkspaceIdentity) :
    ExistingResourceCheck → Command Unit
  | .allowExisting => .done ()
  | .requireAbsent scope => do
    let sessions ← discoverExistingResources workspace scope
    match ← Prog.ofExcept (selectExistingResource sessions workspace scope) with
    | none => return ()
    | some session => do
      let error ← existingSessionError inspectOne workspace session
      .fail error

/-! ### Requests -/

/-- A request for a server; the invocation of a server is all that servers have in common. -/
structure RuntimeLaunchRequest where
  workspace : WorkspaceIdentity
  runtime : RuntimeKind
  devEnvMode : DevEnvMode
  policy : RuntimeLaunchPolicy
  serverArgs : List String
  resourceLimits : ResourceLimits

def managedServerLaunchRequest (workspace : WorkspaceIdentity) (runtime : RuntimeKind)
    (devEnvMode : DevEnvMode) (connectAfterStart : Bool) (serverArgs : List String)
    (resourceLimits : ResourceLimits) : RuntimeLaunchRequest :=
  ⟨workspace, runtime, devEnvMode, .managedServer connectAfterStart, serverArgs, resourceLimits⟩

def transientServerLaunchRequest (workspace : WorkspaceIdentity) (runtime : RuntimeKind)
    (devEnvMode : DevEnvMode) (resourceLimits : ResourceLimits) : RuntimeLaunchRequest :=
  ⟨workspace, runtime, devEnvMode, .transientServer, [], resourceLimits⟩

def replacementServerLaunchRequest (workspace : WorkspaceIdentity) (runtime : RuntimeKind)
    (devEnvMode : DevEnvMode) (connectAfterStart : Bool) (serverArgs : List String)
    (resourceLimits : ResourceLimits) : RuntimeLaunchRequest :=
  ⟨workspace, runtime, devEnvMode, .replacementServer connectAfterStart, serverArgs, resourceLimits⟩

/-! ### Preparation -/

structure ContainerLaunchPreparation where
  preflight : PreflightReport
  devEnv : DevEnvironment
  runtimeImageVersion : Option String

structure RuntimeLaunchPreparation where
  runSpec : RuntimeRunSpec
  codexAttachToken : Option CodexAttachToken

def prepareContainerLaunchForWorkspace (request : RuntimeLaunchRequest) :
    Command ContainerLaunchPreparation := do
  let preflight ← checkHostPrerequisites request.runtime request.policy.runMode
  ensureRequiredResourcesAbsent request.workspace request.policy.existingCheck
  let devEnv ← resolveDevEnvironment request.devEnvMode request.workspace.canonicalTarget
    request.workspace.canonicalGitRoot
  if request.policy.hostClient = .required then ensureHostRuntimeClientAvailable request.runtime
  let runtimeImageVersion ←
    ensureDefaultRuntimeImage request.runtime request.workspace.canonicalGitRoot
  return ⟨preflight, devEnv, runtimeImageVersion⟩

def recordRuntimeImageVersion (runtime : RuntimeKind) (version : Option String)
    (policy : RuntimeLaunchPolicy) (runSpec : RuntimeRunSpec) : RuntimeRunSpec :=
  match policy.recordRuntimeImageVersion, version with
  | true, some version =>
    runSpec.insertCreateLabel (runtimePackageVersionLabel runtime) version
  | _, _ => runSpec

def recordManagedResourceLimits (policy : RuntimeLaunchPolicy) (runSpec : RuntimeRunSpec) :
    RuntimeRunSpec :=
  if policy.runMode = .managedSession then
    let labels := runSpec.create.resourceLimits.storedOrZero
    (runSpec.insertCreateLabel LABEL_RESOURCE_LIMIT_CPUS labels.cpus).insertCreateLabel
      LABEL_RESOURCE_LIMIT_MEMORY labels.memory
  else runSpec

/-- What `prepare_runtime_launch` makes of the answers of the host. -/
def launchRunSpec (request : RuntimeLaunchRequest) (preparation : ContainerLaunchPreparation)
    (invocation : RuntimeInvocation) (passthrough : Passthrough) : RuntimeRunSpec :=
  let runSpec := runSpec request.runtime request.policy.runMode request.workspace
    preparation.preflight.hostNixMounts preparation.preflight.runtimeMounts invocation
    request.serverArgs request.resourceLimits
  let runSpec := runSpec.extendCreateDefaultEnv preparation.preflight.runtimeEnvironment
  let runSpec := (runSpec.addCreateMounts passthrough.mounts).extendCreateDefaultEnv
    passthrough.environment
  recordManagedResourceLimits request.policy
    (recordRuntimeImageVersion request.runtime preparation.runtimeImageVersion request.policy runSpec)

def prepareRuntimeLaunch (request : RuntimeLaunchRequest) : Command RuntimeLaunchPreparation := do
  let preparation ← prepareContainerLaunchForWorkspace request
  let codexAttachToken ←
    prepareCodexAttachToken request.runtime request.policy.runMode request.workspace
  let invocation ← Prog.ofExcept (serverRuntimeCommand request.runtime
    request.workspace.canonicalTarget preparation.devEnv codexAttachToken request.serverArgs)
  let passthrough ← detectPassthrough request.workspace.canonicalGitRoot
  return ⟨launchRunSpec request preparation invocation passthrough, codexAttachToken⟩

end Agentbox.Commands.ContainerLaunch
