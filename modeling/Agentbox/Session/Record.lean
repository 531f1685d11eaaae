import Agentbox.Config.Limits
import Agentbox.Metadata.Session
import Agentbox.Podman.Model
import Agentbox.Runtime.Spec

/-! # Session records

A container of agentbox as the commands see it: its labels, how it can be reached, and a status. -/

namespace Agentbox.Session.Record

open Agentbox.Base.Path Agentbox.Base.Errors Agentbox.Lib.Json Agentbox.Metadata.Labels
  Agentbox.Config.Limits Agentbox.Runtime.Kind Agentbox.Runtime.Spec

inductive SessionFailure
  | missingRequiredLabels
  | driftedGitRootHash
  | missingCacheMount
  | notRunning
  | unsupportedRuntimeLabel
  | malformedLaunchDirectory
  | malformedEndpointLabels
  | missingPublishedAttachPort
  deriving DecidableEq, Repr

inductive SessionStatus
  | running
  | orphaned
  | duplicate
  | failed (failure : Option SessionFailure)
  deriving DecidableEq, Repr

def SessionStatus.failure : SessionStatus → Option SessionFailure
  | failed failure => failure
  | _ => none

def SessionStatus.isFailed : SessionStatus → Bool
  | failed _ => true
  | _ => false

def SessionStatus.isRunning : SessionStatus → Bool
  | running => true
  | _ => false

structure SessionMetadata where
  labels : LabelMap

namespace SessionMetadata

variable (m : SessionMetadata)

def label (name : String) : Option String := requiredLabelValue m.labels name

def containerKind : Option AgentboxContainerKind := agentboxContainerKindFromLabels m.labels

def canonicalGitRoot : Option Utf8Path := (m.label LABEL_GIT_ROOT).map Utf8Path.mk

def gitRootHash : Option String := m.label LABEL_GIT_ROOT_HASH

def runtime : Option String := m.label LABEL_RUNTIME

def runtimeKind : Option RuntimeKind := m.runtime.bind fun value => (RuntimeKind.parse value).toOption

def launchDirectory : Option Utf8Path := (m.label LABEL_LAUNCH_DIRECTORY).map Utf8Path.mk

def logicalNameOr (fallback : String) : String := (m.label LABEL_LOGICAL_NAME).getD fallback

def serverArgs : Except Error (List String) :=
  match m.label LABEL_SERVER_ARGS with
  | none => .ok []
  | some value =>
    match decodeStrings value with
    | some args => .ok args
    | none => .error (.msg ("malformed `" ++ LABEL_SERVER_ARGS ++ "` label"))

/-- `.map(str::parse).transpose().map_err(Error::msg)` of an optional label. -/
def parseOptional {α : Type} (value : Option String) (parse : String → Except String α) :
    Except Error (Option α) :=
  match value with
  | none => .ok none
  | some value =>
    match parse value with
    | .ok a => .ok (some a)
    | .error text => .error (.msg text)

def storedResourceLimits : Except Error ResourceLimits := do
  let cpus ← parseOptional (m.label LABEL_RESOURCE_LIMIT_CPUS) CpuLimit.parse
  let memory ← parseOptional (m.label LABEL_RESOURCE_LIMIT_MEMORY) MemoryLimit.parse
  return ⟨cpus, memory⟩

end SessionMetadata

structure SessionRecord where
  containerId : String
  containerName : String
  containerKind : AgentboxContainerKind
  metadata : SessionMetadata
  attachEndpoint : Option AttachEndpoint
  containerRunning : Bool
  status : SessionStatus

namespace SessionRecord

variable (s : SessionRecord)

def canonicalGitRoot : Option Utf8Path := s.metadata.canonicalGitRoot

def gitRootHash : Option String := s.metadata.gitRootHash

def stableId : Option String := s.gitRootHash

def runtimeKind : Option RuntimeKind := s.metadata.runtimeKind

def launchDirectory : Option Utf8Path := s.metadata.launchDirectory

def isManagedSession : Bool := s.containerKind == .managed

def isTransientRun : Bool := s.containerKind == .run

def markDuplicate : SessionRecord := { s with status := .duplicate }

def isRunning : Bool := s.status.isRunning

def hasStableId : Bool := s.stableId.isSome

def isConnectableCandidate : Bool :=
  s.isManagedSession && s.isRunning && s.attachEndpoint.isSome && s.canonicalGitRoot.isSome

def isRestartableCandidate : Bool :=
  s.isManagedSession && s.isRunning && s.stableId.isSome && s.runtimeKind.isSome &&
    s.launchDirectory.isSome && s.canonicalGitRoot.isSome

end SessionRecord

/-! ### Failures as errors -/

/-- `SessionFailure::action`: what is wrong, and what to do next. -/
def SessionFailure.action : SessionFailure → String × String
  | missingRequiredLabels =>
    ("is missing required session labels", "clean up or recreate it before retrying")
  | driftedGitRootHash =>
    ("has a drifted `io.agentbox.git_root_hash`", "clean up or recreate it before retrying")
  | missingCacheMount => ("is missing required cache mount `" ++ NIX_CACHE_DESTINATION ++ "`",
      "recreate the container before retrying")
  | notRunning => ("is not running", "stop it or recreate it before retrying")
  | unsupportedRuntimeLabel => ("has an unsupported or malformed `io.agentbox.runtime` label",
      "clean up or recreate it before retrying")
  | malformedLaunchDirectory =>
    ("has a missing or malformed `io.agentbox.launch_directory` label",
      "clean up or recreate it before retrying")
  | malformedEndpointLabels => ("has missing or inconsistent attach endpoint labels",
      "clean up or recreate it before retrying")
  | missingPublishedAttachPort => ("has no published attach endpoint port",
      "clean up or recreate it before retrying")

def resourceFailureRequiresActionError (containerKind : AgentboxContainerKind) (gitRoot : Utf8Path)
    (containerName : String) (failure : SessionFailure) : Error :=
  .agentboxContainerRequiresAction containerKind gitRoot containerName failure.action.1
    failure.action.2

def sessionFailureRequiresActionError (gitRoot : Utf8Path) (containerName : String)
    (failure : SessionFailure) : Error :=
  resourceFailureRequiresActionError .managed gitRoot containerName failure

end Agentbox.Session.Record
