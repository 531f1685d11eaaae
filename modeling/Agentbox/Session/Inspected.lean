import Agentbox.Files.Snapshot
import Agentbox.Session.Record

/-! # From a container to its record

The label checks (`session/labels`), the attach endpoint (`session/endpoint.rs`) and the status
(`session/status.rs`) of one inspected container. -/

namespace Agentbox.Session.Inspected

open Agentbox.Base.Text Agentbox.Base.Path Agentbox.Base.Errors Agentbox.Files.Snapshot
  Agentbox.Metadata.Labels Agentbox.Podman.Model Agentbox.Runtime.Kind Agentbox.Runtime.Spec
  Agentbox.Workspace.Identity Agentbox.Session.Record

/-! ### Labels -/

def requireSessionLabel (m : SessionMetadata) (name : String) : Except SessionFailure String :=
  match m.label name with
  | some value => .ok value
  | none => .error .missingRequiredLabels

def requireSessionLabelValue (m : SessionMetadata) (name expected : String) :
    Except SessionFailure Unit :=
  if m.label name = some expected then .ok () else .error .missingRequiredLabels

def requireSessionLabels (m : SessionMetadata) : List String → Except SessionFailure Unit
  | [] => .ok ()
  | name :: names => do
    let _ ← requireSessionLabel m name
    requireSessionLabels m names

structure SessionIdentityLabels where
  canonicalGitRoot : Utf8Path
  gitRootHash : String

structure RequiredSessionLabels where
  identity : SessionIdentityLabels
  launchDirectory : Utf8Path

def requireAgentboxContainerMarker (m : SessionMetadata) : Except SessionFailure Unit :=
  match m.containerKind with
  | some .managed => do
    requireSessionLabelValue m LABEL_MANAGED LABEL_MANAGED_VALUE
    requireSessionLabelValue m LABEL_SCHEMA LABEL_SCHEMA_VALUE
  | some .run =>
    requireSessionLabelValue m LABEL_CONTAINER_KIND LABEL_CONTAINER_KIND_TRANSIENT_RUN_VALUE
  | none => .error .missingRequiredLabels

def SessionIdentityLabels.fromSessionLabels (m : SessionMetadata) :
    Except SessionFailure SessionIdentityLabels := do
  requireAgentboxContainerMarker m
  requireSessionLabels m REQUIRED_SESSION_WORKSPACE_IDENTITY_LABELS
  let canonicalGitRoot ← requireSessionLabel m LABEL_GIT_ROOT
  let gitRootHash ← requireSessionLabel m LABEL_GIT_ROOT_HASH
  return ⟨⟨canonicalGitRoot⟩, gitRootHash⟩

def SessionIdentityLabels.validated (m : SessionMetadata) :
    Except SessionFailure SessionIdentityLabels := do
  let identity ← SessionIdentityLabels.fromSessionLabels m
  if identity.gitRootHash = gitRootHash12 identity.canonicalGitRoot then return identity
  else throw .driftedGitRootHash

def RequiredSessionLabels.fromValidatedIdentity (m : SessionMetadata)
    (identity : Except SessionFailure SessionIdentityLabels) :
    Except SessionFailure RequiredSessionLabels := do
  let identity ← identity
  requireSessionLabels m REQUIRED_SESSION_METADATA_LABELS
  let launchDirectory ← requireSessionLabel m LABEL_LAUNCH_DIRECTORY
  let launchDirectory : Utf8Path := ⟨launchDirectory⟩
  if launchDirectory.isAbsolute && pathIsOrDescendant launchDirectory identity.canonicalGitRoot then
    return ⟨identity, launchDirectory⟩
  else throw .malformedLaunchDirectory

inductive AttachLabelError
  | missingLabel (name : String)
  | runtime (error : Error)
  | malformedContainerPort (error : String)
  | attachSchemeMismatch (runtime : RuntimeKind) (actual expected : String)
  | containerPortMismatch (runtime : RuntimeKind) (actual expected : Nat)
  | containerListenIpMismatch (runtime : RuntimeKind) (actual expected : String)

def AttachLabelError.sessionFailure : AttachLabelError → SessionFailure
  | missingLabel _ => .missingRequiredLabels
  | runtime _ => .unsupportedRuntimeLabel
  | malformedContainerPort _ | attachSchemeMismatch _ _ _ | containerPortMismatch _ _ _
  | containerListenIpMismatch _ _ _ => .malformedEndpointLabels

def requireAttachLabel (m : SessionMetadata) (name : String) : Except AttachLabelError String :=
  match m.label name with
  | some value => .ok value
  | none => .error (.missingLabel name)

def requireRuntimeKind (m : SessionMetadata) : Except AttachLabelError RuntimeKind := do
  let value ← requireAttachLabel m LABEL_RUNTIME
  match RuntimeKind.parse value with
  | .ok runtime => return runtime
  | .error e => throw (.runtime e)

def requireMatchingAttachLabel (m : SessionMetadata) (name expected : String)
    (mismatch : String → AttachLabelError) : Except AttachLabelError Unit := do
  let actual ← requireAttachLabel m name
  if actual = expected then return () else throw (mismatch actual)

def requireMatchingContainerPort (m : SessionMetadata) (runtime : RuntimeKind) (expected : Nat) :
    Except AttachLabelError Unit := do
  let value ← requireAttachLabel m LABEL_CONTAINER_PORT
  match readU16 value with
  | .error error => throw (.malformedContainerPort error)
  | .ok actual =>
    if actual = expected then return () else throw (.containerPortMismatch runtime actual expected)

/-- `AttachLabels::from_session_labels`: the runtime, whose attach specification the labels have. -/
def attachLabels (m : SessionMetadata) : Except AttachLabelError RuntimeKind := do
  let runtime ← requireRuntimeKind m
  let attach := runtime.attachSpec
  requireMatchingAttachLabel m LABEL_ATTACH_SCHEME attach.scheme fun actual =>
    .attachSchemeMismatch runtime actual attach.scheme
  requireMatchingContainerPort m runtime attach.containerPort
  requireMatchingAttachLabel m LABEL_CONTAINER_LISTEN_IP attach.containerListenIp fun actual =>
    .containerListenIpMismatch runtime actual attach.containerListenIp
  return runtime

structure SessionLabelReport where
  identity : Except SessionFailure SessionIdentityLabels
  required : Except SessionFailure RequiredSessionLabels
  attach : Except AttachLabelError RuntimeKind

def SessionLabelReport.fromMetadata (m : SessionMetadata) : SessionLabelReport :=
  let identity := SessionIdentityLabels.validated m
  ⟨identity, RequiredSessionLabels.fromValidatedIdentity m identity, attachLabels m⟩

def SessionLabelReport.attachLabels (report : SessionLabelReport) :
    Except SessionFailure RuntimeKind :=
  report.attach.mapError AttachLabelError.sessionFailure

/-! ### Endpoint -/

def deriveAttachEndpoint (runtime : RuntimeKind) (inspect : PodmanContainerInspect) :
    Except Error AttachEndpoint := do
  match ← publishedAttachEndpoint inspect.ports runtime.attachSpec with
  | some endpoint => return endpoint
  | none => throw (.msg ("managed session has no published attach port for `" ++
      runtime.attachSpec.tcpPortKey ++ "`"))

/-- `AttachEndpointReport::from_label_report_and_inspect`. -/
def attachEndpointReport (report : SessionLabelReport) (inspect : PodmanContainerInspect) :
    Except SessionFailure AttachEndpoint := do
  let runtime ← report.attachLabels
  match deriveAttachEndpoint runtime inspect with
  | .ok endpoint => return endpoint
  | .error _ => throw .missingPublishedAttachPort

/-! ### Status -/

def deriveStatus (report : SessionLabelReport) (attachEndpoint : Except SessionFailure AttachEndpoint)
    (running : Bool) (mounts : List PodmanContainerMount) (probe : GitRootProbe) : SessionStatus :=
  match report.required with
  | .error failure => .failed (some failure)
  | .ok required =>
    match attachEndpoint with
    | .error failure => .failed (some failure)
    | .ok _ =>
      if !hasVolumeMountDestination mounts NIX_CACHE_DESTINATION then
        .failed (some .missingCacheMount)
      else if !running then .failed (some .notRunning)
      else if gitRootIsOrphaned required.identity.canonicalGitRoot probe then .orphaned
      else .running

/-- `build_session_record`. -/
def buildSessionRecord (container : PodmanPsContainer) (inspect : PodmanContainerInspect)
    (containerKind : AgentboxContainerKind) (probe : GitRootProbe) : SessionRecord :=
  let metadata : SessionMetadata := ⟨inspect.labels⟩
  let report := SessionLabelReport.fromMetadata metadata
  let attachEndpoint := attachEndpointReport report inspect
  { containerId := container.id
    containerName := (container.names.bind List.head?).getD container.id
    containerKind
    metadata
    attachEndpoint := attachEndpoint.toOption
    containerRunning := inspect.running
    status := deriveStatus report attachEndpoint inspect.running inspect.mounts probe }

end Agentbox.Session.Inspected
