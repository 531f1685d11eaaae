import Agentbox.Session.Selection
import Agentbox.Session.Status

/-! # Connectable sessions

`session/connectable.rs`: the checks that a session passes before a client connects to it. -/

namespace Agentbox.Session.Connectable

open Agentbox.Base.Path Agentbox.Base.Errors Agentbox.Runtime.Kind Agentbox.Workspace.Identity
  Agentbox.Files.Snapshot Agentbox.Metadata.Labels Agentbox.Podman.Model Agentbox.Session.Record
  Agentbox.Session.Inspected Agentbox.Session.Selection Agentbox.Session.Status

structure ConnectableSession where
  session : SessionRecord
  runtime : RuntimeKind
  endpoint : AttachEndpoint
  launchDirectory : Utf8Path

def notRunningSessionError (workspace : WorkspaceIdentity) (session : SessionRecord) : Error :=
  .msg ("managed session `" ++ session.containerName ++ "` for `" ++
    workspace.canonicalGitRoot.asStr ++ "` is not running; rerun `" ++
    runCommandHint session.metadata.runtime workspace ++
    "` to start a new session or `agentbox stop " ++ workspace.requestedTarget.asStr ++
    "` to remove the leftover container")

def sessionFailureError (workspace : WorkspaceIdentity) (session : SessionRecord)
    (failure : SessionFailure) : Error :=
  sessionFailureRequiresActionError workspace.canonicalGitRoot session.containerName failure

def validateConnectableStatus (workspace : WorkspaceIdentity) (session : SessionRecord) :
    Except Error Unit :=
  match session.status with
  | .running => .ok ()
  | .orphaned => .error (.orphanedManagedSession workspace.canonicalGitRoot session.containerName)
  | .failed (some .notRunning) => .error (notRunningSessionError workspace session)
  | .failed (some failure) => .error (sessionFailureError workspace session failure)
  | .failed none => .error (.failedManagedSession workspace.canonicalGitRoot session.containerName)
  | .duplicate => .error (duplicateSessionsError workspace)

/-- `ok_or_else` with the error of a failure. -/
def orFailure {α : Type} (value : Option α) (workspace : WorkspaceIdentity)
    (session : SessionRecord) (failure : SessionFailure) : Except Error α :=
  match value with
  | some a => .ok a
  | none => .error (sessionFailureError workspace session failure)

def prepareConnectSession (workspace : WorkspaceIdentity) (session : SessionRecord) :
    Except Error ConnectableSession := do
  validateConnectableStatus workspace session
  let runtime ← orFailure session.runtimeKind workspace session .unsupportedRuntimeLabel
  let endpoint ← orFailure session.attachEndpoint workspace session .malformedEndpointLabels
  let launchDirectory ←
    orFailure session.launchDirectory workspace session .malformedLaunchDirectory
  return ⟨session, runtime, endpoint, launchDirectory⟩

/-- `no_session_error` of `connect`. -/
def noSessionError (workspace : WorkspaceIdentity) : Error :=
  .msg ("no managed session exists for `" ++ workspace.canonicalGitRoot.asStr ++ "`; use `" ++
    runCommandHint none workspace ++ "` to create one")

/-- What `connect_directory` makes of the sessions it discovered. -/
def selectConnectSession (workspace : WorkspaceIdentity) (sessions : List SessionRecord) :
    Except Error ConnectableSession := do
  match ← selectSingleSession sessions workspace with
  | some session => prepareConnectSession workspace session
  | none => throw (noSessionError workspace)

/-! ### Running sessions -/

theorem runtimeKind_of_attachLabels {m : SessionMetadata} {runtime : RuntimeKind}
    (h : attachLabels m = .ok runtime) : m.runtimeKind = some runtime := by
  unfold attachLabels at h
  obtain ⟨r, hr, h⟩ := bind_eq_ok.1 h
  obtain ⟨-, -, h⟩ := bind_eq_ok.1 h
  obtain ⟨-, -, h⟩ := bind_eq_ok.1 h
  obtain ⟨-, -, h⟩ := bind_eq_ok.1 h
  cases h
  unfold requireRuntimeKind requireAttachLabel at hr
  obtain ⟨value, hvalue, hr⟩ := bind_eq_ok.1 hr
  split at hvalue
  · next v hv =>
    cases hvalue
    split at hr
    · next r' hparse =>
      cases hr
      rw [SessionMetadata.runtimeKind, SessionMetadata.runtime, hv, Option.bind_some, hparse]
      rfl
    · cases hr
  · cases hvalue

variable {container : PodmanPsContainer} {inspect : PodmanContainerInspect}
  {kind : AgentboxContainerKind} {probe : GitRootProbe}

/-- The session of a running record is accepted, with the endpoint and the directory it has. -/
theorem prepareConnectSession_of_running {workspace : WorkspaceIdentity}
    (h : (buildSessionRecord container inspect kind probe).status = .running) :
    ∃ accepted,
      prepareConnectSession workspace (buildSessionRecord container inspect kind probe) =
        .ok accepted ∧
      accepted.session = buildSessionRecord container inspect kind probe ∧
      (buildSessionRecord container inspect kind probe).attachEndpoint = some accepted.endpoint ∧
      (buildSessionRecord container inspect kind probe).launchDirectory =
        some accepted.launchDirectory := by
  have hnot : (buildSessionRecord container inspect kind probe).status.isFailed = false := by
    rw [h]
    rfl
  obtain ⟨root, hhealthy, -⟩ := healthy_of_not_isFailed hnot
  obtain ⟨dir, hdir⟩ := hhealthy.complete
  obtain ⟨endpoint, hend⟩ := hhealthy.endpoint
  have hlabels := hend
  unfold attachEndpointReport at hlabels
  obtain ⟨runtime, hruntime, -⟩ := bind_eq_ok.1 hlabels
  have hkind : (buildSessionRecord container inspect kind probe).runtimeKind = some runtime := by
    unfold SessionLabelReport.attachLabels SessionLabelReport.fromMetadata at hruntime
    rcases ha : attachLabels ⟨inspect.labels⟩ with e | r
    · rw [ha] at hruntime
      cases hruntime
    · rw [ha] at hruntime
      cases hruntime
      exact runtimeKind_of_attachLabels ha
  have hendpoint : (buildSessionRecord container inspect kind probe).attachEndpoint =
      some endpoint := by
    rw [buildSessionRecord]
    exact congrArg Except.toOption hend
  have hlaunch : (buildSessionRecord container inspect kind probe).launchDirectory = some dir :=
    hdir.launchDirectory_eq
  refine ⟨⟨buildSessionRecord container inspect kind probe, runtime, endpoint, dir⟩, ?_, rfl,
    hendpoint, hlaunch⟩
  rw [prepareConnectSession, validateConnectableStatus, h, hkind, hendpoint, hlaunch]
  rfl

end Agentbox.Session.Connectable
