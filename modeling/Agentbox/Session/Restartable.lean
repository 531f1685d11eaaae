import Agentbox.Session.Record

/-! # Restartable sessions

`session/restartable.rs`: the checks that a session passes before it is stopped for a restart. -/

namespace Agentbox.Session.Restartable

open Agentbox.Base.Path Agentbox.Base.Errors Agentbox.Metadata.Labels Agentbox.Runtime.Kind
  Agentbox.Session.Record

structure RestartableSession where
  session : SessionRecord
  runtime : RuntimeKind
  launchDirectory : Utf8Path
  serverArgs : List String

def restartSessionGitRoot (session : SessionRecord) : Except Error Utf8Path :=
  match session.canonicalGitRoot with
  | some gitRoot => .ok gitRoot
  | none => .error (.msg ("managed session `" ++ session.containerName ++
      "` cannot be restarted safely because it has no recoverable git-root label"))

/-- The error of a status, for the git root of the session. -/
def statusError (session : SessionRecord) (error : Utf8Path → Error) : Except Error Unit := do
  let gitRoot ← restartSessionGitRoot session
  throw (error gitRoot)

def validateRestartableStatus (targetDisplay : String) (session : SessionRecord) :
    Except Error Unit :=
  if session.isTransientRun then
    .error (.msg ("transient run container `" ++ session.containerName ++
      "` cannot be restarted; stop it with `agentbox stop " ++
      session.stableId.getD session.containerName ++ "`"))
  else if !session.isManagedSession then
    .error (.msg ("restart target `" ++ targetDisplay ++ "` is not a managed session"))
  else match session.status with
    | .running => .ok ()
    | .orphaned => statusError session fun gitRoot =>
        .orphanedManagedSession gitRoot session.containerName
    | .duplicate => statusError session .duplicateManagedSessions
    | .failed (some failure) => statusError session fun gitRoot =>
        resourceFailureRequiresActionError .managed gitRoot session.containerName failure
    | .failed none => statusError session fun gitRoot =>
        .failedManagedSession gitRoot session.containerName

def sessionRuntime (session : SessionRecord) : Except Error RuntimeKind :=
  match session.runtimeKind with
  | some runtime => .ok runtime
  | none => .error (.msg ("managed session `" ++ session.containerName ++
      "` cannot be restarted because it has an unsupported or malformed `io.agentbox.runtime` label"))

def sessionLaunchDirectory (session : SessionRecord) : Except Error Utf8Path :=
  match session.launchDirectory with
  | some launchDirectory => .ok launchDirectory
  | none => .error (.msg ("managed session `" ++ session.containerName ++
      "` cannot be restarted because it has a missing or malformed " ++
      "`io.agentbox.launch_directory` label"))

def sessionServerArgs (session : SessionRecord) : Except Error (List String) :=
  match session.metadata.serverArgs with
  | .ok serverArgs => .ok serverArgs
  | .error e => .error (.msg ("managed session `" ++ session.containerName ++
      "` cannot be restarted because it has a malformed `io.agentbox.server_args` label: " ++
      e.display))

def prepareRestartSession (targetDisplay : String) (session : SessionRecord) :
    Except Error RestartableSession := do
  validateRestartableStatus targetDisplay session
  let runtime ← sessionRuntime session
  let launchDirectory ← sessionLaunchDirectory session
  let serverArgs ← sessionServerArgs session
  return ⟨session, runtime, launchDirectory, serverArgs⟩

theorem validateRestartableStatus_eq_ok {targetDisplay : String} {session : SessionRecord} {u : Unit}
    (h : validateRestartableStatus targetDisplay session = .ok u) :
    session.containerKind = .managed ∧ session.status = .running := by
  have hno : ∀ error : Utf8Path → Error, statusError session error ≠ .ok u := by
    intro error herr
    unfold statusError at herr
    rcases hroot : restartSessionGitRoot session with e | gitRoot
    · rw [hroot] at herr
      cases herr
    · rw [hroot] at herr
      cases herr
  unfold validateRestartableStatus at h
  split_ifs at h with hrun hmanaged
  split at h
  · next hstatus =>
    refine ⟨?_, hstatus⟩
    rw [Bool.not_eq_true', Bool.not_eq_false, SessionRecord.isManagedSession] at hmanaged
    exact eq_of_beq hmanaged
  all_goals exact absurd h (hno _)

/-- What the checks of a restart say. -/
theorem prepareRestartSession_eq_ok {targetDisplay : String} {session : SessionRecord}
    {restart : RestartableSession} (h : prepareRestartSession targetDisplay session = .ok restart) :
    restart.session = session ∧ session.containerKind = .managed ∧ session.status = .running ∧
      session.runtimeKind = some restart.runtime ∧
      session.launchDirectory = some restart.launchDirectory ∧
      session.metadata.serverArgs = .ok restart.serverArgs := by
  unfold prepareRestartSession at h
  rcases hv : validateRestartableStatus targetDisplay session with e | _
  · rw [hv] at h
    cases h
  rcases hr : sessionRuntime session with e | runtime
  · rw [hv, hr] at h
    cases h
  rcases hd : sessionLaunchDirectory session with e | launchDirectory
  · rw [hv, hr, hd] at h
    cases h
  rcases ha : sessionServerArgs session with e | serverArgs
  · rw [hv, hr, hd, ha] at h
    cases h
  rw [hv, hr, hd, ha] at h
  cases h
  obtain ⟨hkind, hstatus⟩ := validateRestartableStatus_eq_ok hv
  refine ⟨rfl, hkind, hstatus, ?_, ?_, ?_⟩
  · unfold sessionRuntime at hr
    split at hr
    · next hsome =>
      cases hr
      exact hsome
    · cases hr
  · unfold sessionLaunchDirectory at hd
    split at hd
    · next hsome =>
      cases hd
      exact hsome
    · cases hd
  · unfold sessionServerArgs at ha
    split at ha
    · next hsome =>
      cases ha
      exact hsome
    · cases ha

end Agentbox.Session.Restartable
