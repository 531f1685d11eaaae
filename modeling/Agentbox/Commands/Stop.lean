import Agentbox.Commands.ContainerCleanup
import Agentbox.Commands.WorkspaceFlow
import Agentbox.Session.Target

/-! # stop

`commands/stop.rs` and `stop/cleanup.rs`. -/

namespace Agentbox.Commands.Stop

open Agentbox.Base.Text Agentbox.Base.Path Agentbox.Base.Errors Agentbox.Lib.Program
  Agentbox.Session.Record Agentbox.Session.Selection Agentbox.Session.Target
  Agentbox.Commands.HostCalls Agentbox.Commands.WorkspaceFlow Agentbox.Commands.ContainerCleanup

/-! ### Groups -/

inductive RootedSessionCleanupScope
  | selected
  | runningExactMatches
  deriving DecidableEq, Repr

def cleanupSelectedSessions (sessions : List SessionRecord) :
    Command (List ContainerCleanupFailure) :=
  cleanupManagedContainers sessions

def cleanupRunningExactMatchesForLockedRoot (gitRoot : Utf8Path) :
    Command (List ContainerCleanupFailure) := do
  let discovered ← discoverSessions gitRoot
  let sessions := exactGitRootMatches discovered gitRoot
  cleanupManagedContainers (sessions.filter fun session => session.containerRunning)

def RootedSessionCleanupScope.cleanup (gitRoot : Utf8Path) (selectedSessions : List SessionRecord) :
    RootedSessionCleanupScope → Command (List ContainerCleanupFailure)
  | selected => cleanupSelectedSessions selectedSessions
  | runningExactMatches => cleanupRunningExactMatchesForLockedRoot gitRoot

def cleanupRootedSessionGroups (scope : RootedSessionCleanupScope) :
    List SessionGroup → Command (List ContainerCleanupFailure)
  | [] => .done []
  | group :: groups => do
    let groupFailures ← withLockedGitRoot group.canonicalGitRoot
      (scope.cleanup group.canonicalGitRoot group.sessions)
    let failures ← cleanupRootedSessionGroups scope groups
    return groupFailures ++ failures

def cleanupStableIdMatches (sessions : List SessionRecord) :
    Command (List ContainerCleanupFailure) :=
  cleanupRootedSessionGroups .selected (partitionSessionsByGitRoot sessions).rooted

def cleanupAllRunningMatches (sessions : List SessionRecord) :
    Command (List ContainerCleanupFailure) := do
  let partition := partitionSessionsByGitRoot sessions
  let failures ← cleanupRootedSessionGroups .runningExactMatches partition.rooted
  let unrooted ← cleanupManagedContainers partition.unrooted
  return failures ++ unrooted

/-! ### Results -/

def renderCleanupFailures (identity : String) (failures : List ContainerCleanupFailure) : String :=
  "partial stop failed for `" ++ identity ++ "`; remaining agentbox containers: " ++
    "; ".intercalate (failures.map ContainerCleanupFailure.renderStopMessage) ++
    ". podman-owned image cleanup and cache volumes are left untouched"

def finishCleanup (identity : String) (failures : List ContainerCleanupFailure) :
    Except Error Unit :=
  if failures = [] then .ok () else .error (.msg (renderCleanupFailures identity failures))

/-! ### Targets -/

/-- `stop_exact_git_root_matches`, under the lock of the root. -/
def stopExactGitRootLocked (plan : StopExactGitRootTarget) (force : Bool)
    (target : SessionTargetInput) : Command (List ContainerCleanupFailure) := do
  let discovered ← if plan.usesLockedRootScope then discoverSessions plan.gitRoot
    else discoverAgentboxContainers
  let sessions := plan.exactMatchesFrom discovered
  Prog.ofExcept (plan.requireNonEmptyMatches sessions)
  Prog.ofExcept (plan.requireForceForMatches sessions.length force target)
  cleanupSelectedSessions sessions

def stopExactGitRootMatches (plan : StopExactGitRootTarget) (force : Bool)
    (target : SessionTargetInput) : Command Unit := do
  let failures ← withLockedGitRoot plan.gitRoot (stopExactGitRootLocked plan force target)
  Prog.ofExcept (finishCleanup plan.gitRoot.asStr failures)

def stopStableId (plan : StopStableIdTarget) (force : Bool) (target : SessionTargetInput) :
    Command Unit := do
  Prog.ofExcept (plan.requireForce force target)
  let failures ← cleanupStableIdMatches plan.sessions
  Prog.ofExcept (finishCleanup ("id " ++ plan.id) failures)

def stopTarget (target : SessionTargetInput) (force : Bool) : Command Unit := do
  match ← StopSessionTargetPlan.resolve readHost discoverAgentboxContainers target with
  | .exactGitRoot plan => stopExactGitRootMatches plan force target
  | .stableId plan => stopStableId plan force target

def stopAllRunning : Command Unit := do
  let discovered ← discoverAgentboxContainers
  let failures ← cleanupAllRunningMatches (discovered.filter fun session => session.containerRunning)
  Prog.ofExcept (finishCleanup "all running agentbox containers" failures)

/-! ### Several targets -/

structure TargetStopFailure where
  target : String
  error : Error

def renderTargetStopFailures (failures : List TargetStopFailure) : String :=
  let noun := if failures.length = 1 then "target" else "targets"
  let details := "; ".intercalate (failures.map fun failure =>
    "`" ++ failure.target ++ "`: " ++ failure.error.display)
  "failed to stop " ++ s!"{failures.length}" ++ " " ++ noun ++ ": " ++ details

def stopEachTarget (force : Bool) : List SessionTargetInput → Command (List TargetStopFailure)
  | [] => .done []
  | target :: targets => do
    let result ← (stopTarget target force).attempt
    let failures ← stopEachTarget force targets
    match result with
    | .ok () => return failures
    | .error error => return ⟨target.display, error⟩ :: failures

def stopTargets (targets : List SessionTargetInput) (force : Bool) : Command Unit :=
  match targets with
  | [] => .done ()
  | [target] => stopTarget target force
  | targets => do
    let failures ← stopEachTarget force targets
    match failures with
    | [] => .done ()
    | failures => .fail (.msg (renderTargetStopFailures failures))

end Agentbox.Commands.Stop
