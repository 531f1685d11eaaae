import Agentbox.Lib.Program
import Agentbox.Session.Selection
import Agentbox.Files.Snapshot

/-! # Session targets

`session/target`: what a target of `stop` or `restart` means, before the lock is taken and, for a
restart, again under the lock. Discovery and the file system are the caller's. -/

namespace Agentbox.Session.Target

open Agentbox.Base.Path Agentbox.Base.Errors Agentbox.Files.Snapshot Agentbox.Lib.Program
  Agentbox.Workspace.Identity Agentbox.Session.Record Agentbox.Session.Selection

/-! ### Input -/

inductive SessionTargetInput
  | cli (path : OsPath)
  | stableId (id : String)
  deriving DecidableEq, Repr

def SessionTargetInput.display : SessionTargetInput → String
  | cli path => path.display
  | stableId id => id

inductive ResolvedSessionTarget
  | resolvedGitRoot (gitRoot : Utf8Path)
  | exactStoredGitRootPath (gitRoot : Utf8Path)
  | stableId (idPrefix : String)
  deriving DecidableEq, Repr

def classifyMissingCliSessionTarget (target : OsPath) : Except Error ResolvedSessionTarget :=
  if target.isAbsolute then target.toUtf8.map .exactStoredGitRootPath
  else match target with
    | .utf8 path => .ok (.stableId path.asStr)
    | .nonUtf8 _ display => .error (.msg ("non-utf8 target `" ++ display ++
        "` cannot be used as a stable id prefix"))

def resolveCliSessionTarget (host : Host) (target : OsPath) : Except Error ResolvedSessionTarget :=
  if host.exists_ target then
    (resolveWorkspaceIdentity host target).map fun workspace =>
      .resolvedGitRoot workspace.canonicalGitRoot
  else classifyMissingCliSessionTarget target

def SessionTargetInput.resolve (host : Host) :
    SessionTargetInput → Except Error ResolvedSessionTarget
  | cli path => resolveCliSessionTarget host path
  | stableId idPrefix => .ok (.stableId idPrefix)

/-! ### Stable ids -/

inductive StableIdTargetAction
  | stop
  | restart
  deriving DecidableEq, Repr

def StableIdTargetAction.verb : StableIdTargetAction → String
  | stop => "stop"
  | restart => "restart"

def StableIdTargetAction.safetyVerb : StableIdTargetAction → String
  | stop => "stopped"
  | restart => "restarted"

/-- `StableIdTargetSelection`, which `select_agentbox_stable_id_target` returns. -/
abbrev StableIdTargetSelection := StableIdPrefixSelection

def selectAgentboxStableIdTarget (sessions : List SessionRecord) (idPrefix : String) :
    Except Error StableIdTargetSelection :=
  selectAgentboxStableIdPrefix sessions idPrefix

def noRecoverableGitRootError (id : String) (action : StableIdTargetAction) : Error :=
  .msg ("agentbox container id `" ++ id ++ "` cannot be " ++ action.safetyVerb ++
    " safely because no matched container has a recoverable git-root label")

/-- `sort` and `dedup` by the order and the equality of paths. -/
def recoverableGitRoots (sessions : List SessionRecord) : List Utf8Path :=
  ((sessions.filterMap SessionRecord.canonicalGitRoot).mergeSort fun p q =>
    (Utf8Path.cmp p q).isLE).destutter fun p q => (p == q) = false

namespace StableIdTargetSelection

variable (selection : StableIdTargetSelection)

def hasDuplicateSessions : Bool := 1 < selection.sessions.length

def singleRecoverableGitRoot (action : StableIdTargetAction) : Except Error Utf8Path :=
  match recoverableGitRoots selection.sessions with
  | [] => .error (noRecoverableGitRootError selection.id action)
  | [root] => .ok root
  | _ => .error (.msg ("agentbox container id `" ++ selection.id ++
      "` matches containers with multiple git roots; cannot " ++ action.verb ++ " safely"))

def intoAllRootedSessions (action : StableIdTargetAction) : Except Error (List SessionRecord) :=
  let rooted := selection.sessions.filter fun session => session.canonicalGitRoot.isSome
  if rooted = [] then .error (noRecoverableGitRootError selection.id action)
  else if rooted.length ≠ selection.sessions.length then
    .error (.msg ("agentbox container id `" ++ selection.id ++ "` includes matched containers " ++
      "without a recoverable git-root label; cannot " ++ action.verb ++ " them safely"))
  else .ok rooted

end StableIdTargetSelection

/-! ### Restart -/

structure RestartSessionTargetPlan where
  input : SessionTargetInput
  lockGitRoot : Utf8Path

def requireLockedRestartTargetUnchanged (locked current : Utf8Path) : Except Error Unit :=
  if locked == current then .ok ()
  else .error (.msg ("restart target changed from `" ++ locked.asStr ++ "` to `" ++ current.asStr ++
    "` while waiting for the workspace lock; retry the command"))

def requireStableIdStillMatchesLockedRoot (locked : Utf8Path) (sessions : List SessionRecord) :
    Except Error Unit :=
  if sessions.any fun session => session.canonicalGitRoot == some locked then .ok ()
  else .error (.msg ("restart target changed away from `" ++ locked.asStr ++
    "` while waiting for the workspace lock; retry the command"))

def requireSingleRestartTargetMatch (sessions : List SessionRecord) (target : SessionTargetInput) :
    Except Error SessionRecord :=
  match sessions with
  | [] => .error (.msg ("no running managed session matches restart target `" ++ target.display ++
      "`"))
  | [session] => .ok session
  | _ => .error (.msg ("restart target `" ++ target.display ++ "` matches " ++
      s!"{sessions.length}" ++ " agentbox containers; restart requires exactly one running " ++
      "managed session. Clean up duplicates with `agentbox stop --force " ++ target.display ++
      "` before retrying."))

section
variable {S : Sig} (readHost : Prog S Error Host)
  (discoverLockedRootSessions discoverAgentboxSessions : Prog S Error (List SessionRecord))

namespace RestartSessionTargetPlan

def resolve (target : SessionTargetInput) : Prog S Error RestartSessionTargetPlan := do
  let host ← readHost
  match ← Prog.ofExcept (target.resolve host) with
  | .resolvedGitRoot gitRoot | .exactStoredGitRootPath gitRoot => return ⟨target, gitRoot⟩
  | .stableId idPrefix => do
    let sessions ← discoverAgentboxSessions
    let selection ← Prog.ofExcept (selectAgentboxStableIdTarget sessions idPrefix)
    let gitRoot ← Prog.ofExcept (selection.singleRecoverableGitRoot .restart)
    return ⟨target, gitRoot⟩

def matchingSessions (plan : RestartSessionTargetPlan) (lockedGitRoot : Utf8Path) :
    Prog S Error (List SessionRecord) := do
  let host ← readHost
  match ← Prog.ofExcept (plan.input.resolve host) with
  | .resolvedGitRoot gitRoot => do
    Prog.ofExcept (requireLockedRestartTargetUnchanged lockedGitRoot gitRoot)
    discoverLockedRootSessions
  | .exactStoredGitRootPath gitRoot => do
    Prog.ofExcept (requireLockedRestartTargetUnchanged lockedGitRoot gitRoot)
    let sessions ← discoverAgentboxSessions
    return exactGitRootMatches sessions gitRoot
  | .stableId idPrefix => do
    let sessions ← discoverAgentboxSessions
    let selection ← Prog.ofExcept (selectAgentboxStableIdTarget sessions idPrefix)
    Prog.ofExcept (requireStableIdStillMatchesLockedRoot lockedGitRoot selection.sessions)
    return selection.sessions

def selectSessionCandidate (plan : RestartSessionTargetPlan) (lockedGitRoot : Utf8Path) :
    Prog S Error SessionRecord := do
  let sessions ← plan.matchingSessions readHost discoverLockedRootSessions discoverAgentboxSessions
    lockedGitRoot
  Prog.ofExcept (requireSingleRestartTargetMatch sessions plan.input)

end RestartSessionTargetPlan

/-! ### Stop -/

inductive StopExactGitRootTargetMode
  | scoped
  | exactStoredPath
  deriving DecidableEq, Repr

structure StopExactGitRootTarget where
  gitRoot : Utf8Path
  mode : StopExactGitRootTargetMode

structure StopStableIdTarget where
  id : String
  sessions : List SessionRecord
  hasDuplicateSessions : Bool

inductive StopSessionTargetPlan
  | exactGitRoot (target : StopExactGitRootTarget)
  | stableId (target : StopStableIdTarget)

def StopSessionTargetPlan.resolve (target : SessionTargetInput) :
    Prog S Error StopSessionTargetPlan := do
  let host ← readHost
  match ← Prog.ofExcept (target.resolve host) with
  | .resolvedGitRoot gitRoot => return .exactGitRoot ⟨gitRoot, .scoped⟩
  | .exactStoredGitRootPath gitRoot => return .exactGitRoot ⟨gitRoot, .exactStoredPath⟩
  | .stableId idPrefix => do
    let sessions ← discoverAgentboxSessions
    let selection ← Prog.ofExcept (selectAgentboxStableIdTarget sessions idPrefix)
    let sessions ← Prog.ofExcept (selection.intoAllRootedSessions .stop)
    return .stableId ⟨selection.id, sessions, selection.hasDuplicateSessions⟩

end

def requireForceForDuplicateMatches (hasDuplicates force : Bool) (targetRef : String)
    (target : SessionTargetInput) : Except Error Unit :=
  if hasDuplicates && !force then
    .error (.msg ("duplicate agentbox containers exist for " ++ targetRef ++
      "; rerun `agentbox stop --force " ++ target.display ++ "` to remove all exact matches"))
  else .ok ()

namespace StopExactGitRootTarget

variable (plan : StopExactGitRootTarget)

def usesLockedRootScope : Bool := plan.mode == .scoped

def exactMatchesFrom (sessions : List SessionRecord) : List SessionRecord :=
  exactGitRootMatches sessions plan.gitRoot

def targetRef : String :=
  match plan.mode with
  | .scoped => "`" ++ plan.gitRoot.asStr ++ "`"
  | .exactStoredPath => "exact stored git-root path `" ++ plan.gitRoot.asStr ++ "`"

def requireNonEmptyMatches (sessions : List SessionRecord) : Except Error Unit :=
  if sessions = [] then .error (.msg ("no agentbox container exists for " ++ plan.targetRef))
  else .ok ()

def requireForceForMatches (matchCount : Nat) (force : Bool) (target : SessionTargetInput) :
    Except Error Unit :=
  requireForceForDuplicateMatches (1 < matchCount) force plan.targetRef target

end StopExactGitRootTarget

def StopStableIdTarget.requireForce (plan : StopStableIdTarget) (force : Bool)
    (target : SessionTargetInput) : Except Error Unit :=
  requireForceForDuplicateMatches plan.hasDuplicateSessions force ("stable id `" ++ plan.id ++ "`")
    target

end Agentbox.Session.Target
