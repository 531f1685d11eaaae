import Agentbox.Lib.Entries
import Agentbox.Lib.Program
import Agentbox.Session.Inspected

/-! # Discovery

`SessionDiscoveryQuery`: the records of the containers that `podman ps` lists, for all roots or for
one, of managed sessions or of all containers that agentbox owns. -/

namespace Agentbox.Session.Discovery

open Agentbox.Base.Text Agentbox.Base.Path Agentbox.Base.Errors Agentbox.Lib.Entries
  Agentbox.Lib.Program Agentbox.Files.Snapshot Agentbox.Metadata.Labels Agentbox.Podman.Model
  Agentbox.Workspace.Identity Agentbox.Session.Record Agentbox.Session.Inspected

/-- `ContainerDiscoveryScope`. -/
inductive ContainerDiscoveryScope
  | managedSessions
  | agentboxOwned
  deriving DecidableEq, Repr

def ContainerDiscoveryScope.includes : ContainerDiscoveryScope → AgentboxContainerKind → Bool
  | managedSessions, kind => kind == .managed
  | agentboxOwned, _ => true

structure GitRootDiscoveryScope where
  gitRoot : Utf8Path
  gitRootHash : String

inductive SessionDiscoveryScope
  | all
  | gitRoot (scope : GitRootDiscoveryScope)

def SessionDiscoveryScope.forGitRoot (gitRoot : Utf8Path) : SessionDiscoveryScope :=
  .gitRoot ⟨gitRoot, gitRootHash12 gitRoot⟩

inductive ScopedSessionCandidate
  | matched (record : SessionRecord)
  | collision (root : String)
  | ignore

namespace GitRootDiscoveryScope

def shouldInspectPsCandidate (scope : GitRootDiscoveryScope) (container : PodmanPsContainer) :
    Bool :=
  match requiredLabelValue container.labels LABEL_GIT_ROOT_HASH with
  | none => true
  | some gitRootHash => gitRootHash == scope.gitRootHash

def classifySession (scope : GitRootDiscoveryScope) (record : SessionRecord) :
    ScopedSessionCandidate :=
  if record.canonicalGitRoot == some scope.gitRoot then .matched record
  else if record.gitRootHash ≠ some scope.gitRootHash then .ignore
  else match record.canonicalGitRoot with
    | some root => .collision root.asStr
    | none => .matched record

def collisionError (scope : GitRootDiscoveryScope) (mismatchedRoots : List String) : Error :=
  .msg ("managed identity collision for `" ++ scope.gitRoot.asStr ++
    "` matched different full git roots: " ++ joinComma mismatchedRoots)

end GitRootDiscoveryScope

def SessionDiscoveryScope.shouldInspectPsCandidate (scope : SessionDiscoveryScope)
    (container : PodmanPsContainer) : Bool :=
  match scope with
  | all => true
  | gitRoot scope => scope.shouldInspectPsCandidate container

/-! ### Duplicates -/

/-- The root that a session counts for: a failed one counts for none. -/
def countedRoot (session : SessionRecord) : Option (List Component) :=
  if session.status.isFailed then none else session.canonicalGitRoot.map Utf8Path.components

def markDuplicateSessions (sessions : List SessionRecord) : List SessionRecord :=
  let groupSizes := counts (List.compareLex Component.cmp) countedRoot sessions
  sessions.map fun session =>
    if (countedRoot session).any fun root => 1 < groupSizes[root]?.getD 0 then
      session.markDuplicate
    else session

/-! ### The collector -/

structure SessionCollector where
  scope : SessionDiscoveryScope
  sessions : List SessionRecord := []
  mismatchedRoots : List String := []

namespace SessionCollector

def collect (c : SessionCollector) (record : SessionRecord) : SessionCollector :=
  match c.scope with
  | .all => { c with sessions := c.sessions ++ [record] }
  | .gitRoot scope =>
    match scope.classifySession record with
    | .matched record => { c with sessions := c.sessions ++ [record] }
    | .collision root => { c with mismatchedRoots := c.mismatchedRoots ++ [root] }
    | .ignore => c

def finish (c : SessionCollector) : Except Error (List SessionRecord) :=
  let mismatchedRoots := (c.mismatchedRoots.mergeSort (· ≤ ·)).dedup
  match c.scope with
  | .all => .ok (markDuplicateSessions c.sessions)
  | .gitRoot scope =>
    if mismatchedRoots ≠ [] then .error (scope.collisionError mismatchedRoots)
    else .ok (markDuplicateSessions c.sessions)

end SessionCollector

def psCandidate (containerScope : ContainerDiscoveryScope) (container : PodmanPsContainer) :
    Option (PodmanPsContainer × AgentboxContainerKind) :=
  match agentboxContainerKindFromLabels container.labels with
  | some kind => if containerScope.includes kind then some (container, kind) else none
  | none => none

variable {S : Sig}

/-- The loop over the candidates. -/
def collectCandidates (inspectContainer : String → Prog S Error PodmanContainerInspect)
    (probe : GitRootProbe) : List (PodmanPsContainer × AgentboxContainerKind) →
      SessionCollector → Prog S Error SessionCollector
  | [], collector => pure collector
  | (container, kind) :: candidates, collector =>
    if collector.scope.shouldInspectPsCandidate container then do
      let inspect ← inspectContainer container.id
      collectCandidates inspectContainer probe candidates
        (collector.collect (buildSessionRecord container inspect kind probe))
    else collectCandidates inspectContainer probe candidates collector

/-- `discover_sessions_from_ps_with_git_root_probe`. -/
def discoverSessionsFromPs (containers : List PodmanPsContainer) (scope : SessionDiscoveryScope)
    (containerScope : ContainerDiscoveryScope)
    (inspectContainer : String → Prog S Error PodmanContainerInspect) (probe : GitRootProbe) :
    Prog S Error (List SessionRecord) := do
  let collector ← collectCandidates inspectContainer probe
    (containers.filterMap (psCandidate containerScope)) { scope }
  Prog.ofExcept collector.finish

end Agentbox.Session.Discovery
