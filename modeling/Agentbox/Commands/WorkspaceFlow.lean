import Agentbox.Commands.HostCalls
import Agentbox.Session.Views

/-! # Discovery and locks

`commands/workspace_flow.rs`: discovery against Podman, and operations under the lock of a git root. -/

namespace Agentbox.Commands.WorkspaceFlow

open Agentbox.Base.Path Agentbox.Base.Errors Agentbox.Files.Snapshot Agentbox.Lib.Program
  Agentbox.Workspace.Identity Agentbox.Session.Record Agentbox.Session.Discovery
  Agentbox.Session.Views Agentbox.Commands.HostCalls

/-- `SessionDiscoveryQuery::discover`. -/
def discover (scope : SessionDiscoveryScope) (containerScope : ContainerDiscoveryScope) :
    Command (List SessionRecord) := do
  let containers ← ps (listsManagedOnly containerScope)
  let host ← readHost
  discoverSessionsFromPs containers scope containerScope inspectOne host.gitRootProbe

/-- `LockedGitRoot::discover_sessions`. -/
def discoverSessions (gitRoot : Utf8Path) : Command (List SessionRecord) :=
  discover (.forGitRoot gitRoot) .agentboxOwned

def discoverAgentboxContainers : Command (List SessionRecord) := discover .all .agentboxOwned

def discoverManagedSessions (workspace : WorkspaceIdentity) : Command (List SessionRecord) :=
  discover (.forGitRoot workspace.canonicalGitRoot) .managedSessions

def resolveWorkspace (directory : OsPath) : Command WorkspaceIdentity := do
  let host ← readHost
  Prog.ofExcept (resolveWorkspaceIdentity host directory)

/-- The operation under the lock of a digest, which is released however it ends. -/
def withGuard {α : Type} (digest64 : String) (operation : Command α) : Command α := do
  lockGuard digest64
  let result ← operation.attempt
  unlock digest64
  Prog.ofExcept result

def withLockedWorkspace {α : Type} (directory : OsPath)
    (operation : WorkspaceIdentity → Command α) : Command α := do
  let workspace ← resolveWorkspace directory
  withGuard workspace.digest64 (operation workspace)

def withLockedGitRoot {α : Type} (gitRoot : Utf8Path) (operation : Command α) : Command α :=
  withGuard (gitRootDigest64 gitRoot) operation

/-- A lock that fails ends the operation; one that is taken is released after it. -/
theorem exec_withGuard {σ α : Type} {M : Machine HostOps σ} {s s' : σ}
    {t : List (Event HostOps σ)} {digest64 : String} {operation : Command α} {res : Except Error α}
    (h : Exec M (withGuard digest64 operation) s t s' res) :
    (∃ e, t = [⟨s, .lockGuard digest64, .error e, s'⟩] ∧
      M.step s (.lockGuard digest64) (.error e) s' ∧ res = .error e) ∨
    ∃ s1 t1 s2, t = ⟨s, .lockGuard digest64, .ok (), s1⟩ ::
        (t1 ++ [⟨s2, .unlock digest64, (), s'⟩]) ∧
      M.step s (.lockGuard digest64) (.ok ()) s1 ∧ Exec M operation s1 t1 s2 res ∧
      M.step s2 (.unlock digest64) () s' := by
  obtain ⟨r, s1, t1, rfl, hlock, h1⟩ := exec_call.1 h
  rcases r with e | ⟨⟩
  · obtain ⟨rfl, rfl, rfl⟩ := exec_fail.1 h1
    exact .inl ⟨e, rfl, hlock, rfl⟩
  · change Exec M (operation.attempt.bind fun result => (unlock digest64).bind fun _ =>
      Prog.ofExcept result) s1 t1 s' res at h1
    refine .inr ⟨s1, ?_⟩
    obtain ⟨e, -, h2⟩ | ⟨r, s2, t2, t3, rfl, h2, h3⟩ := exec_bind.1 h1
    · obtain ⟨r, hr, -⟩ := exec_attempt.1 h2
      cases hr
    · obtain ⟨r, hr, h2⟩ := exec_attempt.1 h2
      cases hr
      obtain ⟨r', s3, t4, rfl, hunlock, h4⟩ := exec_call.1 h3
      cases r'
      have hend : t4 = [] ∧ s' = s3 ∧ res = r := by
        rcases r with e | a
        · exact exec_fail.1 h4
        · exact exec_done.1 h4
      obtain ⟨rfl, rfl, rfl⟩ := hend
      exact ⟨t2, s2, rfl, hlock, h2, hunlock⟩

end Agentbox.Commands.WorkspaceFlow
