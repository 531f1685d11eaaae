import Agentbox.Commands.RoundTrip
import Agentbox.Session.TargetView

/-! # Lock files and roots

Roots are matched as paths, and a lock file is named after the digest of a root's spelling. The two
agree on the spelling that `realpath` gives, which every resolved directory has; a path that is given
as a stored root keeps the spelling it is given in. -/

namespace Agentbox.Commands.LockIdentity

open Agentbox.Base.Path Agentbox.Base.Digest Agentbox.Base.Errors Agentbox.Files.Snapshot
  Agentbox.Workspace.Identity Agentbox.Session.Record Agentbox.Session.Selection
  Agentbox.Session.Target Agentbox.Session.TargetView Agentbox.Session.ConnectView
  Agentbox.Commands.RoundTrip
open Agentbox.Session.ScopedDiscovery (demoRoot)

def LOCK_FILE_EXTENSION : String := ".lock"

/-- The name of a lock file, in the lock directory. -/
def lockPathForDigest (digest64 : String) : String := digest64 ++ LOCK_FILE_EXTENSION

/-- The file that `lock_git_root` locks. -/
def lockGitRoot (gitRoot : Utf8Path) : String := lockPathForDigest (gitRootDigest64 gitRoot)

/-- The file that `lock_workspace` locks. -/
def lockWorkspace (workspace : WorkspaceIdentity) : String := lockPathForDigest workspace.digest64

/-- Two spellings with one digest. -/
def Collide (p q : Utf8Path) : Prop := p ≠ q ∧ gitRootDigest p = gitRootDigest q

variable {p q : Utf8Path} {host : Host} {directory : OsPath} {workspace : WorkspaceIdentity}

theorem lockGitRoot_eq_iff : lockGitRoot p = lockGitRoot q ↔ p = q ∨ Collide p q := by
  have hdigest : lockGitRoot p = lockGitRoot q ↔ gitRootDigest p = gitRootDigest q := by
    unfold lockGitRoot lockPathForDigest
    refine ⟨fun h => hexLower_inj ?_, fun h => ?_⟩
    · have hlists := congrArg String.toList h
      rw [String.toList_append, String.toList_append] at hlists
      exact String.toList_inj.1 (List.append_cancel_right hlists)
    · have h64 : gitRootDigest64 p = gitRootDigest64 q := congrArg hexLower h
      rw [h64]
  rw [hdigest]
  by_cases h : p = q
  · exact iff_of_true (congrArg gitRootDigest h) (.inl h)
  · exact ⟨fun heq => .inr ⟨h, heq⟩, fun hor => (hor.resolve_left h).2⟩

theorem lockWorkspace_eq (h : IsResolved workspace) :
    lockWorkspace workspace = lockGitRoot workspace.canonicalGitRoot := by
  rw [lockWorkspace, h.digest64_eq, lockGitRoot]

/-- A root has the lock of its workspace when it is in normal spelling. -/
theorem lockGitRoot_eq_lockWorkspace (h : IsResolved workspace)
    (hroot : (workspace.canonicalGitRoot == p) = true) :
    lockGitRoot p = lockWorkspace workspace ↔
      p.IsNormal ∨ Collide p workspace.canonicalGitRoot := by
  rw [lockWorkspace_eq h, lockGitRoot_eq_iff]
  refine or_congr ?_ Iff.rfl
  constructor
  · rintro rfl
    exact h.gitRoot_isNormal
  · intro hp
    exact (Utf8Path.eq_of_beq h.gitRoot_isNormal hp hroot).symm

/-- **When locks agree with roots.** -/
theorem lockIdentity (p q : Utf8Path) (hpq : (p == q) = true) :
    -- the locks of two spellings
    (lockGitRoot p = lockGitRoot q ↔ p = q ∨ Collide p q) ∧
    ∀ host directory workspace, resolveWorkspaceIdentity host directory = .ok workspace →
      (workspace.canonicalGitRoot == p) = true →
      -- with the lock of a workspace
      ((lockGitRoot p = lockGitRoot q ∧ lockGitRoot q = lockWorkspace workspace) ↔
        (p.IsNormal ∨ Collide p workspace.canonicalGitRoot) ∧
          (q.IsNormal ∨ Collide q workspace.canonicalGitRoot)) ∧
      -- the locks of targets
      (∀ (input : SessionTargetInput) host', input.resolve host' = .ok (.resolvedGitRoot p) →
        lockGitRoot p = lockWorkspace workspace) ∧
      (∀ (input : SessionTargetInput) host', input.resolve host' = .ok (.exactStoredGitRootPath p) →
        (lockGitRoot p = lockWorkspace workspace ↔
          p.IsNormal ∨ Collide p workspace.canonicalGitRoot)) := by
  refine ⟨lockGitRoot_eq_iff, fun host directory workspace hworkspace hroot => ?_⟩
  have h := isResolved_of_ok hworkspace
  have hrootq : (workspace.canonicalGitRoot == q) = true := by
    rw [Utf8Path.beq_iff] at hroot hpq ⊢
    exact hroot.trans hpq
  have hp := lockGitRoot_eq_lockWorkspace h hroot
  have hq := lockGitRoot_eq_lockWorkspace h hrootq
  refine ⟨?_, fun input host' hinput => hp.2 (.inl (isNormal_of_resolve hinput)), fun _ _ _ => hp⟩
  rw [← hp, ← hq]
  constructor
  · rintro ⟨hsame, hlock⟩
    exact ⟨hsame.trans hlock, hlock⟩
  · rintro ⟨hlock, hlock'⟩
    exact ⟨hlock.trans hlock'.symm, hlock'⟩

theorem lockIdentity_demo : lockGitRoot demoRoot = lockWorkspace demoWorkspace :=
  (((lockIdentity demoRoot demoRoot (by decide)).2 demoHost _ demoWorkspace resolve_demo
    (by decide)).1.2 ⟨.inl (by decide), .inl (by decide)⟩).2

/-- The root with a slash after it. -/
def demoRootSlash : Utf8Path := ⟨"/workspace/demo/"⟩

/-- A host that has lost the repository. -/
def emptyHost : Host where
  currentDir := .error (.msg "no such directory")
  exists_ _ := false
  canonicalize _ := .error (.msg "no such path")
  isDir _ := false
  isFile _ := false
  gitToplevel _ := .error (.msg "no such directory")
  canonicalize_isAbsolute _ _ h := nomatch h
  canonicalize_isNormal _ _ h := nomatch h

/-- `stop` and `restart` take the root with a slash after it for the root, and another lock. -/
theorem not_lockIdentity : (demoRoot == demoRootSlash) = true ∧
    (SessionTargetInput.cli (.utf8 demoRootSlash)).resolve emptyHost =
      .ok (.exactStoredGitRootPath demoRootSlash) ∧
    resolveWorkspaceIdentity demoHost (.utf8 demoRoot) = .ok demoWorkspace ∧
    lockGitRoot demoRootSlash ≠ lockGitRoot demoRoot ∧
    lockGitRoot demoRootSlash ≠ lockWorkspace demoWorkspace := by
  have hne : lockGitRoot demoRootSlash ≠ lockGitRoot demoRoot := by decide +kernel
  refine ⟨by decide, by decide, resolve_demo, hne, ?_⟩
  rw [lockWorkspace_eq (isResolved_of_ok resolve_demo)]
  exact hne

end Agentbox.Commands.LockIdentity
