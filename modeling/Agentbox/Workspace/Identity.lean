import Agentbox.Base.Digest
import Agentbox.Files.Snapshot

/-! # Workspace identity

`workspace.rs`: a directory is identified by the canonical root of its git worktree, and everything
agentbox names after a workspace comes from that root's digest. -/

namespace Agentbox.Workspace.Identity

open Agentbox.Base.Text Agentbox.Base.Path Agentbox.Base.Digest Agentbox.Base.Errors
  Agentbox.Files.Snapshot

def CONTAINER_PREFIX : String := "agentbox-"

def GIT_ROOT_HASH_LEN : Nat := 12

def MAX_CONTAINER_NAME_LEN : Nat := 63

structure WorkspaceIdentity where
  requestedTarget : Utf8Path
  absoluteTarget : Utf8Path
  canonicalTarget : Utf8Path
  canonicalGitRoot : Utf8Path
  digest64 : String
  hash12 : String
  containerName : String
  deriving DecidableEq

def gitRootDigest (canonicalGitRoot : Utf8Path) : List UInt8 :=
  sha256Bytes canonicalGitRoot.asStr.toUTF8.toList

def gitRootDigest64 (canonicalGitRoot : Utf8Path) : String :=
  sha256Hex canonicalGitRoot.asStr.toUTF8.toList

def gitRootHash12 (canonicalGitRoot : Utf8Path) : String :=
  hexPrefix (gitRootDigest canonicalGitRoot) GIT_ROOT_HASH_LEN

def escapeRoot (path : String) : List Char :=
  path.toList.map fun c =>
    if c = '/' then '_'
    else if c.isAlphanum || c = '.' || c = '_' || c = '-' then c
    else '-'

/-- `container_name_from_canonical_root_and_hash`. -/
def containerNameFromCanonicalRootAndHash (root hash : String) : String :=
  let escaped := escapeRoot root
  let maxSuffixLen := MAX_CONTAINER_NAME_LEN - CONTAINER_PREFIX.length - (1 + hash.length)
  CONTAINER_PREFIX ++ String.ofList (escaped.drop (escaped.length - maxSuffixLen)) ++ "-" ++ hash

/-- `resolve_workspace_identity_with_git`. -/
def resolveWorkspaceIdentity (host : Host) (directory : OsPath) :
    Except Error WorkspaceIdentity := do
  let requestedTarget ← host.absoluteUtf8Path directory
  let gitRoot ← host.resolveToplevel requestedTarget
  let canonicalGitRoot ← host.canonicalizeUtf8Path gitRoot
  let canonicalTarget ← host.canonicalizeUtf8Path requestedTarget
  if pathIsOrDescendant canonicalTarget canonicalGitRoot then
    let hash12 := hexPrefix (gitRootDigest canonicalGitRoot) GIT_ROOT_HASH_LEN
    return {
      requestedTarget
      absoluteTarget := requestedTarget
      canonicalTarget
      canonicalGitRoot
      digest64 := hexLower (gitRootDigest canonicalGitRoot)
      hash12
      containerName := containerNameFromCanonicalRootAndHash canonicalGitRoot.asStr hash12 }
  else throw (.escapedGitTarget requestedTarget canonicalGitRoot)

/-- The workspace of a root, asked for by its root. -/
def workspaceAt (root : Utf8Path) : WorkspaceIdentity where
  requestedTarget := root
  absoluteTarget := root
  canonicalTarget := root
  canonicalGitRoot := root
  digest64 := gitRootDigest64 root
  hash12 := gitRootHash12 root
  containerName := containerNameFromCanonicalRootAndHash root.asStr (gitRootHash12 root)

theorem length_gitRootHash12 (root : Utf8Path) : (gitRootHash12 root).toList.length = 12 :=
  length_hexPrefix (by rw [gitRootDigest, length_sha256Bytes]; decide)

theorem isBlank_gitRootHash12 (root : Utf8Path) : isBlank (gitRootHash12 root) = false :=
  isBlank_hexPrefix (by decide) (by rw [gitRootDigest, length_sha256Bytes]; decide)

/-- What holds of every workspace that was resolved. -/
structure IsResolved (workspace : WorkspaceIdentity) : Prop where
  gitRoot_isAbsolute : workspace.canonicalGitRoot.isAbsolute = true
  gitRoot_isNormal : workspace.canonicalGitRoot.IsNormal
  target_isAbsolute : workspace.canonicalTarget.isAbsolute = true
  target_isNormal : workspace.canonicalTarget.IsNormal
  isDescendant : pathIsOrDescendant workspace.canonicalTarget workspace.canonicalGitRoot = true
  digest64_eq : workspace.digest64 = gitRootDigest64 workspace.canonicalGitRoot
  hash12_eq : workspace.hash12 = gitRootHash12 workspace.canonicalGitRoot
  containerName_eq : workspace.containerName =
    containerNameFromCanonicalRootAndHash workspace.canonicalGitRoot.asStr workspace.hash12

theorem isResolved_of_ok {host : Host} {directory : OsPath} {workspace : WorkspaceIdentity}
    (h : resolveWorkspaceIdentity host directory = .ok workspace) : IsResolved workspace := by
  unfold resolveWorkspaceIdentity at h
  rcases hreq : host.absoluteUtf8Path directory with e | requestedTarget
  · rw [hreq] at h
    cases h
  rcases htop : host.resolveToplevel requestedTarget with e | gitRoot
  · simp only [hreq, htop, bind, Except.bind] at h
    cases h
  rcases hroot : host.canonicalizeUtf8Path gitRoot with e | canonicalGitRoot
  · simp only [hreq, htop, hroot, bind, Except.bind] at h
    cases h
  rcases htarget : host.canonicalizeUtf8Path requestedTarget with e | canonicalTarget
  · simp only [hreq, htop, hroot, htarget, bind, Except.bind] at h
    cases h
  simp only [hreq, htop, hroot, htarget, bind, Except.bind] at h
  have hc := Host.canonicalizeUtf8Path_eq hroot
  have ht := Host.canonicalizeUtf8Path_eq htarget
  split_ifs at h with hdesc
  cases h
  exact ⟨host.canonicalize_isAbsolute _ _ hc, host.canonicalize_isNormal _ _ hc,
    host.canonicalize_isAbsolute _ _ ht, host.canonicalize_isNormal _ _ ht, hdesc, rfl, rfl, rfl⟩

theorem isBlank_of_isAbsolute {path : Utf8Path} (h : path.isAbsolute = true) :
    isBlank path.asStr = false := by
  rw [Utf8Path.isAbsolute, beq_iff_eq] at h
  exact isBlank_of_mem (List.mem_of_mem_head? (by rw [h]; exact Option.mem_some_self _)) (by decide)

theorem isBlank_containerName (root hash : String) :
    isBlank (containerNameFromCanonicalRootAndHash root hash) = false := by
  have hmem : 'a' ∈ (containerNameFromCanonicalRootAndHash root hash).toList := by
    simp [containerNameFromCanonicalRootAndHash, CONTAINER_PREFIX, String.toList_append]
  exact isBlank_of_mem hmem (by decide)

end Agentbox.Workspace.Identity
