import Agentbox.Base.Errors

/-! # The host's file system

One moment of the file system as agentbox reads it: which paths exist, what `realpath` makes of
them, and what `git rev-parse --show-toplevel` prints for a directory. `realpath` answers with an
absolute path in normal spelling that is its own `realpath`. -/

namespace Agentbox.Files.Snapshot

open Agentbox.Base.Text Agentbox.Base.Path Agentbox.Base.Errors

/-- A `std::path::Path`, with its text if it is UTF-8. -/
inductive OsPath
  | utf8 (path : Utf8Path)
  | nonUtf8 (isAbsolute : Bool) (display : String)
  deriving DecidableEq, Repr

namespace OsPath

def isAbsolute : OsPath → Bool
  | utf8 path => path.isAbsolute
  | nonUtf8 isAbsolute _ => isAbsolute

def display : OsPath → String
  | utf8 path => path.asStr
  | nonUtf8 _ display => display

def join (p q : OsPath) : OsPath :=
  match p, q with
  | utf8 p, utf8 q => utf8 (p.join q)
  | p, q => if q.isAbsolute then q
    else nonUtf8 p.isAbsolute ((⟨p.display⟩ : Utf8Path).join ⟨q.display⟩).asStr

/-- `path_buf_to_utf8`. -/
def toUtf8 : OsPath → Except Error Utf8Path
  | utf8 path => .ok path
  | nonUtf8 _ display => .error (.msg ("non-utf8 path: \"" ++ display ++ "\""))

end OsPath

/-- The output of a process that ran to its end. -/
structure ProcessOutput where
  success : Bool
  stdout : String
  stderr : String
  /-- `stderr_or_status_detail`. -/
  detail : String

structure Host where
  currentDir : Except Error OsPath
  exists_ : OsPath → Bool
  canonicalize : Utf8Path → Except Error OsPath
  isDir : Utf8Path → Bool
  isFile : Utf8Path → Bool
  gitToplevel : Utf8Path → Except Error ProcessOutput
  canonicalize_isAbsolute : ∀ p q, canonicalize p = .ok (.utf8 q) → q.isAbsolute = true
  canonicalize_isNormal : ∀ p q, canonicalize p = .ok (.utf8 q) → q.IsNormal

namespace Host

variable (host : Host)

/-- `absolute_utf8_path`. -/
def absoluteUtf8Path (path : OsPath) : Except Error Utf8Path :=
  if path.isAbsolute then path.toUtf8
  else match host.currentDir with
    | .ok dir => (dir.join path).toUtf8
    | .error e => .error e

/-- `canonicalize_utf8_path`. -/
def canonicalizeUtf8Path (path : Utf8Path) : Except Error Utf8Path :=
  match host.canonicalize path with
  | .ok p => p.toUtf8
  | .error e => .error e

theorem canonicalizeUtf8Path_eq {host : Host} {p q : Utf8Path}
    (h : host.canonicalizeUtf8Path p = .ok q) : host.canonicalize p = .ok (.utf8 q) := by
  unfold canonicalizeUtf8Path at h
  rcases hc : host.canonicalize p with e | (r | ⟨a, d⟩)
  · rw [hc] at h
    cases h
  · rw [hc] at h
    cases h
    rfl
  · rw [hc] at h
    cases h

/-- `str::contains`. -/
def contains (s pattern : String) : Bool := s.toList.tails.any fun l => pattern.toList.isPrefixOf l

/-- `Git::resolve_toplevel`, with the error of `git_root_for`. -/
def resolveToplevel (directory : Utf8Path) : Except Error Utf8Path :=
  match host.gitToplevel directory with
  | .error e => .error e
  | .ok output =>
    if output.success then
      if isBlank output.stdout then
        .error (.msg "`git rev-parse --show-toplevel` returned an empty path")
      else .ok ⟨trim output.stdout⟩
    else if contains (trim output.stderr) "not a git repository" then
      .error (.nonGitTarget directory)
    else .error (.msg ("failed to resolve git root for `" ++ directory.asStr ++ "` via `git -C " ++
      directory.asStr ++ " rev-parse --show-toplevel`: " ++ output.detail ++
      ". Choose a directory inside a readable git worktree."))

end Host

/-- `path_is_or_descendant`. -/
def pathIsOrDescendant (path root : Utf8Path) : Bool := path == root || path.startsWith root

/-! ### Git root probes -/

/-- `GitRootProbe`. -/
structure GitRootProbe where
  canonicalize : Utf8Path → Option Utf8Path
  isDirectory : Utf8Path → Bool
  hasGitMarker : Utf8Path → Bool
  revParseShowToplevel : Utf8Path → Option Utf8Path

/-- `HostGitRootProbe`. -/
def Host.gitRootProbe (host : Host) : GitRootProbe where
  canonicalize p := (host.canonicalizeUtf8Path p).toOption
  isDirectory p := host.isDir p
  hasGitMarker p := host.isDir (p.join ⟨".git"⟩) || host.isFile (p.join ⟨".git"⟩)
  revParseShowToplevel p := (host.resolveToplevel p).toOption

/-- `git_root_is_orphaned`. -/
def gitRootIsOrphaned (gitRoot : Utf8Path) (probe : GitRootProbe) : Bool :=
  match probe.canonicalize gitRoot with
  | none => true
  | some canonicalGitRoot =>
    if canonicalGitRoot != gitRoot then true
    else if !probe.isDirectory canonicalGitRoot then true
    else if probe.hasGitMarker canonicalGitRoot then false
    else match (probe.revParseShowToplevel canonicalGitRoot).bind probe.canonicalize with
      | some resolved => resolved != canonicalGitRoot
      | none => true

end Agentbox.Files.Snapshot
