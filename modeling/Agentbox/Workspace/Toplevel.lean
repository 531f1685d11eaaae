import Agentbox.Base.Trim
import Agentbox.Workspace.Identity

/-! # The root that Git prints

What the identity of a workspace makes of the output of `git rev-parse --show-toplevel`, which is a
path and a newline.

* `resolveToplevel_eq`: the path that is read from the output.
* `resolveWorkspaceIdentity_eq_ok_iff`: the identity, from that path.
* `identity_of_toplevel_iff`: when it is the identity of the path that Git meant. -/

namespace Agentbox.Workspace.Toplevel

open Agentbox.Base.Text Agentbox.Base.Trim Agentbox.Base.Path Agentbox.Base.Digest
  Agentbox.Base.Errors Agentbox.Files.Snapshot Agentbox.Lib.SeparatedList
  Agentbox.Workspace.Identity

/-- `p` is at `root` or below it. -/
def AtOrBelow (p root : Utf8Path) : Prop := root.components <+: p.components

theorem pathIsOrDescendant_iff {p root : Utf8Path} :
    pathIsOrDescendant p root = true ↔ AtOrBelow p root := by
  rw [pathIsOrDescendant, Bool.or_eq_true, Utf8Path.beq_iff, Utf8Path.startsWith,
    List.isPrefixOf_iff_prefix]
  refine ⟨fun h => h.elim (fun heq => ?_) id, .inr⟩
  rw [AtOrBelow, heq]

/-- The identity of the canonical root `root`, asked for from a directory. -/
def identityOf (directory target root : Utf8Path) : WorkspaceIdentity where
  requestedTarget := directory
  absoluteTarget := directory
  canonicalTarget := target
  canonicalGitRoot := root
  digest64 := gitRootDigest64 root
  hash12 := gitRootHash12 root
  containerName := containerNameFromCanonicalRootAndHash root.asStr (gitRootHash12 root)

/-- The path without the blanks it ends with. -/
def withoutTrailingBlanks (p : Utf8Path) : Utf8Path :=
  ⟨String.ofList (trimEnd isWhitespace p.asStr.toList)⟩

section
variable {host : Host}

theorem canonicalizeUtf8Path_eq_ok_iff {p q : Utf8Path} :
    host.canonicalizeUtf8Path p = .ok q ↔ host.canonicalize p = .ok (.utf8 q) := by
  refine ⟨Host.canonicalizeUtf8Path_eq, fun h => ?_⟩
  rw [Host.canonicalizeUtf8Path, h]
  rfl

theorem resolveToplevel_eq {directory p : Utf8Path} {stderr detail : String}
    (hp : p.isAbsolute = true)
    (hgit : host.gitToplevel directory = .ok ⟨true, p.asStr ++ "\n", stderr, detail⟩) :
    host.resolveToplevel directory = .ok (withoutTrailingBlanks p) := by
  have hhead : p.asStr.toList.head? = some '/' := by simpa [Utf8Path.isAbsolute] using hp
  have hlist : (p.asStr ++ "\n").toList = p.asStr.toList ++ ['\n'] := String.toList_append
  have hfirst : (p.asStr ++ "\n").toList.head? = some '/' := by
    rw [hlist, List.head?_append, hhead]
    rfl
  have htrim : trim (p.asStr ++ "\n") = String.ofList (trimEnd isWhitespace p.asStr.toList) := by
    rw [← String.toList_inj, String.toList_ofList, toList_trim_of_head hfirst (by decide), hlist,
      trimEnd_concat (by decide)]
  have hblank : isBlank (p.asStr ++ "\n") = false :=
    isBlank_of_mem (List.mem_of_mem_head? (by rw [hfirst]; exact Option.mem_some_self _)) (by decide)
  rw [Host.resolveToplevel, hgit]
  simp only [if_true, hblank, Bool.false_eq_true, if_false, htrim, withoutTrailingBlanks]

/-- **The identity of a directory, from the root that was read.** -/
theorem resolveWorkspaceIdentity_eq_ok_iff {directory : OsPath} {target root : Utf8Path}
    (habs : host.absoluteUtf8Path directory = .ok target)
    (hroot : host.resolveToplevel target = .ok root) (workspace : WorkspaceIdentity) :
    resolveWorkspaceIdentity host directory = .ok workspace ↔
      ∃ t r, host.canonicalize target = .ok (.utf8 t) ∧ host.canonicalize root = .ok (.utf8 r) ∧
        AtOrBelow t r ∧ workspace = identityOf target t r := by
  unfold resolveWorkspaceIdentity
  simp only [habs, hroot, bind, Except.bind]
  rcases hr : host.canonicalizeUtf8Path root with e | r
  · refine iff_of_false (by simp) ?_
    rintro ⟨t, r, -, h, -⟩
    rw [canonicalizeUtf8Path_eq_ok_iff.2 h] at hr
    cases hr
  rcases ht : host.canonicalizeUtf8Path target with e | t
  · refine iff_of_false (by simp) ?_
    rintro ⟨t, r, h, -⟩
    rw [canonicalizeUtf8Path_eq_ok_iff.2 h] at ht
    cases ht
  rw [canonicalizeUtf8Path_eq_ok_iff] at hr ht
  simp only
  by_cases hbelow : pathIsOrDescendant t r = true
  · rw [if_pos hbelow]
    constructor
    · intro h
      exact ⟨t, r, ht, hr, pathIsOrDescendant_iff.1 hbelow, (Except.ok.inj h).symm⟩
    · rintro ⟨t', r', ht', hr', -, rfl⟩
      rw [ht, Except.ok.injEq, OsPath.utf8.injEq] at ht'
      rw [hr, Except.ok.injEq, OsPath.utf8.injEq] at hr'
      rw [← ht', ← hr']
      rfl
  · rw [if_neg hbelow]
    refine iff_of_false (by intro h; cases h) ?_
    rintro ⟨t', r', ht', hr', hbelow', -⟩
    rw [ht, Except.ok.injEq, OsPath.utf8.injEq] at ht'
    rw [hr, Except.ok.injEq, OsPath.utf8.injEq] at hr'
    rw [← ht', ← hr'] at hbelow'
    exact hbelow (pathIsOrDescendant_iff.2 hbelow')

end

/-- The identity is resolved exactly when the directory is at or below the root `p`, and is then
that of `p`. -/
def IdentifiedBy (host : Host) (directory : OsPath) (target p : Utf8Path) : Prop :=
  ∀ workspace, resolveWorkspaceIdentity host directory = .ok workspace ↔
    ∃ t r, host.canonicalize target = .ok (.utf8 t) ∧ host.canonicalize p = .ok (.utf8 r) ∧
      AtOrBelow t r ∧ workspace = identityOf target t r

/-- The blanks at the end of `p` make no difference to the file system: with them and without them
it is a path to the same directory, of those that the target is in. -/
def BlanksIrrelevant (host : Host) (target p : Utf8Path) : Prop :=
  ∀ t r, host.canonicalize target = .ok (.utf8 t) → AtOrBelow t r →
    (host.canonicalize (withoutTrailingBlanks p) = .ok (.utf8 r) ↔
      host.canonicalize p = .ok (.utf8 r))

/-- A path that ends with anything but a blank. -/
theorem blanksIrrelevant_of_getLast {host : Host} {target p : Utf8Path} {c : Char}
    (hc : p.asStr.toList.getLast? = some c) (hw : isWhitespace c = false) :
    BlanksIrrelevant host target p := by
  obtain ⟨l, hl⟩ := List.getLast?_eq_some_iff.1 hc
  have hcut := trimEnd_append_cons hw l []
  have hsame : withoutTrailingBlanks p = p := by
    have hstr : String.ofList (trimEnd isWhitespace p.asStr.toList) = p.asStr := by
      rw [← String.toList_inj, String.toList_ofList, hl, hcut]
      rfl
    rw [withoutTrailingBlanks, hstr]
  intro t r _ _
  rw [hsame]

/-- **The identity is that of Git's root exactly when the blanks at its end make no difference.** -/
theorem identity_of_toplevel_iff (host : Host) (directory : OsPath) (target p : Utf8Path)
    (stderr detail : String) (habs : host.absoluteUtf8Path directory = .ok target)
    (hp : p.isAbsolute = true)
    (hgit : host.gitToplevel target = .ok ⟨true, p.asStr ++ "\n", stderr, detail⟩) :
    IdentifiedBy host directory target p ↔ BlanksIrrelevant host target p := by
  have hspec := resolveWorkspaceIdentity_eq_ok_iff habs (resolveToplevel_eq hp hgit)
  constructor
  · intro h t r ht hbelow
    have hboth := (hspec (identityOf target t r)).symm.trans (h (identityOf target t r))
    constructor
    · intro hr
      obtain ⟨t', r', -, hr', -, heq⟩ := hboth.1 ⟨t, r, ht, hr, hbelow, rfl⟩
      obtain rfl : r = r' := congrArg WorkspaceIdentity.canonicalGitRoot heq
      exact hr'
    · intro hr
      obtain ⟨t', r', -, hr', -, heq⟩ := hboth.2 ⟨t, r, ht, hr, hbelow, rfl⟩
      obtain rfl : r = r' := congrArg WorkspaceIdentity.canonicalGitRoot heq
      exact hr'
  · intro h workspace
    rw [hspec]
    constructor
    · rintro ⟨t, r, ht, hr, hbelow, heq⟩
      exact ⟨t, r, ht, (h t r ht hbelow).1 hr, hbelow, heq⟩
    · rintro ⟨t, r, ht, hr, hbelow, heq⟩
      exact ⟨t, r, ht, (h t r ht hbelow).2 hr, hbelow, heq⟩

/-- A file system whose one directory is a repository. -/
def repositoryAt (root : Utf8Path) (habs : root.isAbsolute = true) (hnormal : root.IsNormal) :
    Host where
  currentDir := .ok (.utf8 root)
  exists_ path := path = .utf8 root
  canonicalize path := if path = root then .ok (.utf8 root) else .error (.msg "no such directory")
  isDir path := path = root
  isFile _ := false
  gitToplevel _ := .ok ⟨true, root.asStr ++ "\n", "", ""⟩
  canonicalize_isAbsolute p q h := by
    split_ifs at h
    cases h
    exact habs
  canonicalize_isNormal p q h := by
    split_ifs at h
    cases h
    exact hnormal

def box : Host := repositoryAt ⟨"/src/box"⟩ (by decide) (by decide +kernel)

theorem identity_of_toplevel_iff_box :
    IdentifiedBy box (.utf8 ⟨"/src/box"⟩) ⟨"/src/box"⟩ ⟨"/src/box"⟩ :=
  (identity_of_toplevel_iff box (.utf8 ⟨"/src/box"⟩) ⟨"/src/box"⟩ ⟨"/src/box"⟩ "" "" rfl (by decide)
    rfl).2 (blanksIrrelevant_of_getLast (c := 'x') (by decide) (by decide))

/-- A directory whose name ends with a blank. -/
def blankBox : Host := repositoryAt ⟨"/src/box "⟩ (by decide) (by decide +kernel)

/-- The repository is rejected. -/
theorem blankBox_rejected :
    ¬ IdentifiedBy blankBox (.utf8 ⟨"/src/box "⟩) ⟨"/src/box "⟩ ⟨"/src/box "⟩ := by
  intro h
  have hok := (h (identityOf ⟨"/src/box "⟩ ⟨"/src/box "⟩ ⟨"/src/box "⟩)).2
    ⟨_, _, rfl, rfl, List.prefix_rfl, rfl⟩
  have herr : (resolveWorkspaceIdentity blankBox (.utf8 ⟨"/src/box "⟩)).toOption.isSome = false := by
    decide +kernel
  rw [hok] at herr
  cases herr

end Agentbox.Workspace.Toplevel
