import Agentbox.Base.CanonicalPath
import Agentbox.Base.Errors
import Agentbox.DevEnv.Environment

/-! # Discovery of development environments

`dev_env/path.rs`, `dev_env/discovery.rs` and the choice of a dev shell of `dev_env/nix.rs`. What the
host answers is `isFile`, and a probe for the dev shells of a flake; a run that probes returns what it
has asked for. -/

namespace Agentbox.DevEnv.Discovery

open Agentbox.Base.Path Agentbox.Base.Errors Agentbox.DevEnv.Environment

/-! ### Paths -/

/-- The path and what is above it, `n` steps up. -/
def ancestorsUpTo : Nat → Utf8Path → List Utf8Path
  | 0, p => [p]
  | n + 1, p => p :: (p.parent.map (ancestorsUpTo n)).getD []

/-- `Path::ancestors`: there are no more steps than components. -/
def ancestors (p : Utf8Path) : List Utf8Path := ancestorsUpTo p.components.length p

/-- The candidates up to the git root. -/
def directoriesThrough (gitRoot : Utf8Path) : List Utf8Path → List Utf8Path
  | [] => []
  | candidate :: above =>
    if candidate == gitRoot then [candidate] else candidate :: directoriesThrough gitRoot above

def ancestorDirectories (targetDirectory gitRoot : Utf8Path) : List Utf8Path :=
  directoriesThrough gitRoot (ancestors targetDirectory)

def nearestFile (isFile : Utf8Path → Bool) (targetDirectory gitRoot : Utf8Path)
    (filename : String) : Option Utf8Path :=
  ((ancestorDirectories targetDirectory gitRoot).map (·.join ⟨filename⟩)).find? isFile

/-- A path without a parent is where the source panics. -/
def parentDirectory (path : Utf8Path) : Utf8Path := path.parent.getD ⟨""⟩

/-! ### Dev shells -/

/-- `NixDevShellProbe`. -/
abbrev NixDevShellProbe := Utf8Path → String → Except Error Bool

/-- What a probe was asked for. -/
abbrev Probed := List (Utf8Path × String)

def nixDevelopCandidateAttrs (targetDirectory flakeRoot : Utf8Path) : List String :=
  if targetDirectory == flakeRoot then ["default"]
  else match targetDirectory.fileName with
    | some name => [name, "default"].destutter (· ≠ ·)
    | none => ["default"]

/-- The loop of `resolve_nix_develop`. -/
def probeAttrs (probe : NixDevShellProbe) (flakeRoot : Utf8Path) :
    List String → Except Error DevEnvironment × Probed
  | [] => (.ok .none, [])
  | attr :: attrs =>
    match probe flakeRoot attr with
    | .error e => (.error e, [(flakeRoot, attr)])
    | .ok true => (.ok (.nixDevelop flakeRoot attr), [(flakeRoot, attr)])
    | .ok false =>
      let (result, probed) := probeAttrs probe flakeRoot attrs
      (result, (flakeRoot, attr) :: probed)

def resolveNixDevelop (targetDirectory flakeRoot : Utf8Path) (probe : NixDevShellProbe) :
    Except Error DevEnvironment × Probed :=
  probeAttrs probe flakeRoot (nixDevelopCandidateAttrs targetDirectory flakeRoot)

/-! ### Discovery -/

structure DevEnvironmentDiscovery where
  envrc : Option Utf8Path
  devenvNix : Option Utf8Path
  flakeNix : Option Utf8Path

namespace DevEnvironmentDiscovery

def detect (isFile : Utf8Path → Bool) (targetDirectory gitRoot : Utf8Path) :
    DevEnvironmentDiscovery where
  envrc := nearestFile isFile targetDirectory gitRoot ".envrc"
  devenvNix := nearestFile isFile targetDirectory gitRoot "devenv.nix"
  flakeNix := nearestFile isFile targetDirectory gitRoot "flake.nix"

def resolveWithProbe (discovery : DevEnvironmentDiscovery) (targetDirectory : Utf8Path)
    (probe : NixDevShellProbe) : Except Error DevEnvironment × Probed :=
  if discovery.envrc.isSome then (.ok .direnv, [])
  else match discovery.devenvNix with
    | some devenvNix => (.ok (.devenv (parentDirectory devenvNix)), [])
    | none => match discovery.flakeNix with
      | none => (.ok .none, [])
      | some flakeNix => resolveNixDevelop targetDirectory (parentDirectory flakeNix) probe

end DevEnvironmentDiscovery

/-- `DevEnvironment::resolve`. -/
def resolveDevEnvironment (isFile : Utf8Path → Bool) (probe : NixDevShellProbe) (mode : DevEnvMode)
    (targetDirectory gitRoot : Utf8Path) : Except Error DevEnvironment × Probed :=
  match mode with
  | .none => (.ok .none, [])
  | .auto => (DevEnvironmentDiscovery.detect isFile targetDirectory gitRoot).resolveWithProbe
      targetDirectory probe

/-! ### The directories that are looked at -/

section
variable (target : CanonicalPath)

/-- The directories on the way to the target, from the one `r + k` names down to the one `r` names
down. -/
def walk (r : Nat) : Nat → List CanonicalPath
  | 0 => [target.take r]
  | k + 1 => target.take (r + k + 1) :: walk r k

theorem take_succ {n : Nat} (h : n < target.names.length) :
    target.take (n + 1) = (target.take n).append target.names[n]
      (target.isName _ (List.getElem_mem h)) := by
  refine CanonicalPath.names_inj ?_
  show target.names.take (n + 1) = target.names.take n ++ [target.names[n]]
  rw [List.take_append_getElem h]

theorem length_take {n : Nat} (h : n ≤ target.names.length) :
    (target.take n).names.length = n := by
  show (target.names.take n).length = n
  rw [List.length_take]
  omega

theorem mem_walk {r k : Nat} {d : CanonicalPath} :
    d ∈ walk target r k ↔ ∃ j ≤ k, d = target.take (r + j) := by
  induction k with
  | zero =>
    rw [walk, List.mem_singleton]
    refine ⟨fun h => ⟨0, le_rfl, h⟩, ?_⟩
    rintro ⟨j, hj, rfl⟩
    rw [Nat.le_zero.1 hj]
    rfl
  | succ k ih =>
    rw [walk, List.mem_cons, ih]
    constructor
    · rintro (rfl | ⟨j, hj, rfl⟩)
      · exact ⟨k + 1, le_rfl, rfl⟩
      · exact ⟨j, by omega, rfl⟩
    · rintro ⟨j, hj, rfl⟩
      rcases Nat.lt_or_ge k j with h | h
      · exact .inl (by rw [show j = k + 1 by omega]; rfl)
      · exact .inr ⟨j, h, rfl⟩

/-- From a directory up, one step after the other, to the git root. -/
theorem directoriesThrough_ancestors {r : Nat} (k : Nat) : ∀ {n : Nat},
    r + k ≤ target.names.length → r + k ≤ n →
    directoriesThrough (target.take r).path (ancestorsUpTo n (target.take (r + k)).path) =
      (walk target r k).map CanonicalPath.path := by
  induction k with
  | zero =>
    intro n _ _
    have hself : ((target.take r).path == (target.take r).path) = true :=
      CanonicalPath.path_beq_iff.2 rfl
    cases n with
    | zero => simp [ancestorsUpTo, directoriesThrough, hself, walk]
    | succ n => simp [ancestorsUpTo, directoriesThrough, hself, walk]
  | succ k ih =>
    intro n hlen hn
    obtain ⟨n, rfl⟩ : ∃ m, n = m + 1 := ⟨n - 1, by omega⟩
    have hparent : (target.take (r + k + 1)).path.parent = some (target.take (r + k)).path := by
      rw [take_succ target (by omega)]
      exact CanonicalPath.parent_append _ _ _
    have hne : ((target.take (r + k + 1)).path == (target.take r).path) = false := by
      rw [Bool.eq_false_iff]
      intro h
      have hnames := congrArg List.length (CanonicalPath.path_beq_iff.1 h)
      rw [length_take target (by omega), length_take target (by omega)] at hnames
      omega
    show directoriesThrough _ (ancestorsUpTo (n + 1) (target.take (r + k + 1)).path) = _
    rw [ancestorsUpTo, hparent, directoriesThrough, hne]
    simp only [Bool.false_eq_true, if_false, Option.map_some, Option.getD_some]
    rw [ih (by omega) (by omega), walk, List.map_cons]

end

/-- The directory is at or below the git root and at or above the target. -/
def Within (target gitRoot d : CanonicalPath) : Prop :=
  gitRoot.names <+: d.names ∧ d.names <+: target.names

section
variable {target gitRoot : CanonicalPath} (hroot : gitRoot.names <+: target.names)
include hroot

theorem take_gitRoot : target.take gitRoot.names.length = gitRoot :=
  CanonicalPath.names_inj (List.prefix_iff_eq_take.1 hroot).symm

theorem take_target : target.take
    (gitRoot.names.length + (target.names.length - gitRoot.names.length)) = target := by
  refine CanonicalPath.names_inj (List.take_of_length_le ?_)
  have := hroot.length_le
  omega

/-- The directories from the target to the git root. -/
def between (target gitRoot : CanonicalPath) : List CanonicalPath :=
  walk target gitRoot.names.length (target.names.length - gitRoot.names.length)

theorem ancestorDirectories_eq : ancestorDirectories target.path gitRoot.path =
    (between target gitRoot).map CanonicalPath.path := by
  have hlen := hroot.length_le
  have hcomps : target.path.components.length = target.names.length + 1 := by
    rw [CanonicalPath.components_path, CanonicalPath.comps, List.length_cons, List.length_map]
  have hwalk := directoriesThrough_ancestors target (r := gitRoot.names.length)
    (target.names.length - gitRoot.names.length) (n := target.path.components.length)
    (by omega) (by omega)
  rwa [take_gitRoot hroot, take_target hroot] at hwalk

theorem mem_between {d : CanonicalPath} : d ∈ between target gitRoot ↔ Within target gitRoot d := by
  have hlen := hroot.length_le
  rw [between, mem_walk]
  constructor
  · rintro ⟨j, hj, rfl⟩
    refine ⟨?_, List.take_prefix _ _⟩
    conv_lhs => rw [← take_gitRoot hroot]
    exact List.take_prefix_take_left (by omega)
  · rintro ⟨hlow, hhigh⟩
    have hlow := hlow.length_le
    refine ⟨d.names.length - gitRoot.names.length, by have := hhigh.length_le; omega, ?_⟩
    refine CanonicalPath.names_inj ?_
    have htake := List.prefix_iff_eq_take.1 hhigh
    show d.names = target.names.take (gitRoot.names.length + (d.names.length - gitRoot.names.length))
    rwa [show gitRoot.names.length + (d.names.length - gitRoot.names.length) = d.names.length by omega]

end

end Agentbox.DevEnv.Discovery
