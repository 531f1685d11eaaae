import Agentbox.Lib.Resolution

/-! # Mount roots

`preflight/path.rs`. Joining, splitting and comparing paths act on components, so a path is the list
of its components here, and a lookup of it reads `lookupComponents`. -/

namespace Agentbox.Preflight.Path

open Agentbox.Base.Path Agentbox.Lib.Resolution

/-- One component onto a `Utf8PathBuf`; `pop` fails at the start and at the root. -/
def pushNormalized (isAbsolute : Bool) (normalized : List Component) : Component → List Component
  | .rootDir => [.rootDir]
  | .curDir => normalized
  | .parentDir =>
    if normalized = [] ∨ normalized = [.rootDir] then
      if isAbsolute then normalized else normalized ++ [.parentDir]
    else normalized.dropLast
  | .normal name => normalized ++ [.normal name]

/-- `normalize_path`. -/
def normalizePath (path : List Component) : List Component :=
  let normalized := path.foldl (pushNormalized (path.head? == some .rootDir)) []
  if normalized = [] then [.curDir] else normalized

/-- `path_is_or_descendant`. -/
def pathIsOrDescendant (path root : List Component) : Bool := path == root || root.isPrefixOf path

def normalizedPathReachesMountRoot (path normalizedMountRoot : List Component) : Bool :=
  pathIsOrDescendant (normalizePath path) normalizedMountRoot

section
variable (fs : FileSystem)

def resolvePath (path : Utf8Path) : List Component :=
  match fs.resolve (lookupComponents path) with
  | some place => .rootDir :: place.map .normal
  | none => path.components

/-- `Utf8Path::ancestors`; only the path itself can end in a slash. -/
def ancestors (path : Utf8Path) : List (List Component) :=
  lookupComponents path :: (path.components.inits.dropLast.filter (· ≠ [])).reverse

def readSymlinkTarget (path : List Component) : Option Utf8Path := (fs.readLink path).map Prod.snd

def resolveSymlinkTarget (linkPath : List Component) (target : Utf8Path) : List Component :=
  if target.isAbsolute then target.components else linkPath.dropLast ++ target.components

def expandedSymlinkPath (path : Utf8Path) (ancestor targetPath : List Component) :
    List Component :=
  targetPath ++ path.components.drop ancestor.length

def symlinkExpansionReachesMountRoot (path : Utf8Path)
    (ancestor normalizedMountRoot : List Component) : Bool :=
  match readSymlinkTarget fs ancestor with
  | none => false
  | some target =>
    let targetPath := resolveSymlinkTarget ancestor target
    normalizedPathReachesMountRoot targetPath normalizedMountRoot ||
      normalizedPathReachesMountRoot (expandedSymlinkPath path ancestor targetPath)
        normalizedMountRoot

def pathReachesMountRoot (path mountRoot : Utf8Path) : Bool :=
  let mountRoot := normalizePath mountRoot.components
  normalizedPathReachesMountRoot path.components mountRoot ||
    normalizedPathReachesMountRoot (resolvePath fs path) mountRoot ||
    (ancestors path).any fun ancestor => symlinkExpansionReachesMountRoot fs path ancestor mountRoot

def symlinkOrPathExists (path : Utf8Path) : Bool := fs.symlinkMetadata (lookupComponents path)

end

/-! ### Normalized paths -/

theorem pathIsOrDescendant_iff {path root : List Component} :
    pathIsOrDescendant path root = true ↔ root <+: path := by
  rw [pathIsOrDescendant, Bool.or_eq_true, beq_iff_eq, List.isPrefixOf_iff_prefix]
  exact ⟨fun h => h.elim (fun h => h ▸ List.prefix_rfl) id, Or.inr⟩

end Agentbox.Preflight.Path
