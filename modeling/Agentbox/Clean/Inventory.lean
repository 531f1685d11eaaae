import Agentbox.Files.Snapshot
import Agentbox.Metadata.DefaultImage
import Agentbox.Podman.Model
import Agentbox.Runtime.Spec

/-! # What a clean looks at

`commands/clean/inventory.rs`, `resource.rs` and `scope.rs`: the kinds of resources, and the images,
volumes and lock files that are considered. An image is considered for each of its references that
has the form of a default image, for the runtime and the context hash that its labels state. -/

namespace Agentbox.Clean.Inventory

open Agentbox.Base.Text Agentbox.Files.Snapshot Agentbox.Metadata.Labels
  Agentbox.Metadata.DefaultImage Agentbox.Podman.Model Agentbox.Runtime.Kind Agentbox.Runtime.Spec
  Agentbox.Workspace.Identity

/-! ### Resources -/

inductive ResourceKind
  | image
  | volume
  | lockFile
  deriving DecidableEq, Repr

structure CleanResource where
  kind : ResourceKind
  name : String
  deriving DecidableEq, Repr

def CleanResource.image (name : String) : CleanResource := ⟨.image, name⟩

def CleanResource.volume (name : String) : CleanResource := ⟨.volume, name⟩

def CleanResource.lockFile (name : String) : CleanResource := ⟨.lockFile, name⟩

structure CleanScope where
  resources : List ResourceKind

def CleanScope.includes (scope : CleanScope) (kind : ResourceKind) : Bool :=
  scope.resources.contains kind

def selectedResources (images volumes locks : Bool) : List ResourceKind :=
  (if images then [.image] else []) ++ (if volumes then [.volume] else []) ++
    (if locks then [.lockFile] else [])

def CleanScope.fromFlags (images volumes locks : Bool) : CleanScope :=
  if !images && !volumes && !locks then ⟨[.image, .volume, .lockFile]⟩
  else ⟨selectedResources images volumes locks⟩

/-! ### Containers -/

/-- A mount, with the fields that say which volume it is. -/
structure NamedMount extends PodmanContainerMount where
  name : Option String
  source : String

def nonEmpty (value : Option String) : Option String := value.filter fun value => value ≠ ""

def NamedMount.namedVolumeName (mount : NamedMount) : Option String :=
  if mount.kind.isVolume then (nonEmpty mount.name).or (nonEmpty (some mount.source)) else none

/-- The part of `PodmanContainerInspect` that `clean` reads. -/
structure InspectedContainer where
  id : String
  imageName : String
  mounts : List NamedMount

/-! ### Images -/

structure PodmanImage where
  repository : String
  tag : String
  names : Option (List String)
  labels : LabelMap

def PodmanImage.references (image : PodmanImage) : List String :=
  let tagged := if image.repository ≠ "" ∧ image.tag ≠ "" ∧ image.repository ≠ "<none>" ∧
    image.tag ≠ "<none>" then [image.repository ++ ":" ++ image.tag] else []
  (((image.names.getD [] ++ tagged).filter fun reference =>
    reference ≠ "" ∧ reference ≠ "<none>").mergeSort (· ≤ ·)).dedup

/-- `char::is_ascii_hexdigit`. -/
def isAsciiHexdigit (c : Char) : Bool :=
  isAsciiDigit c || ('a' ≤ c && c ≤ 'f') || ('A' ≤ c && c ≤ 'F')

def IMAGE_CONTEXT_HASH_LEN : Nat := 16

/-- `is_default_image_context_hash`: of hexadecimal digits there are as many bytes as characters. -/
def isDefaultImageContextHash (value : String) : Bool :=
  value.toList.length == IMAGE_CONTEXT_HASH_LEN && value.toList.all isAsciiHexdigit

/-- What the reference of a default image has before its context hash. -/
def defaultImageStem (runtime : RuntimeKind) : String :=
  "localhost/agentbox-" ++ runtime.asStr ++ ":ctx-"

/-- `str::strip_prefix`. -/
def stripStart (s start : String) : Option String :=
  if startsWith s start then some (String.ofList (s.toList.drop start.toList.length)) else none

def isContentHashDefaultImageRef (runtime : RuntimeKind) (image : String) : Bool :=
  (stripStart image (defaultImageStem runtime)).any isDefaultImageContextHash

structure DefaultRuntimeImageMetadata where
  runtime : RuntimeKind
  imageContextHash : String

def DefaultRuntimeImageMetadata.fromLabels (labels : LabelMap) :
    Option DefaultRuntimeImageMetadata := do
  if requiredLabelValue labels LABEL_DEFAULT_RUNTIME_IMAGE ≠
      some LABEL_DEFAULT_RUNTIME_IMAGE_VALUE then none
  else
    let runtime ← (requiredLabelValue labels LABEL_RUNTIME).bind fun value =>
      (RuntimeKind.parse value).toOption
    let hash ← (requiredLabelValue labels LABEL_IMAGE_CONTEXT_HASH).filter
      isDefaultImageContextHash
    some ⟨runtime, hash⟩

structure DefaultRuntimeImageCandidate where
  runtime : RuntimeKind
  image : String
  deriving DecidableEq

def endsWith (s suffix : String) : Bool := suffix.toList.isSuffixOf s.toList

def labeledDefaultRuntimeImageCandidates (image : PodmanImage) :
    List DefaultRuntimeImageCandidate :=
  match DefaultRuntimeImageMetadata.fromLabels image.labels with
  | none => []
  | some metadata =>
    (image.references.filter fun reference =>
      isContentHashDefaultImageRef metadata.runtime reference &&
        endsWith reference metadata.imageContextHash).map fun image => ⟨metadata.runtime, image⟩

theorem stripStart_eq_some {s start rest : String} (h : stripStart s start = some rest) :
    s = start ++ rest := by
  unfold stripStart startsWith at h
  split_ifs at h with hstart
  obtain ⟨l, hl⟩ := List.isPrefixOf_iff_prefix.1 hstart
  cases h
  rw [← String.toList_inj, String.toList_append, String.toList_ofList, ← hl, List.drop_left]

theorem length_of_isDefaultImageContextHash {value : String}
    (h : isDefaultImageContextHash value = true) : value.toList.length = 16 := by
  rw [isDefaultImageContextHash, Bool.and_eq_true] at h
  exact eq_of_beq h.1

/-- The labels of an image that agentbox built for a runtime from a context. -/
structure IsLabeled (labels : LabelMap) (runtime : RuntimeKind) (hash : String) : Prop where
  marker : requiredLabelValue labels LABEL_DEFAULT_RUNTIME_IMAGE =
    some LABEL_DEFAULT_RUNTIME_IMAGE_VALUE
  runtime_eq : ∃ value, requiredLabelValue labels LABEL_RUNTIME = some value ∧
    RuntimeKind.parse value = .ok runtime
  hash_eq : requiredLabelValue labels LABEL_IMAGE_CONTEXT_HASH = some hash
  isHash : isDefaultImageContextHash hash = true

theorem fromLabels_eq_some {labels : LabelMap} {metadata : DefaultRuntimeImageMetadata}
    (h : DefaultRuntimeImageMetadata.fromLabels labels = some metadata) :
    IsLabeled labels metadata.runtime metadata.imageContextHash := by
  unfold DefaultRuntimeImageMetadata.fromLabels at h
  split_ifs at h with hmarker
  rw [ne_eq, not_not] at hmarker
  obtain ⟨runtime, hruntime, h⟩ := Option.bind_eq_some_iff.1 h
  obtain ⟨hash, hhash, h⟩ := Option.bind_eq_some_iff.1 h
  cases h
  obtain ⟨value, hvalue, hparse⟩ := Option.bind_eq_some_iff.1 hruntime
  obtain ⟨hsome, hhex⟩ := Option.filter_eq_some_iff.1 hhash
  refine ⟨hmarker, ⟨value, hvalue, ?_⟩, hsome, hhex⟩
  rcases hr : RuntimeKind.parse value with e | r
  · rw [hr] at hparse
    cases hparse
  · rw [hr] at hparse
    cases hparse
    rfl

/-- A considered reference is the one that the labels of its image state. -/
theorem mem_labeledCandidates {image : PodmanImage} {candidate : DefaultRuntimeImageCandidate}
    (h : candidate ∈ labeledDefaultRuntimeImageCandidates image) :
    candidate.image ∈ image.references ∧ ∃ hash, IsLabeled image.labels candidate.runtime hash ∧
      candidate.image = defaultImageStem candidate.runtime ++ hash := by
  unfold labeledDefaultRuntimeImageCandidates at h
  split at h
  · exact absurd h List.not_mem_nil
  · next metadata hmetadata =>
    obtain ⟨reference, hmem, rfl⟩ := List.mem_map.1 h
    obtain ⟨href, hshape⟩ := List.mem_filter.1 hmem
    rw [Bool.and_eq_true, isContentHashDefaultImageRef, Option.any_eq_true] at hshape
    obtain ⟨⟨rest, hrest, hhash⟩, hend⟩ := hshape
    have hlabeled := fromLabels_eq_some hmetadata
    have heq : reference = defaultImageStem metadata.runtime ++ rest := stripStart_eq_some hrest
    refine ⟨href, _, hlabeled, ?_⟩
    -- both are the last sixteen characters of the reference
    obtain ⟨l, hl⟩ := List.isSuffixOf_iff_suffix.1 hend
    have hlist := congrArg String.toList heq
    rw [String.toList_append, ← hl] at hlist
    have hlength : metadata.imageContextHash.toList.length = rest.toList.length := by
      rw [length_of_isDefaultImageContextHash hlabeled.isHash,
        length_of_isDefaultImageContextHash hhash]
    rw [heq, String.toList_inj.1 (List.append_inj_right' hlist hlength)]

/-! ### Volumes and lock files -/

/-- `is_agentbox_workspace_resource_name`: the parts of the name are split at its last `-`. -/
def isAgentboxWorkspaceResourceName (name : String) : Bool :=
  let suffix := (name.toList.reverse.takeWhile (· ≠ '-')).reverse
  let stem := name.toList.take (name.toList.length - suffix.length - 1)
  name.toList.contains '-' && CONTAINER_PREFIX.toList.isPrefixOf stem &&
    CONTAINER_PREFIX.toList.length < stem.length && suffix.length == GIT_ROOT_HASH_LEN &&
    suffix.all isAsciiHexdigit

/-- `WorkspaceLockFileStatus`, of the lock file at a path. -/
inductive WorkspaceLockFileStatus
  | available (path : OsPath)
  | locked (path : OsPath)

def lockFileResource (path : OsPath) : CleanResource := .lockFile path.display

structure CleanInventory where
  containers : List InspectedContainer
  defaultRuntimeImages : List DefaultRuntimeImageCandidate
  volumes : List String
  lockFiles : List WorkspaceLockFileStatus

end Agentbox.Clean.Inventory
