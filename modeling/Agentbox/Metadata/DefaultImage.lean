import Agentbox.Lib.Entries
import Agentbox.Metadata.Session

/-! # The labels of a runtime image

What agentbox labels the images with that it builds, as in `metadata/default_image.rs`. A container
has the labels of its image wherever its own do not replace them. -/

namespace Agentbox.Metadata.DefaultImage

open Agentbox.Base.Text Agentbox.Lib.Entries Agentbox.Metadata.Labels Agentbox.Metadata.Session
  Agentbox.Runtime.Kind

def LABEL_DEFAULT_RUNTIME_IMAGE : String := "io.agentbox.default_runtime_image"
def LABEL_IMAGE_CONTEXT_HASH : String := "io.agentbox.image_context_hash"
def LABEL_DEFAULT_RUNTIME_IMAGE_VALUE : String := "true"

structure RuntimePackageSpec where
  name : String
  installSource : String

def packageSpec : RuntimeKind → RuntimePackageSpec
  | .opencode => ⟨"opencode-ai", "npm"⟩
  | .codex => ⟨"@openai/codex", "npm"⟩

structure DefaultRuntimeImageLabelInput where
  runtime : RuntimeKind
  image : String
  imageContextHash : String
  version : String
  resolvedAt : String

/-- `runtime_package_metadata_label`. -/
def runtimePackageMetadataLabel (runtime : RuntimeKind) (name : String) : String :=
  "io.agentbox." ++ runtime.asStr ++ "." ++ name

def defaultRuntimeImageLabels (input : DefaultRuntimeImageLabelInput) : LabelMap :=
  let package := packageSpec input.runtime
  .ofList
    [(LABEL_DEFAULT_RUNTIME_IMAGE, LABEL_DEFAULT_RUNTIME_IMAGE_VALUE),
     (LABEL_RUNTIME, input.runtime.asStr),
     (LABEL_IMAGE, input.image),
     (LABEL_IMAGE_CONTEXT_HASH, input.imageContextHash),
     (runtimePackageMetadataLabel input.runtime "package", package.name),
     (runtimePackageVersionLabel input.runtime, input.version),
     (runtimePackageMetadataLabel input.runtime "install_source", package.installSource),
     (runtimePackageMetadataLabel input.runtime "resolved_at", input.resolvedAt)]

/-- An image that agentbox built on a base image, which has no label of agentbox: it is the
`debian:stable` of the `Containerfile`. -/
structure RuntimeImage where
  base : LabelMap
  input : DefaultRuntimeImageLabelInput
  base_foreign : ∀ name, startsWith name "io.agentbox." = true → base[name]? = none

def RuntimeImage.labels (image : RuntimeImage) : LabelMap :=
  image.base ∪ defaultRuntimeImageLabels image.input

/-- The labels that only containers have. -/
def CONTAINER_LABELS : List String :=
  [LABEL_MANAGED, LABEL_CONTAINER_KIND, LABEL_SCHEMA, LABEL_SERVER_ARGS, LABEL_RESOURCE_LIMIT_CPUS,
    LABEL_RESOURCE_LIMIT_MEMORY]

theorem container_label_not_built (runtime : RuntimeKind) : ∀ name ∈ CONTAINER_LABELS, name ∉
    [LABEL_DEFAULT_RUNTIME_IMAGE, LABEL_RUNTIME, LABEL_IMAGE, LABEL_IMAGE_CONTEXT_HASH,
      runtimePackageMetadataLabel runtime "package", runtimePackageVersionLabel runtime,
      runtimePackageMetadataLabel runtime "install_source",
      runtimePackageMetadataLabel runtime "resolved_at"] := by
  cases runtime <;> decide

theorem lacks_labels (image : RuntimeImage) : Lacks image.labels CONTAINER_LABELS := by
  refine Lacks.union (fun name hname => image.base_foreign name ?_) (lacks_ofList ?_)
  · revert name
    decide
  · exact container_label_not_built image.input.runtime

end Agentbox.Metadata.DefaultImage
