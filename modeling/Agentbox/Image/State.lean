import Agentbox.Metadata.DefaultImage
import Agentbox.Runtime.Spec

/-! # The recorded state of a runtime image

`runtime/image_state.rs` and `runtime/image_plan.rs`: what is recorded of the default image of a
runtime, and whether an update has to build the image again. -/

namespace Agentbox.Image.State

open Agentbox.Runtime.Kind Agentbox.Runtime.Spec Agentbox.Metadata.DefaultImage

structure RuntimeImageState where
  runtime : String
  package : String
  installSource : String
  image : String
  imageContextHash : String
  installedVersion : String
  latestSeenVersion : String
  latestCheckedAt : UInt64
  imageBuiltAt : UInt64
  deriving DecidableEq

namespace RuntimeImageState

/-- `RuntimeImageState::new`. -/
def new (runtime : RuntimeKind) (version : String) (latestCheckedAt imageBuiltAt : UInt64) :
    RuntimeImageState where
  runtime := runtime.asStr
  package := (packageSpec runtime).name
  installSource := (packageSpec runtime).installSource
  image := defaultImage runtime
  imageContextHash := DEFAULT_IMAGE_CONTEXT_HASH
  installedVersion := version
  latestSeenVersion := version
  latestCheckedAt
  imageBuiltAt

def withLatestCheck (state : RuntimeImageState) (latestVersion : String)
    (latestCheckedAt : UInt64) : RuntimeImageState :=
  { state with latestSeenVersion := latestVersion, latestCheckedAt }

/-- The state is one of the current default image. -/
def IsCurrent (state : RuntimeImageState) (runtime : RuntimeKind) : Prop :=
  state.image = defaultImage runtime ∧ state.imageContextHash = DEFAULT_IMAGE_CONTEXT_HASH

end RuntimeImageState

/-- The parts of `serde_json` that read and write the file of a state. -/
structure Serde where
  toStringPretty : RuntimeImageState → String
  fromStr : String → Except String RuntimeImageState
  fromStr_toStringPretty : ∀ state, fromStr (toStringPretty state ++ "\n") = .ok state

inductive RuntimeImageUpdatePlan
  | refreshState (state : RuntimeImageState) (latestVersion : String)
  | rebuild (version : String)

def planRuntimeImageUpdate (runtime : RuntimeKind) (latestVersion : String) (imageExists : Bool)
    (priorState : Option RuntimeImageState) : RuntimeImageUpdatePlan :=
  match priorState.filter fun state => imageExists && state.installedVersion == latestVersion &&
      state.image == defaultImage runtime &&
      state.imageContextHash == DEFAULT_IMAGE_CONTEXT_HASH with
  | some state => .refreshState state latestVersion
  | none => .rebuild latestVersion

/-- A state is refreshed only when it is current and of the latest version. -/
theorem planRuntimeImageUpdate_cases (runtime : RuntimeKind) (latestVersion : String)
    (imageExists : Bool) (priorState : Option RuntimeImageState) :
    (planRuntimeImageUpdate runtime latestVersion imageExists priorState = .rebuild latestVersion) ∨
    ∃ state, planRuntimeImageUpdate runtime latestVersion imageExists priorState =
        .refreshState state latestVersion ∧
      priorState = some state ∧ imageExists = true ∧ state.installedVersion = latestVersion ∧
      state.IsCurrent runtime := by
  unfold planRuntimeImageUpdate
  rcases hfilter : priorState.filter _ with _ | state
  · exact .inl rfl
  · obtain ⟨hprior, hcurrent⟩ := Option.filter_eq_some_iff.1 hfilter
    simp only [Bool.and_eq_true, beq_iff_eq] at hcurrent
    exact .inr ⟨state, rfl, hprior, hcurrent.1.1.1, hcurrent.1.1.2, hcurrent.1.2, hcurrent.2⟩

end Agentbox.Image.State
