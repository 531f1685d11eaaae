import Agentbox.Base.Errors
import Agentbox.Image.State
import Agentbox.Lib.Program

/-! # The life of a runtime image

`runtime/image_environment.rs` and `runtime/image_lifecycle.rs`, and what `clean` does with an
image: the calls that build, record and remove the default image of a runtime. No lock is taken
around them. -/

namespace Agentbox.Image.Lifecycle

open Agentbox.Base.Path Agentbox.Base.Errors Agentbox.Lib.Program Agentbox.Runtime.Kind
  Agentbox.Runtime.Spec Agentbox.Metadata.DefaultImage Agentbox.Image.State

/-! ### Calls -/

inductive ImageOp
  /-- The state directory of the user, for `AgentboxStateRoot::from_xdg`. -/
  | stateHome
  | imageExists (image : String)
  /-- `exists` and `read_to_string` of the file of a runtime's state. -/
  | readFile (runtime : RuntimeKind)
  /-- `create_dir_all` and `write`. -/
  | writeFile (runtime : RuntimeKind) (contents : String)
  | removeFile (runtime : RuntimeKind)
  | resolveLatestVersion (package : String)
  | buildImage (runtime : RuntimeKind) (version : String)
  | nowUnixSeconds
  | removeImage (image : String)

/-- What a call answers. A file that is not there is removed without an error. -/
def ImageOp.Ret : ImageOp → Type
  | stateHome => Except Error Utf8Path
  | imageExists _ => Except Error Bool
  | readFile _ => Except Error (Option String)
  | resolveLatestVersion _ => Except Error String
  | nowUnixSeconds => Except Error UInt64
  | writeFile _ _ | removeFile _ | buildImage _ _ | removeImage _ => Except Error Unit

abbrev ImageOps : Sig := ⟨ImageOp, ImageOp.Ret⟩

abbrev ImageCommand (α : Type) := Prog ImageOps Error α

def imageExists (image : String) : ImageCommand Bool := .call (.imageExists image) .ofExcept

def resolveLatestVersion (package : String) : ImageCommand String :=
  .call (.resolveLatestVersion package) .ofExcept

def buildImage (runtime : RuntimeKind) (version : String) : ImageCommand Unit :=
  .call (.buildImage runtime version) .ofExcept

def nowUnixSeconds : ImageCommand UInt64 := .call .nowUnixSeconds .ofExcept

def removeImage (image : String) : ImageCommand Unit := .call (.removeImage image) .ofExcept

/-! ### The store -/

structure RuntimeImageStateStore where
  root : Utf8Path

namespace RuntimeImageStateStore

def fromStateHome (stateHome : Utf8Path) : RuntimeImageStateStore := ⟨stateHome.join ⟨"agentbox"⟩⟩

def fromXdg : ImageCommand RuntimeImageStateStore :=
  .call .stateHome fun stateHome => .ofExcept (stateHome.map fromStateHome)

variable (store : RuntimeImageStateStore) (serde : Serde)

def path (runtime : RuntimeKind) : Utf8Path :=
  (store.root.join ⟨"runtime"⟩).join ⟨runtime.asStr ++ ".json"⟩

def parseError (runtime : RuntimeKind) (error : String) : Error :=
  .msg ("failed to parse " ++ runtime.asStr ++ " runtime image state `" ++
    (store.path runtime).asStr ++ "`: " ++ error)

def parse (runtime : RuntimeKind) :
    Except Error (Option String) → Except Error (Option RuntimeImageState)
  | .error error => .error error
  | .ok none => .ok none
  | .ok (some contents) => match serde.fromStr contents with
    | .ok state => .ok (some state)
    | .error error => .error (store.parseError runtime error)

def read (runtime : RuntimeKind) : ImageCommand (Option RuntimeImageState) :=
  .call (.readFile runtime) fun contents => .ofExcept (store.parse serde runtime contents)

def write (runtime : RuntimeKind) (state : RuntimeImageState) : ImageCommand Unit :=
  .call (.writeFile runtime (serde.toStringPretty state ++ "\n")) .ofExcept

def remove (runtime : RuntimeKind) : ImageCommand Unit := .call (.removeFile runtime) .ofExcept

def removeIfImage (runtime : RuntimeKind) (image : String) : ImageCommand Unit := do
  match ← store.read serde runtime with
  | none => return ()
  | some state => if state.image = image then remove runtime else return ()

end RuntimeImageStateStore

/-! ### Update -/

inductive RuntimeImageUpdateOutcome
  | alreadyUpToDate (image version : String)
  | rebuilt (image version : String)
  deriving DecidableEq, Repr

variable (serde : Serde) (store : RuntimeImageStateStore)

def buildRuntimeImageAndRecordState (runtime : RuntimeKind) (version : String) :
    ImageCommand Unit := do
  buildImage runtime version
  let now ← nowUnixSeconds
  RuntimeImageStateStore.write serde runtime (.new runtime version now now)

def updateDefaultRuntimeImageWith (runtime : RuntimeKind) :
    ImageCommand RuntimeImageUpdateOutcome := do
  let package := packageSpec runtime
  let image := defaultImage runtime
  let latestVersion ← resolveLatestVersion package.name
  let imageExists ← imageExists image
  let priorState ← store.read serde runtime
  match planRuntimeImageUpdate runtime latestVersion imageExists priorState with
  | .refreshState state latestVersion => do
    let now ← nowUnixSeconds
    RuntimeImageStateStore.write serde runtime (state.withLatestCheck latestVersion now)
    return .alreadyUpToDate image latestVersion
  | .rebuild version => do
    buildRuntimeImageAndRecordState serde runtime version
    return .rebuilt image version

/-- `update_default_runtime_image`. -/
def updateDefaultRuntimeImage (runtime : RuntimeKind) :
    ImageCommand RuntimeImageUpdateOutcome := do
  let store ← RuntimeImageStateStore.fromXdg
  updateDefaultRuntimeImageWith serde store runtime

/-! ### Setup for a launch -/

def installedVersionIfKnown (runtime : RuntimeKind) (image : String) :
    ImageCommand (Option String) := do
  let state ← store.read serde runtime
  return (state.filter fun state => state.image == image).map RuntimeImageState.installedVersion

def buildDefaultRuntimeImage (runtime : RuntimeKind) : ImageCommand String := do
  let latestVersion ← resolveLatestVersion (packageSpec runtime).name
  buildRuntimeImageAndRecordState serde runtime latestVersion
  return latestVersion

def ensureDefaultRuntimeImageWith (runtime : RuntimeKind) (workspaceRoot : Utf8Path)
    (defaultImage : String) : ImageCommand (Option String) := do
  if ← imageExists defaultImage then
    installedVersionIfKnown serde store runtime defaultImage
  else
    match ← (buildDefaultRuntimeImage serde runtime).attempt with
    | .ok version => return some version
    | .error error => .fail (.msg ("failed to build default runtime image `" ++ defaultImage ++
        "` for `" ++ workspaceRoot.asStr ++ "`: " ++ error.display))

/-- `ensure_default_runtime_image`. -/
def ensureDefaultRuntimeImage (runtime : RuntimeKind) (workspaceRoot : Utf8Path) :
    ImageCommand (Option String) := do
  let store ← RuntimeImageStateStore.fromXdg
  ensureDefaultRuntimeImageWith serde store runtime workspaceRoot (defaultImage runtime)

/-! ### Removal -/

/-- What `clean` does with an image candidate. -/
def removeImageCandidate (runtime : RuntimeKind) (image : String) : ImageCommand Unit := do
  removeImage image
  let store ← RuntimeImageStateStore.fromXdg
  store.removeIfImage serde runtime image

/-! ### Images and files -/

/-- The images with the version each was last built with, and the files of the states. -/
structure ImageWorld where
  images : String → Option String
  files : RuntimeKind → Option String

namespace ImageWorld

variable (w : ImageWorld)

def setImage (image : String) (version : Option String) : ImageWorld :=
  { w with images := Function.update w.images image version }

def setFile (runtime : RuntimeKind) (contents : Option String) : ImageWorld :=
  { w with files := Function.update w.files runtime contents }

/-- The state that is stored of a runtime. -/
def Stored (runtime : RuntimeKind) (state : RuntimeImageState) : Prop :=
  ∃ contents, w.files runtime = some contents ∧ serde.fromStr contents = .ok state

/-- What is stored of a default image tells the version that it was last built with. -/
def Truthful (runtime : RuntimeKind) : Prop :=
  ∀ state version, w.Stored serde runtime state → state.image = defaultImage runtime →
    w.images (defaultImage runtime) = some version → state.installedVersion = version

end ImageWorld

/-- What the calls do. Each may fail, also after it took effect; a failed write can leave a torn
file. -/
def imageMachine : Machine ImageOps ImageWorld where
  step w o r w' := match o, r with
    | .stateHome, _ | .resolveLatestVersion _, _ | .nowUnixSeconds, _ => w' = w
    | .imageExists image, r => (∀ b, r = .ok b → b = (w.images image).isSome) ∧ w' = w
    | .readFile runtime, r => (∀ contents, r = .ok contents → contents = w.files runtime) ∧ w' = w
    | .writeFile runtime contents, r => w' = w.setFile runtime (some contents) ∨
        (∃ e, r = .error e) ∧ (w' = w ∨ ∃ torn, w' = w.setFile runtime (some torn) ∧
          ∀ state, serde.fromStr torn = .ok state → serde.fromStr contents = .ok state)
    | .removeFile runtime, r => w' = w.setFile runtime none ∨ (∃ e, r = .error e) ∧ w' = w
    | .buildImage runtime version, r => w' = w.setImage (defaultImage runtime) (some version) ∨
        (∃ e, r = .error e) ∧ w' = w
    | .removeImage image, r => w' = w.setImage image none ∨ (∃ e, r = .error e) ∧ w' = w

end Agentbox.Image.Lifecycle
