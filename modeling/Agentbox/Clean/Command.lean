import Agentbox.Clean.Plan
import Agentbox.Commands.LockIdentity
import Agentbox.Image.Lifecycle

/-! # The clean command

`commands/clean/mod.rs`, `inventory.rs`, `apply.rs` and `render.rs`, with the prompts and the scan
of the lock directory that they call. -/

namespace Agentbox.Clean.Command

open Agentbox.Base.Path Agentbox.Base.Errors Agentbox.Files.Snapshot Agentbox.Lib.Program
  Agentbox.Metadata.DefaultImage Agentbox.Podman.Model Agentbox.Runtime.Kind
  Agentbox.Image.State Agentbox.Image.Lifecycle Agentbox.Clean.Inventory Agentbox.Clean.Plan
open Agentbox.Commands.LockIdentity (LOCK_FILE_EXTENSION)

/-! ### Calls -/

/-- The errors of a prompt; those that are not told apart have the text they display. -/
inductive InquireError
  | operationInterrupted
  | notTTY
  | other (text : String)

/-- An entry of a directory: its name, if that is UTF-8, and whether it is a file. -/
structure DirEntry where
  name : Option String
  isFile : Except Error Bool

/-- What `remove_cleanup_lock_file` did. -/
inductive WorkspaceLockFileRemoval
  | removed
  | missing
  | locked
  deriving DecidableEq, Repr

inductive CleanOp
  | psAll
  | inspectOne (name : String)
  | imagesWithLabel (labelFilter : String)
  | volumes
  /-- The state directory of the user, for `WorkspaceLockStore::from_xdg`. -/
  | stateHome
  /-- `read_dir`, with no entries when there is no directory. -/
  | readDir (path : OsPath)
  | cleanupLockFileStatus (path : OsPath)
  /-- A call of the store of the image states, or `podman image rm`. -/
  | image (o : ImageOp)
  | removeVolume (volume : String)
  | removeCleanupLockFile (path : OsPath)
  /-- Standard input and standard error are terminals. -/
  | isTerminal
  | confirm (message : String) (default : Bool)
  | writeStderr (text : String)
  | info (message : String)
  | warning (message : String)

def CleanOp.Ret : CleanOp → Type
  | psAll => Except Error (List PodmanPsContainer)
  | inspectOne _ => Except Error InspectedContainer
  | imagesWithLabel _ => Except Error (List PodmanImage)
  | volumes => Except Error (List String)
  | stateHome => Except Error OsPath
  | readDir _ => Except Error (List (Except Error DirEntry))
  | cleanupLockFileStatus _ => Except Error (Option WorkspaceLockFileStatus)
  | image o => o.Ret
  | removeVolume _ | writeStderr _ => Except Error Unit
  | removeCleanupLockFile _ => Except Error WorkspaceLockFileRemoval
  | isTerminal => Bool
  | confirm _ _ => Except InquireError (Option Bool)
  | info _ | warning _ => Unit

abbrev CleanOps : Sig := ⟨CleanOp, CleanOp.Ret⟩

abbrev CleanCommand (α : Type) := Prog CleanOps Error α

def ofImageCommand {α : Type} : ImageCommand α → CleanCommand α
  | .done a => .done a
  | .fail e => .fail e
  | .call o k => .call (.image o) fun r => ofImageCommand (k r)

def psAll : CleanCommand (List PodmanPsContainer) := .call .psAll .ofExcept

def inspectOne (name : String) : CleanCommand InspectedContainer :=
  .call (.inspectOne name) .ofExcept

def imagesWithLabel (labelFilter : String) : CleanCommand (List PodmanImage) :=
  .call (.imagesWithLabel labelFilter) .ofExcept

def volumes : CleanCommand (List String) := .call .volumes .ofExcept

def stateHome : CleanCommand OsPath := .call .stateHome .ofExcept

def readDir (path : OsPath) : CleanCommand (List (Except Error DirEntry)) :=
  .call (.readDir path) .ofExcept

def cleanupLockFileStatus (path : OsPath) : CleanCommand (Option WorkspaceLockFileStatus) :=
  .call (.cleanupLockFileStatus path) .ofExcept

def removeVolume (volume : String) : CleanCommand Unit := .call (.removeVolume volume) .ofExcept

def removeCleanupLockFile (path : OsPath) : CleanCommand WorkspaceLockFileRemoval :=
  .call (.removeCleanupLockFile path) .ofExcept

def isTerminal : CleanCommand Bool := .call .isTerminal .done

def writeStderr (text : String) : CleanCommand Unit := .call (.writeStderr text) .ofExcept

def info (message : String) : CleanCommand Unit := .call (.info message) .done

def warning (message : String) : CleanCommand Unit := .call (.warning message) .done

/-! ### Prompts -/

def NON_TTY_ERROR : String :=
  "agentbox clean requires --yes or --dry-run when stdin or stderr is not a TTY"

def requireInteractiveTerminal (nonTtyError : String) : CleanCommand Unit := do
  if ← isTerminal then return () else .fail (.msg nonTtyError)

def confirmationError : InquireError → Error
  | .operationInterrupted => .msg "confirmation interrupted"
  | .notTTY => .msg "interactive confirmation requires a TTY"
  | .other text => .msg ("interactive confirmation failed: " ++ text)

/-- The answer is none when the prompt was skipped. -/
def answered : Except InquireError (Option Bool) → Except Error Bool
  | .ok answer => .ok (answer.getD false)
  | .error error => .error (confirmationError error)

def confirm (message : String) (default : Bool) (nonTtyError : String) : CleanCommand Bool := do
  requireInteractiveTerminal nonTtyError
  .call (.confirm message default) fun answer => .ofExcept (answered answer)

/-! ### Lock files -/

/-- `matches!(ch, '0'..='9' | 'a'..='f')`. -/
def isLowerHexDigit (c : Char) : Bool := ('0' ≤ c && c ≤ '9') || ('a' ≤ c && c ≤ 'f')

/-- `str::strip_suffix`. -/
def stripEnd (s ending : String) : Option String :=
  if endsWith s ending then
    some (String.ofList (s.toList.take (s.toList.length - ending.toList.length)))
  else none

/-- `is_workspace_lock_file_name`: of the digits there are as many bytes as characters. -/
def isWorkspaceLockFileName (name : Option String) : Bool :=
  match name.bind fun name => stripEnd name LOCK_FILE_EXTENSION with
  | none => false
  | some digest => digest.toList.length == 64 && digest.toList.all isLowerHexDigit

def lockDir (stateHome : OsPath) : OsPath :=
  (stateHome.join (.utf8 ⟨"agentbox"⟩)).join (.utf8 ⟨"locks"⟩)

/-- The loop over the entries, with the names of the files it keeps. -/
def lockFileStatuses (dir : OsPath) :
    List (Except Error DirEntry) → CleanCommand (List (String × WorkspaceLockFileStatus))
  | [] => return []
  | .error error :: _ => .fail error
  | .ok entry :: entries => do
    let isFile ← Prog.ofExcept entry.isFile
    match entry.name with
    | none => lockFileStatuses dir entries
    | some name =>
      if !isFile || !isWorkspaceLockFileName (some name) then lockFileStatuses dir entries
      else do
        let status ← cleanupLockFileStatus (dir.join (.utf8 ⟨name⟩))
        let statuses ← lockFileStatuses dir entries
        return (status.map fun status => (name, status)).toList ++ statuses

/-- The files of one directory are sorted by their names. -/
def cleanupLockFiles : CleanCommand (List WorkspaceLockFileStatus) := do
  let dir := lockDir (← stateHome)
  let entries ← readDir dir
  let statuses ← lockFileStatuses dir entries
  return (statuses.mergeSort fun a b => a.1 ≤ b.1).map Prod.snd

/-! ### Inventory -/

/-- The inspection of every listed container, up to the first failure. -/
def inspectEach : List PodmanPsContainer → CleanCommand (List InspectedContainer)
  | [] => return []
  | container :: containers => do
    let inspected ← inspectOne container.id
    let rest ← inspectEach containers
    return inspected :: rest

def inspectAllContainers : CleanCommand (List InspectedContainer) := do
  inspectEach (← psAll)

/-- `default_runtime_image_label_filter`. -/
def defaultRuntimeImageLabelFilter : String :=
  "label=" ++ LABEL_DEFAULT_RUNTIME_IMAGE ++ "=" ++ LABEL_DEFAULT_RUNTIME_IMAGE_VALUE

def labeledDefaultRuntimeImages : CleanCommand (List DefaultRuntimeImageCandidate) := do
  let images ← imagesWithLabel defaultRuntimeImageLabelFilter
  return images.flatMap labeledDefaultRuntimeImageCandidates

/-- What is listed of resources in the scope. -/
def listedIf {α : Type} (inScope : Bool) (list : CleanCommand (List α)) : CleanCommand (List α) :=
  if inScope then list else return []

/-- `CleanInventory::from_podman`. -/
def fromPodman (scope : CleanScope) : CleanCommand CleanInventory := do
  let containers ← listedIf (scope.includes .image || scope.includes .volume) inspectAllContainers
  let defaultRuntimeImages ← listedIf (scope.includes .image) labeledDefaultRuntimeImages
  let volumes ← listedIf (scope.includes .volume) volumes
  let lockFiles ← listedIf (scope.includes .lockFile) cleanupLockFiles
  return ⟨containers, defaultRuntimeImages, volumes, lockFiles⟩

/-! ### Rendering -/

def kindName : ResourceKind → String
  | .image => "image"
  | .volume => "volume"
  | .lockFile => "lock file"

/-- A resource, with its kind. -/
def resourceText (resource : CleanResource) : String :=
  kindName resource.kind ++ " `" ++ resource.name ++ "`"

def candidateLine (candidate : CleanCandidate) : String :=
  "- " ++ resourceText candidate.resource

def skippedLine (skipped : SkippedResource) : String :=
  "- " ++ resourceText skipped.resource ++ ": " ++ skipped.reason

def planLines (plan : CleanPlan) : List String :=
  (if plan.candidates.isEmpty then []
    else "cleanup candidates:" :: plan.candidates.map candidateLine) ++
  (if plan.skipped.isEmpty then [] else "skipped:" :: plan.skipped.map skippedLine)

def renderPlan (plan : CleanPlan) : String :=
  if (planLines plan).isEmpty then "nothing to clean\n"
  else "\n".intercalate (planLines plan) ++ "\n"

/-! ### Removal -/

structure DeleteFailure where
  resource : CleanResource
  error : String

def failureText (failure : DeleteFailure) : String :=
  resourceText failure.resource ++ " (" ++ failure.error ++ ")"

def renderDeleteFailures (failures : List DeleteFailure) : String :=
  "partial clean failed; failed resources: " ++ "; ".intercalate (failures.map failureText)

def removedMessage (candidate : CleanCandidate) : String :=
  "removed " ++ resourceText candidate.resource

/-- A lock file that another process has is not removed. -/
def lockFileOutcome : WorkspaceLockFileRemoval → Except Error Unit
  | .removed | .missing => .ok ()
  | .locked => .error (.msg "locked by another agentbox process")

variable (serde : Serde)

def removeCandidate : CleanCandidate → CleanCommand Unit
  | .defaultRuntimeImage runtime resource =>
    ofImageCommand (removeImageCandidate serde runtime resource.name)
  | .cacheVolume resource => removeVolume resource.name
  | .workspaceLockFile path _ => do
    Prog.ofExcept (lockFileOutcome (← removeCleanupLockFile path))

/-- The loop over the candidates, with the failures so far. -/
def removeCandidates : List CleanCandidate → List DeleteFailure → CleanCommand (List DeleteFailure)
  | [], failures => return failures
  | candidate :: candidates, failures => do
    match ← (removeCandidate serde candidate).attempt with
    | .ok () => do
      info (removedMessage candidate)
      removeCandidates candidates failures
    | .error error =>
      removeCandidates candidates (failures ++ [⟨candidate.resource, error.display⟩])

def applyCleanPlan (plan : CleanPlan) : CleanCommand Unit := do
  let failures ← removeCandidates serde plan.candidates []
  if failures.isEmpty then return () else .fail (.msg (renderDeleteFailures failures))

/-! ### The command -/

structure CleanArgs where
  dryRun : Bool
  yes : Bool
  images : Bool
  volumes : Bool
  locks : Bool

def CleanArgs.scope (args : CleanArgs) : CleanScope :=
  .fromFlags args.images args.volumes args.locks

def buildCleanPlan (scope : CleanScope) : CleanCommand CleanPlan := do
  return .fromInventory scope (← fromPodman scope)

def confirmInteractive : CleanCommand Bool := confirm "Proceed?" false NON_TTY_ERROR

/-- The part that asks before it deletes. -/
def promptAndApply (plan : CleanPlan) : CleanCommand Unit := do
  requireInteractiveTerminal NON_TTY_ERROR
  writeStderr (renderPlan plan)
  if ← confirmInteractive then applyCleanPlan serde plan else warning "aborted"

/-- What is done with a plan. -/
def runPlan (args : CleanArgs) (plan : CleanPlan) : CleanCommand Unit :=
  if args.dryRun then info (renderPlan plan)
  else if plan.candidates.isEmpty && plan.skipped.isEmpty then info "nothing to clean"
  else if plan.candidates.isEmpty then info (renderPlan plan)
  else if args.yes then do
    info (renderPlan plan)
    applyCleanPlan serde plan
  else promptAndApply serde plan

def run (args : CleanArgs) : CleanCommand Unit := do
  runPlan serde args (← buildCleanPlan args.scope)

end Agentbox.Clean.Command
