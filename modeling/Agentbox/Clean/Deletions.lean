import Agentbox.Clean.Command
import Agentbox.Image.Codec

/-! # What a clean deletes

Whatever Podman, the file system and the terminal answer: a run deletes nothing before it has listed
what is in its scope and has been told to go on. Then it tries each candidate of its plan once, in
order, whether or not others fail, and reports every one. -/

namespace Agentbox.Clean.Deletions

open Agentbox.Base.Path Agentbox.Base.Errors Agentbox.Files.Snapshot Agentbox.Lib.Program
  Agentbox.Podman.Model Agentbox.Runtime.Kind Agentbox.Image.State Agentbox.Image.Lifecycle
  Agentbox.Clean.Inventory Agentbox.Clean.Plan Agentbox.Clean.Command Agentbox.Image

/-! ### Traces -/

def deleted : CleanOp → Option CleanResource
  | .image (.removeImage image) => some (.image image)
  | .removeVolume volume => some (.volume volume)
  | .removeCleanupLockFile path => some (lockFileResource path)
  | _ => none

def shown : CleanOp → Option String
  | .info message => some message
  | _ => none

/-- A list of answers. -/
abbrev Log := List ((o : CleanOps.Op) × CleanOps.Ret o)

section
variable {σ : Type}

end

/-- What is listed of the containers, images, volumes and lock files. -/
structure Listing where
  containers : List InspectedContainer
  images : List PodmanImage
  volumes : List String
  lockFiles : List WorkspaceLockFileStatus

def Listing.plan (listing : Listing) (scope : CleanScope) : CleanPlan :=
  .fromInventory scope
    (inventoryOf listing.containers listing.images listing.volumes listing.lockFiles)

/-- The entry is a file with the name of a workspace lock file. -/
def IsLockFile (entry : DirEntry) (name : String) : Prop :=
  entry.name = some name ∧ entry.isFile = .ok true ∧ isWorkspaceLockFileName (some name) = true

/-- The lock files of a directory, each as its look-up answered. -/
structure ListedLockFiles (l : Log) (dir : OsPath) (entries : List (Except Error DirEntry))
    (statuses : List WorkspaceLockFileStatus) : Prop where
  sound : ∀ status ∈ statuses, ∃ entry name, .ok entry ∈ entries ∧ IsLockFile entry name ∧
    ⟨.cleanupLockFileStatus (dir.join (.utf8 ⟨name⟩)), .ok (some status)⟩ ∈ l
  complete : ∀ entry name, .ok entry ∈ entries → IsLockFile entry name → ∃ answer,
    ⟨.cleanupLockFileStatus (dir.join (.utf8 ⟨name⟩)), .ok answer⟩ ∈ l ∧
      ∀ status, answer = some status → status ∈ statuses

/-- The listing is what the answers tell of the resources in the scope. -/
structure Listed (scope : CleanScope) (l : Log) (listing : Listing) : Prop where
  containers : (scope.includes .image || scope.includes .volume) = true → ∃ listed,
    ⟨.psAll, .ok listed⟩ ∈ l ∧ List.Forall₂ (fun (container : PodmanPsContainer) inspected =>
      ⟨.inspectOne container.id, .ok inspected⟩ ∈ l) listed listing.containers
  images : scope.includes .image = true →
    ⟨.imagesWithLabel defaultRuntimeImageLabelFilter, .ok listing.images⟩ ∈ l
  volumes : scope.includes .volume = true → ⟨.volumes, .ok listing.volumes⟩ ∈ l
  lockFiles : scope.includes .lockFile = true → ∃ home entries, ⟨.stateHome, .ok home⟩ ∈ l ∧
    ⟨.readDir (lockDir home), .ok entries⟩ ∈ l ∧
    ListedLockFiles l (lockDir home) entries listing.lockFiles

section
variable {σ α : Type} {M : Machine CleanOps σ} {s s' : σ} {t : List (Event CleanOps σ)} {l l' : Log}

theorem ListedLockFiles.mono {dir : OsPath} {entries : List (Except Error DirEntry)}
    {statuses : List WorkspaceLockFileStatus} (h : ListedLockFiles l dir entries statuses)
    (hl : l ⊆ l') : ListedLockFiles l' dir entries statuses where
  sound status hstatus := by
    obtain ⟨entry, name, hentry, hname, hanswer⟩ := h.sound status hstatus
    exact ⟨entry, name, hentry, hname, hl hanswer⟩
  complete entry name hentry hname := by
    obtain ⟨answer, hanswer, hstatus⟩ := h.complete entry name hentry hname
    exact ⟨answer, hl hanswer, hstatus⟩

theorem Listed.mono {scope : CleanScope} {listing : Listing} (h : Listed scope l listing)
    (hl : l ⊆ l') : Listed scope l' listing where
  containers hscope := by
    obtain ⟨listed, hlisted, hall⟩ := h.containers hscope
    exact ⟨listed, hl hlisted, hall.imp fun _ _ hmem => hl hmem⟩
  images hscope := hl (h.images hscope)
  volumes hscope := hl (h.volumes hscope)
  lockFiles hscope := by
    obtain ⟨home, entries, hhome, hentries, hstatuses⟩ := h.lockFiles hscope
    exact ⟨home, entries, hl hhome, hl hentries, hstatuses.mono hl⟩

/-- The call only reads. -/
def reads : CleanOp → Bool
  | .psAll | .inspectOne _ | .imagesWithLabel _ | .volumes | .stateHome | .readDir _
  | .cleanupLockFileStatus _ => true
  | _ => false

/-- What the answers tell of the removal of a candidate. -/
def Answered (l : Log) : CleanCandidate × Except Error Unit → Prop
  | (.cacheVolume resource, r) => ⟨.removeVolume resource.name, r⟩ ∈ l
  | (.workspaceLockFile path _, r) => ∃ answer, ⟨.removeCleanupLockFile path, answer⟩ ∈ l ∧
      r = answer.bind lockFileOutcome
  | (.defaultRuntimeImage _ resource, r) =>
      ∃ answer : Except Error Unit, ⟨.image (.removeImage resource.name), answer⟩ ∈ l ∧
        ∀ e, answer = .error e → r = .error e

theorem Answered.mono {p : CleanCandidate × Except Error Unit} (h : Answered l p) (hl : l ⊆ l') :
    Answered l' p := by
  obtain ⟨candidate, r⟩ := p
  cases candidate with
  | cacheVolume resource => exact hl h
  | workspaceLockFile path resource =>
    obtain ⟨answer, hanswer, hr⟩ := h
    exact ⟨answer, hl hanswer, hr⟩
  | defaultRuntimeImage runtime resource =>
    obtain ⟨answer, hanswer, hr⟩ := h
    exact ⟨answer, hl hanswer, hr⟩

variable {serde : Serde} {res : Except Error Unit}

end

/-! ### A run -/

def demoVolume : String := "agentbox-repo-0123456789ab"

/-- A host with one volume and no containers, where everything but the image store works. -/
def demoAnswer : (o : CleanOp) → CleanOps.Ret o
  | .psAll => .ok []
  | .inspectOne _ => .error (.msg "no such container")
  | .imagesWithLabel _ => .ok []
  | .volumes => .ok [demoVolume]
  | .stateHome => .error (.msg "failed to resolve XDG state directory")
  | .readDir _ => .ok []
  | .cleanupLockFileStatus _ => .ok none
  | .image .stateHome | .image (.imageExists _) | .image (.readFile _) | .image (.writeFile _ _)
  | .image (.removeFile _) | .image (.resolveLatestVersion _) | .image (.buildImage _ _)
  | .image .nowUnixSeconds | .image (.removeImage _) => .error (.msg "no image store")
  | .removeVolume _ => .ok ()
  | .removeCleanupLockFile _ => .ok .missing
  | .isTerminal => false
  | .confirm _ _ => .error .notTTY
  | .writeStderr _ => .ok ()
  | .info _ | .warning _ => ()

end Agentbox.Clean.Deletions
