import Agentbox.Clean.Inventory

/-! # The plan of a clean

`commands/clean/plan.rs` and `usage.rs`: which of the considered resources are deleted and which are
skipped. Every considered resource gets one verdict, and the plan is the list of the verdicts. -/

namespace Agentbox.Clean.Plan

open Agentbox.Files.Snapshot Agentbox.Metadata.Labels Agentbox.Runtime.Kind Agentbox.Runtime.Spec
  Agentbox.Clean.Inventory

/-! ### Usage -/

/-- `ResourceUsage`: the first user of each resource. -/
structure ResourceUsage where
  users : List (CleanResource × String) := []

namespace ResourceUsage

def user (usage : ResourceUsage) (resource : CleanResource) : Option String :=
  usage.users.lookup resource

def markUsed (usage : ResourceUsage) (resource : CleanResource) (containerId : String) :
    ResourceUsage :=
  match usage.user resource with
  | some _ => usage
  | none => ⟨usage.users ++ [(resource, containerId)]⟩

def markMounts (containerId : String) (usage : ResourceUsage) (mounts : List NamedMount) :
    ResourceUsage :=
  mounts.foldl (fun usage mount =>
    match mount.namedVolumeName with
    | some volume => usage.markUsed (.volume volume) containerId
    | none => usage) usage

def fromContainers (containers : List InspectedContainer) : ResourceUsage :=
  containers.foldl (fun usage container => markMounts container.id
    (usage.markUsed (.image container.imageName) container.id) container.mounts) {}

end ResourceUsage

/-! ### The plan -/

inductive CleanCandidate
  | defaultRuntimeImage (runtime : RuntimeKind) (resource : CleanResource)
  | cacheVolume (resource : CleanResource)
  | workspaceLockFile (path : OsPath) (resource : CleanResource)

def CleanCandidate.resource : CleanCandidate → CleanResource
  | defaultRuntimeImage _ resource => resource
  | cacheVolume resource => resource
  | workspaceLockFile _ resource => resource

structure SkippedResource where
  resource : CleanResource
  reason : String

structure CleanPlan where
  candidates : List CleanCandidate := []
  skipped : List SkippedResource := []

namespace CleanPlan

def skip (plan : CleanPlan) (resource : CleanResource) (reason : String) : CleanPlan :=
  { plan with skipped := plan.skipped ++ [⟨resource, reason⟩] }

def add (plan : CleanPlan) (candidate : CleanCandidate) : CleanPlan :=
  { plan with candidates := plan.candidates ++ [candidate] }

end CleanPlan

def addDefaultRuntimeImageCandidate (runtime : RuntimeKind) (image : String)
    (usage : ResourceUsage) (plan : CleanPlan) : CleanPlan :=
  let resource : CleanResource := .image image
  match usage.user resource with
  | some containerId => plan.skip resource ("used by container `" ++ containerId ++ "`")
  | none =>
    if resource.name = defaultImage runtime then plan.skip resource "current default image"
    else plan.add (.defaultRuntimeImage runtime resource)

/-- The loop over the images, with the references that it has seen. -/
def addDefaultRuntimeImageCandidates (usage : ResourceUsage) :
    List DefaultRuntimeImageCandidate → List String → CleanPlan → CleanPlan
  | [], _, plan => plan
  | candidate :: candidates, seen, plan =>
    if seen.contains candidate.image then
      addDefaultRuntimeImageCandidates usage candidates seen plan
    else addDefaultRuntimeImageCandidates usage candidates (candidate.image :: seen)
      (addDefaultRuntimeImageCandidate candidate.runtime candidate.image usage plan)

def addCandidateOrSkip (resource : CleanResource) (usage : ResourceUsage) (usedAction : String)
    (candidate : CleanResource → CleanCandidate) (plan : CleanPlan) : CleanPlan :=
  match usage.user resource with
  | some containerId =>
    plan.skip resource (usedAction ++ " by container `" ++ containerId ++ "`")
  | none => plan.add (candidate resource)

def addCacheVolumeCandidates (volumes : List String) (usage : ResourceUsage) (plan : CleanPlan) :
    CleanPlan :=
  volumes.foldl (fun plan volume =>
    if isAgentboxWorkspaceResourceName volume then
      addCandidateOrSkip (.volume volume) usage "mounted" .cacheVolume plan
    else plan) plan

def addLockFileCandidates (lockFiles : List WorkspaceLockFileStatus) (plan : CleanPlan) :
    CleanPlan :=
  lockFiles.foldl (fun plan status =>
    match status with
    | .available path => plan.add (.workspaceLockFile path (lockFileResource path))
    | .locked path => plan.skip (lockFileResource path) "locked by another agentbox process") plan

def CleanPlan.fromInventory (scope : CleanScope) (inventory : CleanInventory) : CleanPlan :=
  let usage := ResourceUsage.fromContainers inventory.containers
  let plan : CleanPlan := {}
  let plan := if scope.includes .image then
      addDefaultRuntimeImageCandidates usage inventory.defaultRuntimeImages [] plan
    else plan
  let plan := if scope.includes .volume then
      addCacheVolumeCandidates inventory.volumes usage plan
    else plan
  if scope.includes .lockFile then addLockFileCandidates inventory.lockFiles plan else plan

/-! ### Who uses a resource -/

/-- A container uses the image that it names and the named volumes that it mounts. -/
def IsUsedBy (container : InspectedContainer) (resource : CleanResource) : Prop :=
  resource = .image container.imageName ∨
    ∃ mount ∈ container.mounts, ∃ volume, mount.namedVolumeName = some volume ∧
      resource = .volume volume

def IsUsed (containers : List InspectedContainer) (resource : CleanResource) : Prop :=
  ∃ container ∈ containers, IsUsedBy container resource

namespace ResourceUsage

variable {usage : ResourceUsage} {resource : CleanResource} {containerId : String}

theorem isSome_user_markUsed (marked : CleanResource) :
    ((usage.markUsed marked containerId).user resource).isSome = true ↔
      (usage.user resource).isSome = true ∨ resource = marked := by
  unfold markUsed
  rcases hmarked : usage.user marked with _ | first
  · simp only [user, List.lookup_append, Option.isSome_or, Bool.or_eq_true]
    refine or_congr Iff.rfl ?_
    by_cases h : resource = marked
    · simp [h]
    · simp [List.lookup_cons, h, beq_eq_false_iff_ne.2 h]
  · refine ⟨.inl, ?_⟩
    rintro (h | rfl)
    · exact h
    · rw [hmarked]
      rfl

theorem isSome_user_markMounts : ∀ {mounts : List NamedMount} {usage : ResourceUsage},
    ((markMounts containerId usage mounts).user resource).isSome = true ↔
      (usage.user resource).isSome = true ∨
        ∃ mount ∈ mounts, ∃ volume, mount.namedVolumeName = some volume ∧
          resource = .volume volume
  | [], usage => by simp [markMounts]
  | mount :: mounts, usage => by
    have hstep : markMounts containerId usage (mount :: mounts) =
        markMounts containerId (match mount.namedVolumeName with
          | some volume => usage.markUsed (.volume volume) containerId
          | none => usage) mounts := rfl
    rw [hstep, isSome_user_markMounts]
    rcases hname : mount.namedVolumeName with _ | volume
    · simp [hname]
    · simp only [isSome_user_markUsed, List.exists_mem_cons_iff, hname, Option.some.injEq,
        exists_eq_left', or_assoc]

/-- A resource has a user in the index exactly when a container uses it. -/
theorem isSome_user_fromContainers (containers : List InspectedContainer) :
    ((fromContainers containers).user resource).isSome = true ↔ IsUsed containers resource := by
  have hfold : ∀ (l : List InspectedContainer) (usage : ResourceUsage),
      ((l.foldl (fun usage container => markMounts container.id
        (usage.markUsed (.image container.imageName) container.id) container.mounts)
          usage).user resource).isSome = true ↔
        (usage.user resource).isSome = true ∨ IsUsed l resource := by
    intro l
    induction l with
    | nil => simp [IsUsed]
    | cons container l ih =>
      intro usage
      rw [List.foldl_cons, ih, isSome_user_markMounts, isSome_user_markUsed, IsUsed, IsUsed,
        List.exists_mem_cons_iff, IsUsedBy]
      simp only [or_assoc]
  rw [fromContainers, hfold]
  simp [user]

theorem user_eq_none {containers : List InspectedContainer} :
    (fromContainers containers).user resource = none ↔ ¬ IsUsed containers resource := by
  rw [← isSome_user_fromContainers, Option.not_isSome_iff_eq_none]

end ResourceUsage

/-! ### Verdicts -/

inductive Verdict
  | delete (candidate : CleanCandidate)
  | skip (skipped : SkippedResource)

namespace Verdict

def resource : Verdict → CleanResource
  | delete candidate => candidate.resource
  | skip skipped => skipped.resource

def deleted : Verdict → Option CleanCandidate
  | delete candidate => some candidate
  | skip _ => none

def skipped : Verdict → Option SkippedResource
  | delete _ => none
  | skip skipped => some skipped

end Verdict

def imageVerdict (usage : ResourceUsage) (candidate : DefaultRuntimeImageCandidate) : Verdict :=
  match usage.user (.image candidate.image) with
  | some containerId =>
    .skip ⟨.image candidate.image, "used by container `" ++ containerId ++ "`"⟩
  | none =>
    if candidate.image = defaultImage candidate.runtime then
      .skip ⟨.image candidate.image, "current default image"⟩
    else .delete (.defaultRuntimeImage candidate.runtime (.image candidate.image))

def volumeVerdict (usage : ResourceUsage) (volume : String) : Verdict :=
  match usage.user (.volume volume) with
  | some containerId =>
    .skip ⟨.volume volume, "mounted" ++ " by container `" ++ containerId ++ "`"⟩
  | none => .delete (.cacheVolume (.volume volume))

def lockFileVerdict : WorkspaceLockFileStatus → Verdict
  | .available path => .delete (.workspaceLockFile path (lockFileResource path))
  | .locked path => .skip ⟨lockFileResource path, "locked by another agentbox process"⟩

/-- The candidates whose image no earlier one has. -/
def firstSeen : List DefaultRuntimeImageCandidate → List String → List DefaultRuntimeImageCandidate
  | [], _ => []
  | candidate :: candidates, seen =>
    if seen.contains candidate.image then firstSeen candidates seen
    else candidate :: firstSeen candidates (candidate.image :: seen)

def verdicts (scope : CleanScope) (inventory : CleanInventory) : List Verdict :=
  let usage := ResourceUsage.fromContainers inventory.containers
  (if scope.includes .image then
    (firstSeen inventory.defaultRuntimeImages []).map (imageVerdict usage) else []) ++
  (if scope.includes .volume then
    (inventory.volumes.filter isAgentboxWorkspaceResourceName).map (volumeVerdict usage) else []) ++
  (if scope.includes .lockFile then inventory.lockFiles.map lockFileVerdict else [])

namespace CleanPlan

def extend (plan : CleanPlan) (vs : List Verdict) : CleanPlan where
  candidates := plan.candidates ++ vs.filterMap Verdict.deleted
  skipped := plan.skipped ++ vs.filterMap Verdict.skipped

@[simp] theorem extend_nil (plan : CleanPlan) : plan.extend [] = plan := by
  simp [extend]

theorem extend_append (plan : CleanPlan) (vs vs' : List Verdict) :
    plan.extend (vs ++ vs') = (plan.extend vs).extend vs' := by
  simp [extend]

theorem extend_cons (plan : CleanPlan) (v : Verdict) (vs : List Verdict) :
    plan.extend (v :: vs) = (plan.extend [v]).extend vs := extend_append plan [v] vs

theorem add_eq (plan : CleanPlan) (candidate : CleanCandidate) :
    plan.add candidate = plan.extend [.delete candidate] := by
  simp [extend, add, Verdict.deleted, Verdict.skipped]

theorem skip_eq (plan : CleanPlan) (resource : CleanResource) (reason : String) :
    plan.skip resource reason = plan.extend [.skip ⟨resource, reason⟩] := by
  simp [extend, skip, Verdict.deleted, Verdict.skipped]

end CleanPlan

open CleanPlan

theorem addDefaultRuntimeImageCandidate_eq (usage : ResourceUsage) (plan : CleanPlan)
    (candidate : DefaultRuntimeImageCandidate) :
    addDefaultRuntimeImageCandidate candidate.runtime candidate.image usage plan =
      plan.extend [imageVerdict usage candidate] := by
  have hname : (CleanResource.image candidate.image).name = candidate.image := rfl
  unfold addDefaultRuntimeImageCandidate imageVerdict
  rcases huser : usage.user (.image candidate.image) with _ | containerId
  · simp only [huser, hname]
    split_ifs
    · exact skip_eq ..
    · exact add_eq ..
  · simp only [huser]
    exact skip_eq ..

theorem addDefaultRuntimeImageCandidates_eq (usage : ResourceUsage) :
    ∀ (candidates : List DefaultRuntimeImageCandidate) (seen : List String) (plan : CleanPlan),
      addDefaultRuntimeImageCandidates usage candidates seen plan =
        plan.extend ((firstSeen candidates seen).map (imageVerdict usage))
  | [], _, plan => plan.extend_nil.symm
  | candidate :: candidates, seen, plan => by
    unfold addDefaultRuntimeImageCandidates firstSeen
    split_ifs
    · rw [addDefaultRuntimeImageCandidates_eq usage candidates]
    · rw [addDefaultRuntimeImageCandidates_eq usage candidates,
        addDefaultRuntimeImageCandidate_eq, List.map_cons, ← extend_cons]

theorem addCacheVolumeCandidates_eq (usage : ResourceUsage) :
    ∀ (volumes : List String) (plan : CleanPlan), addCacheVolumeCandidates volumes usage plan =
      plan.extend ((volumes.filter isAgentboxWorkspaceResourceName).map (volumeVerdict usage))
  | [], plan => plan.extend_nil.symm
  | volume :: volumes, plan => by
    have hstep : addCacheVolumeCandidates (volume :: volumes) usage plan =
        addCacheVolumeCandidates volumes usage
          (if isAgentboxWorkspaceResourceName volume then
            addCandidateOrSkip (.volume volume) usage "mounted" .cacheVolume plan else plan) := rfl
    rw [hstep, addCacheVolumeCandidates_eq usage volumes, List.filter_cons]
    split_ifs
    · have hone : addCandidateOrSkip (.volume volume) usage "mounted" .cacheVolume plan =
          plan.extend [volumeVerdict usage volume] := by
        unfold addCandidateOrSkip volumeVerdict
        rcases usage.user (.volume volume) with _ | containerId
        · exact add_eq ..
        · exact skip_eq ..
      rw [hone, List.map_cons, ← extend_cons]
    · rfl

theorem addLockFileCandidates_eq : ∀ (lockFiles : List WorkspaceLockFileStatus) (plan : CleanPlan),
    addLockFileCandidates lockFiles plan = plan.extend (lockFiles.map lockFileVerdict)
  | [], plan => plan.extend_nil.symm
  | status :: lockFiles, plan => by
    have hstep : addLockFileCandidates (status :: lockFiles) plan =
        addLockFileCandidates lockFiles (plan.extend [lockFileVerdict status]) := by
      cases status with
      | available path => exact congrArg (addLockFileCandidates lockFiles) (add_eq ..)
      | locked path => exact congrArg (addLockFileCandidates lockFiles) (skip_eq ..)
    rw [hstep, addLockFileCandidates_eq lockFiles, List.map_cons, ← extend_cons]

theorem fromInventory_eq (scope : CleanScope) (inventory : CleanInventory) :
    CleanPlan.fromInventory scope inventory = extend {} (verdicts scope inventory) := by
  unfold CleanPlan.fromInventory verdicts
  simp only [addDefaultRuntimeImageCandidates_eq, addCacheVolumeCandidates_eq,
    addLockFileCandidates_eq, extend_append]
  split_ifs <;> simp only [extend_nil]

/-! ### What a plan says -/

/-- The resource is in exactly one of the lists of the plan. -/
def CleanPlan.Decides (plan : CleanPlan) (resource : CleanResource) : Prop :=
  Xor (∃ candidate ∈ plan.candidates, candidate.resource = resource)
    (∃ skipped ∈ plan.skipped, skipped.resource = resource)

/-- Why a plan may delete a candidate: it is in the scope, agentbox owns it and nothing uses it. -/
def IsDeletable (scope : CleanScope) (containers : List InspectedContainer)
    (images : List PodmanImage) (volumes : List String)
    (lockFiles : List WorkspaceLockFileStatus) : CleanCandidate → Prop
  | .defaultRuntimeImage runtime resource => scope.includes .image = true ∧
      resource.kind = .image ∧ (∀ container ∈ containers, container.imageName ≠ resource.name) ∧
      (∀ kind, resource.name ≠ defaultImage kind) ∧
      ∃ image ∈ images, resource.name ∈ image.references ∧ ∃ hash,
        IsLabeled image.labels runtime hash ∧
          resource.name = "localhost/agentbox-" ++ runtime.asStr ++ ":ctx-" ++ hash
  | .cacheVolume resource => scope.includes .volume = true ∧ resource.kind = .volume ∧
      resource.name ∈ volumes ∧ isAgentboxWorkspaceResourceName resource.name = true ∧
      ∀ container ∈ containers, ∀ mount ∈ container.mounts,
        mount.namedVolumeName ≠ some resource.name
  | .workspaceLockFile path resource => scope.includes .lockFile = true ∧
      resource = lockFileResource path ∧ .available path ∈ lockFiles

variable {vs : List Verdict}

theorem mem_candidates {candidate : CleanCandidate} :
    candidate ∈ (extend {} vs).candidates ↔ .delete candidate ∈ vs := by
  simp only [extend, List.nil_append, List.mem_filterMap]
  constructor
  · rintro ⟨v, hv, hdeleted⟩
    cases v with
    | delete candidate' => exact Option.some.inj hdeleted ▸ hv
    | skip skipped => cases hdeleted
  · exact fun h => ⟨_, h, rfl⟩

theorem mem_skipped {skipped : SkippedResource} :
    skipped ∈ (extend {} vs).skipped ↔ .skip skipped ∈ vs := by
  simp only [extend, List.nil_append, List.mem_filterMap]
  constructor
  · rintro ⟨v, hv, hskipped⟩
    cases v with
    | delete candidate => cases hskipped
    | skip skipped' => exact Option.some.inj hskipped ▸ hv
  · exact fun h => ⟨_, h, rfl⟩

/-- A resource with a single verdict is decided. -/
theorem decides_of_unique {v : Verdict} (hv : v ∈ vs)
    (hunique : ∀ v' ∈ vs, v'.resource = v.resource → v' = v) :
    (extend {} vs).Decides v.resource := by
  cases v with
  | delete candidate =>
    refine .inl ⟨⟨candidate, mem_candidates.2 hv, rfl⟩, ?_⟩
    rintro ⟨skipped, hskipped, heq⟩
    cases hunique _ (mem_skipped.1 hskipped) heq
  | skip skipped =>
    refine .inr ⟨⟨skipped, mem_skipped.2 hv, rfl⟩, ?_⟩
    rintro ⟨candidate, hcandidate, heq⟩
    cases hunique _ (mem_candidates.1 hcandidate) heq

variable {usage : ResourceUsage}

theorem resource_imageVerdict (candidate : DefaultRuntimeImageCandidate) :
    (imageVerdict usage candidate).resource = .image candidate.image := by
  unfold imageVerdict
  split
  · rfl
  · split_ifs <;> rfl

theorem resource_volumeVerdict (volume : String) :
    (volumeVerdict usage volume).resource = .volume volume := by
  unfold volumeVerdict
  split <;> rfl

/-- The path of a lock file. -/
def lockFilePath : WorkspaceLockFileStatus → OsPath
  | .available path => path
  | .locked path => path

theorem resource_lockFileVerdict (status : WorkspaceLockFileStatus) :
    (lockFileVerdict status).resource = lockFileResource (lockFilePath status) := by
  cases status <;> rfl

theorem mem_firstSeen {candidate : DefaultRuntimeImageCandidate} :
    ∀ {candidates : List DefaultRuntimeImageCandidate} {seen : List String},
      candidate ∈ firstSeen candidates seen → candidate ∈ candidates ∧ candidate.image ∉ seen
  | [], _, h => absurd h List.not_mem_nil
  | first :: candidates, seen, h => by
    unfold firstSeen at h
    split_ifs at h with hseen
    · exact (mem_firstSeen h).imp_left (List.mem_cons_of_mem _)
    · rcases List.mem_cons.1 h with rfl | h
      · exact ⟨List.mem_cons_self, by simpa using hseen⟩
      · obtain ⟨hmem, hnot⟩ := mem_firstSeen h
        exact ⟨List.mem_cons_of_mem _ hmem, fun h' => hnot (List.mem_cons_of_mem _ h')⟩

theorem nodup_firstSeen : ∀ (candidates : List DefaultRuntimeImageCandidate) (seen : List String),
    ((firstSeen candidates seen).map DefaultRuntimeImageCandidate.image).Nodup
  | [], _ => List.nodup_nil
  | first :: candidates, seen => by
    unfold firstSeen
    split_ifs
    · exact nodup_firstSeen candidates seen
    · refine List.nodup_cons.2 ⟨fun h => ?_, nodup_firstSeen candidates _⟩
      obtain ⟨other, hother, heq⟩ := List.mem_map.1 h
      exact (mem_firstSeen hother).2 (heq ▸ List.mem_cons_self)

/-- Every image that is considered is the image of a first candidate. -/
theorem exists_firstSeen {candidate : DefaultRuntimeImageCandidate} :
    ∀ {candidates : List DefaultRuntimeImageCandidate} {seen : List String},
      candidate ∈ candidates → candidate.image ∉ seen →
        ∃ first ∈ firstSeen candidates seen, first.image = candidate.image
  | [], _, h, _ => absurd h List.not_mem_nil
  | first :: candidates, seen, h, hnot => by
    unfold firstSeen
    split_ifs with hseen
    · rcases List.mem_cons.1 h with rfl | h
      · exact absurd (by simpa using hseen) hnot
      · exact exists_firstSeen h hnot
    · by_cases heq : first.image = candidate.image
      · exact ⟨first, List.mem_cons_self, heq⟩
      · have hmem : candidate ∈ candidates := by
          rcases List.mem_cons.1 h with rfl | h
          · exact absurd rfl heq
          · exact h
        obtain ⟨other, hother, hsame⟩ := @exists_firstSeen candidate candidates (first.image :: seen) hmem
          (List.not_mem_cons_of_ne_of_not_mem (Ne.symm heq) hnot)
        exact ⟨other, List.mem_cons_of_mem _ hother, hsame⟩

theorem mem_verdicts {scope : CleanScope} {inventory : CleanInventory} {v : Verdict} :
    v ∈ verdicts scope inventory ↔
      (scope.includes .image = true ∧ ∃ candidate ∈ firstSeen inventory.defaultRuntimeImages [],
        imageVerdict (.fromContainers inventory.containers) candidate = v) ∨
      (scope.includes .volume = true ∧ ∃ volume ∈ inventory.volumes,
        isAgentboxWorkspaceResourceName volume = true ∧
          volumeVerdict (.fromContainers inventory.containers) volume = v) ∨
      (scope.includes .lockFile = true ∧ ∃ status ∈ inventory.lockFiles,
        lockFileVerdict status = v) := by
  unfold verdicts
  rw [List.mem_append, List.mem_append, or_assoc]
  refine or_congr ?_ (or_congr ?_ ?_)
  · by_cases h : scope.includes .image = true <;> simp [h]
  · by_cases h : scope.includes .volume = true <;> simp [h, and_assoc]
  · by_cases h : scope.includes .lockFile = true <;> simp [h]

/-- The default images of the two runtimes have different stems. -/
theorem defaultImage_ne {runtime kind : RuntimeKind} (hash : String) (h : runtime ≠ kind) :
    defaultImageStem runtime ++ hash ≠ defaultImage kind := by
  have hchar : ∀ runtime : RuntimeKind, (defaultImageStem runtime).toList[19]? =
      some (if runtime = .opencode then 'o' else 'c') := by
    intro runtime
    cases runtime <;> decide
  have hkind : defaultImage kind = defaultImageStem kind ++ DEFAULT_IMAGE_CONTEXT_HASH := rfl
  intro heq
  rw [hkind] at heq
  have hget := congrArg (fun s : String => s.toList[19]?) heq
  have hleft : ∀ (runtime : RuntimeKind) (rest : String),
      (defaultImageStem runtime ++ rest).toList[19]? = (defaultImageStem runtime).toList[19]? := by
    intro runtime rest
    rw [String.toList_append, List.getElem?_append_left]
    exact (List.getElem?_eq_some_iff.1 (hchar runtime)).1
  simp only [hleft, hchar] at hget
  revert hget h
  cases runtime <;> cases kind <;> decide

variable {scope : CleanScope} {containers : List InspectedContainer} {images : List PodmanImage}
  {volumes : List String} {lockFiles : List WorkspaceLockFileStatus}

/-- The inventory of the resources that Podman and the lock directory list. -/
def inventoryOf (containers : List InspectedContainer) (images : List PodmanImage)
    (volumes : List String) (lockFiles : List WorkspaceLockFileStatus) : CleanInventory :=
  ⟨containers, images.flatMap labeledDefaultRuntimeImageCandidates, volumes, lockFiles⟩

theorem isDeletable_of_mem {candidate : CleanCandidate}
    (h : .delete candidate ∈ verdicts scope (inventoryOf containers images volumes lockFiles)) :
    IsDeletable scope containers images volumes lockFiles candidate := by
  obtain ⟨hscope, c, hc, hv⟩ | ⟨hscope, volume, hvolume, hname, hv⟩ | ⟨hscope, status, hstatus, hv⟩ :=
    mem_verdicts.1 h
  · obtain ⟨image, himage, hlabeled⟩ := List.mem_flatMap.1 (mem_firstSeen hc).1
    obtain ⟨href, hash, hlabels, heq⟩ := mem_labeledCandidates hlabeled
    unfold imageVerdict at hv
    split at hv
    · cases hv
    · next huser =>
      split_ifs at hv with hdefault
      cases hv
      have hunused := ResourceUsage.user_eq_none.1 huser
      refine ⟨hscope, rfl, fun container hcontainer hname => hunused ⟨container, hcontainer, .inl ?_⟩,
        fun kind hkind => ?_, image, himage, href, hash, hlabels, heq⟩
      · exact congrArg CleanResource.image hname.symm
      · by_cases hruntime : c.runtime = kind
        · exact hdefault (hruntime ▸ hkind)
        · exact defaultImage_ne hash hruntime (heq ▸ hkind)
  · unfold volumeVerdict at hv
    split at hv
    · cases hv
    · next huser =>
      cases hv
      have hunused := ResourceUsage.user_eq_none.1 huser
      exact ⟨hscope, rfl, hvolume, hname, fun container hcontainer mount hmount hvolume =>
        hunused ⟨container, hcontainer, .inr ⟨mount, hmount, _, hvolume, rfl⟩⟩⟩
  · cases status with
    | available path =>
      cases hv
      exact ⟨hscope, rfl, hstatus⟩
    | locked path => cases hv

theorem includes_of_mem {v : Verdict}
    (h : v ∈ verdicts scope (inventoryOf containers images volumes lockFiles)) :
    scope.includes v.resource.kind = true := by
  obtain ⟨hscope, c, -, rfl⟩ | ⟨hscope, volume, -, -, rfl⟩ | ⟨hscope, status, -, rfl⟩ :=
    mem_verdicts.1 h
  · rw [resource_imageVerdict]
    exact hscope
  · rw [resource_volumeVerdict]
    exact hscope
  · rw [resource_lockFileVerdict]
    exact hscope

/-- An image that is considered has one verdict. -/
theorem decides_image (hscope : scope.includes .image = true) {image : PodmanImage}
    (himage : image ∈ images) {candidate : DefaultRuntimeImageCandidate}
    (hcandidate : candidate ∈ labeledDefaultRuntimeImageCandidates image) :
    (CleanPlan.fromInventory scope (inventoryOf containers images volumes lockFiles)).Decides
      (.image candidate.image) := by
  obtain ⟨first, hfirst, heq⟩ := @exists_firstSeen candidate _ [] (List.mem_flatMap.2
    ⟨image, himage, hcandidate⟩) List.not_mem_nil
  have hv : imageVerdict (.fromContainers containers) first ∈
      verdicts scope (inventoryOf containers images volumes lockFiles) :=
    mem_verdicts.2 (.inl ⟨hscope, first, hfirst, rfl⟩)
  have hresource : (imageVerdict (.fromContainers containers) first).resource =
      .image candidate.image := by
    rw [resource_imageVerdict, heq]
  rw [fromInventory_eq, ← hresource]
  refine decides_of_unique hv fun v' hv' hsame => ?_
  rw [hresource] at hsame
  obtain ⟨-, other, hother, rfl⟩ | ⟨-, volume, -, -, rfl⟩ | ⟨-, status, -, rfl⟩ :=
    mem_verdicts.1 hv'
  · rw [resource_imageVerdict] at hsame
    have hname : other.image = first.image := (congrArg CleanResource.name hsame).trans heq.symm
    rw [List.inj_on_of_nodup_map (nodup_firstSeen _ _) hother hfirst hname]
    rfl
  · rw [resource_volumeVerdict] at hsame
    cases hsame
  · rw [resource_lockFileVerdict] at hsame
    cases hsame

/-- A volume of the right shape has one verdict. -/
theorem decides_volume (hscope : scope.includes .volume = true) {volume : String}
    (hvolume : volume ∈ volumes) (hname : isAgentboxWorkspaceResourceName volume = true) :
    (CleanPlan.fromInventory scope (inventoryOf containers images volumes lockFiles)).Decides
      (.volume volume) := by
  have hv : volumeVerdict (.fromContainers containers) volume ∈
      verdicts scope (inventoryOf containers images volumes lockFiles) :=
    mem_verdicts.2 (.inr (.inl ⟨hscope, volume, hvolume, hname, rfl⟩))
  have hdecides := decides_of_unique hv ?_
  · rwa [resource_volumeVerdict, ← fromInventory_eq] at hdecides
  intro v' hv' hsame
  rw [resource_volumeVerdict] at hsame
  obtain ⟨-, other, -, rfl⟩ | ⟨-, other, -, -, rfl⟩ | ⟨-, status, -, rfl⟩ := mem_verdicts.1 hv'
  · rw [resource_imageVerdict] at hsame
    cases hsame
  · rw [resource_volumeVerdict] at hsame
    rw [show other = volume from congrArg CleanResource.name hsame]
    rfl
  · rw [resource_lockFileVerdict] at hsame
    cases hsame

/-- The verdicts on lock files, in the order of the inventory. -/
theorem filter_verdicts_lockFile (hscope : scope.includes .lockFile = true) :
    (verdicts scope (inventoryOf containers images volumes lockFiles)).filter
      (fun v => v.resource.kind = .lockFile) = lockFiles.map lockFileVerdict := by
  unfold verdicts
  have himages : ∀ l : List DefaultRuntimeImageCandidate,
      (l.map (imageVerdict (.fromContainers containers))).filter
        (fun v => v.resource.kind = .lockFile) = [] := by
    intro l
    rw [List.filter_eq_nil_iff]
    intro v hv
    obtain ⟨c, -, rfl⟩ := List.mem_map.1 hv
    simp [resource_imageVerdict, CleanResource.image]
  have hvolumes : ∀ l : List String,
      (l.map (volumeVerdict (.fromContainers containers))).filter
        (fun v => v.resource.kind = .lockFile) = [] := by
    intro l
    rw [List.filter_eq_nil_iff]
    intro v hv
    obtain ⟨c, -, rfl⟩ := List.mem_map.1 hv
    simp [resource_volumeVerdict, CleanResource.volume]
  have hlocks : (lockFiles.map lockFileVerdict).filter (fun v => v.resource.kind = .lockFile) =
      lockFiles.map lockFileVerdict := by
    rw [List.filter_eq_self]
    intro v hv
    obtain ⟨status, -, rfl⟩ := List.mem_map.1 hv
    simp [resource_lockFileVerdict, lockFileResource, CleanResource.lockFile]
  rw [List.filter_append, List.filter_append, if_pos hscope]
  refine Eq.trans ?_ hlocks
  rw [show inventoryOf containers images volumes lockFiles = ⟨containers, _, volumes, lockFiles⟩
    from rfl]
  split_ifs <;> simp only [himages, hvolumes, List.filter_nil, List.nil_append]

/-- What happens to an available lock file, and to a locked one. -/
def availableCandidate : WorkspaceLockFileStatus → Option CleanCandidate
  | .available path => some (.workspaceLockFile path (lockFileResource path))
  | .locked _ => none

def lockedResource : WorkspaceLockFileStatus → Option SkippedResource
  | .available _ => none
  | .locked path => some ⟨lockFileResource path, "locked by another agentbox process"⟩

/-- Keeping the lock files of what was deleted, or skipped, is keeping those of the verdicts. -/
theorem filter_filterMap {β : Type} {part : Verdict → Option β} {resource : β → CleanResource}
    (h : ∀ v b, part v = some b → resource b = v.resource) (vs : List Verdict) :
    (vs.filterMap part).filter (fun b => (resource b).kind = .lockFile) =
      (vs.filter fun v => v.resource.kind = .lockFile).filterMap part := by
  rw [List.filter_filterMap, List.filterMap_filter]
  refine List.filterMap_congr fun v _ => ?_
  rcases hpart : part v with _ | b
  · simp
  · simp [Option.filter_some, h v b hpart]

theorem lockFiles_of_plan (hscope : scope.includes .lockFile = true) :
    ((CleanPlan.fromInventory scope
        (inventoryOf containers images volumes lockFiles)).candidates.filter
          (fun candidate => candidate.resource.kind = .lockFile) =
            lockFiles.filterMap availableCandidate) ∧
    (CleanPlan.fromInventory scope
        (inventoryOf containers images volumes lockFiles)).skipped.filter
          (fun skipped => skipped.resource.kind = .lockFile) =
            lockFiles.filterMap lockedResource := by
  rw [fromInventory_eq]
  constructor
  · have hdeleted : ∀ v b, Verdict.deleted v = some b → b.resource = v.resource := by
      rintro (candidate | skipped) b hb
      · cases hb
        rfl
      · cases hb
    refine (filter_filterMap hdeleted _).trans ?_
    rw [filter_verdicts_lockFile hscope, List.filterMap_map]
    exact List.filterMap_congr fun status _ => by cases status <;> rfl
  · have hskipped : ∀ v b, Verdict.skipped v = some b → b.resource = v.resource := by
      rintro (candidate | skipped) b hb
      · cases hb
      · cases hb
        rfl
    refine (filter_filterMap hskipped _).trans ?_
    rw [filter_verdicts_lockFile hscope, List.filterMap_map]
    exact List.filterMap_congr fun status _ => by cases status <;> rfl

/-- A lock file that is listed under one status has one verdict. -/
theorem decides_lockFile (hscope : scope.includes .lockFile = true)
    {status : WorkspaceLockFileStatus} (hstatus : status ∈ lockFiles)
    (hone : ∀ other ∈ lockFiles,
      (lockFilePath other).display = (lockFilePath status).display → other = status) :
    (CleanPlan.fromInventory scope (inventoryOf containers images volumes lockFiles)).Decides
      (lockFileResource (lockFilePath status)) := by
  have hv : lockFileVerdict status ∈
      verdicts scope (inventoryOf containers images volumes lockFiles) :=
    mem_verdicts.2 (.inr (.inr ⟨hscope, status, hstatus, rfl⟩))
  have hdecides := decides_of_unique hv ?_
  · rwa [resource_lockFileVerdict, ← fromInventory_eq] at hdecides
  intro v' hv' hsame
  rw [resource_lockFileVerdict] at hsame
  obtain ⟨-, other, -, rfl⟩ | ⟨-, volume, -, -, rfl⟩ | ⟨-, other, hother, rfl⟩ := mem_verdicts.1 hv'
  · rw [resource_imageVerdict] at hsame
    cases hsame
  · rw [resource_volumeVerdict] at hsame
    cases hsame
  · rw [resource_lockFileVerdict] at hsame
    rw [hone other hother (congrArg CleanResource.name hsame)]

/-- A mount that is no volume names none, whatever its source. -/
theorem namedVolumeName_of_not_volume {mount : NamedMount} (h : mount.kind ≠ .volume) :
    mount.namedVolumeName = none := by
  have hvolume : mount.kind.isVolume = false := by
    rcases hkind : mount.kind with _ | _ | value
    · rfl
    · exact absurd hkind h
    · rfl
  rw [NamedMount.namedVolumeName, hvolume]
  rfl

/-- A volume is skipped for a container that mounts it. -/
theorem isMounted_of_skipped {skipped : SkippedResource} (hkind : skipped.resource.kind = .volume)
    (h : .skip skipped ∈ verdicts scope (inventoryOf containers images volumes lockFiles)) :
    ∃ container ∈ containers, ∃ mount ∈ container.mounts,
      mount.namedVolumeName = some skipped.resource.name := by
  obtain ⟨-, c, -, hv⟩ | ⟨-, volume, -, -, hv⟩ | ⟨-, status, -, hv⟩ := mem_verdicts.1 h
  · have hresource := @resource_imageVerdict (.fromContainers containers) c
    rw [show imageVerdict (.fromContainers containers) c = .skip skipped from hv] at hresource
    rw [show skipped.resource = .image c.image from hresource] at hkind
    cases hkind
  · unfold volumeVerdict at hv
    split at hv
    · next containerId huser =>
      cases hv
      obtain ⟨container, hcontainer, himage | ⟨mount, hmount, name, hname, hsame⟩⟩ :=
        (ResourceUsage.isSome_user_fromContainers containers).1 (Option.isSome_of_eq_some huser)
      · cases himage
      · exact ⟨container, hcontainer, mount, hmount, hname.trans
          (congrArg some (congrArg CleanResource.name hsame).symm)⟩
    · cases hv
  · have hresource := resource_lockFileVerdict status
    rw [hv] at hresource
    rw [show skipped.resource = lockFileResource _ from hresource] at hkind
    cases hkind

/-- **A clean deletes nothing that is in use or not owned.** Of what it looks at, each resource of a
kind in the scope is either deleted or skipped. -/
theorem fromInventory_safe (scope : CleanScope) (containers : List InspectedContainer)
    (images : List PodmanImage) (volumes : List String)
    (lockFiles : List WorkspaceLockFileStatus) :
    let plan := CleanPlan.fromInventory scope (inventoryOf containers images volumes lockFiles)
    -- what is deleted
    (∀ candidate ∈ plan.candidates,
      IsDeletable scope containers images volumes lockFiles candidate) ∧
    -- what is skipped
    (∀ skipped ∈ plan.skipped, scope.includes skipped.resource.kind = true ∧
      (skipped.resource.kind = .volume → ∃ container ∈ containers, ∃ mount ∈ container.mounts,
        mount.kind = .volume ∧ mount.namedVolumeName = some skipped.resource.name)) ∧
    -- images
    (scope.includes .image = true → ∀ image ∈ images,
      ∀ candidate ∈ labeledDefaultRuntimeImageCandidates image,
        plan.Decides (.image candidate.image)) ∧
    -- volumes
    (scope.includes .volume = true → ∀ volume ∈ volumes,
      isAgentboxWorkspaceResourceName volume = true → plan.Decides (.volume volume)) ∧
    -- lock files
    (scope.includes .lockFile = true →
      plan.candidates.filter (fun candidate => candidate.resource.kind = .lockFile) =
        lockFiles.filterMap availableCandidate ∧
      plan.skipped.filter (fun skipped => skipped.resource.kind = .lockFile) =
        lockFiles.filterMap lockedResource ∧
      ∀ status ∈ lockFiles, (∀ other ∈ lockFiles,
        (lockFilePath other).display = (lockFilePath status).display → other = status) →
          plan.Decides (lockFileResource (lockFilePath status))) := by
  refine ⟨fun candidate h => ?_, fun skipped h => ⟨?_, fun hkind => ?_⟩,
    fun hscope image himage candidate hcandidate => decides_image hscope himage hcandidate,
    fun hscope volume hvolume hname => decides_volume hscope hvolume hname,
    fun hscope => ⟨(lockFiles_of_plan hscope).1, (lockFiles_of_plan hscope).2,
      fun status hstatus hone => decides_lockFile hscope hstatus hone⟩⟩
  · rw [fromInventory_eq] at h
    exact isDeletable_of_mem (mem_candidates.1 h)
  · rw [fromInventory_eq] at h
    exact includes_of_mem (mem_skipped.1 h)
  · rw [fromInventory_eq] at h
    obtain ⟨container, hcontainer, mount, hmount, hname⟩ :=
      isMounted_of_skipped hkind (mem_skipped.1 h)
    refine ⟨container, hcontainer, mount, hmount, ?_, hname⟩
    by_contra hnot
    rw [namedVolumeName_of_not_volume hnot] at hname
    cases hname

end Agentbox.Clean.Plan
