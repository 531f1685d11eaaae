import Agentbox.Session.Conflict
import Agentbox.Session.Status

/-! # Whose conflict it is

What `classify_named_container_conflict` says about a container of a known root: that the name is
taken by another workspace, or that the container of this workspace has failed. -/

namespace Agentbox.Session.Attribution

open Agentbox.Base.Path Agentbox.Base.Errors Agentbox.Metadata.Labels Agentbox.Podman.Model
  Agentbox.Workspace.Identity Agentbox.Session.Record Agentbox.Session.Inspected
  Agentbox.Session.Status Agentbox.Session.Conflict

/-- The error reports that a container of the root is in the way. -/
def IsConflictWith (workspace : WorkspaceIdentity) (root : Utf8Path) (e : Error) : Prop :=
  ∃ c : ManagedContainerConflict, c.workspace = workspace ∧ c.identity.canonicalGitRoot = root ∧
    (e = c.differentRootError ∨ e = c.hashCollisionError)

/-- The error reports that a container of the workspace has failed. -/
def IsFailureOf (workspace : WorkspaceIdentity) (e : Error) : Prop :=
  (∃ kind name failure, e = failureConflictError workspace kind name failure) ∨
    ∃ name, e = genericFailedSessionError workspace name

/-- The error for a container of the root is about the root. -/
def IsAttributed (workspace : WorkspaceIdentity) (root : Utf8Path) (e : Error) : Prop :=
  (root ≠ workspace.canonicalGitRoot → IsConflictWith workspace root e ∧ ¬ IsFailureOf workspace e) ∧
  (root = workspace.canonicalGitRoot →
    IsFailureOf workspace e ∧ ∀ other, ¬ IsConflictWith workspace other e)

/-! ### The two kinds of errors -/

def Opens (l : List Char) (e : Error) : Prop := ∃ s, e = .msg s ∧ l <+: s.toList

theorem prefix_append {l : List Char} {s : String} (t : String) (h : l <+: s.toList) :
    l <+: (s ++ t).toList := by
  rw [String.toList_append]
  exact h.trans (List.prefix_append _ _)

theorem opens_unique {l l' : List Char} {e : Error} (h : Opens l e) (h' : Opens l' e)
    (hlen : l.length = l'.length) : l = l' := by
  obtain ⟨s, rfl, hs⟩ := h
  obtain ⟨s', heq, hs'⟩ := h'
  rw [← (Error.message.inj heq)] at hs'
  exact (List.prefix_of_prefix_length_le hs hs' hlen.le).eq_of_length hlen

theorem opens_differentRootError (c : ManagedContainerConflict) :
    Opens "container".toList c.differentRootError := by
  refine ⟨_, rfl, ?_⟩
  repeat refine prefix_append _ ?_
  decide

theorem opens_hashCollisionError (c : ManagedContainerConflict) :
    Opens "managed c".toList c.hashCollisionError := by
  refine ⟨_, rfl, ?_⟩
  repeat refine prefix_append _ ?_
  decide

theorem opens_genericFailedSessionError (workspace : WorkspaceIdentity) (name : String) :
    Opens "managed s".toList (genericFailedSessionError workspace name) := by
  refine ⟨_, rfl, ?_⟩
  repeat refine prefix_append _ ?_
  decide

theorem opens_failureConflictError (workspace : WorkspaceIdentity) (kind : AgentboxContainerKind)
    (name : String) (failure : SessionFailure) :
    Opens "managed s".toList (failureConflictError workspace kind name failure) ∨
      Opens "transient".toList (failureConflictError workspace kind name failure) := by
  cases kind with
  | managed =>
    refine .inl ⟨_, rfl, ?_⟩
    repeat refine prefix_append _ ?_
    decide
  | run =>
    refine .inr ⟨_, rfl, ?_⟩
    repeat refine prefix_append _ ?_
    decide

/-- No error is of both kinds. -/
theorem not_isFailureOf {workspace : WorkspaceIdentity} {root : Utf8Path} {e : Error}
    (h : IsConflictWith workspace root e) : ¬ IsFailureOf workspace e := by
  have hconflict : Opens "container".toList e ∨ Opens "managed c".toList e := by
    obtain ⟨c, -, -, rfl | rfl⟩ := h
    · exact .inl (opens_differentRootError c)
    · exact .inr (opens_hashCollisionError c)
  rintro hfail
  have hfailure : Opens "managed s".toList e ∨ Opens "transient".toList e := by
    rcases hfail with ⟨kind, name, failure, rfl⟩ | ⟨name, rfl⟩
    · exact opens_failureConflictError workspace kind name failure
    · exact .inl (opens_genericFailedSessionError workspace name)
  rcases hconflict with hc | hc <;> rcases hfailure with hf | hf <;>
    exact absurd (opens_unique hc hf (by decide)) (by decide)

/-! ### Identified containers -/

variable {workspace : WorkspaceIdentity} {expectedName : String} {inspect : PodmanContainerInspect}
  {kind : AgentboxContainerKind} {root : Utf8Path}

theorem marker_iff {m : SessionMetadata} (hkind : m.containerKind = some kind) :
    requireAgentboxContainerMarker m = .ok () ↔
      (kind = .managed → m.label LABEL_SCHEMA = some LABEL_SCHEMA_VALUE) := by
  have hlabels := hkind
  unfold SessionMetadata.containerKind agentboxContainerKindFromLabels at hlabels
  unfold requireAgentboxContainerMarker
  rw [hkind]
  split_ifs at hlabels with hmanaged hrun
  · cases hlabels
    simp only [bind_eq_ok, requireSessionLabelValue_eq_ok, true_implies]
    exact ⟨fun ⟨_, _, h⟩ => h, fun h => ⟨(), requireSessionLabelValue_eq_ok.2 hmanaged, h⟩⟩
  · cases hlabels
    simp only [requireSessionLabelValue_eq_ok, reduceCtorEq, false_implies, iff_true]
    exact hrun

/-- What the labels of a container with a root have to be for it to be identified. -/
theorem identified_iff {m : SessionMetadata} (hkind : m.containerKind = some kind)
    (hroot : m.canonicalGitRoot = some root) :
    Identified m root ↔ (kind = .managed → m.label LABEL_SCHEMA = some LABEL_SCHEMA_VALUE) ∧
      m.gitRootHash = some (gitRootHash12 root) := by
  rw [← marker_iff hkind]
  exact ⟨fun h => ⟨h.marker, h.gitRootHash⟩, fun h => ⟨h.1, hroot, h.2⟩⟩

theorem isFailureOf_sameRootError (c : ManagedContainerConflict) :
    IsFailureOf c.workspace c.sameRootError := by
  unfold ManagedContainerConflict.sameRootError
  split
  · exact .inl ⟨_, _, _, rfl⟩
  · split_ifs
    · exact .inl ⟨_, _, _, rfl⟩
    · exact .inl ⟨_, _, _, rfl⟩
    · exact .inr ⟨_, rfl⟩

/-- An identified container is attributed to its root. -/
theorem isAttributed_classify (c : ManagedContainerConflict) :
    IsAttributed c.workspace c.identity.canonicalGitRoot c.classify := by
  have hmatches : c.rootMatchesWorkspace = true ↔
      c.identity.canonicalGitRoot = c.workspace.canonicalGitRoot := by
    rw [ManagedContainerConflict.rootMatchesWorkspace, beq_iff_eq]
    exact ⟨fun h => congrArg Utf8Path.mk h, fun h => by rw [h]⟩
  refine ⟨fun hne => ?_, fun heq => ?_⟩
  · have hconflict : IsConflictWith c.workspace c.identity.canonicalGitRoot c.classify := by
      refine ⟨c, rfl, rfl, ?_⟩
      unfold ManagedContainerConflict.classify
      rw [if_neg (mt hmatches.1 hne)]
      split_ifs
      · exact .inr rfl
      · exact .inl rfl
    exact ⟨hconflict, not_isFailureOf hconflict⟩
  · have hfailure : IsFailureOf c.workspace c.classify := by
      have hroot := hmatches.2 heq
      unfold ManagedContainerConflict.classify
      rw [ManagedContainerConflict.hashMatchesDifferentRoot, hroot, Bool.not_true, Bool.and_false,
        if_neg Bool.false_ne_true, if_pos rfl]
      exact isFailureOf_sameRootError c
    exact ⟨hfailure, fun _ h => not_isFailureOf h hfailure⟩

/-- The identity of labels that name a root is of that root. -/
theorem identified_of_identity {m : SessionMetadata} {identity : SessionIdentityLabels}
    (hroot : m.canonicalGitRoot = some root)
    (h : (SessionLabelReport.fromMetadata m).identity = .ok identity) :
    identity.canonicalGitRoot = root ∧ Identified m root := by
  have hok := (identity_eq_ok.1 h).1
  have heq : identity.canonicalGitRoot = root := by
    have hr := hok.gitRoot
    rw [hroot] at hr
    exact (Option.some.inj hr).symm
  exact ⟨heq, heq ▸ hok⟩

theorem isAttributed_of_identified (hkind : (SessionMetadata.mk inspect.labels).containerKind =
      some kind) (h : Identified ⟨inspect.labels⟩ root) :
    IsAttributed workspace root
      (classifyNamedContainerConflict workspace expectedName inspect) := by
  have hidentity : (SessionLabelReport.fromMetadata ⟨inspect.labels⟩).identity =
      .ok ⟨root, gitRootHash12 root⟩ := identity_eq_ok.2 ⟨h, rfl⟩
  unfold classifyNamedContainerConflict
  simp only [hkind, hidentity]
  exact isAttributed_classify ⟨workspace, _, kind, ⟨root, gitRootHash12 root⟩, _, inspect⟩

/-- A container that is not identified is reported as a failed session of the workspace itself. -/
theorem isAttributed_of_not_identified (hkind : (SessionMetadata.mk inspect.labels).containerKind =
      some kind) (hroot : (SessionMetadata.mk inspect.labels).canonicalGitRoot = some root)
    (hno : ¬ Identified ⟨inspect.labels⟩ root) :
    IsAttributed workspace root (classifyNamedContainerConflict workspace expectedName inspect) ↔
      root = workspace.canonicalGitRoot := by
  unfold classifyNamedContainerConflict
  simp only [hkind]
  rcases hidentity : (SessionLabelReport.fromMetadata ⟨inspect.labels⟩).identity with
    failure | identity
  · have hfailure : ∀ name, IsFailureOf workspace
        (failureConflictError workspace kind name failure) := fun name => .inl ⟨_, _, _, rfl⟩
    constructor
    · intro h
      by_contra hne
      exact (h.1 hne).2 (hfailure _)
    · intro heq
      exact ⟨fun hne => absurd heq hne,
        fun _ => ⟨hfailure _, fun _ h => not_isFailureOf h (hfailure _)⟩⟩
  · exact absurd (identified_of_identity hroot hidentity).2 hno

/-- A conflict is attributed to the right workspace exactly when the container is of this workspace
or its schema and hash labels are in order. -/
theorem classify_isAttributed_iff
    (hkind : (SessionMetadata.mk inspect.labels).containerKind = some kind)
    (hroot : (SessionMetadata.mk inspect.labels).canonicalGitRoot = some root) :
    IsAttributed workspace root (classifyNamedContainerConflict workspace expectedName inspect) ↔
      root = workspace.canonicalGitRoot ∨
        (kind = .managed →
          (SessionMetadata.mk inspect.labels).label LABEL_SCHEMA = some LABEL_SCHEMA_VALUE) ∧
        (SessionMetadata.mk inspect.labels).gitRootHash = some (gitRootHash12 root) := by
  rw [← identified_iff hkind hroot]
  by_cases h : Identified ⟨inspect.labels⟩ root
  · exact iff_of_true (isAttributed_of_identified hkind h) (.inr h)
  · rw [isAttributed_of_not_identified hkind hroot h, or_iff_left h]

/-- A managed container without a hash label, of another workspace. -/
def unhashedInspect : PodmanContainerInspect where
  running := true
  labels := .ofList [(LABEL_MANAGED, LABEL_MANAGED_VALUE), (LABEL_SCHEMA, LABEL_SCHEMA_VALUE),
    (LABEL_GIT_ROOT, "/src/other")]
  mounts := []
  ports := ∅

theorem classify_isAttributed_iff_unhashed :
    IsAttributed (workspaceAt ⟨"/src/box"⟩) ⟨"/src/other"⟩
        (classifyNamedContainerConflict (workspaceAt ⟨"/src/box"⟩) "agentbox" unhashedInspect) ↔
      (⟨"/src/other"⟩ : Utf8Path) = ⟨"/src/box"⟩ ∨
        (AgentboxContainerKind.managed = .managed →
          (SessionMetadata.mk unhashedInspect.labels).label LABEL_SCHEMA =
            some LABEL_SCHEMA_VALUE) ∧
        (SessionMetadata.mk unhashedInspect.labels).gitRootHash =
          some (gitRootHash12 ⟨"/src/other"⟩) :=
  classify_isAttributed_iff (by decide +kernel) (by decide +kernel)

/-- The container of the other workspace is reported as a failed session of this one. -/
theorem not_classify_isAttributed :
    ¬ ∀ (workspace : WorkspaceIdentity) (expectedName : String) (inspect : PodmanContainerInspect)
      (kind : AgentboxContainerKind) (root : Utf8Path),
      (SessionMetadata.mk inspect.labels).containerKind = some kind →
      (SessionMetadata.mk inspect.labels).canonicalGitRoot = some root →
      IsAttributed workspace root
        (classifyNamedContainerConflict workspace expectedName inspect) := by
  intro h
  have hkind : (SessionMetadata.mk unhashedInspect.labels).containerKind = some .managed := by
    decide +kernel
  have hroot : (SessionMetadata.mk unhashedInspect.labels).canonicalGitRoot =
      some ⟨"/src/other"⟩ := by decide +kernel
  have hnone : (SessionMetadata.mk unhashedInspect.labels).gitRootHash = none := by decide +kernel
  have hno : ¬ Identified ⟨unhashedInspect.labels⟩ ⟨"/src/other"⟩ := fun hidentified => by
    have hhash := hidentified.gitRootHash
    rw [hnone] at hhash
    cases hhash
  have heq := (isAttributed_of_not_identified hkind hroot hno).1
    (h (workspaceAt ⟨"/src/box"⟩) "agentbox" unhashedInspect _ _ hkind hroot)
  exact absurd heq (by decide)

end Agentbox.Session.Attribution
