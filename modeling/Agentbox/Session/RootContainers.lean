import Agentbox.Session.Claimants
import Agentbox.Session.Selection

/-! # The containers of a root

The root and the hash that the labels of a container have, and which containers a discovery for one
root shows. -/

namespace Agentbox.Session.RootContainers

open Agentbox.Base.Path Agentbox.Base.Errors Agentbox.Files.Snapshot Agentbox.Metadata.Labels
  Agentbox.Podman.Model Agentbox.Podman.State Agentbox.Workspace.Identity Agentbox.Session.Record
  Agentbox.Session.Discovery Agentbox.Session.Collected Agentbox.Session.ScopedDiscovery
  Agentbox.Session.Views Agentbox.Session.Claimants Agentbox.Session.Selection

def rootOf (c : PodmanContainer) : Option Utf8Path :=
  (requiredLabelValue c.labels LABEL_GIT_ROOT).map Utf8Path.mk

/-- The hash label is absent, blank, or that of the root. -/
def hashAgrees (root : Utf8Path) (c : PodmanContainer) : Bool :=
  (requiredLabelValue c.labels LABEL_GIT_ROOT_HASH).all (· == gitRootHash12 root)

/-- The session is that of the container, whether it is marked as a duplicate or not. -/
def IsSessionOf (probe : GitRootProbe) (c : PodmanContainer) (session : SessionRecord) : Prop :=
  ∃ kind, c.kind = some kind ∧
    (session = record probe c kind ∨ session = (record probe c kind).markDuplicate)

variable {probe : GitRootProbe} {c : PodmanContainer} {session : SessionRecord} {s : PodmanState}

namespace IsSessionOf

variable (h : IsSessionOf probe c session)
include h

theorem containerName_eq : session.containerName = c.containerName := by
  obtain ⟨kind, -, rfl | rfl⟩ := h
  · rfl
  · rfl

theorem canonicalGitRoot_eq : session.canonicalGitRoot = rootOf c := by
  obtain ⟨kind, -, rfl | rfl⟩ := h
  · rfl
  · rfl

theorem containerRunning_eq : session.containerRunning = c.running := by
  obtain ⟨kind, -, rfl | rfl⟩ := h
  · rfl
  · rfl

theorem isSome_kind : c.kind.isSome = true := by
  obtain ⟨kind, hkind, -⟩ := h
  rw [hkind]
  rfl

end IsSessionOf

theorem mem_markDuplicate {l : List SessionRecord} (h : session ∈ markDuplicateSessions l) :
    ∃ r ∈ l, session = r ∨ session = r.markDuplicate := by
  rw [markDuplicateSessions_eq] at h
  obtain ⟨r, hr, rfl⟩ := List.mem_map.1 h
  refine ⟨r, hr, ?_⟩
  split_ifs
  · exact .inr rfl
  · exact .inl rfl

theorem exists_markDuplicate {l : List SessionRecord} {r : SessionRecord} (h : r ∈ l) :
    ∃ session ∈ markDuplicateSessions l, session = r ∨ session = r.markDuplicate := by
  rw [markDuplicateSessions_eq]
  refine ⟨_, List.mem_map_of_mem h, ?_⟩
  split_ifs
  · exact .inr rfl
  · exact .inl rfl

theorem isSessionOf_of_mem_shown (h : session ∈ shown probe s) :
    ∃ c ∈ s.containers, IsSessionOf probe c session := by
  obtain ⟨r, hr, hsession⟩ := mem_markDuplicate h
  obtain ⟨c, kind, hc, -, hkind, rfl⟩ := mem_records.1 hr
  exact ⟨c, hc, kind, hkind, hsession⟩

theorem exists_shown (hc : c ∈ s.containers) (hkind : c.kind.isSome = true) :
    ∃ session ∈ shown probe s, IsSessionOf probe c session := by
  obtain ⟨kind, hkind⟩ := Option.isSome_iff_exists.1 hkind
  have hrecord : record probe c kind ∈ records probe s .all .agentboxOwned := by
    refine mem_records.2 ⟨c, kind, hc, ?_, hkind, rfl⟩
    rw [isCandidate, hkind]
    rfl
  obtain ⟨session, hmem, hsession⟩ := exists_markDuplicate hrecord
  exact ⟨session, hmem, kind, hkind, hsession⟩

theorem isCandidate_forGitRoot (root : Utf8Path) (c : PodmanContainer) :
    isCandidate (.forGitRoot root) .agentboxOwned c = (c.kind.isSome && hashAgrees root c) := by
  have hscope := shouldInspect_forGitRoot root c.listed
  rw [isCandidate, hscope]
  rcases c.kind with _ | kind
  · rfl
  · rfl

/-- What a discovery for a root shows. -/
theorem view_forGitRoot_eq {root : Utf8Path} {containerScope : ContainerDiscoveryScope}
    {discovered : List SessionRecord}
    (h : view probe s (.forGitRoot root) containerScope = .ok discovered) :
    discovered = markDuplicateSessions
      ((records probe s (.forGitRoot root) containerScope).filter (belongs root)) := by
  by_cases hany : (records probe s (.forGitRoot root) containerScope).any (collides root) = true
  · obtain ⟨roots, herror⟩ := (collected_gitRoot root _).1 hany
    rw [view, herror] at h
    cases h
  · rw [view, (collected_gitRoot root _).2 (Bool.not_eq_true _ ▸ hany)] at h
    exact (Except.ok.inj h).symm

theorem isSessionOf_of_mem_view {root : Utf8Path} {containerScope : ContainerDiscoveryScope}
    {discovered : List SessionRecord}
    (h : view probe s (.forGitRoot root) containerScope = .ok discovered)
    (hmem : session ∈ discovered) : ∃ c ∈ s.containers, IsSessionOf probe c session ∧
      isCandidate (.forGitRoot root) containerScope c = true := by
  rw [view_forGitRoot_eq h] at hmem
  obtain ⟨r, hr, hsession⟩ := mem_markDuplicate hmem
  obtain ⟨c, kind, hc, hcandidate, hkind, rfl⟩ := mem_records.1 (List.mem_filter.1 hr).1
  exact ⟨c, hc, ⟨kind, hkind, hsession⟩, hcandidate⟩

/-- What is found for a root under its lock: the containers of the root whose hash label agrees. -/
theorem mem_exactMatches {root : Utf8Path} {discovered : List SessionRecord}
    (h : view probe s (.forGitRoot root) .agentboxOwned = .ok discovered) :
    (∀ session ∈ exactGitRootMatches discovered root, ∃ c ∈ s.containers,
      IsSessionOf probe c session ∧ (rootOf c == some root) = true ∧ hashAgrees root c = true) ∧
    ∀ c ∈ s.containers, c.kind.isSome = true → (rootOf c == some root) = true →
      hashAgrees root c = true →
        ∃ session ∈ exactGitRootMatches discovered root, IsSessionOf probe c session := by
  constructor
  · intro session hmem
    obtain ⟨hin, hroot⟩ := List.mem_filter.1 hmem
    obtain ⟨c, hc, hof, hcandidate⟩ := isSessionOf_of_mem_view h hin
    rw [isCandidate_forGitRoot, Bool.and_eq_true] at hcandidate
    rw [hof.canonicalGitRoot_eq] at hroot
    exact ⟨c, hc, hof, hroot, hcandidate.2⟩
  · intro c hc hkind hroot hagrees
    obtain ⟨kind, hsome⟩ := Option.isSome_iff_exists.1 hkind
    have hrecord : record probe c kind ∈
        (records probe s (.forGitRoot root) .agentboxOwned).filter (belongs root) := by
      refine List.mem_filter.2 ⟨mem_records.2 ⟨c, kind, hc, ?_, hsome, rfl⟩, ?_⟩
      · rw [isCandidate_forGitRoot, hkind, hagrees]
        rfl
      · rw [belongs, Bool.or_eq_true]
        exact .inl hroot
    obtain ⟨session, hmem, hsession⟩ := exists_markDuplicate hrecord
    have hof : IsSessionOf probe c session := ⟨kind, hsome, hsession⟩
    refine ⟨session, List.mem_filter.2 ⟨view_forGitRoot_eq h ▸ hmem, ?_⟩, hof⟩
    rw [hof.canonicalGitRoot_eq]
    exact hroot

end Agentbox.Session.RootContainers
