import Agentbox.Session.Views

/-! # The containers of a root

Which containers count for a git root, and what the sessions that are shown say about them: for a
session that runs, no other container counts for its root. -/

namespace Agentbox.Session.Claimants

open Agentbox.Base.Path Agentbox.Base.Errors Agentbox.Files.Snapshot Agentbox.Metadata.Labels
  Agentbox.Podman.Model Agentbox.Podman.State Agentbox.Workspace.Identity Agentbox.Session.Record
  Agentbox.Session.Inspected Agentbox.Session.Discovery Agentbox.Session.Status
  Agentbox.Session.Collected Agentbox.Session.ScopedDiscovery Agentbox.Session.Views

/-- A container of agentbox that is not failed and has the root. -/
def countsFor (probe : GitRootProbe) (gitRoot : Utf8Path) (c : PodmanContainer) : Bool :=
  c.kind.any fun kind => !(record probe c kind).status.isFailed &&
    (record probe c kind).canonicalGitRoot == some gitRoot

def claimantsOf (s : PodmanState) (probe : GitRootProbe) (gitRoot : Utf8Path) :
    List PodmanContainer :=
  s.containers.filter (countsFor probe gitRoot)

variable {s : PodmanState} {probe : GitRootProbe} {gitRoot : Utf8Path} {c : PodmanContainer}
  {kind : AgentboxContainerKind}

theorem records_all (s : PodmanState) (probe : GitRootProbe) :
    records probe s .all .agentboxOwned =
      s.containers.filterMap fun c => c.kind.map fun kind => record probe c kind := by
  rw [records, inspectedContainers, List.map_filterMap, List.filterMap_filter]
  refine List.filterMap_congr fun c _ => ?_
  rcases hkind : c.kind with _ | kind <;>
    simp [isCandidate, owned, hkind, ContainerDiscoveryScope.includes,
      SessionDiscoveryScope.shouldInspectPsCandidate]

theorem countedRoot_record : countedRoot (record probe c kind) = some gitRoot.components ↔
    (!(record probe c kind).status.isFailed &&
      (record probe c kind).canonicalGitRoot == some gitRoot) = true := by
  rw [countedRoot_eq_some, Bool.and_eq_true, Bool.not_eq_true']
  refine and_congr Iff.rfl ?_
  rcases (record probe c kind).canonicalGitRoot with _ | root
  · exact ⟨fun ⟨_, h, _⟩ => (nomatch h), fun h => (nomatch h)⟩
  · rw [some_beq_some, Utf8Path.beq_iff]
    exact ⟨fun ⟨_, h, hc⟩ => Option.some.inj h ▸ hc, fun h => ⟨root, rfl, h⟩⟩

theorem claimants_records (s : PodmanState) (probe : GitRootProbe) (gitRoot : Utf8Path) :
    claimants (records probe s .all .agentboxOwned) gitRoot.components =
      (claimantsOf s probe gitRoot).length := by
  rw [claimants, claimantsOf, records_all, ← List.countP_eq_length_filter,
    ← List.countP_eq_length_filter, List.countP_filterMap]
  refine List.countP_congr fun c _ => ?_
  rw [countsFor]
  rcases c.kind with _ | kind
  · simp
  · simp [countedRoot_record]

/-! ### What is shown -/

/-- The sessions of all containers that agentbox owns, as `ps` shows them. -/
def shown (probe : GitRootProbe) (s : PodmanState) : List SessionRecord :=
  markDuplicateSessions (records probe s .all .agentboxOwned)

/-- Every root label is spelled as agentbox writes it. -/
def CanonicalRoots (s : PodmanState) : Prop := ∀ c ∈ s.containers, NormalRoot c.listed

variable {r : SessionRecord}

theorem view_all (probe : GitRootProbe) (s : PodmanState) :
    view probe s .all .agentboxOwned = .ok (shown probe s) := collected_all _

theorem mem_shown (h : r ∈ shown probe s) : ∃ c kind, c ∈ s.containers ∧ c.kind = some kind ∧
    (r = record probe c kind ∧
        isDuplicate (records probe s .all .agentboxOwned) (record probe c kind) = false ∨
      r = (record probe c kind).markDuplicate) := by
  rw [shown, markDuplicateSessions_eq] at h
  obtain ⟨r0, hr0, rfl⟩ := List.mem_map.1 h
  obtain ⟨c, kind, hc, -, hkind, rfl⟩ := mem_records.1 hr0
  refine ⟨c, kind, hc, hkind, ?_⟩
  by_cases hdup : isDuplicate (records probe s .all .agentboxOwned) (record probe c kind) = true
  · exact .inr (if_pos hdup)
  · exact .inl ⟨if_neg hdup, Bool.not_eq_true _ ▸ hdup⟩

/-- A session that is shown as running is the record of a container, and no other container counts
for its root. -/
theorem of_running (h : r ∈ shown probe s) (hrun : r.status = .running) :
    ∃ c kind, c ∈ s.containers ∧ c.kind = some kind ∧ r = record probe c kind ∧
      ∀ root, r.canonicalGitRoot = some root → ∀ c' ∈ s.containers,
        countsFor probe root c' = true → c' = c := by
  obtain ⟨c, kind, hc, hkind, ⟨rfl, hdup⟩ | rfl⟩ := mem_shown h
  · refine ⟨c, kind, hc, hkind, rfl, fun root hroot c' hc' hcounts => ?_⟩
    have hself : countsFor probe root c = true := by
      rw [countsFor, hkind, Option.any_some, hrun, hroot, some_beq_some, Utf8Path.beq_self]
      rfl
    have hone : (claimantsOf s probe root).length ≤ 1 := by
      have hcount := countedRoot_record.2 (show (!(record probe c kind).status.isFailed &&
        (record probe c kind).canonicalGitRoot == some root) = true by
          rw [countsFor, hkind, Option.any_some] at hself
          exact hself)
      rw [isDuplicate, hcount, Option.any_some, decide_eq_false_iff_not, claimants_records] at hdup
      omega
    have hmem : c ∈ claimantsOf s probe root := List.mem_filter.2 ⟨hc, hself⟩
    have hmem' : c' ∈ claimantsOf s probe root := List.mem_filter.2 ⟨hc', hcounts⟩
    have hpos := List.length_pos_of_mem hmem
    obtain ⟨a, ha⟩ := List.length_eq_one_iff.1 (show (claimantsOf s probe root).length = 1 by omega)
    rw [ha] at hmem hmem'
    rw [List.mem_singleton.1 hmem, List.mem_singleton.1 hmem']
  · cases hrun

/-- The view of one root is the part of what is shown that claims the root. -/
theorem view_forGitRoot (hR : gitRoot.IsNormal) (hroots : CanonicalRoots s)
    {sessions : List SessionRecord}
    (h : view probe s (.forGitRoot gitRoot) .agentboxOwned = .ok sessions) :
    sessions = (shown probe s).filter (claims gitRoot) := by
  have hlisted : ∀ container ∈ s.listing false, NormalRoot container ∧
      SameLabels s.inspectOne container ∧ ∃ i, s.inspectOne container.id = .ok i := by
    intro container hcontainer
    obtain ⟨c, hc, rfl⟩ := List.mem_map.1 hcontainer
    have hmem := (List.mem_filter.1 hc).1
    have hinspect : s.inspectOne c.listed.id = .ok c.inspected := PodmanState.inspectOne_of_mem hmem
    refine ⟨hroots c hmem, fun i hi => ?_, _, hinspect⟩
    rw [hinspect] at hi
    cases hi
    rfl
  have hscoped : discovered (s.listing false) (.forGitRoot gitRoot) .agentboxOwned s.inspectOne
      probe = .ok sessions := (discovered_listing s _ .agentboxOwned probe).trans h
  have hcol : ∀ container ∈ s.listing false, inScope .agentboxOwned gitRoot container = true →
      ¬ collidesWith gitRoot container := by
    intro container hcontainer hscope hcollides
    obtain ⟨e, he⟩ := (@discovered_error_iff s.inspectOne probe (s.listing false) gitRoot
      .agentboxOwned (fun c hc => (hlisted c hc).2.1) fun c hc _ => (hlisted c hc).2.2).2
        ⟨container, hcontainer, hscope, hcollides⟩
    rw [hscoped] at he
    cases he
  have hall : discovered (s.listing false) .all .agentboxOwned s.inspectOne probe =
      .ok (shown probe s) :=
    (discovered_listing s .all .agentboxOwned probe).trans (view_all probe s)
  exact Except.ok.inj (hscoped.symm.trans (discovered_eq_filter hR (fun c hc => (hlisted c hc).1)
    (fun c hc => (hlisted c hc).2.1) (fun _ _ _ => rfl) hcol hall))

end Agentbox.Session.Claimants
