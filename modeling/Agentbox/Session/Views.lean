import Agentbox.Podman.State
import Agentbox.Session.ScopedDiscovery

/-! # What discovery shows of a state of Podman

When every call of a discovery succeeds, its result is a function of the containers of Podman: the
records of the containers in its scope, collected. -/

namespace Agentbox.Session.Views

open Agentbox.Base.Path Agentbox.Base.Errors Agentbox.Files.Snapshot Agentbox.Metadata.Labels
  Agentbox.Podman.Model Agentbox.Podman.State Agentbox.Workspace.Identity Agentbox.Session.Record
  Agentbox.Session.Inspected Agentbox.Session.Discovery Agentbox.Session.Status
  Agentbox.Session.Collected Agentbox.Session.ScopedDiscovery

/-- `podman ps` is asked for the managed containers only. -/
def listsManagedOnly : ContainerDiscoveryScope → Bool
  | .managedSessions => true
  | .agentboxOwned => false

/-- The record of a container, before duplicates are marked. -/
def record (probe : GitRootProbe) (c : PodmanContainer) (kind : AgentboxContainerKind) :
    SessionRecord :=
  buildSessionRecord c.listed c.inspected kind probe

/-- A discovery inspects the container. -/
def isCandidate (scope : SessionDiscoveryScope) (containerScope : ContainerDiscoveryScope)
    (c : PodmanContainer) : Bool :=
  c.kind.any containerScope.includes && scope.shouldInspectPsCandidate c.listed

/-- The container with the kind that its labels give it. -/
def owned (c : PodmanContainer) : Option (PodmanContainer × AgentboxContainerKind) :=
  c.kind.map fun kind => (c, kind)

def inspectedContainers (s : PodmanState) (scope : SessionDiscoveryScope)
    (containerScope : ContainerDiscoveryScope) : List (PodmanContainer × AgentboxContainerKind) :=
  (s.containers.filter (isCandidate scope containerScope)).filterMap owned

def records (probe : GitRootProbe) (s : PodmanState) (scope : SessionDiscoveryScope)
    (containerScope : ContainerDiscoveryScope) : List SessionRecord :=
  (inspectedContainers s scope containerScope).map fun c => record probe c.1 c.2

/-- The result of a discovery. -/
def view (probe : GitRootProbe) (s : PodmanState) (scope : SessionDiscoveryScope)
    (containerScope : ContainerDiscoveryScope) : Except Error (List SessionRecord) :=
  collected scope (records probe s scope containerScope)

variable {s : PodmanState} {scope : SessionDiscoveryScope}
  {containerScope : ContainerDiscoveryScope} {probe : GitRootProbe} {c : PodmanContainer}

theorem owned_eq_some {p : PodmanContainer × AgentboxContainerKind} :
    owned c = some p ↔ p.1 = c ∧ c.kind = some p.2 := by
  rw [owned, Option.map_eq_some_iff]
  constructor
  · rintro ⟨kind, hkind, rfl⟩
    exact ⟨rfl, hkind⟩
  · rintro ⟨rfl, hkind⟩
    exact ⟨p.2, hkind, rfl⟩

theorem mem_inspectedContainers {p : PodmanContainer × AgentboxContainerKind} :
    p ∈ inspectedContainers s scope containerScope ↔
      p.1 ∈ s.containers ∧ isCandidate scope containerScope p.1 = true ∧ p.1.kind = some p.2 := by
  rw [inspectedContainers, List.mem_filterMap]
  constructor
  · rintro ⟨c, hc, hp⟩
    obtain ⟨rfl, hkind⟩ := owned_eq_some.1 hp
    exact ⟨(List.mem_filter.1 hc).1, (List.mem_filter.1 hc).2, hkind⟩
  · rintro ⟨hc, hcand, hkind⟩
    exact ⟨p.1, List.mem_filter.2 ⟨hc, hcand⟩, owned_eq_some.2 ⟨rfl, hkind⟩⟩

theorem filterMap_owned_sublist : ∀ l : List PodmanContainer,
    ((l.filterMap owned).map Prod.fst).Sublist l
  | [] => List.Sublist.slnil
  | c :: l => by
    rcases hc : owned c with _ | p
    · rw [List.filterMap_cons_none hc]
      exact (filterMap_owned_sublist l).cons c
    · rw [List.filterMap_cons_some hc, List.map_cons, (owned_eq_some.1 hc).1]
      exact (filterMap_owned_sublist l).cons_cons c

/-- No container is inspected twice. -/
theorem nodup_inspectedContainers (s : PodmanState) (scope : SessionDiscoveryScope)
    (containerScope : ContainerDiscoveryScope) :
    ((inspectedContainers s scope containerScope).map Prod.fst).Nodup :=
  (PodmanState.nodup_containers s).sublist
    ((filterMap_owned_sublist _).trans List.filter_sublist)

theorem mem_records {r : SessionRecord} : r ∈ records probe s scope containerScope ↔
    ∃ c kind, c ∈ s.containers ∧ isCandidate scope containerScope c = true ∧
      c.kind = some kind ∧ r = record probe c kind := by
  rw [records, List.mem_map]
  constructor
  · rintro ⟨p, hp, rfl⟩
    obtain ⟨hc, hcand, hkind⟩ := mem_inspectedContainers.1 hp
    exact ⟨p.1, p.2, hc, hcand, hkind, rfl⟩
  · rintro ⟨c, kind, hc, hcand, hkind, rfl⟩
    exact ⟨(c, kind), mem_inspectedContainers.2 ⟨hc, hcand, hkind⟩, rfl⟩

theorem isListedAsManaged_of_kind (h : c.kind = some .managed) : c.isListedAsManaged = true := by
  unfold PodmanContainer.kind agentboxContainerKindFromLabels at h
  split_ifs at h with hmanaged
  · rw [PodmanContainer.isListedAsManaged, (requiredLabelValue_eq_some.1 hmanaged).1,
      beq_self_eq_true]
  · cases h

theorem psCandidate_listed (containerScope : ContainerDiscoveryScope) (c : PodmanContainer) :
    psCandidate containerScope c.listed =
      (c.kind.filter containerScope.includes).map fun kind => (c.listed, kind) := by
  have hkind : agentboxContainerKindFromLabels c.listed.labels = c.kind := rfl
  unfold psCandidate
  rw [hkind]
  rcases c.kind with _ | kind
  · rfl
  · by_cases h : containerScope.includes kind = true
    · simp [h]
    · simp [h]

theorem candidates_listing (s : PodmanState) (scope : SessionDiscoveryScope)
    (containerScope : ContainerDiscoveryScope) :
    candidates (s.listing (listsManagedOnly containerScope)) scope containerScope =
      (inspectedContainers s scope containerScope).map fun p => (p.1.listed, p.2) := by
  rw [candidates, PodmanState.listing, inspectedContainers, List.filterMap_map,
    List.filter_filterMap, List.filterMap_filter, List.map_filterMap, List.filterMap_filter]
  refine List.filterMap_congr fun c _ => ?_
  rw [Function.comp_apply, psCandidate_listed, isCandidate, owned]
  rcases hkind : c.kind with _ | kind
  · simp
  · by_cases hinc : containerScope.includes kind = true
    · have hlist : (!listsManagedOnly containerScope || c.isListedAsManaged) = true := by
        cases containerScope with
        | agentboxOwned => rfl
        | managedSessions =>
          rw [isListedAsManaged_of_kind (by rw [hkind, eq_of_beq hinc]), Bool.or_true]
      rw [hlist]
      by_cases hscope : scope.shouldInspectPsCandidate c.listed = true
      · simp [hinc, hscope]
      · simp [hinc, hscope]
    · simp [hinc]

theorem recordsOf_listed (probe : GitRootProbe) : ∀ l : List (PodmanContainer ×
    AgentboxContainerKind), (∀ p ∈ l, p.1 ∈ s.containers) →
      recordsOf s.inspectOne probe (l.map fun p => (p.1.listed, p.2)) =
        .ok (l.map fun p => record probe p.1 p.2)
  | [], _ => rfl
  | p :: l, h => by
    have hid : s.inspectOne p.1.listed.id = .ok p.1.inspected :=
      PodmanState.inspectOne_of_mem (h p List.mem_cons_self)
    rw [List.map_cons, recordsOf, hid,
      recordsOf_listed probe l fun q hq => h q (List.mem_cons_of_mem _ hq)]
    rfl

/-- A discovery in a state of Podman returns the view of its scopes. -/
theorem discovered_listing (s : PodmanState) (scope : SessionDiscoveryScope)
    (containerScope : ContainerDiscoveryScope) (probe : GitRootProbe) :
    discovered (s.listing (listsManagedOnly containerScope)) scope containerScope s.inspectOne
      probe = view probe s scope containerScope := by
  rw [discovered_eq, candidates_listing,
    recordsOf_listed probe _ fun p hp => (mem_inspectedContainers.1 hp).1]
  rfl

theorem view_of_nil (probe : GitRootProbe) (scope : SessionDiscoveryScope)
    (containerScope : ContainerDiscoveryScope) (h : records probe s scope containerScope = []) :
    view probe s scope containerScope = .ok [] := by
  rw [view, h]
  rcases scope with _ | ⟨⟨gitRoot, hash⟩⟩
  · rfl
  · unfold collected SessionCollector.finish
    simp [markDuplicateSessions]

end Agentbox.Session.Views
