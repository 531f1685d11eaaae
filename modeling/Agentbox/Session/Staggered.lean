import Agentbox.Session.RootContainers

/-! # A discovery while containers change

The inspections of a discovery come after its listing, one after the other. What it returns is the
view of a state with the containers of the listing, each as it was when it was inspected. -/

namespace Agentbox.Session.Staggered

open Agentbox.Base.Path Agentbox.Base.Errors Agentbox.Files.Snapshot Agentbox.Metadata.Labels
  Agentbox.Podman.Model Agentbox.Podman.State Agentbox.Session.Record Agentbox.Session.Discovery
  Agentbox.Session.Collected Agentbox.Session.ScopedDiscovery Agentbox.Session.Views
  Agentbox.Session.RootContainers

/-- The container as an inspection shows it. -/
def PodmanContainer.shownBy (c : PodmanContainer) (inspect : PodmanContainerInspect) :
    PodmanContainer :=
  { c with running := inspect.running, mounts := inspect.mounts, ports := inspect.ports }

/-- The container as it is shown by the inspection of its id, if that succeeds. -/
def seenBy (inspect : InspectFn) (c : PodmanContainer) : PodmanContainer :=
  match inspect c.id with
  | .ok i => PodmanContainer.shownBy c i
  | .error _ => c

variable {s : PodmanState} {inspect : InspectFn} {c : PodmanContainer} {i : PodmanContainerInspect}
  {probe : GitRootProbe}

theorem listed_seenBy : (seenBy inspect c).listed = c.listed := by
  unfold seenBy
  split <;> rfl

theorem refs_seenBy : (seenBy inspect c).refs = c.refs := by
  unfold seenBy
  split <;> rfl

theorem inspected_seenBy (hi : inspect c.id = .ok i) (hlabels : i.labels = c.labels) :
    (seenBy inspect c).inspected = i := by
  unfold seenBy
  rw [hi]
  simp only [PodmanContainer.shownBy, PodmanContainer.inspected, ← hlabels]

/-- The containers of a state, each as its inspection shows it. -/
def seenState (s : PodmanState) (inspect : InspectFn) : PodmanState where
  containers := s.containers.map (seenBy inspect)
  distinct := by
    rw [List.flatMap_map]
    simp only [refs_seenBy]
    exact s.distinct

theorem listing_seenState (managedOnly : Bool) :
    (seenState s inspect).listing managedOnly = s.listing managedOnly := by
  have hmanaged : ∀ c, (seenBy inspect c).isListedAsManaged = c.isListedAsManaged := fun c =>
    congrArg (fun container : PodmanPsContainer =>
      container.labels[LABEL_MANAGED]? == some LABEL_MANAGED_VALUE) listed_seenBy
  unfold PodmanState.listing seenState
  rw [List.filter_map, List.map_map]
  simp only [Function.comp_def, hmanaged, listed_seenBy]

theorem inspectOne_seenState (hc : c ∈ s.containers) (hi : inspect c.id = .ok i)
    (hlabels : i.labels = c.labels) : (seenState s inspect).inspectOne c.id = .ok i := by
  have hmem : seenBy inspect c ∈ (seenState s inspect).containers := List.mem_map_of_mem hc
  have hid : (seenBy inspect c).id = c.id := congrArg PodmanPsContainer.id listed_seenBy
  rw [← hid, PodmanState.inspectOne_of_mem hmem, inspected_seenBy hi hlabels]

theorem inspect_of_recordsOf : ∀ {l : List (PodmanPsContainer × AgentboxContainerKind)}
    {records : List SessionRecord}, recordsOf inspect probe l = .ok records →
      ∀ candidate ∈ l, ∃ i, inspect candidate.1.id = .ok i
  | [], _, _, _, hmem => absurd hmem List.not_mem_nil
  | (container, kind) :: l, records, h, candidate, hmem => by
    rw [recordsOf] at h
    rcases hi : inspect container.id with e | i
    · rw [hi] at h
      cases h
    rcases hrest : recordsOf inspect probe l with e | rest
    · rw [hi, hrest] at h
      cases h
    rcases List.mem_cons.1 hmem with rfl | hmem
    · exact ⟨i, hi⟩
    · exact inspect_of_recordsOf hrest candidate hmem

/-- **The view of a staggered discovery.** -/
theorem view_of_discovered {scope : SessionDiscoveryScope}
    {containerScope : ContainerDiscoveryScope} {sessions : List SessionRecord}
    (hlabels : ∀ c ∈ s.containers, ∀ i, inspect c.id = .ok i → i.labels = c.labels)
    (h : discovered (s.listing (listsManagedOnly containerScope)) scope containerScope inspect
      probe = .ok sessions) :
    view probe (seenState s inspect) scope containerScope = .ok sessions := by
  rw [discovered_eq] at h
  rw [← discovered_listing, listing_seenState, discovered_eq, ← h]
  rcases hrecords : recordsOf inspect probe
    (candidates (s.listing (listsManagedOnly containerScope)) scope containerScope) with e | records
  · rw [hrecords] at h
    cases h
  rw [← hrecords]
  congr 1
  refine recordsOf_congr fun candidate hcandidate => ?_
  obtain ⟨i, hi⟩ := inspect_of_recordsOf hrecords candidate hcandidate
  rw [candidates_listing] at hcandidate
  obtain ⟨p, hp, rfl⟩ := List.mem_map.1 hcandidate
  have hc := (mem_inspectedContainers.1 hp).1
  rw [hi]
  exact inspectOne_seenState hc hi (hlabels _ hc i hi)

/-- The state has the containers of the listing. -/
theorem exists_mem_seenState (hc : c ∈ s.containers) :
    ∃ c1 ∈ (seenState s inspect).containers, c1.listed = c.listed :=
  ⟨_, List.mem_map_of_mem hc, listed_seenBy⟩

end Agentbox.Session.Staggered
