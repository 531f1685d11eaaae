import Agentbox.Session.Collected

/-! # Discovery for one root

Discovery for one git root against the discovery of all containers. The containers are given as
`podman ps` lists them, and inspection is the only thing discovery asks for. -/

namespace Agentbox.Session.ScopedDiscovery

open Agentbox.Base.Path Agentbox.Base.Errors Agentbox.Lib.Program Agentbox.Files.Snapshot
  Agentbox.Metadata.Labels Agentbox.Podman.Model Agentbox.Workspace.Identity Agentbox.Session.Record
  Agentbox.Session.Inspected Agentbox.Session.Discovery Agentbox.Session.Status
  Agentbox.Session.Collected

/-! ### Discovery over an inspect function -/

/-- The only operation is the inspection of a container. -/
def Inspection : Sig := ⟨String, fun _ => Except Error PodmanContainerInspect⟩

def inspectContainer (id : String) : Prog Inspection Error PodmanContainerInspect :=
  .call id Prog.ofExcept

abbrev InspectFn := String → Except Error PodmanContainerInspect

def answer (inspect : InspectFn) : Unit → (id : Inspection.Op) → Inspection.Ret id × Unit :=
  fun _ id => (inspect id, ())

/-- The result of a discovery when `inspect` answers. -/
def discovered (containers : List PodmanPsContainer) (scope : SessionDiscoveryScope)
    (containerScope : ContainerDiscoveryScope) (inspect : InspectFn) (probe : GitRootProbe) :
    Except Error (List SessionRecord) :=
  ((discoverSessionsFromPs containers scope containerScope inspectContainer probe).run
    (answer inspect) ()).1

/-- The containers it inspects on the way, in order. -/
def inspectedIds (containers : List PodmanPsContainer) (scope : SessionDiscoveryScope)
    (containerScope : ContainerDiscoveryScope) (inspect : InspectFn) (probe : GitRootProbe) :
    List String :=
  ((discoverSessionsFromPs containers scope containerScope inspectContainer probe).run
    (answer inspect) ()).2.2.map Event.op

/-- The records of the candidates, up to the first inspection that fails. -/
def recordsOf (inspect : InspectFn) (probe : GitRootProbe) :
    List (PodmanPsContainer × AgentboxContainerKind) → Except Error (List SessionRecord)
  | [] => .ok []
  | (container, kind) :: l =>
    match inspect container.id, recordsOf inspect probe l with
    | .error e, _ => .error e
    | .ok _, .error e => .error e
    | .ok i, .ok records => .ok (buildSessionRecord container i kind probe :: records)

variable {inspect inspect' : InspectFn} {probe : GitRootProbe}

theorem run_inspectAll : ∀ l : List (PodmanPsContainer × AgentboxContainerKind),
    ((inspectAll inspectContainer probe l).run (answer inspect) ()).1 = recordsOf inspect probe l ∧
      ∀ id ∈ ((inspectAll inspectContainer probe l).run (answer inspect) ()).2.2.map Event.op,
        ∃ candidate ∈ l, candidate.1.id = id
  | [] => ⟨rfl, fun _ h => absurd h List.not_mem_nil⟩
  | (container, kind) :: l => by
    obtain ⟨hres, hids⟩ := run_inspectAll l
    have hcall : ∀ f : PodmanContainerInspect → Prog Inspection Error (List SessionRecord),
        (inspectContainer container.id).bind f =
          .call container.id fun r => (Prog.ofExcept r).bind f := fun _ => rfl
    have hans : answer inspect () container.id = (inspect container.id, ()) := rfl
    rw [inspectAll, hcall, recordsOf, ← hres]
    simp only [Prog.run, hans, List.map_cons]
    cases hi : inspect container.id with
    | error e =>
      refine ⟨rfl, fun id hid => ⟨_, List.mem_cons_self, ?_⟩⟩
      exact (List.mem_singleton.1 hid).symm
    | ok i =>
      simp only [Prog.ofExcept, Prog.done_bind, Prog.run_bind]
      rcases hrun : (inspectAll inspectContainer probe l).run (answer inspect) () with ⟨e | rs, u, t⟩
      all_goals
        rw [hrun] at hids
        refine ⟨rfl, fun id hid => ?_⟩
        rcases List.mem_cons.1 hid with rfl | hid
        · exact ⟨_, List.mem_cons_self, rfl⟩
        · obtain ⟨c, hc, hcid⟩ := hids id (by simpa [Prog.run] using hid)
          exact ⟨c, List.mem_cons_of_mem _ hc, hcid⟩

theorem discovered_eq (containers : List PodmanPsContainer) (scope : SessionDiscoveryScope)
    (containerScope : ContainerDiscoveryScope) (inspect : InspectFn) (probe : GitRootProbe) :
    discovered containers scope containerScope inspect probe =
      (recordsOf inspect probe (candidates containers scope containerScope)).bind
        (collected scope) := by
  rw [discovered, discoverSessionsFromPs_eq, Prog.run_bind,
    ← (run_inspectAll (candidates containers scope containerScope)).1]
  rcases (inspectAll inspectContainer probe (candidates containers scope containerScope)).run
    (answer inspect) () with ⟨e | rs, u, t⟩
  · rfl
  · simp only [Except.bind]
    cases collected scope rs <;> rfl

theorem inspectedIds_subset {containers : List PodmanPsContainer} {scope : SessionDiscoveryScope}
    {containerScope : ContainerDiscoveryScope} {id : String}
    (h : id ∈ inspectedIds containers scope containerScope inspect probe) :
    ∃ candidate ∈ candidates containers scope containerScope, candidate.1.id = id := by
  have hids := (@run_inspectAll inspect probe (candidates containers scope containerScope)).2
  rw [inspectedIds, discoverSessionsFromPs_eq, Prog.run_bind] at h
  rcases hrun : (inspectAll inspectContainer probe
    (candidates containers scope containerScope)).run (answer inspect) () with ⟨e | rs, u, t⟩
  · rw [hrun] at h hids
    exact hids id h
  · rw [hrun] at h hids
    have hnil : ((Prog.ofExcept (collected scope rs) :
        Prog Inspection Error (List SessionRecord)).run (answer inspect) u).2.2 = [] := by
      cases collected scope rs <;> rfl
    simp only [hnil, List.append_nil] at h
    exact hids id h

/-! ### The records of candidates -/

theorem recordsOf_congr : ∀ {l : List (PodmanPsContainer × AgentboxContainerKind)},
    (∀ candidate ∈ l, inspect' candidate.1.id = inspect candidate.1.id) →
      recordsOf inspect' probe l = recordsOf inspect probe l
  | [], _ => rfl
  | (container, kind) :: l, h => by
    rw [recordsOf, recordsOf, h _ List.mem_cons_self,
      recordsOf_congr fun c hc => h c (List.mem_cons_of_mem _ hc)]

theorem recordsOf_isOk : ∀ {l : List (PodmanPsContainer × AgentboxContainerKind)},
    (∀ candidate ∈ l, ∃ i, inspect candidate.1.id = .ok i) →
      ∃ records, recordsOf inspect probe l = .ok records
  | [], _ => ⟨[], rfl⟩
  | (container, kind) :: l, h => by
    obtain ⟨i, hi⟩ := h _ List.mem_cons_self
    obtain ⟨rs, hrs⟩ := recordsOf_isOk fun c hc => h c (List.mem_cons_of_mem _ hc)
    exact ⟨_, by rw [recordsOf, hi, hrs]⟩

theorem mem_recordsOf : ∀ {l : List (PodmanPsContainer × AgentboxContainerKind)}
    {records : List SessionRecord}, recordsOf inspect probe l = .ok records → ∀ {r : SessionRecord},
      r ∈ records ↔ ∃ candidate ∈ l, ∃ i, inspect candidate.1.id = .ok i ∧
        r = buildSessionRecord candidate.1 i candidate.2 probe
  | [], records, h, r => by
    cases h
    exact ⟨fun h => absurd h List.not_mem_nil, fun ⟨_, h, _⟩ => absurd h List.not_mem_nil⟩
  | (container, kind) :: l, records, h, r => by
    rw [recordsOf] at h
    split at h
    · cases h
    · cases h
    · next i rs hi hrs =>
      cases h
      rw [List.mem_cons, mem_recordsOf hrs]
      constructor
      · rintro (rfl | ⟨c, hc, j, hj, rfl⟩)
        · exact ⟨_, List.mem_cons_self, i, hi, rfl⟩
        · exact ⟨c, List.mem_cons_of_mem _ hc, j, hj, rfl⟩
      · rintro ⟨c, hc, j, hj, rfl⟩
        rcases List.mem_cons.1 hc with rfl | hc
        · rw [hi] at hj
          cases hj
          exact .inl rfl
        · exact .inr ⟨c, hc, j, hj, rfl⟩

/-- The records of a part of the candidates, where the records show which part it is. -/
theorem recordsOf_filter {p : PodmanPsContainer × AgentboxContainerKind → Bool}
    {q : SessionRecord → Bool} : ∀ {l : List (PodmanPsContainer × AgentboxContainerKind)}
    {records : List SessionRecord}, recordsOf inspect probe l = .ok records →
      (∀ candidate ∈ l, ∀ i, inspect candidate.1.id = .ok i →
        q (buildSessionRecord candidate.1 i candidate.2 probe) = p candidate) →
      recordsOf inspect probe (l.filter p) = .ok (records.filter q)
  | [], records, h, _ => by
    cases h
    rfl
  | (container, kind) :: l, records, h, hq => by
    rw [recordsOf] at h
    split at h
    · cases h
    · cases h
    · next i rs hi hrs =>
      cases h
      have ih := recordsOf_filter hrs fun c hc => hq c (List.mem_cons_of_mem _ hc)
      have hhead := hq _ List.mem_cons_self i hi
      rw [List.filter_cons, List.filter_cons, hhead]
      split_ifs
      · rw [recordsOf, hi, ih]
      · exact ih

/-! ### The scope of a root -/

/-- A container of agentbox of the wanted kinds, with a hash label that is absent, blank or that of
the root. -/
def inScope (containerScope : ContainerDiscoveryScope) (gitRoot : Utf8Path)
    (container : PodmanPsContainer) : Bool :=
  (agentboxContainerKindFromLabels container.labels).any containerScope.includes &&
    (requiredLabelValue container.labels LABEL_GIT_ROOT_HASH).all (· == gitRootHash12 gitRoot)

/-- The hash label of the root and a readable root label that is another root. -/
def collidesWith (gitRoot : Utf8Path) (container : PodmanPsContainer) : Prop :=
  requiredLabelValue container.labels LABEL_GIT_ROOT_HASH = some (gitRootHash12 gitRoot) ∧
    ∃ root, requiredLabelValue container.labels LABEL_GIT_ROOT = some root ∧
      ((⟨root⟩ : Utf8Path) == gitRoot) = false

/-- The records that a discovery for the root is to show. -/
def claims (gitRoot : Utf8Path) (record : SessionRecord) : Bool :=
  (record.canonicalGitRoot == some gitRoot &&
    (record.gitRootHash.isNone || record.gitRootHash == some (gitRootHash12 gitRoot))) ||
  (record.canonicalGitRoot.isNone && record.gitRootHash == some (gitRootHash12 gitRoot))

theorem psCandidate_eq_some {containerScope : ContainerDiscoveryScope}
    {container : PodmanPsContainer} {candidate : PodmanPsContainer × AgentboxContainerKind}
    (h : psCandidate containerScope container = some candidate) : candidate.1 = container := by
  unfold psCandidate at h
  split at h
  · split_ifs at h
    cases h
    rfl
  · cases h

theorem isSome_psCandidate (containerScope : ContainerDiscoveryScope)
    (container : PodmanPsContainer) : (psCandidate containerScope container).isSome =
      (agentboxContainerKindFromLabels container.labels).any containerScope.includes := by
  unfold psCandidate
  split
  · next kind hkind =>
    rw [hkind, Option.any_some]
    split_ifs with h <;> simp [h]
  · next hkind =>
    rw [hkind]
    rfl

theorem shouldInspect_forGitRoot (gitRoot : Utf8Path) (container : PodmanPsContainer) :
    (SessionDiscoveryScope.forGitRoot gitRoot).shouldInspectPsCandidate container =
      (requiredLabelValue container.labels LABEL_GIT_ROOT_HASH).all
        (· == gitRootHash12 gitRoot) := by
  unfold SessionDiscoveryScope.forGitRoot SessionDiscoveryScope.shouldInspectPsCandidate
    GitRootDiscoveryScope.shouldInspectPsCandidate
  simp only
  split
  · next h => rw [h]; rfl
  · next h => rw [h]; rfl

theorem candidates_forGitRoot (containers : List PodmanPsContainer) (gitRoot : Utf8Path)
    (containerScope : ContainerDiscoveryScope) :
    candidates containers (.forGitRoot gitRoot) containerScope =
      (containers.filter (inScope containerScope gitRoot)).filterMap
        (psCandidate containerScope) := by
  rw [candidates, List.filter_filterMap, List.filterMap_filter]
  refine List.filterMap_congr fun c _ => ?_
  rw [inScope, ← isSome_psCandidate, ← shouldInspect_forGitRoot]
  cases hc : psCandidate containerScope c with
  | none => rfl
  | some candidate =>
    rw [Option.isSome_some, Bool.true_and, Option.filter_some, psCandidate_eq_some hc]

theorem mem_candidates {containers : List PodmanPsContainer} {scope : SessionDiscoveryScope}
    {containerScope : ContainerDiscoveryScope}
    {candidate : PodmanPsContainer × AgentboxContainerKind}
    (h : candidate ∈ candidates containers scope containerScope) :
    candidate.1 ∈ containers ∧ psCandidate containerScope candidate.1 = some candidate ∧
      scope.shouldInspectPsCandidate candidate.1 = true := by
  obtain ⟨hmem, hscope⟩ := List.mem_filter.1 h
  obtain ⟨c, hc, hcand⟩ := List.mem_filterMap.1 hmem
  have hid := psCandidate_eq_some hcand
  exact ⟨hid ▸ hc, hid ▸ hcand, hscope⟩

/-- Every record that counts for a root in normal spelling has the hash of the root. -/
theorem gitRootHash_of_countedRoot {container : PodmanPsContainer} {i : PodmanContainerInspect}
    {kind : AgentboxContainerKind} {root : List Component}
    (h : countedRoot (buildSessionRecord container i kind probe) = some root) :
    ∃ path, (buildSessionRecord container i kind probe).canonicalGitRoot = some path ∧
      path.components = root ∧ (buildSessionRecord container i kind probe).gitRootHash =
        some (gitRootHash12 path) := by
  obtain ⟨hstatus, path, hpath, hroot⟩ := countedRoot_eq_some.1 h
  obtain ⟨path', ⟨⟨_, hc⟩, -, -, -⟩, -⟩ := healthy_of_not_isFailed hstatus
  have hsame : some path' = some path := hc.gitRoot.symm.trans hpath
  cases hsame
  exact ⟨path, hpath, hroot, hc.gitRootHash⟩

theorem collides_build {container : PodmanPsContainer} {i : PodmanContainerInspect}
    {kind : AgentboxContainerKind} {gitRoot : Utf8Path} (h : i.labels = container.labels) :
    collides gitRoot (buildSessionRecord container i kind probe) = true ↔
      collidesWith gitRoot container := by
  unfold collides collidesWith
  rw [Bool.and_eq_true, beq_iff_eq, ← h]
  refine and_congr Iff.rfl ?_
  rw [Option.any_eq_true]
  constructor
  · rintro ⟨root, hroot, hne⟩
    obtain ⟨value, hvalue, rfl⟩ := Option.map_eq_some_iff.1 hroot
    exact ⟨value, hvalue, Bool.not_eq_true' _ ▸ hne⟩
  · rintro ⟨value, hvalue, hne⟩
    exact ⟨⟨value⟩, Option.map_eq_some_iff.2 ⟨value, hvalue, rfl⟩, Bool.not_eq_true' _ ▸ hne⟩

theorem inScope_of_mem_candidates {containers : List PodmanPsContainer} {gitRoot : Utf8Path}
    {containerScope : ContainerDiscoveryScope}
    {candidate : PodmanPsContainer × AgentboxContainerKind}
    (h : candidate ∈ candidates containers (.forGitRoot gitRoot) containerScope) :
    candidate.1 ∈ containers ∧ inScope containerScope gitRoot candidate.1 = true := by
  obtain ⟨hmem, hcand, hscope⟩ := mem_candidates h
  refine ⟨hmem, ?_⟩
  rw [inScope, ← isSome_psCandidate, hcand, ← shouldInspect_forGitRoot, hscope]
  rfl

theorem mem_candidates_of_inScope {containers : List PodmanPsContainer} {gitRoot : Utf8Path}
    {containerScope : ContainerDiscoveryScope} {container : PodmanPsContainer}
    (hmem : container ∈ containers) (h : inScope containerScope gitRoot container = true) :
    ∃ kind, (container, kind) ∈ candidates containers (.forGitRoot gitRoot) containerScope := by
  rw [inScope, ← isSome_psCandidate, ← shouldInspect_forGitRoot, Bool.and_eq_true] at h
  obtain ⟨⟨c, kind⟩, hcand⟩ := Option.isSome_iff_exists.1 h.1
  have hc : c = container := psCandidate_eq_some hcand
  subst hc
  exact ⟨kind, List.mem_filter.2 ⟨List.mem_filterMap.2 ⟨_, hmem, hcand⟩, h.2⟩⟩

/-- The labels that an inspection shows are those of the listing. -/
def SameLabels (inspect : InspectFn) (container : PodmanPsContainer) : Prop :=
  ∀ i, inspect container.id = .ok i → i.labels = container.labels

section
variable {containers : List PodmanPsContainer} {gitRoot : Utf8Path}
  {containerScope : ContainerDiscoveryScope}

/-- What a discovery for one root inspects. -/
theorem inScope_of_inspected {id : String}
    (h : id ∈ inspectedIds containers (.forGitRoot gitRoot) containerScope inspect probe) :
    ∃ container ∈ containers, inScope containerScope gitRoot container = true ∧
      container.id = id := by
  obtain ⟨candidate, hmem, hid⟩ := inspectedIds_subset h
  obtain ⟨hin, hscope⟩ := inScope_of_mem_candidates hmem
  exact ⟨_, hin, hscope, hid⟩

/-- Containers out of scope, and inspections of them, do not matter. -/
theorem discovered_congr {containers' : List PodmanPsContainer}
    (hc : containers'.filter (inScope containerScope gitRoot) =
      containers.filter (inScope containerScope gitRoot))
    (hi : ∀ container ∈ containers, inScope containerScope gitRoot container = true →
      inspect' container.id = inspect container.id) :
    discovered containers' (.forGitRoot gitRoot) containerScope inspect' probe =
      discovered containers (.forGitRoot gitRoot) containerScope inspect probe := by
  rw [discovered_eq, discovered_eq, candidates_forGitRoot, hc, ← candidates_forGitRoot]
  rw [recordsOf_congr fun candidate h =>
    hi _ (inScope_of_mem_candidates h).1 (inScope_of_mem_candidates h).2]

/-- When the inspections in scope succeed, the result is an error exactly on a collision. -/
theorem discovered_error_iff
    (hsame : ∀ container ∈ containers, SameLabels inspect container)
    (hok : ∀ container ∈ containers, inScope containerScope gitRoot container = true →
      ∃ i, inspect container.id = .ok i) :
    (∃ e, discovered containers (.forGitRoot gitRoot) containerScope inspect probe = .error e) ↔
      ∃ container ∈ containers, inScope containerScope gitRoot container = true ∧
        collidesWith gitRoot container := by
  obtain ⟨records, hrecords⟩ := @recordsOf_isOk inspect probe
    (candidates containers (.forGitRoot gitRoot) containerScope) fun candidate h =>
      hok _ (inScope_of_mem_candidates h).1 (inScope_of_mem_candidates h).2
  have hany : records.any (collides gitRoot) = true ↔ ∃ container ∈ containers,
      inScope containerScope gitRoot container = true ∧ collidesWith gitRoot container := by
    rw [List.any_eq_true]
    constructor
    · rintro ⟨r, hr, hcol⟩
      obtain ⟨candidate, hmem, i, hi, rfl⟩ := (mem_recordsOf hrecords).1 hr
      obtain ⟨hin, hscope⟩ := inScope_of_mem_candidates hmem
      exact ⟨_, hin, hscope, (collides_build (hsame _ hin i hi)).1 hcol⟩
    · rintro ⟨c, hin, hscope, hcol⟩
      obtain ⟨kind, hmem⟩ := mem_candidates_of_inScope hin hscope
      obtain ⟨i, hi⟩ := hok c hin hscope
      exact ⟨_, (mem_recordsOf hrecords).2 ⟨_, hmem, i, hi, rfl⟩,
        (collides_build (hsame c hin i hi)).2 hcol⟩
  rw [discovered_eq, hrecords, ← hany]
  obtain ⟨herr, hok'⟩ := collected_gitRoot gitRoot records
  constructor
  · rintro ⟨e, he⟩
    by_contra hno
    rw [Except.bind, hok' (Bool.not_eq_true _ ▸ hno)] at he
    cases he
  · intro h
    obtain ⟨roots, he⟩ := herr h
    exact ⟨_, he⟩

/-- The root label is in normal spelling, if there is one. -/
def NormalRoot (container : PodmanPsContainer) : Prop :=
  ∀ root, requiredLabelValue container.labels LABEL_GIT_ROOT = some root →
    (⟨root⟩ : Utf8Path).IsNormal

theorem claims_eq (gitRoot : Utf8Path) (r : SessionRecord) :
    claims gitRoot r = (belongs gitRoot r && r.gitRootHash.all (· == gitRootHash12 gitRoot)) := by
  unfold claims belongs
  cases r.gitRootHash with
  | none => simp
  | some hash =>
    have hbeq : (some hash == some (gitRootHash12 gitRoot)) = (hash == gitRootHash12 gitRoot) := rfl
    rw [Option.isNone_some, Bool.false_or, Option.all_some, hbeq]
    cases hash == gitRootHash12 gitRoot <;> simp

/-- When no container in scope collides, the result is the part of the unscoped discovery that
claims the root. -/
theorem discovered_eq_filter (hR : gitRoot.IsNormal)
    (hroots : ∀ container ∈ containers, NormalRoot container)
    (hsame : ∀ container ∈ containers, SameLabels inspect' container)
    (hi : ∀ container ∈ containers, inScope containerScope gitRoot container = true →
      inspect' container.id = inspect container.id)
    (hcol : ∀ container ∈ containers, inScope containerScope gitRoot container = true →
      ¬ collidesWith gitRoot container) {records : List SessionRecord}
    (hall : discovered containers .all containerScope inspect' probe = .ok records) :
    discovered containers (.forGitRoot gitRoot) containerScope inspect probe =
      .ok (records.filter (claims gitRoot)) := by
  have hbase : candidates containers .all containerScope =
      containers.filterMap (psCandidate containerScope) := List.filter_eq_self.2 fun _ _ => rfl
  rw [discovered_eq] at hall
  rcases hrs : recordsOf inspect' probe (candidates containers .all containerScope) with e | rs
  · rw [hrs] at hall
    cases hall
  rw [hrs, Except.bind, collected_all] at hall
  cases hall
  have hmem : ∀ r ∈ rs, ∃ c ∈ containers, ∃ i kind, i.labels = c.labels ∧
      r = buildSessionRecord c i kind probe ∧ (c, kind) ∈ candidates containers .all containerScope ∧
      inspect' c.id = .ok i := by
    intro r hr
    obtain ⟨⟨c, kind⟩, hc, i, hci, rfl⟩ := (mem_recordsOf hrs).1 hr
    have hin := (mem_candidates hc).1
    exact ⟨c, hin, i, kind, hsame c hin i hci, rfl, hc, hci⟩
  have hscoped : recordsOf inspect probe (candidates containers (.forGitRoot gitRoot)
      containerScope) = .ok (rs.filter fun r =>
        r.gitRootHash.all (· == gitRootHash12 gitRoot)) := by
    rw [← @recordsOf_congr inspect inspect' probe _ fun candidate h =>
      hi _ (inScope_of_mem_candidates h).1 (inScope_of_mem_candidates h).2]
    rw [hbase] at hrs
    refine recordsOf_filter hrs fun candidate hc i hci => ?_
    obtain ⟨c, hcin, hcand⟩ := List.mem_filterMap.1 hc
    rw [psCandidate_eq_some hcand] at hci ⊢
    rw [shouldInspect_forGitRoot, ← hsame c hcin i hci]
    rfl
  have hnone : (rs.filter fun r => r.gitRootHash.all (· == gitRootHash12 gitRoot)).any
      (collides gitRoot) = false := by
    rw [List.any_eq_false]
    intro r hr hcolr
    obtain ⟨⟨c, kind⟩, hc, i, hci, rfl⟩ := (mem_recordsOf hscoped).1 hr
    obtain ⟨hin, hscope⟩ := inScope_of_mem_candidates hc
    rw [← hi c hin hscope] at hci
    exact hcol c hin hscope ((collides_build (hsame c hin i hci)).1 hcolr)
  rw [discovered_eq, hscoped, Except.bind, (collected_gitRoot gitRoot _).2 hnone,
    List.filter_filter, List.filter_congr fun r _ => (claims_eq gitRoot r).symm]
  refine congrArg Except.ok (markDuplicateSessions_filter (fun _ => rfl) ?_)
  intro s hs hclaims root hroot s' hs' hroot'
  obtain ⟨c, -, i, kind, -, rfl, -, -⟩ := hmem s hs
  obtain ⟨c', hin', i', kind', hlabels', rfl, -, -⟩ := hmem s' hs'
  obtain ⟨path, hpath, hcomp, -⟩ := gitRootHash_of_countedRoot hroot
  obtain ⟨path', hpath', hcomp', hhash'⟩ := gitRootHash_of_countedRoot hroot'
  have hR' : path'.components = gitRoot.components := by
    rw [hcomp', ← hcomp]
    rw [claims, hpath, some_beq_some] at hclaims
    by_cases hbeq : (path == gitRoot) = true
    · exact Utf8Path.beq_iff.1 hbeq
    · simp [hbeq] at hclaims
  have hnormal : path'.IsNormal := by
    obtain ⟨value, hvalue, rfl⟩ := Option.map_eq_some_iff.1 hpath'
    have hv : requiredLabelValue i'.labels LABEL_GIT_ROOT = some value := hvalue
    exact hroots c' hin' value (hlabels' ▸ hv)
  have heq : path' = gitRoot := Utf8Path.eq_of_beq hnormal hR (Utf8Path.beq_iff.2 hR')
  rw [claims, hpath', hhash', heq, some_beq_some]
  simp

end

/-- **Scoped discovery is a filter of unscoped discovery.** -/
theorem scopedDiscovery (containers : List PodmanPsContainer) (inspect : InspectFn)
    (probe : GitRootProbe) (gitRoot : Utf8Path) (containerScope : ContainerDiscoveryScope)
    (hR : gitRoot.IsNormal) (hroots : ∀ container ∈ containers, NormalRoot container)
    (hsame : ∀ container ∈ containers, SameLabels inspect container) :
    -- the inspected containers
    (∀ id ∈ inspectedIds containers (.forGitRoot gitRoot) containerScope inspect probe,
      ∃ container ∈ containers, inScope containerScope gitRoot container = true ∧
        container.id = id) ∧
    -- the containers that do not matter
    (∀ containers' inspect', containers'.filter (inScope containerScope gitRoot) =
        containers.filter (inScope containerScope gitRoot) →
      (∀ container ∈ containers, inScope containerScope gitRoot container = true →
        inspect' container.id = inspect container.id) →
      discovered containers' (.forGitRoot gitRoot) containerScope inspect' probe =
        discovered containers (.forGitRoot gitRoot) containerScope inspect probe) ∧
    ((∀ container ∈ containers, inScope containerScope gitRoot container = true →
        ∃ i, inspect container.id = .ok i) →
      -- the errors
      ((∃ e, discovered containers (.forGitRoot gitRoot) containerScope inspect probe =
          .error e) ↔
        ∃ container ∈ containers, inScope containerScope gitRoot container = true ∧
          collidesWith gitRoot container) ∧
      -- the records, against any inspection of the other containers
      ((¬ ∃ container ∈ containers, inScope containerScope gitRoot container = true ∧
          collidesWith gitRoot container) →
        ∀ inspect', (∀ container ∈ containers, SameLabels inspect' container) →
          (∀ container ∈ containers, inScope containerScope gitRoot container = true →
            inspect' container.id = inspect container.id) →
          ∀ records, discovered containers .all containerScope inspect' probe = .ok records →
            discovered containers (.forGitRoot gitRoot) containerScope inspect probe =
              .ok (records.filter (claims gitRoot)))) := by
  refine ⟨fun id => inScope_of_inspected, fun containers' inspect' => discovered_congr,
    fun hok => ⟨discovered_error_iff hsame hok, fun hcol inspect' hsame' hi records hall => ?_⟩⟩
  exact discovered_eq_filter hR hroots hsame' hi
    (fun c hc hscope h => hcol ⟨c, hc, hscope, h⟩) hall

def demoRoot : Utf8Path := ⟨"/workspace/demo"⟩

def demoProbe : GitRootProbe where
  canonicalize path := some path
  isDirectory _ := true
  hasGitMarker _ := true
  revParseShowToplevel path := some path

def demoLabels : LabelMap :=
  .ofList [(LABEL_MANAGED, LABEL_MANAGED_VALUE), (LABEL_GIT_ROOT, demoRoot.asStr)]

/-- A container without a hash label. -/
def unhashedContainer : PodmanPsContainer := ⟨"unhashed", none, demoLabels⟩

/-- A container that advertises another hash. -/
def driftedContainer : PodmanPsContainer :=
  ⟨"drifted", none, demoLabels.insert LABEL_GIT_ROOT_HASH "drift"⟩

/-- Only the container without a hash label can be inspected. -/
def demoInspect : InspectFn := fun id =>
  if id = "unhashed" then .ok ⟨true, demoLabels, [], ∅⟩ else .error (.msg "no such container")

theorem normalRoot_demo : ∀ container ∈ [unhashedContainer, driftedContainer],
    NormalRoot container := by
  intro c hc root hroot
  have hvalue : requiredLabelValue c.labels LABEL_GIT_ROOT = some "/workspace/demo" := by
    rcases List.mem_pair.1 hc with rfl | rfl <;> decide
  rw [hvalue] at hroot
  cases hroot
  decide

theorem sameLabels_demo : ∀ container ∈ [unhashedContainer, driftedContainer],
    SameLabels demoInspect container := by
  intro c hc i hi
  rcases List.mem_pair.1 hc with rfl | rfl
  · cases hi
    rfl
  · cases hi

theorem inScope_demo : ∀ container ∈ [unhashedContainer, driftedContainer],
    inScope .agentboxOwned demoRoot container = true → container = unhashedContainer := by
  intro c hc h
  rcases List.mem_pair.1 hc with rfl | rfl
  · rfl
  · have hdrift : inScope .agentboxOwned demoRoot driftedContainer = false := by decide +kernel
    rw [hdrift] at h
    cases h

/-- The container that drifted cannot be inspected, and the discovery does not fail for it. -/
theorem scopedDiscovery_demo : ¬ ∃ e, discovered [unhashedContainer, driftedContainer]
    (.forGitRoot demoRoot) .agentboxOwned demoInspect demoProbe = .error e := by
  obtain ⟨-, -, h⟩ := scopedDiscovery [unhashedContainer, driftedContainer] demoInspect demoProbe
    demoRoot .agentboxOwned (by decide) normalRoot_demo sameLabels_demo
  rw [(h fun c hc hscope => inScope_demo c hc hscope ▸ ⟨_, rfl⟩).1]
  rintro ⟨c, hc, hscope, hhash, -⟩
  rw [inScope_demo c hc hscope] at hhash
  revert hhash
  decide

end Agentbox.Session.ScopedDiscovery
