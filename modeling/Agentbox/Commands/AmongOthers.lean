import Agentbox.Commands.LockProtocol
import Agentbox.Commands.SingleServer
import Agentbox.Session.Staggered

/-! # A command among others

A command whose calls are answered at different times, while others stop and remove containers and
start servers of other roots. A discovery lists the containers and inspects them one after the
other, and what it finds may have changed by then. Even so a server is started only where what the
command may not start it beside is gone, as long as nobody else starts a server of the root whose
lock is held. -/

namespace Agentbox.Commands.AmongOthers

open Agentbox.Base.Path Agentbox.Base.Errors Agentbox.Config.Limits Agentbox.Files.Snapshot
  Agentbox.Lib.Program Agentbox.Lib.Transition Agentbox.Metadata.Labels Agentbox.Podman.Model
  Agentbox.Podman.State Agentbox.Runtime.Kind Agentbox.Runtime.Spec Agentbox.Workspace.Identity
  Agentbox.Session.Record Agentbox.Session.Discovery Agentbox.Session.Collected
  Agentbox.Session.ScopedDiscovery Agentbox.Session.Views Agentbox.Session.Claimants
  Agentbox.Session.Selection Agentbox.Session.Restartable Agentbox.Session.Target
  Agentbox.Session.TargetView Agentbox.Session.RootContainers Agentbox.Session.Staggered
  Agentbox.Commands.HostCalls Agentbox.Commands.WorkspaceFlow Agentbox.Commands.CodexAttachAuth
  Agentbox.Commands.ContainerCleanup Agentbox.Commands.ContainerLaunch
  Agentbox.Commands.DetachedServer Agentbox.Commands.Connect Agentbox.Commands.Start
  Agentbox.Commands.Restart Agentbox.Commands.Stop Agentbox.Commands.LaunchLabels
  Agentbox.Commands.Quiet Agentbox.Commands.World Agentbox.Commands.RestartSafety
  Agentbox.Commands.RoundTrip Agentbox.Commands.SingleServer Agentbox.Commands.LockProtocol

/-! ### Containers over time -/

/-- Podman gives no id twice, and no container has the id of another one as its name. -/
structure Issued (labelsOf : String → Option LabelMap) (s : PodmanState) : Prop where
  own : ∀ c ∈ s.containers, labelsOf c.id = some c.labels
  refs : ∀ c ∈ s.containers, ∀ ref ∈ c.refs, ∀ labels, labelsOf ref = some labels →
    c.labels = labels

/-- What claims the root is what has claimed it before. -/
def NoneNew (root : Utf8Path) (s s' : PodmanState) : Prop :=
  ∀ c' ∈ s'.containers, isClaimant root c' = true → ∃ c ∈ s.containers, c'.listed = c.listed

/-- What is not agentbox stops, removes and changes containers. It starts none of agentbox. -/
def Drifts (s s' : PodmanState) : Prop :=
  ∀ c' ∈ s'.containers, (∃ c ∈ s.containers, c'.listed = c.listed ∧ c'.created = c.created) ∨
    c'.kind = none ∧ c'.created = false

variable {root : Utf8Path} {c c' : PodmanContainer} {s s' s'' : PodmanState}
  {labelsOf : String → Option LabelMap}

theorem isClaimant_eq (h : c'.listed = c.listed) : isClaimant root c' = isClaimant root c :=
  congrArg (fun container : PodmanPsContainer =>
    (agentboxContainerKindFromLabels container.labels).isSome &&
      ((requiredLabelValue container.labels LABEL_GIT_ROOT).map Utf8Path.mk == some root) &&
      (requiredLabelValue container.labels LABEL_GIT_ROOT_HASH).all (· == gitRootHash12 root)) h

theorem NoneNew.refl (root : Utf8Path) (s : PodmanState) : NoneNew root s s :=
  fun c' hc' _ => ⟨c', hc', rfl⟩

theorem NoneNew.trans (h : NoneNew root s s') (h' : NoneNew root s' s'') : NoneNew root s s'' := by
  intro c'' hc'' hclaims
  obtain ⟨c', hc', hlisted'⟩ := h' c'' hc'' hclaims
  obtain ⟨c, hc, hlisted⟩ := h c' hc' (isClaimant_eq hlisted' ▸ hclaims)
  exact ⟨c, hc, hlisted'.trans hlisted⟩

theorem NoneNew.alone (h : NoneNew root s s') (halone : Alone root s) : Alone root s' := by
  intro c' hc'
  by_contra hclaims
  rw [Bool.not_eq_false] at hclaims
  obtain ⟨c, hc, hlisted⟩ := h c' hc' hclaims
  rw [isClaimant_eq hlisted, halone c hc] at hclaims
  cases hclaims

theorem noneNew_of_stops {ref : String} (h : Stops s ref s') : NoneNew root s s' := by
  intro c' hc' _
  obtain hold | ⟨c0, hc0, -, rfl⟩ := h.old c' hc'
  · exact ⟨c', hold, rfl⟩
  · exact ⟨c0, hc0, rfl⟩

theorem noneNew_of_drifts (h : Drifts s s') : NoneNew root s s' := by
  intro c' hc' hclaims
  obtain ⟨c, hc, hlisted, -⟩ | ⟨hkind, -⟩ := h c' hc'
  · exact ⟨c, hc, hlisted⟩
  · rw [isClaimant_iff, hkind] at hclaims
    cases hclaims.1

/-! ### One command -/

/-- What others do between two calls of a command. -/
structure Others (labelsOf : String → Option LabelMap) (w w' : WorldState) : Prop where
  issued : Issued labelsOf w'.podman
  held : w'.held = w.held
  noneNew : ∀ root, root.IsNormal → gitRootDigest64 root ∈ w.held →
    NoneNew root w.podman w'.podman

/-- What a server of the root may be started beside. Only three commands start servers. -/
def MayStartBeside (root : Utf8Path) (s : PodmanState) : SessionCommand → Prop
  | .start _ | .run _ => Alone root s
  | .restart args => ∃ host resolved, args.target.resolve host = .ok resolved ∧
      ∀ c ∈ s.containers, isClaimant root c = true → leavesOut resolved c = true
  | .connect _ _ | .stop _ _ | .stopAll => False

/-- A server is started under the lock of its root, beside nothing but what it may be beside. -/
def StartsRight (command : SessionCommand) (w : WorldState) (o : HostOp) : Prop :=
  ∀ name spec, o = .runDetached name spec → ∃ root, gitRootDigest64 root ∈ w.held ∧
    IsServerOf root name spec ∧ MayStartBeside root w.podman command

/-- The lock of the root is held, and what claims the root has claimed it in the state. -/
structure Under (labelsOf : String → Option LabelMap) (root : Utf8Path) (s : PodmanState)
    (w : WorldState) : Prop where
  held : gitRootDigest64 root ∈ w.held
  issued : Issued labelsOf w.podman
  noneNew : root.IsNormal → NoneNew root s w.podman

/-- The call starts no server and leaves the locks. -/
def isCalm : HostOp → Bool
  | .runDetached _ _ | .lockGuard _ | .unlock _ => false
  | _ => true

variable {α β : Type} {command : SessionCommand} {w w' : WorldState} {o : HostOp}

theorem Others.trans {w'' : WorldState} (h : Others labelsOf w w') (h' : Others labelsOf w' w'') :
    Others labelsOf w w'' where
  issued := h'.issued
  held := h'.held.trans h.held
  noneNew root hnormal hheld :=
    (h.noneNew root hnormal hheld).trans (h'.noneNew root hnormal (h.held ▸ hheld))

theorem isCalm_of_keepsContainers : ∀ {o : HostOp}, keepsContainers o = true → isCalm o = true
  | o, h => by cases o <;> first | rfl | cases h

theorem isCalm_of_isQuiet (h : isQuiet o = true) : isCalm o = true :=
  isCalm_of_keepsContainers (keepsContainers_of_isQuiet h)

theorem startsRight_of_not_launches (h : launches o = false) : StartsRight command w o := by
  rintro name spec rfl
  cases h

theorem startsRight_of_isCalm (h : isCalm o = true) : StartsRight command w o := by
  rintro name spec rfl
  cases h

theorem serves_calm {r : o.Ret} (ho : isCalm o = true) (h : serves w o r w') :
    w'.held = w.held ∧ NoneNew root w.podman w'.podman := by
  by_cases hkeeps : keepsContainers o = true
  · obtain ⟨hpodman, -, hheld⟩ := serves_keepsContainers hkeeps h
    exact ⟨hheld, hpodman ▸ NoneNew.refl root _⟩
  · cases o with
    | stopIgnore name =>
      obtain ⟨s, hstops, rfl⟩ := h
      exact ⟨rfl, noneNew_of_stops hstops⟩
    | runDetached _ _ | lockGuard _ | unlock _ => cases ho
    | _ => exact absurd rfl hkeeps

theorem Under.step (hw : Under labelsOf root s w) {r : o.Ret} (ho : isCalm o = true)
    (h : (worldMachine (Others labelsOf)).step w o r w') : Under labelsOf root s w' := by
  obtain ⟨w1, hserves, hothers⟩ := h
  obtain ⟨hheld, hnone⟩ := @serves_calm root w w1 o r ho hserves
  have hmem : gitRootDigest64 root ∈ w1.held := hheld ▸ hw.held
  exact ⟨hothers.held ▸ hmem, hothers.issued, fun hnormal =>
    ((hw.noneNew hnormal).trans hnone).trans (hothers.noneNew root hnormal hmem)⟩

/-- The state that a later state is compared with may be any on the way. -/
theorem Under.here (hw : Under labelsOf root s w) : Under labelsOf root w.podman w :=
  ⟨hw.held, hw.issued, fun _ => .refl root _⟩

/-- What is calm keeps what is known of the root. -/
theorem wp_calm {p : Command α} {R : Except Error α → Prop}
    (hp : Always (S := HostOps) (fun o => isCalm o = true) R p) (hw : Under labelsOf root s w) :
    wp (worldMachine (Others labelsOf)) (StartsRight command) p
      (fun r w' => R r ∧ Under labelsOf root s w') w :=
  wp_of_always (A := fun o : HostOps.Op => isCalm o = true)
    (fun _ _ ho _ => startsRight_of_isCalm ho) (fun _ _ _ _ ho hw hstep => hw.step ho hstep) hp hw

theorem wp_startsNone {p : Command α} {R : Except Error α → Prop}
    (hp : Always (S := HostOps) (fun o => launches o = false) R p) :
    wp (worldMachine (Others labelsOf)) (StartsRight command) p (fun r _ => R r) w :=
  wp_mono (wp_of_always (A := fun o : HostOps.Op => launches o = false) (I := fun _ => True)
    (fun _ _ ho _ => startsRight_of_not_launches ho) (fun _ _ _ _ _ _ _ => trivial) hp trivial)
    fun _ _ h => h.1

/-- A part that is calm, and what goes on with its result. -/
theorem wp_calm_bind {p : Command α} {f : α → Command β} {R : Except Error α → Prop}
    (hp : Always (S := HostOps) (fun o => isCalm o = true) R p) (hw : Under labelsOf root s w)
    (hf : ∀ a w1, R (.ok a) → Under labelsOf root s w1 →
      wp (worldMachine (Others labelsOf)) (StartsRight command) (f a) (fun _ _ => True) w1) :
    wp (worldMachine (Others labelsOf)) (StartsRight command) (p.bind f) (fun _ _ => True) w := by
  refine (wp_bind _ _ _ _).2 (wp_mono (wp_calm hp hw) ?_)
  rintro (e | a) w1 ⟨hR, hw1⟩
  · trivial
  · exact hf a w1 hR hw1

/-- The rule of a lock. -/
theorem wp_underLock {operation : Command α}
    (hop : ∀ w1, Under labelsOf root w1.podman w1 →
      wp (worldMachine (Others labelsOf)) (StartsRight command) operation (fun _ _ => True) w1) :
    wp (worldMachine (Others labelsOf)) (StartsRight command)
      (withGuard (gitRootDigest64 root) operation) (fun _ _ => True) w := by
  refine wp_withGuard (startsRight_of_not_launches rfl) (fun _ _ _ => trivial) fun w1 hstep => ?_
  obtain ⟨w2, ⟨⟨_, he⟩, -⟩ | ⟨-, rfl⟩, hothers⟩ := hstep
  · cases he
  have hheld : gitRootDigest64 root ∈ w1.held := hothers.held ▸ List.mem_cons_self
  exact wp_mono (hop w1 ⟨hheld, hothers.issued, fun _ => .refl root _⟩) fun _ _ _ =>
    ⟨startsRight_of_not_launches rfl, fun _ _ => trivial⟩

/-! ### Discovery -/

/-- Every inspection by an id shows the labels of the id. -/
def ShowsLabels (labelsOf : String → Option LabelMap) (inspect : InspectFn) : Prop :=
  ∀ id i, inspect id = .ok i → ∀ labels, labelsOf id = some labels → i.labels = labels

theorem wp_inspectAll_staggered (probe : GitRootProbe) : ∀ (l : List (PodmanPsContainer ×
    AgentboxContainerKind)) (w : WorldState), (l.map fun candidate => candidate.1.id).Nodup →
      Under labelsOf root s w →
      wp (worldMachine (Others labelsOf)) (StartsRight command) (inspectAll inspectOne probe l)
        (fun r w' => Under labelsOf root s w' ∧ Tells r fun records =>
          ∃ inspect, ShowsLabels labelsOf inspect ∧ recordsOf inspect probe l = .ok records) w
  | [], w, _, hw => ⟨hw, tells_ok ⟨fun id => .error (.msg id), fun _ _ h => (by cases h), rfl⟩⟩
  | (container, kind) :: l, w, hnodup, hw => by
    obtain ⟨hid, hnodup⟩ := List.nodup_cons.1 hnodup
    refine ⟨startsRight_of_not_launches rfl, fun r w1 hstep => ?_⟩
    have hw1 := hw.step rfl hstep
    obtain ⟨w2, hserves, -⟩ := hstep
    rcases r with e | i
    · exact ⟨hw1, fun _ h => (by cases h)⟩
    change wp _ _ ((inspectAll inspectOne probe l).bind _) _ w1
    refine (wp_bind _ _ _ _).2 (wp_mono (wp_inspectAll_staggered probe l w1 hnodup hw1) ?_)
    rintro (e | records) w3 ⟨hw3, hrecords⟩
    · exact ⟨hw3, fun _ h => (by cases h)⟩
    obtain ⟨inspect, hlabels, hrecords⟩ := hrecords records rfl
    refine ⟨hw3, tells_ok ⟨Function.update inspect container.id (.ok i), fun id i' hi' => ?_, ?_⟩⟩
    · by_cases hsame : id = container.id
      · subst hsame
        rw [Function.update_self] at hi'
        obtain rfl := Except.ok.inj hi'
        have hone : w.podman.inspectOne container.id = .ok i := hserves.1 i rfl
        unfold PodmanState.inspectOne at hone
        split at hone
        · next c hfind =>
          obtain rfl := Except.ok.inj hone
          obtain ⟨hc, href⟩ := PodmanState.find_eq_some.1 hfind
          exact hw.issued.refs c hc _ href
        · cases hone
      · rw [Function.update_of_ne hsame] at hi'
        exact hlabels id i' hi'
    · have hrest : recordsOf (Function.update inspect container.id (.ok i)) probe l =
          .ok records := by
        rw [← hrecords]
        refine recordsOf_congr fun candidate hcandidate =>
          Function.update_of_ne (fun hsame => ?_) _ _
        exact hid (List.mem_map.2 ⟨candidate, hcandidate, hsame⟩)
      rw [recordsOf, Function.update_self, hrest]

theorem nodup_candidates (s : PodmanState) (scope : SessionDiscoveryScope)
    (containerScope : ContainerDiscoveryScope) :
    ((candidates (s.listing (listsManagedOnly containerScope)) scope containerScope).map
      fun candidate => candidate.1.id).Nodup := by
  rw [candidates_listing, List.map_map]
  refine (List.nodup_map_iff_inj_on (List.Nodup.of_map _
    (nodup_inspectedContainers s scope containerScope))).2 fun p hp q hq hid => ?_
  obtain ⟨hpc, -, hpkind⟩ := mem_inspectedContainers.1 hp
  obtain ⟨hqc, -, hqkind⟩ := mem_inspectedContainers.1 hq
  have hsame : p.1 = q.1 := by
    have hid : p.1.id = q.1.id := hid
    exact PodmanState.eq_of_mem_refs hpc hqc p.1.id_mem_refs (hid ▸ q.1.id_mem_refs)
  rw [hsame, hqkind] at hpkind
  exact Prod.ext hsame (Option.some.inj hpkind).symm

/-- What a discovery found: the view of a state whose containers are those of the listing. -/
def Found (s : PodmanState) (scope : SessionDiscoveryScope)
    (containerScope : ContainerDiscoveryScope) (sessions : List SessionRecord) : Prop :=
  ∃ probe inspect, view probe (seenState s inspect) scope containerScope = .ok sessions

/-- **The rule of a discovery.** -/
theorem wp_discover_staggered (scope : SessionDiscoveryScope)
    (containerScope : ContainerDiscoveryScope) (hw : Under labelsOf root s w) :
    wp (worldMachine (Others labelsOf)) (StartsRight command) (discover scope containerScope)
      (fun r w' => Tells r fun sessions => ∃ s1, Under labelsOf root s1 w' ∧
        Found s1 scope containerScope sessions) w := by
  refine ⟨startsRight_of_not_launches rfl, fun r w1 hstep => ?_⟩
  have hw1 := hw.here.step rfl hstep
  obtain ⟨w2, hserves, -⟩ := hstep
  rcases r with e | containers
  · exact fun _ h => (by cases h)
  have hlist : containers = w.podman.listing (listsManagedOnly containerScope) :=
    hserves.1 containers rfl
  subst hlist
  refine ⟨startsRight_of_not_launches rfl, fun host w3 hstep => ?_⟩
  have hw3 := hw1.step rfl hstep
  change wp _ _ (discoverSessionsFromPs _ scope containerScope inspectOne host.gitRootProbe) _ w3
  rw [discoverSessionsFromPs_eq]
  refine (wp_bind _ _ _ _).2 (wp_mono
    (wp_inspectAll_staggered _ _ w3 (nodup_candidates _ _ _) hw3) ?_)
  rintro (e | records) w4 ⟨hw4, hrecords⟩
  · exact fun _ h => (by cases h)
  obtain ⟨inspect, hlabels, hrecords⟩ := hrecords records rfl
  refine (wp_ofExcept _ _).2 fun sessions hsessions => ⟨w.podman, hw4, host.gitRootProbe, inspect,
    view_of_discovered (fun c hc i hi => hlabels c.id i hi _ (hw.issued.own c hc)) ?_⟩
  rw [discovered_eq, hrecords]
  exact hsessions

/-! ### Start and run -/

theorem alone_of_seenState {inspect : InspectFn} (h : Alone root (seenState s inspect)) :
    Alone root s := by
  intro c hc
  obtain ⟨c1, hc1, hlisted⟩ := @exists_mem_seenState s inspect c hc
  rw [← isClaimant_eq hlisted]
  exact h c1 hc1

/-- What is required to be absent is absent from then on. -/
theorem wp_ensureAbsent_staggered {workspace : WorkspaceIdentity}
    (hnormal : workspace.canonicalGitRoot.IsNormal)
    (hw : Under labelsOf workspace.canonicalGitRoot s w) :
    wp (worldMachine (Others labelsOf)) (StartsRight command)
      (ensureRequiredResourcesAbsent workspace (.requireAbsent .agentboxContainers))
      (fun r w' => Tells r fun _ => Under labelsOf workspace.canonicalGitRoot w'.podman w' ∧
        Alone workspace.canonicalGitRoot w'.podman) w := by
  refine (wp_bind _ _ _ _).2 (wp_mono (wp_discover_staggered _ _ hw) ?_)
  rintro (e | sessions) w1 htells
  · exact fun _ h => (by cases h)
  obtain ⟨s1, hw1, probe, inspect, hview⟩ := htells sessions rfl
  refine (wp_bind _ _ _ _).2 ((wp_ofExcept _ _).2 ?_)
  rcases hselect : selectExistingResource sessions workspace .agentboxContainers with e | found
  · exact fun _ h => (by cases h)
  rcases found with _ | session
  · have hnil : sessions = [] := by
      unfold selectExistingResource at hselect
      split at hselect
      · rfl
      · cases hselect
      · rw [if_pos rfl] at hselect
        cases hselect
    subst hnil
    have halone : Alone workspace.canonicalGitRoot s1 := alone_of_seenState (alone_of_view hview)
    exact tells_ok ⟨hw1.here, (hw1.noneNew hnormal).alone halone⟩
  · refine (wp_bind _ _ _ _).2 (wp_mono (wp_startsNone (R := fun _ => True) (startsNone_of_isQuiet
      (reading_existingSessionError workspace session).quiet)) ?_)
    rintro (e | error) w3 -
    · exact fun _ h => (by cases h)
    · exact fun _ h => (by cases h)

/-- A launch that a command makes once, when the root is as it should be. -/
theorem wp_launchesOnce_staggered {p : Command α} {commandName name : String}
    {spec : RuntimeRunSpec}
    (hp : LaunchesOnce (fun o => launches o = false) commandName name spec p)
    (hserver : IsServerOf root name spec) (hw : Under labelsOf root s w)
    (hbeside : ∀ s', NoneNew root s s' → MayStartBeside root s' command) :
    wp (worldMachine (Others labelsOf)) (StartsRight command) p (fun _ _ => True) w := by
  have hnormal : root.IsNormal := by
    obtain ⟨request, hresolved, rfl, -⟩ := hserver
    exact hresolved.gitRoot_isNormal
  obtain ⟨k, rfl, hk⟩ := hp
  refine wp_calm_bind (R := fun _ => True) (p := installInterrupt commandName)
    ⟨rfl, only_ofExcept⟩ hw fun _ w1 _ hw1 => ?_
  refine (wp_bind _ _ _ _).2 ((wp_attempt _ _ _).2 ⟨?_, fun r w2 _ => (wp_ofExcept _ _).2
    (wp_startsNone (R := fun _ => True) (hk r))⟩)
  rintro name' spec' ⟨⟩
  exact ⟨root, hw1.held, hserver, hbeside _ (hw1.noneNew hnormal)⟩

/-- **The rule of a launch that requires absence.** -/
theorem wp_fresh (request : RuntimeLaunchRequest) {f : RuntimeLaunchPreparation → Command Unit}
    (hresolved : IsResolved request.workspace) (hmode : request.policy.runMode ≠ .foreground)
    (hcheck : request.policy.existingCheck = .requireAbsent .agentboxContainers)
    (hw : Under labelsOf request.workspace.canonicalGitRoot s w)
    (hf : ∀ preparation w1,
      IsServerOf request.workspace.canonicalGitRoot request.workspace.containerName
        preparation.runSpec → Under labelsOf request.workspace.canonicalGitRoot w1.podman w1 →
      Alone request.workspace.canonicalGitRoot w1.podman →
      wp (worldMachine (Others labelsOf)) (StartsRight command) (f preparation)
        (fun _ _ => True) w1) :
    wp (worldMachine (Others labelsOf)) (StartsRight command)
      ((prepareRuntimeLaunch request).bind f) (fun _ _ => True) w := by
  have hprepare : wp (worldMachine (Others labelsOf)) (StartsRight command)
      (prepareRuntimeLaunch request) (fun r w' => Tells r fun _ =>
        Under labelsOf request.workspace.canonicalGitRoot w'.podman w' ∧
          Alone request.workspace.canonicalGitRoot w'.podman) w := by
    obtain ⟨rest, heq, hrest⟩ := prepareRuntimeLaunch_eq request
    rw [heq, hcheck]
    refine (wp_bind _ _ _ _).2 (wp_mono (wp_calm (R := fun _ => True)
      (p := checkHostPrerequisites request.runtime request.policy.runMode)
      ⟨rfl, only_ofExcept⟩ hw) ?_)
    rintro (e | preflight) w1 ⟨-, hw1⟩
    · exact fun _ h => (by cases h)
    refine (wp_bind _ _ _ _).2 (wp_mono
      (wp_ensureAbsent_staggered hresolved.gitRoot_isNormal hw1) ?_)
    rintro (e | u) w2 htells
    · exact fun _ h => (by cases h)
    obtain ⟨hw2, halone⟩ := htells u rfl
    refine wp_mono (wp_calm (R := fun _ => True) (Only.weaken (hrest preflight) fun _ =>
      isCalm_of_keepsContainers) hw2) ?_
    rintro r w3 ⟨-, hw3⟩ preparation -
    exact ⟨hw3.here, (hw3.noneNew hresolved.gitRoot_isNormal).alone halone⟩
  refine (wp_bind _ _ _ _).2 (wp_mono (wp_and_always hprepare (isPrepared_always request)) ?_)
  rintro (e | preparation) w1 ⟨htells, hprepared⟩
  · trivial
  obtain ⟨hw1, halone⟩ := htells preparation rfl
  exact hf preparation w1 (isServerOf_of_isPrepared hresolved hmode (hprepared preparation rfl))
    hw1 halone

theorem wp_startLocked_staggered {args : StartArgs} {limits : ResourceLimits}
    {workspace : WorkspaceIdentity} (hresolved : IsResolved workspace)
    (hw : Under labelsOf workspace.canonicalGitRoot s w) :
    wp (worldMachine (Others labelsOf)) (StartsRight (.start args))
      (startLocked args limits workspace) (fun _ _ => True) w := by
  refine wp_fresh (managedServerLaunchRequest workspace args.runtime args.devEnv args.connect
    args.agentArgs limits) hresolved
    (show RuntimeRunMode.managedSession ≠ .foreground by decide) rfl hw
    fun preparation w1 hserver hw1 halone => ?_
  refine wp_calm_bind (R := fun _ => True) (p := volumeExists workspace.containerName)
    ⟨rfl, only_ofExcept⟩ hw1 fun existed w2 _ hw2 => ?_
  exact wp_launchesOnce_staggered (launchesOnce_executeManagedServerLaunch
    (fun _ ho => launches_of_isReading ho) (startsNone_startPolicy existed) _ _) hserver hw2
    fun s' hnone => hnone.alone halone

theorem wp_runLocked_staggered {args : RunArgs} {limits : ResourceLimits}
    {workspace : WorkspaceIdentity} (hresolved : IsResolved workspace)
    (hw : Under labelsOf workspace.canonicalGitRoot s w) :
    wp (worldMachine (Others labelsOf)) (StartsRight (.run args)) (runLocked args limits workspace)
      (fun _ _ => True) w :=
  wp_fresh _ hresolved (show RuntimeRunMode.transientServer ≠ .foreground by decide) rfl hw
    fun _ _ hserver hw1 halone => wp_launchesOnce_staggered
      (launchesOnce_executeTransientRunLaunch _ _) hserver hw1 fun _ hnone => hnone.alone halone

/-! ### Restart -/

/-- The candidate of a restart, among the containers of a listing. -/
def IsCandidateOf (root : Utf8Path) (s : PodmanState) (target : SessionTargetInput)
    (session : SessionRecord) : Prop :=
  ∃ host probe inspect, candidateIn host probe (seenState s inspect) root target = .ok session

theorem wp_matchingSessions_staggered (plan : RestartSessionTargetPlan)
    (hw : Under labelsOf root s w) :
    wp (worldMachine (Others labelsOf)) (StartsRight command)
      (plan.matchingSessions readHost (discoverSessions root) discoverAgentboxContainers root)
      (fun r w' => Tells r fun sessions => ∃ s1 host probe inspect, Under labelsOf root s1 w' ∧
        matchingIn host probe (seenState s1 inspect) root plan.input = .ok sessions) w := by
  refine ⟨startsRight_of_not_launches rfl, fun host w1 hstep => ?_⟩
  have hw1 := hw.step rfl hstep
  change wp _ _ ((Prog.ofExcept (plan.input.resolve host)).bind _) _ w1
  refine (wp_bind _ _ _ _).2 ((wp_ofExcept _ _).2 ?_)
  rcases hresolved : plan.input.resolve host with e | resolved
  · exact fun _ h => (by cases h)
  rcases resolved with gitRoot | gitRoot | idPrefix
  · change wp _ _ ((Prog.ofExcept (requireLockedRestartTargetUnchanged root gitRoot)).bind _) _ w1
    refine (wp_bind _ _ _ _).2 ((wp_ofExcept _ _).2 ?_)
    rcases hsame : requireLockedRestartTargetUnchanged root gitRoot with e | u
    · exact fun _ h => (by cases h)
    refine wp_mono (wp_discover_staggered (.forGitRoot root) .agentboxOwned hw1) ?_
    intro r w2 htells sessions hr
    obtain ⟨s1, hw2, probe, inspect, hview⟩ := htells sessions hr
    exact ⟨s1, host, probe, inspect, hw2, by simp only [matchingIn, hresolved, bind, Except.bind,
      hsame, hview]⟩
  · change wp _ _ ((Prog.ofExcept (requireLockedRestartTargetUnchanged root gitRoot)).bind _) _ w1
    refine (wp_bind _ _ _ _).2 ((wp_ofExcept _ _).2 ?_)
    rcases hsame : requireLockedRestartTargetUnchanged root gitRoot with e | u
    · exact fun _ h => (by cases h)
    change wp _ _ (discoverAgentboxContainers.bind _) _ w1
    refine (wp_bind _ _ _ _).2 (wp_mono (wp_discover_staggered .all .agentboxOwned hw1) ?_)
    rintro (e | sessions) w2 htells
    · exact fun _ h => (by cases h)
    obtain ⟨s1, hw2, probe, inspect, hview⟩ := htells sessions rfl
    rw [view_all] at hview
    refine tells_ok ⟨s1, host, probe, inspect, hw2, ?_⟩
    simp only [matchingIn, hresolved, bind, Except.bind, hsame, Except.ok.inj hview]
    rfl
  · change wp _ _ (discoverAgentboxContainers.bind _) _ w1
    refine (wp_bind _ _ _ _).2 (wp_mono (wp_discover_staggered .all .agentboxOwned hw1) ?_)
    rintro (e | sessions) w2 htells
    · exact fun _ h => (by cases h)
    obtain ⟨s1, hw2, probe, inspect, hview⟩ := htells sessions rfl
    rw [view_all] at hview
    change wp _ _ ((Prog.ofExcept (selectAgentboxStableIdTarget sessions idPrefix)).bind _) _ w2
    refine (wp_bind _ _ _ _).2 ((wp_ofExcept _ _).2 ?_)
    rcases hselection : selectAgentboxStableIdTarget sessions idPrefix with e | selection
    · exact fun _ h => (by cases h)
    change wp _ _ ((Prog.ofExcept (requireStableIdStillMatchesLockedRoot root
      selection.sessions)).bind _) _ w2
    refine (wp_bind _ _ _ _).2 ((wp_ofExcept _ _).2 ?_)
    rcases hstill : requireStableIdStillMatchesLockedRoot root selection.sessions with e | u
    · exact fun _ h => (by cases h)
    refine tells_ok ⟨s1, host, probe, inspect, hw2, ?_⟩
    simp only [matchingIn, hresolved, bind, Except.bind, Except.ok.inj hview, hselection, hstill]
    rfl

theorem wp_selectSessionCandidate_staggered (plan : RestartSessionTargetPlan)
    (hw : Under labelsOf root s w) :
    wp (worldMachine (Others labelsOf)) (StartsRight command)
      (plan.selectSessionCandidate readHost (discoverSessions root) discoverAgentboxContainers root)
      (fun r w' => Tells r fun session => ∃ s1, Under labelsOf root s1 w' ∧
        IsCandidateOf root s1 plan.input session) w := by
  refine (wp_bind _ _ _ _).2 (wp_mono (wp_matchingSessions_staggered plan hw) ?_)
  rintro (e | sessions) w1 htells
  · exact fun _ h => (by cases h)
  obtain ⟨s1, host, probe, inspect, hw1, hmatching⟩ := htells sessions rfl
  exact (wp_ofExcept _ _).2 fun session hsession => ⟨s1, hw1, host, probe, inspect,
    bind_eq_ok.2 ⟨sessions, hmatching, hsession⟩⟩

/-- When the candidate is gone, only what the target leaves out can claim the root. -/
theorem mayStartBeside_of_gone {args : RestartArgs} {session : SessionRecord}
    (hcandidate : IsCandidateOf root s args.target session) (hnone : NoneNew root s s')
    (hgone : s'.find session.containerName = none) (hlater : NoneNew root s' s'') :
    MayStartBeside root s'' (.restart args) := by
  obtain ⟨host, probe, inspect, hcandidate⟩ := hcandidate
  obtain ⟨resolved, hresolved, -, hall⟩ := candidateIn_claimants hcandidate
  refine ⟨host, resolved, hresolved, fun c hc hclaims => ?_⟩
  obtain ⟨c1, hc1, hlisted1⟩ := hlater c hc hclaims
  obtain ⟨c2, hc2, hlisted2⟩ := hnone c1 hc1 (isClaimant_eq hlisted1 ▸ hclaims)
  obtain ⟨c3, hc3, hlisted3⟩ := @exists_mem_seenState s inspect c2 hc2
  have hlisted : c3.listed = c1.listed := hlisted3.trans hlisted2.symm
  have hleaves : leavesOut resolved c3 = leavesOut resolved c := by
    have hlabels : c3.labels = c.labels :=
      congrArg PodmanPsContainer.labels (hlisted.trans hlisted1.symm)
    rcases resolved with gitRoot | gitRoot | idPrefix
    · rfl
    · rfl
    · rw [leavesOut, leavesOut, hlabels]
  by_contra hleft
  rw [Bool.not_eq_true, ← hleaves] at hleft
  have hof := hall c3 hc3 (by rw [isClaimant_eq (hlisted.trans hlisted1.symm), hclaims]) hleft
  -- the candidate has the name of the container, which is still there
  have hrefs : c3.refs = c1.refs := congrArg (fun container : PodmanPsContainer =>
    container.id :: container.names.getD []) hlisted
  refine PodmanState.find_eq_none.1 hgone c1 hc1 ?_
  rw [hof.containerName_eq, ← hrefs]
  exact c3.containerName_mem_refs

theorem wp_stopExistingSession_staggered {session : SessionRecord} (hw : Under labelsOf root s w) :
    wp (worldMachine (Others labelsOf)) (StartsRight command) (stopExistingSession session)
      (fun r w' => Tells r fun _ => ∃ s1, (root.IsNormal → NoneNew root s s1) ∧
        s1.find session.containerName = none ∧ Under labelsOf root s1 w') w := by
  refine (wp_bind _ _ _ _).2 ((wp_bind _ _ _ _).2 ((wp_attempt _ _ _).2
    ⟨startsRight_of_not_launches rfl, fun stopped w1 hstep => (wp_ofExcept _ _).2 ?_⟩))
  have hw1 := hw.step rfl hstep
  refine (wp_bind _ _ _ _).2 ((wp_attempt _ _ _).2
    ⟨startsRight_of_not_launches rfl, fun found w2 hstep => (wp_ofExcept _ _).2 ?_⟩)
  have hw2 := hw1.here.step rfl hstep
  obtain ⟨w3, hserves, -⟩ := hstep
  rcases found with e | found
  · exact fun _ h => (by cases h)
  rcases found with _ | _
  · refine tells_ok ⟨w1.podman, hw1.noneNew, ?_, hw2⟩
    have hnone : false = (w1.podman.find session.containerName).isSome := hserves.1 false rfl
    rwa [eq_comm, Option.isSome_eq_false_iff, Option.isNone_iff_eq_none] at hnone
  · exact fun _ h => (by cases h)

theorem wp_restartSession_staggered {args : RestartArgs} {session : SessionRecord}
    (hcandidate : IsCandidateOf root s args.target session) (hw : Under labelsOf root s w) :
    wp (worldMachine (Others labelsOf)) (StartsRight (.restart args))
      (restartSession args root session) (fun _ _ => True) w := by
  refine wp_calm_bind (R := fun r => prepareRestartSession args.target.display session = r)
    ((always_ofExcept _ _).2 rfl) hw fun restart w1 hprepare hw1 => ?_
  have hworkspace : Always (S := HostOps) (fun o => isCalm o = true) (fun r => ∀ workspace,
      r = .ok workspace → IsResolved workspace ∧ workspace.canonicalGitRoot = root)
      (restartLaunchWorkspace root restart.session restart.launchDirectory) := by
    refine ⟨rfl, fun host => (always_ofExcept _ _).2 fun workspace h => ?_⟩
    obtain ⟨hresolve, hroot⟩ := restartWorkspaceOf_eq_ok h
    exact ⟨isResolved_of_ok hresolve, hroot⟩
  refine wp_calm_bind hworkspace hw1 fun workspace w2 h hw2 => ?_
  obtain ⟨hresolved, rfl⟩ := h workspace rfl
  refine wp_calm_bind (R := fun _ => True) (Only.weaken (reading_restartResourceLimits _ _).quiet
    fun _ => isCalm_of_isQuiet) hw2 fun limits w3 _ hw3 => ?_
  have hprep := isPrepared_always (replacementServerLaunchRequest workspace restart.runtime
    args.devEnv args.connect restart.serverArgs limits)
  refine wp_calm_bind (always_and (Only.weaken (keepsContainers_prepareRuntimeLaunch _)
    fun _ => isCalm_of_keepsContainers) hprep) hw3 fun preparation w4 hprepared hw4 => ?_
  refine (wp_bind _ _ _ _).2 (wp_mono (wp_stopExistingSession_staggered hw4) ?_)
  rintro (e | u) w5 htells
  · trivial
  obtain ⟨s1, hnone, hgone, hw5⟩ := htells u rfl
  rw [(prepareRestartSession_eq_ok hprepare).1] at hgone
  exact wp_launchesOnce_staggered (launchesOnce_executeManagedServerLaunch
    (fun _ ho => launches_of_isReading ho)
    (startsNone_of_isQuiet (quiet_restartPolicy_checkInterrupted _ _)) _ _)
    (isServerOf_of_isPrepared hresolved
      (show RuntimeRunMode.managedSession ≠ .foreground by decide) (hprepared preparation rfl)) hw5
    fun s' hlater =>
      mayStartBeside_of_gone hcandidate (hnone hresolved.gitRoot_isNormal) hgone hlater

theorem wp_restartLocked_staggered {args : RestartArgs} {plan : RestartSessionTargetPlan}
    (hplan : plan.input = args.target) (hw : Under labelsOf plan.lockGitRoot s w) :
    wp (worldMachine (Others labelsOf)) (StartsRight (.restart args)) (restartLocked args plan)
      (fun _ _ => True) w := by
  refine (wp_bind _ _ _ _).2 (wp_mono (wp_selectSessionCandidate_staggered plan hw) ?_)
  rintro (e | session) w1 htells
  · trivial
  obtain ⟨s1, hw1, hcandidate⟩ := htells session rfl
  exact wp_restartSession_staggered (hplan ▸ hcandidate) hw1

/-! ### The other commands -/

theorem startsNone_withGuard {operation : Command α} (digest64 : String)
    (h : StartsNone operation) : StartsNone (withGuard digest64 operation) := by
  have hlock : StartsNone (lockGuard digest64) := ⟨rfl, only_ofExcept⟩
  have hunlock : StartsNone (unlock digest64) := ⟨rfl, fun _ => only_done _⟩
  exact hlock.bind fun _ => h.attempt.bind fun _ => hunlock.bind fun _ => only_ofExcept _

theorem startsNone_of_isReading {p : Command α} (h : IsReading p) : StartsNone p :=
  startsNone_of_isQuiet h.quiet

theorem startsNone_cleanupManagedContainers : ∀ sessions : List SessionRecord,
    StartsNone (cleanupManagedContainers sessions)
  | [] => only_done _
  | session :: sessions => by
    have hone : StartsNone (cleanupManagedContainer session) := by
      refine .bind (startsNone_stopAndVerify _) fun cleanup => ?_
      split
      · exact only_done _
      · refine .bind (.attempt ?_) fun _ => only_done _
        unfold removeCodexAttachTokenForSession
        split_ifs
        · split
          · exact ⟨rfl, only_ofExcept⟩
          · exact only_done _
        · exact only_done _
    exact hone.bind fun _ =>
      (startsNone_cleanupManagedContainers sessions).bind fun _ => only_done _

theorem startsNone_cleanupRootedSessionGroups (scope : RootedSessionCleanupScope) :
    ∀ groups : List SessionGroup, StartsNone (cleanupRootedSessionGroups scope groups)
  | [] => only_done _
  | group :: groups => by
    have hscope : StartsNone (scope.cleanup group.canonicalGitRoot group.sessions) := by
      unfold RootedSessionCleanupScope.cleanup
      split
      · exact startsNone_cleanupManagedContainers _
      · exact .bind (startsNone_of_isReading (reading_discover _ _)) fun _ =>
          startsNone_cleanupManagedContainers _
    exact (startsNone_withGuard _ hscope).bind fun _ =>
      (startsNone_cleanupRootedSessionGroups scope groups).bind fun _ => only_done _

theorem startsNone_stopTarget (target : SessionTargetInput) (force : Bool) :
    StartsNone (stopTarget target force) := by
  refine .bind (startsNone_of_isReading (reading_resolveStop target)) fun plan => ?_
  split
  · refine .bind (startsNone_withGuard _ ?_) fun failures => only_ofExcept _
    unfold stopExactGitRootLocked
    simp only
    split_ifs
    · exact .bind (startsNone_of_isReading (reading_discover _ _)) fun _ => .bind (only_ofExcept _)
        fun _ => .bind (only_ofExcept _) fun _ => startsNone_cleanupManagedContainers _
    · exact .bind (startsNone_of_isReading (reading_discover _ _)) fun _ => .bind (only_ofExcept _)
        fun _ => .bind (only_ofExcept _) fun _ => startsNone_cleanupManagedContainers _
  · exact .bind (only_ofExcept _) fun _ =>
      .bind (startsNone_cleanupRootedSessionGroups _ _) fun _ => only_ofExcept _

theorem startsNone_stopEachTarget (force : Bool) : ∀ targets : List SessionTargetInput,
    StartsNone (stopEachTarget force targets)
  | [] => only_done _
  | target :: targets => by
    refine .bind (startsNone_stopTarget target force).attempt fun result =>
      .bind (startsNone_stopEachTarget force targets) fun failures => ?_
    split
    · exact only_done _
    · exact only_done _

theorem startsNone_stopTargets (targets : List SessionTargetInput) (force : Bool) :
    StartsNone (stopTargets targets force) := by
  unfold stopTargets
  split
  · exact only_done _
  · exact startsNone_stopTarget _ _
  · refine .bind (startsNone_stopEachTarget force _) fun failures => ?_
    split
    · exact only_done _
    · exact only_fail _

theorem startsNone_stopAllRunning : StartsNone stopAllRunning :=
  .bind (startsNone_of_isReading (reading_discover _ _)) fun _ =>
    .bind (.bind (startsNone_cleanupRootedSessionGroups _ _) fun _ =>
      .bind (startsNone_cleanupManagedContainers _) fun _ => only_done _) fun _ => only_ofExcept _

/-! ### Every command -/

theorem wp_startsNone_bind {p : Command α} {f : α → Command β} {R : Except Error α → Prop}
    (hp : Always (S := HostOps) (fun o => launches o = false) R p)
    (hf : ∀ a w1, R (.ok a) →
      wp (worldMachine (Others labelsOf)) (StartsRight command) (f a) (fun _ _ => True) w1) :
    wp (worldMachine (Others labelsOf)) (StartsRight command) (p.bind f) (fun _ _ => True) w := by
  refine (wp_bind _ _ _ _).2 (wp_mono (wp_startsNone hp) ?_)
  rintro (e | a) w1 hR
  · trivial
  · exact hf a w1 hR

theorem wp_lockedWorkspace (directory : OsPath) {operation : WorkspaceIdentity → Command Unit}
    (hop : ∀ workspace w1, IsResolved workspace →
      Under labelsOf workspace.canonicalGitRoot w1.podman w1 →
        wp (worldMachine (Others labelsOf)) (StartsRight command) (operation workspace)
          (fun _ _ => True) w1) :
    wp (worldMachine (Others labelsOf)) (StartsRight command)
      (withLockedWorkspace directory operation) (fun _ _ => True) w := by
  have hresolve : Always (S := HostOps) (fun o => launches o = false)
      (fun r => ∀ workspace, r = .ok workspace → IsResolved workspace)
      (resolveWorkspace directory) :=
    ⟨rfl, fun _ => (always_ofExcept _ _).2 fun _ h => isResolved_of_ok h⟩
  refine wp_startsNone_bind hresolve fun workspace w1 hresolved => ?_
  have hresolved := hresolved workspace rfl
  rw [hresolved.digest64_eq]
  exact wp_underLock fun w2 hw2 => hop workspace w2 hresolved hw2

/-- **Every command starts its server right**, in whatever state it begins. -/
theorem wp_program (command : SessionCommand) (w : WorldState) :
    wp (worldMachine (Others labelsOf)) (StartsRight command) command.program
      (fun _ _ => True) w := by
  cases command with
  | start args =>
    exact wp_startsNone_bind (R := fun _ => True) (startsNone_of_isReading reading_loadConfig)
      fun _ _ _ => wp_lockedWorkspace _ fun _ _ hresolved hw =>
        wp_startLocked_staggered hresolved hw
  | run args =>
    exact wp_startsNone_bind (R := fun _ => True) (startsNone_of_isReading reading_loadConfig)
      fun _ _ _ => wp_lockedWorkspace _ fun _ _ hresolved hw =>
        wp_runLocked_staggered hresolved hw
  | restart args =>
    have hresolve := always_weaken (fun o ho => launches_of_keepsContainers
      (keepsContainers_of_isQuiet ho)) (always_resolveRestart args.target)
    exact wp_startsNone_bind hresolve fun plan _ hplan =>
      wp_underLock fun _ hw => wp_restartLocked_staggered (hplan plan rfl) hw
  | connect directory agentArgs =>
    exact wp_lockedWorkspace _ fun workspace _ _ _ => wp_startsNone (R := fun _ => True)
      (startsNone_of_isReading (reading_connectLocked agentArgs workspace))
  | stop targets force =>
    exact wp_startsNone (R := fun _ => True) (startsNone_stopTargets targets force)
  | stopAll => exact wp_startsNone (R := fun _ => True) startsNone_stopAllRunning

end Agentbox.Commands.AmongOthers
