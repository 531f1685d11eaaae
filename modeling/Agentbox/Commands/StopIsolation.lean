import Agentbox.Commands.StopCompleteness

/-! # Which failures `stop --all` isolates

A pattern of failures says which locks, discoveries, stops and verifications fail, and which
containers stay. With the containers at the start it decides what `stop --all` does: it tries
everything and tells of everything unless a group cannot be locked or looked at again, or a failure
is reported while a container is missed under the lock of its root. -/

namespace Agentbox.Commands.StopIsolation

open Agentbox.Base.Path Agentbox.Base.Errors Agentbox.Files.Snapshot Agentbox.Lib.Program
  Agentbox.Metadata.Labels Agentbox.Podman.Model Agentbox.Podman.State
  Agentbox.Workspace.Identity Agentbox.Session.Record Agentbox.Session.Discovery
  Agentbox.Session.Collected Agentbox.Session.ScopedDiscovery Agentbox.Session.Views
  Agentbox.Session.Claimants Agentbox.Session.RootContainers Agentbox.Session.Selection
  Agentbox.Commands.HostCalls Agentbox.Commands.WorkspaceFlow Agentbox.Commands.ContainerCleanup
  Agentbox.Commands.Stop Agentbox.Commands.Quiet Agentbox.Commands.World
  Agentbox.Commands.Obliging Agentbox.Commands.TransientRun Agentbox.Commands.StopAll
  Agentbox.Commands.StopCompleteness

/-! ### Patterns of failures -/

/-- What fails. `podman ps` and an inspection may fail under the lock of a digest, or under none. -/
structure Failures where
  lock : String → Option Error
  listing : Option String → Option Error
  inspection : Option String → String → Option Error
  stop : String → Option Error
  /-- The container is still there after `podman stop`. -/
  stays : String → Bool
  verification : String → Option Error

def answered {α : Type} (failure : Option Error) (r : Except Error α) : Except Error α :=
  failure.elim r .error

namespace Failures

variable (f : Failures)

/-- The call is answered as the pattern says. -/
def Follows (w : WorldState) : (o : HostOp) → o.Ret → WorldState → Prop
  | .lockGuard digest64, r, _ => r = answered (f.lock digest64) (.ok ())
  | .ps managedOnly, r, _ =>
    r = answered (f.listing w.held.head?) (.ok (w.podman.listing managedOnly))
  | .inspectOne id, r, _ =>
    r = answered (f.inspection w.held.head? id) (w.podman.inspectOne id)
  | .stopIgnore name, r, w' => r = answered (f.stop name) (.ok ()) ∧
    (w'.podman.find name).isSome = (f.stays name && (w.podman.find name).isSome)
  | .containerExists name, r, _ =>
    r = answered (f.verification name) (.ok (w.podman.find name).isSome)
  | _, _, _ => True

/-- The world of a command with these failures, in which nobody else acts. -/
def machine : Machine HostOps WorldState where
  step w o r w' := (worldMachine Eq).step w o r w' ∧ f.Follows w o r w'

/-- The container is gone once the groups of the roots are stopped. -/
def Leaves (roots : List Utf8Path) (c : PodmanContainer) : Prop :=
  IsFound roots c ∧ f.stays c.containerName = false

/-- A group is reached: its lock is given, and the discovery under it is answered and meets no
container that has the hash of the root and another root. The groups before it have been stopped. -/
structure Reaches (s : PodmanState) (earlier : List Utf8Path) (root : Utf8Path) : Prop where
  lock : f.lock (gitRootDigest64 root) = none
  listing : f.listing (some (gitRootDigest64 root)) = none
  inspection : ∀ c ∈ s.containers, ¬ f.Leaves earlier c → c.kind.isSome = true →
    hashAgrees root c = true → f.inspection (some (gitRootDigest64 root)) c.id = none
  alone : ∀ c ∈ s.containers, ¬ f.Leaves earlier c → c.kind.isSome = true →
    ¬ collidesWith root c.listed

/-- The container goes away when it is stopped, and that is verified. -/
def Removes (c : PodmanContainer) : Prop :=
  f.stays c.containerName = false ∧ f.verification c.containerName = none

end Failures

/-- The running containers that `stop --all` discovers. -/
def runningAt (w : WorldState) : List SessionRecord :=
  runningSessions (shown w.host.gitRootProbe w.podman)

/-- **The condition.** Every group is reached. The running containers are all found again under the
lock of their roots, unless all that are found go away. -/
structure Undisturbed (f : Failures) (w : WorldState) : Prop where
  reaches : ∀ before group after,
    (partitionSessionsByGitRoot (runningAt w)).rooted = before ++ group :: after →
      f.Reaches w.podman (before.map SessionGroup.canonicalGitRoot) group.canonicalGitRoot
  found :
    (∀ c ∈ w.podman.containers, isRunningOwned c = true → KeepsGroup w.podman c → f.Removes c) ∨
    ∀ c ∈ w.podman.containers, isRunningOwned c = true → KeepsGroup w.podman c

variable {f : Failures} {w w' : WorldState} {t : List (Event HostOps WorldState)}

theorem exec_world {α : Type} {p : Command α} {res : Except Error α}
    (h : Exec f.machine p w t w' res) : Exec (worldMachine Eq) p w t w' res :=
  h.mono fun _ _ _ _ (hstep : f.machine.step _ _ _ _) => hstep.1

/-! ### Discovery -/

theorem answered_eq_ok {α : Type} {failure : Option Error} {r : Except Error α} {a : α}
    (h : answered failure r = .ok a) : failure = none ∧ r = .ok a := by
  rcases failure with _ | e
  · exact ⟨rfl, h⟩
  · cases h

/-- Inspections that nothing keeps from it succeed. -/
theorem exec_inspectAll (probe : GitRootProbe) : ∀ {l : List (PodmanPsContainer ×
    AgentboxContainerKind)} {w w' : WorldState} {t : List (Event HostOps WorldState)}
    {res : Except Error (List SessionRecord)},
    Exec f.machine (inspectAll inspectOne probe l) w t w' res →
      ((∀ p ∈ l, f.inspection w.held.head? p.1.id = none) →
        res = recordsOf w.podman.inspectOne probe l ∧ w' = w) ∧
      ∀ records, res = .ok records → ∀ p ∈ l, f.inspection w.held.head? p.1.id = none
  | [], w, w', t, res, h => by
    obtain ⟨-, rfl, rfl⟩ := exec_done.1 h
    exact ⟨fun _ => ⟨rfl, rfl⟩, fun _ _ _ hp => absurd hp List.not_mem_nil⟩
  | (container, kind) :: l, w, w', t, res, h => by
    obtain ⟨r, w1, t1, -, ⟨⟨w2, hserves, heq⟩, hfollows⟩, hend⟩ := (exec_call_bind
      (S := HostOps) (o := .inspectOne container.id) fun r => r).1 h
    obtain rfl : w1 = w := heq.symm.trans hserves.2
    obtain ⟨inspect, hinspect, h1⟩ | ⟨e, herror, -, rfl, rfl⟩ := hend
    · have hr : answered (f.inspection w1.held.head? container.id)
          (w1.podman.inspectOne container.id) = .ok inspect := hfollows.symm.trans hinspect
      obtain ⟨hnone, hok⟩ := answered_eq_ok hr
      obtain ⟨e, rfl, h2⟩ | ⟨records, w3, t2, t3, -, h2, h3⟩ := exec_bind.1 h1
      · obtain ⟨hall, -⟩ := exec_inspectAll probe h2
        refine ⟨fun hl => ?_, nofun⟩
        obtain ⟨hrecords, rfl⟩ := hall fun p hp => hl p (List.mem_cons_of_mem _ hp)
        rw [recordsOf, hok, ← hrecords]
        exact ⟨rfl, rfl⟩
      · obtain ⟨hall, hevery⟩ := exec_inspectAll probe h2
        obtain ⟨-, rfl, rfl⟩ := exec_done.1 h3
        refine ⟨fun hl => ?_, fun _ _ => List.forall_mem_cons.2 ⟨hnone, hevery records rfl⟩⟩
        obtain ⟨hrecords, rfl⟩ := hall fun p hp => hl p (List.mem_cons_of_mem _ hp)
        rw [recordsOf, hok, ← hrecords]
        exact ⟨rfl, rfl⟩
    · refine ⟨fun hl => ?_, nofun⟩
      have hr : answered (f.inspection w'.held.head? container.id)
          (w'.podman.inspectOne container.id) = .error e := hfollows.symm.trans herror
      rw [hl _ List.mem_cons_self] at hr
      have hfind : w'.podman.inspectOne container.id = .error e := hr
      rw [recordsOf, hfind]
      exact ⟨rfl, rfl⟩

/-- A discovery is answered. -/
structure Answers (f : Failures) (key : Option String) (s : PodmanState)
    (scope : SessionDiscoveryScope) : Prop where
  listing : f.listing key = none
  inspection : ∀ c ∈ s.containers, isCandidate scope .agentboxOwned c = true →
    f.inspection key c.id = none

/-- A discovery inspects the candidates among the containers. -/
theorem forall_candidates_iff {s : PodmanState} {scope : SessionDiscoveryScope}
    {P : String → Prop} :
    (∀ p ∈ candidates (s.listing (listsManagedOnly .agentboxOwned)) scope .agentboxOwned,
      P p.1.id) ↔ ∀ c ∈ s.containers, isCandidate scope .agentboxOwned c = true → P c.id := by
  rw [candidates_listing]
  constructor
  · intro hall c hc hcandidate
    obtain ⟨kind, hkind⟩ : ∃ kind, c.kind = some kind := by
      rw [isCandidate, Bool.and_eq_true, Option.any_eq_true] at hcandidate
      obtain ⟨⟨kind, hkind, -⟩, -⟩ := hcandidate
      exact ⟨kind, hkind⟩
    exact hall _ (List.mem_map.2
      ⟨(c, kind), mem_inspectedContainers.2 ⟨hc, hcandidate, hkind⟩, rfl⟩)
  · intro hall p hp
    obtain ⟨q, hq, rfl⟩ := List.mem_map.1 hp
    obtain ⟨hc, hcandidate, -⟩ := mem_inspectedContainers.1 hq
    exact hall q.1 hc hcandidate

/-- A discovery returns the view of the containers when it is answered, and fails otherwise. -/
theorem exec_discover_failing {scope : SessionDiscoveryScope}
    {res : Except Error (List SessionRecord)}
    (h : Exec f.machine (discover scope .agentboxOwned) w t w' res) :
    (Answers f w.held.head? w.podman scope →
      res = view w.host.gitRootProbe w.podman scope .agentboxOwned) ∧
    ∀ sessions, res = .ok sessions → Answers f w.held.head? w.podman scope := by
  obtain ⟨r, w1, t1, -, ⟨⟨w2, hserves, heq⟩, hfollows⟩, hend⟩ := (exec_call_bind
    (S := HostOps) (o := .ps false) fun r => r).1 h
  obtain rfl : w1 = w := heq.symm.trans hserves.2
  have hids := @forall_candidates_iff w1.podman scope fun id =>
    f.inspection w1.held.head? id = none
  obtain ⟨containers, hlist, h1⟩ | ⟨e, herror, -, rfl, rfl⟩ := hend
  · have hr : answered (f.listing w1.held.head?) (.ok (w1.podman.listing false)) =
        .ok containers := hfollows.symm.trans hlist
    obtain ⟨hnone, hok⟩ := answered_eq_ok hr
    obtain rfl := Except.ok.inj hok
    obtain ⟨host, w3, t2, -, ⟨⟨w4, ⟨hhost, hw⟩, heq'⟩, -⟩, h2⟩ := exec_call.1 h1
    obtain rfl : w3 = w1 := heq'.symm.trans hw
    obtain rfl : host = w3.host := hhost
    have h3 : Exec f.machine (discoverSessionsFromPs (w3.podman.listing (listsManagedOnly
      .agentboxOwned)) scope .agentboxOwned inspectOne w3.host.gitRootProbe) w3 t2 w' res := h2
    rw [discoverSessionsFromPs_eq] at h3
    obtain ⟨e, rfl, h4⟩ | ⟨records, w5, t3, t4, -, h4, h5⟩ := exec_bind.1 h3
    · refine ⟨fun hanswers => ?_, fun sessions hsessions => ?_⟩
      · obtain ⟨hrecords, -⟩ := (exec_inspectAll _ h4).1 (hids.2 hanswers.inspection)
        rw [← discovered_listing, discovered_eq, ← hrecords]
        rfl
      · cases hsessions
    · obtain ⟨hall, hevery⟩ := exec_inspectAll _ h4
      obtain ⟨-, -, rfl⟩ := exec_ofExcept.1 h5
      have hanswers := hids.1 (hevery records rfl)
      refine ⟨fun _ => ?_, fun _ _ => ⟨hnone, hanswers⟩⟩
      rw [← discovered_listing, discovered_eq, ← (hall (hids.2 hanswers)).1]
      rfl
  · refine ⟨fun hanswers => ?_, fun sessions hsessions => ?_⟩
    · have hr : answered (f.listing w'.held.head?) (.ok (w'.podman.listing false)) = .error e :=
        hfollows.symm.trans herror
      rw [hanswers.listing] at hr
      cases hr
    · cases hsessions

theorem collides_record_iff {probe : GitRootProbe} {c : PodmanContainer}
    {kind : AgentboxContainerKind} {root : Utf8Path} :
    collides root (record probe c kind) = true ↔ collidesWith root c.listed := by
  change ((requiredLabelValue c.labels LABEL_GIT_ROOT_HASH == some (gitRootHash12 root)) &&
    (rootOf c).any fun path => !(path == root)) = true ↔ _
  rw [Bool.and_eq_true, beq_iff_eq, Option.any_eq_true, rootOf]
  refine and_congr Iff.rfl ?_
  simp only [Option.map_eq_some_iff, Bool.not_eq_true']
  constructor
  · rintro ⟨_, ⟨path, hpath, rfl⟩, hne⟩
    exact ⟨path, hpath, hne⟩
  · rintro ⟨path, hpath, hne⟩
    exact ⟨_, ⟨path, hpath, rfl⟩, hne⟩

/-- The view of a root is an error exactly when a container collides with it. -/
theorem view_isOk_iff (probe : GitRootProbe) (s : PodmanState) (root : Utf8Path) :
    (∃ sessions, view probe s (.forGitRoot root) .agentboxOwned = .ok sessions) ↔
      ∀ c ∈ s.containers, c.kind.isSome = true → ¬ collidesWith root c.listed := by
  obtain ⟨herror, hok⟩ := collected_gitRoot root
    (records probe s (.forGitRoot root) .agentboxOwned)
  constructor
  · rintro ⟨sessions, hview⟩ c hc hkind hcollides
    obtain ⟨kind, hsome⟩ := Option.isSome_iff_exists.1 hkind
    have hrecord : record probe c kind ∈ records probe s (.forGitRoot root) .agentboxOwned := by
      refine mem_records.2 ⟨c, kind, hc, ?_, hsome, rfl⟩
      rw [isCandidate_forGitRoot, hkind, hashAgrees]
      rw [show requiredLabelValue c.labels LABEL_GIT_ROOT_HASH = _ from hcollides.1,
        Option.all_some, beq_self_eq_true, Bool.and_true]
    obtain ⟨roots, herror⟩ :=
      herror (List.any_eq_true.2 ⟨_, hrecord, collides_record_iff.2 hcollides⟩)
    rw [view, herror] at hview
    cases hview
  · intro halone
    refine ⟨_, hok (List.any_eq_false.2 fun r hr hcollides => ?_)⟩
    obtain ⟨c, kind, hc, -, hkind, rfl⟩ := mem_records.1 hr
    exact halone c hc (by rw [hkind]; rfl) (collides_record_iff.1 hcollides)

/-! ### Every pattern happens -/

theorem isSome_find_iff {p : PodmanState} {name : String} :
    (p.find name).isSome = true ↔ ∃ c ∈ p.containers, name ∈ c.refs := by
  rw [← Option.ne_none_iff_isSome, Ne, PodmanState.find_eq_none]
  push Not
  rfl

/-- A host on which what the pattern says fails. -/
def Failures.oblige (f : Failures) (w : WorldState) : (o : HostOp) → o.Ret × WorldState
  | .lockGuard digest64 => (answered (f.lock digest64) (.ok ()),
    if (f.lock digest64).isSome then w else { w with held := digest64 :: w.held })
  | .ps managedOnly => (answered (f.listing w.held.head?) (.ok (w.podman.listing managedOnly)), w)
  | .inspectOne id => (answered (f.inspection w.held.head? id) (w.podman.inspectOne id), w)
  | .stopIgnore name => (answered (f.stop name) (.ok ()),
    w.setPodman (if f.stays name then w.podman else removeRef w.podman name))
  | .containerExists name =>
    (answered (f.verification name) (.ok (w.podman.find name).isSome), w)
  | o => Obliging.oblige w o

theorem tells_answered {α : Type} {failure : Option Error} {r : Except Error α} {P : α → Prop}
    (h : Tells r P) : Tells (answered failure r) P :=
  fun a ha => h a (answered_eq_ok ha).2

theorem Failures.step_oblige (f : Failures) (w : WorldState) (o : HostOp) :
    f.machine.step w o (f.oblige w o).1 (f.oblige w o).2 := by
  refine ⟨⟨_, ?_, rfl⟩, ?_⟩
  · cases o with
    | lockGuard digest64 =>
      rcases hlock : f.lock digest64 with _ | e
      · exact .inr ⟨by rw [Failures.oblige, hlock]; rfl, by rw [Failures.oblige, hlock]; rfl⟩
      · exact .inl ⟨⟨e, by rw [Failures.oblige, hlock]; rfl⟩, by
          rw [Failures.oblige, hlock]
          rfl⟩
    | ps managedOnly => exact ⟨tells_answered (tells_ok rfl), rfl⟩
    | inspectOne id => exact ⟨tells_answered fun _ h => h, rfl⟩
    | stopIgnore name =>
      refine ⟨_, ?_, rfl⟩
      split_ifs
      · exact ⟨fun c hc _ => hc, fun c hc => .inl hc⟩
      · exact stops_removeRef _ _
    | containerExists name => exact ⟨tells_answered (tells_ok rfl), rfl⟩
    | _ => exact serves_oblige w _
  · cases o with
    | stopIgnore name =>
      refine ⟨rfl, ?_⟩
      change ((if f.stays name then w.podman else removeRef w.podman name).find name).isSome = _
      rcases f.stays name
      · rw [Bool.false_and, ← Bool.not_eq_true, isSome_find_iff]
        rintro ⟨c, hc, hrefs⟩
        have hother := (List.mem_filter.1 hc).2
        rw [List.contains_iff_mem.2 hrefs] at hother
        cases hother
      · rw [Bool.true_and]
        rfl
    | lockGuard | ps | inspectOne | containerExists => rfl
    | _ => trivial

/-- Every pattern of failures has a run, whatever the containers are. -/
theorem exec_failing (f : Failures) (w : WorldState) {α : Type} (command : Command α) :
    ∃ t w' res, Exec f.machine command w t w' res :=
  ⟨_, _, _, Exec.of_run f.step_oblige command w⟩

/-! ### What the stops leave -/

/-- The container, running or not. -/
def IsStill (c c' : PodmanContainer) : Prop := c' = c ∨ c' = PodmanContainer.stopped c

variable {s p p' : PodmanState} {names : List String} {name : String} {c c' : PodmanContainer}

theorem IsStill.refs (h : IsStill c c') : c'.refs = c.refs := by
  obtain rfl | rfl := h
  · rfl
  · rfl

/-- What is left of some containers when names were stopped. -/
structure Left (f : Failures) (s : PodmanState) (names : List String) (p : PodmanState) : Prop
    extends Reduces s names p where
  still : ∀ c ∈ s.containers, (∃ c' ∈ p.containers, IsStill c c') ↔
    ∀ name ∈ names, name ∈ c.refs → f.stays name = true

theorem left_refl (f : Failures) (s : PodmanState) : Left f s [] s where
  toReduces := reduces_refl s
  still c hc := iff_of_true ⟨c, hc, .inl rfl⟩ fun _ hname => absurd hname List.not_mem_nil

/-- A container that has the name of what was stopped is left when it stays. -/
theorem Left.stop (h : Left f s names p) (hstops : Stops p name p')
    (hfate : (p'.find name).isSome = (f.stays name && (p.find name).isSome)) :
    Left f s (names ++ [name]) p' where
  toReduces := by
    refine h.toReduces.trans ⟨fun c hc hname => hstops.only c hc
      (hname name (List.mem_singleton_self _)), fun c' hc' => ?_⟩
    obtain hold | ⟨c, hc, -, rfl⟩ := hstops.old c' hc'
    · exact ⟨c', hold, .inl rfl⟩
    · exact ⟨c, hc, .inr rfl⟩
  still c hc := by
    constructor
    · rintro ⟨c', hc', hstill⟩ other hother hrefs
      obtain hother | hother := List.mem_append.1 hother
      · have hbefore : ∃ c1 ∈ p.containers, IsStill c c1 := by
          obtain hold | ⟨c1, hc1, -, rfl⟩ := hstops.old c' hc'
          · exact ⟨c', hold, hstill⟩
          · obtain ⟨c0, hc0, hstill0⟩ := h.old c1 hc1
            have hsame : c0.refs = c.refs := (IsStill.refs hstill0).symm.trans hstill.refs
            obtain rfl := PodmanState.eq_of_mem_refs hc0 hc c0.id_mem_refs
              (hsame ▸ c0.id_mem_refs)
            exact ⟨c1, hc1, hstill0⟩
        exact (h.still c hc).1 hbefore other hother hrefs
      · obtain rfl := List.mem_singleton.1 hother
        have hfind := isSome_find_iff.2 ⟨c', hc', hstill.refs.symm ▸ hrefs⟩
        rw [hfate, Bool.and_eq_true] at hfind
        exact hfind.1
    · intro hstays
      obtain ⟨c1, hc1, hstill⟩ := (h.still c hc).2 fun other hother =>
        hstays other (List.mem_append_left _ hother)
      by_cases hrefs : name ∈ c1.refs
      · have hname := hstays name (List.mem_append_right _ (List.mem_singleton_self _))
          (hstill.refs ▸ hrefs)
        have hfind : (p'.find name).isSome = true := by
          rw [hfate, hname, isSome_find_iff.2 ⟨c1, hc1, hrefs⟩]
          rfl
        obtain ⟨c2, hc2, hrefs2⟩ := isSome_find_iff.1 hfind
        refine ⟨c2, hc2, ?_⟩
        obtain hold | ⟨c0, hc0, hrefs0, rfl⟩ := hstops.old c2 hc2
        · rw [PodmanState.eq_of_mem_refs hold hc1 hrefs2 hrefs]
          exact hstill
        · rw [PodmanState.eq_of_mem_refs hc0 hc1 hrefs0 hrefs]
          obtain rfl | rfl := hstill
          · exact .inr rfl
          · exact .inr rfl
      · exact ⟨c1, hstops.only c1 hc1 hrefs, hstill⟩

theorem podman_of_serves {o : HostOp} {r : o.Ret} (h : serves w o r w') (ho : isRun o = false)
    (hstop : stoppedName ⟨o, r⟩ = none) : w'.podman = w.podman := by
  by_cases hkeeps : keepsContainers o = true
  · exact (serves_keepsContainers hkeeps h).1
  · cases o with
    | stopIgnore name => cases hstop
    | runDetached name spec => cases ho
    | lockGuard digest64 =>
      obtain ⟨-, rfl⟩ | ⟨-, rfl⟩ := h
      · rfl
      · rfl
    | unlock digest64 =>
      cases h
      rfl
    | _ => exact absurd rfl hkeeps

theorem Left.step {o : HostOp} {r : o.Ret} (h : Left f s names w.podman)
    (hstep : f.machine.step w o r w') (ho : isRun o = false) :
    Left f s (names ++ (stoppedName ⟨o, r⟩).toList) w'.podman := by
  obtain ⟨⟨w1, hserves, rfl⟩, hfollows⟩ := hstep
  rcases hstop : stoppedName ⟨o, r⟩ with _ | name
  · rw [podman_of_serves hserves ho hstop, Option.toList_none, List.append_nil]
    exact h
  · cases o with
    | stopIgnore ref =>
      cases hstop
      obtain ⟨p, hstops, rfl⟩ := hserves
      exact h.stop hstops hfollows.2
    | _ => cases hstop

theorem Left.exec {α : Type} {command : Command α} {res : Except Error α}
    (h : Left f s names w.podman) (hexec : Exec f.machine command w t w' res)
    (hno : ∀ e ∈ t, isRun e.op = false) :
    Left f s (names ++ (log t).filterMap stoppedName) w'.podman := by
  induction hexec generalizing names with
  | done => simpa using h
  | fail => simpa using h
  | @call o k x x1 x' r t res hstep _ ih =>
    have hrest := ih (h.step hstep (hno _ List.mem_cons_self)) fun e he =>
      hno e (List.mem_cons_of_mem _ he)
    rw [log_cons]
    rcases hstop : stoppedName ⟨o, r⟩ with _ | name
    · rw [List.filterMap_cons_none hstop]
      simpa [hstop] using hrest
    · rw [List.filterMap_cons_some hstop]
      simpa [hstop] using hrest

/-! ### One group -/

/-- The names are those of containers. -/
def Named (s : PodmanState) (names : List String) : Prop :=
  ∀ name ∈ names, ∃ c ∈ s.containers, c.containerName = name

theorem Named.append {names' : List String} (h : Named s names) (h' : Named s names') :
    Named s (names ++ names') := by
  intro name hname
  obtain hname | hname := List.mem_append.1 hname
  · exact h name hname
  · exact h' name hname

theorem Named.eq_of_mem_refs (h : Named s names) (hname : name ∈ names) (hc : c ∈ s.containers)
    (hrefs : name ∈ c.refs) : name = c.containerName := by
  obtain ⟨c1, hc1, rfl⟩ := h name hname
  rw [PodmanState.eq_of_mem_refs hc1 hc c1.containerName_mem_refs hrefs]

section
variable (h : Left f s names p) (hnamed : Named s names)
include h hnamed

theorem Left.exists_iff (hc : c ∈ s.containers) : (∃ c' ∈ p.containers, IsStill c c') ↔
    (c.containerName ∈ names → f.stays c.containerName = true) := by
  rw [h.still c hc]
  constructor
  · exact fun hall hname => hall _ hname c.containerName_mem_refs
  · intro hstays name hname hrefs
    obtain rfl := hnamed.eq_of_mem_refs hname hc hrefs
    exact hstays hname

/-- A container that was stopped is there when it stays. -/
theorem Left.isSome_find (hc : c ∈ s.containers) (hname : c.containerName ∈ names) :
    (p.find c.containerName).isSome = f.stays c.containerName := by
  rw [Bool.eq_iff_iff, isSome_find_iff]
  constructor
  · rintro ⟨c', hc', hrefs⟩
    obtain ⟨c1, hc1, hstill⟩ := h.old c' hc'
    rw [IsStill.refs hstill] at hrefs
    obtain rfl := PodmanState.eq_of_mem_refs hc1 hc hrefs c.containerName_mem_refs
    exact (h.exists_iff hnamed hc1).1 ⟨c', hc', hstill⟩ hname
  · intro hstays
    obtain ⟨c', hc', hstill⟩ := (h.exists_iff hnamed hc).2 fun _ => hstays
    exact ⟨c', hc', hstill.refs.symm ▸ c.containerName_mem_refs⟩

end

/-- What the lookups after the stops answer. -/
def LooksAs (f : Failures) (calls : CallLog) : Prop :=
  ∀ name verified, ⟨.containerExists name, verified⟩ ∈ calls →
    verified = answered (f.verification name) (.ok (f.stays name))

theorem LooksAs.append {calls calls' : CallLog} (h : LooksAs f calls) (h' : LooksAs f calls') :
    LooksAs f (calls ++ calls') := by
  intro name verified hcall
  obtain hcall | hcall := List.mem_append.1 hcall
  · exact h name verified hcall
  · exact h' name verified hcall

theorem looksAs_of_silent {calls : CallLog} (h : SilentLog calls) : LooksAs f calls :=
  fun _ _ hcall => absurd hcall h.not_exists

theorem looksAs_lock (digest64 : String) (r : HostOp.Ret (.lockGuard digest64)) :
    LooksAs f [⟨.lockGuard digest64, r⟩] := by
  rintro name verified (_ | ⟨_, hcall⟩)
  cases hcall

/-- A container that is stopped and looked for. -/
theorem looksAs_cleanupOne {session : SessionRecord}
    {res : Except Error (Option ContainerCleanupFailure)}
    (h : Exec f.machine (cleanupManagedContainer session) w t w' res)
    (hleft : Left f s names w.podman) (hnamed : Named s (names ++ [session.containerName])) :
    LooksAs f (log t) ∧ Left f s (names ++ [session.containerName]) w'.podman := by
  obtain ⟨stopped, w1, verified, w2, rest, rfl, hstop, hlook, hrest, -⟩ :=
    exec_cleanupManagedContainer h
  have hlast : session.containerName ∈ names ++ [session.containerName] :=
    List.mem_append_right _ (List.mem_singleton_self _)
  constructor
  · have hanswer : verified = answered (f.verification session.containerName)
        (.ok (f.stays session.containerName)) := by
      obtain ⟨c, hc, hcname⟩ := hnamed _ hlast
      have hfind := (hleft.step hstop rfl).isSome_find hnamed hc (hcname ▸ hlast)
      rw [hcname] at hfind
      rw [← hfind]
      exact hlook.2
    have hcalls : LooksAs f (cleanupLog session.containerName stopped verified) := by
      rintro other verified' (_ | ⟨_, _ | ⟨_, hcall⟩⟩)
      · exact hanswer
      · cases hcall
    exact hcalls.append (looksAs_of_silent hrest)
  · have hleft' := hleft.exec h (h.of_always (only_cleanupManagedContainer session)).2
    change Left f s
      (names ++ session.containerName :: (log rest).filterMap stoppedName) _ at hleft'
    rwa [hrest.stops] at hleft'

theorem looksAs_cleanup : ∀ {sessions : List SessionRecord} {names : List String}
    {w w' : WorldState} {t : List (Event HostOps WorldState)}
    {res : Except Error (List ContainerCleanupFailure)},
    Exec f.machine (cleanupManagedContainers sessions) w t w' res → Left f s names w.podman →
      Named s names → Named s (sessions.map SessionRecord.containerName) → LooksAs f (log t)
  | [], names, w, w', t, res, h, _, _, _ => by
    obtain ⟨rfl, -, -⟩ := exec_done.1 h
    exact fun _ _ hcall => absurd hcall List.not_mem_nil
  | session :: sessions, names, w, w', t, res, h, hleft, hnamed, hsessions => by
    have hname : Named s (names ++ [session.containerName]) :=
      hnamed.append fun _ hmem => hsessions _ (List.mem_singleton.1 hmem ▸ List.mem_cons_self)
    unfold cleanupManagedContainers at h
    obtain ⟨e, -, h1⟩ | ⟨failure, w1, t1, t2, rfl, h1, h2⟩ := exec_bind.1 h
    · exact (looksAs_cleanupOne h1 hleft hname).1
    obtain ⟨hlooks, hleft1⟩ := looksAs_cleanupOne h1 hleft hname
    have hsessions' : Named s (sessions.map SessionRecord.containerName) :=
      fun _ hmem => hsessions _ (List.mem_cons_of_mem _ hmem)
    rw [log_append]
    refine hlooks.append ?_
    obtain ⟨e, -, h3⟩ | ⟨failures, w2, t3, t4, rfl, h3, h4⟩ := exec_bind.1 h2
    · exact looksAs_cleanup h3 hleft1 hname hsessions'
    · obtain ⟨rfl, -, -⟩ := exec_done.1 h4
      rw [List.append_nil]
      exact looksAs_cleanup h3 hleft1 hname hsessions'

/-- What is left after the groups of some roots: the names that were stopped are those of the
containers that were found. -/
structure After (f : Failures) (s : PodmanState) (roots : List Utf8Path) (names : List String)
    (p : PodmanState) : Prop extends Left f s names p where
  named : Named s names
  found : ∀ c ∈ s.containers, c.containerName ∈ names ↔ IsFound roots c

theorem after_refl (f : Failures) (s : PodmanState) : After f s [] [] s where
  toLeft := left_refl f s
  named _ hname := absurd hname List.not_mem_nil
  found _ _ := iff_of_false List.not_mem_nil fun ⟨_, _, hroot, _⟩ => List.not_mem_nil hroot

section
variable {roots : List Utf8Path} {root : Utf8Path} {probe : GitRootProbe}
  {discovered : List SessionRecord} (h : After f s roots names p)
include h

/-- What holds of every container that is left. -/
theorem After.forall_iff {P : PodmanContainer → Prop}
    (hP : ∀ c, P (PodmanContainer.stopped c) ↔ P c) :
    (∀ c' ∈ p.containers, P c') ↔ ∀ c ∈ s.containers, ¬ f.Leaves roots c → P c := by
  have hthere : ∀ c ∈ s.containers, (∃ c' ∈ p.containers, IsStill c c') ↔ ¬ f.Leaves roots c := by
    intro c hc
    rw [h.exists_iff h.named hc, h.found c hc, Failures.Leaves, not_and, Bool.not_eq_false]
  have hsame : ∀ {c c'}, IsStill c c' → (P c' ↔ P c) := by
    rintro c c' (rfl | rfl)
    · exact Iff.rfl
    · exact hP c
  constructor
  · intro hall c hc hstays
    obtain ⟨c', hc', hstill⟩ := (hthere c hc).2 hstays
    exact (hsame hstill).1 (hall c' hc')
  · intro hall c' hc'
    obtain ⟨c, hc, hstill⟩ := h.old c' hc'
    exact (hsame hstill).2 (hall c hc ((hthere c hc).1 ⟨c', hc', hstill⟩))

/-- The containers that are found under the lock of a root that is not among the earlier ones. -/
theorem After.found_iff (hview : view probe p (.forGitRoot root) .agentboxOwned = .ok discovered)
    (hnew : ∀ earlier ∈ roots, earlier.components ≠ root.components) :
    Named s ((runningMatches root discovered).map SessionRecord.containerName) ∧
      ∀ c ∈ s.containers,
        c.containerName ∈ (runningMatches root discovered).map SessionRecord.containerName ↔
          IsFound [root] c := by
  have hof : ∀ session ∈ runningMatches root discovered, ∃ c ∈ s.containers,
      session.containerName = c.containerName ∧ IsFound [root] c := by
    intro session hmem
    obtain ⟨hmatch, hrunning⟩ := List.mem_filter.1 hmem
    obtain ⟨c', hc', hof, hroot, hagrees⟩ := (mem_exactMatches hview).1 session hmatch
    rw [hof.containerRunning_eq] at hrunning
    obtain ⟨c, hc, rfl | rfl⟩ := h.old c' hc'
    · refine ⟨c', hc, hof.containerName_eq, ?_, root, List.mem_singleton_self _, hroot, hagrees⟩
      rw [isRunningOwned, hrunning, hof.isSome_kind]
      rfl
    · cases hrunning
  constructor
  · intro name hname
    obtain ⟨session, hmem, rfl⟩ := List.mem_map.1 hname
    obtain ⟨c, hc, hname, -⟩ := hof session hmem
    exact ⟨c, hc, hname.symm⟩
  · intro c hc
    rw [List.mem_map]
    constructor
    · rintro ⟨session, hmem, hname⟩
      obtain ⟨c1, hc1, hname1, hfound⟩ := hof session hmem
      rwa [PodmanState.eq_of_mem_refs hc hc1 c.containerName_mem_refs
        (hname.symm.trans hname1 ▸ c1.containerName_mem_refs)]
    · rintro ⟨hrun, path, hpath, hroot, hagrees⟩
      obtain rfl := List.mem_singleton.1 hpath
      obtain ⟨hrunning, hkind⟩ := Bool.and_eq_true_iff.1 hrun
      -- no earlier stop has touched a container of this root
      have hc' : c ∈ p.containers := by
        refine h.only c hc fun name hname hrefs => ?_
        obtain rfl := h.named.eq_of_mem_refs hname hc hrefs
        obtain ⟨-, earlier, hmem, hearlier, -⟩ := (h.found c hc).1 hname
        rcases hpath : rootOf c with _ | spelled
        · rw [hpath] at hroot
          cases hroot
        · rw [hpath, some_beq_some, Utf8Path.beq_iff] at hroot hearlier
          exact hnew earlier hmem (hearlier.symm.trans hroot)
      obtain ⟨session, hmem, hof⟩ := (mem_exactMatches hview).2 c hc' hkind hroot hagrees
      exact ⟨session, List.mem_filter.2 ⟨hmem, by rw [hof.containerRunning_eq, hrunning]⟩,
        hof.containerName_eq⟩

end

theorem isFound_append {roots roots' : List Utf8Path} :
    IsFound (roots ++ roots') c ↔ IsFound roots c ∨ IsFound roots' c := by
  unfold IsFound
  rw [← and_or_left]
  simp only [List.mem_append, or_and_right, exists_or]

/-- A group is reached exactly when the discovery under its lock succeeds. -/
theorem reaches_iff {roots : List Utf8Path} {root : Utf8Path} {held : List String}
    {res : Except Error (List SessionRecord)} (hlock : f.lock (gitRootDigest64 root) = none)
    (hheld : w.held = gitRootDigest64 root :: held) (h : After f s roots names w.podman)
    (hexec : Exec f.machine (discoverSessions root) w t w' res) :
    f.Reaches s roots root ↔ ∃ sessions, res = .ok sessions := by
  obtain ⟨hof, hto⟩ := exec_discover_failing hexec
  rw [hheld, List.head?_cons] at hof hto
  have hinspection : (∀ c ∈ w.podman.containers,
      isCandidate (.forGitRoot root) .agentboxOwned c = true →
        f.inspection (some (gitRootDigest64 root)) c.id = none) ↔
      ∀ c ∈ s.containers, ¬ f.Leaves roots c → c.kind.isSome = true → hashAgrees root c = true →
        f.inspection (some (gitRootDigest64 root)) c.id = none := by
    rw [h.forall_iff fun _ => Iff.rfl]
    simp only [isCandidate_forGitRoot, Bool.and_eq_true, and_imp]
  have halone := (view_isOk_iff w.host.gitRootProbe w.podman root).trans
    (h.forall_iff fun _ => Iff.rfl)
  constructor
  · intro hreaches
    rw [hof ⟨hreaches.listing, hinspection.2 hreaches.inspection⟩]
    exact halone.2 hreaches.alone
  · rintro ⟨sessions, rfl⟩
    have hanswers := hto sessions rfl
    exact ⟨hlock, hanswers.listing, hinspection.1 hanswers.inspection,
      halone.1 ⟨sessions, (hof hanswers).symm⟩⟩

/-! ### The loop -/

theorem After.of_left {roots : List Utf8Path} (h : After f s roots names p)
    (hleft : Left f s names p') : After f s roots names p' :=
  ⟨hleft, h.named, h.found⟩

/-- The lock is given when nothing keeps from it, and then it is held. -/
theorem exec_lock {digest64 : String} (h : f.machine.step w (.lockGuard digest64) (.ok ()) w') :
    f.lock digest64 = none ∧ w'.podman = w.podman ∧ w'.held = digest64 :: w.held := by
  obtain ⟨⟨w1, ⟨⟨error, herror⟩, -⟩ | ⟨-, rfl⟩, rfl⟩, hfollows⟩ := h
  · cases herror
  · have hanswered : answered (f.lock digest64) (.ok ()) = .ok () := hfollows.symm
    exact ⟨(answered_eq_ok hanswered).1, rfl, rfl⟩

/-- The loop goes on until a group is not reached. -/
structure Progress (f : Failures) (s : PodmanState) (roots : List Utf8Path) (names : List String)
    (groups done rest : List SessionGroup) (ended : Bool) (calls : CallLog) (p : PodmanState) :
    Prop where
  split : groups = done ++ rest
  reaches : ∀ before group after, done = before ++ group :: after →
    f.Reaches s (roots ++ before.map SessionGroup.canonicalGitRoot) group.canonicalGitRoot
  ends : ended = false ∧ rest = [] ∨ ended = true ∧ ∃ group after, rest = group :: after ∧
    ¬ f.Reaches s (roots ++ done.map SessionGroup.canonicalGitRoot) group.canonicalGitRoot
  looks : LooksAs f calls
  after : After f s (roots ++ done.map SessionGroup.canonicalGitRoot)
    (names ++ calls.filterMap stoppedName) p

section
variable {roots : List Utf8Path} {group : SessionGroup} {groups done rest : List SessionGroup}
  {ended : Bool} {calls calls' : CallLog}

theorem progress_nil (h : After f s roots names p) : Progress f s roots names [] [] [] false [] p where
  split := rfl
  reaches before group after hsplit := by
    rcases before with _ | ⟨_, before⟩
    · cases hsplit
    · cases hsplit
  ends := .inl ⟨rfl, rfl⟩
  looks _ _ hcall := absurd hcall List.not_mem_nil
  after := by simpa using h

theorem progress_ended (h : After f s roots names p) (hstops : calls.filterMap stoppedName = [])
    (hlooks : LooksAs f calls) (hnot : ¬ f.Reaches s roots group.canonicalGitRoot) :
    Progress f s roots names (group :: groups) [] (group :: groups) true calls p where
  split := rfl
  reaches before group after hsplit := by
    rcases before with _ | ⟨_, before⟩
    · cases hsplit
    · cases hsplit
  ends := .inr ⟨rfl, group, groups, rfl, by simpa using hnot⟩
  looks := hlooks
  after := by simpa [hstops] using h

/-- A group that is reached comes before the others. -/
theorem Progress.cons (hreaches : f.Reaches s roots group.canonicalGitRoot)
    (hlooks : LooksAs f calls) (h : Progress f s (roots ++ [group.canonicalGitRoot])
      (names ++ calls.filterMap stoppedName) groups done rest ended calls' p) :
    Progress f s roots names (group :: groups) (group :: done) rest ended (calls ++ calls') p where
  split := by rw [h.split, List.cons_append]
  reaches before group' after hsplit := by
    rcases before with _ | ⟨_, before⟩
    · cases hsplit
      simpa using hreaches
    · obtain ⟨rfl, hdone⟩ := List.cons.inj hsplit
      simpa using h.reaches before group' after hdone
  ends := by simpa using h.ends
  looks := hlooks.append h.looks
  after := by simpa using h.after

end

/-- The rounds of the loop, one after the other. -/
theorem rounds_progress {groups : List SessionGroup} {rounds : List Round} {roots : List Utf8Path}
    (h : Rounds f.machine groups w t w' rounds) (hafter : After f s roots names w.podman)
    (hnew : ∀ group ∈ groups, ∀ root ∈ roots,
      root.components ≠ group.canonicalGitRoot.components)
    (hdistinct : groups.Pairwise fun group group' =>
      group.canonicalGitRoot.components ≠ group'.canonicalGitRoot.components) :
    ∃ done rest, Progress f s roots names groups done rest (endedEarly rounds) (log t) w'.podman := by
  induction h generalizing roots names with
  | nil w => exact ⟨[], [], progress_nil hafter⟩
  | @lockFailed group x x1 error groups hlock =>
    refine ⟨[], _, progress_ended ((lock_podman hlock.1).1 ▸ hafter) rfl ?_ fun hreaches => ?_⟩
    · exact looksAs_lock _ _
    · have hfollows : .error error = answered (f.lock (groupDigest group)) (.ok ()) := hlock.2
      rw [groupDigest, hreaches.lock] at hfollows
      cases hfollows
  | @discoveryFailed group x x1 x2 x3 t error groups hlock hdiscover hunlock =>
    obtain ⟨hnone, hpodman, hheld⟩ := exec_lock hlock
    have hafter1 : After f s roots names x1.podman := hpodman ▸ hafter
    have hsilent := (silent_of_only hdiscover (only_discover _ _))
    have hleft2 := hafter1.toLeft.exec hdiscover (hdiscover.of_always (Only.weaken
      (reading_discover _ _) fun _ => not_isRun_of_isReading)).2
    rw [hsilent.stops, List.append_nil, ← (unlock_podman hunlock.1).1] at hleft2
    refine ⟨[], _, progress_ended (hafter.of_left hleft2) ?_ ?_ fun hreaches => ?_⟩
    · rw [log_cons, log_append, List.filterMap_cons_none rfl, List.filterMap_append, hsilent.stops]
      rfl
    · rw [log_cons, log_append]
      exact (looksAs_lock _ _).append ((looksAs_of_silent hsilent).append
        (looksAs_of_silent (silent_unlock _ _)))
    · obtain ⟨sessions, hres⟩ := (reaches_iff hnone hheld hafter1 hdiscover).1 hreaches
      cases hres
  | @cleaned group groups x x1 x2 x3 x4 x5 t1 t2 t3 discovered failures rounds hlock hdiscover
      hclean hunlock hrest ih =>
    obtain ⟨hnone, hpodman, hheld⟩ := exec_lock hlock
    have hafter1 : After f s roots names x1.podman := hpodman ▸ hafter
    have hreaches := (reaches_iff hnone hheld hafter1 hdiscover).2 ⟨discovered, rfl⟩
    have hsilent := (silent_of_only hdiscover (only_discover _ _))
    obtain ⟨rfl, hview⟩ := exec_discover (exec_world hdiscover)
    obtain ⟨hnewGroup, hnewRest⟩ := List.forall_mem_cons.1 hnew
    obtain ⟨hfirst, hdistinct⟩ := List.pairwise_cons.1 hdistinct
    obtain ⟨hnamed, hfound⟩ := hafter1.found_iff hview hnewGroup
    have hlooks := looksAs_cleanup hclean hafter1.toLeft hafter1.named hnamed
    obtain ⟨_, hres, hcleaned, -⟩ := exec_cleanupManagedContainers hclean
    cases hres
    have hleft3 := hafter1.toLeft.exec hclean
      (hclean.of_always (only_cleanupManagedContainers _)).2
    rw [hcleaned.stops, ← (unlock_podman hunlock.1).1] at hleft3
    have hafter4 : After f s (roots ++ [group.canonicalGitRoot]) (names ++
        (runningMatches group.canonicalGitRoot discovered).map SessionRecord.containerName)
          x4.podman := by
      refine ⟨hleft3, hafter1.named.append hnamed, fun c hc => ?_⟩
      rw [List.mem_append, hafter1.found c hc, hfound c hc, isFound_append]
    obtain ⟨done, rest, hprogress⟩ := ih hafter4 (fun group' hgroup' root hroot => by
      obtain hroot | hroot := List.mem_append.1 hroot
      · exact hnewRest group' hgroup' root hroot
      · rw [List.mem_singleton.1 hroot]
        exact hfirst group' hgroup') hdistinct
    rw [log_append]
    refine ⟨group :: done, rest, Progress.cons hreaches ?_ ?_⟩
    · rw [log_cons, log_append, log_append]
      exact (looksAs_lock _ _).append (((looksAs_of_silent hsilent).append hlooks).append
        (looksAs_of_silent (silent_unlock _ _)))
    · rw [log_cons, List.filterMap_cons_none rfl, log_append, log_append, List.filterMap_append,
        List.filterMap_append, hsilent.stops, hcleaned.stops, List.nil_append, log_cons,
        List.filterMap_cons_none rfl, log_nil, List.filterMap_nil, List.append_nil]
      exact hprogress

/-! ### What is never stopped -/

/-- A container that is not stopped is never seen to be gone. -/
theorem stopped_of_gone {α : Type} {command : Command α} {res : Except Error α}
    (h : Exec (worldMachine Eq) command w t w' res) (hno : ∀ e ∈ t, isRun e.op = false)
    (hc : c ∈ w.podman.containers) (hgone : Gone (log t) c.containerName) :
    ∃ name ∈ (log t).filterMap stoppedName, name ∈ c.refs := by
  by_contra hnone
  push Not at hnone
  have hthere : ∀ e ∈ t, c ∈ e.pre.podman.containers := by
    clear hgone
    induction h with
    | done => exact fun _ he => absurd he List.not_mem_nil
    | fail => exact fun _ he => absurd he List.not_mem_nil
    | @call o k x x1 x' r t res hs _ ih =>
      obtain ⟨_, hserves, rfl⟩ := hs
      refine List.forall_mem_cons.2 ⟨hc, ih (fun e he => hno e (List.mem_cons_of_mem _ he)) ?_ ?_⟩
      · refine (reduces_serves hserves (hno _ List.mem_cons_self)).1.only c hc fun name hname => ?_
        refine hnone name (List.mem_filterMap.2 ⟨_, List.mem_cons_self, ?_⟩)
        exact Option.mem_toList.1 hname
      · intro name hname
        obtain ⟨call, hcall, hstop⟩ := List.mem_filterMap.1 hname
        exact hnone name (List.mem_filterMap.2 ⟨call, List.mem_cons_of_mem _ hcall, hstop⟩)
  obtain hcall | ⟨containers, hcall, hlist⟩ := hgone
  · obtain ⟨⟨x, o, r, x1⟩, he, heq⟩ := List.mem_map.1 hcall
    cases heq
    obtain ⟨_, ⟨htells, rfl⟩, rfl⟩ := h.step_of_mem he
    have hfind := isSome_find_iff.2 ⟨c, hthere _ he, c.containerName_mem_refs⟩
    rw [← htells false rfl] at hfind
    cases hfind
  · obtain ⟨⟨x, o, r, x1⟩, he, heq⟩ := List.mem_map.1 hcall
    cases heq
    obtain ⟨_, ⟨htells, rfl⟩, rfl⟩ := h.step_of_mem he
    rw [htells containers rfl] at hlist
    exact hlist c.listed (List.mem_map.2 ⟨c, List.mem_filter.2 ⟨hthere _ he, rfl⟩, rfl⟩) rfl

theorem only_cleanupAllRunningMatches (running : List SessionRecord) :
    Only (S := HostOps) (fun o => isRun o = false) (cleanupAllRunningMatches running) := by
  have hgroups : ∀ groups : List SessionGroup, Only (S := HostOps) (fun o => isRun o = false)
      (cleanupRootedSessionGroups .runningExactMatches groups) := by
    intro groups
    induction groups with
    | nil => exact only_done _
    | cons group groups ih =>
      refine .bind ?_ fun _ => .bind ih fun _ => only_done _
      have hlocked : Only (S := HostOps) (fun o => isRun o = false)
          (cleanupRunningExactMatchesForLockedRoot group.canonicalGitRoot) :=
        .bind (Only.weaken (reading_discover _ _) fun _ => not_isRun_of_isReading) fun _ =>
          only_cleanupManagedContainers _
      exact .bind ⟨rfl, only_ofExcept⟩ fun _ => .bind hlocked.attempt fun _ =>
        .bind ⟨rfl, only_done⟩ fun _ => only_ofExcept _
  exact .bind (hgroups _) fun _ => .bind (only_cleanupManagedContainers _) fun _ => only_done _

/-! ### The running containers -/

/-- Every session that is stopped is that of a running container. -/
theorem exists_running {session : SessionRecord} (h : session ∈ runningAt w) :
    ∃ c ∈ w.podman.containers, IsSessionOf w.host.gitRootProbe c session ∧
      isRunningOwned c = true := by
  obtain ⟨hshown, hrunning⟩ := List.mem_filter.1 h
  obtain ⟨c, hc, hof⟩ := isSessionOf_of_mem_shown hshown
  refine ⟨c, hc, hof, ?_⟩
  rw [hof.containerRunning_eq] at hrunning
  rw [isRunningOwned, hrunning, hof.isSome_kind]
  rfl

theorem exists_runningAt (hc : c ∈ w.podman.containers) (hrun : isRunningOwned c = true) :
    ∃ session ∈ runningAt w, session.containerName = c.containerName := by
  obtain ⟨hrunning, hkind⟩ := Bool.and_eq_true_iff.1 hrun
  obtain ⟨session, hshown, hof⟩ := @exists_shown w.host.gitRootProbe c w.podman hc hkind
  exact ⟨session, List.mem_filter.2 ⟨hshown, by rw [hof.containerRunning_eq, hrunning]⟩,
    hof.containerName_eq⟩

/-! ### The command -/

section
variable {w1 : WorldState} {t1 t2 : List (Event HostOps WorldState)} {rounds : List Round}
  {r : Except Error (List ContainerCleanupFailure)}

/-- A loop that is ended leaves the first container of a group alone, and tells of none. -/
theorem not_isolates_of_ended {error : Error}
    (h : Exec f.machine (cleanupAllRunningMatches (runningAt w)) w t w' (.error error))
    (hrounds : Rounds f.machine (partitionSessionsByGitRoot (runningAt w)).rooted w t w1 rounds)
    (hended : endedEarly rounds = true) :
    ¬ Isolates (runningAt w) (log t) (.error error) ∧ ¬ Undisturbed f w := by
  obtain ⟨done, rest, hprogress⟩ := rounds_progress hrounds (after_refl f w.podman)
    (fun _ _ _ hroot => absurd hroot List.not_mem_nil) (pairwise_rooted _)
  obtain ⟨hfalse, -⟩ | ⟨-, group, after, rfl, hnot⟩ := hprogress.ends
  · rw [hended] at hfalse
    cases hfalse
  constructor
  · rintro ⟨-, haccounted⟩
    have hgroup : group ∈ (partitionSessionsByGitRoot (runningAt w)).rooted := by
      rw [hprogress.split]
      exact List.mem_append_right _ List.mem_cons_self
    obtain ⟨root, first, others, hroot, hfilter, rfl⟩ := mem_rooted.1 hgroup
    have hfirst : first ∈ runningAt w := by
      have hmem := hfilter ▸ List.mem_cons_self (a := first) (l := others)
      exact (List.mem_filter.1 hmem).1
    obtain ⟨c, hc, hof, -⟩ := exists_running hfirst
    obtain hgone | ⟨failures, hres, -⟩ := haccounted nofun first hfirst
    · rw [hof.containerName_eq] at hgone
      obtain ⟨name, hname, hrefs⟩ := stopped_of_gone (exec_world h)
        (h.of_always (only_cleanupAllRunningMatches _)).2 hc hgone
      have hafter := hprogress.after
      rw [List.nil_append, List.nil_append] at hafter
      obtain rfl := hafter.named.eq_of_mem_refs hname hc hrefs
      obtain ⟨-, earlier, hearlier, hsame, -⟩ := (hafter.found c hc).1 hname
      obtain ⟨group', hgroup', rfl⟩ := List.mem_map.1 hearlier
      rw [← hof.canonicalGitRoot_eq, hroot, some_beq_some, Utf8Path.beq_iff] at hsame
      have hdistinct := pairwise_rooted (runningAt w)
      rw [hprogress.split] at hdistinct
      exact (List.pairwise_append.1 hdistinct).2.2 group' hgroup' _ List.mem_cons_self hsame.symm
    · cases hres
  · exact fun hundisturbed => hnot (hundisturbed.reaches done group after hprogress.split)

/-- The calls stop the running containers that keep to their groups, and no others. -/
def StopsKept (s : PodmanState) (calls : CallLog) : Prop :=
  ∀ c ∈ s.containers, c.containerName ∈ calls.filterMap stoppedName ↔
    isRunningOwned c = true ∧ KeepsGroup s c

/-- The names that are stopped when no group ends the loop, and what the lookups answer. -/
theorem stopped_iff {unrooted : List ContainerCleanupFailure}
    (hrounds : Rounds f.machine (partitionSessionsByGitRoot (runningAt w)).rooted w t1 w1 rounds)
    (hended : endedEarly rounds = false)
    (hunrooted : Exec f.machine (cleanupManagedContainers
      (partitionSessionsByGitRoot (runningAt w)).unrooted) w1 t2 w' (.ok unrooted)) :
    (∀ before group after,
      (partitionSessionsByGitRoot (runningAt w)).rooted = before ++ group :: after →
        f.Reaches w.podman (before.map SessionGroup.canonicalGitRoot) group.canonicalGitRoot) ∧
    LooksAs f (log (t1 ++ t2)) ∧
    Named w.podman ((log (t1 ++ t2)).filterMap stoppedName) ∧
    StopsKept w.podman (log (t1 ++ t2)) := by
  obtain ⟨done, rest, hprogress⟩ := rounds_progress hrounds (after_refl f w.podman)
    (fun _ _ _ hroot => absurd hroot List.not_mem_nil) (pairwise_rooted _)
  obtain ⟨-, rfl⟩ | ⟨htrue, -⟩ := hprogress.ends
  swap
  · rw [hended] at htrue
    cases htrue
  have hsplit := hprogress.split
  rw [List.append_nil] at hsplit
  have hafter := hprogress.after
  rw [List.nil_append, List.nil_append, ← hsplit] at hafter
  have hnamed : Named w.podman ((partitionSessionsByGitRoot (runningAt w)).unrooted.map
      SessionRecord.containerName) := by
    intro name hname
    obtain ⟨session, hmem, rfl⟩ := List.mem_map.1 hname
    obtain ⟨c, hc, hof, -⟩ := exists_running (List.mem_filter.1 hmem).1
    exact ⟨c, hc, hof.containerName_eq.symm⟩
  obtain ⟨_, hres, hcleaned, -⟩ := exec_cleanupManagedContainers hunrooted
  cases hres
  have hlooks := looksAs_cleanup hunrooted hafter.toLeft hafter.named hnamed
  rw [StopsKept, log_append, List.filterMap_append, hcleaned.stops]
  refine ⟨fun before group after heq => ?_, hprogress.looks.append hlooks,
    hafter.named.append hnamed, fun c hc => ?_⟩
  · exact hprogress.reaches before group after (hsplit.symm.trans heq)
  · have hunrootedName := mem_unrooted w.host.gitRootProbe hc
    rw [List.mem_append, hafter.found c hc, runningAt, hunrootedName]
    constructor
    · rintro (hfound | ⟨hrun, hnone⟩)
      · exact ⟨hfound.1, (isFound_iff _ hc hfound.1).1 (.inl hfound)⟩
      · exact ⟨hrun, (isFound_iff w.host.gitRootProbe hc hrun).1 (.inr hnone)⟩
    · rintro ⟨hrun, hkeeps⟩
      obtain hfound | hnone := (isFound_iff _ hc hrun).2 hkeeps
      · exact .inl hfound
      · exact .inr ⟨hrun, hnone⟩

section
variable {found : List SessionRecord} {calls : CallLog} {failures : List ContainerCleanupFailure}
  {s : PodmanState}

/-- No lookup finds a container, or fails, exactly when all that are stopped go away. -/
theorem lookups_gone_iff (h : Cleaned found calls failures) (hlooks : LooksAs f calls)
    (hnamed : Named s (calls.filterMap stoppedName)) (hstopped : StopsKept s calls) :
    (∀ containerName verified, ⟨.containerExists containerName, verified⟩ ∈ calls →
      verified = .ok false) ↔
      ∀ c ∈ s.containers, isRunningOwned c = true → KeepsGroup s c → f.Removes c := by
  constructor
  · intro hgone c hc hrun hkeeps
    have hname := (hstopped c hc).2 ⟨hrun, hkeeps⟩
    rw [h.stops] at hname
    obtain ⟨session, hmem, hname⟩ := List.mem_map.1 hname
    obtain ⟨verified, hlooked⟩ := h.looked session hmem
    have hanswer := (hlooks _ _ hlooked).symm.trans (hgone _ _ hlooked)
    obtain ⟨hnone, hstays⟩ := answered_eq_ok hanswer
    rw [hname] at hnone hstays
    exact ⟨Except.ok.inj hstays, hnone⟩
  · intro hremoves name verified hlooked
    by_contra hne
    obtain hgone | ⟨failure, hfailure, rfl⟩ := h.told name verified hlooked
    · exact hne hgone
    · obtain ⟨⟨session, hmem, hname⟩, -⟩ := h.failed failure hfailure
      have hstop : failure.containerName ∈ calls.filterMap stoppedName := by
        rw [h.stops, ← hname]
        exact List.mem_map_of_mem hmem
      obtain ⟨c, hc, hcname⟩ := hnamed _ hstop
      rw [← hcname] at hstop hlooked
      obtain ⟨hrun, hkeeps⟩ := (hstopped c hc).1 hstop
      obtain ⟨hstays, hnone⟩ := hremoves c hc hrun hkeeps
      rw [hlooks _ _ hlooked, hnone, hstays] at hne
      exact hne rfl

/-- Every running session is gone or found again exactly when its container keeps to its group. -/
theorem sessions_found_iff (h : Cleaned found calls failures)
    (hnamed : Named w.podman (calls.filterMap stoppedName)) (hstopped : StopsKept w.podman calls)
    (hgone : ∀ c ∈ w.podman.containers, Gone calls c.containerName →
      ∃ name ∈ calls.filterMap stoppedName, name ∈ c.refs) :
    (∀ session ∈ runningAt w, Gone calls session.containerName ∨
      ∃ record ∈ found, record.containerName = session.containerName) ↔
      ∀ c ∈ w.podman.containers, isRunningOwned c = true → KeepsGroup w.podman c := by
  constructor
  · intro hsessions c hc hrun
    obtain ⟨session, hmem, hname⟩ := exists_runningAt hc hrun
    refine ((hstopped c hc).1 ?_).2
    obtain hsessionGone | ⟨record, hrecord, hrecordName⟩ := hsessions session hmem
    · obtain ⟨name, hstop, hrefs⟩ := hgone c hc (hname ▸ hsessionGone)
      rwa [← hnamed.eq_of_mem_refs hstop hc hrefs]
    · rw [h.stops, ← hname, ← hrecordName]
      exact List.mem_map_of_mem hrecord
  · intro hkeeps session hmem
    obtain ⟨c, hc, hof, hrun⟩ := exists_running hmem
    have hname := (hstopped c hc).2 ⟨hrun, hkeeps c hc hrun⟩
    rw [h.stops, ← hof.containerName_eq] at hname
    exact .inr (List.mem_map.1 hname)

end

/-- A loop that is not ended isolates the failures as far as the containers are found again. -/
theorem isolates_iff_of_reached {unrooted : List ContainerCleanupFailure}
    (h : Exec f.machine (cleanupAllRunningMatches (runningAt w)) w (t1 ++ t2) w'
      (.ok (rounds.flatMap Round.failures ++ unrooted)))
    (hrounds : Rounds f.machine (partitionSessionsByGitRoot (runningAt w)).rooted w t1 w1 rounds)
    (hended : endedEarly rounds = false)
    (hunrooted : Exec f.machine (cleanupManagedContainers
      (partitionSessionsByGitRoot (runningAt w)).unrooted) w1 t2 w' (.ok unrooted)) :
    Isolates (runningAt w) (log (t1 ++ t2)) (.ok (rounds.flatMap Round.failures ++ unrooted)) ↔
      Undisturbed f w := by
  obtain ⟨hreaches, hlooks, hnamed, hstopped⟩ := stopped_iff hrounds hended hunrooted
  obtain ⟨_, hres, hcleaned, -⟩ := exec_cleanupManagedContainers hunrooted
  cases hres
  have hall := hrounds.cleaned_log.append hcleaned
  rw [← log_append] at hall
  have hfirst := lookups_gone_iff hall hlooks hnamed hstopped
  have hsecond := sessions_found_iff hall hnamed hstopped fun c hc hgone =>
    stopped_of_gone (exec_world h) (h.of_always (only_cleanupAllRunningMatches _)).2 hc hgone
  rw [isolates_iff_of_completed hrounds hended hunrooted]
  exact ⟨fun hcases => ⟨hreaches, hcases.imp hfirst.1 hsecond.1⟩, fun hundisturbed =>
    hundisturbed.found.imp hfirst.2 hsecond.2⟩

end

/-- **Isolation of failures.** Whatever the containers are and whatever fails, `stop --all` tries
everything and tells of everything exactly when it is undisturbed. -/
theorem isolates_iff {res : Except Error Unit} (h : Exec f.machine stopAllRunning w t w' res) :
    (∃ error, res = .error error ∧
      Exec f.machine discoverAgentboxContainers w t w' (.error error)) ∨
    ∃ r t1 t2, t = t1 ++ t2 ∧ res = finished r ∧
      Exec f.machine discoverAgentboxContainers w t1 w (.ok (shown w.host.gitRootProbe w.podman)) ∧
      Exec f.machine (cleanupAllRunningMatches (runningAt w)) w t2 w' r ∧
      (∀ failures, r = .ok failures → ∀ failure ∈ failures,
        ∃ error, res = .error error ∧ Mentions error failure.renderStopMessage) ∧
      (Isolates (runningAt w) (log t2) r ↔ Undisturbed f w) := by
  obtain herror | ⟨discovered, r, w1, t1, t2, rfl, rfl, h1, h2⟩ := exec_stopAllRunning h
  · exact .inl herror
  obtain ⟨rfl, hview⟩ := exec_discover (exec_world h1)
  rw [view_all] at hview
  obtain rfl := Except.ok.inj hview
  refine .inr ⟨r, t1, t2, rfl, rfl, h1, h2, ?_, ?_⟩
  · rintro failures rfl failure hmem
    exact mentions_finished hmem
  · obtain ⟨rounds, w2, t3, t4, rfl, hrounds, hphase⟩ := exec_cleanupAllRunningMatches h2
    obtain ⟨hended, rfl, error, rfl⟩ | ⟨hended, unrooted, hunrooted, rfl⟩ := hphase
    · rw [List.append_nil] at h2 ⊢
      obtain ⟨hnot, hdisturbed⟩ := not_isolates_of_ended h2 hrounds hended
      exact iff_of_false hnot hdisturbed
    · exact isolates_iff_of_reached h2 hrounds hended hunrooted

/-- The session of `demoBoth` is not stopped, and nobody can tell whether it was. -/
def demoFailures : Failures where
  lock _ := none
  listing _ := none
  inspection _ _ := none
  stop name := if name = "session" then some (.msg "cannot stop the container") else none
  stays name := name == "session"
  verification name := if name = "session" then some (.msg "cannot connect to Podman") else none

theorem rootOf_demoSession : rootOf demoSession = some demoRoot := by decide +kernel

theorem rootOf_demoUnrooted : rootOf demoUnrooted = none := by decide +kernel

theorem keepsGroup_demoBoth : ∀ c ∈ demoBoth.podman.containers, KeepsGroup demoBoth.podman c := by
  have hspelled : spelledRoot demoBoth.podman demoRoot = some demoRoot := by decide +kernel
  intro c hc root hroot spelled hspelledRoot
  rcases hc with _ | ⟨_, _ | ⟨_, hc⟩⟩
  · obtain rfl := Option.some.inj (rootOf_demoSession.symm.trans hroot)
    rw [hspelled] at hspelledRoot
    rw [← Option.some.inj hspelledRoot]
    decide +kernel
  · cases rootOf_demoUnrooted.symm.trans hroot
  · cases hc

theorem undisturbed_demo : Undisturbed demoFailures demoBoth where
  reaches before group after hsplit := by
    have hroots : (partitionSessionsByGitRoot (runningAt demoBoth)).rooted.map
        SessionGroup.canonicalGitRoot = [demoRoot] := by decide +kernel
    have hroot : group.canonicalGitRoot = demoRoot := by
      rw [hsplit] at hroots
      have hmem : group.canonicalGitRoot ∈ [demoRoot] := by
        rw [← hroots]
        exact List.mem_map_of_mem (List.mem_append_right _ List.mem_cons_self)
      exact List.mem_singleton.1 hmem
    rw [hroot]
    refine ⟨rfl, rfl, fun _ _ _ _ _ => rfl, fun c hc _ _ hcollides => ?_⟩
    obtain ⟨-, path, hpath, hne⟩ := hcollides
    have hrootOf : rootOf c = some ⟨path⟩ := congrArg (Option.map Utf8Path.mk) hpath
    rcases hc with _ | ⟨_, _ | ⟨_, hc⟩⟩
    · rw [← Option.some.inj (rootOf_demoSession.symm.trans hrootOf), Utf8Path.beq_self] at hne
      cases hne
    · cases rootOf_demoUnrooted.symm.trans hrootOf
    · cases hc
  found := .inr fun c hc _ => keepsGroup_demoBoth c hc

/-- The command fails, with both containers tried and the one that is left told of. -/
theorem isolates_iff_demo : ∃ t w' r, ∃ t2 : List (Event HostOps WorldState),
    Exec demoFailures.machine stopAllRunning demoBoth t w' (finished r) ∧ finished r ≠ .ok () ∧
      Isolates (runningAt demoBoth) (log t2) r := by
  obtain ⟨t, w', res, h⟩ := exec_failing demoFailures demoBoth stopAllRunning
  obtain ⟨error, rfl, hdiscover⟩ | ⟨r, t1, t2, rfl, rfl, -, -, -, hiff⟩ := isolates_iff h
  · have hview := (exec_discover_failing hdiscover).1 ⟨rfl, fun _ _ _ => rfl⟩
    rw [view_all] at hview
    cases hview
  · refine ⟨_, w', r, t2, h, fun hok => ?_, hiff.2 undisturbed_demo⟩
    rw [hok] at h
    have hrun : isRunningOwned demoSession = true := by decide +kernel
    obtain ⟨-, hgone⟩ := (stopAllRunning_complete_iff (exec_world h)).2
      (fun c hc _ => keepsGroup_demoBoth c hc) demoSession (.head _) hrun
    obtain ⟨⟨x, o, r', x'⟩, he, heq⟩ := List.mem_map.1 hgone
    cases heq
    cases (h.step_of_mem he).2

end Agentbox.Commands.StopIsolation
