import Agentbox.Commands.World

/-! # A host that does what it is asked

One answer to every call, which `serves` allows: stopped containers go away, a server starts unless
its name is taken, tokens and locks do what they should. Running a command against it gives an
execution of the command. -/

namespace Agentbox.Commands.Obliging

open Agentbox.Base.Path Agentbox.Base.Digest Agentbox.Base.Errors Agentbox.Config.Limits
  Agentbox.Files.Snapshot Agentbox.Lib.Program Agentbox.Metadata.Labels
  Agentbox.Metadata.DefaultImage Agentbox.Podman.Model Agentbox.Podman.State Agentbox.Runtime.Kind
  Agentbox.Runtime.Spec Agentbox.Session.Record Agentbox.Session.Discovery
  Agentbox.Session.Collected Agentbox.Session.ScopedDiscovery Agentbox.Session.Views
  Agentbox.Commands.HostCalls Agentbox.Commands.WorkspaceFlow Agentbox.Commands.World
  Agentbox.DevEnv.Environment

/-! ### Podman -/

/-- `podman stop` of a container that is removed when it stops. -/
def removeRef (s : PodmanState) (ref : String) : PodmanState where
  containers := s.containers.filter fun c => !c.refs.contains ref
  distinct := s.distinct.sublist (List.filter_sublist.flatMap _)

def demoImage : RuntimeImage where
  base := ∅
  input := ⟨.opencode, defaultImage .opencode, DEFAULT_IMAGE_CONTEXT_HASH, "1.0.0", "0"⟩
  base_foreign _ _ := Std.ExtTreeMap.getElem?_empty

def podmanMount (mount : RuntimeMount) : PodmanContainerMount :=
  match mount.kind with
  | .bind => ⟨.bind, mount.destination⟩
  | .volume => ⟨.volume, mount.destination⟩

/-- The container of a specification, with its server's port published. -/
def started (name : String) (spec : RuntimeRunSpec) : PodmanContainer where
  id := "id-" ++ name
  names := some [name]
  labels := demoImage.labels ∪ spec.create.labels
  running := true
  mounts := spec.create.mounts.map podmanMount
  ports := .ofList [(spec.create.labels[LABEL_CONTAINER_PORT]?.getD "" ++ "/tcp",
    some [PodmanPortBinding.mk none (some "40000")])]
  workdir := spec.workdir
  command := spec.create.command
  created := true

def startContainer (s : PodmanState) (name : String) (spec : RuntimeRunSpec) :
    Except Error PodmanState :=
  if h : ((s.containers ++ [started name spec]).flatMap PodmanContainer.refs).Nodup then
    .ok ⟨s.containers ++ [started name spec], h⟩
  else .error (.msg ("the container name `" ++ name ++ "` is already in use"))

/-! ### The host -/

def oblige (w : WorldState) : (o : HostOp) → o.Ret × WorldState
  | .readHost => (w.host, w)
  | .ps managedOnly => (.ok (w.podman.listing managedOnly), w)
  | .inspectOne name => (w.podman.inspectOne name, w)
  | .stopIgnore name => (.ok (), w.setPodman (removeRef w.podman name))
  | .containerExists name => (.ok (w.podman.find name).isSome, w)
  | .runDetached name spec =>
    match startContainer w.podman name spec with
    | .ok s => (.ok (), w.setPodman s)
    | .error e => (.error e, w)
  | .logsTail _ => (.ok "", w)
  | .volumeExists _ => (.ok false, w)
  | .removeVolume _ => (.ok (), w)
  | .lockGuard digest64 => (.ok (), { w with held := digest64 :: w.held })
  | .unlock digest64 => ((), { w with held := w.held.erase digest64 })
  | .generateToken => (.ok (hexLower (List.replicate 32 0)), w)
  | .writeToken digest64 value => (.ok (), w.setToken digest64 (some value))
  | .readToken digest64 =>
    match w.tokens digest64 with
    | some value => (.ok value, w)
    | none => (.error .notFound, w)
  | .removeToken digest64 => (.ok (), w.setToken digest64 none)
  | .loadConfig => ({}, w)
  | .checkHostPrerequisites _ _ => (.ok ⟨[], [], ∅⟩, w)
  | .resolveDevEnvironment _ _ _ => (.ok .none, w)
  | .which _ => (true, w)
  | .ensureDefaultRuntimeImage _ _ => (.ok none, w)
  | .detectPassthrough _ => (⟨[], ∅⟩, w)
  | .installInterrupt _ => (.ok (), w)
  | .interrupted => (false, w)
  | .waitForServerEndpoint _ runtime _ =>
    (.ok (.ready ⟨runtime.attachSpec.scheme, DEFAULT_HOST_ATTACH_IP, 40000⟩), w)
  | .runHostClient _ _ _ => (.ok ⟨some 0, "exit status: 0"⟩, w)

theorem stops_removeRef (s : PodmanState) (ref : String) : Stops s ref (removeRef s ref) where
  only c hc href := List.mem_filter.2 ⟨hc, by simpa using href⟩
  old c hc := .inl (List.mem_filter.1 hc).1

theorem isRun_started (name : String) (spec : RuntimeRunSpec) : IsRun name spec (started name spec) :=
  ⟨rfl, ⟨demoImage, rfl⟩, rfl, rfl, rfl⟩

/-- The host answers as `serves` allows. -/
theorem serves_oblige (w : WorldState) (o : HostOp) : serves w o (oblige w o).1 (oblige w o).2 := by
  cases o with
  | readHost => exact ⟨rfl, rfl⟩
  | ps managedOnly => exact ⟨tells_ok rfl, rfl⟩
  | inspectOne name => exact ⟨fun _ h => h, rfl⟩
  | stopIgnore name => exact ⟨_, stops_removeRef _ _, rfl⟩
  | containerExists name => exact ⟨tells_ok rfl, rfl⟩
  | runDetached name spec =>
    unfold oblige
    rcases hs : startContainer w.podman name spec with e | s
    · simp only [hs]
      exact .inl ⟨⟨e, rfl⟩, rfl⟩
    · simp only [hs]
      refine .inr ⟨s, ⟨started name spec, isRun_started name spec, ?_⟩, rfl⟩
      unfold startContainer at hs
      split_ifs at hs
      cases hs
      rfl
  | lockGuard digest64 => exact .inr ⟨rfl, rfl⟩
  | unlock digest64 => rfl
  | generateToken => exact ⟨tells_ok ⟨_, rfl, rfl⟩, rfl⟩
  | writeToken digest64 value => exact .inl ⟨rfl, rfl⟩
  | readToken digest64 =>
    unfold oblige
    rcases ht : w.tokens digest64 with _ | value
    · simp only [ht]
      exact ⟨fun _ h => (nomatch h), rfl⟩
    · simp only [ht]
      exact ⟨fun v h => by cases h; exact ht, rfl⟩
  | removeToken digest64 => exact .inl rfl
  | _ => rfl

/-- Running a command against the host is an execution of it. -/
theorem exec_run {I : WorldState → WorldState → Prop} (hI : ∀ w, I w w) {α : Type} (p : Command α)
    (w : WorldState) : Exec (worldMachine I) p w (p.run oblige w).2.2 (p.run oblige w).2.1
      (p.run oblige w).1 := by
  refine Exec.of_run (fun w o => ?_) p w
  exact ⟨(oblige w o).2, serves_oblige w o, hI _⟩

/-! ### Discovery -/

theorem result_inspectAll (probe : GitRootProbe) (w : WorldState) : ∀ l : List (PodmanPsContainer ×
    AgentboxContainerKind), (inspectAll inspectOne probe l).result oblige w =
      (recordsOf w.podman.inspectOne probe l, w)
  | [] => rfl
  | (container, kind) :: l => by
    have hcall : (inspectOne container.id).result oblige w =
        (w.podman.inspectOne container.id, w) := result_ofExcept _ _ _
    rw [inspectAll, recordsOf]
    rcases hinspect : w.podman.inspectOne container.id with e | inspect
    · rw [hinspect] at hcall
      rw [result_bind_error hcall]
    · rw [hinspect] at hcall
      rw [result_bind_ok hcall]
      rcases hrecords : recordsOf w.podman.inspectOne probe l with e | records
      · rw [result_bind_error ((result_inspectAll probe w l).trans (by rw [hrecords]))]
      · rw [result_bind_ok ((result_inspectAll probe w l).trans (by rw [hrecords]))]
        rfl

/-- A discovery returns the view of the containers. -/
theorem result_discover (scope : SessionDiscoveryScope) (containerScope : ContainerDiscoveryScope)
    (w : WorldState) : (discover scope containerScope).result oblige w =
      (view w.host.gitRootProbe w.podman scope containerScope, w) := by
  change (discoverSessionsFromPs (w.podman.listing (listsManagedOnly containerScope)) scope
    containerScope inspectOne w.host.gitRootProbe).result oblige w = _
  rw [← discovered_listing, discovered_eq, discoverSessionsFromPs_eq]
  refine (result_bind (S := HostOps) oblige w _ _).trans ?_
  rw [result_inspectAll]
  rcases recordsOf w.podman.inspectOne w.host.gitRootProbe
    (candidates (w.podman.listing (listsManagedOnly containerScope)) scope containerScope) with
    e | records
  · rfl
  · exact result_ofExcept _ _ _

end Agentbox.Commands.Obliging
