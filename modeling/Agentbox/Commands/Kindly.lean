import Agentbox.Commands.TokenAgreement
import Agentbox.Lib.Success

/-! # A host where nothing fails

Podman, the file system and the checks of the host do what they are asked: a stopped container is
removed, a server starts when its name is free, and it becomes ready. The parts of the commands
succeed on such a host. -/

namespace Agentbox.Commands.Kindly

open Agentbox.Base.Text Agentbox.Base.Path Agentbox.Base.Digest Agentbox.Base.Errors
  Agentbox.Config.Limits Agentbox.Files.Snapshot Agentbox.Lib.Entries Agentbox.Lib.Program
  Agentbox.Lib.Success
  Agentbox.Metadata.Labels Agentbox.Podman.Model Agentbox.Podman.State Agentbox.Runtime.Kind
  Agentbox.Runtime.Spec Agentbox.Workspace.Identity Agentbox.Session.Record
  Agentbox.Session.Discovery Agentbox.Session.Collected Agentbox.Session.ScopedDiscovery
  Agentbox.Session.Views
  Agentbox.Commands.HostCalls Agentbox.Commands.WorkspaceFlow Agentbox.Commands.CodexAttachAuth
  Agentbox.Commands.ContainerCleanup Agentbox.Commands.ContainerLaunch
  Agentbox.Commands.RuntimeCommand Agentbox.Commands.DetachedServer Agentbox.Commands.LaunchLabels
  Agentbox.Commands.Quiet Agentbox.Commands.World Agentbox.Commands.Obliging
  Agentbox.Commands.RoundTrip Agentbox.Commands.SingleServer Agentbox.Commands.TokenAgreement
  Agentbox.DevEnv.Environment

/-! ### Answers -/

/-- A call that can fail does not. -/
def Succeeded {α : Type} (r : Except Error α) : Prop := ∃ a, r = .ok a

def publishedPort (runtime : RuntimeKind) : String :=
  DEFAULT_HOST_ATTACH_IP ++ s!"::{runtime.attachSpec.containerPort}"

/-- The container runs with the volumes and the ports of the specification. -/
structure IsServing (spec : RuntimeRunSpec) (c : PodmanContainer) : Prop where
  running : c.running = true
  mounts : ∀ mount ∈ spec.create.mounts, mount.kind = .volume →
    ⟨.volume, mount.destination⟩ ∈ c.mounts
  published : ∀ runtime, publishedPort runtime ∈ spec.create.publishedPorts →
    ∃ endpoint, Publishes c.ports runtime endpoint

/-- One container more, which serves the specification. -/
def StartsServer (w : WorldState) (name : String) (spec : RuntimeRunSpec) (w' : WorldState) :
    Prop :=
  ∃ c, w'.podman.containers = w.podman.containers ++ [c] ∧ IsRun name spec c ∧ IsServing spec c

/-- What a call answers and leaves where nothing fails. -/
def kindly (w : WorldState) : (o : HostOp) → o.Ret → WorldState → Prop
  | .ps _, r, _ => Succeeded r
  | .inspectOne name, r, _ => r = w.podman.inspectOne name
  | .stopIgnore name, r, w' => Succeeded r ∧ w'.podman.find name = none
  | .containerExists _, r, _ => Succeeded r
  | .runDetached name spec, r, w' =>
    w.podman.find name = none → Succeeded r ∧ StartsServer w name spec w'
  | .volumeExists _, r, _ => Succeeded r
  | .lockGuard _, r, _ => Succeeded r
  | .generateToken, r, _ => Succeeded r
  | .writeToken _ _, r, _ => Succeeded r
  | .readToken digest64, r, _ => ∀ v, w.tokens digest64 = some v → r = .ok v
  | .removeToken _, r, _ => Succeeded r
  | .checkHostPrerequisites _ _, r, _ => Succeeded r
  | .resolveDevEnvironment _ _ _, r, _ => Succeeded r
  | .which _, r, _ => r = true
  | .ensureDefaultRuntimeImage _ _, r, _ => Succeeded r
  | .installInterrupt _, r, _ => Succeeded r
  | .interrupted, r, _ => r = false
  | .waitForServerEndpoint _ _ _, r, _ => ∃ endpoint, r = .ok (.ready endpoint)
  | .runHostClient _ _ _, r, _ => ∃ status, r = .ok status ∧ status.success = true
  | _, _, _ => True

def kindMachine : Machine HostOps WorldState where
  step w o r w' := serves w o r w' ∧ kindly w o r w'

/-! ### Every call is answered -/

def allPorts : PortMap :=
  .ofList (RuntimeKind.variants.map fun runtime =>
    (runtime.attachSpec.tcpPortKey, some [PodmanPortBinding.mk none (some "40000")]))

/-- The server of a specification under another id, with every port published. -/
def startedAs (id name : String) (spec : RuntimeRunSpec) : PodmanContainer :=
  { started name spec with id := id, ports := allPorts }

theorem publishes_allPorts (runtime : RuntimeKind) : Publishes allPorts runtime
    ⟨runtime.attachSpec.scheme, DEFAULT_HOST_ATTACH_IP, 40000⟩ := by
  have hparse : parseU16 "40000" = some 40000 := by decide
  have hkeys : allPorts[runtime.attachSpec.tcpPortKey]? =
      some (some [PodmanPortBinding.mk none (some "40000")]) := by
    cases runtime <;> decide +kernel
  exact ⟨_, none, "40000", hkeys, rfl, hparse, rfl, rfl⟩

theorem isServing_startedAs (id name : String) (spec : RuntimeRunSpec) :
    IsServing spec (startedAs id name spec) where
  running := rfl
  mounts mount hmount hkind := by
    refine List.mem_map.2 ⟨mount, hmount, ?_⟩
    rw [podmanMount, hkind]
  published runtime _ := ⟨_, publishes_allPorts runtime⟩

/-- There is an id that nobody has. -/
theorem exists_fresh (taken : List String) : ∃ id : String, id ∉ taken := by
  obtain ⟨chars, hchars⟩ := Infinite.exists_notMem_finset (taken.map String.toList).toFinset
  refine ⟨String.ofList chars, fun hmem => hchars ?_⟩
  refine List.mem_toFinset.2 (List.mem_map.2 ⟨_, hmem, ?_⟩)
  exact String.toList_ofList

theorem exists_startsServer {w : WorldState} {name : String} (spec : RuntimeRunSpec)
    (hfree : w.podman.find name = none) :
    ∃ s, Runs w.podman name spec s ∧ StartsServer w name spec (w.setPodman s) := by
  obtain ⟨id, hid⟩ := exists_fresh (name :: w.podman.containers.flatMap PodmanContainer.refs)
  obtain ⟨hname, hid⟩ := not_or.1 (List.mem_cons.not.1 hid)
  have hrefs : (startedAs id name spec).refs = [id, name] := rfl
  have hdistinct : ((w.podman.containers ++ [startedAs id name spec]).flatMap
      PodmanContainer.refs).Nodup := by
    rw [List.flatMap_append, List.flatMap_singleton, hrefs]
    refine w.podman.distinct.append (List.nodup_cons.2 ⟨?_, List.nodup_singleton _⟩) ?_
    · exact fun h => hname (List.mem_singleton.1 h)
    · intro ref hold hnew
      obtain rfl | rfl := List.mem_pair.1 hnew
      · exact hid hold
      · obtain ⟨c, hc, href⟩ := List.mem_flatMap.1 hold
        exact PodmanState.find_eq_none.1 hfree c hc href
  have hrun : IsRun name spec (startedAs id name spec) := ⟨rfl, ⟨demoImage, rfl⟩, rfl, rfl, rfl⟩
  exact ⟨⟨_, hdistinct⟩, ⟨_, hrun, rfl⟩, _, rfl, hrun, isServing_startedAs id name spec⟩

/-- A host where nothing fails can answer every call. -/
theorem answers_kindMachine : Answers kindMachine := by
  intro w o
  by_cases hrun : launches o = true
  · cases o with
    | runDetached name spec =>
      by_cases hfree : w.podman.find name = none
      · obtain ⟨s, hs, hstarts⟩ := exists_startsServer spec hfree
        exact ⟨.ok (), w.setPodman s, .inr ⟨s, hs, rfl⟩, fun _ => ⟨⟨(), rfl⟩, hstarts⟩⟩
      · exact ⟨.error (.msg name), w, .inl ⟨⟨_, rfl⟩, rfl⟩, fun h => absurd h hfree⟩
    | _ => cases hrun
  · refine ⟨(oblige w o).1, (oblige w o).2, serves_oblige w o, ?_⟩
    cases o with
    | runDetached name spec => exact absurd rfl hrun
    | stopIgnore name =>
      refine ⟨⟨(), rfl⟩, PodmanState.find_eq_none.2 fun c hc href => ?_⟩
      have hno := (List.mem_filter.1 hc).2
      simp [href] at hno
    | readToken digest64 =>
      intro v hv
      unfold oblige
      simp only [hv]
      rfl
    | waitForServerEndpoint name runtime context => exact ⟨_, rfl⟩
    | runHostClient argv workdir token => exact ⟨_, rfl, rfl⟩
    | inspectOne name => rfl
    | which program => rfl
    | interrupted => rfl
    | readHost | unlock _ | loadConfig | detectPassthrough _ | logsTail _ | removeVolume _ =>
      exact trivial
    | _ => exact ⟨_, rfl⟩

/-! ### Calls -/

variable {α β : Type} {w : WorldState} {Q : α → WorldState → Prop}

/-- The rule of a call that changes nothing. -/
theorem succeeds_quietCall {o : HostOp} {k : o.Ret → Command α} (ho : isQuiet o = true)
    (h : ∀ r, serves w o r w → kindly w o r w → Succeeds kindMachine (k r) Q w) :
    Succeeds kindMachine (.call o k) Q w := by
  refine succeeds_call (S := HostOps) (o := o) fun r w1 hstep => ?_
  obtain ⟨hserves, hkindly⟩ := hstep
  obtain rfl := serves_quiet ho hserves
  exact h r hserves hkindly

/-- The rule of a call that can fail, and changes nothing. -/
theorem succeeds_okCall {o : HostOp} {g : o.Ret → Except Error β} {f : β → Command α}
    (ho : isQuiet o = true) (hok : ∀ r, kindly w o r w → Succeeded (g r))
    (h : ∀ r b, serves w o r w → kindly w o r w → g r = .ok b → Succeeds kindMachine (f b) Q w) :
    Succeeds kindMachine ((Prog.call o fun r => Prog.ofExcept (g r)).bind f) Q w := by
  refine succeeds_quietCall ho fun r hserves hkindly => ?_
  obtain ⟨b, hb⟩ := hok r hkindly
  change Succeeds kindMachine ((Prog.ofExcept (g r)).bind f) Q w
  rw [hb]
  exact h r b hserves hkindly hb

theorem succeeds_readHost {f : Host → Command α} (h : Succeeds kindMachine (f w.host) Q w) :
    Succeeds kindMachine (readHost.bind f) Q w := by
  refine succeeds_quietCall rfl fun host hserves _ => ?_
  obtain ⟨rfl, -⟩ := hserves
  exact h

/-- Nobody interrupts. -/
theorem succeeds_checkInterrupted {cleanup : Command Unit} :
    Succeeds kindMachine (interrupted.bind fun stop => if stop = true then cleanup else .done ())
      (fun _ => Eq w) w := by
  refine succeeds_quietCall (o := .interrupted) rfl fun r _ hkindly => ?_
  obtain rfl : r = false := hkindly
  exact succeeds_done rfl

def locked (digest64 : String) (w : WorldState) : WorldState :=
  { w with held := digest64 :: w.held }

def unlocked (digest64 : String) (w : WorldState) : WorldState :=
  { w with held := w.held.erase digest64 }

/-- The rule of a lock. -/
theorem succeeds_withGuard {digest64 : String} {operation : Command α}
    (h : Succeeds kindMachine operation (fun a w1 => Q a (unlocked digest64 w1))
      (locked digest64 w)) :
    Succeeds kindMachine (withGuard digest64 operation) Q w := by
  refine succeeds_call (S := HostOps) (o := .lockGuard digest64) fun r w1 hstep => ?_
  obtain ⟨⟨⟨e, rfl⟩, -⟩ | ⟨rfl, rfl⟩, hkindly⟩ := hstep
  · obtain ⟨_, hok⟩ := hkindly
    cases hok
  change Succeeds kindMachine (operation.attempt.bind fun result => (unlock digest64).bind
    fun _ => Prog.ofExcept result) Q _
  refine succeeds_attempt_bind (h.mono fun a w2 hQ => ?_)
  refine succeeds_call (S := HostOps) (o := .unlock digest64) fun _ w3 hstep => ?_
  obtain ⟨hserves, -⟩ := hstep
  obtain rfl : w3 = _ := hserves
  exact succeeds_done hQ

theorem succeeds_withLockedWorkspace {directory : OsPath} {workspace : WorkspaceIdentity}
    {operation : WorkspaceIdentity → Command α}
    (hresolve : resolveWorkspaceIdentity w.host directory = .ok workspace)
    (h : Succeeds kindMachine (operation workspace)
      (fun a w1 => Q a (unlocked workspace.digest64 w1)) (locked workspace.digest64 w)) :
    Succeeds kindMachine (withLockedWorkspace directory operation) Q w := by
  refine succeeds_bind (?_ : Succeeds kindMachine (resolveWorkspace directory)
    (fun found w' => Succeeds kindMachine (withGuard found.digest64 (operation found)) Q w') w)
  exact succeeds_readHost (succeeds_ofExcept hresolve (succeeds_withGuard h))

/-! ### Discovery -/

theorem succeeds_inspectAll (probe : GitRootProbe) : ∀ (l : List (PodmanPsContainer ×
    AgentboxContainerKind)) (records : List SessionRecord),
      recordsOf w.podman.inspectOne probe l = .ok records →
        Succeeds kindMachine (inspectAll inspectOne probe l)
          (fun found w' => found = records ∧ w' = w) w
  | [], records, h => succeeds_done ⟨Except.ok.inj h, rfl⟩
  | (container, kind) :: l, records, h => by
    rw [recordsOf] at h
    rcases hinspect : w.podman.inspectOne container.id with e | inspect
    · rw [hinspect] at h
      cases h
    rcases hrest : recordsOf w.podman.inspectOne probe l with e | rest
    · rw [hinspect, hrest] at h
      cases h
    rw [hinspect, hrest] at h
    obtain rfl := Except.ok.inj h
    refine succeeds_quietCall rfl fun r _ hkindly => ?_
    obtain rfl : r = .ok inspect := hinspect ▸ hkindly
    change Succeeds kindMachine ((inspectAll inspectOne probe l).bind _) _ w
    refine succeeds_bind ((succeeds_inspectAll probe l rest hrest).mono ?_)
    rintro _ _ ⟨rfl, rfl⟩
    exact succeeds_done ⟨rfl, rfl⟩

/-- A discovery finds the view of the containers. -/
theorem succeeds_discover {scope : SessionDiscoveryScope} {containerScope : ContainerDiscoveryScope}
    {sessions : List SessionRecord} {Q : List SessionRecord → WorldState → Prop}
    (hview : view w.host.gitRootProbe w.podman scope containerScope = .ok sessions)
    (h : Q sessions w) : Succeeds kindMachine (discover scope containerScope) Q w := by
  refine succeeds_okCall (o := .ps (listsManagedOnly containerScope)) rfl (fun _ hr => hr)
    fun r containers hserves _ hr => succeeds_readHost ?_
  obtain rfl := hserves.1 containers hr
  rw [discoverSessionsFromPs_eq]
  rw [← discovered_listing, discovered_eq] at hview
  rcases hrecords : recordsOf w.podman.inspectOne w.host.gitRootProbe
    (candidates (w.podman.listing (listsManagedOnly containerScope)) scope containerScope) with
    e | records
  · rw [hrecords] at hview
    cases hview
  rw [hrecords] at hview
  refine succeeds_bind ((succeeds_inspectAll _ _ records hrecords).mono ?_)
  rintro _ _ ⟨rfl, rfl⟩
  exact succeeds_ofExcept hview h

/-! ### Launches -/

/-- Only the containers and the token of the digest have changed. -/
structure Beside (digest64 : String) (w w' : WorldState) : Prop where
  host : w'.host = w.host
  held : w'.held = w.held
  tokens : ∀ d, d ≠ digest64 → w'.tokens d = w.tokens d

theorem Beside.refl (digest64 : String) (w : WorldState) : Beside digest64 w w :=
  ⟨rfl, rfl, fun _ _ => rfl⟩

theorem Beside.trans {digest64 : String} {w' w'' : WorldState} (h : Beside digest64 w w')
    (h' : Beside digest64 w' w'') : Beside digest64 w w'' :=
  ⟨h'.host.trans h.host, h'.held.trans h.held, fun d hd => (h'.tokens d hd).trans (h.tokens d hd)⟩

theorem Beside.lock {digest64 : String} {w' : WorldState} (h : Beside digest64 w w') (d : String) :
    Beside digest64 (locked d w) (locked d w') :=
  ⟨h.host, congrArg (List.cons d) h.held, h.tokens⟩

theorem Beside.unlock {digest64 d : String} {w' : WorldState}
    (h : Beside digest64 (locked d w) w') : Beside digest64 w (unlocked d w') := by
  refine ⟨h.host, ?_, h.tokens⟩
  change w'.held.erase d = w.held
  rw [h.held]
  exact List.erase_cons_head ..

theorem beside_setToken (digest64 : String) (value : Option String) :
    Beside digest64 w (w.setToken digest64 value) :=
  ⟨rfl, rfl, fun _ hd => Function.update_of_ne hd _ _⟩

/-- What a prepared launch leaves: the token that its server and its clients need. -/
structure Readied (request : RuntimeLaunchRequest) (token : Option CodexAttachToken)
    (w w' : WorldState) : Prop where
  podman : w'.podman = w.podman
  beside : Beside request.workspace.digest64 w w'
  given : request.runtime = .codex → token.isSome = true
  stored : request.runtime = .codex → request.policy.runMode = .managedSession →
    ∃ value, IsToken value ∧ w'.tokens request.workspace.digest64 = some value
  kept : request.runtime ≠ .codex ∨ request.policy.runMode ≠ .managedSession →
    w'.tokens = w.tokens

theorem succeeds_generate {f : CodexAttachToken → Command α}
    (h : ∀ value, IsToken value → Succeeds kindMachine (f (.fromValue value)) Q w) :
    Succeeds kindMachine (CodexAttachToken.generate.bind f) Q w := by
  refine succeeds_bind (?_ : Succeeds kindMachine CodexAttachToken.generate
    (fun a w' => Succeeds kindMachine (f a) Q w') w)
  refine succeeds_okCall (o := .generateToken) rfl (fun _ hr => hr) fun r value hserves _ hr => ?_
  exact succeeds_done (h value (hserves.1 value hr))

variable {request : RuntimeLaunchRequest}

theorem succeeds_prepareCodexAttachToken (hmode : request.policy.runMode ≠ .foreground) :
    Succeeds kindMachine (prepareCodexAttachToken request.runtime request.policy.runMode
      request.workspace) (fun token w' => Readied request token w w') w := by
  rcases hruntime : request.runtime with _ | _
  · have hno : request.runtime ≠ .codex := by
      rw [hruntime]
      exact RuntimeKind.noConfusion
    exact succeeds_done ⟨rfl, .refl _ w, fun h => absurd h hno, fun h => absurd h hno, fun _ => rfl⟩
  · rcases hm : request.policy.runMode with _ | _ | _
    · refine succeeds_bind (succeeds_generate fun value hvalue => ?_)
      refine succeeds_call (S := HostOps) (o := .writeToken request.workspace.digest64 value)
        fun r w1 hstep => ?_
      obtain ⟨⟨rfl, rfl⟩ | ⟨⟨e, rfl⟩, -⟩, hkindly⟩ := hstep
      · refine succeeds_done (succeeds_done ⟨rfl, beside_setToken _ _, fun _ => rfl, fun _ _ =>
          ⟨value, hvalue, Function.update_self ..⟩, ?_⟩)
        rintro (hno | hno)
        · exact absurd hruntime hno
        · exact absurd hm hno
      · obtain ⟨_, hok⟩ := hkindly
        cases hok
    · refine succeeds_generate fun value _ => succeeds_done ⟨rfl, .refl _ w, fun _ => rfl, ?_,
        fun _ => rfl⟩
      intro _ hmanaged
      rw [hm] at hmanaged
      cases hmanaged
    · exact absurd hm hmode

theorem succeeds_ensureHostRuntimeClientAvailable {f : Unit → Command α} (runtime : RuntimeKind)
    (h : Succeeds kindMachine (f ()) Q w) :
    Succeeds kindMachine ((ensureHostRuntimeClientAvailable runtime).bind f) Q w := by
  rcases runtime with _ | _
  all_goals
    refine succeeds_quietCall (o := .which _) rfl fun r _ hkindly => ?_
    obtain rfl : r = true := hkindly
    exact h

/-- A launch is prepared where nothing stands in its way. -/
theorem succeeds_prepareRuntimeLaunch (hmode : request.policy.runMode ≠ .foreground)
    (habsent : Succeeds kindMachine (ensureRequiredResourcesAbsent request.workspace
      request.policy.existingCheck) (fun _ => Eq w) w) :
    Succeeds kindMachine (prepareRuntimeLaunch request) (fun prep w' => IsPrepared request prep ∧
      Readied request prep.codexAttachToken w w') w := by
  have hcontainer : Succeeds kindMachine (prepareContainerLaunchForWorkspace request)
      (fun _ => Eq w) w := by
    refine succeeds_okCall (o := .checkHostPrerequisites request.runtime request.policy.runMode)
      rfl (fun _ hr => hr) fun _ preflight _ _ _ => succeeds_bind (habsent.mono ?_)
    rintro - _ rfl
    refine succeeds_okCall (o := .resolveDevEnvironment _ _ _) rfl (fun _ hr => hr)
      fun _ devEnv _ _ _ => ?_
    have himage : Succeeds kindMachine ((ensureDefaultRuntimeImage request.runtime
        request.workspace.canonicalGitRoot).bind fun version =>
          .done (ContainerLaunchPreparation.mk preflight devEnv version)) (fun _ => Eq w) w :=
      succeeds_okCall (o := .ensureDefaultRuntimeImage _ _) rfl (fun _ hr => hr)
        fun _ _ _ _ _ => succeeds_done rfl
    change Succeeds kindMachine (if request.policy.hostClient = .required then _ else _) _ w
    split_ifs
    · exact succeeds_ensureHostRuntimeClientAvailable _ himage
    · exact himage
  have hprepare : Succeeds kindMachine (prepareRuntimeLaunch request)
      (fun prep w' => Readied request prep.codexAttachToken w w') w := by
    refine succeeds_bind (hcontainer.mono ?_)
    rintro preparation _ rfl
    refine succeeds_bind ((succeeds_prepareCodexAttachToken hmode).mono ?_)
    intro token w1 hready
    obtain ⟨invocation, hcommand⟩ : ∃ invocation, serverRuntimeCommand request.runtime
        request.workspace.canonicalTarget preparation.devEnv token request.serverArgs =
          .ok invocation := by
      rcases hruntime : request.runtime with _ | _
      · exact ⟨_, rfl⟩
      · obtain ⟨given, rfl⟩ := Option.isSome_iff_exists.1 (hready.given hruntime)
        exact ⟨_, rfl⟩
    refine succeeds_bind (succeeds_ofExcept hcommand ?_)
    exact succeeds_quietCall (o := .detectPassthrough _) rfl fun _ _ _ => succeeds_done hready
  exact (hprepare.and_always (isPrepared_always request)).mono fun prep w' h => ⟨h.2 prep rfl, h.1⟩

/-! ### Servers -/

/-- A server starts when its name is free, and becomes ready. -/
theorem succeeds_launchDetachedServer {workspace : WorkspaceIdentity} {runtime : RuntimeKind}
    {spec : RuntimeRunSpec} {lifecycle : DetachedServerLifecycle}
    (hcheck : ∀ w, Succeeds kindMachine lifecycle.checkInterrupted (fun _ => Eq w) w)
    (hfree : w.podman.find workspace.containerName = none) :
    Succeeds kindMachine (launchDetachedServer workspace runtime spec lifecycle) (fun _ w' =>
      Beside workspace.digest64 w w' ∧ w'.tokens = w.tokens ∧
        StartsServer w workspace.containerName spec w') w := by
  refine succeeds_okCall (o := .installInterrupt _) rfl (fun _ hr => hr) fun _ _ _ _ _ => ?_
  refine succeeds_attempt_bind (succeeds_call (S := HostOps)
    (o := .runDetached workspace.containerName spec) fun r w1 hstep => ?_)
  obtain ⟨hserves, hkindly⟩ := hstep
  obtain ⟨⟨⟨⟩, rfl⟩, hstarts⟩ := hkindly hfree
  obtain ⟨⟨_, he⟩, -⟩ | ⟨s, -, rfl⟩ := hserves
  · cases he
  refine succeeds_done (succeeds_bind ((hcheck _).mono ?_))
  rintro - _ rfl
  refine succeeds_attempt_bind (succeeds_quietCall
    (o := .waitForServerEndpoint workspace.containerName runtime lifecycle.readinessContext) rfl
    fun r _ hkindly => ?_)
  obtain ⟨endpoint, rfl⟩ := hkindly
  refine succeeds_done (succeeds_bind ((hcheck _).mono ?_))
  rintro - _ rfl
  exact succeeds_done ⟨⟨rfl, rfl, fun _ _ => rfl⟩, rfl, hstarts⟩

theorem succeeds_runHostRuntimeClientStatus {runtime : RuntimeKind} {endpoint : AttachEndpoint}
    {launchDirectory : Utf8Path} {token : Option CodexAttachToken} {clientArgs : List String}
    (htoken : runtime = .codex → token.isSome = true) :
    Succeeds kindMachine (runHostRuntimeClientStatus runtime endpoint launchDirectory token
      clientArgs) (fun status w' => status.success = true ∧ w = w') w := by
  obtain ⟨required, hrequired⟩ : ∃ required, requiredCodexClientToken runtime token =
      .ok required := by
    rcases hruntime : runtime with _ | _
    · exact ⟨_, rfl⟩
    · obtain ⟨given, rfl⟩ := Option.isSome_iff_exists.1 (htoken hruntime)
      exact ⟨_, rfl⟩
  refine succeeds_bind (succeeds_ofExcept hrequired ?_)
  refine succeeds_quietCall (o := .runHostClient _ _ _) rfl fun r _ hkindly => ?_
  obtain ⟨status, rfl, hsuccess⟩ := hkindly
  exact succeeds_done ⟨hsuccess, rfl⟩

theorem succeeds_runHostRuntimeClient {runtime : RuntimeKind} {endpoint : AttachEndpoint}
    {launchDirectory : Utf8Path} {token : Option CodexAttachToken} {clientArgs : List String}
    (htoken : runtime = .codex → token.isSome = true) :
    Succeeds kindMachine (runHostRuntimeClient runtime endpoint launchDirectory token clientArgs)
      (fun _ => Eq w) w := by
  refine succeeds_bind ((succeeds_runHostRuntimeClientStatus htoken).mono ?_)
  rintro status _ ⟨hsuccess, rfl⟩
  change Succeeds kindMachine (if status.success = true then _ else _) _ w
  rw [if_pos hsuccess]
  exact succeeds_done rfl

theorem succeeds_executeManagedServerLaunch {workspace : WorkspaceIdentity} {runtime : RuntimeKind}
    {spec : RuntimeRunSpec} {token : Option CodexAttachToken} {policy : ManagedServerLaunchPolicy}
    {completion : ManagedServerCompletion}
    (hcheck : ∀ w, Succeeds kindMachine policy.checkInterrupted (fun _ => Eq w) w)
    (htoken : runtime = .codex → token.isSome = true)
    (hfree : w.podman.find workspace.containerName = none) :
    Succeeds kindMachine (executeManagedServerLaunch workspace runtime spec token policy completion)
      (fun _ w' => Beside workspace.digest64 w w' ∧ w'.tokens = w.tokens ∧
        StartsServer w workspace.containerName spec w') w := by
  refine succeeds_bind ((@succeeds_launchDetachedServer w workspace runtime spec
    (managedServerLifecycle workspace spec policy) hcheck hfree).mono ?_)
  intro endpoint w1 hstarted
  change Succeeds kindMachine (if completion.connect = true then _ else _) _ w1
  split_ifs
  · refine succeeds_attempt_bind ((succeeds_runHostRuntimeClient htoken).mono ?_)
    rintro - _ rfl
    exact succeeds_done hstarted
  · exact succeeds_done hstarted

/-- What is left when the containers of a name have been stopped. -/
def Stopped (name : String) (w w' : WorldState) : Prop :=
  ∃ s, Stops w.podman name s ∧ s.find name = none ∧ w' = w.setPodman s

theorem succeeds_stopAndVerify (name : String) :
    Succeeds kindMachine (ManagedContainerCleanup.stopAndVerify name)
      (fun cleanup w' => cleanup.remainingFailure name = none ∧ Stopped name w w') w := by
  refine succeeds_attempt_bind (succeeds_call (S := HostOps) (o := .stopIgnore name)
    fun r w1 hstep => ?_)
  obtain ⟨⟨s, hstops, rfl⟩, ⟨⟨⟩, rfl⟩, hgone⟩ := hstep
  refine succeeds_done (succeeds_attempt_bind (succeeds_quietCall (o := .containerExists name) rfl
    fun r hserves hkindly => ?_))
  obtain ⟨exists_, rfl⟩ := hkindly
  obtain rfl : exists_ = false := by
    rw [hserves.1 exists_ rfl, hgone]
    rfl
  exact succeeds_done (succeeds_done ⟨rfl, s, hstops, hgone, rfl⟩)

end Agentbox.Commands.Kindly
