import Agentbox.Commands.Quiet
import Agentbox.Metadata.DefaultImage

/-! # The world of a command

What a command acts on: the containers of Podman, the file system, the token files and the locks it
holds. `serves` says what each call may answer and do; every call may fail. Between two calls others
may act, as far as a relation `I` allows it. -/

namespace Agentbox.Commands.World

open Agentbox.Base.Path Agentbox.Base.Digest Agentbox.Base.Errors Agentbox.Files.Snapshot
  Agentbox.Lib.Program Agentbox.Metadata.Labels Agentbox.Metadata.DefaultImage
  Agentbox.Podman.Model Agentbox.Podman.State Agentbox.Runtime.Kind Agentbox.Runtime.Spec
  Agentbox.Workspace.Identity Agentbox.Session.Record Agentbox.Session.Discovery
  Agentbox.Session.Collected Agentbox.Session.ScopedDiscovery Agentbox.Session.Views
  Agentbox.Commands.HostCalls Agentbox.Commands.WorkspaceFlow Agentbox.Commands.CodexAttachAuth
  Agentbox.Commands.ContainerLaunch Agentbox.Commands.Quiet

structure WorldState where
  podman : PodmanState
  host : Host
  /-- The contents of the token files, by digest. -/
  tokens : String → Option String
  /-- The digests of the locks that the command holds. -/
  held : List String

namespace WorldState

variable (w : WorldState)

def setPodman (p : PodmanState) : WorldState := { w with podman := p }

def setToken (digest64 : String) (value : Option String) : WorldState :=
  { w with tokens := Function.update w.tokens digest64 value }

end WorldState

def PodmanContainer.stopped (c : PodmanContainer) : PodmanContainer := { c with running := false }

/-- `podman stop` of a reference: no other container is touched. -/
structure Stops (s : PodmanState) (ref : String) (s' : PodmanState) : Prop where
  only : ∀ c ∈ s.containers, ref ∉ c.refs → c ∈ s'.containers
  old : ∀ c ∈ s'.containers, c ∈ s.containers ∨
    ∃ c0 ∈ s.containers, ref ∈ c0.refs ∧ c = PodmanContainer.stopped c0

/-- The container is one that `podman run` makes of the specification. -/
structure IsRun (name : String) (spec : RuntimeRunSpec) (c : PodmanContainer) : Prop where
  names : c.names = some [name]
  labels : ∃ image : RuntimeImage, c.labels = image.labels ∪ spec.create.labels
  workdir : c.workdir = spec.workdir
  command : c.command = spec.create.command
  created : c.created = true

/-- `podman run`: one container more. -/
def Runs (s : PodmanState) (name : String) (spec : RuntimeRunSpec) (s' : PodmanState) : Prop :=
  ∃ c, IsRun name spec c ∧ s'.containers = s.containers ++ [c]

/-- The answer of a call that may fail is true when it does not. -/
def Tells {α : Type} (r : Except Error α) (P : α → Prop) : Prop := ∀ a, r = .ok a → P a

def Failed {α : Type} (r : Except Error α) : Prop := ∃ e, r = .error e

theorem tells_ok {α : Type} {a : α} {P : α → Prop} (h : P a) : Tells (.ok a) P := by
  intro a' ha
  cases ha
  exact h

/-- What a call may answer in a world, and the worlds it may leave. -/
def serves (w : WorldState) : (o : HostOp) → o.Ret → WorldState → Prop
  | .readHost, r, w' => r = w.host ∧ w' = w
  | .ps managedOnly, r, w' => Tells r (fun l => l = w.podman.listing managedOnly) ∧ w' = w
  | .inspectOne name, r, w' => Tells r (fun i => w.podman.inspectOne name = .ok i) ∧ w' = w
  | .stopIgnore name, _, w' => ∃ s, Stops w.podman name s ∧ w' = w.setPodman s
  | .containerExists name, r, w' => Tells r (fun b => b = (w.podman.find name).isSome) ∧ w' = w
  | .runDetached name spec, r, w' =>
    Failed r ∧ w' = w ∨ ∃ s, Runs w.podman name spec s ∧ w' = w.setPodman s
  | .lockGuard digest64, r, w' =>
    Failed r ∧ w' = w ∨ r = .ok () ∧ w' = { w with held := digest64 :: w.held }
  | .unlock digest64, _, w' => w' = { w with held := w.held.erase digest64 }
  | .generateToken, r, w' => Tells r (fun v => ∃ bytes, bytes.length = 32 ∧ v = hexLower bytes) ∧ w' = w
  | .writeToken digest64 value, r, w' =>
    r = .ok () ∧ w' = w.setToken digest64 (some value) ∨
      Failed r ∧ ∃ value', w' = w.setToken digest64 value'
  | .readToken digest64, r, w' => (∀ v, r = .ok v → w.tokens digest64 = some v) ∧ w' = w
  | .removeToken digest64, r, w' =>
    w' = w.setToken digest64 none ∨ Failed r ∧ w' = w
  | _, _, w' => w' = w

/-- The machine of a command with others acting as `I` allows. -/
def worldMachine (I : WorldState → WorldState → Prop) : Machine HostOps WorldState where
  step w o r w' := ∃ w1, serves w o r w1 ∧ I w1 w'

variable {I : WorldState → WorldState → Prop} {Φ : WorldState → HostOp → Prop}

theorem serves_quiet {w w' : WorldState} {o : HostOp} {r : o.Ret} (ho : isQuiet o = true)
    (h : serves w o r w') : w' = w := by
  cases o <;> first | exact h.2 | exact h | cases ho

/-! ### Rules -/

/-- Others keep what `J` says. -/
def Stable (I : WorldState → WorldState → Prop) (J : WorldState → Prop) : Prop :=
  ∀ w w1, J w → I w w1 → J w1

variable {J : WorldState → Prop} {w : WorldState} {α : Type}

/-- A quiet part keeps what others keep. -/
theorem wp_quiet {p : Command α} (hp : IsQuiet p) (hΦ : ∀ w o, isQuiet o = true → J w → Φ w o)
    (hI : Stable I J) (hw : J w) : wp (worldMachine I) Φ p (fun _ w => J w) w := by
  have hstep : ∀ (w : WorldState) (o : HostOps.Op) (r : HostOps.Ret o) (w' : WorldState),
      isQuiet o = true → J w → (worldMachine I).step w o r w' → J w' := by
    rintro w o r w' ho hJ ⟨w1, hserves, hothers⟩
    rw [serves_quiet ho hserves] at hothers
    exact hI w w' hJ hothers
  exact wp_mono (wp_of_always (fun w o ho hJ => hΦ w o ho hJ) hstep hp hw) fun _ _ h => h.2

/-- The rule of a quiet call: others act after it. -/
theorem wp_quietCall {o : HostOp} {k : o.Ret → Command α} {Q : Except Error α → WorldState → Prop}
    (ho : isQuiet o = true) (hΦ : Φ w o) (hI : Stable I J) (hw : J w)
    (hk : ∀ r w1, serves w o r w → J w1 → wp (worldMachine I) Φ (k r) Q w1) :
    wp (worldMachine I) Φ (.call o k) Q w := by
  refine ⟨hΦ, ?_⟩
  rintro r w' ⟨w1, hserves, hothers⟩
  have heq := serves_quiet ho hserves
  subst heq
  exact hk r w' hserves (hI _ _ hw hothers)

/-! ### Locks -/

section
variable {σ : Type} {M : Machine HostOps σ} {Ψ : σ → HostOps.Op → Prop} {x x' : σ}
  {t : List (Event HostOps σ)} {digest64 : String} {operation : Command α}

/-- The rule of an operation under a lock. -/
theorem wp_withGuard {Q : Except Error α → σ → Prop} (hlock : Ψ x (.lockGuard digest64))
    (hfail : ∀ e x1, M.step x (.lockGuard digest64) (.error e) x1 → Q (.error e) x1)
    (hop : ∀ x1, M.step x (.lockGuard digest64) (.ok ()) x1 →
      wp M Ψ operation (fun r x2 => Ψ x2 (.unlock digest64) ∧
        ∀ x3, M.step x2 (.unlock digest64) () x3 → Q r x3) x1) :
    wp M Ψ (withGuard digest64 operation) Q x := by
  refine ⟨hlock, fun r x1 hstep => ?_⟩
  rcases r with e | ⟨⟩
  · exact hfail e x1 hstep
  · change wp M Ψ (operation.attempt.bind fun result =>
      (unlock digest64).bind fun _ => Prog.ofExcept result) Q x1
    refine (wp_bind _ _ _ _).2 ((wp_attempt _ _ _).2 (wp_mono (hop x1 hstep) ?_))
    rintro r x2 ⟨hunlock, hQ⟩
    refine ⟨hunlock, fun _ x3 hstep => ?_⟩
    exact (wp_ofExcept _ _).2 (hQ x3 hstep)

theorem exec_withGuard_ok {a : α} (h : Exec M (withGuard digest64 operation) x t x' (.ok a)) :
    ∃ x1 x2 t1, Exec M operation x1 t1 x2 (.ok a) ∧ t1 ⊆ t := by
  obtain ⟨r, x1, t1, rfl, -, h1⟩ := exec_call.1 h
  rcases r with e | ⟨⟩
  · cases h1
  · change Exec M (operation.attempt.bind fun result =>
      (unlock digest64).bind fun _ => Prog.ofExcept result) x1 t1 x' (.ok a) at h1
    obtain ⟨_, he, -⟩ | ⟨result, x2, t2, t3, rfl, h2, h3⟩ := exec_bind.1 h1
    · cases he
    · obtain ⟨r, hr, h2⟩ := exec_attempt.1 h2
      cases hr
      obtain ⟨_, x3, t4, rfl, -, h4⟩ := exec_call.1 h3
      rcases result with e | a'
      · cases h4
      · obtain ⟨rfl, rfl, hr⟩ := exec_done.1 h4
        cases hr
        exact ⟨x1, x2, t2, h2, fun e he => List.mem_cons_of_mem _ (List.mem_append_left _ he)⟩

theorem calls_withGuard {B : HostOps.Op → Prop} (h : Calls B operation) (digest64 : String) :
    Calls B (withGuard digest64 operation) := by
  intro σ M x x' t a hexec
  obtain ⟨x1, x2, t1, h1, hsub⟩ := exec_withGuard_ok hexec
  obtain ⟨e, he, hB⟩ := h σ M x1 x2 t1 a h1
  exact ⟨e, hsub he, hB⟩

end

/-! ### Frames -/

/-- The operation changes no container and no lock. -/
def keepsContainers : HostOp → Bool
  | .stopIgnore _ | .runDetached _ _ | .lockGuard _ | .unlock _ => false
  | _ => true

theorem keepsContainers_of_isQuiet : ∀ {o : HostOp}, isQuiet o = true → keepsContainers o = true
  | o, h => by cases o <;> first | rfl | cases h

theorem serves_keepsContainers {w w' : WorldState} {o : HostOp} {r : o.Ret}
    (ho : keepsContainers o = true) (h : serves w o r w') :
    w'.podman = w.podman ∧ w'.host = w.host ∧ w'.held = w.held := by
  by_cases hq : isQuiet o = true
  · rw [serves_quiet hq h]
    exact ⟨rfl, rfl, rfl⟩
  · cases o with
    | writeToken digest64 value =>
      obtain ⟨-, rfl⟩ | ⟨-, v, rfl⟩ := h
      · exact ⟨rfl, rfl, rfl⟩
      · exact ⟨rfl, rfl, rfl⟩
    | removeToken digest64 =>
      obtain rfl | ⟨-, rfl⟩ := h
      · exact ⟨rfl, rfl, rfl⟩
      · exact ⟨rfl, rfl, rfl⟩
    | stopIgnore _ | runDetached _ _ | lockGuard _ | unlock _ => cases ho
    | _ => exact absurd rfl hq

/-- Tokens may be written, or removed, and nothing else. -/
def KeepsContainers (p : Command α) : Prop := Only (S := HostOps) (fun o => keepsContainers o = true) p

theorem keeps_of_isQuiet {p : Command α} (h : IsQuiet p) : KeepsContainers p :=
  Only.weaken h fun _ => keepsContainers_of_isQuiet

theorem keepsContainers_prepareCodexAttachToken (runtime : RuntimeKind) (runMode : RuntimeRunMode)
    (workspace : WorkspaceIdentity) :
    KeepsContainers (prepareCodexAttachToken runtime runMode workspace) := by
  have hgenerate : KeepsContainers CodexAttachToken.generate :=
    .bind (keeps_of_isQuiet reading_generateToken.quiet) fun _ => only_done _
  unfold prepareCodexAttachToken
  split
  · exact only_done _
  · refine .bind (.bind hgenerate fun token => .bind ?_ fun _ => only_done _) fun _ => only_done _
    exact ⟨rfl, only_ofExcept⟩
  · exact .bind hgenerate fun _ => only_done _
  · exact only_done _

theorem keepsContainers_prepareRuntimeLaunch (request : RuntimeLaunchRequest) :
    KeepsContainers (prepareRuntimeLaunch request) := by
  refine .bind (keeps_of_isQuiet (reading_prepareContainerLaunchForWorkspace _).quiet) fun preparation =>
    .bind (keepsContainers_prepareCodexAttachToken _ _ _) fun token =>
    .bind (only_ofExcept _) fun invocation => ?_
  exact .bind (keeps_of_isQuiet (reading_detectPassthrough _).quiet) fun _ => only_done _

/-- A part that keeps the containers keeps what others keep of them. -/
theorem wp_keepsContainers {p : Command α} (hp : KeepsContainers p)
    (hΦ : ∀ w o, keepsContainers o = true → J w → Φ w o) (hI : Stable I J)
    (hJ : ∀ w w', w'.podman = w.podman → w'.host = w.host → w'.held = w.held → J w → J w')
    (hw : J w) : wp (worldMachine I) Φ p (fun _ w => J w) w := by
  have hstep : ∀ (w : WorldState) (o : HostOps.Op) (r : HostOps.Ret o) (w' : WorldState),
      keepsContainers o = true → J w → (worldMachine I).step w o r w' → J w' := by
    rintro w o r w' ho hw ⟨w1, hserves, hothers⟩
    obtain ⟨hpodman, hhost, hheld⟩ := serves_keepsContainers ho hserves
    exact hI w1 w' (hJ w w1 hpodman hhost hheld hw) hothers
  exact wp_mono (wp_of_always (fun w o ho hw => hΦ w o ho hw) hstep hp hw) fun _ _ h => h.2

/-! ### Discovery -/

section
variable {s : PodmanState} (hΦ : ∀ w o, isQuiet o = true → J w → Φ w o) (hI : Stable I J)
  (hs : ∀ w, J w → w.podman = s)
include hΦ hI hs

/-- Inspections that succeed are those of the containers. -/
theorem wp_inspectAll (probe : GitRootProbe) : ∀ (l : List (PodmanPsContainer ×
    Agentbox.Metadata.Labels.AgentboxContainerKind)) (w : WorldState), J w →
      wp (worldMachine I) Φ (inspectAll inspectOne probe l)
        (fun r w => J w ∧ Tells r fun records => recordsOf s.inspectOne probe l = .ok records) w
  | [], w, hw => ⟨hw, fun records h => by cases h; rfl⟩
  | (container, kind) :: l, w, hw => by
    refine wp_quietCall rfl (hΦ w _ rfl hw) hI hw fun r w1 hserves hw1 => ?_
    rcases r with e | inspect
    · exact ⟨hw1, fun _ h => nomatch h⟩
    · have hinspect : s.inspectOne container.id = .ok inspect := hs w hw ▸ hserves.1 inspect rfl
      change wp _ _ ((inspectAll inspectOne probe l).bind _) _ w1
      refine (wp_bind _ _ _ _).2 (wp_mono (wp_inspectAll probe l w1 hw1) ?_)
      rintro (e | records) w2 ⟨hw2, hrecords⟩
      · exact ⟨hw2, fun _ h => nomatch h⟩
      · refine ⟨hw2, fun records' h => ?_⟩
        cases h
        rw [recordsOf, hinspect, hrecords records rfl]

/-- A discovery that succeeds returns the view of the containers. -/
theorem wp_discover (scope : SessionDiscoveryScope) (containerScope : ContainerDiscoveryScope)
    (hw : J w) : wp (worldMachine I) Φ (discover scope containerScope)
      (fun r w => J w ∧ Tells r fun sessions => ∃ w1, J w1 ∧
        view w1.host.gitRootProbe s scope containerScope = .ok sessions) w := by
  refine wp_quietCall rfl (hΦ w _ rfl hw) hI hw fun r w1 hserves hw1 => ?_
  rcases r with e | containers
  · exact ⟨hw1, fun _ h => nomatch h⟩
  have hlist : containers = s.listing (listsManagedOnly containerScope) :=
    hs w hw ▸ hserves.1 containers rfl
  refine wp_quietCall rfl (hΦ w1 _ rfl hw1) hI hw1 fun host w2 hserves hw2 => ?_
  obtain ⟨rfl, -⟩ := hserves
  change wp _ _ (discoverSessionsFromPs containers scope containerScope inspectOne
    w1.host.gitRootProbe) _ w2
  rw [discoverSessionsFromPs_eq]
  refine (wp_bind _ _ _ _).2 (wp_mono (wp_inspectAll hΦ hI hs _ _ w2 hw2) ?_)
  rintro (e | records) w3 ⟨hw3, hrecords⟩
  · exact ⟨hw3, fun _ h => nomatch h⟩
  · refine (wp_ofExcept _ _).2 ⟨hw3, fun sessions h => ⟨w1, hw1, ?_⟩⟩
    rw [← discovered_listing, discovered_eq, ← hlist, hrecords records rfl]
    exact h

end

/-! ### When nothing else changes -/

/-- The host is read, and nothing changes. -/
theorem exec_readHost {α : Type} {w w' : WorldState} {t : List (Event HostOps WorldState)}
    {f : Host → Command α} {res : Except Error α}
    (h : Exec (worldMachine Eq) (readHost.bind f) w t w' res) :
    ∃ t', t = ⟨w, .readHost, w.host, w⟩ :: t' ∧ Exec (worldMachine Eq) (f w.host) w t' w' res := by
  obtain ⟨host, w1, t', rfl, ⟨w2, ⟨hhost, hw⟩, hsame⟩, hrest⟩ := exec_call.1 h
  subst hsame
  subst hw
  subst hhost
  exact ⟨t', rfl, hrest⟩

theorem exec_discover {w w' : WorldState} {t : List (Event HostOps WorldState)}
    {scope : SessionDiscoveryScope} {containerScope : ContainerDiscoveryScope}
    {sessions : List SessionRecord}
    (h : Exec (worldMachine Eq) (discover scope containerScope) w t w' (.ok sessions)) :
    w' = w ∧ view w.host.gitRootProbe w.podman scope containerScope = .ok sessions := by
  have hwp := @wp_discover Eq (fun _ _ => True) (fun x => x = w) w w.podman
    (fun _ _ _ _ => trivial) (fun x y hx hxy => hxy ▸ hx) (fun x hx => by rw [hx]) scope
    containerScope rfl
  obtain ⟨⟨hw, htells⟩, -⟩ := h.of_wp hwp
  obtain ⟨w1, rfl, hview⟩ := htells sessions rfl
  exact ⟨hw, hview⟩

end Agentbox.Commands.World
