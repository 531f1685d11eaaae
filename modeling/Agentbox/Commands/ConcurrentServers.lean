import Agentbox.Commands.AmongOthers
import Agentbox.Lib.RelyGuarantee

/-! # Servers of concurrent commands

Commands of several processes that share Podman and the locks, call by call in any order, while what
is not agentbox stops and removes containers and changes files. Each command relies on the others to
start no server of a root whose lock it holds, and guarantees the same. -/

namespace Agentbox.Commands.ConcurrentServers

open Agentbox.Base.Path Agentbox.Base.Errors Agentbox.Files.Snapshot Agentbox.Lib.Program
  Agentbox.Lib.Transition Agentbox.Lib.Interleaving Agentbox.Lib.RelyGuarantee
  Agentbox.Metadata.Labels Agentbox.Podman.Model Agentbox.Podman.State Agentbox.Runtime.Spec
  Agentbox.Workspace.Identity Agentbox.Session.Collected Agentbox.Session.RootContainers
  Agentbox.Commands.HostCalls Agentbox.Commands.LaunchLabels Agentbox.Commands.World
  Agentbox.Commands.Obliging Agentbox.Commands.RoundTrip Agentbox.Commands.SingleServer
  Agentbox.Commands.LockProtocol Agentbox.Commands.AmongOthers
open Agentbox.Session.ScopedDiscovery (demoRoot)

/-! ### Processes -/

/-- What processes share, and the locks that each one holds. -/
structure Shared (ι : Type) where
  podman : PodmanState
  host : Host
  tokens : String → Option String
  held : ι → List String

variable {ι : Type} [DecidableEq ι]

def Shared.world (x : Shared ι) (i : ι) : WorldState := ⟨x.podman, x.host, x.tokens, x.held i⟩

/-- A call of a process, and what is not agentbox after it. The system gives a lock that nobody
has; that the lock files do so is what `Lock.Exclusion` is about. -/
structure SharedStep (labelsOf : String → Option LabelMap) (i : ι) (x : Shared ι) (o : HostOp)
    (r : o.Ret) (x' : Shared ι) : Prop where
  drifts : ∃ w, serves (x.world i) o r w ∧ Drifts w.podman x'.podman ∧ x'.tokens = w.tokens ∧
    x'.held = Function.update x.held i w.held
  issued : Issued labelsOf x'.podman
  free : ∀ d ∈ x'.held i, d ∉ x.held i → ∀ j, d ∉ x.held j

def process (labelsOf : String → Option LabelMap) (i : ι) : Machine HostOps (Shared ι) where
  step x o r x' := SharedStep labelsOf i x o r x'

/-- At first nobody holds a lock, and the servers are named for their roots. -/
structure Begins (labelsOf : String → Option LabelMap) (x : Shared ι) : Prop where
  issued : Issued labelsOf x.podman
  free : ∀ i, x.held i = []
  named : ∀ c ∈ x.podman.containers, c.created = true → NamedForRoot c

/-- Processes that run one command each. -/
def sharing (labelsOf : String → Option LabelMap) (commands : ι → SessionCommand) :
    System (Threads HostOps Error Unit ι (Shared ι)) (Call HostOps ι) :=
  interleaving (process labelsOf) (Begins labelsOf) fun i p => p = (commands i).program

/-- What every call of every process keeps. -/
structure Kept (labelsOf : String → Option LabelMap) (x : Shared ι) : Prop where
  issued : Issued labelsOf x.podman
  exclusive : ∀ i j d, d ∈ x.held i → d ∈ x.held j → i = j
  named : ∀ c ∈ x.podman.containers, c.created = true → NamedForRoot c

variable {i j : ι} {x x' : Shared ι} {command : SessionCommand} {root : Utf8Path}
  {c : PodmanContainer} {labelsOf : String → Option LabelMap} {w w' : WorldState} {o : HostOp}

theorem rootOf_of_isRun {name : String} {spec : RuntimeRunSpec}
    (hserver : IsServerOf root name spec) (h : IsRun name spec c) : root.IsNormal ∧ rootOf c = some root := by
  obtain ⟨request, hresolved, rfl, rfl, hlabels⟩ := hserver
  obtain ⟨image, himage⟩ := h.labels
  have hserverLabels : ServerLabels request c.labels := himage ▸ hlabels.union image
  exact ⟨hresolved.gitRoot_isNormal, canonicalGitRoot_server hresolved hserverLabels⟩

/-- **The step lemma of the others.** A call of one process brings no server to a root whose lock
another one holds. -/
theorem noneNew_of_serves {r : o.Ret} (hstarts : StartsRight command w o) (h : serves w o r w')
    (hnormal : root.IsNormal) (hfree : gitRootDigest64 root ∉ w.held) :
    NoneNew root w.podman w'.podman := by
  by_cases hcalm : isCalm o = true
  · exact (serves_calm hcalm h).2
  cases o with
  | runDetached name spec =>
    obtain ⟨-, rfl⟩ | ⟨s, ⟨c0, hrun, hs⟩, rfl⟩ := h
    · exact .refl root _
    intro c hc hclaims
    have hc : c ∈ s.containers := hc
    rw [hs, List.mem_append, List.mem_singleton] at hc
    obtain hold | rfl := hc
    · exact ⟨c, hold, rfl⟩
    obtain ⟨root', hheld, hserver, -⟩ := hstarts name spec rfl
    obtain ⟨hnormal', hroot'⟩ := rootOf_of_isRun hserver hrun
    have hsame := (isClaimant_iff.1 hclaims).2.1
    rw [hroot', some_beq_some] at hsame
    rw [Utf8Path.eq_of_beq hnormal' hnormal hsame] at hheld
    exact absurd hheld hfree
  | lockGuard digest64 =>
    obtain ⟨-, rfl⟩ | ⟨-, rfl⟩ := h
    · exact .refl root _
    · exact .refl root _
  | unlock digest64 =>
    obtain rfl : w' = _ := h
    exact .refl root _
  | _ => exact absurd rfl hcalm

theorem named_of_serves {r : o.Ret} (hstarts : StartsRight command w o) (h : serves w o r w')
    (hnamed : ∀ c ∈ w.podman.containers, c.created = true → NamedForRoot c) :
    ∀ c ∈ w'.podman.containers, c.created = true → NamedForRoot c := by
  intro c hc hcreated
  by_cases hkeeps : keepsContainers o = true
  · exact hnamed c ((serves_keepsContainers hkeeps h).1 ▸ hc) hcreated
  cases o with
  | stopIgnore name =>
    obtain ⟨s, hstops, rfl⟩ := h
    obtain hold | ⟨c0, hc0, -, rfl⟩ := hstops.old c hc
    · exact hnamed c hold hcreated
    · exact (hnamed c0 hc0 hcreated).of_same rfl rfl
  | runDetached name spec =>
    obtain ⟨-, rfl⟩ | ⟨s, ⟨c0, hrun, hs⟩, rfl⟩ := h
    · exact hnamed c hc hcreated
    have hc : c ∈ s.containers := hc
    rw [hs, List.mem_append, List.mem_singleton] at hc
    obtain hold | rfl := hc
    · exact hnamed c hold hcreated
    · obtain ⟨root, -, hserver, -⟩ := hstarts name spec rfl
      exact namedForRoot_of_isRun hserver hrun
  | lockGuard digest64 =>
    obtain ⟨-, rfl⟩ | ⟨-, rfl⟩ := h
    · exact hnamed c hc hcreated
    · exact hnamed c hc hcreated
  | unlock digest64 =>
    obtain rfl : w' = _ := h
    exact hnamed c hc hcreated
  | _ => exact absurd rfl hkeeps

/-- **The step lemma of a process.** -/
theorem kept_of_step {r : o.Ret} (hx : Kept labelsOf x)
    (hstarts : StartsRight command (x.world i) o) (h : SharedStep labelsOf i x o r x') :
    Kept labelsOf x' := by
  obtain ⟨w, hserves, hdrifts, -, hheld⟩ := h.drifts
  refine ⟨h.issued, ?_, fun c' hc' hcreated => ?_⟩
  · have hold : ∀ a d, a ≠ i → d ∈ x'.held a → d ∈ x.held a := by
      intro a d ha hd
      rwa [hheld, Function.update_of_ne ha] at hd
    have hmine : ∀ b d, b ≠ i → d ∈ x'.held i → d ∉ x'.held b := by
      intro b d hb hd hdb
      by_cases hbefore : d ∈ x.held i
      · exact hb (hx.exclusive b i d (hold b d hb hdb) hbefore)
      · exact h.free d hd hbefore b (hold b d hb hdb)
    intro a b d ha hb
    by_cases hai : a = i
    · by_contra hne
      rw [hai] at ha
      exact hmine b d (fun hbi => hne (hai.trans hbi.symm)) ha hb
    · by_cases hbi : b = i
      · rw [hbi] at hb
        exact absurd ha (hmine a d hai hb)
      · exact hx.exclusive a b d (hold a d hai ha) (hold b d hbi hb)
  · obtain ⟨c, hc, hlisted, hsame⟩ | ⟨-, hforeign⟩ := hdrifts c' hc'
    · refine NamedForRoot.of_same (named_of_serves hstarts hserves hx.named c hc
        (hsame ▸ hcreated)) ?_ ?_
      · exact congrArg PodmanPsContainer.names hlisted
      · exact congrArg PodmanPsContainer.labels hlisted
    · rw [hforeign] at hcreated
      cases hcreated

/-- What the processes rely on is what the others guarantee. -/
theorem compatible (labelsOf : String → Option LabelMap) (commands : ι → SessionCommand) :
    Compatible (process labelsOf) (Kept labelsOf)
      (fun i x x' => Others labelsOf (x.world i) (x'.world i))
      (fun i x o => StartsRight (commands i) (x.world i) o) where
  refl i x hx := ⟨hx.issued, rfl, fun root _ _ => .refl root _⟩
  trans i x x' x'' h h' := h.trans h'
  own i x o r x' hx hstarts h := kept_of_step hx hstarts h
  other i j x o r x' hne hx hstarts h := by
    obtain ⟨w, hserves, hdrifts, -, hheld⟩ := h.drifts
    refine ⟨h.issued, ?_, fun root hnormal hmem => ?_⟩
    · exact (congrFun hheld j).trans (Function.update_of_ne (Ne.symm hne) ..)
    · exact (noneNew_of_serves hstarts hserves hnormal fun hmine =>
        hne (hx.exclusive i j _ hmine hmem)).trans (noneNew_of_drifts hdrifts)

/-- Every process stands, in whatever state it begins. -/
theorem stands (command : SessionCommand) (i : ι) (x : Shared ι) :
    Stands (process labelsOf i) (fun x x' => Others labelsOf (x.world i) (x'.world i))
      (fun x o => StartsRight command (x.world i) o) x command.program := by
  intro x' _
  refine wp_mono (wp_of_view (N := worldMachine (Others labelsOf)) (fun x : Shared ι => x.world i)
    ?_ (fun _ _ h => h) (wp_program command (x'.world i))) fun _ _ _ => trivial
  rintro y o r y' ⟨y1, hstep, hothers⟩
  obtain ⟨w, hserves, hdrifts, -, hheld⟩ := hstep.drifts
  have hmine : y1.held i = w.held := (congrFun hheld i).trans (Function.update_self ..)
  refine ⟨w, hserves, hothers.issued, hothers.held.trans hmine, fun root hnormal hmem => ?_⟩
  have hmem : gitRootDigest64 root ∈ y1.held i := by rwa [hmine]
  exact (noneNew_of_drifts hdrifts).trans (hothers.noneNew root hnormal hmem)

/-- What is safe about the servers of processes. -/
structure ServersSafe (commands : ι → SessionCommand)
    (x : Threads HostOps Error Unit ι (Shared ι)) : Prop where
  /-- A server is started under the lock of its root, where nothing claims the root that the command
  may not start it beside. -/
  starts : ∀ i name spec k, x.thread i = .call (.runDetached name spec) k →
    ∃ root, gitRootDigest64 root ∈ x.shared.held i ∧ IsServerOf root name spec ∧
      MayStartBeside root x.shared.podman (commands i)
  exclusive : ∀ i j digest64, digest64 ∈ x.shared.held i → digest64 ∈ x.shared.held j → i = j
  atMostOne : AtMostOne x.shared.podman

/-- **Concurrent commands.** In every interleaving of commands that share Podman and the locks,
while what is not agentbox changes and removes containers, each server is started where nothing else
claims its root, or beside what a restart by id leaves out, and no root ever has two servers. -/
theorem concurrent_servers (labelsOf : String → Option LabelMap) (commands : ι → SessionCommand)
    (x : Threads HostOps Error Unit ι (Shared ι)) (h : Reachable (sharing labelsOf commands) x) :
    ServersSafe commands x := by
  have hinit : ∀ x : Shared ι, Begins labelsOf x → Kept labelsOf x := by
    intro x hx
    refine ⟨hx.issued, fun i j d hd => ?_, hx.named⟩
    rw [hx.free i] at hd
    cases hd
  have hstart : ∀ i (x : Shared ι) p, Begins labelsOf x → p = (commands i).program →
      Stands (process labelsOf i) (fun x x' => Others labelsOf (x.world i) (x'.world i))
        (fun x o => StartsRight (commands i) (x.world i) o) x p := by
    rintro i x p - rfl
    exact stands (commands i) i x
  have hkept := ((compatible labelsOf commands).stands_of_reachable hinit hstart h).1
  refine ⟨fun i name spec k hcall => ?_, hkept.exclusive, atMostOne_of_named hkept.named⟩
  exact (compatible labelsOf commands).guarantee_of_reachable hinit hstart h hcall name spec rfl

/-- Two processes start a server of the demo root. -/
def demoStarts (_ : Bool) : SessionCommand :=
  .start ⟨.opencode, .none, false, ⟨none, none⟩, .utf8 demoRoot, []⟩

def demoShared : Shared Bool := ⟨demoWorld.podman, demoHost, fun _ => none, fun _ => []⟩

/-- What the host answers the first process. -/
def obligeFirst (x : Shared Bool) (o : HostOp) : o.Ret × Shared Bool :=
  let (r, w) := oblige (x.world false) o
  (r, ⟨w.podman, w.host, w.tokens, Function.update x.held false w.held⟩)

/-- What is left of a process begins with the start of a server. -/
def isStarting : Command Unit → Bool
  | .call (.runDetached _ _) _ => true
  | _ => false

theorem step_obligeFirst (x : Shared Bool) (o : HostOp) (ho : (!launches o) = true)
    (hx : x.podman.containers = [] ∧ x.held true = []) :
    SharedStep (fun _ => none) false x o (obligeFirst x o).1 (obligeFirst x o).2 ∧
      (obligeFirst x o).2.podman.containers = [] ∧ (obligeFirst x o).2.held true = [] := by
  have hserves := serves_oblige (x.world false) o
  have hempty : (oblige (x.world false) o).2.podman.containers = [] := by
    have hw : (x.world false).podman.containers = [] := hx.1
    by_cases hkeeps : keepsContainers o = true
    · rw [(serves_keepsContainers hkeeps hserves).1, hw]
    · cases o with
      | stopIgnore name => exact congrArg (List.filter _) hw
      | lockGuard digest64 => exact hw
      | unlock digest64 => exact hw
      | runDetached name spec => cases ho
      | _ => exact absurd rfl hkeeps
  refine ⟨⟨⟨_, hserves, fun c hc => .inl ⟨c, hc, rfl, rfl⟩, rfl, rfl⟩, ⟨?_, ?_⟩, ?_⟩, hempty, hx.2⟩
  · intro c hc
    rw [show (obligeFirst x o).2.podman.containers = [] from hempty] at hc
    cases hc
  · intro c hc
    rw [show (obligeFirst x o).2.podman.containers = [] from hempty] at hc
    cases hc
  · intro d _ hfree j
    cases j with
    | false => exact hfree
    | true =>
      rw [hx.2]
      exact List.not_mem_nil

/-- The first process has come to the start of its server, while the second one has not begun. -/
theorem concurrent_servers_demo : ∃ x : Threads HostOps Error Unit Bool (Shared Bool),
    Reachable (sharing (fun _ => none) demoStarts) x ∧ isStarting (x.thread false) = true ∧
      ServersSafe demoStarts x := by
  have hinit : Reachable (sharing (fun _ => none) demoStarts)
      ⟨demoShared, fun i => (demoStarts i).program⟩ := by
    refine .init ⟨⟨⟨?_, ?_⟩, fun _ => rfl, ?_⟩, fun _ => rfl⟩
    all_goals exact fun c hc => absurd hc List.not_mem_nil
  set first := upTo (fun o => !launches o) obligeFirst (demoStarts false).program demoShared
    with hfirst
  have hreach : Reachable (sharing (fun _ => none) demoStarts)
      ⟨first.2, Function.update (fun i => (demoStarts i).program) false first.1⟩ :=
    reachable_upTo (I := fun x => x.podman.containers = [] ∧ x.held true = [])
      step_obligeFirst (demoStarts false).program hinit rfl ⟨rfl, rfl⟩
  have hthread : Function.update (fun i => (demoStarts i).program) false first.1 false = first.1 :=
    Function.update_self ..
  have hstarting : isStarting first.1 = true := by
    rw [hfirst]
    decide +kernel
  exact ⟨_, hreach, (congrArg isStarting hthread).trans hstarting, concurrent_servers _ _ _ hreach⟩

end Agentbox.Commands.ConcurrentServers
