import Agentbox.Commands.RoundTrip
import Agentbox.Commands.TransientRun

/-! # Interrupted launches

What `start` and `run` clean up when Ctrl-C is noticed. The container is known by its name only, so a
container that had the name before is stopped when `podman run` fails. -/

namespace Agentbox.Commands.Interrupts

open Agentbox.Base.Path Agentbox.Base.Errors Agentbox.Config.Limits Agentbox.Files.Snapshot
  Agentbox.Lib.Program Agentbox.Podman.Model Agentbox.Podman.State Agentbox.Runtime.Kind Agentbox.Runtime.Spec
  Agentbox.Workspace.Identity Agentbox.Session.Discovery Agentbox.Session.ScopedDiscovery
  Agentbox.Session.Views Agentbox.Session.ConnectView
  Agentbox.Commands.HostCalls Agentbox.Commands.WorkspaceFlow Agentbox.Commands.CodexAttachAuth
  Agentbox.Commands.ContainerCleanup Agentbox.Commands.RuntimeCommand
  Agentbox.Commands.ContainerLaunch Agentbox.Commands.DetachedServer Agentbox.Commands.Start
  Agentbox.Commands.Quiet Agentbox.Commands.World Agentbox.Commands.Obliging
  Agentbox.Commands.RoundTrip Agentbox.Commands.TransientRun

/-! ### The machine -/

/-- The containers and volumes of Podman, and what is remembered of the launch. -/
structure LaunchWorld where
  podman : PodmanState
  volumes : List String
  /-- The name that `podman run` was given. -/
  launched : String
  /-- The ids of the containers that were there when it was. -/
  before : List String
  /-- The volumes that were there when it was. -/
  volumesBefore : List String
  /-- The names that Podman has since answered to be free. -/
  verified : List String
  /-- The last call has noticed Ctrl-C. -/
  noticed : Bool

def LaunchWorld.initial (podman : PodmanState) (volumes : List String) : LaunchWorld where
  podman
  volumes
  launched := ""
  before := []
  volumesBefore := []
  verified := []
  noticed := false

def isNoticed : (o : HostOp) × o.Ret → Bool
  | ⟨.interrupted, r⟩ => r
  | _ => false

/-- Containers come and go. None of `old` changes its names, or comes back. -/
def Moves (old : List String) (s s' : PodmanState) : Prop :=
  ∀ c' ∈ s'.containers, (∃ c ∈ s.containers, c.id = c'.id ∧ c.refs = c'.refs) ∨ c'.id ∉ old

/-- Only `podman run` creates volumes. -/
structure Keeps (w w' : LaunchWorld) : Prop where
  launched : w'.launched = w.launched
  before : w'.before = w.before
  volumesBefore : w'.volumesBefore = w.volumesBefore
  volumes : w'.volumes ⊆ w.volumes
  moves : Moves w.before w.podman w'.podman

def addVerified (containerName : String) (l : List String) : Except Error Bool → List String
  | .ok false => containerName :: l
  | _ => l

/-- `podman run` may fail at any point. When it succeeds, a new container has the name. -/
structure IsLaunch (w : LaunchWorld) (containerName : String) (r : Except Error Unit)
    (w' : LaunchWorld) : Prop where
  launched : w'.launched = containerName
  before : w'.before = w.podman.containers.map PodmanContainer.id
  volumesBefore : w'.volumesBefore = w.volumes
  verified : w'.verified = []
  moves : Moves w'.before w.podman w'.podman
  created : r = .ok () → ∃ c ∈ w'.podman.containers, c.id ∉ w'.before ∧ containerName ∈ c.refs

def launches (w : LaunchWorld) : (o : HostOp) → o.Ret → LaunchWorld → Prop
  | .runDetached containerName _, r, w' => IsLaunch w containerName r w'
  | .containerExists containerName, r, w' =>
    Keeps w w' ∧ w'.verified = addVerified containerName w.verified r
  | .volumeExists volume, r, w' => Keeps w w' ∧ w'.verified = w.verified ∧
    Tells r fun b => b = decide (volume ∈ w.volumes)
  | _, _, w' => Keeps w w' ∧ w'.verified = w.verified

/-- Every other call may answer anything, and Ctrl-C may come at any moment. -/
def launchMachine : Machine HostOps LaunchWorld where
  step w o r w' := w'.noticed = isNoticed ⟨o, r⟩ ∧ launches w o r w'

/-- The name is not that of a container from before. -/
def Free (w : LaunchWorld) : Prop :=
  ∀ c ∈ w.podman.containers, w.launched ∈ c.refs → c.id ∉ w.before

/-- No container from before is stopped. A volume is removed that was not there before, and when the
container of its name has been found to be gone. -/
def TouchesOwn (w : LaunchWorld) : HostOp → Prop
  | .stopIgnore containerName => ∀ c ∈ w.podman.containers, containerName ∈ c.refs → c.id ∉ w.before
  | .removeVolume volume => volume ∉ w.volumesBefore ∧ volume ∈ w.verified
  | _ => True

/-! ### Free names -/

theorem Free.of_keeps {w w' : LaunchWorld} (h : Free w) (hkeeps : Keeps w w') : Free w' := by
  intro c' hc' href
  rw [hkeeps.launched] at href
  rw [hkeeps.before]
  obtain ⟨c, hc, hid, hrefs⟩ | hnew := hkeeps.moves c' hc'
  · rw [← hid]
    exact h c hc (hrefs ▸ href)
  · exact hnew

/-- A name is free after a `podman run` that succeeded. -/
theorem free_of_ok {w w' : LaunchWorld} {containerName : String}
    (h : IsLaunch w containerName (.ok ()) w') : Free w' := by
  intro c' hc' href hold
  obtain ⟨c, hc, hnew, hname⟩ := h.created rfl
  rw [h.launched] at href
  have heq : c' = c := w'.podman.eq_of_mem_refs hc' hc href hname
  exact hnew (heq ▸ hold)

/-- A name that no container had is free after `podman run`. -/
theorem free_of_unused {w w' : LaunchWorld} {containerName : String} {r : Except Error Unit}
    (h : IsLaunch w containerName r w')
    (hunused : ∀ c ∈ w.podman.containers, containerName ∉ c.refs) : Free w' := by
  intro c' hc' href
  rw [h.launched] at href
  obtain ⟨c, hc, -, hrefs⟩ | hnew := h.moves c' hc'
  · exact absurd (hrefs ▸ href) (hunused c hc)
  · exact hnew

/-! ### What every call meets -/

/-- After a noticed Ctrl-C the container is stopped next. -/
def Guarded (w : LaunchWorld) : HostOp → Prop
  | .stopIgnore containerName => containerName = w.launched ∧ (w.noticed = true ∨ Free w)
  | .removeVolume volume => w.noticed = false ∧ volume ∉ w.volumesBefore ∧ volume ∈ w.verified
  | _ => w.noticed = false

section
variable {α : Type} {p : Command α} {podman : PodmanState} {volumes : List String}
  {w' : LaunchWorld} {t : List (Event HostOps LaunchWorld)} {res : Except Error α}

/-- The stop after a noticed Ctrl-C is the only one that can meet a name that is taken. -/
theorem touchesOwn_iff_of_guarded (h : Exec launchMachine p (.initial podman volumes) t w' res)
    (hp : wp launchMachine Guarded p (fun _ w => w.noticed = false) (.initial podman volumes)) :
    (∀ e ∈ t, TouchesOwn e.pre e.op) ↔
      ∀ e ∈ t, isNoticed ⟨e.op, e.ret⟩ = true → Free e.post := by
  obtain ⟨hend, hguarded⟩ := h.of_wp hp
  have hnoticed : ∀ e ∈ t, e.post.noticed = isNoticed ⟨e.op, e.ret⟩ :=
    fun e he => (h.step_of_mem he).1
  constructor
  · intro hown e he hctrl
    have hpost : e.post.noticed = true := (hnoticed e he).trans hctrl
    obtain heq | ⟨after, hafter, hpre⟩ := h.post_of_mem he
    · rw [heq, hend] at hpost
      cases hpost
    · have hg := hguarded after hafter
      have ho := hown after hafter
      rw [hpre] at hg ho
      rcases after with ⟨pre, o, r, post⟩
      cases o with
      | stopIgnore containerName =>
        obtain ⟨rfl, -⟩ := hg
        exact ho
      | removeVolume volume =>
        have hfalse : e.post.noticed = false := hg.1
        rw [hpost] at hfalse
        cases hfalse
      | _ =>
        have hfalse : e.post.noticed = false := hg
        rw [hpost] at hfalse
        cases hfalse
  · intro hfree e he
    have hg := hguarded e he
    have hlast : e.pre.noticed = true → Free e.pre := by
      intro hpre
      obtain heq | ⟨before, hbefore, hpost⟩ := h.pre_of_mem he
      · rw [heq] at hpre
        cases hpre
      · rw [← hpost] at hpre ⊢
        exact hfree before hbefore ((hnoticed before hbefore).symm.trans hpre)
    rcases e with ⟨pre, o, r, post⟩
    cases o with
    | stopIgnore containerName =>
      obtain ⟨hname, hcase⟩ := hg
      intro c hc href
      exact hcase.elim hlast id c hc (hname ▸ href)
    | removeVolume volume => exact hg.2
    | _ => trivial

end

/-! ### Parts of the commands -/

/-- The calls that nothing here depends on. -/
def isMild : HostOp → Bool
  | .stopIgnore _ | .containerExists _ | .runDetached _ _ | .removeVolume _ | .interrupted => false
  | _ => true

theorem isMild_of_isReading : ∀ {o : HostOp}, isReading o = true → isMild o = true
  | o, h => by cases o <;> first | rfl | cases h

theorem guarded_of_isMild {w : LaunchWorld} {o : HostOp} (ho : isMild o = true)
    (hw : w.noticed = false) : Guarded w o := by
  cases o <;> first | exact hw | cases ho

theorem step_of_isMild {w w' : LaunchWorld} {o : HostOp} {r : o.Ret} (ho : isMild o = true)
    (h : launchMachine.step w o r w') : Keeps w w' ∧ w'.noticed = false := by
  obtain ⟨hnoticed, h⟩ := h
  cases o <;> first | exact ⟨h.1, hnoticed⟩ | cases ho

/-- Nothing is noticed, and what `I` says of it stays. -/
structure Stage (I : LaunchWorld → Prop) : Prop where
  noticed : ∀ w, I w → w.noticed = false
  keeps : ∀ w w', I w → Keeps w w' → w'.noticed = false → I w'

variable {α : Type} {I : LaunchWorld → Prop} {w : LaunchWorld}

/-- The rule of a mild part. -/
theorem wp_mild {p : Command α} (hp : Only (S := HostOps) (fun o => isMild o = true) p)
    (hI : Stage I) (hw : I w) : wp launchMachine Guarded p (fun _ w => I w) w := by
  have hstep : ∀ (w : LaunchWorld) (o : HostOps.Op) (r : HostOps.Ret o) (w' : LaunchWorld),
      isMild o = true → I w → launchMachine.step w o r w' → I w' := by
    intro w o r w' ho hw h
    obtain ⟨hkeeps, hnoticed⟩ := step_of_isMild ho h
    exact hI.keeps w w' hw hkeeps hnoticed
  exact wp_mono (wp_of_always (A := fun o : HostOps.Op => isMild o = true)
    (fun w o ho hw => guarded_of_isMild ho (hI.noticed w hw)) hstep hp hw) fun _ _ h => h.2

theorem wp_reading {p : Command α} (hp : IsReading p) (hI : Stage I) (hw : I w) :
    wp launchMachine Guarded p (fun _ w => I w) w :=
  wp_mild (Only.weaken hp fun _ => isMild_of_isReading) hI hw

theorem stage_noticed : Stage fun w => w.noticed = false :=
  ⟨fun _ h => h, fun _ _ _ _ h => h⟩

theorem mild_prepareRuntimeLaunch (request : RuntimeLaunchRequest) :
    Only (S := HostOps) (fun o => isMild o = true) (prepareRuntimeLaunch request) := by
  have hgenerate : Only (S := HostOps) (fun o => isMild o = true) CodexAttachToken.generate :=
    Only.bind ⟨rfl, only_ofExcept⟩ fun _ => only_done _
  have htoken : Only (S := HostOps) (fun o => isMild o = true) (prepareCodexAttachToken
      request.runtime request.policy.runMode request.workspace) := by
    unfold prepareCodexAttachToken
    split
    · exact only_done _
    · refine Only.bind (hgenerate.bind fun token => Only.bind ?_ fun _ => only_done _)
        fun _ => only_done _
      exact ⟨rfl, only_ofExcept⟩
    · exact hgenerate.bind fun _ => only_done _
    · exact only_done _
  refine Only.bind (Only.weaken (reading_prepareContainerLaunchForWorkspace request)
    fun _ => isMild_of_isReading) fun preparation => htoken.bind fun token =>
    Only.bind (only_ofExcept _) fun invocation => Only.bind ⟨rfl, only_done⟩ fun _ => only_done _

/-! ### Cleanups -/

section
variable {containerName : String} {existed : Bool}

/-- After `podman run`: the volume was not there before, when the command has seen that. -/
structure Launched (containerName : String) (existed : Bool) (w : LaunchWorld) : Prop where
  noticed : w.noticed = false
  launched : w.launched = containerName
  volume : existed = false → containerName ∉ w.volumesBefore

theorem Launched.of_keeps {w w' : LaunchWorld} (h : Launched containerName existed w)
    (hkeeps : Keeps w w') (hnoticed : w'.noticed = false) : Launched containerName existed w' where
  noticed := hnoticed
  launched := hkeeps.launched.trans h.launched
  volume := by
    rw [hkeeps.volumesBefore]
    exact h.volume

theorem stage_launched : Stage (Launched containerName existed) :=
  ⟨fun _ h => h.noticed, fun _ _ h hkeeps hnoticed => h.of_keeps hkeeps hnoticed⟩

/-- After a `podman run` that succeeded. -/
def Running (containerName : String) (existed : Bool) (w : LaunchWorld) : Prop :=
  Launched containerName existed w ∧ Free w

theorem stage_running : Stage (Running containerName existed) :=
  ⟨fun _ h => h.1.noticed, fun _ _ h hkeeps hnoticed =>
    ⟨h.1.of_keeps hkeeps hnoticed, h.2.of_keeps hkeeps⟩⟩

/-- The stop after a noticed Ctrl-C, or of a free name. -/
theorem wp_stopAndVerify (hlaunched : w.launched = containerName)
    (hvolume : existed = false → containerName ∉ w.volumesBefore)
    (hmay : w.noticed = true ∨ Free w) :
    wp launchMachine Guarded (ManagedContainerCleanup.stopAndVerify containerName)
      (fun r w' => Launched containerName existed w' ∧
        ∀ cleanup, r = .ok cleanup → cleanup.containerRemoved = true →
          containerName ∈ w'.verified) w := by
  refine (wp_bind _ _ _ _).2 ((wp_attempt _ _ _).2 ⟨⟨hlaunched.symm, hmay⟩, fun r w1 hstep => ?_⟩)
  obtain ⟨hnoticed, hkeeps, -⟩ := hstep
  have hw1 : Launched containerName existed w1 :=
    ⟨hnoticed, hkeeps.launched.trans hlaunched, by rw [hkeeps.volumesBefore]; exact hvolume⟩
  refine (wp_ofExcept _ _).2 ?_
  change wp _ _ ((containerExists containerName).attempt.bind fun verified => .done _) _ w1
  refine (wp_bind _ _ _ _).2 ((wp_attempt _ _ _).2 ⟨hw1.noticed, fun verified w2 hstep => ?_⟩)
  obtain ⟨hnoticed, hkeeps, hverified⟩ := hstep
  refine (wp_ofExcept _ _).2 ⟨hw1.of_keeps hkeeps hnoticed, ?_⟩
  rintro cleanup ⟨⟩ hremoved
  rw [hverified]
  rcases verified with e | _ | _
  · cases hremoved
  · exact List.mem_cons_self
  · cases hremoved

theorem wp_cleanupTransientContainer {workspace : WorkspaceIdentity}
    (hlaunched : w.launched = workspace.containerName)
    (hvolume : existed = false → workspace.containerName ∉ w.volumesBefore)
    (hmay : w.noticed = true ∨ Free w) :
    wp launchMachine Guarded (cleanupTransientContainer workspace)
      (fun _ w => w.noticed = false) w := by
  refine (wp_bind _ _ _ _).2 (wp_mono (wp_stopAndVerify hlaunched hvolume hmay) ?_)
  rintro (e | cleanup) w1 ⟨hw1, -⟩
  · exact hw1.noticed
  · unfold andThen
    simp only
    split
    · exact hw1.noticed
    · exact hw1.noticed

theorem wp_withCleanupResult {workspace : WorkspaceIdentity} {error : Error}
    (hlaunched : w.launched = workspace.containerName)
    (hvolume : existed = false → workspace.containerName ∉ w.volumesBefore)
    (hmay : w.noticed = true ∨ Free w) :
    wp launchMachine Guarded (withCleanupResult workspace error) (fun _ w => w.noticed = false)
      w := by
  refine (wp_bind _ _ _ _).2 ((wp_attempt _ _ _).2 (wp_mono
    (wp_cleanupTransientContainer hlaunched hvolume hmay) ?_))
  intro r w1 hw1
  exact hw1

theorem wp_interruptedRunCleanup {workspace : WorkspaceIdentity}
    (hlaunched : w.launched = workspace.containerName)
    (hvolume : existed = false → workspace.containerName ∉ w.volumesBefore)
    (hmay : w.noticed = true ∨ Free w) :
    wp launchMachine Guarded (InterruptedRunCleanup.run workspace existed)
      (fun _ w => w.noticed = false) w := by
  refine (wp_bind _ _ _ _).2 (wp_mono (wp_stopAndVerify hlaunched hvolume hmay) ?_)
  rintro (e | cleanup) w1 ⟨hw1, hverified⟩
  · exact hw1.noticed
  · unfold andThen
    simp only
    split_ifs with hexisted hremoved
    · exact hw1.noticed
    · -- the volume of a launch that has created it
      have hnot := hw1.volume (Bool.eq_false_iff.2 hexisted)
      refine (wp_bind _ _ _ _).2 ((wp_attempt _ _ _).2
        ⟨⟨hw1.noticed, hnot, hverified cleanup rfl hremoved⟩, fun r w2 hstep => ?_⟩)
      refine (wp_ofExcept _ _).2 ?_
      rcases r with e | ⟨⟩
      · exact hstep.1
      · exact hstep.1
    · exact hw1.noticed

end

/-! ### Launches -/

/-- A check that goes on leaves everything as it is; one that fails has cleaned up. -/
def Ends (I : LaunchWorld → Prop) : Except Error α → LaunchWorld → Prop
  | .ok _, w => I w
  | .error _, w => w.noticed = false

/-- What the launch of a server asks of the cleanups of its command. -/
structure CleansOwn (containerName : String) (existed : Bool) (lifecycle : DetachedServerLifecycle) :
    Prop where
  check : ∀ I, Stage I → (∀ w, I w → Launched containerName existed w) → ∀ w, I w →
    wp launchMachine Guarded lifecycle.checkInterrupted (Ends I) w
  runDetachedError : ∀ e w, Launched containerName existed w →
    wp launchMachine Guarded (lifecycle.runDetachedError e) (fun _ w => w.noticed = false) w
  readinessError : ∀ e w, Running containerName existed w →
    wp launchMachine Guarded (lifecycle.readinessError e) (fun _ w => w.noticed = false) w

section
variable {containerName : String} {existed : Bool} {workspace : WorkspaceIdentity}
  {runtime : RuntimeKind} {spec : RuntimeRunSpec}

theorem wp_checkInterrupted {cleanup : Command Unit} (hI : Stage I)
    (hlaunched : ∀ w, I w → Launched containerName existed w) (hw : I w)
    (hcleanup : ∀ w, w.launched = containerName →
      (existed = false → containerName ∉ w.volumesBefore) → w.noticed = true →
        wp launchMachine Guarded cleanup (Ends I) w) :
    wp launchMachine Guarded (interrupted.bind fun b => if b then cleanup else .done ()) (Ends I)
      w := by
  refine ⟨hI.noticed w hw, fun b w1 hstep => ?_⟩
  obtain ⟨hnoticed, hkeeps, -⟩ := hstep
  cases b with
  | false => exact hI.keeps w w1 hw hkeeps hnoticed
  | true =>
    refine hcleanup w1 (hkeeps.launched.trans (hlaunched w hw).launched) ?_ hnoticed
    rw [hkeeps.volumesBefore]
    exact (hlaunched w hw).volume

theorem wp_launchDetachedServer {lifecycle : DetachedServerLifecycle}
    (hclean : CleansOwn workspace.containerName existed lifecycle) (hw : w.noticed = false)
    (hvolume : existed = false → workspace.containerName ∉ w.volumes) :
    wp launchMachine Guarded (launchDetachedServer workspace runtime spec lifecycle)
      (Ends (Running workspace.containerName existed)) w := by
  refine (wp_bind _ _ _ _).2 ⟨hw, fun installed w1 hstep => (wp_ofExcept _ _).2 ?_⟩
  obtain ⟨hnoticed, hkeeps, -⟩ := hstep
  rcases installed with e | ⟨⟩
  · exact hnoticed
  have hvolume1 : existed = false → workspace.containerName ∉ w1.volumes :=
    fun h hmem => hvolume h (hkeeps.volumes hmem)
  refine (wp_bind _ _ _ _).2 ((wp_attempt _ _ _).2 ⟨hnoticed, fun ran w2 hstep => ?_⟩)
  obtain ⟨hnoticed2, hlaunch⟩ := hstep
  have hw2 : Launched workspace.containerName existed w2 :=
    ⟨hnoticed2, hlaunch.launched, by rw [hlaunch.volumesBefore]; exact hvolume1⟩
  refine (wp_ofExcept _ _).2 ?_
  rcases ran with e | ⟨⟩
  · -- the container was not started
    refine (wp_bind _ _ _ _).2 (wp_mono (hclean.check _ stage_launched (fun _ h => h) w2 hw2) ?_)
    rintro (e' | u) w3 hw3
    · exact hw3
    · refine (wp_bind _ _ _ _).2 (wp_mono (hclean.runDetachedError e w3 hw3) ?_)
      rintro (e' | error) w4 hw4
      · exact hw4
      · exact hw4
  · have hrunning : Running workspace.containerName existed w2 := ⟨hw2, free_of_ok hlaunch⟩
    have hcheck := hclean.check _ stage_running fun _ h => h.1
    refine (wp_bind _ _ _ _).2 (wp_mono (hcheck w2 hrunning) ?_)
    rintro (e' | u) w3 hw3
    · exact hw3
    refine (wp_bind _ _ _ _).2 (wp_mono (wp_reading
      (reading_waitForServerEndpoint _ _ _).attempt stage_running hw3) ?_)
    rintro (e' | wait) w4 hw4
    · exact hw4.1.noticed
    rcases wait with e | endpoint | _
    · refine (wp_bind _ _ _ _).2 (wp_mono (hclean.readinessError e w4 hw4) ?_)
      rintro (e' | error) w5 hw5
      · exact hw5
      · exact hw5
    · refine (wp_bind _ _ _ _).2 (wp_mono (hcheck w4 hw4) ?_)
      rintro (e' | u) w5 hw5
      · exact hw5
      · exact hw5
    · refine (wp_bind _ _ _ _).2 (wp_mono (hcheck w4 hw4) ?_)
      rintro (e' | u) w5 hw5
      · exact hw5
      · exact hw5.1.noticed

/-! ### start -/

theorem cleansOwn_managed : CleansOwn workspace.containerName existed
    (managedServerLifecycle workspace spec (startServerLaunchPolicy workspace existed)) where
  check I hI hlaunched w hw := by
    refine wp_checkInterrupted hI hlaunched hw fun w1 hname hvolume hnoticed => ?_
    refine (wp_bind _ _ _ _).2 (wp_mono (wp_interruptedRunCleanup hname hvolume (.inl hnoticed)) ?_)
    rintro (e | cleanup) w2 hw2
    · exact hw2
    · exact hw2
  runDetachedError e w hw := by
    refine (wp_bind _ _ _ _).2 (wp_mono (wp_reading
      (reading_classifyManagedServerCreateError _ _ _ _) stage_noticed hw.noticed) ?_)
    rintro (e' | error) w1 hw1
    · exact hw1
    · exact hw1
  readinessError e w hw := by
    refine (wp_bind _ _ _ _).2 (wp_mono (wp_reading (reading_errorWithContainerLogs _ _ _)
      stage_noticed hw.1.noticed) ?_)
    rintro (e' | error) w1 hw1
    · exact hw1
    · exact hw1

theorem wp_startLocked {args : StartArgs} {limits : ResourceLimits} (hw : w.noticed = false) :
    wp launchMachine Guarded (startLocked args limits workspace) (fun _ w => w.noticed = false)
      w := by
  refine (wp_bind _ _ _ _).2 (wp_mono (wp_mild (mild_prepareRuntimeLaunch _) stage_noticed hw) ?_)
  rintro (e | preparation) w1 hw1
  · exact hw1
  refine (wp_bind _ _ _ _).2 ⟨hw1, fun existed w2 hstep => (wp_ofExcept _ _).2 ?_⟩
  obtain ⟨hnoticed, hkeeps, -, htells⟩ := hstep
  rcases existed with e | existed
  · exact hnoticed
  have hvolume : existed = false → workspace.containerName ∉ w2.volumes := by
    intro h hmem
    have hanswer := htells existed rfl
    rw [h] at hanswer
    exact of_decide_eq_false hanswer.symm (hkeeps.volumes hmem)
  refine (wp_bind _ _ _ _).2 (wp_mono (wp_launchDetachedServer cleansOwn_managed hnoticed hvolume) ?_)
  rintro (e | endpoint) w3 hw3
  · exact hw3
  unfold andThen
  simp only
  split_ifs
  · refine (wp_bind _ _ _ _).2 (wp_mono (wp_reading (reading_runHostRuntimeClient _ _ _ _ _).attempt
      stage_noticed hw3.1.noticed) ?_)
    rintro (e | result) w4 hw4
    · exact hw4
    · rcases result with e | u
      · exact hw4
      · exact hw4
  · exact hw3.1.noticed

/-! ### run -/

theorem cleansOwn_transient :
    CleansOwn workspace.containerName existed (transientServerLifecycle workspace) where
  check I hI hlaunched w hw := by
    refine wp_checkInterrupted hI hlaunched hw fun w1 hname hvolume hnoticed => ?_
    refine (wp_bind _ _ _ _).2 (wp_mono (wp_withCleanupResult hname hvolume (.inl hnoticed)) ?_)
    rintro (e | error) w2 hw2
    · exact hw2
    · exact hw2
  runDetachedError e w hw := hw.noticed
  readinessError e w hw := by
    refine (wp_bind _ _ _ _).2 (wp_mono (wp_reading (reading_errorWithContainerLogs _ _ _)
      stage_running hw) ?_)
    rintro (e' | error) w1 hw1
    · exact hw1.1.noticed
    · exact wp_withCleanupResult hw1.1.launched hw1.1.volume (.inr hw1.2)

theorem wp_runLocked {args : RunArgs} {limits : ResourceLimits} (hw : w.noticed = false) :
    wp launchMachine Guarded (runLocked args limits workspace) (fun _ w => w.noticed = false)
      w := by
  refine (wp_bind _ _ _ _).2 (wp_mono (wp_mild (mild_prepareRuntimeLaunch _) stage_noticed hw) ?_)
  rintro (e | preparation) w1 hw1
  · exact hw1
  refine (wp_bind _ _ _ _).2 (wp_mono (wp_launchDetachedServer
    (@cleansOwn_transient true workspace) hw1 nofun) ?_)
  rintro (e | endpoint) w2 hw2
  · exact hw2
  refine (wp_bind _ _ _ _).2 (wp_mono (wp_reading
    (reading_runHostRuntimeClientStatus _ _ _ _ _).attempt stage_running hw2) ?_)
  rintro (e | status) w3 hw3
  · exact hw3.1.noticed
  refine (wp_bind _ _ _ _).2 ((wp_attempt _ _ _).2 (wp_mono (wp_cleanupTransientContainer
    hw3.1.launched hw3.1.volume (.inr hw3.2)) ?_))
  intro cleanup w4 hw4
  unfold andThen
  simp only
  split
  · split_ifs
    · exact (wp_ofExcept _ _).2 hw4
    · exact hw4
  · exact hw4

end

/-! ### The commands -/

inductive LaunchCommand
  | start (args : StartArgs)
  | run (args : RunArgs)

def LaunchCommand.command : LaunchCommand → Command Unit
  | start args => Start.start args
  | run args => Start.run args

theorem wp_withLockedWorkspace {directory : OsPath} {operation : WorkspaceIdentity → Command Unit}
    (hoperation : ∀ workspace w, w.noticed = false →
      wp launchMachine Guarded (operation workspace) (fun _ w => w.noticed = false) w)
    (hw : w.noticed = false) :
    wp launchMachine Guarded (withLockedWorkspace directory operation)
      (fun _ w => w.noticed = false) w := by
  refine (wp_bind _ _ _ _).2 (wp_mono (wp_reading (reading_resolveWorkspace directory)
    stage_noticed hw) ?_)
  rintro (e | workspace) w1 hw1
  · exact hw1
  refine wp_withGuard hw1 (fun e w2 hstep => hstep.1) fun w2 hstep => ?_
  exact wp_mono (hoperation workspace w2 hstep.1) fun r w3 hw3 => ⟨hw3, fun w4 hstep => hstep.1⟩

theorem wp_command (command : LaunchCommand) (hw : w.noticed = false) :
    wp launchMachine Guarded command.command (fun _ w => w.noticed = false) w := by
  cases command with
  | start args =>
    refine ⟨hw, fun defaults w1 hstep => ?_⟩
    exact wp_withLockedWorkspace (fun _ _ hw => wp_startLocked hw) hstep.1
  | run args =>
    refine ⟨hw, fun defaults w1 hstep => ?_⟩
    exact wp_withLockedWorkspace (fun _ _ hw => wp_runLocked hw) hstep.1

/-- **Interrupt cleanup.** `start` and `run` touch only what they created exactly when the name is
free whenever Ctrl-C is noticed. -/
theorem touchesOwn_iff {podman : PodmanState} {volumes : List String} {command : LaunchCommand}
    {w' : LaunchWorld} {t : List (Event HostOps LaunchWorld)} {res : Except Error Unit}
    (h : Exec launchMachine command.command (.initial podman volumes) t w' res) :
    (∀ e ∈ t, TouchesOwn e.pre e.op) ↔
      ∀ e ∈ t, isNoticed ⟨e.op, e.ret⟩ = true → Free e.post :=
  touchesOwn_iff_of_guarded h (wp_command command rfl)

/-! ### An interrupted start -/

theorem Keeps.refl (w : LaunchWorld) : Keeps w w where
  launched := rfl
  before := rfl
  volumesBefore := rfl
  volumes := List.Subset.refl _
  moves c hc := .inl ⟨c, hc, rfl, rfl⟩

theorem Keeps.noticing (w : LaunchWorld) (noticed : Bool) : Keeps w { w with noticed } :=
  ⟨rfl, rfl, rfl, List.Subset.refl _, fun c hc => .inl ⟨c, hc, rfl, rfl⟩⟩

/-- The answers of a host for a mild part. -/
theorem exec_of_result {p : Command α} (hp : Only (S := HostOps) (fun o => isMild o = true) p)
    (hw : w.noticed = false) (hvolumes : w.volumes = []) (host : WorldState) :
    ∃ t, Exec launchMachine p w t w (p.result oblige host).1 := by
  induction p generalizing host with
  | done a => exact ⟨_, .done a w⟩
  | fail e => exact ⟨_, .fail e w⟩
  | call o k ih =>
    obtain ⟨t, ht⟩ := ih (oblige host o).1 (hp.2 _) (oblige host o).2
    refine ⟨_, .call ?_ ht⟩
    have ho := hp.1
    cases o with
    | volumeExists volume =>
      refine ⟨hw, Keeps.refl w, rfl, tells_ok ?_⟩
      rw [hvolumes]
      rfl
    | stopIgnore _ | containerExists _ | runDetached _ _ | removeVolume _ | interrupted => cases ho
    | _ => exact ⟨hw, Keeps.refl w, rfl⟩

def demoStart : StartArgs := ⟨.opencode, .none, false, ⟨none, none⟩, .utf8 demoRoot, []⟩

def demoLimits : ResourceLimits := ({} : ResourceLimits).overlay demoStart.limits

theorem exec_prepare (podman : PodmanState)
    (hnone : records demoHost.gitRootProbe podman (.forGitRoot demoRoot) .agentboxOwned = []) :
    ∃ t preparation, Exec launchMachine (prepareRuntimeLaunch (managedServerLaunchRequest
      demoWorkspace .opencode .none false [] demoLimits)) (.initial podman []) t
        (.initial podman []) (.ok preparation) := by
  set host : WorldState := { demoWorld with podman := podman } with hhost
  have hdiscover : (discoverExistingResources demoWorkspace .agentboxContainers).result oblige
      host = (.ok [], host) := by
    have hview : view demoHost.gitRootProbe podman (.forGitRoot demoRoot) .agentboxOwned = .ok [] :=
      view_of_nil _ _ _ hnone
    exact (result_discover _ _ _).trans (congrArg (fun r => (r, host)) hview)
  have habsent : (ensureRequiredResourcesAbsent demoWorkspace
      (.requireAbsent .agentboxContainers)).result oblige host = (.ok (), host) :=
    result_bind_ok hdiscover _
  have hcontainer : (prepareContainerLaunchForWorkspace (managedServerLaunchRequest
      demoWorkspace .opencode .none false [] demoLimits)).result oblige host =
        (.ok ⟨⟨[], [], ∅⟩, .none, none⟩, host) := by
    change ((ensureRequiredResourcesAbsent demoWorkspace
      (.requireAbsent .agentboxContainers)).bind _).result oblige host = _
    rw [result_bind_ok habsent]
    rfl
  obtain ⟨t, ht⟩ := exec_of_result (w := .initial podman []) (mild_prepareRuntimeLaunch
    (managedServerLaunchRequest demoWorkspace .opencode .none false [] demoLimits)) rfl rfl host
  obtain ⟨preparation, hprepared⟩ : ∃ preparation, ((prepareRuntimeLaunch
      (managedServerLaunchRequest demoWorkspace .opencode .none false [] demoLimits)).result oblige
        host).1 = .ok preparation :=
    ⟨_, congrArg Prod.fst (result_bind_ok hcontainer _)⟩
  rw [hprepared] at ht
  exact ⟨t, preparation, ht⟩

/-- Ctrl-C is noticed right after `podman run`. -/
theorem exec_interruptedStart {podman : PodmanState} {ran : Except Error Unit} {w1 : LaunchWorld}
    (hnone : records demoHost.gitRootProbe podman (.forGitRoot demoRoot) .agentboxOwned = [])
    (hlaunch : IsLaunch (.initial podman []) demoWorkspace.containerName ran w1)
    (hnoticed : w1.noticed = false) :
    ∃ t w' res, Exec launchMachine (start demoStart) (.initial podman []) t w' res ∧
      ⟨{ w1 with noticed := true }, .stopIgnore demoWorkspace.containerName, .ok (), w1⟩ ∈ t := by
  obtain ⟨tprep, preparation, hprep⟩ := exec_prepare podman hnone
  have hkeeps : Keeps { w1 with noticed := true } w1 :=
    ⟨rfl, rfl, rfl, List.Subset.refl _, fun c hc => .inl ⟨c, hc, rfl, rfl⟩⟩
  obtain ⟨tlaunch, error, hlocked, hmem⟩ : ∃ tlaunch error, Exec launchMachine (startLocked demoStart
      demoLimits demoWorkspace) (.initial podman []) (tprep ++ tlaunch) w1 (.error error) ∧
      ⟨{ w1 with noticed := true }, .stopIgnore demoWorkspace.containerName, .ok (), w1⟩ ∈
        tlaunch := by
    rcases ran with e | ⟨⟩
    · have h : Exec launchMachine (startLocked demoStart demoLimits demoWorkspace)
          (.initial podman []) _ w1 (.error _) :=
        hprep.bind_ok (exec_call.2 ⟨.ok false, .initial podman [], _, rfl,
          ⟨rfl, Keeps.refl _, rfl, tells_ok rfl⟩,
          exec_call.2 ⟨.ok (), .initial podman [], _, rfl, ⟨rfl, Keeps.refl _, rfl⟩,
          exec_call.2 ⟨.error e, w1, _, rfl, ⟨hnoticed, hlaunch⟩,
          exec_call.2 ⟨true, { w1 with noticed := true }, _, rfl,
            ⟨rfl, Keeps.noticing w1 true, rfl⟩,
          exec_call.2 ⟨.ok (), w1, _, rfl, ⟨hnoticed, hkeeps, rfl⟩,
          exec_call.2 ⟨.ok true, w1, _, rfl, ⟨hnoticed, Keeps.refl _, rfl⟩, .fail _ _⟩⟩⟩⟩⟩⟩)
      exact ⟨_, _, h, .tail _ (.tail _ (.tail _ (.tail _ (.head _))))⟩
    · have h : Exec launchMachine (startLocked demoStart demoLimits demoWorkspace)
          (.initial podman []) _ w1 (.error _) :=
        hprep.bind_ok (exec_call.2 ⟨.ok false, .initial podman [], _, rfl,
          ⟨rfl, Keeps.refl _, rfl, tells_ok rfl⟩,
          exec_call.2 ⟨.ok (), .initial podman [], _, rfl, ⟨rfl, Keeps.refl _, rfl⟩,
          exec_call.2 ⟨.ok (), w1, _, rfl, ⟨hnoticed, hlaunch⟩,
          exec_call.2 ⟨true, { w1 with noticed := true }, _, rfl,
            ⟨rfl, Keeps.noticing w1 true, rfl⟩,
          exec_call.2 ⟨.ok (), w1, _, rfl, ⟨hnoticed, hkeeps, rfl⟩,
          exec_call.2 ⟨.ok true, w1, _, rfl, ⟨hnoticed, Keeps.refl _, rfl⟩, .fail _ _⟩⟩⟩⟩⟩⟩)
      exact ⟨_, _, h, .tail _ (.tail _ (.tail _ (.tail _ (.head _))))⟩
  have hcommand : Exec launchMachine (start demoStart) (.initial podman []) _ w1 (.error error) :=
    exec_call.2 ⟨{}, .initial podman [], _, rfl, ⟨rfl, Keeps.refl _, rfl⟩,
      exec_call.2 ⟨demoHost, .initial podman [], _, rfl, ⟨rfl, Keeps.refl _, rfl⟩,
      exec_call.2 ⟨.ok (), .initial podman [], _, rfl, ⟨rfl, Keeps.refl _, rfl⟩,
      (exec_attempt.2 ⟨_, rfl, hlocked⟩).bind_ok (exec_call.2 ⟨(), w1, _, rfl,
        ⟨hnoticed, Keeps.refl _, rfl⟩, .fail _ _⟩)⟩⟩⟩
  refine ⟨_, _, _, hcommand, ?_⟩
  exact .tail _ (.tail _ (.tail _ (List.mem_append_left _ (List.mem_append_right _ hmem))))

/-- The world after a `podman run` that leaves `podman`. -/
def demoLaunched (before podman : PodmanState) : LaunchWorld where
  podman
  volumes := []
  launched := demoWorkspace.containerName
  before := before.containers.map PodmanContainer.id
  volumesBefore := []
  verified := []
  noticed := false

/-- A container that agentbox does not own, with the name of the workspace. -/
def demoForeign : PodmanState where
  containers := [{ demoContainer "foreign" ∅ with names := some [demoWorkspace.containerName] }]
  distinct := by decide +kernel

/-- A launch whose container is stopped when Ctrl-C is noticed. -/
theorem touchesOwn_iff_demo : ∃ t w' res,
    Exec launchMachine (LaunchCommand.start demoStart).command (.initial ⟨[], by decide⟩ []) t w'
      res ∧ ((∀ e ∈ t, TouchesOwn e.pre e.op) ↔
        ∀ e ∈ t, isNoticed ⟨e.op, e.ret⟩ = true → Free e.post) := by
  obtain ⟨t, w', res, h, -⟩ := @exec_interruptedStart ⟨[], by decide⟩ (.ok ())
    (demoLaunched ⟨[], by decide⟩ demoForeign) rfl
    { launched := rfl
      before := rfl
      volumesBefore := rfl
      verified := rfl
      moves := fun _ _ => .inr List.not_mem_nil
      created := fun _ => ⟨_, .head _, List.not_mem_nil, .tail _ (.head _)⟩ } rfl
  have hcommand : Exec launchMachine (LaunchCommand.start demoStart).command
      (.initial ⟨[], by decide⟩ []) t w' res := h
  exact ⟨t, w', res, hcommand, touchesOwn_iff hcommand⟩

/-- The name is taken, and the container that has it is stopped. -/
theorem not_touchesOwn : ∃ t w' res,
    Exec launchMachine (start demoStart) (.initial demoForeign []) t w' res ∧
      ¬ ∀ e ∈ t, TouchesOwn e.pre e.op := by
  obtain ⟨t, w', res, h, hmem⟩ := @exec_interruptedStart demoForeign
    (.error (.msg "the container name is already in use")) (demoLaunched demoForeign demoForeign) rfl
    { launched := rfl
      before := rfl
      volumesBefore := rfl
      verified := rfl
      moves := fun c hc => .inl ⟨c, hc, rfl, rfl⟩
      created := nofun } rfl
  refine ⟨t, w', res, h, fun hown => ?_⟩
  exact hown _ hmem _ (.head _) (.tail _ (.head _)) (.head _)

end Agentbox.Commands.Interrupts
