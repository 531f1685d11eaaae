import Agentbox.Image.Codec
import Agentbox.Image.Lifecycle

/-! # Files that cannot be read

What an update, a launch and `clean` do with every content of the file of a state when all that they
ask of the host succeeds. A file that is not the text of a state is replaced when a missing image is
built for a launch, and only then. -/

namespace Agentbox.Image.SelfHealing

open Agentbox.Base.Path Agentbox.Base.Errors Agentbox.Lib.Program Agentbox.Runtime.Kind
  Agentbox.Runtime.Spec Agentbox.Metadata.DefaultImage Agentbox.Image.State
  Agentbox.Image.Lifecycle Agentbox.Image.Codec

def Succeeds (o : ImageOp) (r : o.Ret) : Prop :=
  match o, r with
  | .stateHome, r | .imageExists _, r | .readFile _, r | .resolveLatestVersion _, r
  | .nowUnixSeconds, r | .writeFile _ _, r | .removeFile _, r | .buildImage _ _, r
  | .removeImage _, r => ∃ a, r = .ok a

variable (serde : Serde)

/-- A host on which every call succeeds. -/
def healthy : Machine ImageOps ImageWorld where
  step w o r w' := Succeeds o r ∧ (imageMachine serde).step w o r w'

/-- The file of a runtime is absent, or the text of a state. -/
def Readable (w : ImageWorld) (runtime : RuntimeKind) : Prop :=
  ∀ contents, w.files runtime = some contents → ∃ state, serde.fromStr contents = .ok state

/-- A state of the current image is stored, and tells the version of the image. -/
def Recorded (w : ImageWorld) (runtime : RuntimeKind) : Prop :=
  ∃ state, w.Stored serde runtime state ∧ state.IsCurrent runtime ∧
    w.images (defaultImage runtime) = some state.installedVersion

/-! ### Calls on a healthy host -/

section
variable {serde} {α : Type} {w w' : ImageWorld} {l : List (Event ImageOps ImageWorld)}
  {res : Except Error α} {runtime : RuntimeKind}

theorem exec_fromXdg {f : RuntimeImageStateStore → ImageCommand α}
    (h : Exec (healthy serde) (RuntimeImageStateStore.fromXdg.bind f) w l w' res) :
    ∃ store l1, log l1 ⊆ log l ∧ Exec (healthy serde) (f store) w l1 w' res := by
  obtain ⟨r, w1, l1, rfl, ⟨⟨home, rfl⟩, hw⟩, ⟨store, -, h1⟩ | ⟨e, he, -⟩⟩ :=
    (exec_call_bind (S := ImageOps) (o := .stateHome) _).1 h
  · have hsame : w1 = w := hw
    exact ⟨store, l1, List.subset_cons_self _ _, hsame ▸ h1⟩
  · cases he

theorem exec_resolveLatestVersion {package : String} {f : String → ImageCommand α}
    (h : Exec (healthy serde) ((resolveLatestVersion package).bind f) w l w' res) :
    ∃ version l1, ⟨.resolveLatestVersion package, .ok version⟩ ∈ log l ∧
      Exec (healthy serde) (f version) w l1 w' res := by
  obtain ⟨r, w1, l1, rfl, ⟨⟨version, rfl⟩, hw⟩, ⟨_, ⟨⟩, h1⟩ | ⟨e, he, -⟩⟩ :=
    (exec_call_bind (S := ImageOps) (o := .resolveLatestVersion package) fun r => r).1 h
  · have hsame : w1 = w := hw
    exact ⟨version, l1, List.mem_cons_self, hsame ▸ h1⟩
  · cases he

theorem exec_imageExists {image : String} {f : Bool → ImageCommand α}
    (h : Exec (healthy serde) ((imageExists image).bind f) w l w' res) :
    ∃ l1, log l1 ⊆ log l ∧ Exec (healthy serde) (f (w.images image).isSome) w l1 w' res := by
  obtain ⟨r, w1, l1, rfl, ⟨⟨found, rfl⟩, hfound, hw⟩, ⟨_, ⟨⟩, h1⟩ | ⟨e, he, -⟩⟩ :=
    (exec_call_bind (S := ImageOps) (o := .imageExists image) fun r => r).1 h
  · have hsame : w1 = w := hw
    rw [hfound found rfl, hsame] at h1
    exact ⟨l1, List.subset_cons_self _ _, h1⟩
  · cases he

theorem exec_nowUnixSeconds {f : UInt64 → ImageCommand α}
    (h : Exec (healthy serde) (nowUnixSeconds.bind f) w l w' res) :
    ∃ now l1, Exec (healthy serde) (f now) w l1 w' res := by
  obtain ⟨r, w1, l1, -, ⟨⟨now, rfl⟩, hw⟩, ⟨_, ⟨⟩, h1⟩ | ⟨e, he, -⟩⟩ :=
    (exec_call_bind (S := ImageOps) (o := .nowUnixSeconds) fun r => r).1 h
  · have hsame : w1 = w := hw
    exact ⟨now, l1, hsame ▸ h1⟩
  · cases he

theorem exec_buildImage {version : String} {f : Unit → ImageCommand α}
    (h : Exec (healthy serde) ((buildImage runtime version).bind f) w l w' res) :
    ∃ l1, Exec (healthy serde) (f ()) (w.setImage (defaultImage runtime) (some version)) l1 w'
      res := by
  obtain ⟨r, w1, l1, -, ⟨⟨⟨⟩, rfl⟩, rfl | ⟨⟨e, he⟩, -⟩⟩, ⟨_, ⟨⟩, h1⟩ | ⟨e, he, -⟩⟩ :=
    (exec_call_bind (S := ImageOps) (o := .buildImage runtime version) fun r => r).1 h
  · exact ⟨l1, h1⟩
  · cases he
  all_goals cases he

theorem exec_write {state : RuntimeImageState} {f : Unit → ImageCommand α}
    (h : Exec (healthy serde) ((RuntimeImageStateStore.write serde runtime state).bind f) w l w'
      res) :
    ∃ l1, Exec (healthy serde) (f ())
      (w.setFile runtime (some (serde.toStringPretty state ++ "\n"))) l1 w' res := by
  obtain ⟨r, w1, l1, -, ⟨⟨⟨⟩, rfl⟩, rfl | ⟨⟨e, he⟩, -⟩⟩, ⟨_, ⟨⟩, h1⟩ | ⟨e, he, -⟩⟩ :=
    (exec_call_bind (S := ImageOps) (o := .writeFile runtime _) fun r => r).1 h
  · exact ⟨l1, h1⟩
  · cases he
  all_goals cases he

/-- A read returns what is stored, and fails when the file cannot be read. -/
theorem exec_read {store : RuntimeImageStateStore} {f : Option RuntimeImageState → ImageCommand α}
    (h : Exec (healthy serde) ((store.read serde runtime).bind f) w l w' res) :
    (∃ contents error, w.files runtime = some contents ∧ serde.fromStr contents = .error error ∧
      w' = w ∧ res = .error (store.parseError runtime error)) ∨
    Readable serde w runtime ∧ ∃ state l1, (∀ s, state = some s → w.Stored serde runtime s) ∧
      Exec (healthy serde) (f state) w l1 w' res := by
  obtain ⟨r, w1, l1, -, ⟨⟨file, rfl⟩, hfile, hw⟩, hend⟩ :=
    (exec_call_bind (S := ImageOps) (o := .readFile runtime) _).1 h
  have hsame : w1 = w := hw
  obtain rfl := hfile file rfl
  subst hsame
  rcases hcontents : w1.files runtime with _ | contents
  · rw [hcontents] at hend
    obtain ⟨_, ⟨⟩, h1⟩ | ⟨e, he, -⟩ := hend
    · exact .inr ⟨fun contents hc => (by rw [hcontents] at hc; cases hc), none, l1, nofun, h1⟩
    · cases he
  · rw [hcontents] at hend
    rcases hstate : serde.fromStr contents with error | state
    · simp only [RuntimeImageStateStore.parse, hstate] at hend
      obtain ⟨_, ⟨⟩, -⟩ | ⟨e, ⟨⟩, -, rfl, rfl⟩ := hend
      exact .inl ⟨contents, error, rfl, hstate, rfl, rfl⟩
    · simp only [RuntimeImageStateStore.parse, hstate] at hend
      obtain ⟨_, ⟨⟩, h1⟩ | ⟨e, he, -⟩ := hend
      · refine .inr ⟨fun contents' hc => ?_, some state, l1, ?_, h1⟩
        · rw [hcontents] at hc
          cases hc
          exact ⟨state, hstate⟩
        · rintro s ⟨⟩
          exact ⟨contents, hcontents, hstate⟩
      · cases he

/-! ### The commands -/

/-- What is built is recorded. -/
theorem exec_buildRuntimeImageAndRecordState {version : String} {f : Unit → ImageCommand α}
    (h : Exec (healthy serde) ((buildRuntimeImageAndRecordState serde runtime version).bind f) w l
      w' res) :
    ∃ state w1 l1, w1.Stored serde runtime state ∧ state.IsCurrent runtime ∧
      state.installedVersion = version ∧ w1.images (defaultImage runtime) = some version ∧
      Exec (healthy serde) (f ()) w1 l1 w' res := by
  unfold buildRuntimeImageAndRecordState at h
  simp only [Prog.bind_eq, Prog.bind_assoc] at h
  obtain ⟨l1, h1⟩ := exec_buildImage h
  obtain ⟨now, l2, h2⟩ := exec_nowUnixSeconds h1
  obtain ⟨l3, h3⟩ := exec_write h2
  refine ⟨.new runtime version now now, _, l3, ⟨_, ?_, serde.fromStr_toStringPretty _⟩, ⟨rfl, rfl⟩,
    rfl, ?_, h3⟩
  · simp only [ImageWorld.setFile, Function.update_self]
  · simp only [ImageWorld.setFile, ImageWorld.setImage, Function.update_self]

theorem exec_update {res : Except Error RuntimeImageUpdateOutcome}
    (h : Exec (healthy serde) (updateDefaultRuntimeImage serde runtime) w l w' res) :
    (∃ store contents error, w.files runtime = some contents ∧
      serde.fromStr contents = .error error ∧ w' = w ∧
      res = .error (RuntimeImageStateStore.parseError store runtime error)) ∨
    Readable serde w runtime ∧ (∃ outcome, res = .ok outcome) ∧ ∃ state,
      ⟨.resolveLatestVersion (packageSpec runtime).name, .ok state.installedVersion⟩ ∈ log l ∧
      w'.Stored serde runtime state ∧ state.IsCurrent runtime ∧
      (w.Truthful serde runtime → w'.images (defaultImage runtime) = some state.installedVersion) := by
  unfold updateDefaultRuntimeImage updateDefaultRuntimeImageWith at h
  simp only [Prog.bind_eq] at h
  obtain ⟨store, l1, hl1, h1⟩ := exec_fromXdg h
  obtain ⟨version, l2, hversion, h2⟩ := exec_resolveLatestVersion h1
  obtain ⟨l3, -, h3⟩ := exec_imageExists h2
  obtain ⟨contents, error, hfile, herror, hw, hres⟩ | ⟨hreadable, prior, l4, hprior, h4⟩ :=
    exec_read h3
  · exact .inl ⟨store, contents, error, hfile, herror, hw, hres⟩
  refine .inr ⟨hreadable, ?_⟩
  obtain hplan | ⟨state, hplan, hstate, hexists, hinstalled, hcurrent⟩ :=
    planRuntimeImageUpdate_cases runtime version (w.images (defaultImage runtime)).isSome prior
  · rw [hplan] at h4
    obtain ⟨state, w1, l5, hstored, hcurrent, rfl, himage, h5⟩ :=
      exec_buildRuntimeImageAndRecordState h4
    obtain ⟨-, rfl, rfl⟩ := exec_done.1 h5
    exact ⟨⟨_, rfl⟩, state, hl1 hversion, hstored, hcurrent, fun _ => himage⟩
  · rw [hplan] at h4
    obtain ⟨now, l5, h5⟩ := exec_nowUnixSeconds h4
    obtain ⟨l6, h6⟩ := exec_write h5
    obtain ⟨-, rfl, rfl⟩ := exec_done.1 h6
    refine ⟨⟨_, rfl⟩, state.withLatestCheck version now, ?_, ⟨_, ?_, serde.fromStr_toStringPretty _⟩,
      hcurrent, fun htruthful => ?_⟩
    · exact hl1 (hinstalled ▸ hversion)
    · simp only [ImageWorld.setFile, Function.update_self]
    · obtain ⟨v, hv⟩ := Option.isSome_iff_exists.1 hexists
      have hsame := htruthful state v (hprior state hstate) hcurrent.1 hv
      exact hv.trans (congrArg some hsame.symm)

theorem exec_buildDefaultRuntimeImage {res : Except Error String}
    (h : Exec (healthy serde) (buildDefaultRuntimeImage serde runtime) w l w' res) :
    ∃ state, w'.Stored serde runtime state ∧ state.IsCurrent runtime ∧
      res = .ok state.installedVersion ∧
      w'.images (defaultImage runtime) = some state.installedVersion := by
  unfold buildDefaultRuntimeImage at h
  simp only [Prog.bind_eq] at h
  obtain ⟨version, l1, -, h1⟩ := exec_resolveLatestVersion h
  obtain ⟨state, w1, l2, hstored, hcurrent, rfl, himage, h2⟩ :=
    exec_buildRuntimeImageAndRecordState h1
  obtain ⟨-, rfl, rfl⟩ := exec_done.1 h2
  exact ⟨state, hstored, hcurrent, rfl, himage⟩

theorem exec_ensure {workspaceRoot : Utf8Path} {res : Except Error (Option String)}
    (h : Exec (healthy serde) (ensureDefaultRuntimeImage serde runtime workspaceRoot) w l w' res) :
    (w.images (defaultImage runtime) = none ∧ Recorded serde w' runtime ∧
      res = .ok (w'.images (defaultImage runtime))) ∨
    w.images (defaultImage runtime) ≠ none ∧ w' = w ∧
      ((∃ store contents error, w.files runtime = some contents ∧
        serde.fromStr contents = .error error ∧
        res = .error (RuntimeImageStateStore.parseError store runtime error)) ∨
      Readable serde w runtime ∧ ∃ version, res = .ok version) := by
  unfold ensureDefaultRuntimeImage ensureDefaultRuntimeImageWith at h
  simp only [Prog.bind_eq] at h
  obtain ⟨store, l1, -, h1⟩ := exec_fromXdg h
  obtain ⟨l2, -, h2⟩ := exec_imageExists h1
  rcases himage : w.images (defaultImage runtime) with _ | v
  · refine .inl ⟨rfl, ?_⟩
    rw [himage] at h2
    simp only [Option.isSome_none, Bool.false_eq_true, if_false] at h2
    obtain ⟨e, -, h3⟩ | ⟨built, w1, l3, l4, -, h3, h4⟩ := exec_bind.1 h2
    · obtain ⟨r, hr, -⟩ := exec_attempt.1 h3
      cases hr
    · obtain ⟨r, hr, h3⟩ := exec_attempt.1 h3
      cases hr
      obtain ⟨state, hstored, hcurrent, rfl, himage1⟩ := exec_buildDefaultRuntimeImage h3
      obtain ⟨-, rfl, rfl⟩ := exec_done.1 h4
      exact ⟨⟨state, hstored, hcurrent, himage1⟩, by rw [himage1]⟩
  · refine .inr ⟨nofun, ?_⟩
    rw [himage] at h2
    simp only [Option.isSome_some, if_true] at h2
    unfold installedVersionIfKnown at h2
    obtain ⟨contents, error, hfile, herror, hw, hres⟩ | ⟨hreadable, prior, l3, -, h3⟩ := exec_read h2
    · exact ⟨hw, .inl ⟨store, contents, error, hfile, herror, hres⟩⟩
    · obtain ⟨-, rfl, rfl⟩ := exec_done.1 h3
      exact ⟨rfl, .inr ⟨hreadable, _, rfl⟩⟩

theorem exec_removeImageCandidate {image : String} {res : Except Error Unit}
    (h : Exec (healthy serde) (removeImageCandidate serde runtime image) w l w' res) :
    w'.images image = none ∧
    ((∃ store contents error, w.files runtime = some contents ∧
      serde.fromStr contents = .error error ∧ w'.files = w.files ∧
      res = .error (RuntimeImageStateStore.parseError store runtime error)) ∨
    Readable serde w runtime ∧ res = .ok ()) := by
  unfold removeImageCandidate RuntimeImageStateStore.removeIfImage at h
  simp only [Prog.bind_eq] at h
  obtain ⟨r, w1, l1, -, ⟨⟨⟨⟩, rfl⟩, rfl | ⟨⟨e, he⟩, -⟩⟩, ⟨_, ⟨⟩, h1⟩ | ⟨e, he, -⟩⟩ :=
    (exec_call_bind (S := ImageOps) (o := .removeImage image) fun r => r).1 h
  rotate_left
  · cases he
  · cases he
  · cases he
  have hgone : (w.setImage image none).images image = none := by
    simp only [ImageWorld.setImage, Function.update_self]
  obtain ⟨store, l2, -, h2⟩ := exec_fromXdg h1
  obtain ⟨contents, error, hfile, herror, rfl, hres⟩ | ⟨hreadable, prior, l3, -, h3⟩ := exec_read h2
  · exact ⟨hgone, .inl ⟨store, contents, error, hfile, herror, rfl, hres⟩⟩
  rcases prior with _ | state
  · obtain ⟨-, rfl, rfl⟩ := exec_done.1 h3
    exact ⟨hgone, .inr ⟨hreadable, rfl⟩⟩
  · simp only at h3
    split_ifs at h3 with himage
    · obtain ⟨r, w2, l4, -, ⟨⟨⟨⟩, rfl⟩, rfl | ⟨⟨e, he⟩, -⟩⟩, h4⟩ := exec_call.1 h3
      · obtain ⟨-, rfl, rfl⟩ := exec_done.1 h4
        exact ⟨hgone, .inr ⟨hreadable, rfl⟩⟩
      · cases he
    · obtain ⟨-, rfl, rfl⟩ := exec_done.1 h3
      exact ⟨hgone, .inr ⟨hreadable, rfl⟩⟩

end

/-- The file is there and is not the text of a state. -/
def Malformed (w : ImageWorld) (runtime : RuntimeKind) (error : String) : Prop :=
  ∃ contents, w.files runtime = some contents ∧ serde.fromStr contents = .error error

theorem not_readable_of_malformed {w : ImageWorld} {runtime : RuntimeKind} {error : String}
    (h : Malformed serde w runtime error) : ¬ Readable serde w runtime := by
  obtain ⟨contents, hfile, herror⟩ := h
  intro hreadable
  obtain ⟨state, hstate⟩ := hreadable contents hfile
  rw [herror] at hstate
  cases hstate

/-- **Which files are replaced.** On a host where every call succeeds, an update succeeds exactly when
the file of the state is absent or can be read, and then records the current image; otherwise it
changes nothing. A launch replaces every file when it has to build the image, and else succeeds
exactly when the file is absent or can be read. An image is removed whatever the file says, and a file
that cannot be read stays as it is and is reported. -/
theorem selfHealing (runtime : RuntimeKind) (w w' : ImageWorld) (l : List (Event ImageOps ImageWorld)) :
    (∀ res, Exec (healthy serde) (updateDefaultRuntimeImage serde runtime) w l w' res →
      ((∃ outcome, res = .ok outcome) ↔ Readable serde w runtime) ∧
      (Readable serde w runtime → ∃ state,
        ⟨.resolveLatestVersion (packageSpec runtime).name, .ok state.installedVersion⟩ ∈ log l ∧
        w'.Stored serde runtime state ∧ state.IsCurrent runtime ∧
        (w.Truthful serde runtime →
          w'.images (defaultImage runtime) = some state.installedVersion)) ∧
      (¬ Readable serde w runtime → w' = w ∧ ∃ store error, Malformed serde w runtime error ∧
        res = .error (RuntimeImageStateStore.parseError store runtime error))) ∧
    (∀ workspaceRoot res,
      Exec (healthy serde) (ensureDefaultRuntimeImage serde runtime workspaceRoot) w l w' res →
      (w.images (defaultImage runtime) = none → Recorded serde w' runtime ∧
        res = .ok (w'.images (defaultImage runtime))) ∧
      (w.images (defaultImage runtime) ≠ none → w' = w ∧
        ((∃ version, res = .ok version) ↔ Readable serde w runtime) ∧
        (¬ Readable serde w runtime → ∃ store error, Malformed serde w runtime error ∧
          res = .error (RuntimeImageStateStore.parseError store runtime error)))) ∧
    ∀ image res, Exec (healthy serde) (removeImageCandidate serde runtime image) w l w' res →
      w'.images image = none ∧ (res = .ok () ↔ Readable serde w runtime) ∧
      (¬ Readable serde w runtime → w'.files = w.files ∧
        ∃ store error, Malformed serde w runtime error ∧
          res = .error (RuntimeImageStateStore.parseError store runtime error)) := by
  refine ⟨fun res h => ?_, fun workspaceRoot res h => ?_, fun image res h => ?_⟩
  · obtain ⟨store, contents, error, hfile, herror, rfl, rfl⟩ | ⟨hreadable, hok, hstate⟩ :=
      exec_update h
    · have hmalformed : Malformed serde w' runtime error := ⟨contents, hfile, herror⟩
      have hno := not_readable_of_malformed serde hmalformed
      exact ⟨⟨nofun, fun h => absurd h hno⟩, fun h => absurd h hno,
        fun _ => ⟨rfl, store, error, hmalformed, rfl⟩⟩
    · exact ⟨⟨fun _ => hreadable, fun _ => hok⟩, fun _ => hstate, fun h => absurd hreadable h⟩
  · obtain ⟨himage, hrecorded, hres⟩ | ⟨himage, hw, hend⟩ := exec_ensure h
    · exact ⟨fun _ => ⟨hrecorded, hres⟩, fun h => absurd himage h⟩
    · refine ⟨fun h => absurd h himage, fun _ => ⟨hw, ?_⟩⟩
      obtain ⟨store, contents, error, hfile, herror, rfl⟩ | ⟨hreadable, hok⟩ := hend
      · have hmalformed : Malformed serde w runtime error := ⟨contents, hfile, herror⟩
        have hno := not_readable_of_malformed serde hmalformed
        exact ⟨⟨nofun, fun h => absurd h hno⟩, fun _ => ⟨store, error, hmalformed, rfl⟩⟩
      · exact ⟨⟨fun _ => hreadable, fun _ => hok⟩, fun h => absurd hreadable h⟩
  · obtain ⟨hgone, ⟨store, contents, error, hfile, herror, hfiles, rfl⟩ | ⟨hreadable, rfl⟩⟩ :=
      exec_removeImageCandidate h
    · have hmalformed : Malformed serde w runtime error := ⟨contents, hfile, herror⟩
      have hno := not_readable_of_malformed serde hmalformed
      exact ⟨hgone, ⟨nofun, fun h => absurd h hno⟩,
        fun _ => ⟨hfiles, store, error, hmalformed, rfl⟩⟩
    · exact ⟨hgone, ⟨fun _ => hreadable, fun _ => rfl⟩, fun h => absurd hreadable h⟩

/-- A host with an image of OpenCode and a file that a write has truncated. -/
def tornWorld : ImageWorld where
  images := Function.update (fun _ => none) (defaultImage .opencode) (some "1.0.0")
  files := Function.update (fun _ => none) .opencode (some "")

def demoHome : Utf8Path := ⟨"/home/demo/.local/state"⟩

def demoStore : RuntimeImageStateStore := .fromStateHome demoHome

def eof : String := "EOF while parsing a value at line 1 column 0"

/-- With such a file neither an update nor a launch succeeds, and both leave it there. -/
theorem not_selfHealing : ∃ e,
    (∃ l, Exec (healthy flatSerde) (updateDefaultRuntimeImage flatSerde .opencode) tornWorld l
      tornWorld (.error e)) ∧
    ∃ l, Exec (healthy flatSerde) (ensureDefaultRuntimeImage flatSerde .opencode
      ⟨"/workspace/demo"⟩) tornWorld l tornWorld (.error e) := by
  have hread : (imageMachine flatSerde).step tornWorld (.readFile .opencode) (.ok (some ""))
      tornWorld := by
    refine ⟨?_, rfl⟩
    rintro _ ⟨⟩
    rfl
  have hexists : (imageMachine flatSerde).step tornWorld (.imageExists (defaultImage .opencode))
      (.ok true) tornWorld := by
    refine ⟨?_, rfl⟩
    rintro _ ⟨⟩
    rfl
  have hfail : ∀ {α : Type} {f : Option RuntimeImageState → ImageCommand α},
      Exec (healthy flatSerde) ((Prog.ofExcept (demoStore.parse flatSerde .opencode
        (.ok (some "")))).bind f) tornWorld [] tornWorld
          (.error (demoStore.parseError .opencode eof)) := by
    intro α f
    exact .fail _ _
  have hupdate : Exec (healthy flatSerde) (updateDefaultRuntimeImage flatSerde .opencode) tornWorld _
      tornWorld (.error (demoStore.parseError .opencode eof)) :=
    exec_call.2 ⟨.ok demoHome, tornWorld, _, rfl, ⟨⟨_, rfl⟩, rfl⟩,
      exec_call.2 ⟨.ok "1.0.1", tornWorld, _, rfl, ⟨⟨_, rfl⟩, rfl⟩,
      exec_call.2 ⟨.ok true, tornWorld, _, rfl, ⟨⟨_, rfl⟩, hexists⟩,
      exec_call.2 ⟨.ok (some ""), tornWorld, _, rfl, ⟨⟨_, rfl⟩, hread⟩, hfail⟩⟩⟩⟩
  have hensure : Exec (healthy flatSerde) (ensureDefaultRuntimeImage flatSerde .opencode
      ⟨"/workspace/demo"⟩) tornWorld _ tornWorld (.error (demoStore.parseError .opencode eof)) :=
    exec_call.2 ⟨.ok demoHome, tornWorld, _, rfl, ⟨⟨_, rfl⟩, rfl⟩,
      exec_call.2 ⟨.ok true, tornWorld, _, rfl, ⟨⟨_, rfl⟩, hexists⟩,
      exec_call.2 ⟨.ok (some ""), tornWorld, _, rfl, ⟨⟨_, rfl⟩, hread⟩, hfail⟩⟩⟩
  exact ⟨_, ⟨_, hupdate⟩, _, hensure⟩

end Agentbox.Image.SelfHealing
