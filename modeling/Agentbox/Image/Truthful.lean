import Agentbox.Image.Codec
import Agentbox.Image.Lifecycle
import Agentbox.Lib.Interleaving

/-! # The recorded version of an image

Builds and records of an image are two effects without a lock. What is recorded tells the version
of the image along every run in which no image is built over a record of another version and no
process records a version after another process has built another one. -/

namespace Agentbox.Image.Truthful

open Agentbox.Base.Path Agentbox.Base.Errors Agentbox.Lib.Program Agentbox.Lib.Transition
  Agentbox.Lib.Interleaving Agentbox.Runtime.Kind Agentbox.Runtime.Spec
  Agentbox.Metadata.DefaultImage Agentbox.Image.State Agentbox.Image.Lifecycle
  Agentbox.Image.Codec

/-! ### Processes -/

/-- What a process says at its end. -/
inductive Report
  | updated (runtime : RuntimeKind) (outcome : RuntimeImageUpdateOutcome)
  | ensured (runtime : RuntimeKind) (version : Option String)
  | cleaned

/-- The report tells the version of the default image of a runtime. -/
inductive Report.Tells : Report → RuntimeKind → String → Prop
  | alreadyUpToDate (runtime : RuntimeKind) (image version : String) :
    Tells (.updated runtime (.alreadyUpToDate image version)) runtime version
  | rebuilt (runtime : RuntimeKind) (image version : String) :
    Tells (.updated runtime (.rebuilt image version)) runtime version
  | ensured (runtime : RuntimeKind) (version : String) :
    Tells (.ensured runtime (some version)) runtime version

/-- The processes that use the images of the runtimes. -/
inductive Process (serde : Serde) : ImageCommand Report → Prop
  | update (runtime : RuntimeKind) : Process serde
      ((updateDefaultRuntimeImage serde runtime).bind fun outcome => .done (.updated runtime outcome))
  | ensure (runtime : RuntimeKind) (workspaceRoot : Utf8Path) : Process serde
      ((ensureDefaultRuntimeImage serde runtime workspaceRoot).bind fun version =>
        .done (.ensured runtime version))
  | clean (runtime : RuntimeKind) (image : String) : Process serde
      ((removeImageCandidate serde runtime image).bind fun _ => .done .cleaned)

/-! ### What a process has learnt -/

/-- The versions of the images, as far as they are known. -/
abbrev Known := RuntimeKind → Option String

variable (serde : Serde)

/-- What is known of the images after an own call: the version that was built, or that was read of
the default image. -/
def learn (known : Known) (o : ImageOp) (r : o.Ret) : Known :=
  match o, r with
  | .readFile runtime, .ok (some contents) =>
    match serde.fromStr contents with
    | .ok state =>
      if state.image = defaultImage runtime then
        Function.update known runtime (some state.installedVersion)
      else known
    | .error _ => known
  | .buildImage runtime version, .ok _ => Function.update known runtime (some version)
  | .buildImage runtime _, .error _ => Function.update known runtime none
  | _, _ => known

/-- What is still known after the call of another process: a build of another version ends it. -/
def forget (known : Known) (o : ImageOp) : Known :=
  match o with
  | .buildImage runtime version =>
    if known runtime = some version then known else Function.update known runtime none
  | _ => known

/-- The images and files, and what each process has learnt of them. -/
structure Shared (ι : Type) where
  world : ImageWorld
  known : ι → Known

variable {ι : Type} [DecidableEq ι]

def sharedMachine (i : ι) : Machine ImageOps (Shared ι) where
  step s o r s' := (imageMachine serde).step s.world o r s'.world ∧
    s'.known = fun j => if j = i then learn serde (s.known j) o r else forget (s.known j) o

/-- All interleavings, from images of which the truth is recorded. -/
def images (ι : Type) [DecidableEq ι] :
    System (Threads ImageOps Error Report ι (Shared ι)) (Call ImageOps ι) :=
  interleaving (sharedMachine serde)
    (fun s => (∀ runtime, s.world.Truthful serde runtime) ∧ s.known = fun _ _ => none)
    fun _ => Process serde

/-- No image is built over a record of another version, and what is written was learnt by a process
that no build of another version has overtaken. -/
def Timely (s : Shared ι) (c : Call ImageOps ι) : Prop :=
  match c.op with
  | .buildImage runtime version => ∀ state, s.world.Stored serde runtime state →
      state.image = defaultImage runtime → state.installedVersion = version
  | .writeFile runtime _ => ∃ version, s.known c.who runtime = some version
  | _ => True

/-! ### What a process does on its own -/

/-- What a process knows when others may have made it forget some of it, and the file that its last
call has read or written. -/
structure Local where
  known : Known
  seen : Option (RuntimeKind × String)

/-- `known` is what is left of `known'`. -/
def Below (known known' : Known) : Prop :=
  ∀ runtime version, known runtime = some version → known' runtime = some version

theorem Below.refl (known : Known) : Below known known := fun _ _ h => h

theorem Below.trans {a b c : Known} (h : Below a b) (h' : Below b c) : Below a c :=
  fun runtime version hv => h' runtime version (h runtime version hv)

theorem below_forget (known : Known) (o : ImageOp) : Below (forget known o) known := by
  intro runtime version h
  unfold forget at h
  split at h
  · split_ifs at h
    · exact h
    · rw [Function.update_apply] at h
      split_ifs at h
      exact h
  · exact h

/-- The version is the known one, if one is known. -/
def Fits (known : Known) (runtime : RuntimeKind) (version : String) : Prop :=
  ∀ v, known runtime = some v → version = v

theorem Fits.below {known known' : Known} {runtime : RuntimeKind} {version : String}
    (h : Fits known' runtime version) (hle : Below known known') : Fits known runtime version :=
  fun v hv => h v (hle runtime v hv)

def seen (o : ImageOp) (r : o.Ret) : Option (RuntimeKind × String) :=
  match o, r with
  | .readFile runtime, .ok (some contents) => some (runtime, contents)
  | .writeFile runtime contents, .ok _ => some (runtime, contents)
  | _, _ => none

def localMachine : Machine ImageOps Local where
  step k o r k' := Below k'.known (learn serde k.known o r) ∧ k'.seen = seen o r

/-- What is written is a state of the default image, of the version that is known. -/
def Allowed (k : Local) : ImageOp → Prop
  | .writeFile runtime contents => ∃ state : RuntimeImageState,
      contents = serde.toStringPretty state ++ "\n" ∧ state.image = defaultImage runtime ∧
        Fits k.known runtime state.installedVersion
  | _ => True

/-- The version is the one of the file that the last call has read or written. -/
def Saw (k : Local) (runtime : RuntimeKind) (version : String) : Prop :=
  ∃ contents state, k.seen = some (runtime, contents) ∧ serde.fromStr contents = .ok state ∧
    state.image = defaultImage runtime ∧ state.installedVersion = version

/-- A process that ends has told only what it has seen. -/
def Ends (res : Except Error Report) (k : Local) : Prop :=
  ∀ report, res = .ok report → ∀ runtime version, report.Tells runtime version →
    Saw serde k runtime version

section
variable {serde} {k : Local} {runtime : RuntimeKind} {store : RuntimeImageStateStore}

theorem wp_read {Q : Except Error (Option RuntimeImageState) → Local → Prop}
    (herror : ∀ e k', Q (.error e) k') (hnone : ∀ k', Q (.ok none) k')
    (hsome : ∀ contents state k', k'.seen = some (runtime, contents) →
      serde.fromStr contents = .ok state →
      (state.image = defaultImage runtime → Fits k'.known runtime state.installedVersion) →
      Q (.ok (some state)) k') :
    wp (localMachine serde) (Allowed serde) (store.read serde runtime) Q k := by
  refine ⟨trivial, fun r k' hstep => ?_⟩
  rcases r with e | _ | contents
  · exact herror e k'
  · exact hnone k'
  · rcases hstate : serde.fromStr contents with e | state
    · simp only [RuntimeImageStateStore.parse, hstate]
      exact herror _ k'
    · simp only [RuntimeImageStateStore.parse, hstate]
      refine hsome contents state k' hstep.2 hstate fun himage => ?_
      have hlearn : learn serde k.known (.readFile runtime) (.ok (some contents)) =
          Function.update k.known runtime (some state.installedVersion) := by
        simp only [learn, hstate, if_pos himage]
      have hbelow := hstep.1
      rw [hlearn] at hbelow
      intro v hv
      have hup := hbelow runtime v hv
      rw [Function.update_self] at hup
      exact Option.some.inj hup

/-- A read tells at most that a state fits. -/
theorem wp_readPrior {Q : Except Error (Option RuntimeImageState) → Local → Prop}
    (herror : ∀ e k', Q (.error e) k')
    (hprior : ∀ priorState k', (∀ state, priorState = some state →
      state.image = defaultImage runtime → Fits k'.known runtime state.installedVersion) →
        Q (.ok priorState) k') :
    wp (localMachine serde) (Allowed serde) (store.read serde runtime) Q k := by
  refine wp_read herror (fun k' => hprior none k' fun _ h => by cases h)
    fun contents state k' _ _ hfits => hprior (some state) k' fun state' hstate => ?_
  cases hstate
  exact hfits

theorem wp_write {state : RuntimeImageState} {Q : Except Error Unit → Local → Prop}
    (himage : state.image = defaultImage runtime)
    (hfits : Fits k.known runtime state.installedVersion) (herror : ∀ e k', Q (.error e) k')
    (hok : ∀ k', Saw serde k' runtime state.installedVersion → Q (.ok ()) k') :
    wp (localMachine serde) (Allowed serde) (RuntimeImageStateStore.write serde runtime state) Q k := by
  refine ⟨⟨state, rfl, himage, hfits⟩, fun r k' hstep => ?_⟩
  rcases r with e | _
  · exact herror e k'
  · exact hok k' ⟨_, state, hstep.2, serde.fromStr_toStringPretty state, himage, rfl⟩

theorem wp_buildImage {version : String} {Q : Except Error Unit → Local → Prop}
    (herror : ∀ e k', Q (.error e) k')
    (hok : ∀ k', Fits k'.known runtime version → Q (.ok ()) k') :
    wp (localMachine serde) (Allowed serde) (buildImage runtime version) Q k := by
  refine ⟨trivial, fun r k' hstep => ?_⟩
  rcases r with e | _
  · exact herror e k'
  · refine hok k' fun v hv => ?_
    have hup := hstep.1 runtime v hv
    simp only [learn, Function.update_self] at hup
    exact Option.some.inj hup

/-- The clock tells nothing of the images. -/
theorem wp_now {Q : Except Error UInt64 → Local → Prop} (herror : ∀ e k', Q (.error e) k')
    (hok : ∀ now k', Below k'.known k.known → Q (.ok now) k') :
    wp (localMachine serde) (Allowed serde) nowUnixSeconds Q k := by
  refine ⟨trivial, fun r k' hstep => ?_⟩
  rcases r with e | now
  · exact herror e k'
  · exact hok now k' hstep.1

theorem wp_buildRuntimeImageAndRecordState {version : String}
    {Q : Except Error Unit → Local → Prop} (herror : ∀ e k', Q (.error e) k')
    (hok : ∀ k', Saw serde k' runtime version → Q (.ok ()) k') :
    wp (localMachine serde) (Allowed serde)
      (buildRuntimeImageAndRecordState serde runtime version) Q k := by
  unfold buildRuntimeImageAndRecordState
  simp only [Prog.bind_eq, wp_bind]
  refine wp_buildImage herror fun k1 hfits => ?_
  simp only [andThen_ok, wp_bind]
  refine wp_now herror fun now k2 hbelow => ?_
  exact wp_write rfl (hfits.below hbelow) herror hok

theorem ends_error (e : Error) (k : Local) : Ends serde (.error e) k := nofun

theorem ends_updated {outcome : RuntimeImageUpdateOutcome} {image version : String}
    (houtcome : outcome = .alreadyUpToDate image version ∨ outcome = .rebuilt image version)
    (h : Saw serde k runtime version) : Ends serde (.ok (.updated runtime outcome)) k := by
  rintro _ ⟨⟩ runtime' version' htells
  rcases houtcome with rfl | rfl
  · cases htells
    exact h
  · cases htells
    exact h

theorem wp_fromXdg {Q : Except Error RuntimeImageStateStore → Local → Prop}
    (herror : ∀ e k', Q (.error e) k') (hok : ∀ store k', Q (.ok store) k') :
    wp (localMachine serde) (Allowed serde) RuntimeImageStateStore.fromXdg Q k := by
  refine ⟨trivial, fun r k' _ => ?_⟩
  rcases r with e | home
  · exact herror e k'
  · exact hok _ k'

theorem wp_resolveLatestVersion {package : String} {Q : Except Error String → Local → Prop}
    (herror : ∀ e k', Q (.error e) k') (hok : ∀ version k', Q (.ok version) k') :
    wp (localMachine serde) (Allowed serde) (resolveLatestVersion package) Q k := by
  refine ⟨trivial, fun r k' _ => ?_⟩
  rcases r with e | version
  · exact herror e k'
  · exact hok version k'

theorem wp_imageExists {image : String} {Q : Except Error Bool → Local → Prop}
    (herror : ∀ e k', Q (.error e) k') (hok : ∀ found k', Q (.ok found) k') :
    wp (localMachine serde) (Allowed serde) (imageExists image) Q k := by
  refine ⟨trivial, fun r k' _ => ?_⟩
  rcases r with e | found
  · exact herror e k'
  · exact hok found k'

theorem wp_removeImage {image : String} {Q : Except Error Unit → Local → Prop}
    (herror : ∀ e k', Q (.error e) k') (hok : ∀ k', Q (.ok ()) k') :
    wp (localMachine serde) (Allowed serde) (removeImage image) Q k := by
  refine ⟨trivial, fun r k' _ => ?_⟩
  rcases r with e | _
  · exact herror e k'
  · exact hok k'

theorem wp_update : wp (localMachine serde) (Allowed serde)
    ((updateDefaultRuntimeImage serde runtime).bind fun outcome =>
      .done (.updated runtime outcome)) (Ends serde) k := by
  unfold updateDefaultRuntimeImage updateDefaultRuntimeImageWith
  simp only [Prog.bind_eq, wp_bind]
  refine wp_fromXdg ends_error fun store k1 => ?_
  simp only [andThen_ok, wp_bind]
  refine wp_resolveLatestVersion ends_error fun latestVersion k2 => ?_
  simp only [andThen_ok, wp_bind]
  refine wp_imageExists ends_error fun imageExists k3 => ?_
  simp only [andThen_ok, wp_bind]
  refine wp_readPrior ends_error fun priorState k' hfits => ?_
  simp only [andThen_ok]
  obtain hplan | ⟨state, hplan, hprior, -, hversion, hcurrent⟩ :=
    planRuntimeImageUpdate_cases runtime latestVersion imageExists priorState
  · simp only [hplan, wp_bind]
    exact wp_buildRuntimeImageAndRecordState ends_error fun _ hsaw => ends_updated (.inr rfl) hsaw
  · simp only [hplan, wp_bind]
    refine wp_now ends_error fun now k4 hbelow => ?_
    simp only [andThen_ok, wp_bind]
    refine wp_write hcurrent.1 ((hfits state hprior hcurrent.1).below hbelow) ends_error
      fun k5 hsaw => ?_
    exact ends_updated (.inl rfl) (hversion ▸ hsaw)

theorem wp_ensure {workspaceRoot : Utf8Path} : wp (localMachine serde) (Allowed serde)
    ((ensureDefaultRuntimeImage serde runtime workspaceRoot).bind fun version =>
      .done (.ensured runtime version)) (Ends serde) k := by
  unfold ensureDefaultRuntimeImage ensureDefaultRuntimeImageWith
  simp only [Prog.bind_eq, wp_bind]
  refine wp_fromXdg ends_error fun store k1 => ?_
  simp only [andThen_ok, wp_bind]
  refine wp_imageExists ends_error fun found k2 => ?_
  simp only [andThen_ok]
  split_ifs with hfound
  · -- the image is used, and its version is the recorded one
    unfold installedVersionIfKnown
    simp only [Prog.bind_eq, wp_bind]
    refine wp_read ends_error (fun k' => ?_) fun contents state k' hseen hstate _ => ?_
    · rintro _ ⟨⟩ _ _ ⟨⟩
    · simp only [andThen_ok, Prog.pure_eq, wp_done]
      rintro _ ⟨⟩ runtime' version htells
      rcases hfilter : (some state).filter fun state => state.image == defaultImage runtime with
        _ | state'
      · rw [hfilter] at htells
        cases htells
      · rw [hfilter] at htells
        obtain ⟨hsome, himage⟩ := Option.filter_eq_some_iff.1 hfilter
        cases hsome
        cases htells
        exact ⟨contents, state, hseen, hstate, beq_iff_eq.1 himage, rfl⟩
  · -- the image is built
    unfold buildDefaultRuntimeImage
    simp only [Prog.bind_eq, wp_bind, wp_attempt]
    refine wp_resolveLatestVersion (fun _ k' => ends_error _ k') fun latestVersion k3 => ?_
    simp only [andThen_ok, wp_bind]
    refine wp_buildRuntimeImageAndRecordState (fun _ k' => ends_error _ k') fun k4 hsaw => ?_
    rintro _ ⟨⟩ runtime' version htells
    cases htells
    exact hsaw

theorem wp_clean {image : String} : wp (localMachine serde) (Allowed serde)
    ((removeImageCandidate serde runtime image).bind fun _ => .done .cleaned) (Ends serde) k := by
  unfold removeImageCandidate RuntimeImageStateStore.removeIfImage
  simp only [Prog.bind_eq, wp_bind]
  have hcleaned : ∀ k', Ends serde (.ok .cleaned) k' := by
    rintro k' _ ⟨⟩ _ _ ⟨⟩
  refine wp_removeImage ends_error fun k1 => ?_
  simp only [andThen_ok, wp_bind]
  refine wp_fromXdg ends_error fun store k2 => ?_
  simp only [andThen_ok, wp_bind]
  refine wp_read ends_error hcleaned fun contents state k3 _ _ _ => ?_
  simp only [andThen_ok]
  split_ifs with himage
  · refine ⟨trivial, fun r k4 _ => ?_⟩
    rcases r with e | _
    · exact ends_error e k4
    · exact hcleaned k4
  · exact hcleaned k3

theorem wp_process {p : ImageCommand Report} (h : Process serde p) :
    wp (localMachine serde) (Allowed serde) p (Ends serde) k := by
  cases h with
  | update runtime => exact wp_update
  | ensure runtime workspaceRoot => exact wp_ensure
  | clean runtime image => exact wp_clean

end

/-! ### What every call keeps -/

theorem defaultImage_injective : Function.Injective defaultImage := by
  intro a b h
  cases a <;> cases b <;> first | rfl | exact absurd h (by decide)

/-- What is known of the images is right. -/
def Right (w : ImageWorld) (known : Known) : Prop :=
  ∀ runtime version, known runtime = some version →
    ∀ v, w.images (defaultImage runtime) = some v → version = v

section
variable {serde} {w w' : ImageWorld} {known : Known} {o : ImageOp} {r : o.Ret}

/-- Only builds bring images. -/
theorem images_of_step (h : (imageMachine serde).step w o r w')
    (ho : ∀ runtime version, o ≠ .buildImage runtime version) {image v : String}
    (hv : w'.images image = some v) : w.images image = some v := by
  have hsame : w' = w → w.images image = some v := fun hw => hw ▸ hv
  cases o with
  | stateHome => exact hsame h
  | imageExists image => exact hsame h.2
  | readFile runtime => exact hsame h.2
  | writeFile runtime contents =>
    rcases h with rfl | ⟨-, rfl | ⟨torn, rfl, -⟩⟩
    · exact hv
    · exact hv
    · exact hv
  | removeFile runtime =>
    rcases h with rfl | ⟨-, rfl⟩
    · exact hv
    · exact hv
  | resolveLatestVersion package => exact hsame h
  | buildImage runtime version => exact absurd rfl (ho runtime version)
  | nowUnixSeconds => exact hsame h
  | removeImage image' =>
    rcases h with rfl | ⟨-, rfl⟩
    · simp only [ImageWorld.setImage, Function.update_apply] at hv
      split_ifs at hv
      exact hv
    · exact hv

/-- Only writes bring files. -/
theorem files_of_step (h : (imageMachine serde).step w o r w')
    (ho : ∀ runtime contents, o ≠ .writeFile runtime contents) {runtime : RuntimeKind}
    {contents : String} (hc : w'.files runtime = some contents) :
    w.files runtime = some contents := by
  have hsame : w' = w → w.files runtime = some contents := fun hw => hw ▸ hc
  cases o with
  | stateHome => exact hsame h
  | imageExists image => exact hsame h.2
  | readFile runtime => exact hsame h.2
  | writeFile runtime contents => exact absurd rfl (ho runtime contents)
  | removeFile runtime' =>
    rcases h with rfl | ⟨-, rfl⟩
    · simp only [ImageWorld.setFile, Function.update_apply] at hc
      split_ifs at hc
      exact hc
    · exact hc
  | resolveLatestVersion package => exact hsame h
  | buildImage runtime version =>
    rcases h with rfl | ⟨-, rfl⟩
    · exact hc
    · exact hc
  | nowUnixSeconds => exact hsame h
  | removeImage image =>
    rcases h with rfl | ⟨-, rfl⟩
    · exact hc
    · exact hc

/-- A build changes one image, to the version of the build. -/
theorem images_of_build {runtime : RuntimeKind} {version : String} {r : Except Error Unit}
    (h : (imageMachine serde).step w (.buildImage runtime version) r w') {runtime' : RuntimeKind}
    {v : String} (hv : w'.images (defaultImage runtime') = some v) :
    (runtime' = runtime ∧ v = version) ∨
      ((runtime' = runtime → ∃ e, r = .error e) ∧ w.images (defaultImage runtime') = some v) := by
  rcases h with rfl | ⟨herror, rfl⟩
  · simp only [ImageWorld.setImage, Function.update_apply] at hv
    split_ifs at hv with hruntime
    · exact .inl ⟨defaultImage_injective hruntime, (Option.some.inj hv).symm⟩
    · exact .inr ⟨fun heq => absurd (congrArg defaultImage heq) hruntime, hv⟩
  · exact .inr ⟨fun _ => herror, hv⟩

theorem right_forget (h : Right w known) (hstep : (imageMachine serde).step w o r w') :
    Right w' (forget known o) := by
  intro runtime version hknown v hv
  by_cases hbuild : ∃ runtime' version', o = .buildImage runtime' version'
  · obtain ⟨runtime', version', rfl⟩ := hbuild
    obtain ⟨rfl, rfl⟩ | ⟨-, hold⟩ := images_of_build hstep hv
    · simp only [forget] at hknown
      split_ifs at hknown with hsame
      · rw [hsame] at hknown
        exact (Option.some.inj hknown).symm
      · rw [Function.update_self] at hknown
        cases hknown
    · exact h runtime version (below_forget known _ runtime version hknown) v hold
  · have hno : ∀ runtime version, o ≠ .buildImage runtime version :=
      fun runtime version ho => hbuild ⟨runtime, version, ho⟩
    exact h runtime version (below_forget known o runtime version hknown) v
      (images_of_step hstep hno hv)

theorem right_learn (h : Right w known) (htruthful : ∀ runtime, w.Truthful serde runtime)
    (hstep : (imageMachine serde).step w o r w') : Right w' (learn serde known o r) := by
  intro runtime version hknown v hv
  have hplain : learn serde known o r = known →
      (∀ runtime version, o ≠ .buildImage runtime version) → version = v := fun heq hno =>
    h runtime version (heq ▸ hknown) v (images_of_step hstep hno hv)
  cases o with
  | buildImage runtime' version' =>
    rcases r with e | _
    · simp only [learn, Function.update_apply] at hknown
      split_ifs at hknown with hruntime
      obtain ⟨rfl, -⟩ | ⟨-, hold⟩ := images_of_build hstep hv
      · exact absurd rfl hruntime
      · exact h runtime version hknown v hold
    · simp only [learn, Function.update_apply] at hknown
      obtain ⟨rfl, rfl⟩ | ⟨hother, hold⟩ := images_of_build hstep hv
      · rw [if_pos rfl] at hknown
        exact (Option.some.inj hknown).symm
      · split_ifs at hknown with hruntime
        · obtain ⟨e, he⟩ := hother hruntime
          cases he
        · exact h runtime version hknown v hold
  | readFile runtime' =>
    rcases r with e | _ | contents
    · exact hplain rfl nofun
    · exact hplain rfl nofun
    · rcases hstate : serde.fromStr contents with e | state
      · exact hplain (by simp only [learn, hstate]) nofun
      · by_cases himage : state.image = defaultImage runtime'
        · simp only [learn, hstate, if_pos himage, Function.update_apply] at hknown
          split_ifs at hknown with hruntime
          · subst hruntime
            have hstored : w.Stored serde runtime state :=
              ⟨contents, (hstep.1 _ rfl).symm, hstate⟩
            rw [← Option.some.inj hknown]
            exact htruthful runtime state v hstored himage (images_of_step hstep nofun hv)
          · exact h runtime version hknown v (images_of_step hstep nofun hv)
        · exact hplain (by simp only [learn, hstate, if_neg himage]) nofun
  | writeFile runtime' contents => exact hplain rfl nofun
  | stateHome => exact hplain rfl nofun
  | imageExists image => exact hplain rfl nofun
  | removeFile runtime' => exact hplain rfl nofun
  | resolveLatestVersion package => exact hplain rfl nofun
  | nowUnixSeconds => exact hplain rfl nofun
  | removeImage image => exact hplain rfl nofun

theorem stored_of_step (h : (imageMachine serde).step w o r w')
    (ho : ∀ runtime contents, o ≠ .writeFile runtime contents) {runtime : RuntimeKind}
    {state : RuntimeImageState} (hstored : w'.Stored serde runtime state) :
    w.Stored serde runtime state := by
  obtain ⟨contents, hfile, hstate⟩ := hstored
  exact ⟨contents, files_of_step h ho hfile, hstate⟩

/-- After a write, what is stored of a runtime was stored before or is what was written. -/
theorem stored_of_write {runtime : RuntimeKind} {contents : String} {r : Except Error Unit}
    (h : (imageMachine serde).step w (.writeFile runtime contents) r w') {runtime' : RuntimeKind}
    {state : RuntimeImageState} (hstored : w'.Stored serde runtime' state) :
    w.Stored serde runtime' state ∨ runtime' = runtime ∧ serde.fromStr contents = .ok state := by
  have hset : ∀ written, (w.setFile runtime (some written)).Stored serde runtime' state →
      w.Stored serde runtime' state ∨ runtime' = runtime ∧ serde.fromStr written = .ok state := by
    rintro written ⟨read, hfile, hstate⟩
    simp only [ImageWorld.setFile, Function.update_apply] at hfile
    split_ifs at hfile with hruntime
    · exact .inr ⟨hruntime, (Option.some.inj hfile) ▸ hstate⟩
    · exact .inl ⟨read, hfile, hstate⟩
  rcases h with rfl | ⟨-, rfl | ⟨torn, rfl, htorn⟩⟩
  · exact hset contents hstored
  · exact .inl hstored
  · exact (hset torn hstored).imp_right fun h => ⟨h.1, htorn state h.2⟩

/-- What a call has read or written is stored after it. -/
theorem file_of_seen (h : (imageMachine serde).step w o r w') {runtime : RuntimeKind}
    {contents : String} (hseen : seen o r = some (runtime, contents)) :
    w'.files runtime = some contents := by
  cases o with
  | readFile runtime' =>
    rcases r with e | _ | contents'
    · cases hseen
    · cases hseen
    · cases hseen
      rw [h.2, ← h.1 _ rfl]
  | writeFile runtime' contents' =>
    rcases r with e | _
    · cases hseen
    · cases hseen
      rcases h with rfl | ⟨⟨e, he⟩, -⟩
      · simp only [ImageWorld.setFile, Function.update_self]
      · cases he
  | _ => cases hseen

theorem truthful_of_step {seen : Option (RuntimeKind × String)}
    (htruthful : ∀ runtime, w.Truthful serde runtime) (hright : Right w known)
    (hbuild : ∀ runtime version, o = .buildImage runtime version → ∀ state,
      w.Stored serde runtime state → state.image = defaultImage runtime →
        state.installedVersion = version)
    (hwrite : ∀ runtime contents, o = .writeFile runtime contents →
      ∃ version, known runtime = some version)
    (hallowed : Allowed serde ⟨known, seen⟩ o) (hstep : (imageMachine serde).step w o r w') :
    ∀ runtime, w'.Truthful serde runtime := by
  intro runtime state v hstored himage hv
  by_cases hisBuild : ∃ runtime' version, o = .buildImage runtime' version
  · obtain ⟨runtime', version, rfl⟩ := hisBuild
    have hold := stored_of_step hstep nofun hstored
    obtain ⟨rfl, rfl⟩ | ⟨-, hv'⟩ := images_of_build hstep hv
    · exact hbuild runtime v rfl state hold himage
    · exact htruthful runtime state v hold himage hv'
  have hv' := images_of_step hstep (fun runtime version ho => hisBuild ⟨runtime, version, ho⟩) hv
  by_cases hisWrite : ∃ runtime' contents, o = .writeFile runtime' contents
  · obtain ⟨runtime', contents, rfl⟩ := hisWrite
    obtain hold | ⟨rfl, hread⟩ := stored_of_write hstep hstored
    · exact htruthful runtime state v hold himage hv'
    · obtain ⟨written, rfl, -, hfits⟩ := hallowed
      rw [serde.fromStr_toStringPretty] at hread
      cases hread
      obtain ⟨version, hversion⟩ := hwrite runtime _ rfl
      rw [hfits version hversion]
      exact hright runtime version hversion v hv'
  · have hold := stored_of_step hstep (fun runtime contents ho => hisWrite ⟨runtime, contents, ho⟩)
      hstored
    exact htruthful runtime state v hold himage hv'

end

/-! ### Runs -/

/-- What holds between any two calls. -/
structure Inv (s : Shared ι) : Prop where
  truthful : ∀ runtime, s.world.Truthful serde runtime
  right : ∀ i, Right s.world (s.known i)

/-- A thread is safe whatever of its knowledge is left. -/
def Safe (i : ι) (s : Shared ι) (p : ImageCommand Report) : Prop :=
  ∃ last, ∀ known, Below known (s.known i) →
    wp (localMachine serde) (Allowed serde) p (Ends serde) ⟨known, last⟩

section
variable {serde} {s s' : Shared ι} {i : ι} {o : ImageOp} {r : o.Ret}

theorem safe_own {k : o.Ret → ImageCommand Report} (h : Safe serde i s (.call o k))
    (hstep : (sharedMachine serde i).step s o r s') :
    ∀ known, Below known (s'.known i) →
      wp (localMachine serde) (Allowed serde) (k r) (Ends serde) ⟨known, seen o r⟩ := by
  obtain ⟨last, hsafe⟩ := h
  intro known hknown
  refine (hsafe (s.known i) (Below.refl _)).2 r _ ⟨?_, rfl⟩
  rw [hstep.2] at hknown
  simpa using hknown

theorem inv_own {k : o.Ret → ImageCommand Report} (hinv : Inv serde s)
    (h : Safe serde i s (.call o k)) (htimely : Timely serde s ⟨i, o, r⟩)
    (hstep : (sharedMachine serde i).step s o r s') : Inv serde s' := by
  obtain ⟨last, hsafe⟩ := h
  refine ⟨truthful_of_step hinv.truthful (hinv.right i) ?_ ?_ (hsafe _ (Below.refl _)).1 hstep.1,
    fun j => ?_⟩
  · rintro runtime version rfl
    exact htimely
  · rintro runtime contents rfl
    exact htimely
  · rw [hstep.2]
    simp only
    split_ifs
    · exact right_learn (hinv.right j) hinv.truthful hstep.1
    · exact right_forget (hinv.right j) hstep.1

theorem safe_other {j : ι} {p : ImageCommand Report} (hne : i ≠ j) (h : Safe serde j s p)
    (hstep : (sharedMachine serde i).step s o r s') : Safe serde j s' p := by
  obtain ⟨last, hsafe⟩ := h
  refine ⟨last, fun known hknown => hsafe known ?_⟩
  rw [hstep.2] at hknown
  simp only [if_neg (Ne.symm hne)] at hknown
  exact hknown.trans (below_forget _ _)

theorem inv_of_reachable {t : Threads ImageOps Error Report ι (Shared ι)}
    (h : Reachable ((images serde ι).restrict fun t c => Timely serde t.shared c) t) :
    Inv serde t.shared ∧ ∀ i, Safe serde i t.shared (t.thread i) := by
  refine reachable_interleaving (J := fun i s p => Safe serde i s p) ?_ ?_ ?_ ?_ h
  · rintro s ⟨htruthful, hknown⟩
    exact ⟨htruthful, fun i runtime version hv => by rw [hknown] at hv; cases hv⟩
  · intro i s p _ hp
    exact ⟨none, fun known _ => wp_process hp⟩
  · intro i s o k r s' hinv hsafe htimely hstep
    exact ⟨inv_own hinv hsafe htimely hstep, _, safe_own hsafe hstep⟩
  · intro i j s o r s' p hne hstep hsafe
    exact safe_other hne hsafe hstep

end

/-- **What is recorded is true.** In every run whose steps are timely, what is stored of a default
image tells the version it was last built with, and so does every report when it is made. -/
theorem truthful_of_timely {t : Threads ImageOps Error Report ι (Shared ι)}
    (h : Reachable ((images serde ι).restrict fun t c => Timely serde t.shared c) t) :
    (∀ runtime, t.shared.world.Truthful serde runtime) ∧
    ∀ c t', ((images serde ι).restrict fun t c => Timely serde t.shared c).step t c t' →
      ∀ report, t'.thread c.who = .done report → ∀ runtime version, report.Tells runtime version →
        ∀ v, t'.shared.world.images (defaultImage runtime) = some v → version = v := by
  obtain ⟨hinv, hsafe⟩ := inv_of_reachable h
  refine ⟨hinv.truthful, fun c t' hstep report hreport runtime version htells v hv => ?_⟩
  have hinv' := (inv_of_reachable (h.step hstep)).1
  obtain ⟨-, k, hcall, hM, hthread⟩ := hstep
  have hwho := hsafe c.who
  rw [hcall] at hwho
  rw [hthread, Function.update_self] at hreport
  have hends := safe_own hwho hM _ (Below.refl _)
  rw [hreport] at hends
  obtain ⟨contents, state, hseen, hstate, himage, hversion⟩ := hends report rfl runtime version htells
  have hstored : t'.shared.world.Stored serde runtime state :=
    ⟨contents, file_of_seen hM.1 hseen, hstate⟩
  exact hversion ▸ hinv'.truthful runtime state v hstored himage hv

/-! ### Runs of a process on its own -/

def demoState : RuntimeImageState := .new .opencode "1.0.0" 10 10

def demoContents : String := flatSerde.toStringPretty demoState ++ "\n"

/-- The image of OpenCode holds 1.0.0, and so it is recorded. -/
def demoWorld : ImageWorld where
  images := Function.update (fun _ => none) (defaultImage .opencode) (some "1.0.0")
  files := Function.update (fun _ => none) .opencode (some demoContents)

theorem stored_demoWorld {runtime : RuntimeKind} {state : RuntimeImageState}
    (h : demoWorld.Stored flatSerde runtime state) : runtime = .opencode ∧ state = demoState := by
  obtain ⟨contents, hfile, hstate⟩ := h
  simp only [demoWorld, Function.update_apply] at hfile
  split_ifs at hfile with hruntime
  rw [← Option.some.inj hfile, demoContents, flatSerde.fromStr_toStringPretty] at hstate
  exact ⟨hruntime, (Except.ok.inj hstate).symm⟩

theorem truthful_demoWorld (runtime : RuntimeKind) : demoWorld.Truthful flatSerde runtime := by
  intro state version hstored _ hversion
  obtain ⟨rfl, rfl⟩ := stored_demoWorld hstored
  simp only [demoWorld, Function.update_self] at hversion
  exact Option.some.inj hversion

def Shared.after {ι : Type} [DecidableEq ι] (s : Shared ι) (i : ι) (o : ImageOp) (r : o.Ret)
    (w : ImageWorld) : Shared ι where
  world := w
  known j := if j = i then learn flatSerde (s.known j) o r else forget (s.known j) o

/-- Thread `i` can run `p` on its own, with steps that `C` allows. -/
def Runs {ι : Type} [DecidableEq ι] (C : Shared ι → Call ImageOps ι → Prop) (i : ι)
    (p : ImageCommand Report) (s : Shared ι) (w : ImageWorld) (res : Except Error Report) : Prop :=
  ∃ l s', Exec (sharedMachine flatSerde i) p s l s' res ∧ s'.world = w ∧
    ∀ e ∈ l, C e.pre ⟨i, e.op, e.ret⟩

section
variable {ι : Type} [DecidableEq ι] {C : Shared ι → Call ImageOps ι → Prop} {i : ι} {s : Shared ι}
  {w' : ImageWorld} {res : Except Error Report}

theorem runs_done (report : Report) : Runs C i (.done report) s s.world (.ok report) :=
  ⟨[], s, .done _ _, rfl, nofun⟩

theorem runs_fail (e : Error) : Runs C i (.fail e) s s.world (.error e) :=
  ⟨[], s, .fail _ _, rfl, nofun⟩

theorem runs_call {o : ImageOp} (r : o.Ret) (w : ImageWorld) {k : o.Ret → ImageCommand Report}
    (hC : C s ⟨i, o, r⟩) (hstep : (imageMachine flatSerde).step s.world o r w)
    (h : Runs C i (k r) (s.after i o r w) w' res) : Runs C i (.call o k) s w' res := by
  obtain ⟨l, s', hexec, hw, hl⟩ := h
  exact ⟨_, s', .call ⟨hstep, rfl⟩ hexec, hw, List.forall_mem_cons.2 ⟨hC, hl⟩⟩

theorem runs_read {contents : String} {state : RuntimeImageState} {runtime : RuntimeKind}
    {store : RuntimeImageStateStore} {f : Option RuntimeImageState → ImageCommand Report}
    (hC : C s ⟨i, .readFile runtime, .ok (some contents)⟩)
    (hfile : s.world.files runtime = some contents) (hstate : flatSerde.fromStr contents = .ok state)
    (h : Runs C i (f (some state)) (s.after i (.readFile runtime) (.ok (some contents)) s.world)
      w' res) : Runs C i ((store.read flatSerde runtime).bind f) s w' res := by
  refine runs_call (o := .readFile runtime) (.ok (some contents)) s.world hC ⟨?_, rfl⟩ ?_
  · rintro _ ⟨⟩
    exact hfile.symm
  · have hparse : store.parse flatSerde runtime (.ok (some contents)) = .ok (some state) := by
      simp only [RuntimeImageStateStore.parse, hstate]
    simp only [hparse]
    exact h

end

/-- An update whose clock fails after its build. -/
theorem runs_demoUpdate (known : Bool → Known) : Runs (fun _ _ => True) false
    ((updateDefaultRuntimeImage flatSerde .opencode).bind fun outcome =>
      .done (Report.updated .opencode outcome)) ⟨demoWorld, known⟩
    (demoWorld.setImage (defaultImage .opencode) (some "2.0.0"))
    (.error (.msg "system clock is before Unix epoch")) := by
  unfold updateDefaultRuntimeImage updateDefaultRuntimeImageWith
  simp only [Prog.bind_eq, Prog.bind_assoc]
  refine runs_call (o := .stateHome) (.ok ⟨"/home/demo/.local/state"⟩) demoWorld trivial rfl ?_
  refine runs_call (o := .resolveLatestVersion _) (.ok "2.0.0") demoWorld trivial rfl ?_
  refine runs_call (o := .imageExists _) (.ok true) demoWorld trivial ⟨?_, rfl⟩ ?_
  · rintro _ ⟨⟩
    rfl
  refine runs_read (C := fun _ _ => True) trivial rfl (flatSerde.fromStr_toStringPretty demoState) ?_
  refine runs_call (o := .buildImage _ _) (.ok ()) (demoWorld.setImage (defaultImage .opencode) (some "2.0.0")) trivial
    (.inl rfl) ?_
  refine runs_call (o := .nowUnixSeconds) (.error (.msg "system clock is before Unix epoch")) _ trivial rfl ?_
  exact runs_fail _

/-- A setup that finds the image. -/
theorem runs_demoEnsure {s : Shared Bool} {version : String}
    (himage : s.world.images (defaultImage .opencode) = some version)
    (hfile : s.world.files .opencode = some demoContents) : Runs (fun _ _ => True) true
    ((ensureDefaultRuntimeImage flatSerde .opencode ⟨"/workspace/demo"⟩).bind fun version =>
      .done (Report.ensured .opencode version)) s s.world
    (.ok (.ensured .opencode (some "1.0.0"))) := by
  unfold ensureDefaultRuntimeImage ensureDefaultRuntimeImageWith installedVersionIfKnown
  simp only [Prog.bind_eq, Prog.bind_assoc]
  refine runs_call (o := .stateHome) (.ok ⟨"/home/demo/.local/state"⟩) s.world trivial rfl ?_
  refine runs_call (o := .imageExists _) (.ok true) s.world trivial ⟨?_, rfl⟩ ?_
  · rintro _ ⟨⟩
    simp only [Shared.after, himage, Option.isSome_some]
  simp only [Prog.ofExcept, Prog.done_bind, if_true, Prog.bind_assoc]
  refine runs_read (C := fun _ _ => True) trivial hfile (flatSerde.fromStr_toStringPretty demoState) ?_
  exact runs_done _

theorem reachable_of_runs {ι : Type} [DecidableEq ι] {C : Shared ι → Call ImageOps ι → Prop} {i : ι}
    {p : ImageCommand Report} {w : ImageWorld} {res : Except Error Report}
    {t : Threads ImageOps Error Report ι (Shared ι)}
    (ht : Reachable ((images flatSerde ι).restrict fun t c => C t.shared c) t)
    (h : Runs C i p t.shared w res) (hp : t.thread i = p) :
    ∃ known, Reachable ((images flatSerde ι).restrict fun t c => C t.shared c)
      ⟨⟨w, known⟩, Function.update t.thread i (Prog.ofExcept res)⟩ := by
  obtain ⟨l, s', hexec, rfl, hl⟩ := h
  exact ⟨s'.known, reachable_of_exec hexec ht rfl hp hl⟩

/-- After an update that fails between its build and its record, the next launch tells the version
that was there before. -/
theorem not_truthful : ∃ t, Reachable (images flatSerde Bool) t ∧
    ¬ t.shared.world.Truthful flatSerde .opencode ∧
    t.shared.world.images (defaultImage .opencode) = some "2.0.0" ∧
    t.thread true = .done (.ensured .opencode (some "1.0.0")) := by
  have hstart : Reachable ((images flatSerde Bool).restrict fun _ _ => True)
      ⟨⟨demoWorld, fun _ _ => none⟩, fun i => if i then
        (ensureDefaultRuntimeImage flatSerde .opencode ⟨"/workspace/demo"⟩).bind fun version =>
          .done (.ensured .opencode version)
      else (updateDefaultRuntimeImage flatSerde .opencode).bind fun outcome =>
        .done (.updated .opencode outcome)⟩ := by
    refine .init ⟨⟨truthful_demoWorld, rfl⟩, fun i => ?_⟩
    cases i with
    | true => exact .ensure .opencode _
    | false => exact .update .opencode
  have himage : (demoWorld.setImage (defaultImage .opencode) (some "2.0.0")).images
      (defaultImage .opencode) = some "2.0.0" := by
    simp only [ImageWorld.setImage, Function.update_self]
  obtain ⟨known, hupdate⟩ := reachable_of_runs (C := fun _ _ => True) hstart (runs_demoUpdate _) rfl
  obtain ⟨known', hensure⟩ := reachable_of_runs (C := fun _ _ => True) hupdate
    (runs_demoEnsure himage rfl) rfl
  refine ⟨_, hensure.of_restrict, fun htruthful => ?_, himage, rfl⟩
  have hstored : (demoWorld.setImage (defaultImage .opencode) (some "2.0.0")).Stored flatSerde
      .opencode demoState :=
    ⟨demoContents, rfl, flatSerde.fromStr_toStringPretty demoState⟩
  have h := htruthful demoState "2.0.0" hstored rfl himage
  exact absurd h (by decide)

/-- A host without images. -/
def emptyWorld : ImageWorld := ⟨fun _ => none, fun _ => none⟩

/-- A host on which 1.0.0 was built and recorded. -/
def builtWorld : ImageWorld :=
  (emptyWorld.setImage (defaultImage .opencode) (some "1.0.0")).setFile .opencode
    (some demoContents)

theorem version_of_stored {w : ImageWorld} (hfile : w.files .opencode = none ∨
    w.files .opencode = some demoContents) {state : RuntimeImageState}
    (h : w.Stored flatSerde .opencode state) : state.installedVersion = "1.0.0" := by
  obtain ⟨contents, hcontents, hstate⟩ := h
  rcases hfile with hnone | hsome
  · cases hnone.symm.trans hcontents
  · obtain rfl := Option.some.inj (hsome.symm.trans hcontents)
    rw [demoContents, flatSerde.fromStr_toStringPretty] at hstate
    rw [← Except.ok.inj hstate]
    rfl

/-- A setup on a host without the image builds and records 1.0.0. -/
theorem runs_demoSetup (known : Bool → Known) : Runs (Timely flatSerde) false
    ((ensureDefaultRuntimeImage flatSerde .opencode ⟨"/workspace/demo"⟩).bind fun version =>
      .done (Report.ensured .opencode version)) ⟨emptyWorld, known⟩ builtWorld
    (.ok (.ensured .opencode (some "1.0.0"))) := by
  unfold ensureDefaultRuntimeImage ensureDefaultRuntimeImageWith
  simp only [Prog.bind_eq, Prog.bind_assoc]
  refine runs_call (o := .stateHome) (.ok ⟨"/home/demo/.local/state"⟩) emptyWorld trivial rfl ?_
  refine runs_call (o := .imageExists _) (.ok false) emptyWorld trivial ⟨?_, rfl⟩ ?_
  · rintro _ ⟨⟩
    rfl
  refine runs_call (o := .resolveLatestVersion _) (.ok "1.0.0") emptyWorld trivial rfl ?_
  refine runs_call (o := .buildImage _ _) (.ok ())
    (emptyWorld.setImage (defaultImage .opencode) (some "1.0.0")) ?_ (.inl rfl) ?_
  · exact fun _ hstored _ => version_of_stored (.inl rfl) hstored
  refine runs_call (o := .nowUnixSeconds) (.ok 10)
    (emptyWorld.setImage (defaultImage .opencode) (some "1.0.0")) trivial rfl ?_
  refine runs_call (o := .writeFile _ _) (.ok ()) _ ⟨"1.0.0", rfl⟩ (.inl rfl) ?_
  exact runs_done _

theorem reachable_call {ι : Type} [DecidableEq ι] {C : Shared ι → Call ImageOps ι → Prop} {i : ι}
    {t : Threads ImageOps Error Report ι (Shared ι)} {o : ImageOp} (r : o.Ret) (w : ImageWorld)
    {k : o.Ret → ImageCommand Report}
    (ht : Reachable ((images flatSerde ι).restrict fun t c => C t.shared c) t)
    (hp : t.thread i = .call o k) (hC : C t.shared ⟨i, o, r⟩)
    (hstep : (imageMachine flatSerde).step t.shared.world o r w) :
    Reachable ((images flatSerde ι).restrict fun t c => C t.shared c)
      ⟨t.shared.after i o r w, Function.update t.thread i (k r)⟩ :=
  ht.step (a := ⟨i, o, r⟩) ⟨hC, k, hp, ⟨hstep, rfl⟩, rfl⟩

/-- Two setups find no image; the first builds and records 1.0.0, and then the second one does. -/
theorem truthful_of_timely_demo : ∃ t : Threads ImageOps Error Report Bool (Shared Bool),
    t.shared.world.files .opencode = some demoContents ∧
      (∀ i, t.thread i = .done (.ensured .opencode (some "1.0.0"))) ∧
      ∀ runtime, t.shared.world.Truthful flatSerde runtime := by
  have hstart : Reachable ((images flatSerde Bool).restrict fun t c => Timely flatSerde t.shared c)
      ⟨⟨emptyWorld, fun _ _ => none⟩, fun _ =>
        (ensureDefaultRuntimeImage flatSerde .opencode ⟨"/workspace/demo"⟩).bind fun version =>
          .done (.ensured .opencode version)⟩ := by
    refine .init ⟨⟨?_, rfl⟩, fun _ => .ensure .opencode _⟩
    rintro runtime state version ⟨contents, ⟨⟩, -⟩
  -- the second process has looked for the image before the first one begins
  have hhome := reachable_call (i := true) (o := .stateHome) (.ok ⟨"/home/demo/.local/state"⟩)
    emptyWorld hstart rfl trivial rfl
  have hlook := reachable_call (i := true) (o := .imageExists (defaultImage .opencode)) (.ok false)
    emptyWorld hhome rfl trivial ⟨fun _ h => by cases h; rfl, rfl⟩
  obtain ⟨known, hbuilt⟩ := reachable_of_runs (C := Timely flatSerde) hlook (runs_demoSetup _) rfl
  have hresolve := reachable_call (i := true)
    (o := .resolveLatestVersion (packageSpec .opencode).name) (.ok "1.0.0") builtWorld hbuilt rfl
    trivial rfl
  have hbuild := reachable_call (i := true) (o := .buildImage .opencode "1.0.0") (.ok ())
    (builtWorld.setImage (defaultImage .opencode) (some "1.0.0")) hresolve rfl
    (fun _ hstored _ => version_of_stored (.inr rfl) hstored) (.inl rfl)
  have hnow := reachable_call (i := true) (o := .nowUnixSeconds) (.ok 10)
    (builtWorld.setImage (defaultImage .opencode) (some "1.0.0")) hbuild rfl trivial rfl
  have hwrite := reachable_call (i := true) (o := .writeFile .opencode demoContents) (.ok ())
    ((builtWorld.setImage (defaultImage .opencode) (some "1.0.0")).setFile .opencode
      (some demoContents)) hnow rfl ⟨"1.0.0", rfl⟩ (.inl rfl)
  refine ⟨_, rfl, fun i => ?_, (truthful_of_timely flatSerde hwrite).1⟩
  cases i <;> rfl

end Agentbox.Image.Truthful
