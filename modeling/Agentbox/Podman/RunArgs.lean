import Agentbox.Lib.CommandLine
import Agentbox.Lib.Entries
import Agentbox.Runtime.MountOptions

/-! # podman run

`run_detached_args` and `run_foreground_args` of `podman/run.rs`, and the reading of such a command
line by its long options: what the arguments ask for is what the specification says. -/

namespace Agentbox.Podman.RunArgs

open Agentbox.Base.Path Agentbox.Config.Limits Agentbox.Lib.CommandLine Agentbox.Lib.Delimited
  Agentbox.Lib.Entries
  Agentbox.Metadata.Labels Agentbox.Runtime.MountOptions Agentbox.Runtime.Spec

def runDetachedArgs (containerName : String) (spec : RuntimeRunSpec) (hostGid : Nat) :
    List String :=
  ["run", "--detach", "--rm"] ++ commonRunArgs containerName spec hostGid

def runForegroundArgs (containerName : String) (spec : RuntimeRunSpec) (hostGid : Nat)
    (useTty : Bool) : List String :=
  ["run", "--rm", "--interactive"] ++ (if useTty then ["--tty"] else []) ++
    commonRunArgs containerName spec hostGid

/-! ### The options of podman run -/

inductive RunOption
  | detach
  | rm
  | interactive
  | tty
  | name
  | userns
  | user
  | groupAdd
  | workdir
  | label
  | mount
  | env
  | cpus
  | memory
  | publish
  deriving DecidableEq, Repr

namespace RunOption

def text : RunOption → String
  | detach => "detach"
  | rm => "rm"
  | interactive => "interactive"
  | tty => "tty"
  | name => "name"
  | userns => "userns"
  | user => "user"
  | groupAdd => "group-add"
  | workdir => "workdir"
  | label => "label"
  | mount => "mount"
  | env => "env"
  | cpus => "cpus"
  | memory => "memory"
  | publish => "publish"

def takesValue : RunOption → Bool
  | detach | rm | interactive | tty => false
  | _ => true

def all : List RunOption :=
  [detach, rm, interactive, tty, name, userns, user, groupAdd, workdir, label, mount, env, cpus,
    memory, publish]

end RunOption

def runGrammar : Grammar RunOption where
  name := RunOption.text
  takesValue := RunOption.takesValue
  find s := RunOption.all.find? fun o => o.text == s
  find_name o := by cases o <;> decide
  name_ne o := by cases o <;> decide
  plain o := by cases o <;> decide

structure RunFlags where
  detach : Bool := false
  rm : Bool := false
  interactive : Bool := false
  tty : Bool := false

/-- What the options of a `podman run` ask for. -/
structure RunOptions extends RunFlags where
  name : Option String := none
  userns : Option String := none
  user : Option String := none
  groupAdd : List String := []
  workdir : Option String := none
  labels : LabelMap := ∅
  mounts : List (List (String × Option String)) := []
  env : LabelMap := ∅
  cpus : Option String := none
  memory : Option String := none
  publish : List String := []

structure RunRequest extends RunOptions where
  image : String
  command : List String

/-- The name of a label or a variable: not empty, without blanks, and ending at the first `=`. -/
def isName (name : String) : Bool :=
  name ≠ "" && name.toList.all fun c => c ≠ '=' && c ≠ ' ' && c ≠ '\t'

/-- The text `name=value` of a label or a variable. Podman has other readings for texts without a
name or without `=`. -/
def entry (text : String) : Option (String × String) :=
  match cutAt '=' text.toList with
  | (name, some value) =>
    if isName (String.ofList name) then some (String.ofList name, String.ofList value) else none
  | (_, none) => none

/-- What one more option asks for. -/
def RunOptions.read (o : RunOptions) : RunOption × Option String → Option RunOptions
  | (.detach, none) => some { o with detach := true }
  | (.rm, none) => some { o with rm := true }
  | (.interactive, none) => some { o with interactive := true }
  | (.tty, none) => some { o with tty := true }
  | (.name, some v) => some { o with name := some v }
  | (.userns, some v) => some { o with userns := some v }
  | (.user, some v) => some { o with user := some v }
  | (.groupAdd, some v) => some { o with groupAdd := o.groupAdd ++ [v] }
  | (.workdir, some v) => some { o with workdir := some v }
  | (.label, some v) => (entry v).map fun e => { o with labels := o.labels.insert e.1 e.2 }
  | (.mount, some v) => (parseMount v).map fun mount => { o with mounts := o.mounts ++ [mount] }
  | (.env, some v) => (entry v).map fun e => { o with env := o.env.insert e.1 e.2 }
  | (.cpus, some v) => some { o with cpus := some v }
  | (.memory, some v) => some { o with memory := some v }
  | (.publish, some v) => some { o with publish := o.publish ++ [v] }
  | _ => none

/-- What the arguments of Podman ask for. -/
def readRun : List String → Option RunRequest
  | [] => none
  | command :: args =>
    if command = "run" then
      (parse runGrammar args).bind fun p => (p.1.foldlM RunOptions.read {}).bind fun o =>
        match p.2 with
        | [] => none
        | image :: command => some { o with image, command }
    else none

/-! ### What a specification asks for -/

def askedLimit (limit : Option String) : Option String := limit.filter (· ≠ "0")

def asked (flags : RunFlags) (containerName : String) (spec : RuntimeRunSpec) (hostGid : Nat) :
    RunOptions :=
  { flags with
    name := some containerName
    userns := some s!"keep-id:uid=1000,gid={hostGid}"
    user := some s!"user:{hostGid}"
    groupAdd := ["keep-groups"]
    workdir := some spec.workdir.asStr
    labels := spec.create.labels
    mounts := spec.create.mounts.map mountOptions
    env := spec.create.defaultEnv
    cpus := askedLimit (spec.create.resourceLimits.cpus.map CpuLimit.text)
    memory := askedLimit (spec.create.resourceLimits.memory.map MemoryLimit.text)
    publish := spec.create.publishedPorts }

def detachedFlags : RunFlags where
  detach := true
  rm := true

def foregroundFlags (useTty : Bool) : RunFlags where
  rm := true
  interactive := true
  tty := useTty

def requestOf (flags : RunFlags) (containerName : String) (spec : RuntimeRunSpec) (hostGid : Nat) :
    RunRequest :=
  { asked flags containerName spec hostGid with
    image := spec.create.image
    command := spec.create.command }

/-- Nothing of the specification is lost on the command line. -/
structure IsSayable (spec : RuntimeRunSpec) : Prop where
  image : IsOperand spec.create.image
  labels : ∀ name ∈ spec.create.labels, isName name = true
  mounts : ∀ mount ∈ spec.create.mounts, IsRenderable mount
  env : ∀ name ∈ spec.create.defaultEnv, isName name = true

/-! ### Names -/

theorem isName_iff {name : String} :
    isName name = true ↔ name ≠ "" ∧ ∀ c ∈ name.toList, c ≠ '=' ∧ c ≠ ' ' ∧ c ≠ '\t' := by
  simp [isName, and_assoc]

theorem entry_of_isName {name : String} (h : isName name = true) (value : String) :
    entry (name ++ "=" ++ value) = some (name, value) := by
  have htext : (name ++ "=" ++ value).toList = name.toList ++ '=' :: value.toList := by
    rw [String.toList_append, String.toList_append, List.append_assoc]
    rfl
  have hplain : '=' ∉ name.toList := fun hmem => ((isName_iff.1 h).2 _ hmem).1 rfl
  unfold entry
  rw [htext, cutAt_append hplain]
  simp only [String.ofList_toList, h, if_true]

theorem isName_of_entry {text : String} {e : String × String} (h : entry text = some e) :
    isName e.1 = true := by
  unfold entry at h
  split at h
  · split_ifs at h with hname
    obtain rfl := Option.some.inj h
    exact hname
  · cases h

/-! ### Entries -/

theorem mapM_eq_some_map {α β : Type} {f : α → Option β} {g : α → β} : ∀ {l : List α},
    l.mapM f = some (l.map g) ↔ ∀ a ∈ l, f a = some (g a)
  | [] => by simp
  | a :: l => by
    have ih := mapM_eq_some_map (f := f) (g := g) (l := l)
    rw [List.mapM_cons, List.forall_mem_cons, ← ih, List.map_cons]
    rcases f a with _ | b
    · simp
    · rcases l.mapM f with _ | bs <;> simp

theorem of_mapM_eq_some {α β : Type} {f : α → Option β} {P : β → Prop}
    (h : ∀ a b, f a = some b → P b) : ∀ {l : List α} {bs : List β},
      l.mapM f = some bs → ∀ b ∈ bs, P b
  | [], bs, hl => by
    obtain rfl : [] = bs := Option.some.inj hl
    simp
  | a :: l, bs, hl => by
    rw [List.mapM_cons] at hl
    obtain ⟨b, hb, hl⟩ := Option.bind_eq_some_iff.1 hl
    obtain ⟨rest, hrest, hl⟩ := Option.bind_eq_some_iff.1 hl
    obtain rfl : b :: rest = bs := Option.some.inj hl
    exact List.forall_mem_cons.2 ⟨h a b hb, of_mapM_eq_some h hrest⟩

/-- The entries of a map as they are read. -/
def readEntries (m : LabelMap) : Option LabelMap :=
  (m.toList.mapM fun e => entry (e.1 ++ "=" ++ e.2)).map fun l =>
    l.foldl (fun m e => m.insert e.1 e.2) ∅

theorem readEntries_eq_iff {m : LabelMap} :
    readEntries m = some m ↔ ∀ name ∈ m, isName name = true := by
  constructor
  · intro h name hname
    obtain ⟨l, hl, hm⟩ := Option.map_eq_some_iff.1 h
    rw [← hm, ← ofList_eq_foldl, Std.ExtTreeMap.mem_ofList] at hname
    obtain ⟨e, he, rfl⟩ := List.mem_map.1 (List.contains_iff_mem.1 hname)
    exact of_mapM_eq_some (fun _ _ => isName_of_entry) hl e he
  · intro h
    have hall : ∀ e ∈ m.toList, entry (e.1 ++ "=" ++ e.2) = some (id e) := by
      intro e he
      have hget := Std.ExtTreeMap.mem_toList_iff_getElem?_eq_some.1 he
      have hmem : e.1 ∈ m := Std.ExtTreeMap.mem_iff_isSome_getElem?.2 (by rw [hget]; rfl)
      exact entry_of_isName (h e.1 hmem) e.2
    unfold readEntries
    rw [mapM_eq_some_map.2 hall, List.map_id, Option.map_some, ← ofList_eq_foldl, ofList_toList]

/-! ### The arguments as options -/

/-- An option with its value. -/
def withValue (o : RunOption) (value : String) : RunOption × Option String := (o, some value)

/-- The options that `append_common_run_args` writes. -/
def commonOptions (containerName : String) (spec : RuntimeRunSpec) (hostGid : Nat) :
    List (RunOption × Option String) :=
  [withValue .name containerName, withValue .userns s!"keep-id:uid=1000,gid={hostGid}",
    withValue .user s!"user:{hostGid}", withValue .groupAdd "keep-groups",
    withValue .workdir spec.workdir.asStr] ++
  (spec.create.labels.toList.map (fun l => withValue .label (l.1 ++ "=" ++ l.2)) ++
  (spec.create.mounts.map (fun mount => withValue .mount (renderMount mount)) ++
  (spec.create.defaultEnv.toList.map (fun e => withValue .env (e.1 ++ "=" ++ e.2)) ++
  ((askedLimit (spec.create.resourceLimits.cpus.map CpuLimit.text)).toList.map
    (withValue .cpus) ++
  ((askedLimit (spec.create.resourceLimits.memory.map MemoryLimit.text)).toList.map
    (withValue .memory) ++
  spec.create.publishedPorts.map (withValue .publish))))))

theorem flatMap_render (o : RunOption) {α : Type} (f : α → String) (l : List α) :
    (l.map fun a => withValue o (f a)).flatMap (render runGrammar) =
      l.flatMap fun a => ["--" ++ o.text, f a] := by
  rw [List.flatMap_map]
  rfl

theorem flatMap_render_values (o : RunOption) (l : List String) :
    (l.map (withValue o)).flatMap (render runGrammar) = l.flatMap fun v => ["--" ++ o.text, v] :=
  flatMap_render o (fun v => v) l

theorem askedLimit_some (t : String) : askedLimit (some t) = if t = "0" then none else some t := by
  by_cases h : t = "0" <;> simp [askedLimit, Option.filter, h]

theorem limit_args (o : RunOption) (t : String) : (if t == "0" then [] else ["--" ++ o.text, t]) =
    ((askedLimit (some t)).toList.map (withValue o)).flatMap (render runGrammar) := by
  by_cases h : t = "0"
  · subst h
    rfl
  · rw [if_neg (by simpa using h), askedLimit_some, if_neg h]
    rfl

theorem podmanArgs_eq (limits : ResourceLimits) : limits.podmanArgs =
    ((askedLimit (limits.cpus.map CpuLimit.text)).toList.map (withValue .cpus) ++
      (askedLimit (limits.memory.map MemoryLimit.text)).toList.map
        (withValue .memory)).flatMap (render runGrammar) := by
  obtain ⟨cpus, memory⟩ := limits
  rw [List.flatMap_append]
  unfold ResourceLimits.podmanArgs
  congr 1
  · rcases cpus with _ | cpus
    · rfl
    · exact limit_args .cpus cpus.text
  · rcases memory with _ | memory
    · rfl
    · exact limit_args .memory memory.text

theorem commonRunArgs_eq (containerName : String) (spec : RuntimeRunSpec) (hostGid : Nat) :
    commonRunArgs containerName spec hostGid =
      (commonOptions containerName spec hostGid).flatMap (render runGrammar) ++
        spec.create.image :: spec.create.command := by
  unfold commonRunArgs commonOptions
  rw [podmanArgs_eq]
  simp only [List.flatMap_append, flatMap_render, flatMap_render_values, List.append_assoc]
  rfl

/-! ### The options as they are read -/

section

variable {τ α β : Type} (get : RunOptions → τ) (set : RunOptions → τ → RunOptions)

/-- `set` changes the field that `get` reads, and no other one. -/
structure IsField : Prop where
  get_set : ∀ o t, get (set o t) = t
  set_set : ∀ o t u, set (set o t) u = set o u
  set_get : ∀ o, set o (get o) = o

variable {get set} (h : IsField get set)
include h

theorem foldl_field (add : τ → β → τ) : ∀ (bs : List β) (o : RunOptions),
    bs.foldl (fun o b => set o (add (get o) b)) o = set o (bs.foldl add (get o))
  | [], o => (h.set_get o).symm
  | b :: bs, o => by
    rw [List.foldl_cons, foldl_field add bs, h.get_set, h.set_set, List.foldl_cons]

/-- Options that say something about one field. -/
theorem read_field (add : τ → β → τ) (f : α → Option β) {option : α → RunOption × Option String}
    (hread : ∀ o a, o.read (option a) = (f a).map fun b => set o (add (get o) b)) (l : List α)
    (o : RunOptions) : (l.map option).foldlM RunOptions.read o =
      (l.mapM f).map fun bs => set o (bs.foldl add (get o)) := by
  have hfold : (l.map option).foldlM RunOptions.read o =
      (l.mapM f).map fun bs => bs.foldl (fun o b => set o (add (get o) b)) o := by
    induction l generalizing o with
    | nil => rfl
    | cons a l ih =>
      rw [List.map_cons, List.foldlM_cons, hread, List.mapM_cons]
      rcases f a with _ | b
      · rfl
      · change (l.map option).foldlM RunOptions.read (set o (add (get o) b)) = _
        rw [ih]
        rcases l.mapM f with _ | bs <;> rfl
  rw [hfold]
  simp only [foldl_field h]

end

theorem read_labels (m : LabelMap) {o : RunOptions} (ho : o.labels = ∅) :
    (m.toList.map fun l => withValue .label (l.1 ++ "=" ++ l.2)).foldlM RunOptions.read o =
      (readEntries m).map fun labels => { o with labels } := by
  have hfield : IsField RunOptions.labels fun o labels => { o with labels } :=
    ⟨fun _ _ => rfl, fun _ _ _ => rfl, fun _ => rfl⟩
  rw [read_field hfield (fun labels e => labels.insert e.1 e.2) (fun l => entry (l.1 ++ "=" ++ l.2))
    (fun _ _ => rfl), ho, readEntries, Option.map_map]
  rfl

theorem read_env (m : LabelMap) {o : RunOptions} (ho : o.env = ∅) :
    (m.toList.map fun e => withValue .env (e.1 ++ "=" ++ e.2)).foldlM RunOptions.read o =
      (readEntries m).map fun env => { o with env } := by
  have hfield : IsField RunOptions.env fun o env => { o with env } :=
    ⟨fun _ _ => rfl, fun _ _ _ => rfl, fun _ => rfl⟩
  rw [read_field hfield (fun env e => env.insert e.1 e.2) (fun e => entry (e.1 ++ "=" ++ e.2))
    (fun _ _ => rfl), ho, readEntries, Option.map_map]
  rfl

theorem foldl_concat {α : Type} : ∀ l bs : List α, bs.foldl (fun l b => l ++ [b]) l = l ++ bs
  | l, [] => (List.append_nil l).symm
  | l, b :: bs => by rw [List.foldl_cons, foldl_concat (l ++ [b]) bs, List.append_assoc]; rfl

theorem read_mounts (mounts : List RuntimeMount) {o : RunOptions} (ho : o.mounts = []) :
    (mounts.map fun mount => withValue .mount (renderMount mount)).foldlM RunOptions.read o =
      (mounts.mapM fun mount => parseMount (renderMount mount)).map fun mounts =>
        { o with mounts } := by
  have hfield : IsField RunOptions.mounts fun o mounts => { o with mounts } :=
    ⟨fun _ _ => rfl, fun _ _ _ => rfl, fun _ => rfl⟩
  rw [read_field hfield (fun mounts mount => mounts ++ [mount])
    (fun mount => parseMount (renderMount mount)) (fun _ _ => rfl), ho]
  simp only [foldl_concat, List.nil_append]

theorem read_publish (ports : List String) {o : RunOptions} (ho : o.publish = []) :
    (ports.map (withValue .publish)).foldlM RunOptions.read o =
      some { o with publish := ports } := by
  have hfield : IsField RunOptions.publish fun o publish => { o with publish } :=
    ⟨fun _ _ => rfl, fun _ _ _ => rfl, fun _ => rfl⟩
  have hall : ∀ port ∈ ports, some port = some (id port) := fun _ _ => rfl
  rw [read_field hfield (fun ports port => ports ++ [port]) some (fun _ _ => rfl), ho,
    mapM_eq_some_map.2 hall, List.map_id, Option.map_some, foldl_concat, List.nil_append]

theorem read_cpus (limit : Option String) {o : RunOptions} (ho : o.cpus = none) :
    (limit.toList.map (withValue .cpus)).foldlM RunOptions.read o =
      some { o with cpus := limit } := by
  rcases limit with _ | v
  · change some o = _
    rw [← ho]
  · rfl

theorem read_memory (limit : Option String) {o : RunOptions} (ho : o.memory = none) :
    (limit.toList.map (withValue .memory)).foldlM RunOptions.read o =
      some { o with memory := limit } := by
  rcases limit with _ | v
  · change some o = _
    rw [← ho]
  · rfl

/-- What the options of a specification are read as. -/
theorem read_common (flags : RunFlags) (containerName : String) (spec : RuntimeRunSpec)
    (hostGid : Nat) :
    (commonOptions containerName spec hostGid).foldlM RunOptions.read { toRunFlags := flags } =
      (readEntries spec.create.labels).bind fun labels =>
        (spec.create.mounts.mapM fun mount => parseMount (renderMount mount)).bind fun mounts =>
          (readEntries spec.create.defaultEnv).map fun env =>
            { asked flags containerName spec hostGid with labels, mounts, env } := by
  unfold commonOptions
  rw [List.foldlM_append]
  change ((_ : List (RunOption × Option String)).foldlM RunOptions.read
    { toRunFlags := flags, name := some containerName,
      userns := some s!"keep-id:uid=1000,gid={hostGid}", user := some s!"user:{hostGid}",
      groupAdd := ["keep-groups"], workdir := some spec.workdir.asStr }) = _
  rw [List.foldlM_append, read_labels _ rfl]
  rcases readEntries spec.create.labels with _ | labels
  · rfl
  simp only [Option.map_some, Option.bind_eq_bind, Option.bind_some]
  rw [List.foldlM_append, read_mounts _ rfl]
  rcases spec.create.mounts.mapM fun mount => parseMount (renderMount mount) with _ | mounts
  · rfl
  simp only [Option.map_some, Option.bind_eq_bind, Option.bind_some]
  rw [List.foldlM_append, read_env _ rfl]
  rcases readEntries spec.create.defaultEnv with _ | env
  · rfl
  simp only [Option.map_some, Option.bind_eq_bind, Option.bind_some]
  rw [List.foldlM_append, read_cpus _ rfl]
  simp only [Option.bind_eq_bind, Option.bind_some]
  rw [List.foldlM_append, read_memory _ rfl]
  simp only [Option.bind_eq_bind, Option.bind_some]
  rw [read_publish _ rfl]
  rfl

/-! ### Whole command lines -/

section

variable (flags : RunFlags) (containerName : String) (spec : RuntimeRunSpec) (hostGid : Nat)

theorem fits_withValue {o : RunOption} (h : o.takesValue = true) (value : String) :
    Fits runGrammar (withValue o value) := h.symm

theorem fits_commonOptions : ∀ o ∈ commonOptions containerName spec hostGid, Fits runGrammar o := by
  unfold commonOptions
  simp only [List.forall_mem_append, List.forall_mem_map, List.forall_mem_cons]
  refine ⟨⟨fits_withValue rfl _, fits_withValue rfl _, fits_withValue rfl _, fits_withValue rfl _,
    fits_withValue rfl _, by simp⟩, ?_, ?_, ?_, ?_, ?_, ?_⟩
  all_goals exact fun _ _ => fits_withValue rfl _

/-- The options are read as what the specification asks for exactly if its texts are sayable. -/
theorem read_common_eq_asked_iff :
    (commonOptions containerName spec hostGid).foldlM RunOptions.read { toRunFlags := flags } =
      some (asked flags containerName spec hostGid) ↔
    (∀ name ∈ spec.create.labels, isName name = true) ∧
    (∀ mount ∈ spec.create.mounts, IsRenderable mount) ∧
    ∀ name ∈ spec.create.defaultEnv, isName name = true := by
  simp only [← readEntries_eq_iff, ← parseMount_renderMount_iff]
  rw [← mapM_eq_some_map, read_common]
  constructor
  · intro h
    obtain ⟨labels, hlabels, h⟩ := Option.bind_eq_some_iff.1 h
    obtain ⟨mounts, hmounts, h⟩ := Option.bind_eq_some_iff.1 h
    obtain ⟨env, henv, h⟩ := Option.map_eq_some_iff.1 h
    obtain rfl : labels = spec.create.labels := congrArg RunOptions.labels h
    obtain rfl : mounts = spec.create.mounts.map mountOptions := congrArg RunOptions.mounts h
    obtain rfl : env = spec.create.defaultEnv := congrArg RunOptions.env h
    exact ⟨hlabels, hmounts, henv⟩
  · rintro ⟨hlabels, hmounts, henv⟩
    rw [hlabels, Option.bind_some, hmounts, Option.bind_some, henv, Option.map_some]
    rfl

/-- A command line with options of its own before the common ones. -/
theorem readRun_iff {own : List (RunOption × Option String)} (hfits : ∀ o ∈ own, Fits runGrammar o)
    (hown : own.foldlM RunOptions.read {} = some { toRunFlags := flags }) :
    readRun ("run" :: (own.flatMap (render runGrammar) ++
      commonRunArgs containerName spec hostGid)) =
        some (requestOf flags containerName spec hostGid) ↔ IsSayable spec := by
  have hparse : parse runGrammar (own.flatMap (render runGrammar) ++
      commonRunArgs containerName spec hostGid) =
        (parse runGrammar (spec.create.image :: spec.create.command)).map fun p =>
          (own ++ (commonOptions containerName spec hostGid ++ p.1), p.2) := by
    rw [commonRunArgs_eq, parse_flatMap_render runGrammar hfits,
      parse_flatMap_render runGrammar (fits_commonOptions containerName spec hostGid),
      Option.map_map]
    rfl
  have hread : ∀ os, (own ++ (commonOptions containerName spec hostGid ++ os)).foldlM
      RunOptions.read {} = ((commonOptions containerName spec hostGid).foldlM RunOptions.read
        { toRunFlags := flags }).bind fun o => os.foldlM RunOptions.read o := by
    intro os
    rw [List.foldlM_append, hown, Option.bind_eq_bind, Option.bind_some, List.foldlM_append]
    rfl
  rw [readRun, if_pos rfl, hparse]
  constructor
  · intro h
    obtain ⟨p, hp, h⟩ := Option.bind_eq_some_iff.1 h
    obtain ⟨q, hq, rfl⟩ := Option.map_eq_some_iff.1 hp
    obtain ⟨o, ho, h⟩ := Option.bind_eq_some_iff.1 h
    obtain ⟨os, operands⟩ := q
    rcases operands with _ | ⟨image, command⟩
    · cases h
    have hrequest := Option.some.inj h
    obtain rfl : image = spec.create.image := congrArg RunRequest.image hrequest
    obtain rfl : command = spec.create.command := congrArg RunRequest.command hrequest
    obtain rfl : o = asked flags containerName spec hostGid :=
      congrArg RunRequest.toRunOptions hrequest
    obtain ⟨himage, rfl⟩ := (parse_eq_operands_iff (g := runGrammar)).1 hq
    rw [hread] at ho
    obtain ⟨o, ho, hnil⟩ := Option.bind_eq_some_iff.1 ho
    obtain rfl := Option.some.inj hnil
    obtain ⟨hlabels, hmounts, henv⟩ := (read_common_eq_asked_iff _ _ _ _).1 ho
    exact ⟨himage, hlabels, hmounts, henv⟩
  · rintro ⟨himage, hlabels, hmounts, henv⟩
    have hasked := (read_common_eq_asked_iff flags containerName spec hostGid).2
      ⟨hlabels, hmounts, henv⟩
    rw [parse_operand runGrammar himage, Option.map_some, Option.bind_some, hread, hasked]
    rfl

/-- Whatever the mounts, the rest of the specification is asked for: the options are the ones that
were rendered, and the image and the command come after them. -/
theorem readRun_of_names {own : List (RunOption × Option String)}
    (hfits : ∀ o ∈ own, Fits runGrammar o)
    (hown : own.foldlM RunOptions.read {} = some { toRunFlags := flags })
    (himage : IsOperand spec.create.image) (hlabels : ∀ name ∈ spec.create.labels, isName name = true)
    (henv : ∀ name ∈ spec.create.defaultEnv, isName name = true) :
    readRun ("run" :: (own.flatMap (render runGrammar) ++
      commonRunArgs containerName spec hostGid)) =
        (spec.create.mounts.mapM fun mount => parseMount (renderMount mount)).map fun mounts =>
          { requestOf flags containerName spec hostGid with mounts := mounts } := by
  have hparse : parse runGrammar (own.flatMap (render runGrammar) ++
      commonRunArgs containerName spec hostGid) =
        some (own ++ commonOptions containerName spec hostGid,
          spec.create.image :: spec.create.command) := by
    rw [commonRunArgs_eq, parse_flatMap_render runGrammar hfits,
      parse_flatMap_render runGrammar (fits_commonOptions containerName spec hostGid),
      parse_operand runGrammar himage, Option.map_some, Option.map_some, List.append_nil]
  have hread : (own ++ commonOptions containerName spec hostGid).foldlM RunOptions.read {} =
      (spec.create.mounts.mapM fun mount => parseMount (renderMount mount)).map fun mounts =>
        { asked flags containerName spec hostGid with mounts := mounts } := by
    rw [List.foldlM_append, hown, Option.bind_eq_bind, Option.bind_some, read_common,
      readEntries_eq_iff.2 hlabels, Option.bind_some, readEntries_eq_iff.2 henv]
    rcases spec.create.mounts.mapM fun mount => parseMount (renderMount mount) with _ | mounts
    · rfl
    · rfl
  rw [readRun, if_pos rfl, hparse, Option.bind_some, hread]
  rcases spec.create.mounts.mapM fun mount => parseMount (renderMount mount) with _ | mounts
  · rfl
  · rfl

theorem runDetachedArgs_eq : runDetachedArgs containerName spec hostGid =
    "run" :: (([(.detach, none), (.rm, none)] : List (RunOption × Option String)).flatMap
      (render runGrammar) ++ commonRunArgs containerName spec hostGid) := rfl

/-- Podman is asked for what the specification says, exactly if the specification is sayable. -/
theorem readRun_runDetachedArgs_iff :
    readRun (runDetachedArgs containerName spec hostGid) =
      some (requestOf detachedFlags containerName spec hostGid) ↔ IsSayable spec := by
  rw [runDetachedArgs_eq]
  refine readRun_iff detachedFlags containerName spec hostGid ?_ rfl
  simp only [List.forall_mem_cons]
  exact ⟨rfl, rfl, by simp⟩

theorem readRun_runDetachedArgs (himage : IsOperand spec.create.image)
    (hlabels : ∀ name ∈ spec.create.labels, isName name = true)
    (henv : ∀ name ∈ spec.create.defaultEnv, isName name = true) :
    readRun (runDetachedArgs containerName spec hostGid) =
      (spec.create.mounts.mapM fun mount => parseMount (renderMount mount)).map fun mounts =>
        { requestOf detachedFlags containerName spec hostGid with mounts := mounts } := by
  rw [runDetachedArgs_eq]
  refine readRun_of_names detachedFlags containerName spec hostGid ?_ rfl himage hlabels henv
  simp only [List.forall_mem_cons]
  exact ⟨rfl, rfl, by simp⟩

theorem readRun_runForegroundArgs_iff (useTty : Bool) :
    readRun (runForegroundArgs containerName spec hostGid useTty) =
      some (requestOf (foregroundFlags useTty) containerName spec hostGid) ↔ IsSayable spec := by
  have hargs : runForegroundArgs containerName spec hostGid useTty =
      "run" :: (([(.rm, none), (.interactive, none)] ++ (if useTty then [(.tty, none)] else []) :
        List (RunOption × Option String)).flatMap (render runGrammar) ++
          commonRunArgs containerName spec hostGid) := by
    cases useTty <;> rfl
  rw [hargs]
  have hown : ([(.rm, none), (.interactive, none)] ++ (if useTty then [(.tty, none)] else []) :
      List (RunOption × Option String)).foldlM RunOptions.read {} =
        some { toRunFlags := foregroundFlags useTty } := by
    cases useTty <;> rfl
  refine readRun_iff (foregroundFlags useTty) containerName spec hostGid ?_ hown
  simp only [List.forall_mem_append, List.forall_mem_cons]
  refine ⟨⟨rfl, rfl, by simp⟩, ?_⟩
  cases useTty
  · simp
  · exact List.forall_mem_singleton.2 rfl

end

end Agentbox.Podman.RunArgs
