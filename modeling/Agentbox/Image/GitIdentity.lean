import Mathlib.Tactic

/-! # The Git identity of the runtime home

`materialize_git_identity_config` of `lib/runtime-contract.sh`, which every start of a container runs
on the persisted home volume. A config file is the list of its settings, as `git config --list` has
them.

* `materialize_eq`: the two files after one start.
* `IsMaterialized`: the two files after several starts, step by step through `IsMaterialized.step`. -/

namespace Agentbox.Image.GitIdentity

structure Setting where
  key : String
  value : Option String
  deriving DecidableEq

/-- The config files of the volume, by their paths. -/
abbrev Files := String → Option (List Setting)

/-- The settings of a file, none where there is no file. -/
def Files.settings (files : Files) (path : String) : List Setting := (files path).getD []

def Files.put (files : Files) (path : String) (config : Option (List Setting)) : Files :=
  Function.update files path config

/-! ### The commands -/

/-- `git config --file path key value`. -/
def gitConfigSet (files : Files) (path key value : String) : Option Files :=
  let config := files.settings path
  match config.countP (·.key = key) with
  | 0 => some (files.put path (some (config ++ [⟨key, some value⟩])))
  | 1 => some (files.put path
      (some (config.map fun s => if s.key = key then ⟨key, some value⟩ else s)))
  | _ => none

/-- `git config --file path --fixed-value --unset-all key value`, which fails where nothing is
equal. -/
def gitConfigUnsetAll (files : Files) (path key value : String) : Option Files :=
  let config := files.settings path
  if ⟨key, some value⟩ ∈ config then
    some (files.put path (some (config.filter (· ≠ ⟨key, some value⟩))))
  else none

/-- `git config --file path --add key value`. -/
def gitConfigAdd (files : Files) (path key value : String) : Files :=
  files.put path (some (files.settings path ++ [⟨key, some value⟩]))

/-- `mktemp stem.XXXXXX`, with the characters that it puts there. -/
def mktemp (files : Files) (stem suffix : String) : Option (String × Files) :=
  let path := stem ++ "." ++ suffix
  if files path = none then some (path, files.put path (some [])) else none

def mv (files : Files) (source target : String) : Files :=
  (files.put target (files source)).put source none

/-- `rm -f`. -/
def rm (files : Files) (path : String) : Files := files.put path none

/-! ### One start -/

/-- Where the container has its home. -/
structure Home where
  home : String
  xdgConfigHome : Option String

namespace Home

variable (home : Home)

def gitConfigDir : String :=
  (if home.xdgConfigHome.getD "" = "" then home.home ++ "/.config"
    else home.xdgConfigHome.getD "") ++ "/git"

def gitMainConfig : String := home.gitConfigDir ++ "/config"

def gitManagedConfig : String := home.gitConfigDir ++ "/agentbox-identity.config"

/-- The setting that includes the managed config. -/
def managedInclude : Setting := ⟨"include.path", some home.gitManagedConfig⟩

end Home

/-- What differs between starts: the identity that is passed through, and what `mktemp` chooses. -/
structure Start where
  name : Option String
  email : Option String
  suffix : String

namespace Start

variable (start : Start)

def present : Bool := start.name.isSome || start.email.isSome

/-- The identity as settings. -/
def identity : List Setting :=
  (start.name.map fun v => ⟨"user.name", some v⟩).toList ++
    (start.email.map fun v => ⟨"user.email", some v⟩).toList

end Start

/-- `git config` with a variable of the environment, where it is set. -/
def setPresent (files : Files) (path key : String) : Option String → Option Files
  | none => some files
  | some value => gitConfigSet files path key value

def materializeGitIdentityConfig (home : Home) (start : Start) (files : Files) : Option Files :=
  if start.present then do
    let (tmp, files) ← mktemp files home.gitManagedConfig start.suffix
    let files ← setPresent files tmp "user.name" start.name
    let files ← setPresent files tmp "user.email" start.email
    let files := mv files tmp home.gitManagedConfig
    let files := (gitConfigUnsetAll files home.gitMainConfig "include.path"
      home.gitManagedConfig).getD files
    some (gitConfigAdd files home.gitMainConfig "include.path" home.gitManagedConfig)
  else some (rm files home.gitManagedConfig)

/-- One start after the other. -/
def materializeAll (home : Home) (starts : List Start) (files : Files) : Option Files :=
  starts.foldlM (fun files start => materializeGitIdentityConfig home start files) files

/-! ### The paths -/

section
variable (home : Home)

theorem main_ne_managed : home.gitMainConfig ≠ home.gitManagedConfig := by
  intro h
  exact absurd ((String.append_right_inj home.gitConfigDir).1 h) (by decide)

theorem tmp_ne_managed (suffix : String) :
    home.gitManagedConfig ++ "." ++ suffix ≠ home.gitManagedConfig := by
  intro h
  have hlen := congrArg String.length h
  simp only [String.length_append] at hlen
  have hdot : ".".length = 1 := rfl
  omega

theorem tmp_ne_main (suffix : String) :
    home.gitManagedConfig ++ "." ++ suffix ≠ home.gitMainConfig := by
  intro h
  rw [Home.gitManagedConfig, Home.gitMainConfig, String.append_assoc, String.append_assoc,
    String.append_right_inj] at h
  have hsecond := congrArg (fun s => s.toList[1]?) h
  simp at hsecond

end

/-! ### The files after a start -/

section
variable {files : Files}

@[simp] theorem settings_put (path : String) (config : Option (List Setting)) :
    (files.put path config).settings path = config.getD [] := by
  simp [Files.settings, Files.put]

theorem settings_put_ne {path other : String} (h : other ≠ path)
    (config : Option (List Setting)) :
    (files.put path config).settings other = files.settings other := by
  simp [Files.settings, Files.put, Function.update_of_ne h]

theorem put_put (path : String) (a b : Option (List Setting)) :
    (files.put path a).put path b = files.put path b := by
  simp [Files.put]

theorem put_comm {path other : String} (h : path ≠ other) (a b : Option (List Setting)) :
    (files.put path a).put other b = (files.put other b).put path a := by
  unfold Files.put
  exact Function.update_comm h _ _ _

theorem setPresent_of_countP {path key : String} (h : (files.settings path).countP (·.key = key) = 0)
    (hfile : files path ≠ none) (value : Option String) :
    setPresent files path key value = some (files.put path
      (some (files.settings path ++ (value.map fun v => ⟨key, some v⟩).toList))) := by
  cases value with
  | none =>
    obtain ⟨config, hconfig⟩ := Option.ne_none_iff_exists'.1 hfile
    have hsame : files.put path (some config) = files := by
      rw [Files.put, ← hconfig, Function.update_eq_self]
    rw [setPresent, Files.settings, hconfig]
    simp [hsame]
  | some value =>
    rw [setPresent, gitConfigSet, h]
    rfl

/-- The temporary file once the identity is in it. -/
theorem set_identity (path : String) (start : Start) :
    (do
      let files ← setPresent (files.put path (some [])) path "user.name" start.name
      setPresent files path "user.email" start.email) =
    some (files.put path (some start.identity)) := by
  have hkey : "user.name" ≠ "user.email" := by decide
  rw [setPresent_of_countP (by simp) (by simp [Files.put]), Option.bind_eq_bind,
    Option.bind_some, setPresent_of_countP, put_put, put_put]
  · simp [Start.identity]
  · cases start.name <;> simp [hkey]
  · simp [Files.put]

/-- Without the settings that are equal to one, and with that one at the end. -/
theorem add_unsetAll (path key value : String) :
    gitConfigAdd ((gitConfigUnsetAll files path key value).getD files) path key value =
      files.put path (some ((files.settings path).filter (· ≠ ⟨key, some value⟩) ++
        [⟨key, some value⟩])) := by
  by_cases h : ⟨key, some value⟩ ∈ files.settings path
  · simp [gitConfigUnsetAll, gitConfigAdd, if_pos h, put_put]
  · have hall : (files.settings path).filter (· ≠ ⟨key, some value⟩) = files.settings path := by
      rw [List.filter_eq_self]
      intro s hs
      refine decide_eq_true fun heq => h ?_
      rwa [← heq]
    simp only [gitConfigUnsetAll, gitConfigAdd, if_neg h, Option.getD_none, hall]

/-- **The two files after a start.** -/
theorem materialize_eq {home : Home} {start : Start} {files' : Files}
    (h : materializeGitIdentityConfig home start files = some files') :
    files' = if start.present then
        (files.put home.gitManagedConfig (some start.identity)).put home.gitMainConfig
          (some ((files.settings home.gitMainConfig).filter (· ≠ home.managedInclude) ++
            [home.managedInclude]))
      else files.put home.gitManagedConfig none := by
  unfold materializeGitIdentityConfig at h
  split_ifs at h ⊢ with hpresent
  · set tmp := home.gitManagedConfig ++ "." ++ start.suffix with htmp
    have hmanaged := tmp_ne_managed home start.suffix
    have hmain := tmp_ne_main home start.suffix
    rw [← htmp] at hmanaged hmain
    unfold mktemp at h
    rw [← htmp] at h
    by_cases hfree : files tmp = none
    · have hset := @set_identity files tmp start
      simp only [Option.bind_eq_bind] at hset
      simp only [if_pos hfree, Option.bind_eq_bind, Option.bind_some] at h
      rw [← Option.bind_assoc, hset, Option.bind_some, add_unsetAll, Option.some.injEq] at h
      have hmv : mv (files.put tmp (some start.identity)) tmp home.gitManagedConfig =
          files.put home.gitManagedConfig (some start.identity) := by
        have hback : files.put tmp none = files := by
          rw [Files.put, ← hfree, Function.update_eq_self]
        have hread : (files.put tmp (some start.identity)) tmp = some start.identity := by
          simp [Files.put]
        rw [mv, hread, put_comm hmanaged, put_put, put_comm hmanaged.symm, hback]
      rw [← h, hmv, settings_put_ne (main_ne_managed home)]
      rfl
    · simp [if_neg hfree] at h
  · exact (Option.some.inj h).symm

end

/-! ### The files after several starts -/

/-- How often the managed config is included. -/
def includeCount (home : Home) (files : Files) : Nat :=
  (files.settings home.gitMainConfig).count home.managedInclude

/-- The settings of the main config but for the managed include. -/
def otherSettings (home : Home) (files : Files) : List Setting :=
  (files.settings home.gitMainConfig).filter (· ≠ home.managedInclude)

/-- What has become of the files that were there before the starts. -/
structure IsMaterialized (home : Home) (starts : List Start) (files files' : Files) : Prop where
  others : otherSettings home files' = otherSettings home files
  count : includeCount home files' =
    if starts.any Start.present then 1 else includeCount home files
  managed : files' home.gitManagedConfig = match starts.getLast? with
    | none => files home.gitManagedConfig
    | some start => if start.present then some start.identity else none
  frame : ∀ path, path ≠ home.gitMainConfig → path ≠ home.gitManagedConfig →
    files' path = files path

theorem IsMaterialized.step {home : Home} {starts : List Start} {start : Start}
    {files mid files' : Files} (hmid : IsMaterialized home starts files mid)
    (h : materializeGitIdentityConfig home start mid = some files') :
    IsMaterialized home (starts ++ [start]) files files' := by
  have hne := main_ne_managed home
  have hfiles := materialize_eq h
  cases hpresent : start.present with
  | true =>
    rw [if_pos hpresent] at hfiles
    have hsettings : files'.settings home.gitMainConfig =
        otherSettings home mid ++ [home.managedInclude] := by
      rw [hfiles, settings_put]
      rfl
    have hfree : (otherSettings home mid).count home.managedInclude = 0 := by
      rw [List.count_eq_zero]
      simp [otherSettings]
    refine ⟨?_, ?_, ?_, ?_⟩
    · have hsame : (otherSettings home mid).filter (· ≠ home.managedInclude) =
          otherSettings home mid := by simp [otherSettings]
      rw [otherSettings, hsettings, List.filter_append, hsame, hmid.others]
      simp
    · rw [includeCount, hsettings, List.count_append, hfree]
      simp [hpresent]
    · rw [hfiles]
      simp [Files.put, Function.update_of_ne hne.symm, hpresent]
    · intro path hmain hmanaged
      rw [hfiles, Files.put, Function.update_of_ne hmain, Files.put, Function.update_of_ne hmanaged]
      exact hmid.frame path hmain hmanaged
  | false =>
    rw [if_neg (by simp [hpresent])] at hfiles
    have hsettings : files'.settings home.gitMainConfig = mid.settings home.gitMainConfig := by
      rw [hfiles, settings_put_ne hne]
    refine ⟨?_, ?_, ?_, ?_⟩
    · rw [← hmid.others, otherSettings, hsettings, otherSettings]
    · rw [includeCount, hsettings]
      simpa [hpresent, includeCount] using hmid.count
    · rw [hfiles]
      simp [Files.put, hpresent]
    · intro path hmain hmanaged
      rw [hfiles, Files.put, Function.update_of_ne hmanaged]
      exact hmid.frame path hmain hmanaged

theorem isMaterialized_all {home : Home} {files : Files} (starts : List Start) :
    ∀ {files' : Files}, materializeAll home starts files = some files' →
      IsMaterialized home starts files files' := by
  induction starts using List.reverseRecOn with
  | nil =>
    intro files' h
    obtain rfl : files = files' := Option.some.inj h
    exact ⟨rfl, rfl, rfl, fun _ _ _ => rfl⟩
  | append_singleton starts start ih =>
    intro files' h
    unfold materializeAll at h ih
    rw [List.foldlM_append] at h
    obtain ⟨mid, hmid, hlast⟩ := Option.bind_eq_some_iff.1 h
    exact (ih hmid).step (by simpa using hlast)

/-- **What starts on one home volume leave in the two files.** The managed include is there once from
the first start with an identity on, and as often as it was until then. -/
theorem identity_materialized (home : Home) (files : Files) (starts : List Start) (last : Start)
    {files' : Files} (h : materializeAll home (starts ++ [last]) files = some files') :
    otherSettings home files' = otherSettings home files ∧
      includeCount home files' =
        (if (starts ++ [last]).any Start.present then 1 else includeCount home files) ∧
      (includeCount home files' ≤ 1 ↔
        includeCount home files ≤ 1 ∨ ∃ start ∈ starts ++ [last], start.present = true) ∧
      files' home.gitManagedConfig = (if last.present then some last.identity else none) ∧
      ∀ path, path ≠ home.gitMainConfig → path ≠ home.gitManagedConfig →
        files' path = files path := by
  have hall := isMaterialized_all _ h
  refine ⟨hall.others, hall.count, ?_, ?_, hall.frame⟩
  · rw [hall.count, ← List.any_eq_true]
    split_ifs with hpresent
    · simp [hpresent]
    · simp [hpresent]
  · rw [hall.managed, List.getLast?_concat]

def demoHome : Home := ⟨"/home/user", none⟩

def demoStarts : List Start := [⟨some "Alice", none, "aaaaaa"⟩, ⟨none, some "b@x", "bbbbbb"⟩]

/-- Another identity in the second start. -/
theorem identity_materialized_demo :
    ∃ files', materializeAll demoHome demoStarts (fun _ => none) = some files' ∧
      includeCount demoHome files' = 1 ∧
      files' demoHome.gitManagedConfig = some [⟨"user.email", some "b@x"⟩] := by
  have hsome : (materializeAll demoHome demoStarts fun _ => none).isSome = true := by
    decide +kernel
  obtain ⟨files', h⟩ := Option.isSome_iff_exists.1 hsome
  obtain ⟨-, hcount, -, hmanaged, -⟩ :=
    identity_materialized demoHome (fun _ => none) [⟨some "Alice", none, "aaaaaa"⟩]
      ⟨none, some "b@x", "bbbbbb"⟩ h
  exact ⟨files', h, hcount, hmanaged⟩

/-- The managed config included twice, in whatever way it came there. -/
def twiceIncluded : Files := fun path =>
  if path = demoHome.gitMainConfig then some [demoHome.managedInclude, demoHome.managedInclude]
  else none

theorem twiceIncluded_stays :
    ∃ files', materializeAll demoHome [⟨none, none, "aaaaaa"⟩] twiceIncluded = some files' ∧
      ¬ includeCount demoHome files' ≤ 1 :=
  ⟨_, rfl, by decide +kernel⟩

end Agentbox.Image.GitIdentity
