import Mathlib.Tactic
import Agentbox.Lib.SeparatedList

/-! # The environment of the runtime profile

`resolve_runtime_paths` and `activate_profile_env` of `lib/runtime-contract.sh`, which the entrypoint
runs and every login shell runs again. The values of variables are lists of characters.

* `afterDefault_eq`: the list once the default profile is in it.
* `isActivated_activateList`: what holds of a list once both profiles are in it.
* `activateList_activateList`: a list that both profiles are in stays as it is. -/

namespace Agentbox.Image.ProfileEnv

open Agentbox.Lib.SeparatedList

/-- The variables that the two functions read and set. -/
structure RuntimeEnv where
  home : Option (List Char)
  xdgCacheHome : Option (List Char)
  xdgStateHome : Option (List Char)
  nixProfilePath : Option (List Char)
  nixProfiles : Option (List Char)
  xdgDataDirs : Option (List Char)
  path : Option (List Char)
  deriving DecidableEq

def isNewline (c : Char) : Bool := c == '\n'

/-- `$(…)`. -/
def commandSubstitution (output : List Char) : List Char := trimEnd isNewline output

/-- `${v:-default}`. -/
def orDefault (v : Option (List Char)) (default : List Char) : List Char :=
  if v.getD [] = [] then default else v.getD []

def resolveRuntimePaths (env : RuntimeEnv) : RuntimeEnv :=
  let runtimeHome := orDefault env.home "/home/user".toList
  let xdgStateHome := orDefault env.xdgStateHome (runtimeHome ++ "/.local/state".toList)
  { env with
    home := some runtimeHome
    xdgCacheHome := some (orDefault env.xdgCacheHome (runtimeHome ++ "/.cache".toList))
    xdgStateHome := some xdgStateHome
    nixProfilePath := some (xdgStateHome ++ "/nix/profile".toList) }

/-- `_colon_list_contains` and `_space_list_contains`, up to the separator. -/
def listContains (sep : Char) (list entry : List Char) : Bool := decide (Occurs sep entry list)

/-- `_prepend_colon_list_entry` and `_prepend_space_list_entry`, up to the separator. -/
def prependListEntry (sep : Char) (list entry : List Char) : List Char :=
  if listContains sep list entry then list ++ ['\n']
  else if list = [] then entry ++ ['\n']
  else entry ++ sep :: (list ++ ['\n'])

def prependColonListEntry : List Char → List Char → List Char := prependListEntry ':'

def prependSpaceListEntry : List Char → List Char → List Char := prependListEntry ' '

def defaultProfilePath : List Char := "/nix/var/nix/profiles/default".toList

def activateProfileEnv (env : RuntimeEnv) : RuntimeEnv :=
  let profileLink := env.nixProfilePath.getD []
  let nixProfiles := commandSubstitution
    (prependSpaceListEntry (env.nixProfiles.getD []) defaultProfilePath)
  let nixProfiles := commandSubstitution (prependSpaceListEntry nixProfiles profileLink)
  let xdgDataDirs := orDefault env.xdgDataDirs "/usr/local/share:/usr/share".toList
  let xdgDataDirs := commandSubstitution
    (prependColonListEntry xdgDataDirs (defaultProfilePath ++ "/share".toList))
  let xdgDataDirs := commandSubstitution
    (prependColonListEntry xdgDataDirs (profileLink ++ "/share".toList))
  let path := commandSubstitution
    (prependColonListEntry (env.path.getD []) (defaultProfilePath ++ "/bin".toList))
  let path := commandSubstitution (prependColonListEntry path (profileLink ++ "/bin".toList))
  { env with
    nixProfiles := some nixProfiles
    xdgDataDirs := some xdgDataDirs
    path := some path }

/-- `profile.d/agentbox-runtime.sh`. -/
def loginShell (env : RuntimeEnv) : RuntimeEnv := activateProfileEnv (resolveRuntimePaths env)

/-! ### One entry -/

/-- The list with the entry in it, less the newlines at its end. -/
def withEntry (sep : Char) (list entry : List Char) : List Char :=
  commandSubstitution (prependListEntry sep list entry)

/-- An entry that is one field of one line. -/
structure PlainEntry (sep : Char) (d : List Char) : Prop where
  sep_not_newline : isNewline sep = false
  sep_not_mem : sep ∉ d
  ne_nil : d ≠ []
  one_line : ∀ c ∈ d, isNewline c = false

section
variable {sep : Char}

theorem withEntry_of_occurs {list entry : List Char} (h : Occurs sep entry list) :
    withEntry sep list entry = trimEnd isNewline list := by
  have hnewline : isNewline '\n' = true := rfl
  rw [withEntry, prependListEntry, if_pos (by simpa [listContains] using h), commandSubstitution,
    trimEnd_concat hnewline]

theorem withEntry_nil {entry : List Char} (h : ¬ Occurs sep entry []) :
    withEntry sep [] entry = trimEnd isNewline entry := by
  have hnewline : isNewline '\n' = true := rfl
  rw [withEntry, prependListEntry, if_neg (by simpa [listContains] using h), if_pos rfl,
    commandSubstitution, trimEnd_concat hnewline]

theorem withEntry_of_not_occurs {list entry : List Char} (hsep : isNewline sep = false) (h : ¬ Occurs sep entry list)
    (hne : list ≠ []) :
    withEntry sep list entry = entry ++ sep :: trimEnd isNewline list := by
  have hnewline : isNewline '\n' = true := rfl
  rw [withEntry, prependListEntry, if_neg (by simpa [listContains] using h), if_neg hne,
    commandSubstitution, trimEnd_append_cons hsep, trimEnd_concat hnewline]

theorem trimEnd_withEntry {list entry : List Char} (hsep : isNewline sep = false) (hne : list ≠ []) :
    trimEnd isNewline (withEntry sep list entry) = withEntry sep list entry := by
  by_cases h : Occurs sep entry list
  · rw [withEntry_of_occurs h, trimEnd_trimEnd]
  · rw [withEntry_of_not_occurs hsep h hne, trimEnd_append_cons hsep, trimEnd_trimEnd]

/-! ### Both entries -/

/-- What becomes of a list. -/
def activateList (sep : Char) (d p list : List Char) : List Char :=
  withEntry sep (withEntry sep list d) p

variable {d : List Char} (hd : PlainEntry sep d)
include hd

theorem not_occurs_nil : ¬ Occurs sep d [] := by
  rw [occurs_iff_mem hd.sep_not_mem, fields_nil, List.mem_singleton]
  exact hd.ne_nil

/-- The list once the default profile is in it. -/
theorem afterDefault_eq (v : List Char) : withEntry sep v d =
    if Occurs sep d v then trimEnd isNewline v
    else if v = [] then d else d ++ sep :: trimEnd isNewline v := by
  split_ifs with h hv
  · exact withEntry_of_occurs h
  · rw [hv, withEntry_nil (not_occurs_nil hd), trimEnd_of_forall hd.one_line]
  · exact withEntry_of_not_occurs hd.sep_not_newline h hv

theorem occurs_afterDefault (v : List Char) : Occurs sep d (withEntry sep v d) := by
  rw [afterDefault_eq hd]
  split_ifs with h hv
  · exact h.trimEnd hd.sep_not_newline hd.ne_nil hd.one_line
  · exact occurs_refl d
  · exact occurs_append_cons_self d _

theorem afterDefault_ne_nil (v : List Char) : withEntry sep v d ≠ [] := by
  intro h
  have hoccurs := occurs_afterDefault hd v
  rw [h] at hoccurs
  exact not_occurs_nil hd hoccurs

theorem trimEnd_afterDefault (v : List Char) :
    trimEnd isNewline (withEntry sep v d) = withEntry sep v d := by
  rw [afterDefault_eq hd]
  split_ifs with h hv
  · exact trimEnd_trimEnd _ v
  · exact trimEnd_of_forall hd.one_line
  · rw [trimEnd_append_cons hd.sep_not_newline, trimEnd_trimEnd]

theorem activateList_eq (p v : List Char) : activateList sep d p v =
    if Occurs sep p (withEntry sep v d) then withEntry sep v d
    else p ++ sep :: withEntry sep v d := by
  rw [activateList]
  split_ifs with h
  · rw [withEntry_of_occurs h, trimEnd_afterDefault hd]
  · rw [withEntry_of_not_occurs hd.sep_not_newline h (afterDefault_ne_nil hd v),
      trimEnd_afterDefault hd]

theorem occurs_activateList (p v : List Char) :
    Occurs sep p (activateList sep d p v) ∧ Occurs sep d (activateList sep d p v) := by
  have hdefault := occurs_afterDefault hd v
  rw [activateList_eq hd]
  split_ifs with h
  · exact ⟨h, hdefault⟩
  · exact ⟨occurs_append_cons_self p _, hdefault.append_cons p⟩

theorem trimEnd_activateList (p v : List Char) :
    trimEnd isNewline (activateList sep d p v) = activateList sep d p v :=
  trimEnd_withEntry hd.sep_not_newline (afterDefault_ne_nil hd v)

theorem activateList_activateList (p v : List Char) :
    activateList sep d p (activateList sep d p v) = activateList sep d p v := by
  obtain ⟨hp, hdefault⟩ := occurs_activateList hd p v
  have htrim := trimEnd_activateList hd p v
  have hstep : withEntry sep (activateList sep d p v) d = activateList sep d p v := by
    rw [withEntry_of_occurs hdefault, htrim]
  show withEntry sep (withEntry sep (activateList sep d p v) d) p = _
  rw [hstep, withEntry_of_occurs hp, htrim]

theorem trimEnd_suffix (p v : List Char) :
    trimEnd isNewline v <:+ activateList sep d p v := by
  have hdefault : trimEnd isNewline v <:+ withEntry sep v d := by
    rw [afterDefault_eq hd]
    split_ifs with h hv
    · exact List.suffix_refl _
    · rw [hv]
      exact List.nil_suffix
    · exact (List.suffix_cons sep _).trans (List.suffix_append d _)
  rw [activateList_eq hd]
  split_ifs with h
  · exact hdefault
  · exact hdefault.trans ((List.suffix_cons sep _).trans (List.suffix_append p _))

theorem fields_suffix (p : List Char) {v : List Char} (hv : v ≠ []) :
    fields sep (trimEnd isNewline v) <:+ fields sep (activateList sep d p v) := by
  have hdefault : fields sep (trimEnd isNewline v) <:+ fields sep (withEntry sep v d) := by
    rw [afterDefault_eq hd, if_neg hv]
    split_ifs with h
    · exact List.suffix_refl _
    · rw [fields_append_cons]
      exact List.suffix_append _ _
  rw [activateList_eq hd]
  split_ifs with h
  · exact hdefault
  · rw [fields_append_cons]
    exact hdefault.trans (List.suffix_append _ _)

/-- A profile that is only found together with the default entry in front of a list. -/
theorem mem_fields_of_occurs {p l : List Char} (h : Occurs sep p (d ++ sep :: l))
    (hl : ¬ Occurs sep p l) : d ∈ fields sep p := by
  rw [occurs_iff, fields_append_cons, fields_of_not_mem hd.sep_not_mem, List.singleton_append,
    List.infix_cons_iff] at h
  rcases h with hpre | hin
  · obtain ⟨f, fs, hf⟩ := List.exists_cons_of_ne_nil (show fields sep p ≠ [] from fields_ne_nil p)
    rw [hf, List.cons_prefix_cons] at hpre
    rw [hf, hpre.1]
    exact List.mem_cons_self
  · exact absurd (occurs_iff.2 hin) hl

/-- **Which of the two profiles comes first.** -/
theorem before_activateList (p v : List Char) : Before sep p d (activateList sep d p v) ↔
    d ∉ fields sep p ∧ (v = [] ∨ ¬ Occurs sep p (trimEnd isNewline v) ∨
      (Occurs sep d v ∧ Before sep p d (trimEnd isNewline v))) := by
  by_cases hp : d ∈ fields sep p
  · refine iff_of_false ?_ fun h => h.1 hp
    rintro ⟨-, -, -, -, h⟩
    exact h hp
  rw [activateList_eq hd, afterDefault_eq hd]
  by_cases hdv : Occurs sep d v
  · have hv : v ≠ [] := fun h => not_occurs_nil hd (h ▸ hdv)
    rw [if_pos hdv]
    by_cases hpv : Occurs sep p (trimEnd isNewline v)
    · rw [if_pos hpv]
      simp [hp, hv, hpv, hdv]
    · rw [if_neg hpv]
      exact iff_of_true (before_append_cons_self hp _) ⟨hp, .inr (.inl hpv)⟩
  · rw [if_neg hdv]
    by_cases hv : v = []
    · have hpd : ¬ Occurs sep p d := by
        rw [occurs_iff, fields_of_not_mem hd.sep_not_mem]
        intro h
        obtain ⟨f, fs, hf⟩ := List.exists_cons_of_ne_nil (show fields sep p ≠ [] from fields_ne_nil p)
        have hmem : f ∈ [d] := h.subset (hf ▸ List.mem_cons_self)
        rw [List.mem_singleton] at hmem
        exact hp (hf ▸ hmem ▸ List.mem_cons_self)
      rw [if_pos hv, if_neg hpd]
      exact iff_of_true (before_append_cons_self hp _) ⟨hp, .inl hv⟩
    · rw [if_neg hv]
      by_cases hpv : Occurs sep p (trimEnd isNewline v)
      · rw [if_pos (hpv.append_cons d)]
        refine iff_of_false (not_before_cons hd.sep_not_mem _) ?_
        simp [hv, hpv, hdv]
      · have hout : ¬ Occurs sep p (d ++ sep :: trimEnd isNewline v) := fun h =>
          hp (mem_fields_of_occurs hd h hpv)
        rw [if_neg hout]
        exact iff_of_true (before_append_cons_self hp _) ⟨hp, .inr (.inl hpv)⟩

end

/-! ### The environment -/

/-- `r` is what the list `v` becomes with the profile entry `p` and the default entry `d`. -/
structure IsActivated (sep : Char) (d p v r : List Char) : Prop where
  profile_mem : fields sep p <:+: fields sep r
  default_mem : d ∈ fields sep r
  suffix : trimEnd isNewline v <:+ r
  entries : v ≠ [] → fields sep (trimEnd isNewline v) <:+ fields sep r
  before : Before sep p d r ↔ d ∉ fields sep p ∧ (v = [] ∨
    ¬ fields sep p <:+: fields sep (trimEnd isNewline v) ∨
      (d ∈ fields sep v ∧ Before sep p d (trimEnd isNewline v)))

theorem isActivated_activateList {sep : Char} {d : List Char} (hd : PlainEntry sep d)
    (p v : List Char) : IsActivated sep d p v (activateList sep d p v) := by
  obtain ⟨hprofile, hdefault⟩ := occurs_activateList hd p v
  have hbefore := before_activateList hd p v
  rw [occurs_iff, occurs_iff_mem hd.sep_not_mem] at hbefore
  exact ⟨occurs_iff.1 hprofile, (occurs_iff_mem hd.sep_not_mem).1 hdefault,
    trimEnd_suffix hd p v, fun hv => fields_suffix hd p hv, hbefore⟩

theorem orDefault_some {v : List Char} (hv : v ≠ []) (default : List Char) :
    orDefault (some v) default = v := if_neg hv

theorem one_line_of_all {d : List Char} (h : (d.all fun c => !isNewline c) = true) :
    ∀ c ∈ d, isNewline c = false := by
  intro c hc
  simpa using List.all_eq_true.1 h c hc

theorem plainEntry_profile : PlainEntry ' ' defaultProfilePath :=
  ⟨by decide, by decide, by decide, one_line_of_all (by decide)⟩

theorem plainEntry_share : PlainEntry ':' (defaultProfilePath ++ "/share".toList) :=
  ⟨by decide, by decide, by decide, one_line_of_all (by decide)⟩

theorem plainEntry_bin : PlainEntry ':' (defaultProfilePath ++ "/bin".toList) :=
  ⟨by decide, by decide, by decide, one_line_of_all (by decide)⟩

theorem orDefault_ne_nil (v : Option (List Char)) {l : List Char} (hl : l ≠ []) :
    orDefault v l ≠ [] := by
  unfold orDefault
  split_ifs with h
  · exact hl
  · exact h

section
variable (env : RuntimeEnv)

/-- What `activate_profile_env` sets, one list at a time. -/
theorem activateProfileEnv_eq : activateProfileEnv env =
    { env with
      nixProfiles := some (activateList ' ' defaultProfilePath (env.nixProfilePath.getD [])
        (env.nixProfiles.getD []))
      xdgDataDirs := some (activateList ':' (defaultProfilePath ++ "/share".toList)
        (env.nixProfilePath.getD [] ++ "/share".toList)
        (orDefault env.xdgDataDirs "/usr/local/share:/usr/share".toList))
      path := some (activateList ':' (defaultProfilePath ++ "/bin".toList)
        (env.nixProfilePath.getD [] ++ "/bin".toList) (env.path.getD [])) } := rfl

theorem activateProfileEnv_activateProfileEnv :
    activateProfileEnv (activateProfileEnv env) = activateProfileEnv env := by
  have hdirs : ∀ p v, activateList ':' (defaultProfilePath ++ "/share".toList) p v ≠ [] := by
    intro p v h
    have hdefault := (occurs_activateList plainEntry_share p v).2
    rw [h] at hdefault
    exact not_occurs_nil plainEntry_share hdefault
  rw [activateProfileEnv_eq, activateProfileEnv_eq]
  simp only [Option.getD_some, orDefault_some (hdirs _ _)]
  rw [activateList_activateList plainEntry_profile, activateList_activateList plainEntry_share,
    activateList_activateList plainEntry_bin]

/-- A login shell finds the variables of the paths as it left them. -/
theorem resolveRuntimePaths_loginShell : resolveRuntimePaths (loginShell env) = loginShell env := by
  have hhome := orDefault_ne_nil env.home (l := "/home/user".toList) (by decide)
  simp only [loginShell, resolveRuntimePaths, activateProfileEnv_eq, orDefault_some hhome]
  rw [orDefault_some (orDefault_ne_nil env.xdgCacheHome (by simp)),
    orDefault_some (orDefault_ne_nil env.xdgStateHome (by simp))]

theorem loginShell_loginShell : loginShell (loginShell env) = loginShell env := by
  show activateProfileEnv (resolveRuntimePaths (loginShell env)) = loginShell env
  rw [resolveRuntimePaths_loginShell]
  exact activateProfileEnv_activateProfileEnv (resolveRuntimePaths env)

/-- **Activation puts both profiles into every list, keeps what was in it, and is idempotent.** -/
theorem activate_profile_env_activates :
    ∃ nixProfiles xdgDataDirs path,
      activateProfileEnv env =
        { env with
          nixProfiles := some nixProfiles
          xdgDataDirs := some xdgDataDirs
          path := some path } ∧
      IsActivated ' ' defaultProfilePath (env.nixProfilePath.getD []) (env.nixProfiles.getD [])
        nixProfiles ∧
      IsActivated ':' (defaultProfilePath ++ "/share".toList)
        (env.nixProfilePath.getD [] ++ "/share".toList)
        (orDefault env.xdgDataDirs "/usr/local/share:/usr/share".toList) xdgDataDirs ∧
      IsActivated ':' (defaultProfilePath ++ "/bin".toList)
        (env.nixProfilePath.getD [] ++ "/bin".toList) (env.path.getD []) path ∧
      activateProfileEnv (activateProfileEnv env) = activateProfileEnv env ∧
      loginShell (loginShell env) = loginShell env :=
  ⟨_, _, _, activateProfileEnv_eq env,
    isActivated_activateList plainEntry_profile _ _,
    isActivated_activateList plainEntry_share _ _, isActivated_activateList plainEntry_bin _ _,
    activateProfileEnv_activateProfileEnv env, loginShell_loginShell env⟩

end

def enteredProfile : List Char := "/home/user/.local/state/nix/profile".toList

def enteredPath : List Char := enteredProfile ++ "/bin:/usr/bin".toList

/-- The profile is in `PATH` and the default profile is not, and the last directory ends with a
newline. -/
def enteredEnv : RuntimeEnv where
  home := some "/home/user".toList
  xdgCacheHome := none
  xdgStateHome := none
  nixProfilePath := some enteredProfile
  nixProfiles := none
  xdgDataDirs := none
  path := some (enteredPath ++ ['\n'])

theorem activate_enteredEnv : (activateProfileEnv enteredEnv).path =
    some ((defaultProfilePath ++ "/bin".toList) ++ ':' :: enteredPath) := by decide +kernel

theorem enteredEnv_reordered :
    ¬ Before ':' (enteredProfile ++ "/bin".toList) (defaultProfilePath ++ "/bin".toList)
      ((activateProfileEnv enteredEnv).path.getD []) ∧
    ¬ enteredEnv.path.getD [] <:+ (activateProfileEnv enteredEnv).path.getD [] := by
  rw [activate_enteredEnv]
  exact ⟨not_before_cons plainEntry_bin.sep_not_mem _, by decide +kernel⟩

end Agentbox.Image.ProfileEnv
