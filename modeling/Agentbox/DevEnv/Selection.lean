import Mathlib.Data.List.Destutter
import Agentbox.DevEnv.Discovery

/-! # Which development environment is selected

The selection as the rules of priority and closeness state it, over the directories from the target
to the git root, and the discovery as an implementation of these rules.

* `nearestFile_eq_some_iff`: the lookup finds the closest directory that has the file.
* `resolve_of_selects` and `exists_selects`: the discovery does what the rules say, and they say
  something in every case.
* `selects_iff`: both together, and that nothing above the git root is looked at. -/

namespace Agentbox.DevEnv.Selection

open Agentbox.Base.Path Agentbox.Base.Errors Agentbox.DevEnv.Environment Agentbox.DevEnv.Discovery

/-! ### The closest directory -/

theorem find?_eq_some_iff_of_pairwise {α : Type} {f : α → Nat} {p : α → Bool} : ∀ {l : List α} {a : α},
    l.Pairwise (fun x y => f y < f x) →
    (l.find? p = some a ↔ a ∈ l ∧ p a = true ∧ ∀ b ∈ l, p b = true → f b ≤ f a)
  | [], a, _ => by simp
  | x :: l, a, h => by
    obtain ⟨hx, hl⟩ := List.pairwise_cons.1 h
    cases hp : p x with
    | true =>
      rw [List.find?_cons_of_pos hp, Option.some.injEq]
      constructor
      · rintro rfl
        refine ⟨List.mem_cons_self, hp, fun b hb _ => ?_⟩
        rcases List.mem_cons.1 hb with rfl | hb
        · exact le_rfl
        · exact (hx b hb).le
      · rintro ⟨ha, -, hmax⟩
        rcases List.mem_cons.1 ha with rfl | ha
        · rfl
        · have hlt := hx a ha
          have hle := hmax x List.mem_cons_self hp
          omega
    | false =>
      have ih := find?_eq_some_iff_of_pairwise (p := p) (a := a) hl
      rw [List.find?_cons_of_neg (by simp [hp]), ih]
      constructor
      · rintro ⟨ha, hpa, hmax⟩
        refine ⟨List.mem_cons_of_mem x ha, hpa, fun b hb hpb => ?_⟩
        rcases List.mem_cons.1 hb with rfl | hb
        · rw [hp] at hpb
          cases hpb
        · exact hmax b hb hpb
      · rintro ⟨ha, hpa, hmax⟩
        refine ⟨(List.mem_cons.1 ha).resolve_left ?_, hpa, fun b hb hpb =>
          hmax b (List.mem_cons_of_mem x hb) hpb⟩
        rintro rfl
        rw [hp] at hpa
        cases hpa

section
variable (isFile : Utf8Path → Bool) (target gitRoot : CanonicalPath)

def HasFile (d : CanonicalPath) (filename : String) : Prop :=
  isFile (d.path.join ⟨filename⟩) = true

/-- Some directory from the target to the git root has the file. -/
def Has (filename : String) : Prop := ∃ d, Within target gitRoot d ∧ HasFile isFile d filename

/-- The closest directory to the target that has the file. -/
structure Closest (filename : String) (d : CanonicalPath) : Prop where
  within : Within target gitRoot d
  hasFile : HasFile isFile d filename
  closest : ∀ d', Within target gitRoot d' → HasFile isFile d' filename → d'.names <+: d.names

variable {isFile target gitRoot}

theorem pairwise_walk (r : Nat) : ∀ k, r + k ≤ target.names.length →
    (walk target r k).Pairwise fun x y => y.names.length < x.names.length
  | 0, _ => by simp [walk]
  | k + 1, h => by
    rw [walk, List.pairwise_cons]
    refine ⟨fun d hd => ?_, pairwise_walk r k (by omega)⟩
    obtain ⟨j, hj, rfl⟩ := (mem_walk target).1 hd
    rw [length_take target (by omega), length_take target (by omega)]
    omega

variable (hroot : gitRoot.names <+: target.names)
include hroot

theorem find?_between {filename : String} {d : CanonicalPath} :
    (between target gitRoot).find? (fun d => isFile (d.path.join ⟨filename⟩)) = some d ↔
      Closest isFile target gitRoot filename d := by
  have hlen := hroot.length_le
  have hpairs : (walk target gitRoot.names.length (target.names.length - gitRoot.names.length)).Pairwise
      fun x y => y.names.length < x.names.length := pairwise_walk _ _ (by omega)
  rw [between, find?_eq_some_iff_of_pairwise hpairs]
  have hmem : ∀ d', d' ∈ walk target gitRoot.names.length
      (target.names.length - gitRoot.names.length) ↔ Within target gitRoot d' :=
    fun d' => mem_between hroot
  constructor
  · rintro ⟨hd, hfile, hmax⟩
    have hwithin := (hmem d).1 hd
    refine ⟨hwithin, hfile, fun d' hd' hfile' => ?_⟩
    exact List.prefix_of_prefix_length_le hd'.2 hwithin.2 (hmax d' ((hmem d').2 hd') hfile')
  · rintro ⟨hwithin, hfile, hclosest⟩
    refine ⟨(hmem d).2 hwithin, hfile, fun d' hd' hfile' => ?_⟩
    exact (hclosest d' ((hmem d').1 hd') hfile').length_le

theorem nearestFile_eq (filename : String) :
    nearestFile isFile target.path gitRoot.path filename =
      ((between target gitRoot).find? fun d => isFile (d.path.join ⟨filename⟩)).map
        fun d => d.path.join ⟨filename⟩ := by
  rw [nearestFile, ancestorDirectories_eq hroot, List.map_map, List.find?_map]
  rfl

theorem nearestFile_eq_some_iff {filename : String} {path : Utf8Path} :
    nearestFile isFile target.path gitRoot.path filename = some path ↔
      ∃ d, Closest isFile target gitRoot filename d ∧ d.path.join ⟨filename⟩ = path := by
  rw [nearestFile_eq hroot, Option.map_eq_some_iff]
  simp only [find?_between hroot]

theorem nearestFile_eq_none_iff {filename : String} :
    nearestFile isFile target.path gitRoot.path filename = none ↔
      ¬ Has isFile target gitRoot filename := by
  rw [nearestFile_eq hroot, Option.map_eq_none_iff, List.find?_eq_none]
  simp only [Has, HasFile, not_exists, not_and, mem_between hroot]

/-- A closest directory, where there is any. -/
theorem exists_closest {filename : String} (h : Has isFile target gitRoot filename) :
    ∃ d, Closest isFile target gitRoot filename d := by
  rcases hfile : nearestFile isFile target.path gitRoot.path filename with _ | path
  · exact absurd h ((nearestFile_eq_none_iff hroot).1 hfile)
  · obtain ⟨d, hd, -⟩ := (nearestFile_eq_some_iff hroot).1 hfile
    exact ⟨d, hd⟩

/-- Files elsewhere make no difference. -/
theorem nearestFile_congr {isFile' : Utf8Path → Bool} {filename : String}
    (h : ∀ d, Within target gitRoot d →
      isFile' (d.path.join ⟨filename⟩) = isFile (d.path.join ⟨filename⟩)) :
    nearestFile isFile' target.path gitRoot.path filename =
      nearestFile isFile target.path gitRoot.path filename := by
  rw [nearestFile_eq hroot, nearestFile_eq hroot]
  congr 1
  refine List.find?_congr fun d hd => ?_
  exact h d ((mem_between hroot).1 hd)

end

/-! ### Dev shells -/

def basename (p : CanonicalPath) : String := p.names.getLastD ""

/-- The attributes in the order in which a dev shell is looked for. -/
def candidates (target flakeRoot : CanonicalPath) : List String :=
  if target.names = flakeRoot.names then ["default"] else [basename target, "default"]

theorem candidateAttrs_eq {target flakeRoot : CanonicalPath}
    (h : flakeRoot.names <+: target.names) :
    nixDevelopCandidateAttrs target.path flakeRoot.path = (candidates target flakeRoot).dedup := by
  unfold nixDevelopCandidateAttrs candidates
  simp only [CanonicalPath.path_beq_iff]
  split_ifs with hsame
  · rfl
  · rcases List.eq_nil_or_concat target.names with hnil | ⟨above, name, hnames⟩
    · rw [hnil, List.prefix_nil] at h
      exact absurd (hnil.trans h.symm) hsame
    · rw [List.concat_eq_append] at hnames
      have hlast : target.path.components.getLast? = some (.normal name) := by
        rw [CanonicalPath.components_path, CanonicalPath.comps, hnames, List.map_append,
          ← List.cons_append]
        exact List.getLast?_concat
      have hbase : basename target = name := by simp [basename, hnames]
      rw [Utf8Path.fileName, hlast, hbase]
      by_cases hdefault : name = "default"
      · rw [hdefault]
        decide
      · simp [hdefault, List.destutter_pair]

section
variable {probe : NixDevShellProbe} {flakeRoot : Utf8Path}

theorem probeAttrs_append {before : List String} (h : ∀ b ∈ before, probe flakeRoot b = .ok false)
    (attrs : List String) : probeAttrs probe flakeRoot (before ++ attrs) =
      ((probeAttrs probe flakeRoot attrs).1,
        before.map (flakeRoot, ·) ++ (probeAttrs probe flakeRoot attrs).2) := by
  induction before with
  | nil => rfl
  | cons b before ih =>
    have ih := ih fun c hc => h c (List.mem_cons_of_mem b hc)
    rw [List.cons_append, probeAttrs, h b List.mem_cons_self]
    simp only [ih, List.map_cons, List.cons_append]

/-- The first attribute that is not answered with `false`. -/
theorem exists_first (attrs : List String) :
    (∀ b ∈ attrs, probe flakeRoot b = .ok false) ∨
      ∃ before a after, attrs = before ++ a :: after ∧
        (∀ b ∈ before, probe flakeRoot b = .ok false) ∧ probe flakeRoot a ≠ .ok false := by
  induction attrs with
  | nil => exact .inl (by simp)
  | cons x attrs ih =>
    by_cases hx : probe flakeRoot x = .ok false
    · rcases ih with hall | ⟨before, a, after, rfl, hbefore, ha⟩
      · exact .inl fun b hb => (List.mem_cons.1 hb).elim (fun h => h ▸ hx) (hall b)
      · refine .inr ⟨x :: before, a, after, rfl, fun b hb => ?_, ha⟩
        exact (List.mem_cons.1 hb).elim (fun h => h ▸ hx) (hbefore b)
    · exact .inr ⟨[], x, attrs, rfl, by simp, hx⟩

/-- Where `default` is a candidate twice, it is only asked for once. -/
theorem dedup_split {target flake : CanonicalPath} {before after : List String} {a : String}
    (hsplit : candidates target flake = before ++ a :: after)
    (hbefore : ∀ b ∈ before, probe flakeRoot b = .ok false)
    (ha : probe flakeRoot a ≠ .ok false) :
    ∃ after', (candidates target flake).dedup = before ++ a :: after' := by
  have hne : a ∉ before := fun hmem => ha (hbefore a hmem)
  unfold candidates at hsplit ⊢
  split_ifs at hsplit ⊢ with hsame
  · exact ⟨after, by rw [← hsplit]; rfl⟩
  · by_cases hdefault : basename target = "default"
    · rw [hdefault] at hsplit ⊢
      cases before with
      | nil =>
        rw [List.nil_append, List.cons.injEq] at hsplit
        exact ⟨[], by rw [← hsplit.1]; rfl⟩
      | cons b before =>
        exfalso
        rw [List.cons_append, List.cons.injEq] at hsplit
        cases before with
        | nil =>
          have hsame : "default" = a := by simpa using congrArg List.head? hsplit.2
          exact hne (by rw [← hsame, hsplit.1]; exact List.mem_cons_self)
        | cons c before => simpa using congrArg List.length hsplit.2
    · exact ⟨after, by rw [← hsplit]; simp [hdefault]⟩

end

/-! ### The rules -/

section
variable (isFile : Utf8Path → Bool) (probe : NixDevShellProbe) (target gitRoot : CanonicalPath)

/-- What is selected, and which dev shells are probed for on the way. -/
inductive Selects : Except Error DevEnvironment → Probed → Prop
  | direnv : Has isFile target gitRoot ".envrc" → Selects (.ok .direnv) []
  | devenv {d : CanonicalPath} : ¬ Has isFile target gitRoot ".envrc" →
    Closest isFile target gitRoot "devenv.nix" d → Selects (.ok (.devenv d.path)) []
  | shell {flake : CanonicalPath} {before after : List String} {attr : String} :
    ¬ Has isFile target gitRoot ".envrc" → ¬ Has isFile target gitRoot "devenv.nix" →
    Closest isFile target gitRoot "flake.nix" flake →
    candidates target flake = before ++ attr :: after →
    (∀ b ∈ before, probe flake.path b = .ok false) → probe flake.path attr = .ok true →
    Selects (.ok (.nixDevelop flake.path attr)) ((before ++ [attr]).map (flake.path, ·))
  | failed {flake : CanonicalPath} {before after : List String} {attr : String} {e : Error} :
    ¬ Has isFile target gitRoot ".envrc" → ¬ Has isFile target gitRoot "devenv.nix" →
    Closest isFile target gitRoot "flake.nix" flake →
    candidates target flake = before ++ attr :: after →
    (∀ b ∈ before, probe flake.path b = .ok false) → probe flake.path attr = .error e →
    Selects (.error e) ((before ++ [attr]).map (flake.path, ·))
  | noShell {flake : CanonicalPath} :
    ¬ Has isFile target gitRoot ".envrc" → ¬ Has isFile target gitRoot "devenv.nix" →
    Closest isFile target gitRoot "flake.nix" flake →
    (∀ b ∈ candidates target flake, probe flake.path b = .ok false) →
    Selects (.ok .none) ((candidates target flake).dedup.map (flake.path, ·))
  | nothing : ¬ Has isFile target gitRoot ".envrc" → ¬ Has isFile target gitRoot "devenv.nix" →
    ¬ Has isFile target gitRoot "flake.nix" → Selects (.ok .none) []

variable {isFile probe target gitRoot}

variable (hroot : gitRoot.names <+: target.names)
include hroot

theorem isSome_nearestFile {filename : String} :
    (nearestFile isFile target.path gitRoot.path filename).isSome = true ↔
      Has isFile target gitRoot filename := by
  rw [← not_iff_not, ← nearestFile_eq_none_iff hroot, Bool.not_eq_true, Option.isSome_eq_false_iff,
    Option.isNone_iff_eq_none]

theorem nearestFile_of_closest {filename : String} {d : CanonicalPath}
    (h : Closest isFile target gitRoot filename d) :
    nearestFile isFile target.path gitRoot.path filename = some (d.path.join ⟨filename⟩) :=
  (nearestFile_eq_some_iff hroot).2 ⟨d, h, rfl⟩

omit hroot in
theorem parentDirectory_join {filename : String} (d : CanonicalPath) (h : IsName filename) :
    parentDirectory (d.path.join ⟨filename⟩) = d.path := by
  rw [parentDirectory, CanonicalPath.join_path d filename h, CanonicalPath.parent_append]
  rfl

theorem resolve_of_flake {flake : CanonicalPath} (henvrc : ¬ Has isFile target gitRoot ".envrc")
    (hdevenv : ¬ Has isFile target gitRoot "devenv.nix")
    (hflake : Closest isFile target gitRoot "flake.nix" flake) :
    resolveDevEnvironment isFile probe .auto target.path gitRoot.path =
      probeAttrs probe flake.path (candidates target flake).dedup := by
  rw [resolveDevEnvironment, DevEnvironmentDiscovery.resolveWithProbe,
    DevEnvironmentDiscovery.detect]
  simp only [if_neg (mt (isSome_nearestFile hroot).1 henvrc),
    (nearestFile_eq_none_iff hroot).2 hdevenv, nearestFile_of_closest hroot hflake]
  rw [resolveNixDevelop, parentDirectory_join flake (by decide),
    candidateAttrs_eq hflake.within.2]

/-- The discovery does what the rules say. -/
theorem resolve_of_selects {result : Except Error DevEnvironment} {probed : Probed}
    (h : Selects isFile probe target gitRoot result probed) :
    resolveDevEnvironment isFile probe .auto target.path gitRoot.path = (result, probed) := by
  cases h with
  | direnv henvrc =>
    rw [resolveDevEnvironment, DevEnvironmentDiscovery.resolveWithProbe,
      DevEnvironmentDiscovery.detect]
    simp only [if_pos ((isSome_nearestFile hroot).2 henvrc)]
  | devenv henvrc hdevenv =>
    rw [resolveDevEnvironment, DevEnvironmentDiscovery.resolveWithProbe,
      DevEnvironmentDiscovery.detect]
    simp only [if_neg (mt (isSome_nearestFile hroot).1 henvrc),
      nearestFile_of_closest hroot hdevenv]
    rw [parentDirectory_join _ (by decide)]
  | shell henvrc hdevenv hflake hsplit hbefore hattr =>
    obtain ⟨after', hdedup⟩ := dedup_split hsplit hbefore (by rw [hattr]; simp)
    rw [resolve_of_flake hroot henvrc hdevenv hflake, hdedup, probeAttrs_append hbefore, probeAttrs,
      hattr]
    simp
  | failed henvrc hdevenv hflake hsplit hbefore hattr =>
    obtain ⟨after', hdedup⟩ := dedup_split hsplit hbefore (by rw [hattr]; simp)
    rw [resolve_of_flake hroot henvrc hdevenv hflake, hdedup, probeAttrs_append hbefore, probeAttrs,
      hattr]
    simp
  | noShell henvrc hdevenv hflake hall =>
    have hnone := probeAttrs_append
      (fun b hb => hall b (List.mem_dedup.1 hb)) []
    rw [List.append_nil] at hnone
    rw [resolve_of_flake hroot henvrc hdevenv hflake, hnone]
    simp [probeAttrs]
  | nothing henvrc hdevenv hflake =>
    rw [resolveDevEnvironment, DevEnvironmentDiscovery.resolveWithProbe,
      DevEnvironmentDiscovery.detect]
    simp only [if_neg (mt (isSome_nearestFile hroot).1 henvrc),
      (nearestFile_eq_none_iff hroot).2 hdevenv, (nearestFile_eq_none_iff hroot).2 hflake]

/-- The rules say something in every case. -/
theorem exists_selects : ∃ result probed, Selects isFile probe target gitRoot result probed := by
  by_cases henvrc : Has isFile target gitRoot ".envrc"
  · exact ⟨_, _, .direnv henvrc⟩
  by_cases hdevenv : Has isFile target gitRoot "devenv.nix"
  · obtain ⟨d, hd⟩ := exists_closest hroot hdevenv
    exact ⟨_, _, .devenv henvrc hd⟩
  by_cases hflake : Has isFile target gitRoot "flake.nix"
  · obtain ⟨flake, hd⟩ := exists_closest hroot hflake
    rcases @exists_first probe flake.path (candidates target flake) with
      hall | ⟨before, a, after, hsplit, hbefore, ha⟩
    · exact ⟨_, _, .noShell henvrc hdevenv hd hall⟩
    · rcases hprobe : probe flake.path a with e | found
      · exact ⟨_, _, .failed henvrc hdevenv hd hsplit hbefore hprobe⟩
      · cases found with
        | true => exact ⟨_, _, .shell henvrc hdevenv hd hsplit hbefore hprobe⟩
        | false => exact absurd hprobe ha
  · exact ⟨_, _, .nothing henvrc hdevenv hflake⟩

end

/-- **Discovery selects what the rules say, and only looks at directories from the target to the git
root.** -/
theorem selects_iff (isFile : Utf8Path → Bool) (probe : NixDevShellProbe)
    (target gitRoot : CanonicalPath) (hroot : gitRoot.names <+: target.names) :
    (∀ result probed, resolveDevEnvironment isFile probe .auto target.path gitRoot.path =
        (result, probed) ↔ Selects isFile probe target gitRoot result probed) ∧
      ∀ isFile' : Utf8Path → Bool,
        (∀ d filename, Within target gitRoot d →
          isFile' (d.path.join ⟨filename⟩) = isFile (d.path.join ⟨filename⟩)) →
        resolveDevEnvironment isFile' probe .auto target.path gitRoot.path =
          resolveDevEnvironment isFile probe .auto target.path gitRoot.path := by
  refine ⟨fun result probed => ⟨fun h => ?_, resolve_of_selects hroot⟩, fun isFile' h => ?_⟩
  · obtain ⟨result', probed', hselects⟩ :=
      @exists_selects isFile probe target gitRoot hroot
    rw [resolve_of_selects hroot hselects, Prod.mk.injEq] at h
    obtain ⟨rfl, rfl⟩ := h
    exact hselects
  · have hfile : ∀ filename, nearestFile isFile' target.path gitRoot.path filename =
        nearestFile isFile target.path gitRoot.path filename :=
      fun filename => nearestFile_congr hroot fun d hd => h d filename hd
    simp only [resolveDevEnvironment, DevEnvironmentDiscovery.detect, hfile]

def repo : CanonicalPath := ⟨["repo"], by decide⟩

def api : CanonicalPath := ⟨["repo", "api"], by decide⟩

/-- A flake with one dev shell, and an `.envrc` above the git root. -/
theorem selects_iff_api :
    Selects (fun p => p.asStr = "/repo/flake.nix" ∨ p.asStr = "/.envrc")
      (fun _ attr => .ok (attr == "default")) api repo (.ok (.nixDevelop repo.path "default"))
      [(repo.path, "api"), (repo.path, "default")] :=
  ((selects_iff (fun p => p.asStr = "/repo/flake.nix" ∨ p.asStr = "/.envrc")
    (fun _ attr => .ok (attr == "default")) api repo (by decide)).1 _ _).1 (by rfl)

end Agentbox.DevEnv.Selection
