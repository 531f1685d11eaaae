import Mathlib.Data.List.Destutter
import Agentbox.Base.Errors
import Agentbox.DevEnv.Discovery
import Agentbox.DevEnv.Environment
import Agentbox.Lib.NixInstallable
import Agentbox.Lib.NixText

/-! # Nix dev shells

`dev_env/nix.rs`: the expression that asks whether a flake has a dev shell, and the choice of the
dev shell that the server command runs in. -/

namespace Agentbox.DevEnv.Nix

open Agentbox.Base.Path Agentbox.Base.Errors Agentbox.Base.Text Agentbox.DevEnv.Environment
  Agentbox.Lib.NixText Agentbox.Lib.NixInstallable

/-! ### The probe -/

/-- `nix_string`, which is `serde_json::to_string`. -/
def nixString (value : String) : String := String.ofList (Lib.Json.encodeString value)

def probeHead : String := "let flake = builtins.getFlake "

def probeMiddle : String :=
  "; system = builtins.currentSystem; devShells = flake.devShells or \x7b\x7d; " ++
  "shells = devShells.$\x7bsystem\x7d or \x7b\x7d; in if builtins.hasAttr "

def probeTail : String := " shells then \"true\" else \"false\""

def nixDevShellProbeExpression (flakeRoot : Utf8Path) (attr : String) : String :=
  probeHead ++ nixString (pathFlakeRef flakeRoot) ++ probeMiddle ++ nixString attr ++ probeTail

/-- `nix_dev_shell_exists`; `nixEval` is the output of `nix eval` for an expression. -/
def nixDevShellExists (nixEval : String → Except Error String) (flakeRoot : Utf8Path)
    (attr : String) : Except Error Bool :=
  match nixEval (nixDevShellProbeExpression flakeRoot attr) with
  | .error error => .error (.msg ("failed to evaluate dev shell `" ++ pathFlakeRef flakeRoot ++
      "`#" ++ attr ++ ": " ++ error.display))
  | .ok stdout =>
    if trim stdout = "true" then .ok true
    else if trim stdout = "false" then .ok false
    else .error (.msg ("`nix eval` returned unexpected dev shell probe result `" ++ trim stdout ++
      "` for `" ++ pathFlakeRef flakeRoot ++ "`#" ++ attr))

/-- The text after a given beginning. -/
def after (beginning : String) (l : List Char) : Option (List Char) :=
  if beginning.toList.isPrefixOf l then some (l.drop beginning.toList.length) else none

/-- The flake reference and the attribute that a probe asks about, as Nix lexes it. -/
def askedAbout (expression : String) : Option (String × String) := do
  let l ← after probeHead expression.toList
  let (flakeRef, l) ← literal l
  let l ← after probeMiddle l
  let (attr, l) ← literal l
  if l = probeTail.toList then some (flakeRef, attr) else none

/-! ### The choice -/

def nixDevelopCandidateAttrs (targetDirectory flakeRoot : Utf8Path) : List String :=
  if targetDirectory == flakeRoot then ["default"]
  else
    match targetDirectory.fileName with
    | some name => [name, "default"].destutter (· ≠ ·)
    | none => ["default"]

/-- The loop of `resolve_nix_develop`. -/
def firstDevShell (probe : Utf8Path → String → Except Error Bool) (flakeRoot : Utf8Path) :
    List String → Except Error DevEnvironment
  | [] => return .none
  | attr :: attrs => do
    if ← probe flakeRoot attr then return .nixDevelop flakeRoot attr
    else firstDevShell probe flakeRoot attrs

def resolveNixDevelop (targetDirectory flakeRoot : Utf8Path)
    (probe : Utf8Path → String → Except Error Bool) : Except Error DevEnvironment :=
  firstDevShell probe flakeRoot (nixDevelopCandidateAttrs targetDirectory flakeRoot)

/-! ### What the probe asks about -/

theorem after_append (beginning : String) (l : List Char) :
    after beginning (beginning.toList ++ l) = some l := by
  simp [after]

theorem literal_nixString_iff (v : String) (r r' : List Char) :
    literal ((nixString v).toList ++ r) = some (v, r') ↔ IsNixText [] v.toList ∧ r = r' := by
  unfold nixString
  rw [String.toList_ofList]
  exact literal_encodeString_iff v r r'

theorem askedAbout_iff (flakeRoot : Utf8Path) (attr : String) :
    askedAbout (nixDevShellProbeExpression flakeRoot attr) = some (pathFlakeRef flakeRoot, attr) ↔
      IsNixText [] (pathFlakeRef flakeRoot).toList ∧ IsNixText [] attr.toList := by
  have hroot := literal_nixString_iff (pathFlakeRef flakeRoot)
    (probeMiddle.toList ++ ((nixString attr).toList ++ probeTail.toList))
  have hattr := literal_nixString_iff attr probeTail.toList
  have htext : (nixDevShellProbeExpression flakeRoot attr).toList =
      probeHead.toList ++ ((nixString (pathFlakeRef flakeRoot)).toList ++
        (probeMiddle.toList ++ ((nixString attr).toList ++ probeTail.toList))) := by
    simp only [nixDevShellProbeExpression, String.toList_append, List.append_assoc]
  unfold askedAbout
  rw [htext, after_append]
  simp only [Option.bind_eq_bind, Option.bind_some]
  constructor
  · intro h
    obtain ⟨⟨f, l⟩, hf, h⟩ := Option.bind_eq_some_iff.1 h
    obtain ⟨l', hl', h⟩ := Option.bind_eq_some_iff.1 h
    obtain ⟨⟨a, l''⟩, ha, h⟩ := Option.bind_eq_some_iff.1 h
    simp only at h hl' ha
    split_ifs at h with htail
    obtain ⟨rfl, rfl⟩ := Prod.mk.inj (Option.some.inj h)
    obtain ⟨hplain, rfl⟩ := (hroot l).1 hf
    rw [after_append] at hl'
    obtain rfl := Option.some.inj hl'
    exact ⟨hplain, ((hattr l'').1 ha).1⟩
  · rintro ⟨hplain, hplain'⟩
    rw [(hroot _).2 ⟨hplain, rfl⟩, Option.bind_some]
    simp only [after_append, Option.bind_some]
    rw [(hattr _).2 ⟨hplain', rfl⟩]
    simp only [Option.bind_some, ↓reduceIte]

/-- A text is a literal of itself, and a probe asks about its flake and its attribute, exactly when
the texts are Nix texts. -/
theorem nixString_faithful_iff (v : String) :
    (∀ r, literal ((nixString v).toList ++ r) = some (v, r) ↔ IsNixText [] v.toList) ∧
    ∀ flakeRoot,
      askedAbout (nixDevShellProbeExpression flakeRoot v) = some (pathFlakeRef flakeRoot, v) ↔
        IsNixText [] (pathFlakeRef flakeRoot).toList ∧ IsNixText [] v.toList := by
  refine ⟨fun r => ?_, fun flakeRoot => askedAbout_iff flakeRoot v⟩
  rw [literal_nixString_iff]
  simp

/-- A directory whose name is an interpolation is not read as its name. -/
theorem not_nixString_faithful :
    ¬ ∀ v : String, Char.ofNat 0 ∉ v.toList →
      ∀ r, literal ((nixString v).toList ++ r) = some (v, r) := by
  intro h
  have htext := ((literal_nixString_iff _ _ _).1 (h "$\x7babort\x7d" (by decide) [])).1
  have heven := htext.1 ['$'] ['a', 'b', 'o', 'r', 't', Char.ofNat 0x7D] (by decide)
  exact absurd heven (by decide)

/-! ### What is launched -/

/-- The command of the environment runs in one attribute of the dev shells of a flake. -/
def Launches (devEnv : DevEnvironment) (flakeRoot : Utf8Path) (attr : String) : Prop :=
  ∀ argv, ∃ text, devEnv.wrapArgv argv =
      ["nix", "develop", "--no-write-lock-file", text, "--command"] ++ argv ∧
    parse text.toList =
      some ⟨utf8 flakeRoot.asStr.toList, none, [utf8 attr.toList], none⟩

theorem launches_nixDevelop_iff (flakeRoot : Utf8Path) {attr : String} (hne : attr ≠ "") :
    Launches (.nixDevelop flakeRoot attr) flakeRoot attr ↔
      IsPlainPath flakeRoot.asStr.toList ∧ IsPlainAttr attr.toList := by
  have hattr : attr.toList ≠ [] := fun h => hne (by
    rw [← String.ofList_toList (s := attr), h])
  have htext : (pathFlakeRef flakeRoot ++ "#" ++ attr).toList =
      "path:".toList ++ (flakeRoot.asStr.toList ++ '#' :: attr.toList) := by
    simp only [pathFlakeRef, String.toList_append, List.append_assoc]
    rfl
  rw [← parse_eq_iff flakeRoot.asStr.toList hattr, ← htext]
  constructor
  · intro h
    obtain ⟨text, hwrap, hparse⟩ := h []
    have heq : pathFlakeRef flakeRoot ++ "#" ++ attr = text := by
      simpa [DevEnvironment.wrapArgv] using hwrap
    rwa [heq]
  · intro h argv
    exact ⟨_, rfl, h⟩

theorem firstDevShell_cons {probe : Utf8Path → String → Except Error Bool} {flakeRoot : Utf8Path}
    {attr : String} {attrs : List String} {devEnv : DevEnvironment}
    (h : firstDevShell probe flakeRoot (attr :: attrs) = .ok devEnv) :
    probe flakeRoot attr = .ok true ∧ devEnv = .nixDevelop flakeRoot attr ∨
      probe flakeRoot attr = .ok false ∧ firstDevShell probe flakeRoot attrs = .ok devEnv := by
  rw [firstDevShell] at h
  rcases hp : probe flakeRoot attr with e | b
  · rw [hp] at h
    cases h
  · rw [hp] at h
    cases b with
    | true => exact .inl ⟨rfl, (Except.ok.inj h).symm⟩
    | false => exact .inr ⟨rfl, h⟩

/-- The dev shell that is selected was found by the probe. -/
theorem firstDevShell_nixDevelop {probe : Utf8Path → String → Except Error Bool}
    {flakeRoot root : Utf8Path} {attr : String} {attrs : List String}
    (h : firstDevShell probe flakeRoot attrs = .ok (.nixDevelop root attr)) :
    root = flakeRoot ∧ probe flakeRoot attr = .ok true := by
  induction attrs with
  | nil => cases h
  | cons a attrs ih =>
    rcases firstDevShell_cons h with ⟨hprobe, heq⟩ | ⟨-, hrest⟩
    · cases heq
      exact ⟨rfl, hprobe⟩
    · exact ih hrest

/-- The attribute is that of the directory where there is one, and else `default`. -/
theorem resolveNixDevelop_nixDevelop {targetDirectory flakeRoot root : Utf8Path} {attr : String}
    {probe : Utf8Path → String → Except Error Bool}
    (h : resolveNixDevelop targetDirectory flakeRoot probe = .ok (.nixDevelop root attr)) :
    root = flakeRoot ∧
      ((targetDirectory == flakeRoot) = false ∧ targetDirectory.fileName = some attr ∧
          probe flakeRoot attr = .ok true ∨
        attr = "default" ∧ ∀ name, (targetDirectory == flakeRoot) = false →
          targetDirectory.fileName = some name → probe flakeRoot name = .ok true →
          name = "default") := by
  have hdefault : ∀ {e : DevEnvironment}, firstDevShell probe flakeRoot ["default"] = .ok e →
      e = .nixDevelop root attr → root = flakeRoot ∧ attr = "default" := by
    intro e he heq
    rcases firstDevShell_cons he with ⟨-, rfl⟩ | ⟨-, hnone⟩
    · cases heq
      exact ⟨rfl, rfl⟩
    · rw [heq] at hnone
      cases hnone
  unfold resolveNixDevelop nixDevelopCandidateAttrs at h
  split_ifs at h with htarget
  · obtain ⟨hroot, hattr⟩ := hdefault h rfl
    refine ⟨hroot, .inr ⟨hattr, fun name hne => ?_⟩⟩
    rw [htarget] at hne
    cases hne
  · have htarget : (targetDirectory == flakeRoot) = false := by simpa using htarget
    split at h
    · next name hname =>
      by_cases hd : name = "default"
      · rw [hd, show ["default", "default"].destutter (· ≠ ·) = ["default"] by decide] at h
        obtain ⟨hroot, hattr⟩ := hdefault h rfl
        refine ⟨hroot, .inr ⟨hattr, fun n _ hn _ => ?_⟩⟩
        rw [hname] at hn
        exact (Option.some.inj hn).symm.trans hd
      · have hcand : [name, "default"].destutter (· ≠ ·) = [name, "default"] := by
          simp [List.destutter_pair, hd]
        rw [hcand] at h
        rcases firstDevShell_cons h with ⟨hp, heq⟩ | ⟨hp, hrest⟩
        · cases heq
          exact ⟨rfl, .inl ⟨htarget, hname, hp⟩⟩
        · obtain ⟨hroot, hattr⟩ := hdefault hrest rfl
          refine ⟨hroot, .inr ⟨hattr, fun n _ hn hp' => ?_⟩⟩
          rw [hname] at hn
          obtain rfl := Option.some.inj hn
          rw [hp] at hp'
          cases hp'
    · next hname =>
      obtain ⟨hroot, hattr⟩ := hdefault h rfl
      refine ⟨hroot, .inr ⟨hattr, fun n _ hn _ => ?_⟩⟩
      rw [hname] at hn
      cases hn

/-- This is the choice of the discovery, which also says what it asked for. -/
theorem fst_resolveNixDevelop (targetDirectory flakeRoot : Utf8Path)
    (probe : Utf8Path → String → Except Error Bool) :
    (Discovery.resolveNixDevelop targetDirectory flakeRoot probe).1 =
      resolveNixDevelop targetDirectory flakeRoot probe := by
  have hloop : ∀ attrs, (Discovery.probeAttrs probe flakeRoot attrs).1 =
      firstDevShell probe flakeRoot attrs := by
    intro attrs
    induction attrs with
    | nil => rfl
    | cons attr attrs ih =>
      rw [Discovery.probeAttrs, firstDevShell]
      rcases probe flakeRoot attr with e | _ | _
      · rfl
      · exact ih
      · rfl
  exact hloop _

/-- What `nix eval` answers to a question about a flake is whether the flake has the dev shell. -/
def AnswersFor (nixEval : String → Except Error String) (devShells : String → String → Bool) :
    Prop :=
  ∀ expression flakeRef attr, askedAbout expression = some (flakeRef, attr) →
    ∃ stdout, nixEval expression = .ok stdout ∧
      trim stdout = if devShells flakeRef attr then "true" else "false"

theorem nixDevShellExists_of_answersFor {nixEval : String → Except Error String}
    {devShells : String → String → Bool} (h : AnswersFor nixEval devShells) {flakeRoot : Utf8Path}
    {attr : String} (hroot : IsNixText [] (pathFlakeRef flakeRoot).toList)
    (hattr : IsNixText [] attr.toList) :
    nixDevShellExists nixEval flakeRoot attr = .ok (devShells (pathFlakeRef flakeRoot) attr) := by
  obtain ⟨stdout, heval, hstdout⟩ := h _ _ _ ((askedAbout_iff flakeRoot attr).2 ⟨hroot, hattr⟩)
  unfold nixDevShellExists
  simp only [heval, hstdout]
  cases devShells (pathFlakeRef flakeRoot) attr <;> rfl

/-- The dev shell that a discovery on the host selects is one of the flake, if the expression asks
about it. -/
theorem devShells_of_selected {nixEval : String → Except Error String}
    {devShells : String → String → Bool} (h : AnswersFor nixEval devShells)
    {targetDirectory flakeRoot root : Utf8Path} {attr : String}
    (hselected : (Discovery.resolveNixDevelop targetDirectory flakeRoot
      (nixDevShellExists nixEval)).1 = .ok (.nixDevelop root attr))
    (hroot : IsNixText [] (pathFlakeRef flakeRoot).toList) (hattr : IsNixText [] attr.toList) :
    root = flakeRoot ∧ devShells (pathFlakeRef flakeRoot) attr = true := by
  rw [fst_resolveNixDevelop] at hselected
  obtain ⟨rfl, hprobe⟩ := firstDevShell_nixDevelop hselected
  rw [nixDevShellExists_of_answersFor h hroot hattr] at hprobe
  exact ⟨rfl, Except.ok.inj hprobe⟩

/-- The launched dev shell is the probed one exactly when the flake root is a plain path and the name
of the directory, where its dev shell exists, is a plain attribute. -/
theorem launches_probed_iff {targetDirectory flakeRoot root : Utf8Path} {attr : String}
    {probe : Utf8Path → String → Except Error Bool}
    (h : resolveNixDevelop targetDirectory flakeRoot probe = .ok (.nixDevelop root attr)) :
    Launches (.nixDevelop root attr) flakeRoot attr ↔
      IsPlainPath flakeRoot.asStr.toList ∧
        ∀ name, (targetDirectory == flakeRoot) = false → targetDirectory.fileName = some name →
          probe flakeRoot name = .ok true → IsPlainAttr name.toList := by
  obtain ⟨rfl, ⟨htarget, hname, hp⟩ | ⟨rfl, hother⟩⟩ := resolveNixDevelop_nixDevelop h
  · rw [launches_nixDevelop_iff root (Utf8Path.ne_empty_of_fileName hname)]
    refine and_congr_right fun _ => ⟨fun hplain name _ hn _ => ?_, fun hall => ?_⟩
    · rw [hname] at hn
      obtain rfl := Option.some.inj hn
      exact hplain
    · exact hall attr htarget hname hp
  · rw [launches_nixDevelop_iff root (by decide)]
    refine and_congr_right fun _ => ⟨fun _ name htarget hname hp => ?_, fun _ => by decide⟩
    rw [hother name htarget hname hp]
    decide

/-- A flake that has every dev shell. -/
def everyShell : Utf8Path → String → Except Error Bool := fun _ _ => .ok true

theorem launches_probed_iff_web :
    resolveNixDevelop ⟨"/src/box/web"⟩ ⟨"/src/box"⟩ everyShell =
        .ok (.nixDevelop ⟨"/src/box"⟩ "web") ∧
      Launches (.nixDevelop ⟨"/src/box"⟩ "web") ⟨"/src/box"⟩ "web" := by
  have h : resolveNixDevelop ⟨"/src/box/web"⟩ ⟨"/src/box"⟩ everyShell =
      .ok (.nixDevelop ⟨"/src/box"⟩ "web") := rfl
  refine ⟨h, (launches_probed_iff h).2 ⟨by decide, fun name _ hname _ => ?_⟩⟩
  have hweb : (⟨"/src/box/web"⟩ : Utf8Path).fileName = some "web" := by decide +kernel
  rw [hweb] at hname
  obtain rfl := Option.some.inj hname
  decide

/-- The dev shell of the directory `web.api` is probed as one attribute and launched as two. -/
theorem not_launches_probed :
    ¬ ∀ (targetDirectory flakeRoot : Utf8Path) (probe : Utf8Path → String → Except Error Bool)
      (root : Utf8Path) (attr : String), targetDirectory.startsWith flakeRoot = true →
      resolveNixDevelop targetDirectory flakeRoot probe = .ok (.nixDevelop root attr) →
      Launches (.nixDevelop root attr) flakeRoot attr := by
  intro h
  have hlaunch := h ⟨"/src/box/web.api"⟩ ⟨"/src/box"⟩ everyShell ⟨"/src/box"⟩ "web.api"
    (by decide +kernel) rfl
  have hplain := ((launches_nixDevelop_iff ⟨"/src/box"⟩ (by decide)).1 hlaunch).2
  exact absurd hplain (by decide)

end Agentbox.DevEnv.Nix
