import Agentbox.Config.Limits
import Agentbox.Lib.Directory
import Agentbox.Lib.Transition
import Mathlib.Data.Fintype.Card
import Std.Data.String.ToNat

/-! # Loading the config file

`load_config_with` of `config.rs`, for any number of processes that load the same `config.json`
while the user puts other entries there. A process takes one step for each call that looks at the
directory or changes it: the read, one existence check for each suffix of
`backup_incompatible_config`, and the rename. `fromStr` is `serde_json::from_str`. -/

namespace Agentbox.Config.Load

open Agentbox.Base.Text Agentbox.Config.Limits Agentbox.Lib.Directory Agentbox.Lib.Transition

/-! ### The config -/

/-- A JSON value as far as `parse_cpu_value` tells them apart; a number is the text it displays. -/
inductive JsonValue
  | number (text : String)
  | string (value : String)
  | other
  deriving DecidableEq

structure RawResourceLimits where
  cpus : Option JsonValue := none
  memory : Option String := none
  deriving DecidableEq

structure RawAgentboxConfig where
  knownHosts : List String := []
  defaultResourceLimits : RawResourceLimits := {}
  deriving DecidableEq

structure AgentboxConfig where
  knownHosts : List String := []
  defaultResourceLimits : ResourceLimits := {}
  deriving DecidableEq

def parseCpuValue : JsonValue → Except String CpuLimit
  | .number text => CpuLimit.parse text
  | .string value => CpuLimit.parse value
  | .other => .error "CPU limit must be a non-negative decimal number"

def parseResourceLimits (raw : RawResourceLimits) : Except String ResourceLimits := do
  let cpus ← raw.cpus.mapM parseCpuValue
  let memory ← raw.memory.mapM MemoryLimit.parse
  return ⟨cpus, memory⟩

/-- The loop of `parse_config` over the entries of `knownHosts`. -/
def checkKnownHosts : List String → Except String Unit
  | [] => .ok ()
  | entry :: entries =>
    if isBlank entry then .error "knownHosts entries must not be blank"
    else if '\n' ∈ entry.toList ∨ '\r' ∈ entry.toList then
      .error "knownHosts entries must be single-line strings"
    else checkKnownHosts entries

def parseConfig (fromStr : String → Except String RawAgentboxConfig) (contents : String) :
    Except String AgentboxConfig := do
  let raw ← fromStr contents
  checkKnownHosts raw.knownHosts
  let limits ← parseResourceLimits raw.defaultResourceLimits
  return ⟨raw.knownHosts, limits⟩

/-! ### The directory of the config -/

/-- The bytes of a file: the text they encode, or bytes that are no UTF-8. -/
inductive Contents
  | utf8 (text : String)
  | invalid (bytes : List UInt8)
  deriving DecidableEq

abbrev ConfigDir := Dir Contents

def configName : String := "config.json"

/-- The symbolic links the kernel follows before it gives up. -/
def maxLinks : Nat := 40

/-- `Path::exists`. -/
def pathExists (d : ConfigDir) (name : String) : Bool := (d.follow maxLinks name).isOk

/-- `fs::read_to_string` of `config.json`. -/
def readToString (d : ConfigDir) : Except IoError String :=
  match d.follow maxLinks configName with
  | .error error => .error error
  | .ok (.directory _) => .error .isADirectory
  | .ok (.file (.utf8 text)) => .ok text
  | .ok (.file (.invalid _)) => .error .invalidData

/-- The items of `once(None).chain((1..).map(Some))`. -/
def suffixAt : Nat → Option Nat
  | 0 => none
  | n + 1 => some (n + 1)

/-- The file name of `backup_path`. -/
def backupName (timestamp : String) (suffix : Option Nat) : String :=
  match suffix with
  | some suffix => configName ++ ".bak." ++ timestamp ++ "." ++ toString suffix
  | none => configName ++ ".bak." ++ timestamp

/-! ### The processes -/

inductive Warning
  | readFailed (error : IoError)
  | backedUp (reason : String) (backup : String)
  | backupFailed (reason : String) (error : IoError)
  deriving DecidableEq

/-- Where a process is in `load_config_with`. -/
inductive Pc
  | start
  /-- At the existence check of the suffix number `n`; the config did not parse. -/
  | checking (reason : String) (n : Nat)
  /-- The check found nothing under that suffix. -/
  | renaming (reason : String) (n : Nat)
  | done (config : AgentboxConfig) (warning : Option Warning)
  deriving DecidableEq

def Pc.isDone : Pc → Bool
  | .done _ _ => true
  | _ => false

variable {ι : Type}

structure State (ι : Type) where
  dir : ConfigDir
  pc : ι → Pc

inductive Act (ι : Type)
  /-- The next step of a process. -/
  | run (p : ι)
  /-- The user puts an entry at `config.json`, or removes it. -/
  | recreate (entry : Option (Entry Contents))

/-- All processes are about to read the config. -/
def State.init (d : ConfigDir) : State ι := ⟨d, fun _ => .start⟩

def State.put (s : State ι) (entry : Option (Entry Contents)) : State ι :=
  { s with dir := match entry with
      | some e => s.dir.insert configName e
      | none => s.dir.erase configName }

@[simp] theorem State.put_pc (s : State ι) (entry : Option (Entry Contents)) :
    (s.put entry).pc = s.pc := rfl

theorem State.put_lookup (s : State ι) (entry : Option (Entry Contents)) {name : String}
    (hne : name ≠ configName) : (s.put entry).dir.lookup name = s.dir.lookup name := by
  cases entry with
  | none => exact AList.lookup_erase_ne hne
  | some e => exact AList.lookup_insert_ne hne

section Step
variable [DecidableEq ι] (fromStr : String → Except String RawAgentboxConfig) (timestamp : ι → String)

def State.setPc (s : State ι) (p : ι) (pc : Pc) : State ι :=
  { s with pc := Function.update s.pc p pc }

/-- The read and the parse. -/
def load (d : ConfigDir) : Pc :=
  match readToString d with
  | .error .notFound => .done {} none
  | .error error => .done {} (some (.readFailed error))
  | .ok contents =>
    match parseConfig fromStr contents with
    | .ok config => .done config none
    | .error reason => .checking reason 0

/-- The name that process `p` tries in round `n` of its loop. -/
abbrev candidate (p : ι) (n : Nat) : String := backupName (timestamp p) (suffixAt n)

/-- One step of a process or of the user, if it is enabled. -/
def step (s : State ι) : Act ι → Option (State ι)
  | .recreate entry => some (s.put entry)
  | .run p =>
    match s.pc p with
    | .start => some (s.setPc p (load fromStr s.dir))
    | .checking reason n =>
      if pathExists s.dir (candidate timestamp p n) then some (s.setPc p (.checking reason (n + 1)))
      else some (s.setPc p (.renaming reason n))
    | .renaming reason n =>
      match s.dir.rename configName (candidate timestamp p n) with
      | .ok dir =>
        some { s.setPc p (.done {} (some (.backedUp reason (candidate timestamp p n)))) with
          dir := dir }
      | .error error => some (s.setPc p (.done {} (some (.backupFailed reason error))))
    | .done _ _ => none

/-- The processes `ι`, each with its timestamp, from the directory `d`. -/
def loading (d : ConfigDir) : System (State ι) (Act ι) :=
  System.ofStep (State.init d) (step fromStr timestamp)

end Step

/-! ### What a step does -/

theorem backupName_ne_configName (timestamp : String) (suffix : Option Nat) :
    backupName timestamp suffix ≠ configName := by
  intro h
  have hlen := congrArg String.length h
  cases suffix with
  | none =>
    simp only [backupName, String.length_append] at hlen
    have : ".bak.".length = 5 := by decide
    omega
  | some suffix =>
    simp only [backupName, String.length_append] at hlen
    have : ".bak.".length = 5 := by decide
    omega

theorem suffixAt_injective : Function.Injective suffixAt := by
  intro m n h
  cases m <;> cases n <;> simp only [suffixAt, Option.some.injEq, reduceCtorEq] at h <;> omega

theorem backupName_injective (timestamp : String) : Function.Injective (backupName timestamp) := by
  intro a b h
  have hne : ∀ n : Nat, backupName timestamp none ≠ backupName timestamp (some n) := by
    intro n h
    have hlen := congrArg String.length h
    simp only [backupName, String.length_append] at hlen
    have : ".".length = 1 := by decide
    omega
  cases a with
  | none =>
    cases b with
    | none => rfl
    | some n => exact absurd h (hne n)
  | some m =>
    cases b with
    | none => exact absurd h.symm (hne m)
    | some n =>
      simp only [backupName, String.append_right_inj] at h
      rw [Nat.repr_injective h]

theorem candidate_injective (timestamp : ι → String) (p : ι) :
    Function.Injective (candidate timestamp p) :=
  (backupName_injective _).comp suffixAt_injective

section Cases
variable [DecidableEq ι] {fromStr : String → Except String RawAgentboxConfig}
  {timestamp : ι → String} {s s' : State ι} {a : Act ι}

theorem load_cases (fromStr : String → Except String RawAgentboxConfig) (d : ConfigDir) :
    (∃ config warning, load fromStr d = .done config warning) ∨
      ∃ reason, load fromStr d = .checking reason 0 := by
  unfold load
  split
  · exact .inl ⟨_, _, rfl⟩
  · exact .inl ⟨_, _, rfl⟩
  · split
    · exact .inl ⟨_, _, rfl⟩
    · exact .inr ⟨_, rfl⟩

/-- **What a step can do**: move one process on, without a change to the directory; rename the
config; or change `config.json` at the user's hand. -/
theorem step_cases (h : step fromStr timestamp s a = some s') :
    (∃ p pc, a = .run p ∧ (s.pc p).isDone = false ∧ s' = s.setPc p pc ∧
      ∀ reason n, pc = .checking reason n → n = 0 ∨
        ∃ m, n = m + 1 ∧ s.pc p = .checking reason m ∧
          pathExists s.dir (candidate timestamp p m) = true) ∨
    (∃ p reason n dir, a = .run p ∧ s.pc p = .renaming reason n ∧
      s.dir.rename configName (candidate timestamp p n) = .ok dir ∧
      s' = { s.setPc p (.done {} (some (.backedUp reason (candidate timestamp p n)))) with
        dir := dir }) ∨
    ∃ entry, a = .recreate entry ∧ s' = s.put entry := by
  cases a with
  | recreate entry => exact .inr (.inr ⟨entry, rfl, (Option.some.inj h).symm⟩)
  | run p =>
    simp only [step] at h
    split at h
    · next hpc =>
      refine .inl ⟨p, _, rfl, by rw [hpc]; rfl, (Option.some.inj h).symm, fun reason n hn => .inl ?_⟩
      rcases load_cases fromStr s.dir with ⟨_, _, hl⟩ | ⟨_, hl⟩
      · rw [hl] at hn; cases hn
      · rw [hl] at hn; cases hn; rfl
    · next reason n hpc =>
      split_ifs at h with hex
      · refine .inl ⟨p, _, rfl, by rw [hpc]; rfl, (Option.some.inj h).symm, fun r m hm => .inr ?_⟩
        cases hm
        exact ⟨n, rfl, hpc, hex⟩
      · exact .inl ⟨p, _, rfl, by rw [hpc]; rfl, (Option.some.inj h).symm, fun _ _ hm => nomatch hm⟩
    · next reason n hpc =>
      split at h
      · next dir hdir => exact .inr (.inl ⟨p, reason, n, dir, rfl, hpc, hdir, (Option.some.inj h).symm⟩)
      · exact .inl ⟨p, _, rfl, by rw [hpc]; rfl, (Option.some.inj h).symm, fun _ _ hm => nomatch hm⟩
    · cases h

@[simp] theorem State.setPc_dir (s : State ι) (p : ι) (pc : Pc) : (s.setPc p pc).dir = s.dir := rfl

@[simp] theorem State.setPc_pc (s : State ι) (p q : ι) (pc : Pc) :
    (s.setPc p pc).pc q = if q = p then pc else s.pc q := by
  simp only [State.setPc, Function.update_apply]

/-- **Names stay.** No step takes a name other than `config.json` away. -/
theorem step_mem (h : step fromStr timestamp s a = some s') {name : String}
    (hne : name ≠ configName) (hmem : name ∈ s.dir) : name ∈ s'.dir := by
  rcases step_cases h with ⟨p, pc, -, -, rfl, -⟩ | ⟨p, reason, n, dir, -, -, hdir, rfl⟩ |
    ⟨entry, -, rfl⟩
  · exact hmem
  · exact Dir.rename_mem hdir hne hmem
  · rw [← AList.lookup_isSome] at hmem ⊢
    rw [State.put_lookup s entry hne, hmem]

end Cases

end Agentbox.Config.Load
