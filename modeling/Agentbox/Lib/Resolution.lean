import Mathlib.Logic.Relation
import Agentbox.Base.Path

/-! # Resolving paths through symlinks

A tree of directories, files and symlinks, and the resolution of a path in it one component at a
time: a state is the place reached, in which no symlink is left, with the components still to be
read. A symlink that is met puts its target in front of what is still to be read. `resolve` is the
same resolution with the number of symlinks limited, as the kernel has it. -/

namespace Agentbox.Lib.Resolution

open Agentbox.Base.Path

/-! ### Trees -/

inductive Node
  | directory (entries : List (String × Node))
  | file
  | symlink (target : Utf8Path)

/-- What is at a place below the node. -/
def Node.find : Node → List String → Option Node
  | node, [] => some node
  | .directory entries, name :: place =>
    match entries.lookup name with
    | some node => node.find place
    | none => none
  | .file, _ :: _ | .symlink _, _ :: _ => none

/-- A file system, the working directory, and how many symlinks a path may go through. -/
structure FileSystem where
  entries : List (String × Node)
  currentDir : List String
  maxSymlinks : Nat

namespace FileSystem

variable (fs : FileSystem)

def find (place : List String) : Option Node := (Node.directory fs.entries).find place

def isDirectory (place : List String) : Bool :=
  match fs.find place with
  | some (.directory _) => true
  | _ => false

end FileSystem

/-! ### Components to be read -/

/-- The last segment of a path asks for a directory: a trailing slash or a `.`. -/
def endsInDirectory (p : Utf8Path) : Bool :=
  match (p.asStr.toList.splitOn '/').getLast? with
  | some [] | some ['.'] => true
  | _ => false

/-- The components of a path as a lookup reads them: a trailing slash stands for a last `.`. -/
def lookupComponents (p : Utf8Path) : List Component :=
  p.components ++ if endsInDirectory p then [.curDir] else []

/-- The names up to the first component that is neither a name nor a `.`. -/
def leadingNames : List Component → List String
  | .normal name :: l => name :: leadingNames l
  | .curDir :: l => leadingNames l
  | _ => []

def pushName (names : List String) : Component → List String
  | .normal name => names ++ [name]
  | .parentDir => names.dropLast
  | .rootDir => []
  | .curDir => names

/-- The names that are left when every `..` takes away the name before it. -/
def lexicalNames (l : List Component) : List String := l.foldl pushName []

structure Pending where
  place : List String
  rest : List Component
  deriving DecidableEq, Repr

/-- The path that a state spells out, up to the first `..`. -/
def Pending.ahead (s : Pending) : List String :=
  match s.rest with
  | .rootDir :: rest => leadingNames rest
  | rest => s.place ++ leadingNames rest

namespace FileSystem

variable (fs : FileSystem)

/-- One component; `none` at the end of the path and where the lookup fails. -/
def step (s : Pending) : Option Pending :=
  match s.rest with
  | [] => none
  | .rootDir :: rest => some ⟨[], rest⟩
  | .curDir :: rest => if fs.isDirectory s.place then some ⟨s.place, rest⟩ else none
  | .parentDir :: rest => if fs.isDirectory s.place then some ⟨s.place.dropLast, rest⟩ else none
  | .normal name :: rest =>
    match fs.find (s.place ++ [name]) with
    | some (.symlink target) => some ⟨s.place, lookupComponents target ++ rest⟩
    | some _ => some ⟨s.place ++ [name], rest⟩
    | none => none

def start (l : List Component) : Pending := ⟨fs.currentDir, l⟩

/-- The states that a resolution goes through. -/
def Steps : Pending → Pending → Prop := Relation.ReflTransGen fun s s' => fs.step s = some s'

/-- The resolution comes to a path at or below `root`: in a place, or in a path still spelled out. -/
def Passes (l : List Component) (root : List String) : Prop :=
  ∃ s, fs.Steps (fs.start l) s ∧ root <+: s.ahead

/-- A number of steps. -/
def run : Nat → Pending → Option Pending
  | 0, s => some s
  | n + 1, s => (fs.step s).bind (run n)

/-! ### Limited resolution -/

inductive Walk
  | done (place : List String)
  | failed
  | symlink (place : List String) (target : Utf8Path) (rest : List Component)

/-- The steps up to the next symlink. -/
def walk (place : List String) : List Component → Walk
  | [] => .done place
  | .rootDir :: rest => walk [] rest
  | .curDir :: rest => if fs.isDirectory place then walk place rest else .failed
  | .parentDir :: rest => if fs.isDirectory place then walk place.dropLast rest else .failed
  | .normal name :: rest =>
    match fs.find (place ++ [name]) with
    | some (.symlink target) => .symlink place target rest
    | some _ => walk (place ++ [name]) rest
    | none => .failed

def resolveFrom : Nat → List String → List Component → Option (List String)
  | limit, place, l =>
    match fs.walk place l with
    | .done place => some place
    | .failed => none
    | .symlink place target rest =>
      match limit with
      | 0 => none
      | limit + 1 => resolveFrom limit place (lookupComponents target ++ rest)

/-- `realpath`: the place that a path leads to. -/
def resolve (l : List Component) : Option (List String) :=
  fs.resolveFrom fs.maxSymlinks fs.currentDir l

/-- `readlink`: the target of the symlink at a path, with the place that it is in. -/
def readLink (l : List Component) : Option (List String × Utf8Path) :=
  match l.getLast? with
  | some (.normal name) =>
    (fs.resolve l.dropLast).bind fun place =>
      match fs.find (place ++ [name]) with
      | some (.symlink target) => some (place, target)
      | _ => none
  | _ => none

/-- There is something at the path; a symlink at its end is not followed. -/
def symlinkMetadata (l : List Component) : Bool :=
  match l.getLast? with
  | some (.normal name) =>
    match fs.resolve l.dropLast with
    | some place => (fs.find (place ++ [name])).isSome
    | none => false
  | _ => (fs.resolve l).isSome

/-- The state that a walk leaves, with what was to be read after its path. -/
def Walk.after (rest : List Component) : Walk → Option Pending
  | .done place => some ⟨place, rest⟩
  | .failed => none
  | .symlink place target rest' => some ⟨place, lookupComponents target ++ (rest' ++ rest)⟩

variable {fs} {l l' rest : List Component} {place place' root : List String} {s s' : Pending}

/-! ### Limited resolutions are resolutions -/

theorem steps_walk (rest : List Component) : ∀ (l : List Component) (place : List String),
    (fs.walk place l).after rest = some s → fs.Steps ⟨place, l ++ rest⟩ s
  | [], place, h => by
    cases h
    exact Relation.ReflTransGen.refl
  | .rootDir :: l, place, h => .head rfl (steps_walk rest l [] h)
  | .curDir :: l, place, h => by
    rw [walk] at h
    by_cases hdir : fs.isDirectory place
    · rw [if_pos hdir] at h
      exact .head (if_pos hdir) (steps_walk rest l place h)
    · rw [if_neg hdir] at h
      cases h
  | .parentDir :: l, place, h => by
    rw [walk] at h
    by_cases hdir : fs.isDirectory place
    · rw [if_pos hdir] at h
      exact .head (if_pos hdir) (steps_walk rest l place.dropLast h)
    · rw [if_neg hdir] at h
      cases h
  | .normal name :: l, place, h => by
    rw [walk] at h
    rcases hfind : fs.find (place ++ [name]) with _ | (entries | _ | target) <;> rw [hfind] at h
    · cases h
    · exact .head (by simp only [List.cons_append, step, hfind]) (steps_walk rest l _ h)
    · exact .head (by simp only [List.cons_append, step, hfind]) (steps_walk rest l _ h)
    · cases h
      exact .head (by simp only [List.cons_append, step, hfind]) Relation.ReflTransGen.refl

theorem steps_resolveFrom (rest : List Component) : ∀ (limit : Nat) {place : List String} {l : List Component},
    fs.resolveFrom limit place l = some place' → fs.Steps ⟨place, l ++ rest⟩ ⟨place', rest⟩ := by
  intro limit
  induction limit with
  | zero =>
    intro place l h
    rw [resolveFrom] at h
    split at h
    · next hwalk => exact steps_walk rest l place (by rw [hwalk, Option.some.inj h]; rfl)
    · cases h
    · cases h
  | succ limit ih =>
    intro place l h
    rw [resolveFrom] at h
    split at h
    · next hwalk => exact steps_walk rest l place (by rw [hwalk, Option.some.inj h]; rfl)
    · cases h
    · next place₁ target rest₁ hwalk =>
      have hafter := steps_walk rest l place (by rw [hwalk]; rfl)
      rw [← List.append_assoc] at hafter
      exact Relation.ReflTransGen.trans hafter (ih h)

/-- Where a path leads to is passed. -/
theorem passes_of_resolve (h : fs.resolve l = some place) (hroot : root <+: place) :
    fs.Passes l root := by
  refine ⟨⟨place, []⟩, ?_, ?_⟩
  · have hsteps := steps_resolveFrom [] _ h
    rwa [List.append_nil] at hsteps
  · have hahead : (Pending.mk place []).ahead = place := List.append_nil place
    rwa [hahead]

/-- A symlink at the end of an initial part of a path is expanded on the way. -/
theorem steps_readLink {target : Utf8Path} (h : fs.readLink l = some (place, target)) :
    fs.Steps (fs.start (l ++ rest)) ⟨place, lookupComponents target ++ rest⟩ := by
  rw [readLink] at h
  split at h
  · next name hlast =>
    obtain ⟨place₁, hresolve, hlink⟩ := Option.bind_eq_some_iff.1 h
    split at hlink
    · next target₁ hfind =>
      cases hlink
      have hl : l = l.dropLast ++ [.normal name] := (List.dropLast_append_getLast? _ hlast).symm
      have hsteps := steps_resolveFrom (.normal name :: rest) _ hresolve
      have hstep : fs.step ⟨place, .normal name :: rest⟩ =
          some ⟨place, lookupComponents target ++ rest⟩ := by
        simp only [step, hfind]
      rw [hl, List.append_assoc]
      exact Relation.ReflTransGen.tail hsteps hstep
    · cases hlink
  · cases h

/-- The next component is the name of a symlink. -/
def MeetsSymlink (fs : FileSystem) (s : Pending) : Prop :=
  ∃ name rest target, s.rest = .normal name :: rest ∧
    fs.find (s.place ++ [name]) = some (.symlink target)

end FileSystem

/-! ### Spelled-out paths -/

theorem leadingNames_append {l l' : List Component} (hroot : .rootDir ∉ l)
    (hparent : .parentDir ∉ l) : leadingNames (l ++ l') = leadingNames l ++ leadingNames l' := by
  induction l with
  | nil => rfl
  | cons c l ih =>
    rw [List.mem_cons, not_or] at hroot hparent
    have htail := ih hroot.2 hparent.2
    cases c with
    | rootDir => exact absurd rfl hroot.1
    | curDir => exact htail
    | parentDir => exact absurd rfl hparent.1
    | normal name => exact congrArg (name :: ·) htail

/-- The path that a state spells out when every `..` takes away the name before it. -/
def Pending.spelled (s : Pending) : List String := s.rest.foldl pushName s.place

namespace FileSystem

variable {fs : FileSystem} {s s' : Pending}

/-- Steps up to the next symlink. -/
def OwnSteps (fs : FileSystem) : Pending → Pending → Prop :=
  Relation.ReflTransGen fun s s' => ¬ fs.MeetsSymlink s ∧ fs.step s = some s'

/-- A step that meets no symlink reads the first component. -/
theorem step_cases (hno : ¬ fs.MeetsSymlink s) (h : fs.step s = some s') :
    ∃ c, s.rest = c :: s'.rest ∧ s'.place = pushName s.place c ∧
      ∀ rest, ¬ fs.MeetsSymlink ⟨s.place, c :: rest⟩ ∧
        fs.step ⟨s.place, c :: rest⟩ = some ⟨s'.place, rest⟩ := by
  obtain ⟨place, rest⟩ := s
  rcases rest with _ | ⟨c, rest⟩
  · cases h
  refine ⟨c, ?_⟩
  have hother : c = .rootDir ∨ c = .curDir ∨ c = .parentDir →
      ∀ rest, ¬ fs.MeetsSymlink ⟨place, c :: rest⟩ := by
    rintro hc rest ⟨name, rest', target, hrest, -⟩
    have hname : c = .normal name := (List.cons.inj hrest).1
    rcases hc with rfl | rfl | rfl <;> cases hname
  cases c with
  | rootDir =>
    cases h
    exact ⟨rfl, rfl, fun rest => ⟨hother (.inl rfl) rest, rfl⟩⟩
  | curDir =>
    simp only [step] at h
    split_ifs at h with hdir
    cases h
    exact ⟨rfl, rfl, fun rest => ⟨hother (.inr (.inl rfl)) rest, if_pos hdir⟩⟩
  | parentDir =>
    simp only [step] at h
    split_ifs at h with hdir
    cases h
    exact ⟨rfl, rfl, fun rest => ⟨hother (.inr (.inr rfl)) rest, if_pos hdir⟩⟩
  | normal name =>
    simp only [step] at h
    split at h
    · next target hfind => exact absurd ⟨name, rest, target, rfl, hfind⟩ hno
    · next node hsymlink hfind =>
      cases h
      refine ⟨rfl, rfl, fun rest => ⟨?_, ?_⟩⟩
      · rintro ⟨name', rest', target, hrest, hfind'⟩
        have hname : Component.normal name = .normal name' := (List.cons.inj hrest).1
        cases hname
        exact hsymlink target (Option.some.inj (hfind.symm.trans hfind'))
      · simp only [step, hfind]
    · cases h

theorem spelled_of_step (hno : ¬ fs.MeetsSymlink s) (h : fs.step s = some s') :
    s'.spelled = s.spelled := by
  obtain ⟨c, hrest, hplace, -⟩ := step_cases hno h
  rw [Pending.spelled, Pending.spelled, hrest, List.foldl_cons, hplace]

/-- On the way to the next symlink nothing changes what is spelled out. -/
theorem OwnSteps.spelled (h : fs.OwnSteps s s') : s'.spelled = s.spelled := by
  induction h with
  | refl => rfl
  | tail _ hstep ih => exact (spelled_of_step hstep.1 hstep.2).trans ih

theorem OwnSteps.steps (h : fs.OwnSteps s s') : fs.Steps s s' := by
  induction h with
  | refl => exact Relation.ReflTransGen.refl
  | tail _ hstep ih => exact Relation.ReflTransGen.tail ih hstep.2

/-- What comes after a path is not looked at. -/
theorem OwnSteps.append (h : fs.OwnSteps s s') (rest : List Component) :
    fs.OwnSteps ⟨s.place, s.rest ++ rest⟩ ⟨s'.place, s'.rest ++ rest⟩ := by
  induction h with
  | refl => exact Relation.ReflTransGen.refl
  | @tail s₁ s₂ _ hstep ih =>
    obtain ⟨c, hrest, -, hread⟩ := step_cases hstep.1 hstep.2
    refine Relation.ReflTransGen.tail ih ?_
    rw [hrest]
    exact hread (s₂.rest ++ rest)

/-- A path has its root at the start only, and keeps it there. -/
theorem OwnSteps.rootDir_not_mem (h : fs.OwnSteps s s') (hroot : .rootDir ∉ s.rest.tail) :
    .rootDir ∉ s'.rest.tail := by
  induction h with
  | refl => exact hroot
  | tail _ hstep ih =>
    obtain ⟨c, hrest, -⟩ := step_cases hstep.1 hstep.2
    rw [hrest] at ih
    exact fun hmem => ih (List.mem_of_mem_tail hmem)

end FileSystem

end Agentbox.Lib.Resolution
