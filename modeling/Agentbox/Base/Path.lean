import Agentbox.Base.Text

/-! # Paths

`camino::Utf8Path` on Unix: a string that is compared, ordered and tested for prefixes by its
components, so that `/a//b/` and `/a/./b` are one path in two spellings. The digests of a workspace
are taken of the spelling, which is why `IsNormal` singles one of them out. -/

namespace Agentbox.Base.Path

/-- One component of a path, in the order of `std::path::Component`. -/
inductive Component
  | rootDir
  | curDir
  | parentDir
  | normal (name : String)
  deriving DecidableEq, Repr

def Component.rank : Component → Nat
  | .rootDir => 0
  | .curDir => 1
  | .parentDir => 2
  | .normal _ => 3

def Component.name : Component → String
  | .rootDir => "/"
  | .curDir => "."
  | .parentDir => ".."
  | .normal name => name

theorem Component.ext_rank_name : ∀ {a b : Component}, a.rank = b.rank → a.name = b.name → a = b
  | .rootDir, .rootDir, _, _ | .curDir, .curDir, _, _ | .parentDir, .parentDir, _, _ => rfl
  | .normal _, .normal _, _, h => congrArg normal h

/-- `Ord` of components. -/
def Component.cmp : Component → Component → Ordering :=
  compareLex (compareOn rank) (compareOn name)

instance : Std.TransCmp Component.cmp := inferInstanceAs (Std.TransCmp (compareLex _ _))

instance : Std.LawfulEqCmp Component.cmp where
  compare_self := by intro a; simp [Component.cmp, compareLex, compareOn]
  eq_of_compare := by
    intro a b h
    simp only [Component.cmp, compareLex, compareOn, Ordering.then_eq_eq] at h
    exact Component.ext_rank_name (Std.compare_eq_iff_eq.1 h.1) (Std.compare_eq_iff_eq.1 h.2)

/-- `camino::Utf8Path`. -/
structure Utf8Path where
  asStr : String
  deriving DecidableEq, Repr

namespace Utf8Path

/-- The component of a segment between slashes; `.` counts at the start of a relative path only. -/
def segmentComponent (atStart : Bool) (segment : List Char) : Option Component :=
  if segment = [] then none
  else if segment = ['.'] then if atStart then some .curDir else none
  else if segment = ['.', '.'] then some .parentDir
  else some (.normal (String.ofList segment))

def isAbsolute (p : Utf8Path) : Bool := p.asStr.toList.head? == some '/'

/-- `Utf8Path::components`. -/
def components (p : Utf8Path) : List Component :=
  match p.asStr.toList.splitOn '/' with
  | [] => []
  | first :: rest =>
    (if p.isAbsolute then some .rootDir else segmentComponent true first).toList ++
      rest.filterMap (segmentComponent false)

/-- `PartialEq` of paths. -/
instance : BEq Utf8Path := ⟨fun p q => p.components == q.components⟩

theorem beq_iff {p q : Utf8Path} : (p == q) = true ↔ p.components = q.components :=
  @beq_iff_eq _ _ _ p.components q.components

/-- `Ord` of paths. -/
def cmp (p q : Utf8Path) : Ordering :=
  List.compareLex Component.cmp p.components q.components

instance : Std.TransCmp cmp where
  eq_swap := by
    intro p q
    have h : Std.TransCmp (List.compareLex Component.cmp) := inferInstance
    exact h.eq_swap
  isLE_trans := by
    intro p q r hpq hqr
    have h : Std.TransCmp (List.compareLex Component.cmp) := inferInstance
    exact h.isLE_trans hpq hqr

/-- `Utf8Path::starts_with`. -/
def startsWith (p base : Utf8Path) : Bool := base.components.isPrefixOf p.components

/-- `Utf8Path::join`. -/
def join (p q : Utf8Path) : Utf8Path :=
  if q.isAbsolute then q
  else if p.asStr = "" ∨ p.asStr.toList.getLast? = some '/' then ⟨p.asStr ++ q.asStr⟩
  else ⟨p.asStr ++ "/" ++ q.asStr⟩

/-- `Utf8Path::file_name`. -/
def fileName (p : Utf8Path) : Option String :=
  match p.components.getLast? with
  | some (.normal name) => some name
  | _ => none

theorem ne_empty_of_segmentComponent {atStart : Bool} {segment : List Char} {name : String}
    (h : segmentComponent atStart segment = some (.normal name)) : name ≠ "" := by
  unfold segmentComponent at h
  split_ifs at h with hnil
  all_goals cases h
  intro hempty
  exact hnil (by simpa using congrArg String.toList hempty)

theorem ne_empty_of_fileName {p : Utf8Path} {name : String} (h : p.fileName = some name) :
    name ≠ "" := by
  have hmem : Component.normal name ∈ p.components := by
    unfold fileName at h
    split at h
    · next n hlast => exact Option.some.inj h ▸ List.mem_of_getLast? hlast
    · cases h
  unfold components at hmem
  split at hmem
  · simp at hmem
  · next first rest =>
    rcases List.mem_append.1 hmem with hm | hm
    · split_ifs at hm
      · simp at hm
      · exact ne_empty_of_segmentComponent (Option.mem_toList.1 hm)
    · obtain ⟨segment, -, hseg⟩ := List.mem_filterMap.1 hm
      exact ne_empty_of_segmentComponent hseg

/-! ### Spelling -/

/-- The spelling of components that `realpath` uses. -/
def render : List Component → String
  | .rootDir :: l => "/" ++ "/".intercalate (l.map Component.name)
  | l => "/".intercalate (l.map Component.name)

/-- No doubled or trailing slash, and no `.` but a leading one. -/
def IsNormal (p : Utf8Path) : Prop := p.asStr = render p.components

instance (p : Utf8Path) : Decidable p.IsNormal := inferInstanceAs (Decidable (_ = _))

/-- Two normal spellings of one path are one spelling. -/
theorem eq_of_beq {p q : Utf8Path} (hp : p.IsNormal) (hq : q.IsNormal) (h : (p == q) = true) :
    p = q := by
  have hs : p.asStr = q.asStr := by rw [hp, hq, beq_iff.1 h]
  cases p
  cases q
  exact congrArg mk hs

@[simp]
theorem beq_self (p : Utf8Path) : (p == p) = true := beq_iff.2 rfl

end Utf8Path

end Agentbox.Base.Path
