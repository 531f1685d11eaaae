import Agentbox.Base.Path

/-! # Canonical paths and their parents

The paths that `realpath` answers with, and `Path::parent` on them.

* `components_path`: the components of a canonical path.
* `join_path`: a file in a canonical directory.
* `parent_append`: the directory that it is in. -/

namespace Agentbox.Base.Path

/-! ### Parents -/

namespace Utf8Path

/-- `Path::parent`, in normal spelling. -/
def parent (p : Utf8Path) : Option Utf8Path :=
  match p.components.reverse with
  | [] | .rootDir :: _ => none
  | _ :: above => some ⟨render above.reverse⟩

end Utf8Path

/-! ### Canonical paths -/

/-- The name of a directory entry. -/
structure IsName (name : String) : Prop where
  ne_empty : name ≠ ""
  ne_dot : name ≠ "."
  ne_dotDot : name ≠ ".."
  no_slash : '/' ∉ name.toList

instance (name : String) : Decidable (IsName name) :=
  decidable_of_iff (name ≠ "" ∧ name ≠ "." ∧ name ≠ ".." ∧ '/' ∉ name.toList)
    ⟨fun h => ⟨h.1, h.2.1, h.2.2.1, h.2.2.2⟩,
      fun h => ⟨h.ne_empty, h.ne_dot, h.ne_dotDot, h.no_slash⟩⟩

/-- The names on the way from the root directory. -/
structure CanonicalPath where
  names : List String
  isName : ∀ name ∈ names, IsName name

theorem segmentComponent_name {name : String} (h : IsName name) :
    Utf8Path.segmentComponent false name.toList = some (.normal name) := by
  have hdot : name.toList ≠ ['.'] := fun heq => h.ne_dot (String.toList_inj.1 heq)
  have hdotDot : name.toList ≠ ['.', '.'] := fun heq => h.ne_dotDot (String.toList_inj.1 heq)
  have hnil : name.toList ≠ [] := fun heq => h.ne_empty (String.toList_inj.1 heq)
  rw [Utf8Path.segmentComponent, if_neg hnil, if_neg hdot, if_neg hdotDot, String.ofList_toList]

namespace CanonicalPath

def comps (names : List String) : List Component := .rootDir :: names.map .normal

def path (p : CanonicalPath) : Utf8Path := ⟨Utf8Path.render (comps p.names)⟩

def append (p : CanonicalPath) (name : String) (h : IsName name) : CanonicalPath where
  names := p.names ++ [name]
  isName := by
    intro n hn
    rcases List.mem_append.1 hn with hn | hn
    · exact p.isName n hn
    · rwa [List.mem_singleton.1 hn]

/-- The directory `n` names below the root directory on the way to the path. -/
def take (p : CanonicalPath) (n : Nat) : CanonicalPath :=
  ⟨p.names.take n, fun name h => p.isName name (List.mem_of_mem_take h)⟩

variable (p : CanonicalPath)

theorem path_asStr : p.path.asStr = "/" ++ "/".intercalate p.names := by
  have hnames : (p.names.map Component.normal).map Component.name = p.names := by
    rw [List.map_map]
    exact List.map_id p.names
  show "/" ++ "/".intercalate ((p.names.map Component.normal).map Component.name) = _
  rw [hnames]

theorem components_path : p.path.components = comps p.names := by
  have hlist : p.path.asStr.toList = '/' :: ['/'].intercalate (p.names.map String.toList) := by
    rw [path_asStr, String.toList_append, String.toList_intercalate]
    rfl
  have habs : p.path.isAbsolute = true := by
    rw [Utf8Path.isAbsolute, hlist]
    rfl
  have hsplit : p.path.asStr.toList.splitOn '/' =
      [] :: (['/'].intercalate (p.names.map String.toList)).splitOn '/' := by
    rw [hlist]
    exact List.splitOn_append_cons_self [] _
  unfold Utf8Path.components
  rw [hsplit, habs]
  rcases hnames : p.names with _ | ⟨name, names⟩
  · rfl
  · have hslash : ∀ l ∈ (name :: names).map String.toList, '/' ∉ l := by
      intro l hl
      obtain ⟨n, hn, rfl⟩ := List.mem_map.1 hl
      exact (p.isName n (hnames ▸ hn)).no_slash
    rw [List.splitOn_intercalate '/' hslash (by simp)]
    have hcomp : ∀ n ∈ name :: names,
        (Utf8Path.segmentComponent false ∘ String.toList) n = some (Component.normal n) :=
      fun n hn => segmentComponent_name (p.isName n (hnames ▸ hn))
    show [Component.rootDir] ++ ((name :: names).map String.toList).filterMap
      (Utf8Path.segmentComponent false) = _
    rw [List.filterMap_map, List.filterMap_congr hcomp, List.filterMap_eq_map']
    rfl

theorem names_inj {p q : CanonicalPath} (h : p.names = q.names) : p = q := by
  obtain ⟨names, hp⟩ := p
  obtain ⟨names', hq⟩ := q
  simp only at h
  subst h
  rfl

theorem path_beq_iff {p q : CanonicalPath} : (p.path == q.path) = true ↔ p.names = q.names := by
  rw [Utf8Path.beq_iff, components_path, components_path, comps, comps, List.cons.injEq]
  simp only [true_and]
  exact (List.map_injective_iff.2 fun a b h => Component.normal.inj h).eq_iff

theorem join_path (name : String) (h : IsName name) :
    p.path.join ⟨name⟩ = (p.append name h).path := by
  have hrel : (⟨name⟩ : Utf8Path).isAbsolute = false := by
    rw [Utf8Path.isAbsolute, beq_eq_false_iff_ne]
    exact fun hhead => h.no_slash (List.mem_of_mem_head? hhead)
  have hjoined : (p.append name h).path.asStr = "/" ++ "/".intercalate (p.names ++ [name]) :=
    path_asStr _
  rw [Utf8Path.join, hrel, if_neg (by decide)]
  rcases List.eq_nil_or_concat p.names with hnames | ⟨above, last, hnames⟩
  · have hroot : p.path.asStr = "/" := by
      rw [path_asStr, hnames]
      rfl
    rw [if_pos (.inr (by rw [hroot]; rfl)), hroot]
    rw [hnames, List.nil_append, String.intercalate_singleton] at hjoined
    exact congrArg Utf8Path.mk hjoined.symm
  · rw [List.concat_eq_append] at hnames
    have hlast : IsName last := p.isName last (by rw [hnames]; simp)
    have hend : ∃ front, p.path.asStr = front ++ last := by
      rw [path_asStr, hnames]
      rcases List.eq_nil_or_concat above with rfl | ⟨a, b, rfl⟩
      · exact ⟨"/", by rw [List.nil_append, String.intercalate_singleton]⟩
      · rw [String.intercalate_append_of_ne_nil (by simp) (by simp), String.intercalate_singleton,
          ← String.append_assoc]
        exact ⟨_, rfl⟩
    have hcond : ¬ (p.path.asStr = "" ∨ p.path.asStr.toList.getLast? = some '/') := by
      obtain ⟨front, hfront⟩ := hend
      have hne : last.toList ≠ [] := fun hnil => hlast.ne_empty (String.toList_inj.1 hnil)
      rintro (hempty | hslash)
      · rw [hfront] at hempty
        have hlist := congrArg String.toList hempty
        rw [String.toList_append] at hlist
        exact hne (List.append_eq_nil_iff.1 hlist).2
      · rw [hfront, String.toList_append, List.getLast?_append_of_ne_nil _ hne] at hslash
        exact hlast.no_slash (List.mem_of_getLast? hslash)
    rw [if_neg hcond]
    have hspell : "/".intercalate (p.names ++ [name]) = "/".intercalate p.names ++ "/" ++ name := by
      rw [String.intercalate_append_of_ne_nil (by rw [hnames]; simp) (by simp),
        String.intercalate_singleton]
    rw [hspell, ← String.append_assoc, ← String.append_assoc, ← path_asStr] at hjoined
    exact congrArg Utf8Path.mk hjoined.symm

theorem parent_append (name : String) (h : IsName name) :
    (p.append name h).path.parent = some p.path := by
  have hrev : (p.append name h).path.components.reverse =
      .normal name :: (comps p.names).reverse := by
    rw [components_path, append, comps, List.map_append]
    simp [comps]
  rw [Utf8Path.parent, hrev]
  simp only [List.reverse_reverse]
  rfl

end CanonicalPath

end Agentbox.Base.Path
