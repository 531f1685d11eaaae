import Std.Data.ExtTreeMap
import Mathlib.Tactic

/-! # Ordered maps filled entry by entry

The map that a list leaves when each element with a key is added to the entry at its key: what is at
a key depends on the elements with that key only, in their order. `Holds` and `Lacks` say which
entries a map has, through insertions and unions. -/

namespace Agentbox.Lib.Entries

variable {α β κ : Type} {cmp : κ → κ → Ordering} [Std.TransCmp cmp]

/-! ### Entries that a map has -/

/-- The map has the entries of the list. -/
def Holds (m : Std.ExtTreeMap κ β cmp) (l : List (κ × β)) : Prop := ∀ e ∈ l, m[e.1]? = some e.2

/-- The map has no entry at the keys of the list. -/
def Lacks (m : Std.ExtTreeMap κ β cmp) (l : List κ) : Prop := ∀ k ∈ l, m[k]? = none

section
variable {m : Std.ExtTreeMap κ β cmp} {l : List (κ × β)} {ks : List κ} {k : κ} {v : β}

theorem getElem?_insert_of_ne [Std.LawfulEqCmp cmp] (m : Std.ExtTreeMap κ β cmp) {k k' : κ} (v : β)
    (h : k ≠ k') : (m.insert k v)[k']? = m[k']? := by
  rw [Std.ExtTreeMap.getElem?_insert, if_neg (mt Std.LawfulEqCmp.compare_eq_iff_eq.1 h)]

theorem holds_ofList [Std.LawfulEqCmp cmp] (h : (l.map Prod.fst).Nodup) :
    Holds (.ofList l cmp) l := by
  intro e he
  refine Std.ExtTreeMap.getElem?_ofList_of_mem Std.ReflCmp.compare_self ?_ he
  exact (List.pairwise_map.1 h).imp fun hne heq => hne (Std.LawfulEqCmp.compare_eq_iff_eq.1 heq)

theorem lacks_ofList [Std.LawfulEqCmp cmp] [DecidableEq κ] (h : ∀ k ∈ ks, k ∉ l.map Prod.fst) :
    Lacks (.ofList l cmp) ks := by
  intro k hk
  refine Std.ExtTreeMap.getElem?_ofList_of_contains_eq_false ?_
  rw [List.contains_eq_mem, decide_eq_false_iff_not]
  exact h k hk

theorem ofList_eq_foldl (l : List (κ × β)) :
    Std.ExtTreeMap.ofList l cmp = l.foldl (fun m e => m.insert e.1 e.2) ∅ := by
  have hfold : ∀ (l : List (κ × β)) (m : Std.ExtTreeMap κ β cmp),
      m.insertMany l = l.foldl (fun m e => m.insert e.1 e.2) m := by
    intro l
    induction l with
    | nil => exact fun m => Std.ExtTreeMap.insertMany_nil
    | cons e l ih =>
      intro m
      rw [List.foldl_cons, ← ih]
      exact Std.ExtTreeMap.insertMany_cons
  rw [Std.ExtTreeMap.ofList_eq_insertMany_empty, hfold]

theorem ofList_toList [Std.LawfulEqCmp cmp] [DecidableEq κ] (m : Std.ExtTreeMap κ β cmp) :
    Std.ExtTreeMap.ofList m.toList cmp = m := by
  refine Std.ExtTreeMap.ext_getElem? fun {k} => ?_
  rcases hk : m[k]? with _ | v
  · have hlacks : Lacks (Std.ExtTreeMap.ofList m.toList cmp) [k] := by
      refine lacks_ofList fun k' hk' hmem => ?_
      obtain ⟨e, he, rfl⟩ := List.mem_map.1 hmem
      rw [← List.mem_singleton.1 hk', Std.ExtTreeMap.mem_toList_iff_getElem?_eq_some.1 he] at hk
      cases hk
    exact hlacks k List.mem_cons_self
  · exact Std.ExtTreeMap.getElem?_ofList_of_mem Std.ReflCmp.compare_self
      Std.ExtTreeMap.distinct_keys_toList (Std.ExtTreeMap.mem_toList_iff_getElem?_eq_some.2 hk)

theorem Holds.insert [Std.LawfulEqCmp cmp] (h : Holds m l) (hk : k ∉ l.map Prod.fst) :
    Holds (m.insert k v) l := by
  intro e he
  have hne : k ≠ e.1 := fun heq => hk (List.mem_map.2 ⟨e, he, heq.symm⟩)
  rw [getElem?_insert_of_ne m v hne, h e he]

theorem Holds.insert_cons [Std.LawfulEqCmp cmp] (h : Holds m l) (hk : k ∉ l.map Prod.fst) (v : β) :
    Holds (m.insert k v) ((k, v) :: l) :=
  List.forall_mem_cons.2 ⟨Std.ExtTreeMap.getElem?_insert_self, h.insert hk⟩

theorem Holds.of_subset {l' : List (κ × β)} (h : Holds m l) (hl : l' ⊆ l) : Holds m l' :=
  fun e he => h e (hl he)

theorem Lacks.of_subset {ks' : List κ} (h : Lacks m ks) (hks : ks' ⊆ ks) : Lacks m ks' :=
  fun k hk => h k (hks hk)

theorem Lacks.insert [Std.LawfulEqCmp cmp] (h : Lacks m ks) (hk : k ∉ ks) :
    Lacks (m.insert k v) ks := by
  intro k' hk'
  have hne : k ≠ k' := fun heq => hk (heq ▸ hk')
  rw [getElem?_insert_of_ne m v hne, h k' hk']

theorem Holds.union (m' : Std.ExtTreeMap κ β cmp) (h : Holds m l) : Holds (m' ∪ m) l := by
  intro e he
  rw [Std.ExtTreeMap.getElem?_union, h e he, Option.some_or]

theorem Lacks.union {m' : Std.ExtTreeMap κ β cmp} (h' : Lacks m' ks) (h : Lacks m ks) :
    Lacks (m' ∪ m) ks := by
  intro k hk
  rw [Std.ExtTreeMap.getElem?_union, h k hk, h' k hk, Option.none_or]

theorem toList_eq_singleton [Std.LawfulEqCmp cmp] :
    m.toList = [(k, v)] ↔ ∀ k' v', m[k']? = some v' ↔ k' = k ∧ v' = v := by
  have hmem : ∀ k' v', (k', v') ∈ m.toList ↔ m[k']? = some v' := fun k' v' =>
    Std.ExtTreeMap.mem_toList_iff_getElem?_eq_some
  constructor
  · intro h k' v'
    rw [← hmem, h, List.mem_singleton, Prod.mk.injEq]
  · intro h
    have hdistinct := Std.ExtTreeMap.distinct_keys_toList (t := m)
    have hall : ∀ e ∈ m.toList, e = (k, v) := fun e he => by
      obtain ⟨hk, hv⟩ := (h e.1 e.2).1 ((hmem e.1 e.2).1 he)
      exact Prod.ext hk hv
    have hin : (k, v) ∈ m.toList := (hmem k v).2 ((h k v).2 ⟨rfl, rfl⟩)
    rcases hl : m.toList with _ | ⟨a, l⟩
    · rw [hl] at hin
      cases hin
    · rw [hl] at hall hdistinct
      obtain rfl := hall a List.mem_cons_self
      rcases l with _ | ⟨b, l⟩
      · rfl
      · obtain rfl := hall b (List.mem_cons_of_mem _ List.mem_cons_self)
        have hne := (List.pairwise_cons.1 hdistinct).1 _ List.mem_cons_self
        exact absurd Std.ReflCmp.compare_self hne

end

/-! ### Filling a map -/

def addEntry (key : α → Option κ) (add : Option β → α → β) (m : Std.ExtTreeMap κ β cmp) (a : α) :
    Std.ExtTreeMap κ β cmp :=
  match key a with
  | some k => m.alter k fun old => some (add old a)
  | none => m

def entries (cmp : κ → κ → Ordering) [Std.TransCmp cmp] (key : α → Option κ)
    (add : Option β → α → β) (l : List α) : Std.ExtTreeMap κ β cmp :=
  l.foldl (addEntry key add) ∅

variable [Std.LawfulEqCmp cmp] [DecidableEq κ]

theorem getElem?_addEntry (key : α → Option κ) (add : Option β → α → β)
    (m : Std.ExtTreeMap κ β cmp) (a : α) (k : κ) :
    (addEntry key add m a)[k]? = if key a = some k then some (add m[k]? a) else m[k]? := by
  unfold addEntry
  split
  · next k' hk =>
    rw [Std.ExtTreeMap.getElem?_alter, hk]
    by_cases h : k' = k
    · rw [if_pos (Std.LawfulEqCmp.compare_eq_iff_eq.2 h), if_pos (congrArg some h), h]
    · rw [if_neg (mt Std.LawfulEqCmp.compare_eq_iff_eq.1 h), if_neg (mt Option.some.inj h)]
  · next hk =>
    rw [hk, if_neg (by simp)]

theorem getElem?_foldl_addEntry (key : α → Option κ) (add : Option β → α → β) (k : κ) :
    ∀ (l : List α) (m : Std.ExtTreeMap κ β cmp), (l.foldl (addEntry key add) m)[k]? =
      (l.filter fun a => key a = some k).foldl (fun old a => some (add old a)) m[k]?
  | [], m => rfl
  | a :: l, m => by
    rw [List.foldl_cons, getElem?_foldl_addEntry key add k l, getElem?_addEntry]
    by_cases h : key a = some k
    · rw [if_pos h, List.filter_cons_of_pos (by simpa using h), List.foldl_cons]
    · rw [if_neg h, List.filter_cons_of_neg (by simpa using h)]

theorem getElem?_entries (key : α → Option κ) (add : Option β → α → β) (l : List α) (k : κ) :
    (entries cmp key add l)[k]? =
      (l.filter fun a => key a = some k).foldl (fun old a => some (add old a)) none := by
  rw [entries, getElem?_foldl_addEntry, Std.ExtTreeMap.getElem?_empty]

/-! ### Counting -/

/-- How many elements have each key. -/
def counts (cmp : κ → κ → Ordering) [Std.TransCmp cmp] (key : α → Option κ) (l : List α) :
    Std.ExtTreeMap κ Nat cmp :=
  entries cmp key (fun old _ => old.getD 0 + 1) l

theorem foldl_count : ∀ (l : List α) (n : Option Nat),
    (l.foldl (fun (old : Option Nat) _ => some (old.getD 0 + 1)) n).getD 0 = n.getD 0 + l.length
  | [], _ => rfl
  | a :: l, n => by
    rw [List.foldl_cons, foldl_count l, Option.getD_some, List.length_cons]
    omega

theorem getD_counts (key : α → Option κ) (l : List α) (k : κ) :
    ((counts cmp key l)[k]?).getD 0 = (l.filter fun a => key a = some k).length := by
  rw [counts, getElem?_entries, foldl_count, Option.getD_none, Nat.zero_add]

end Agentbox.Lib.Entries
