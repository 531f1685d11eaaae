import Mathlib.Data.List.Basic

/-! # First occurrences

The loop that pushes each item a set of seen items does not have yet leaves the first occurrence of
every item, in the order of the list. -/

namespace Agentbox.Lib.FirstOccurrences

variable {α : Type} [DecidableEq α]

/-- The items of a list that are not among those seen before. -/
def pushNew : List α → List α → List α
  | _, [] => []
  | seen, a :: l => if a ∈ seen then pushNew seen l else a :: pushNew (a :: seen) l

theorem pushNew_eq_filter : ∀ seen l : List α,
    pushNew seen l = (l.filter fun a => a ∉ seen).eraseDups
  | _, [] => rfl
  | seen, a :: l => by
    rw [pushNew]
    split_ifs with h
    · rw [pushNew_eq_filter seen l, List.filter_cons_of_neg (by simpa using h)]
    · rw [pushNew_eq_filter (a :: seen) l, List.filter_cons_of_pos (by simpa using h),
        List.eraseDups_cons, List.filter_filter]
      congr 3
      funext b
      by_cases hb : b = a <;> simp [hb]

theorem pushNew_nil (l : List α) : pushNew [] l = l.eraseDups := by
  rw [pushNew_eq_filter]
  simp

/-- Each item is left once. -/
theorem nodup_pushNew : ∀ seen l : List α, (pushNew seen l).Nodup ∧ ∀ a ∈ pushNew seen l, a ∉ seen
  | _, [] => by simp [pushNew]
  | seen, a :: l => by
    rw [pushNew]
    split_ifs with h
    · exact nodup_pushNew seen l
    · obtain ⟨h1, h2⟩ := nodup_pushNew (a :: seen) l
      refine ⟨List.nodup_cons.2 ⟨fun hmem => h2 a hmem (List.mem_cons_self ..), h1⟩, fun b hb => ?_⟩
      rcases List.mem_cons.1 hb with rfl | hb
      · exact h
      · exact fun hseen => h2 b hb (List.mem_cons_of_mem _ hseen)

theorem nodup_eraseDups (l : List α) : l.eraseDups.Nodup := by
  rw [← pushNew_nil]
  exact (nodup_pushNew [] l).1

theorem eraseDups_filter (p : α → Bool) : ∀ l : List α,
    (l.filter p).eraseDups = l.eraseDups.filter p
  | [] => rfl
  | a :: l => by
    have ih := eraseDups_filter p (l.filter fun b => !b == a)
    have hswap : (l.filter p).filter (fun b => !b == a) = (l.filter fun b => !b == a).filter p := by
      rw [List.filter_filter, List.filter_filter]
      exact List.filter_congr fun b _ => Bool.and_comm _ _
    rw [List.eraseDups_cons, List.filter_cons, List.filter_cons]
    by_cases hp : p a = true
    · rw [if_pos hp, if_pos hp, List.eraseDups_cons, hswap, ih]
    · have hall : (l.filter p).filter (fun b => !b == a) = l.filter p := by
        refine List.filter_eq_self.2 fun b hb => ?_
        have hne : b ≠ a := fun heq => hp (heq ▸ (List.mem_filter.1 hb).2)
        simp [hne]
      rw [if_neg hp, if_neg hp, ← ih, ← hswap, hall]
termination_by l => l.length
decreasing_by exact Nat.lt_succ_of_le (List.length_filter_le _ _)

/-- Items put in front of a list change nothing exactly when they are its first ones anyway. -/
theorem eraseDups_append_eq_iff (l l' : List α) :
    (l ++ l').eraseDups = l'.eraseDups ↔ l.eraseDups <+: l'.eraseDups := by
  rw [List.eraseDups_append]
  constructor
  · intro h
    exact ⟨_, h⟩
  · rintro ⟨rest, hrest⟩
    have hnodup : (l.eraseDups ++ rest).Nodup := hrest ▸ nodup_eraseDups l'
    have hfirst : l.eraseDups.filter (fun a => !l.elem a) = [] := by
      refine List.filter_eq_nil_iff.2 fun a ha => ?_
      simpa using List.mem_eraseDups.1 ha
    have hothers : rest.filter (fun a => !l.elem a) = rest := by
      refine List.filter_eq_self.2 fun a ha => ?_
      have hno : a ∉ l := fun hl =>
        (List.nodup_append.1 hnodup).2.2 a (List.mem_eraseDups.2 hl) a ha rfl
      simpa using hno
    rw [List.removeAll, eraseDups_filter, ← hrest, List.filter_append, hfirst, hothers,
      List.nil_append]

end Agentbox.Lib.FirstOccurrences
