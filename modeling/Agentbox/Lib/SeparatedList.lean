import Mathlib.Data.List.DropRight
import Mathlib.Data.List.Infix

/-! # Lists of fields in one word

A word whose fields are what stands between its separators. A field, or a run of fields, is found in
it by looking for the word of the run with a separator on each side, in the word with a separator on
each side.

* `occurs_iff`: that search finds exactly the runs of fields.
* `Before`: one run of fields that is met before a field is.
* `trimEnd_append_cons`: what is cut off at the end of a word stays within its last field. -/

namespace Agentbox.Lib.SeparatedList

variable {α : Type}

def pad (sep : α) (l : List α) : List α := sep :: (l ++ [sep])

/-- The fields of `e` stand one after another in `l`. -/
def Occurs (sep : α) (e l : List α) : Prop := pad sep e <:+: pad sep l

variable {sep : α}

theorem occurs_refl (l : List α) : Occurs sep l l := List.infix_refl _

/-- Where a run of fields is in the word. -/
theorem Occurs.exists_eq {e l : List α} (h : Occurs sep e l) :
    ∃ a b, l = a ++ e ++ b ∧ (b = [] ∨ ∃ b', b = sep :: b') ∧
      (a = [] ∨ ∃ a', a = a' ++ [sep]) := by
  obtain ⟨s, t, h⟩ := h
  have hleft : ∃ a, a ++ e ++ sep :: t = l ++ [sep] ∧ (a = [] ∨ ∃ a', a = a' ++ [sep]) := by
    cases s with
    | nil => exact ⟨[], by simpa [pad] using h, .inl rfl⟩
    | cons c s =>
      simp only [pad, List.cons_append, List.cons.injEq] at h
      exact ⟨s ++ [sep], by rw [← h.2]; simp, .inr ⟨s, rfl⟩⟩
  obtain ⟨a, ha, hstart⟩ := hleft
  rcases List.eq_nil_or_concat t with rfl | ⟨t', c, rfl⟩
  · refine ⟨a, [], ?_, .inl rfl, hstart⟩
    rw [List.append_nil]
    exact (List.append_inj' ha rfl).1.symm
  · refine ⟨a, sep :: t', ?_, .inr ⟨t', rfl⟩, hstart⟩
    have hcut : (a ++ e ++ sep :: t') ++ [c] = l ++ [sep] := by
      rw [← ha]
      simp
    exact (List.append_inj' hcut rfl).1.symm

/-! ### Words cut at their end -/

/-- The word without the elements of `p` that it ends with. -/
def trimEnd (p : α → Bool) (l : List α) : List α := l.rdropWhile p

theorem trimEnd_append_cons {p : α → Bool} {c : α} (hc : p c = false) (a b : List α) :
    trimEnd p (a ++ c :: b) = a ++ c :: trimEnd p b := by
  induction b using List.reverseRecOn with
  | nil => exact List.rdropWhile_concat_neg p a c (by simp [hc])
  | append_singleton b x ih =>
    by_cases hx : p x = true
    · have hlong : a ++ c :: (b ++ [x]) = (a ++ c :: b) ++ [x] := by simp
      rw [trimEnd, hlong, List.rdropWhile_concat_pos p _ x hx]
      rw [trimEnd] at ih
      rw [ih, trimEnd, trimEnd, List.rdropWhile_concat_pos p _ x hx]
    · have hlong : a ++ c :: (b ++ [x]) = (a ++ c :: b) ++ [x] := by simp
      rw [trimEnd, hlong, List.rdropWhile_concat_neg p _ x hx, trimEnd,
        List.rdropWhile_concat_neg p _ x hx, ← hlong]

theorem trimEnd_trimEnd (p : α → Bool) (l : List α) : trimEnd p (trimEnd p l) = trimEnd p l :=
  List.rdropWhile_idempotent p l

theorem trimEnd_concat {p : α → Bool} {c : α} (hc : p c = true) (l : List α) :
    trimEnd p (l ++ [c]) = trimEnd p l := List.rdropWhile_concat_pos p l c hc

theorem trimEnd_of_forall {p : α → Bool} {l : List α} (h : ∀ c ∈ l, p c = false) :
    trimEnd p l = l :=
  List.rdropWhile_eq_self_iff.2 fun hl => by simp [h _ (List.getLast_mem hl)]

theorem intercalate_append {x y : List (List α)} (hx : x ≠ []) (hy : y ≠ []) :
    [sep].intercalate (x ++ y) = [sep].intercalate x ++ sep :: [sep].intercalate y := by
  obtain ⟨c, y, rfl⟩ := List.exists_cons_of_ne_nil hy
  induction x with
  | nil => exact absurd rfl hx
  | cons a x ih =>
    cases x with
    | nil => simp [List.intercalate]
    | cons b x =>
      have ih := ih (List.cons_ne_nil b x)
      simp only [List.intercalate, List.cons_append, List.intersperse_cons_cons,
        List.flatten_cons] at ih ⊢
      rw [ih]
      simp

/-! ### Fields -/

variable [DecidableEq α]

instance (sep : α) (e l : List α) : Decidable (Occurs sep e l) := by
  unfold Occurs
  infer_instance

def fields (sep : α) (l : List α) : List (List α) := l.splitOn sep

theorem fields_ne_nil (l : List α) : fields sep l ≠ [] := List.splitOn_ne_nil sep l

theorem fields_append_cons (a b : List α) : fields sep (a ++ sep :: b) = fields sep a ++ fields sep b :=
  List.splitOn_append_cons_self a b

theorem fields_of_not_mem {l : List α} (h : sep ∉ l) : fields sep l = [l] :=
  List.splitOn_eq_singleton h

theorem fields_nil : fields sep ([] : List α) = [[]] := rfl

theorem fields_pad (l : List α) : fields sep (pad sep l) = [] :: (fields sep l ++ [[]]) := by
  have hsplit : fields sep ([] ++ sep :: (l ++ sep :: [])) =
      fields sep [] ++ fields sep (l ++ sep :: []) := fields_append_cons [] (l ++ sep :: [])
  rw [fields_append_cons l [], fields_nil] at hsplit
  exact hsplit

/-- **A padded search finds the runs of fields.** -/
theorem occurs_iff {e l : List α} : Occurs sep e l ↔ fields sep e <:+: fields sep l := by
  constructor
  · rintro ⟨s, t, h⟩
    have hword : s ++ sep :: (e ++ sep :: t) = pad sep l := by
      rw [← h]
      simp [pad]
    have hfields := congrArg (fields sep) hword
    rw [fields_append_cons, fields_append_cons, fields_pad] at hfields
    obtain ⟨a, s', hs⟩ := List.exists_cons_of_ne_nil (show fields sep s ≠ [] from fields_ne_nil s)
    obtain ⟨t', b, ht⟩ := (List.eq_nil_or_concat (fields sep t)).resolve_left (fields_ne_nil t)
    rw [hs, ht, List.cons_append, List.cons.injEq] at hfields
    have hrest : (s' ++ fields sep e ++ t') ++ [b] = fields sep l ++ [[]] := by
      rw [← hfields.2]
      simp
    exact ⟨s', t', (List.append_inj' hrest rfl).1⟩
  · rintro ⟨s, t, h⟩
    have hword : pad sep l = [sep].intercalate (([] :: s) ++ (fields sep e ++ (t ++ [[]]))) := by
      have hjoin : [sep].intercalate (fields sep (pad sep l)) = pad sep l :=
        List.intercalate_splitOn sep
      have hpad : fields sep (pad sep l) = [] :: (fields sep l ++ [[]]) := fields_pad l
      rw [← h] at hpad
      rw [← hjoin]
      simpa [fields] using congrArg (List.intercalate [sep]) hpad
    have hne : t ++ [[]] ≠ ([] : List (List α)) := by simp
    have hself : [sep].intercalate (fields sep e) = e := List.intercalate_splitOn sep
    rw [intercalate_append (by simp) (by simp [fields_ne_nil]),
      intercalate_append (fields_ne_nil e) hne, hself] at hword
    refine ⟨[sep].intercalate ([] :: s), [sep].intercalate (t ++ [[]]), ?_⟩
    rw [hword]
    simp [pad]

theorem occurs_iff_mem {e l : List α} (he : sep ∉ e) : Occurs sep e l ↔ e ∈ fields sep l := by
  rw [occurs_iff, fields_of_not_mem he, List.singleton_infix_iff]

theorem Occurs.append_cons {e l : List α} (h : Occurs sep e l) (a : List α) :
    Occurs sep e (a ++ sep :: l) := by
  rw [occurs_iff] at h ⊢
  rw [fields_append_cons]
  exact h.trans (List.suffix_append _ _).isInfix

theorem occurs_append_cons_self (e l : List α) : Occurs sep e (e ++ sep :: l) := by
  rw [occurs_iff, fields_append_cons]
  exact (List.prefix_append _ _).isInfix

/-! ### The order of the fields -/

/-- The run `p` is met in `l` before the field `d` is. -/
def Before (sep : α) (p d l : List α) : Prop :=
  ∃ x y, fields sep l = x ++ fields sep p ++ y ∧ d ∉ x ∧ d ∉ fields sep p

theorem before_append_cons_self {p d : List α} (hd : d ∉ fields sep p) (l : List α) :
    Before sep p d (p ++ sep :: l) :=
  ⟨[], fields sep l, by rw [fields_append_cons, List.nil_append], List.not_mem_nil, hd⟩

theorem not_before_cons {p d : List α} (hd : sep ∉ d) (l : List α) :
    ¬ Before sep p d (d ++ sep :: l) := by
  rintro ⟨x, y, h, hx, hp⟩
  rw [fields_append_cons, fields_of_not_mem hd] at h
  have hmem : d ∈ x ++ fields sep p := by
    cases x with
    | nil =>
      obtain ⟨f, fs, hf⟩ := List.exists_cons_of_ne_nil (show fields sep p ≠ [] from fields_ne_nil p)
      rw [hf, List.nil_append, List.cons_append, List.cons_append, List.cons.injEq] at h
      rw [hf, h.1, List.nil_append]
      exact List.mem_cons_self
    | cons c x =>
      have hc : d = c := by simpa using congrArg List.head? h
      rw [hc]
      exact List.mem_cons_self
  rcases List.mem_append.1 hmem with h | h
  · exact hx h
  · exact hp h

/-- A field without such elements stays where it is. -/
theorem Occurs.trimEnd {p : α → Bool} (hsep : p sep = false) {e l : List α} (he : e ≠ [])
    (hall : ∀ c ∈ e, p c = false) (h : Occurs sep e l) : Occurs sep e (trimEnd p l) := by
  obtain ⟨a, b, rfl, hb, ha⟩ := h.exists_eq
  obtain ⟨e', c, rfl⟩ := (List.eq_nil_or_concat e).resolve_left he
  rw [List.concat_eq_append] at hall ⊢
  have hc : p c = false := hall c (by simp)
  have hcut : SeparatedList.trimEnd p (a ++ (e' ++ [c]) ++ b) =
      a ++ (e' ++ [c]) ++ SeparatedList.trimEnd p b := by
    have hlong := trimEnd_append_cons hc (a ++ e') b
    simpa using hlong
  have htail : ∃ b', SeparatedList.trimEnd p b = [] ∨ SeparatedList.trimEnd p b = sep :: b' := by
    rcases hb with rfl | ⟨b', rfl⟩
    · exact ⟨[], .inl rfl⟩
    · exact ⟨SeparatedList.trimEnd p b', .inr (trimEnd_append_cons hsep [] b')⟩
  have hfirst : Occurs sep (e' ++ [c]) (e' ++ [c] ++ SeparatedList.trimEnd p b) := by
    obtain ⟨b', hb' | hb'⟩ := htail
    · rw [hb', List.append_nil]
      exact occurs_refl _
    · rw [hb']
      exact occurs_append_cons_self _ b'
  rw [hcut, List.append_assoc a]
  rcases ha with rfl | ⟨a', rfl⟩
  · exact hfirst
  · have hlater := hfirst.append_cons a'
    simpa using hlater

end Agentbox.Lib.SeparatedList
