import Agentbox.Base.Text
import Agentbox.Lib.SeparatedList

/-! # Trimmed text

What `str::trim` leaves of a text, and the first word of a text that does not begin with a blank. -/

namespace Agentbox.Base.Trim

open Agentbox.Base.Text Agentbox.Lib.SeparatedList

theorem toList_trim (s : String) :
    (trim s).toList = trimEnd isWhitespace (s.toList.dropWhile isWhitespace) := by
  rw [trim, String.toList_ofList]
  rfl

/-- Only the end is cut off a text that begins with anything but a blank. -/
theorem toList_trim_of_head {s : String} {c : Char} (hc : s.toList.head? = some c)
    (hw : isWhitespace c = false) : (trim s).toList = trimEnd isWhitespace s.toList := by
  obtain ⟨l, hl⟩ := List.head?_eq_some_iff.1 hc
  rw [toList_trim, hl, List.dropWhile_cons_of_neg (by simp [hw])]

theorem head_trim {s : String} {c : Char} (h : (trim s).toList.head? = some c) :
    isWhitespace c = false := by
  have hne : s.toList.dropWhile isWhitespace ≠ [] := by
    intro hnil
    rw [toList_trim, hnil] at h
    cases h
  have hfirst := List.head_dropWhile_not isWhitespace hne
  obtain ⟨d, l, hl⟩ := List.exists_cons_of_ne_nil hne
  simp only [hl, List.head_cons] at hfirst
  rw [toList_trim, hl] at h
  have hcut := trimEnd_append_cons hfirst [] l
  rw [List.nil_append, List.nil_append] at hcut
  rw [hcut, List.head?_cons, Option.some.injEq] at h
  exact h ▸ hfirst

theorem splitOnP_head? (p : Char → Bool) : ∀ l : List Char,
    (l.splitOnP p).head? = some (l.takeWhile fun c => !p c)
  | [] => rfl
  | c :: l => by
    have ih := splitOnP_head? p l
    rw [List.splitOnP_cons_eq_if_modifyHead]
    cases hc : p c with
    | true => simp [hc]
    | false =>
      obtain ⟨w, ws, hw⟩ := List.exists_cons_of_ne_nil (List.splitOnP_ne_nil p l)
      rw [hw, List.head?_cons, Option.some.injEq] at ih
      simp [hc, hw, ih]

/-- `split_whitespace().next()`. -/
theorem firstWord {l : List Char} {c : Char} (hc : l.head? = some c) (hw : isWhitespace c = false) :
    ∃ ws, (l.splitOnP isWhitespace).filter (· ≠ []) =
      (l.takeWhile fun c => !isWhitespace c) :: ws := by
  obtain ⟨w, ws, hsplit⟩ := List.exists_cons_of_ne_nil (List.splitOnP_ne_nil isWhitespace l)
  have hfirst := splitOnP_head? isWhitespace l
  rw [hsplit, List.head?_cons, Option.some.injEq] at hfirst
  obtain ⟨r, rfl⟩ := List.head?_eq_some_iff.1 hc
  have hne : w ≠ [] := by
    rw [hfirst, List.takeWhile_cons_of_pos (by simp [hw])]
    exact List.cons_ne_nil _ _
  exact ⟨ws.filter (· ≠ []), by rw [hsplit, List.filter_cons_of_pos (by simpa using hne), hfirst]⟩

/-- A word without a blank begins a text when it begins its first word. -/
theorem prefix_takeWhile_iff {q : Char → Bool} : ∀ {w l : List Char}, (∀ c ∈ w, q c = true) →
    (w <+: l.takeWhile q ↔ w <+: l)
  | [], l, _ => by simp
  | c :: w, [], _ => by simp
  | c :: w, d :: l, h => by
    have ih := prefix_takeWhile_iff (l := l) fun e he => h e (List.mem_cons_of_mem c he)
    cases hd : q d with
    | true => rw [List.takeWhile_cons_of_pos hd, List.cons_prefix_cons, List.cons_prefix_cons, ih]
    | false =>
      have hcd : c ≠ d := by
        rintro rfl
        have hc := h c List.mem_cons_self
        rw [hd] at hc
        cases hc
      rw [List.takeWhile_cons_of_neg (by simp [hd])]
      simp [List.cons_prefix_cons, hcd]

theorem startsWith_iff {s pre : String} : startsWith s pre = true ↔ pre.toList <+: s.toList := by
  rw [startsWith, List.isPrefixOf_iff_prefix]

end Agentbox.Base.Trim
