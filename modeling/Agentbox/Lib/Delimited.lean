import Mathlib.Data.List.TakeWhile

/-! # Delimited texts

A text cut at a separator, and the reading of a text that holds one comma-separated record. Lines of
a record end with `\n` or `\r\n`, empty lines are skipped, a field that begins with a quote extends
to its closing quote, and a quote within any other field is an error. -/

namespace Agentbox.Lib.Delimited

def quote : Char := Char.ofNat 0x22

/-- The text before the first separator, and the text after it where there is one. -/
def cutAt (sep : Char) (l : List Char) : List Char × Option (List Char) :=
  match l.dropWhile (· ≠ sep) with
  | [] => (l, none)
  | _ :: r => (l.takeWhile (· ≠ sep), some r)

theorem cutAt_append {sep : Char} : ∀ {p : List Char}, sep ∉ p → ∀ r : List Char,
    cutAt sep (p ++ sep :: r) = (p, some r)
  | [], _, r => by simp [cutAt]
  | c :: p, h, r => by
    have hc : c ≠ sep := fun h' => h (by simp [h'])
    have ih := cutAt_append (fun hm => h (List.mem_cons_of_mem c hm)) r
    unfold cutAt at ih ⊢
    rw [List.cons_append, List.dropWhile_cons_of_pos (by simpa using hc),
      List.takeWhile_cons_of_pos (by simpa using hc)]
    split at ih
    · cases congrArg Prod.snd ih
    · rw [(Prod.mk.inj ih).1, (Prod.mk.inj ih).2]

theorem cutAt_of_not_mem {sep : Char} {l : List Char} (h : sep ∉ l) : cutAt sep l = (l, none) := by
  have hdrop : l.dropWhile (· ≠ sep) = [] := by
    rw [List.dropWhile_eq_nil_iff]
    intro c hc
    simpa using fun h' : c = sep => h (h' ▸ hc)
  unfold cutAt
  rw [hdrop]

theorem cutAt_fst (sep : Char) (l : List Char) : (cutAt sep l).1 = l.takeWhile (· ≠ sep) := by
  unfold cutAt
  split
  · next h => rw [List.takeWhile_eq_self_iff.2 (List.dropWhile_eq_nil_iff.1 h)]
  · rfl

/-- The text after the last separator, and the text before it where there is one. -/
def cutLastAt (sep : Char) (l : List Char) : List Char × Option (List Char) :=
  ((cutAt sep l.reverse).1.reverse, (cutAt sep l.reverse).2.map List.reverse)

theorem cutLastAt_append {sep : Char} {r : List Char} (h : sep ∉ r) (p : List Char) :
    cutLastAt sep (p ++ sep :: r) = (r, some p) := by
  have hrev : (p ++ sep :: r).reverse = r.reverse ++ sep :: p.reverse := by simp
  rw [cutLastAt, hrev, cutAt_append (by simpa using h)]
  simp only [List.reverse_reverse, Option.map_some]

theorem cutLastAt_of_not_mem {sep : Char} {l : List Char} (h : sep ∉ l) :
    cutLastAt sep l = (l, none) := by
  rw [cutLastAt, cutAt_of_not_mem (by simpa using h), List.reverse_reverse, Option.map_none]

theorem mem_of_mem_cutLastAt {sep c : Char} {l : List Char} (h : c ∈ (cutLastAt sep l).1) :
    c ∈ l := by
  rw [cutLastAt, List.mem_reverse, cutAt_fst] at h
  exact List.mem_reverse.1 ((List.takeWhile_prefix _).mem h)

/-! ### Records -/

/-- The text with the carriage return of `\r\n`, and one that ends the text, left out. -/
def lines : List Char → List Char
  | [] => []
  | c :: l => if c = '\r' ∧ (l = [] ∨ l.head? = some '\n') then lines l else c :: lines l

inductive Mode
  | start
  | bare
  | quoted
  | closed
  deriving DecidableEq

def endOfRecord (field l : List Char) : Option (List (List Char)) :=
  if l.all (· = '\n') then some [field] else none

/-- The fields of the record that `l` goes on with, `field` being what is read of its first one. -/
def scan : Mode → List Char → List Char → Option (List (List Char))
  | mode, field, [] => if mode = .quoted then none else some [field]
  | .quoted, field, c :: l =>
    if c = quote then scan .closed field l else scan .quoted (field ++ [c]) l
  | .closed, field, c :: l =>
    if c = quote then scan .quoted (field ++ [c]) l
    else if c = ',' then (scan .start [] l).map (field :: ·)
    else if c = '\n' then endOfRecord field l
    else none
  | mode, field, c :: l =>
    if c = ',' then (scan .start [] l).map (field :: ·)
    else if c = '\n' then endOfRecord field l
    else if c = quote then (if mode = .start then scan .quoted [] l else none)
    else scan .bare (field ++ [c]) l

/-- The one record of a text. -/
def record (text : List Char) : Option (List (List Char)) :=
  match (lines text).dropWhile (· = '\n') with
  | [] => none
  | c :: l => scan .start [] (c :: l)

/-! ### Fields without quotes -/

def isPlain (c : Char) : Bool := c ≠ ',' && c ≠ '\n' && c ≠ quote

theorem isPlain_iff {c : Char} : isPlain c = true ↔ c ≠ ',' ∧ c ≠ '\n' ∧ c ≠ quote := by
  simp [isPlain, and_assoc]

theorem scan_plain {mode : Mode} (hmode : mode = .start ∨ mode = .bare) {c : Char}
    (hc : isPlain c = true) (field l : List Char) :
    scan mode field (c :: l) = scan .bare (field ++ [c]) l := by
  obtain ⟨hcomma, hnewline, hquote⟩ := isPlain_iff.1 hc
  rcases hmode with rfl | rfl <;> simp only [scan, if_neg hcomma, if_neg hnewline, if_neg hquote]

theorem scan_comma {mode : Mode} (hmode : mode = .start ∨ mode = .bare) (field l : List Char) :
    scan mode field (',' :: l) = (scan .start [] l).map (field :: ·) := by
  rcases hmode with rfl | rfl <;> simp only [scan, ↓reduceIte]

/-- A plain text is read into the field it stands in. -/
theorem scan_append : ∀ (p : List Char), (∀ c ∈ p, isPlain c = true) → ∀ field l : List Char,
    scan .bare field (p ++ l) = scan .bare (field ++ p) l
  | [], _, field, l => by simp
  | c :: p, h, field, l => by
    have ih := scan_append p (fun d hd => h d (List.mem_cons_of_mem _ hd)) (field ++ [c]) l
    rw [List.cons_append, scan_plain (.inr rfl) (h c List.mem_cons_self), ih, List.append_assoc]
    rfl

theorem scan_start_append {c : Char} {p : List Char} (h : ∀ d ∈ c :: p, isPlain d = true)
    (l : List Char) : scan .start [] (c :: p ++ l) = scan .bare (c :: p) l := by
  rw [List.cons_append, scan_plain (.inl rfl) (h c List.mem_cons_self),
    scan_append p (fun d hd => h d (List.mem_cons_of_mem _ hd))]
  rfl

/-- A field that has begun without a quote only takes plain characters. -/
theorem scan_bare : ∀ (l field : List Char) {fs : List (List Char)},
    scan .bare field l = some fs →
    ∃ p rest, fs = (field ++ p) :: rest ∧ ∀ c ∈ p, isPlain c = true
  | [], field, fs, h => by
    have hfs : [field] = fs := by simpa [scan] using h
    exact ⟨[], [], by simp [← hfs], by simp⟩
  | c :: l, field, fs, h => by
    by_cases hc : isPlain c = true
    · rw [scan_plain (.inr rfl) hc] at h
      obtain ⟨p, rest, rfl, hp⟩ := scan_bare l (field ++ [c]) h
      refine ⟨c :: p, rest, by simp, ?_⟩
      intro d hd
      rcases List.mem_cons.1 hd with rfl | hd
      · exact hc
      · exact hp d hd
    · refine ⟨[], ?_⟩
      simp only [List.append_nil, List.not_mem_nil, false_implies, implies_true, and_true]
      simp only [scan, endOfRecord, reduceCtorEq, ↓reduceIte] at h
      split_ifs at h with hcomma hnewline hall hquote
      · obtain ⟨rest, -, rfl⟩ := Option.map_eq_some_iff.1 h
        exact ⟨rest, rfl⟩
      · exact ⟨[], (Option.some.inj h).symm⟩
      · exact absurd (isPlain_iff.2 ⟨hcomma, hnewline, hquote⟩) hc

/-! ### Lines -/

theorem lines_cons {c : Char} (hc : c ≠ '\r') (l : List Char) : lines (c :: l) = c :: lines l := by
  simp [lines, hc]

theorem lines_text : ∀ {p : List Char}, '\r' ∉ p → ∀ l : List Char, lines (p ++ l) = p ++ lines l
  | [], _, _ => rfl
  | c :: p, hp, l => by
    have hc : c ≠ '\r' := fun h => hp (by simp [h])
    rw [List.cons_append, lines_cons hc, lines_text (fun h => hp (List.mem_cons_of_mem _ h)),
      List.cons_append]

/-- Within a line nothing is left out. -/
theorem lines_append : ∀ (p : List Char) {c : Char} (l : List Char), '\n' ∉ p → c ≠ '\n' →
    lines (p ++ c :: l) = p ++ lines (c :: l)
  | [], _, _, _, _ => rfl
  | d :: p, c, l, hp, hc => by
    have ih := lines_append p l (fun h => hp (List.mem_cons_of_mem _ h)) hc
    have hkeep : ¬ (d = '\r' ∧ (p ++ c :: l = [] ∨ (p ++ c :: l).head? = some '\n')) := by
      rintro ⟨-, h | h⟩
      · simp at h
      · cases p with
        | nil => simp [hc] at h
        | cons e p =>
          have he : e = '\n' := by simpa using h
          exact hp (by simp [he])
    rw [List.cons_append, lines, if_neg hkeep, ih, List.cons_append]

theorem lines_of_getLast {p : List Char} (hp : '\n' ∉ p) (hlast : p.getLast? ≠ some '\r') :
    lines p = p := by
  rcases List.eq_nil_or_concat p with rfl | ⟨q, c, rfl⟩
  · rfl
  · have hc : c ≠ '\r' := by simpa using hlast
    rw [List.concat_eq_append] at hp ⊢
    have hq : '\n' ∉ q := fun h => hp (List.mem_append_left _ h)
    have hn : c ≠ '\n' := fun h => hp (by simp [h])
    rw [lines_append q [] hq hn, lines_cons hc]
    rfl

theorem record_of_lines {text : List Char} {c : Char} {l : List Char} (h : lines text = c :: l)
    (hc : c ≠ '\n') : record text = scan .start [] (c :: l) := by
  unfold record
  rw [h, List.dropWhile_cons_of_neg (by simpa using hc)]

theorem lines_concat_return {p : List Char} (hp : '\n' ∉ p) : lines (p ++ ['\r']) = p := by
  rw [lines_append p [] hp (by decide)]
  simp [lines]

end Agentbox.Lib.Delimited
