import Agentbox.Lib.Json

/-! # Nix string literals

The lexing of a double-quoted Nix string. A backslash escapes any character, an interpolation opens
at a dollar sign and a brace, and two dollar signs are taken together, so that the second one opens
nothing. A carriage return in the text, with the newline after it, stands for a newline. -/

namespace Agentbox.Lib.NixText

open Agentbox.Lib.Json (quote backslash escapeChar encodeString hexDigit shortEscape)

/-- The character an escape stands for. -/
def unescape (c : Char) : Char :=
  if c = 'n' then '\n' else if c = 'r' then '\r' else if c = 't' then '\t' else c

/-- The characters up to the closing quote, and the text after it. `dollar` tells that an unpaired
dollar sign has just been read. There are none where an interpolation opens. -/
def literalChars : Bool → List Char → Option (List Char × List Char)
  | _, [] => none
  | dollar, c :: l =>
    if c = quote then some ([], l)
    else if c = backslash then
      match l with
      | [] => none
      | e :: l => (literalChars false l).map fun (s, r) => (unescape e :: s, r)
    else if c = '{' ∧ dollar = true then none
    else if c = '\r' then
      if l.head? = some '\n' then literalChars false l
      else (literalChars false l).map fun (s, r) => ('\n' :: s, r)
    else (literalChars (c = '$' && !dollar) l).map fun (s, r) => (c :: s, r)

theorem literalChars_quote (dollar : Bool) (l : List Char) :
    literalChars dollar (quote :: l) = some ([], l) := by
  rw [literalChars.eq_def]
  simp only [↓reduceIte]

theorem literalChars_backslash (dollar : Bool) (e : Char) (l : List Char) :
    literalChars dollar (backslash :: e :: l) =
      (literalChars false l).map fun (s, r) => (unescape e :: s, r) := by
  rw [literalChars.eq_def]
  simp only [if_neg (show backslash ≠ quote by decide), ↓reduceIte]

theorem literalChars_open (l : List Char) : literalChars true ('{' :: l) = none := by
  rw [literalChars.eq_def]
  simp only [if_neg (show '{' ≠ quote by decide), if_neg (show '{' ≠ backslash by decide),
    and_self, ↓reduceIte]

theorem literalChars_plain {dollar : Bool} {c : Char} (hquote : c ≠ quote)
    (hbackslash : c ≠ backslash) (hopen : ¬ (c = '{' ∧ dollar = true)) (hreturn : c ≠ '\r')
    (l : List Char) :
    literalChars dollar (c :: l) =
      (literalChars (c = '$' && !dollar) l).map fun (s, r) => (c :: s, r) := by
  rw [literalChars.eq_def]
  simp only [if_neg hquote, if_neg hbackslash, if_neg hopen, if_neg hreturn]

/-- The value of the literal without interpolations at the head of a text, and what follows it. -/
def literal (l : List Char) : Option (String × List Char) :=
  match l with
  | [] => none
  | c :: l =>
    if c = quote then (literalChars false l).map fun (s, r) => (String.ofList s, r) else none

/-! ### JSON strings as literals -/

/-- The number of dollar signs a text ends with. -/
def dollars (a : List Char) : Nat := (a.reverse.takeWhile (· = '$')).length

/-- JSON writes the character in a way that Nix reads. -/
def IsNixChar (c : Char) : Prop := c.toNat < 0x20 → c = '\n' ∨ c = '\r' ∨ c = '\t'

instance (c : Char) : Decidable (IsNixChar c) := inferInstanceAs (Decidable (_ → _))

/-- The characters after `a` are read as themselves: each is one that Nix reads, and a brace comes
after an even number of dollar signs. -/
def IsNixText (a l : List Char) : Prop :=
  (∀ b r, l = b ++ '{' :: r → Even (dollars (a ++ b))) ∧ ∀ c ∈ l, IsNixChar c

theorem dollars_concat (a : List Char) (c : Char) :
    dollars (a ++ [c]) = if c = '$' then dollars a + 1 else 0 := by
  unfold dollars
  rw [List.reverse_append, List.reverse_singleton, List.singleton_append, List.takeWhile_cons]
  by_cases h : c = '$' <;> simp [h]

/-- Whether a dollar sign is unpaired, one character further. -/
theorem odd_dollars_concat (a : List Char) (c : Char) :
    decide (Odd (dollars (a ++ [c]))) = (c = '$' && !decide (Odd (dollars a))) := by
  rw [dollars_concat]
  by_cases h : c = '$'
  · by_cases ho : Odd (dollars a) <;> simp [h, ho, Nat.odd_add_one]
  · simp [h]

theorem isNixText_nil (a : List Char) : IsNixText a [] := by
  refine ⟨fun b r h => ?_, by simp⟩
  simp at h

theorem isNixText_cons {a l : List Char} {c : Char} :
    IsNixText a (c :: l) ↔
      (c = '{' → Even (dollars a)) ∧ IsNixChar c ∧ IsNixText (a ++ [c]) l := by
  constructor
  · rintro ⟨hbrace, hchar⟩
    refine ⟨fun hc => ?_, hchar c List.mem_cons_self, fun b r h => ?_,
      fun d hd => hchar d (List.mem_cons_of_mem _ hd)⟩
    · simpa using hbrace [] l (by simp [hc])
    · simpa using hbrace (c :: b) r (by simp [h])
  · rintro ⟨hc, hchar, hbrace, hl⟩
    refine ⟨fun b r h => ?_, fun d hd => ?_⟩
    · cases b with
      | nil => simpa using hc (List.cons.inj h).1
      | cons e b =>
        obtain ⟨rfl, hr⟩ := List.cons.inj h
        simpa using hbrace b r hr
    · rcases List.mem_cons.1 hd with rfl | hd
      · exact hchar
      · exact hl d hd

theorem unescape_of_shortEscape {c e : Char} (h : shortEscape c.toNat = some e) :
    (IsNixChar c ↔ unescape e = c) ∧ c ≠ '$' := by
  have hc : ∀ n, c.toNat = n → c = Char.ofNat n := fun n hn => by rw [← hn, Char.ofNat_toNat]
  unfold shortEscape at h
  split at h
  all_goals first
    | (next hn => rw [hc _ hn, ← Option.some.inj h]; decide)
    | cases h

theorem literalChars_escape {c : Char} (hc : IsNixChar c) {dollar : Bool}
    (hbrace : ¬ (c = '{' ∧ dollar = true)) (l : List Char) :
    literalChars dollar (escapeChar c ++ l) =
      (literalChars (c = '$' && !dollar) l).map fun (s, r) => (c :: s, r) := by
  unfold escapeChar
  split
  · next e he =>
    obtain ⟨hiff, hd⟩ := unescape_of_shortEscape he
    rw [List.cons_append, List.singleton_append, literalChars_backslash, hiff.1 hc]
    simp only [hd, decide_false, Bool.false_and]
  · next hshort =>
    have hne : ∀ d e : Char, shortEscape d.toNat = some e → c ≠ d := fun d e h hcd => by
      rw [hcd, h] at hshort
      cases hshort
    have hge : ¬ c.toNat < 0x20 := fun hlt => by
      rcases hc hlt with h | h | h
      · exact hne '\n' 'n' rfl h
      · exact hne '\r' 'r' rfl h
      · exact hne '\t' 't' rfl h
    rw [if_neg hge, List.singleton_append]
    exact literalChars_plain (hne _ quote rfl) (hne _ backslash rfl) hbrace (hne _ 'r' rfl) l

theorem literalChars_escape_of_not {c : Char} (hc : ¬ IsNixChar c) (dollar : Bool) (l : List Char) :
    ∃ e l', e ≠ c ∧ literalChars dollar (escapeChar c ++ l) =
      (literalChars false l').map fun (s, r) => (e :: s, r) := by
  have hlt : c.toNat < 0x20 := by
    by_contra hge
    exact hc (fun h => absurd h hge)
  unfold escapeChar
  split
  · next e he =>
    refine ⟨unescape e, l, fun h => hc ((unescape_of_shortEscape he).1.2 h), ?_⟩
    rw [List.cons_append, List.singleton_append, literalChars_backslash]
  · refine ⟨'u', '0' :: '0' :: hexDigit (c.toNat / 16) :: hexDigit (c.toNat % 16) :: l, ?_, ?_⟩
    · intro h
      rw [← h] at hlt
      revert hlt
      decide
    · rw [if_pos hlt, List.cons_append, List.cons_append, literalChars_backslash]
      rfl

/-- The characters after `a` are read back exactly when they are such a text. -/
theorem literalChars_flatMap_iff : ∀ (l a r r' : List Char),
    literalChars (Odd (dollars a)) (l.flatMap escapeChar ++ quote :: r) = some (l, r') ↔
      IsNixText a l ∧ r = r'
  | [], a, r, r' => by
    rw [List.flatMap_nil, List.nil_append, literalChars_quote]
    simp [isNixText_nil]
  | c :: l, a, r, r' => by
    have ih := literalChars_flatMap_iff l (a ++ [c]) r r'
    rw [List.flatMap_cons, List.append_assoc, isNixText_cons]
    by_cases hc : IsNixChar c
    · by_cases hbrace : c = '{' ∧ decide (Odd (dollars a)) = true
      · obtain ⟨rfl, hodd⟩ := hbrace
        have hopen : ¬ Even (dollars a) := by simpa using hodd
        have hnone : ∀ t, literalChars (Odd (dollars a)) (escapeChar '{' ++ t) = none := by
          intro t
          rw [hodd, show escapeChar '{' = ['{'] by decide, List.singleton_append]
          exact literalChars_open t
        rw [hnone]
        simp [hopen]
      · have heven : c = '{' → Even (dollars a) := fun h => by
          by_contra hne
          exact hbrace ⟨h, by simpa using hne⟩
        rw [odd_dollars_concat] at ih
        rw [literalChars_escape hc hbrace, Option.map_eq_some_iff]
        constructor
        · rintro ⟨⟨s, t⟩, hs, heq⟩
          obtain ⟨hsl, rfl⟩ := Prod.mk.inj heq
          obtain rfl := (List.cons.inj hsl).2
          obtain ⟨ht, hr⟩ := ih.1 hs
          exact ⟨⟨heven, hc, ht⟩, hr⟩
        · rintro ⟨⟨-, -, ht⟩, hr⟩
          exact ⟨(l, r'), ih.2 ⟨ht, hr⟩, rfl⟩
    · obtain ⟨e, l', hne, heq⟩ := literalChars_escape_of_not hc (Odd (dollars a))
        (l.flatMap escapeChar ++ quote :: r)
      rw [heq]
      constructor
      · intro h
        obtain ⟨⟨s, t⟩, -, hs⟩ := Option.map_eq_some_iff.1 h
        exact absurd (List.cons.inj (Prod.mk.inj hs).1).1 hne
      · rintro ⟨⟨-, hc', -⟩, -⟩
        exact absurd hc' hc

/-- A JSON string is the Nix literal of its value exactly when the value is a Nix text. -/
theorem literal_encodeString_iff (v : String) (r r' : List Char) :
    literal (encodeString v ++ r) = some (v, r') ↔ IsNixText [] v.toList ∧ r = r' := by
  have h := literalChars_flatMap_iff v.toList [] r r'
  rw [← h]
  have hlit : literal (encodeString v ++ r) =
      (literalChars false (v.toList.flatMap escapeChar ++ quote :: r)).map
        fun (s, r) => (String.ofList s, r) := by
    unfold literal encodeString
    simp
  have hodd : decide (Odd (dollars [])) = false := by decide
  rw [hlit, hodd, Option.map_eq_some_iff]
  constructor
  · rintro ⟨⟨s, t⟩, hs, heq⟩
    obtain ⟨hv, rfl⟩ := Prod.mk.inj heq
    rw [hs, ← hv, String.toList_ofList]
  · intro hs
    exact ⟨_, hs, by simp⟩

end Agentbox.Lib.NixText
