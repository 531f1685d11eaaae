import Mathlib.Data.List.TakeWhile

/-! # Prefix codes

A code for a set of values by words is a prefix code when a word that begins with the code of one of
them tells which one it is and where its code ends. A sequence of such codes is then read in one way
only.

* `terminated`: a word without the separator, followed by the separator.
* `sized`: words of one length.
* `pair`: a code followed by a code that may depend on what came before.
* `flatMap_injective`: a list of values from its codes, none of which is empty. -/

namespace Agentbox.Lib.PrefixCode

variable {α β γ : Type}

/-- A code of a value of `P` at the start of a word determines the value and the rest. -/
def IsPrefixCode (P : α → Prop) (code : α → List β) : Prop :=
  ∀ ⦃a b : α⦄ ⦃r s : List β⦄, P a → P b → code a ++ r = code b ++ s → a = b ∧ r = s

theorem IsPrefixCode.mono {P Q : α → Prop} {code : α → List β} (h : IsPrefixCode Q code)
    (hPQ : ∀ a, P a → Q a) : IsPrefixCode P code :=
  fun a b _ _ ha hb heq => h (hPQ a ha) (hPQ b hb) heq

/-- Values that an injective function takes to values with a prefix code. -/
theorem IsPrefixCode.comp {P : γ → Prop} {code : γ → List β} (h : IsPrefixCode P code)
    {f : α → γ} (hf : Function.Injective f) :
    IsPrefixCode (fun a => P (f a)) (fun a => code (f a)) := by
  intro a b r s ha hb heq
  obtain ⟨hval, hrest⟩ := h ha hb heq
  exact ⟨hf hval, hrest⟩

/-- The words without a separator, each followed by one. -/
theorem terminated (sep : β) : IsPrefixCode (fun p : List β => sep ∉ p) (· ++ [sep]) := by
  intro p q
  induction p generalizing q with
  | nil =>
    intro r s _ hq heq
    cases q with
    | nil => exact ⟨rfl, by simpa using heq⟩
    | cons y q =>
      have hsep : sep = y := by simpa using congrArg List.head? heq
      exact absurd (hsep ▸ List.mem_cons_self) hq
  | cons x p ih =>
    intro r s hp hq heq
    cases q with
    | nil =>
      have hsep : x = sep := by simpa using congrArg List.head? heq
      exact absurd (hsep ▸ List.mem_cons_self) hp
    | cons y q =>
      simp only [List.cons_append, List.cons.injEq] at heq
      obtain ⟨hxy, hrest⟩ := heq
      obtain ⟨hpq, hrs⟩ := ih (fun h => hp (List.mem_cons_of_mem _ h))
        (fun h => hq (List.mem_cons_of_mem _ h)) hrest
      exact ⟨by rw [hxy, hpq], hrs⟩

/-- The words of one length, as they are. -/
theorem sized (n : Nat) : IsPrefixCode (fun p : List β => p.length = n) id := by
  intro p q r s hp hq heq
  exact List.append_inj heq (hp.trans hq.symm)

/-- A code that is followed by a code whose values depend on what the first one says. -/
theorem IsPrefixCode.pair {P : α → Prop} {code : α → List β} (h : IsPrefixCode P code)
    {Q : α → γ → Prop} {next : γ → List β} (hnext : ∀ a, P a → IsPrefixCode (Q a) next) :
    IsPrefixCode (fun x : α × γ => P x.1 ∧ Q x.1 x.2) (fun x => code x.1 ++ next x.2) := by
  intro x y r s hx hy heq
  rw [List.append_assoc, List.append_assoc] at heq
  obtain ⟨hfst, hrest⟩ := h hx.1 hy.1 heq
  obtain ⟨hsnd, hrs⟩ := hnext x.1 hx.1 hx.2 (hfst ▸ hy.2) hrest
  exact ⟨Prod.ext hfst hsnd, hrs⟩

/-- **A list of values is determined by the word of their codes.** -/
theorem IsPrefixCode.flatMap_injective {P : α → Prop} {code : α → List β}
    (h : IsPrefixCode P code) (hne : ∀ a, code a ≠ []) :
    ∀ {l m : List α}, (∀ a ∈ l, P a) → (∀ b ∈ m, P b) →
      l.flatMap code = m.flatMap code → l = m
  | [], [], _, _, _ => rfl
  | [], b :: m, _, _, heq => by
    have hnil : code b = [] := (List.append_eq_nil_iff.1 heq.symm).1
    exact absurd hnil (hne b)
  | a :: l, [], _, _, heq => by
    have hnil : code a = [] := (List.append_eq_nil_iff.1 heq).1
    exact absurd hnil (hne a)
  | a :: l, b :: m, hl, hm, heq => by
    rw [List.flatMap_cons, List.flatMap_cons] at heq
    obtain ⟨hab, hrest⟩ := h (hl a List.mem_cons_self) (hm b List.mem_cons_self) heq
    have ih := h.flatMap_injective hne (fun c hc => hl c (List.mem_cons_of_mem a hc))
      (fun c hc => hm c (List.mem_cons_of_mem b hc)) hrest
    rw [hab, ih]

end Agentbox.Lib.PrefixCode
