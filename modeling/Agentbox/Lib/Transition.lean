import Mathlib.Tactic

/-! # Labelled transition systems

Systems given by initial states and labelled steps, their reachable states, and the induction rule
for invariants. `restrict` keeps the steps that meet a condition on the label and the state before
the step; a result about the restricted system is a result about the runs all of whose steps meet
the condition. `replay` runs a list of labels through an executable step function. -/

namespace Agentbox.Lib.Transition

variable {σ α : Type}

/-- A labelled transition system. -/
structure System (σ α : Type) where
  init : σ → Prop
  step : σ → α → σ → Prop

/-- The states that a run of the system can be in. -/
inductive Reachable (S : System σ α) : σ → Prop
  | init {s : σ} (h : S.init s) : Reachable S s
  | step {s s' : σ} {a : α} (h : Reachable S s) (hs : S.step s a s') : Reachable S s'

/-- **The invariant rule.** What holds at the start and is kept by every step holds throughout. -/
theorem Reachable.invariant {S : System σ α} {I : σ → Prop} {s : σ} (h : Reachable S s)
    (h0 : ∀ s, S.init s → I s) (hstep : ∀ s a s', I s → S.step s a s' → I s') : I s := by
  induction h with
  | init h => exact h0 _ h
  | step _ hs ih => exact hstep _ _ _ ih hs

/-- The steps of `S` that meet the condition `C` in the state before them. -/
def System.restrict (S : System σ α) (C : σ → α → Prop) : System σ α where
  init := S.init
  step s a s' := C s a ∧ S.step s a s'

theorem Reachable.of_restrict {S : System σ α} {C : σ → α → Prop} {s : σ}
    (h : Reachable (S.restrict C) s) : Reachable S s := by
  induction h with
  | init h => exact .init h
  | step _ hs ih => exact .step ih hs.2

theorem Reachable.restrict {S : System σ α} {C : σ → α → Prop} {s : σ} (hC : ∀ s a, C s a)
    (h : Reachable S s) : Reachable (S.restrict C) s := by
  induction h with
  | init h => exact .init h
  | step _ hs ih => exact .step ih ⟨hC _ _, hs⟩

/-- Some steps of the system, one after the other. -/
inductive System.Steps (S : System σ α) : σ → σ → Prop
  | refl (s : σ) : Steps S s s
  | tail {s s' s'' : σ} {a : α} (h : Steps S s s') (hs : S.step s' a s'') : Steps S s s''

/-! ### Executable steps -/

/-- The system of an initial state and a partial step function. -/
def System.ofStep (s0 : σ) (f : σ → α → Option σ) : System σ α where
  init s := s = s0
  step s a s' := f s a = some s'

/-- The run of a list of labels, if every one of them is enabled. -/
def replay (f : σ → α → Option σ) : σ → List α → Option σ
  | s, [] => some s
  | s, a :: l => (f s a).bind fun s' => replay f s' l

theorem replay_append (f : σ → α → Option σ) : ∀ (l l' : List α) (s : σ),
    replay f s (l ++ l') = (replay f s l).bind fun s' => replay f s' l'
  | [], _, _ => rfl
  | a :: l, l', s => by
    simp only [List.cons_append, replay]
    cases f s a with
    | none => rfl
    | some s1 => simpa using replay_append f l l' s1

theorem steps_of_replay {s0 : σ} {f : σ → α → Option σ} {s : σ} : ∀ (l : List α) {s1 s2 : σ},
    (System.ofStep s0 f).Steps s s1 → replay f s1 l = some s2 → (System.ofStep s0 f).Steps s s2
  | [], s1, s2, h, hr => by
    simp only [replay, Option.some.injEq] at hr
    exact hr ▸ h
  | a :: l, s1, s2, h, hr => by
    simp only [replay, Option.bind_eq_some_iff] at hr
    obtain ⟨s3, h1, h2⟩ := hr
    exact steps_of_replay l (.tail h h1) h2

theorem reachable_of_replay {s0 : σ} {f : σ → α → Option σ} : ∀ (l : List α) {s s' : σ},
    Reachable (System.ofStep s0 f) s → replay f s l = some s' →
      Reachable (System.ofStep s0 f) s'
  | [], s, s', h, hr => by
    simp only [replay, Option.some.injEq] at hr
    exact hr ▸ h
  | a :: l, s, s', h, hr => by
    simp only [replay, Option.bind_eq_some_iff] at hr
    obtain ⟨s1, h1, h2⟩ := hr
    exact reachable_of_replay l (.step h h1) h2

/-- The labels of a list that all meet `C` where they are taken. -/
def Meets (f : σ → α → Option σ) (C : σ → α → Prop) : σ → List α → Prop
  | _, [] => True
  | s, a :: l => C s a ∧ ∀ s', f s a = some s' → Meets f C s' l

theorem Meets.cons {f : σ → α → Option σ} {C : σ → α → Prop} {s s1 : σ} {a : α} {l : List α}
    (hC : C s a) (hf : f s a = some s1) (hl : Meets f C s1 l) : Meets f C s (a :: l) :=
  ⟨hC, fun _ h => Option.some.inj (hf.symm.trans h) ▸ hl⟩

theorem Meets.mono {f : σ → α → Option σ} {C C' : σ → α → Prop} (hC : ∀ s a, C s a → C' s a) :
    ∀ (l : List α) {s : σ}, Meets f C s l → Meets f C' s l
  | [], _, _ => trivial
  | _ :: l, _, h => ⟨hC _ _ h.1, fun s' hs' => Meets.mono hC l (h.2 s' hs')⟩

instance decidableMeets (f : σ → α → Option σ) (C : σ → α → Prop) [∀ s a, Decidable (C s a)] :
    ∀ (s : σ) (l : List α), Decidable (Meets f C s l)
  | _, [] => isTrue trivial
  | s, a :: l =>
    match hf : f s a with
    | none => decidable_of_iff (C s a)
        ⟨fun h => ⟨h, fun _ hs => (nomatch hf.symm.trans hs)⟩, And.left⟩
    | some s1 =>
      have := decidableMeets f C s1 l
      decidable_of_iff (C s a ∧ Meets f C s1 l)
        ⟨fun h => .cons h.1 hf h.2, fun h => ⟨h.1, h.2 s1 hf⟩⟩

theorem reachable_restrict_of_replay {s0 : σ} {f : σ → α → Option σ} {C : σ → α → Prop} :
    ∀ (l : List α) {s s' : σ}, Reachable ((System.ofStep s0 f).restrict C) s → Meets f C s l →
      replay f s l = some s' → Reachable ((System.ofStep s0 f).restrict C) s'
  | [], s, s', h, _, hr => by
    simp only [replay, Option.some.injEq] at hr
    exact hr ▸ h
  | a :: l, s, s', h, hC, hr => by
    simp only [replay, Option.bind_eq_some_iff] at hr
    obtain ⟨s1, h1, h2⟩ := hr
    exact reachable_restrict_of_replay l (.step h ⟨hC.1, h1⟩) (hC.2 s1 h1) h2

end Agentbox.Lib.Transition
