import Agentbox.Lib.Interleaving

/-! # Rely and guarantee

Threads that each give a guarantee for their calls, and that each rely on what the calls of the
others then do to the shared state. A thread is verified alone, against a machine on which others
act after each of its calls as it relies on, and the verified threads are right in every
interleaving. -/

namespace Agentbox.Lib.RelyGuarantee

open Agentbox.Lib.Program Agentbox.Lib.Transition Agentbox.Lib.Interleaving

variable {S : Sig} {ε α ι σ : Type}

/-- The machine of a thread beside others that act as `R` says. -/
def relying (M : Machine S σ) (R : σ → σ → Prop) : Machine S σ where
  step s o r s' := ∃ s1, M.step s o r s1 ∧ R s1 s'

/-- What is left of a program keeps the guarantee, whatever others do before it goes on. -/
def Stands (M : Machine S σ) (R : σ → σ → Prop) (G : σ → S.Op → Prop) (s : σ) (p : Prog S ε α) :
    Prop :=
  ∀ s', R s s' → wp (relying M R) G p (fun _ _ => True) s'

/-- What the threads rely on is what the others guarantee. -/
structure Compatible (M : ι → Machine S σ) (I : σ → Prop) (R : ι → σ → σ → Prop)
    (G : ι → σ → S.Op → Prop) : Prop where
  refl : ∀ i s, I s → R i s s
  trans : ∀ i s s' s'', R i s s' → R i s' s'' → R i s s''
  own : ∀ i s o r s', I s → G i s o → (M i).step s o r s' → I s'
  other : ∀ i j s o r s', i ≠ j → I s → G i s o → (M i).step s o r s' → R j s s'

/-- A thread that sees a part of the shared state may be verified on that part. -/
theorem wp_of_view {τ : Type} {M : Machine S σ} {N : Machine S τ} {Φ : σ → S.Op → Prop}
    {Ψ : τ → S.Op → Prop} (view : σ → τ)
    (hM : ∀ s o r s', M.step s o r s' → N.step (view s) o r (view s'))
    (hΦ : ∀ s o, Ψ (view s) o → Φ s o) {Q : Except ε α → τ → Prop} : ∀ {p : Prog S ε α} {s : σ},
      wp N Ψ p Q (view s) → wp M Φ p (fun r s => Q r (view s)) s
  | .done _, _, h => h
  | .fail _, _, h => h
  | .call _ _, _, h => ⟨hΦ _ _ h.1, fun _ _ hs => wp_of_view view hM hΦ (h.2 _ _ (hM _ _ _ _ hs))⟩

variable [DecidableEq ι] {M : ι → Machine S σ} {I : σ → Prop} {R : ι → σ → σ → Prop}
  {G : ι → σ → S.Op → Prop} {Init : σ → Prop} {Starts : ι → Prog S ε α → Prop}

/-- **The parallel rule.** -/
theorem Compatible.stands_of_reachable (hc : Compatible M I R G) (hinit : ∀ s, Init s → I s)
    (hstart : ∀ i s p, Init s → Starts i p → Stands (M i) (R i) (G i) s p)
    {t : Threads S ε α ι σ} (h : Reachable (interleaving M Init Starts) t) :
    I t.shared ∧ ∀ i, Stands (M i) (R i) (G i) t.shared (t.thread i) := by
  refine h.invariant
    (I := fun t => I t.shared ∧ ∀ i, Stands (M i) (R i) (G i) t.shared (t.thread i))
    (fun t ht => ⟨hinit _ ht.1, fun i => hstart i _ _ ht.1 (ht.2 i)⟩) fun t c t' ht hstep => ?_
  obtain ⟨k, hcall, hM, hthread⟩ := hstep
  have hwho := ht.2 c.who _ (hc.refl _ _ ht.1)
  rw [hcall] at hwho
  obtain ⟨hG, hk⟩ := hwho
  refine ⟨hc.own _ _ _ _ _ ht.1 hG hM, fun j => ?_⟩
  rw [hthread, Function.update_apply]
  split_ifs with hj
  · subst hj
    exact fun s' hR => hk _ _ ⟨_, hM, hR⟩
  · exact fun s' hR => ht.2 j _ (hc.trans _ _ _ _
      (hc.other _ _ _ _ _ _ (Ne.symm hj) ht.1 hG hM) hR)

/-- Every call of every thread keeps the guarantee. -/
theorem Compatible.guarantee_of_reachable (hc : Compatible M I R G) (hinit : ∀ s, Init s → I s)
    (hstart : ∀ i s p, Init s → Starts i p → Stands (M i) (R i) (G i) s p)
    {t : Threads S ε α ι σ} (h : Reachable (interleaving M Init Starts) t) {i : ι} {o : S.Op}
    {k : S.Ret o → Prog S ε α} (hcall : t.thread i = .call o k) : G i t.shared o := by
  obtain ⟨hI, hstands⟩ := hc.stands_of_reachable hinit hstart h
  have hwp := hstands i _ (hc.refl _ _ hI)
  rw [hcall] at hwp
  exact hwp.1

end Agentbox.Lib.RelyGuarantee
