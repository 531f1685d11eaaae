import Agentbox.Lib.Program
import Agentbox.Lib.Transition

/-! # Interleaved programs

Threads that run programs on one shared state. A step is one call of one thread; what the call may
answer and do to the shared state depends on the thread that makes it. -/

namespace Agentbox.Lib.Interleaving

open Agentbox.Lib.Program Agentbox.Lib.Transition

/-- A shared state, and what each thread still has to do. -/
structure Threads (S : Sig) (ε α ι σ : Type) where
  shared : σ
  thread : ι → Prog S ε α

/-- A call, and the thread that makes it. -/
structure Call (S : Sig) (ι : Type) where
  who : ι
  op : S.Op
  ret : S.Ret op

variable {S : Sig} {ε α ι σ : Type} [DecidableEq ι]

/-- The interleavings of threads that start with `Starts`. -/
def interleaving (M : ι → Machine S σ) (Init : σ → Prop) (Starts : ι → Prog S ε α → Prop) :
    System (Threads S ε α ι σ) (Call S ι) where
  init t := Init t.shared ∧ ∀ i, Starts i (t.thread i)
  step t c t' := ∃ k, t.thread c.who = .call c.op k ∧
    (M c.who).step t.shared c.op c.ret t'.shared ∧
    t'.thread = Function.update t.thread c.who (k c.ret)

/-- **Rely and guarantee.** `I` is kept by every call, and `J`, of a thread and what it still has to
do, by the calls of the thread and by the calls of others. -/
theorem reachable_interleaving {M : ι → Machine S σ} {Init : σ → Prop}
    {Starts : ι → Prog S ε α → Prop} {C : σ → Call S ι → Prop} {I : σ → Prop}
    {J : ι → σ → Prog S ε α → Prop} (hinit : ∀ s, Init s → I s)
    (hstart : ∀ i s p, Init s → Starts i p → J i s p)
    (hown : ∀ i s o k r s', I s → J i s (.call o k) → C s ⟨i, o, r⟩ → (M i).step s o r s' →
      I s' ∧ J i s' (k r))
    (hother : ∀ i j s o r s' p, i ≠ j → (M i).step s o r s' → J j s p → J j s' p)
    {t : Threads S ε α ι σ}
    (h : Reachable ((interleaving M Init Starts).restrict fun t c => C t.shared c) t) :
    I t.shared ∧ ∀ i, J i t.shared (t.thread i) := by
  refine h.invariant (I := fun t => I t.shared ∧ ∀ i, J i t.shared (t.thread i)) (fun t ht => ?_)
    fun t c t' ht hstep => ?_
  · exact ⟨hinit _ ht.1, fun i => hstart i _ _ ht.1 (ht.2 i)⟩
  · obtain ⟨hC, k, hcall, hM, hthread⟩ := hstep
    have hwho := ht.2 c.who
    rw [hcall] at hwho
    obtain ⟨hI, hJ⟩ := hown c.who _ _ k _ _ ht.1 hwho hC hM
    refine ⟨hI, fun j => ?_⟩
    rw [hthread, Function.update_apply]
    split_ifs with hj
    · exact hj ▸ hJ
    · exact hother c.who j _ _ _ _ _ (Ne.symm hj) hM (ht.2 j)

/-- A thread can run its program without the others. -/
theorem reachable_of_exec {M : ι → Machine S σ} {Init : σ → Prop} {Starts : ι → Prog S ε α → Prop}
    {C : σ → Call S ι → Prop} {i : ι} {p : Prog S ε α} {s s' : σ} {l : List (Event S σ)}
    {res : Except ε α} (h : Exec (M i) p s l s' res) : ∀ {t : Threads S ε α ι σ},
      Reachable ((interleaving M Init Starts).restrict fun t c => C t.shared c) t →
      t.shared = s → t.thread i = p → (∀ e ∈ l, C e.pre ⟨i, e.op, e.ret⟩) →
      Reachable ((interleaving M Init Starts).restrict fun t c => C t.shared c)
        ⟨s', Function.update t.thread i (Prog.ofExcept res)⟩ := by
  induction h with
  | done a s =>
    rintro t ht rfl hthread -
    rwa [show Prog.ofExcept (.ok a) = t.thread i from hthread.symm, Function.update_eq_self]
  | fail e s =>
    rintro t ht rfl hthread -
    rwa [show Prog.ofExcept (.error e) = t.thread i from hthread.symm, Function.update_eq_self]
  | @call o k s s1 s' r l res hs _ ih =>
    rintro t ht rfl hthread hC
    have hstep : Reachable ((interleaving M Init Starts).restrict fun t c => C t.shared c)
        ⟨s1, Function.update t.thread i (k r)⟩ :=
      ht.step (a := ⟨i, o, r⟩) ⟨hC _ List.mem_cons_self, k, hthread, hs, rfl⟩
    have hrest := ih hstep rfl (Function.update_self ..) fun e he => hC e (List.mem_cons_of_mem _ he)
    rwa [Function.update_idem] at hrest

/-- A program up to its first call that is not one of `A`, against a handler. -/
def upTo (A : S.Op → Bool) (h : σ → (o : S.Op) → S.Ret o × σ) : Prog S ε α → σ → Prog S ε α × σ
  | .done a, s => (.done a, s)
  | .fail e, s => (.fail e, s)
  | .call o k, s => if A o then upTo A h (k (h s o).1) (h s o).2 else (.call o k, s)

/-- A thread can run its program up to a call while the others wait. -/
theorem reachable_upTo {M : ι → Machine S σ} {Init : σ → Prop} {Starts : ι → Prog S ε α → Prop}
    {A : S.Op → Bool} {h : σ → (o : S.Op) → S.Ret o × σ} {i : ι} {I : σ → Prop}
    (hM : ∀ s o, A o = true → I s → (M i).step s o (h s o).1 (h s o).2 ∧ I (h s o).2) :
    ∀ (p : Prog S ε α) {t : Threads S ε α ι σ}, Reachable (interleaving M Init Starts) t →
      t.thread i = p → I t.shared → Reachable (interleaving M Init Starts)
        ⟨(upTo A h p t.shared).2, Function.update t.thread i (upTo A h p t.shared).1⟩
  | .done a, t, ht, hthread, _ => by
    rwa [upTo, ← hthread, Function.update_eq_self]
  | .fail e, t, ht, hthread, _ => by
    rwa [upTo, ← hthread, Function.update_eq_self]
  | .call o k, t, ht, hthread, hI => by
    rw [upTo]
    split_ifs with hA
    · obtain ⟨hstep, hI'⟩ := hM t.shared o hA hI
      have hnext : Reachable (interleaving M Init Starts)
          ⟨(h t.shared o).2, Function.update t.thread i (k (h t.shared o).1)⟩ :=
        ht.step (a := ⟨i, o, (h t.shared o).1⟩) ⟨k, hthread, hstep, rfl⟩
      have hrest := reachable_upTo hM _ hnext (Function.update_self ..) hI'
      rwa [Function.update_idem] at hrest
    · rwa [← hthread, Function.update_eq_self]

end Agentbox.Lib.Interleaving
