import Agentbox.Lib.Program

/-! # Programs that succeed

A program succeeds when every execution of it ends with a value that the postcondition allows. On a
machine that answers every call there is such an execution. -/

namespace Agentbox.Lib.Success

open Agentbox.Lib.Program

variable {S : Sig} {ε α β σ : Type} {M : Machine S σ} {s : σ}

/-- Every call has an answer in every state. -/
def Answers (M : Machine S σ) : Prop := ∀ s o, ∃ r s', M.step s o r s'

/-- The end is a value, and `Q` allows it. -/
def EndsWell (Q : α → σ → Prop) (r : Except ε α) (s : σ) : Prop := ∃ a, r = .ok a ∧ Q a s

/-- Every execution of the program ends well. -/
def Succeeds (M : Machine S σ) (p : Prog S ε α) (Q : α → σ → Prop) (s : σ) : Prop :=
  wp M (fun _ _ => True) p (EndsWell Q) s

theorem Answers.exists_exec (hM : Answers M) : ∀ (p : Prog S ε α) (s : σ),
    ∃ t s' res, Exec M p s t s' res
  | .done a, s => ⟨[], s, .ok a, .done a s⟩
  | .fail e, s => ⟨[], s, .error e, .fail e s⟩
  | .call o k, s => by
    obtain ⟨r, s1, hstep⟩ := hM s o
    obtain ⟨t, s', res, hrest⟩ := hM.exists_exec (k r) s1
    exact ⟨_, s', res, .call hstep hrest⟩

variable {p : Prog S ε α} {f : α → Prog S ε β} {Q Q' : α → σ → Prop} {R : β → σ → Prop}

theorem Succeeds.of_exec {t : List (Event S σ)} {s' : σ} {res : Except ε α}
    (h : Succeeds M p Q s) (hexec : Exec M p s t s' res) : ∃ a, res = .ok a ∧ Q a s' :=
  (hexec.of_wp h).1

/-- What succeeds on a machine that answers has an execution. -/
theorem Succeeds.exists_exec (h : Succeeds M p Q s) (hM : Answers M) :
    ∃ t s' a, Exec M p s t s' (.ok a) ∧ Q a s' := by
  obtain ⟨t, s', res, hexec⟩ := hM.exists_exec p s
  obtain ⟨a, rfl, hQ⟩ := h.of_exec hexec
  exact ⟨t, s', a, hexec, hQ⟩

/-! ### Rules -/

theorem Succeeds.mono (h : Succeeds M p Q s) (hQ : ∀ a s', Q a s' → Q' a s') :
    Succeeds M p Q' s := by
  refine wp_mono h ?_
  rintro r s' ⟨a, ha, hend⟩
  exact ⟨a, ha, hQ a s' hend⟩

theorem succeeds_done {a : α} (h : Q a s) : Succeeds M (.done a : Prog S ε α) Q s := ⟨a, rfl, h⟩

theorem succeeds_ofExcept {r : Except ε α} {a : α} (hr : r = .ok a) (h : Q a s) :
    Succeeds M (Prog.ofExcept r) Q s := by
  rw [hr]
  exact succeeds_done h

theorem succeeds_call {o : S.Op} {k : S.Ret o → Prog S ε α}
    (h : ∀ r s1, M.step s o r s1 → Succeeds M (k r) Q s1) : Succeeds M (.call o k) Q s :=
  ⟨trivial, h⟩

theorem succeeds_bind (h : Succeeds M p (fun a s' => Succeeds M (f a) R s') s) :
    Succeeds M (p.bind f) R s := by
  refine (wp_bind _ _ _ _).2 (wp_mono h ?_)
  rintro _ s' ⟨a, rfl, hf⟩
  exact hf

/-- A sequence that succeeds does so in both parts. -/
theorem Succeeds.of_bind (h : Succeeds M (p.bind f) R s) :
    Succeeds M p (fun a s' => Succeeds M (f a) R s') s := by
  refine wp_mono ((wp_bind _ _ _ _).1 h) ?_
  rintro (e | a) s' hend
  · obtain ⟨_, he, -⟩ := hend
    cases he
  · exact ⟨a, rfl, hend⟩

/-- A part that succeeds is not seen to fail. -/
theorem succeeds_attempt_bind {g : Except ε α → Prog S ε β}
    (h : Succeeds M p (fun a s' => Succeeds M (g (.ok a)) R s') s) :
    Succeeds M (p.attempt.bind g) R s := by
  refine (wp_bind _ _ _ _).2 ((wp_attempt _ _ _).2 (wp_mono h ?_))
  rintro _ s' ⟨a, rfl, hg⟩
  exact hg

theorem Succeeds.and_always {P : Except ε α → Prop} (h : Succeeds M p Q s)
    (hp : Always (fun _ => True) P p) : Succeeds M p (fun a s' => Q a s' ∧ P (.ok a)) s := by
  refine wp_mono (wp_and_always h hp) ?_
  rintro _ s' ⟨⟨a, rfl, hQ⟩, hP⟩
  exact ⟨a, rfl, hQ, hP⟩

/-- The rule of a loop: each round succeeds and keeps the invariant. -/
theorem succeeds_forEach {f : α → Prog S ε Unit} {I : σ → Prop} : ∀ {l : List α} {s : σ}, I s →
    (∀ a ∈ l, ∀ s, I s → Succeeds M (f a) (fun _ => I) s) →
      Succeeds M (Prog.forEach f l) (fun _ => I) s
  | [], _, h, _ => succeeds_done h
  | a :: _, s, h, hf => by
    refine succeeds_bind ((hf a List.mem_cons_self s h).mono fun _ s' hI => ?_)
    exact succeeds_forEach hI fun b hb => hf b (List.mem_cons_of_mem a hb)

/-- The rule of a loop in two parts. -/
theorem succeeds_forEach_append {f : α → Prog S ε Unit} {l' : List α} {Q : Unit → σ → Prop} :
    ∀ {l : List α} {s : σ}, Succeeds M (Prog.forEach f l)
      (fun _ s' => Succeeds M (Prog.forEach f l') Q s') s →
        Succeeds M (Prog.forEach f (l ++ l')) Q s
  | [], _, h => by
    obtain ⟨_, _, hrest⟩ := h
    exact hrest
  | a :: l, s, h => by
    exact succeeds_bind (h.of_bind.mono fun _ _ hrest => succeeds_forEach_append hrest)

end Agentbox.Lib.Success
