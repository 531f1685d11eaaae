import Mathlib.Tactic

/-! # Programs that call an environment

A program is a tree of calls: it ends with a value or an error, or calls an operation of its
signature and goes on with the answer. A machine says which answers an operation may give in a state
and which states it may leave. An execution is one path of a program through a machine, with the
trace of its calls. `wp` is the weakest precondition under which every execution of a program makes
allowed calls only and ends as asked, and `Exec.of_run` finds executions by running a program
against a handler. -/

namespace Agentbox.Lib.Program

/-- The operations a program can call, with the type of each one's answer. -/
structure Sig where
  Op : Type
  Ret : Op → Type

/-- A program over the signature `S` that ends with an `α` or fails with an `ε`. -/
inductive Prog (S : Sig) (ε α : Type) : Type
  | done (a : α)
  | fail (e : ε)
  | call (o : S.Op) (k : S.Ret o → Prog S ε α)

variable {S : Sig} {ε α β γ σ : Type}

namespace Prog

def bind : Prog S ε α → (α → Prog S ε β) → Prog S ε β
  | done a, f => f a
  | fail e, _ => fail e
  | call o k, f => call o fun r => (k r).bind f

instance : Monad (Prog S ε) where
  pure := done
  bind := bind

/-- The program that reports a failure of `p` as a value. -/
def attempt : Prog S ε α → Prog S ε (Except ε α)
  | done a => done (.ok a)
  | fail e => done (.error e)
  | call o k => call o fun r => (k r).attempt

def ofExcept : Except ε α → Prog S ε α
  | .ok a => done a
  | .error e => fail e

/-- `f` at each element of a list in order, up to the first failure. -/
def forEach (f : α → Prog S ε Unit) : List α → Prog S ε Unit
  | [] => done ()
  | a :: l => do f a; forEach f l

@[simp]
theorem pure_eq (a : α) : (pure a : Prog S ε α) = done a := rfl

@[simp]
theorem bind_eq (p : Prog S ε α) (f : α → Prog S ε β) : p >>= f = p.bind f := rfl

@[simp]
theorem done_bind (a : α) (f : α → Prog S ε β) : (done a).bind f = f a := rfl

@[simp]
theorem fail_bind (e : ε) (f : α → Prog S ε β) : (fail e : Prog S ε α).bind f = fail e := rfl

@[simp]
theorem call_bind (o : S.Op) (k : S.Ret o → Prog S ε α) (f : α → Prog S ε β) :
    (call o k).bind f = call o fun r => (k r).bind f := rfl

theorem bind_assoc : ∀ (p : Prog S ε α) (f : α → Prog S ε β) (g : β → Prog S ε γ),
    (p.bind f).bind g = p.bind fun a => (f a).bind g
  | done _, _, _ => rfl
  | fail _, _, _ => rfl
  | call _ k, f, g => by simp only [call_bind, fun r => bind_assoc (k r) f g]

end Prog

/-! ### Machines and executions -/

/-- What an operation may answer in a state, and the states it may leave. -/
structure Machine (S : Sig) (σ : Type) where
  step : σ → (o : S.Op) → S.Ret o → σ → Prop

/-- One call of an execution. -/
structure Event (S : Sig) (σ : Type) where
  pre : σ
  op : S.Op
  ret : S.Ret op
  post : σ

/-- One path of a program through the machine `M`. -/
inductive Exec (M : Machine S σ) : Prog S ε α → σ → List (Event S σ) → σ → Except ε α → Prop
  | done (a : α) (s : σ) : Exec M (.done a) s [] s (.ok a)
  | fail (e : ε) (s : σ) : Exec M (.fail e) s [] s (.error e)
  | call {o : S.Op} {k : S.Ret o → Prog S ε α} {s s1 s' : σ} {r : S.Ret o}
      {t : List (Event S σ)} {res : Except ε α} (hs : M.step s o r s1)
      (h : Exec M (k r) s1 t s' res) : Exec M (.call o k) s (⟨s, o, r, s1⟩ :: t) s' res

/-- What a trace says of the calls: the operations and their answers. -/
def log (t : List (Event S σ)) : List ((o : S.Op) × S.Ret o) := t.map fun e => ⟨e.op, e.ret⟩

@[simp]
theorem log_nil : log ([] : List (Event S σ)) = [] := rfl

@[simp]
theorem log_cons (e : Event S σ) (t : List (Event S σ)) : log (e :: t) = ⟨e.op, e.ret⟩ :: log t := rfl

@[simp]
theorem log_append (t t' : List (Event S σ)) : log (t ++ t') = log t ++ log t' := List.map_append

variable {M : Machine S σ} {s s' : σ} {t : List (Event S σ)}

theorem exec_done {a : α} {res : Except ε α} :
    Exec M (.done a) s t s' res ↔ t = [] ∧ s' = s ∧ res = .ok a := by
  constructor
  · rintro ⟨⟩
    exact ⟨rfl, rfl, rfl⟩
  · rintro ⟨rfl, rfl, rfl⟩
    exact .done a _

theorem exec_fail {e : ε} {res : Except ε α} :
    Exec M (.fail e) s t s' res ↔ t = [] ∧ s' = s ∧ res = .error e := by
  constructor
  · rintro ⟨⟩
    exact ⟨rfl, rfl, rfl⟩
  · rintro ⟨rfl, rfl, rfl⟩
    exact .fail e _

theorem exec_call {o : S.Op} {k : S.Ret o → Prog S ε α} {res : Except ε α} :
    Exec M (.call o k) s t s' res ↔ ∃ r s1 t1, t = ⟨s, o, r, s1⟩ :: t1 ∧ M.step s o r s1 ∧
      Exec M (k r) s1 t1 s' res := by
  constructor
  · rintro (_ | _ | ⟨hs, h⟩)
    exact ⟨_, _, _, rfl, hs, h⟩
  · rintro ⟨r, s1, t1, rfl, hs, h⟩
    exact .call hs h

theorem Exec.bind_ok {p : Prog S ε α} {f : α → Prog S ε β} {s1 : σ} {t1 : List (Event S σ)} {a : α}
    {res : Except ε β} (h : Exec M p s t s1 (.ok a)) (hf : Exec M (f a) s1 t1 s' res) :
    Exec M (p.bind f) s (t ++ t1) s' res := by
  generalize hr : Except.ok a = r at h
  induction h with
  | done b s =>
    cases hr
    exact hf
  | fail e s => cases hr
  | call hs _ ih => exact .call hs (ih hf hr)

theorem Exec.bind_error {p : Prog S ε α} (f : α → Prog S ε β) {e : ε}
    (h : Exec M p s t s' (.error e)) : Exec M (p.bind f) s t s' (.error e) := by
  generalize hr : Except.error e = r at h
  induction h with
  | done b s => cases hr
  | fail e s =>
    cases hr
    exact .fail _ _
  | call hs _ ih => exact .call hs (ih hr)

/-- An execution of a sequence is one of its first part, and one of its second part from there. -/
theorem exec_bind : ∀ {p : Prog S ε α} {f : α → Prog S ε β} {s s' : σ} {t : List (Event S σ)}
    {res : Except ε β}, Exec M (p.bind f) s t s' res ↔
      (∃ e, res = .error e ∧ Exec M p s t s' (.error e)) ∨
      ∃ a s1 t1 t2, t = t1 ++ t2 ∧ Exec M p s t1 s1 (.ok a) ∧ Exec M (f a) s1 t2 s' res := by
  intro p f s s' t res
  constructor
  · intro h
    induction p generalizing s t with
    | done a => exact .inr ⟨a, s, [], t, rfl, .done a s, h⟩
    | fail e =>
      obtain ⟨rfl, rfl, rfl⟩ := exec_fail.1 h
      exact .inl ⟨e, rfl, .fail e _⟩
    | call o k ih =>
      obtain ⟨r, s1, t1, rfl, hs, h1⟩ := exec_call.1 h
      obtain ⟨e, rfl, he⟩ | ⟨a, s2, t2, t3, rfl, ha, hf⟩ := ih r h1
      · exact .inl ⟨e, rfl, .call hs he⟩
      · exact .inr ⟨a, s2, _, t3, rfl, .call hs ha, hf⟩
  · rintro (⟨e, rfl, h⟩ | ⟨a, s1, t1, t2, rfl, h, hf⟩)
    · exact h.bind_error f
    · exact h.bind_ok hf

theorem exec_bind_ok {p : Prog S ε α} {f : α → Prog S ε β} {b : β}
    (h : Exec M (p.bind f) s t s' (.ok b)) : ∃ a s1 t1 t2, t = t1 ++ t2 ∧
      Exec M p s t1 s1 (.ok a) ∧ Exec M (f a) s1 t2 s' (.ok b) := by
  obtain ⟨e, hres, -⟩ | h := exec_bind.1 h
  · cases hres
  · exact h

theorem exec_ofExcept {r res : Except ε α} :
    Exec M (Prog.ofExcept r) s t s' res ↔ t = [] ∧ s' = s ∧ res = r := by
  rcases r with e | a
  · exact exec_fail
  · exact exec_done

theorem exec_attempt : ∀ {p : Prog S ε α} {s s' : σ} {t : List (Event S σ)}
    {res : Except ε (Except ε α)}, Exec M p.attempt s t s' res ↔
      ∃ r, res = .ok r ∧ Exec M p s t s' r := by
  intro p s s' t res
  constructor
  · intro h
    induction p generalizing s t with
    | done a =>
      obtain ⟨rfl, rfl, rfl⟩ := exec_done.1 h
      exact ⟨_, rfl, .done a _⟩
    | fail e =>
      obtain ⟨rfl, rfl, rfl⟩ := exec_done.1 h
      exact ⟨_, rfl, .fail e _⟩
    | call o k ih =>
      obtain ⟨r, s1, t1, rfl, hs, h1⟩ := exec_call.1 h
      obtain ⟨r', rfl, h'⟩ := ih r h1
      exact ⟨r', rfl, .call hs h'⟩
  · rintro ⟨r, rfl, h⟩
    induction h with
    | done a s => exact .done _ s
    | fail e s => exact .done _ s
    | call hs _ ih => exact .call hs ih

theorem exec_call_bind {o : S.Op} (g : S.Ret o → Except ε α) {f : α → Prog S ε β}
    {res : Except ε β} :
    Exec M ((Prog.call o fun r => Prog.ofExcept (g r)).bind f) s t s' res ↔
      ∃ r s1 t1, t = ⟨s, o, r, s1⟩ :: t1 ∧ M.step s o r s1 ∧
        ((∃ a, g r = .ok a ∧ Exec M (f a) s1 t1 s' res) ∨
          ∃ e, g r = .error e ∧ t1 = [] ∧ s' = s1 ∧ res = .error e) := by
  rw [Prog.call_bind, exec_call]
  refine exists_congr fun r => exists_congr fun s1 => exists_congr fun t1 =>
    and_congr Iff.rfl (and_congr Iff.rfl ?_)
  rcases g r with e | a
  · refine exec_fail.trans ⟨fun h => .inr ⟨e, rfl, h⟩, ?_⟩
    rintro (⟨a, ⟨⟩, -⟩ | ⟨e', ⟨⟩, h⟩)
    exact h
  · refine ⟨fun h => .inl ⟨a, rfl, h⟩, ?_⟩
    rintro (⟨a', ⟨⟩, h⟩ | ⟨e, ⟨⟩, -⟩)
    exact h


/-- A call whose failure is reported as a value. -/
theorem exec_attempt_call {o : S.Op} (g : S.Ret o → Except ε α) {f : Except ε α → Prog S ε β}
    {res : Except ε β} :
    Exec M ((Prog.call o fun r => Prog.ofExcept (g r)).attempt.bind f) s t s' res ↔
      ∃ r s1 t1, t = ⟨s, o, r, s1⟩ :: t1 ∧ M.step s o r s1 ∧ Exec M (f (g r)) s1 t1 s' res := by
  have hret : ∀ r, ((Prog.ofExcept (g r)).attempt : Prog S ε (Except ε α)).bind f = f (g r) := by
    intro r
    rcases g r with e | a <;> rfl
  simp only [Prog.attempt, Prog.call_bind, hret]
  exact exec_call

/-! ### The events of an execution -/

section
variable {p : Prog S ε α} {res : Except ε α} {e : Event S σ}

theorem Exec.step_of_mem (h : Exec M p s t s' res) (he : e ∈ t) :
    M.step e.pre e.op e.ret e.post := by
  induction h with
  | done => cases he
  | fail => cases he
  | call hs _ ih =>
    obtain rfl | he := List.mem_cons.1 he
    · exact hs
    · exact ih he

/-- An event begins where the execution begins, or where another one ends. -/
theorem Exec.pre_of_mem (h : Exec M p s t s' res) (he : e ∈ t) :
    e.pre = s ∨ ∃ before ∈ t, before.post = e.pre := by
  induction h with
  | done => cases he
  | fail => cases he
  | call hs _ ih =>
    obtain rfl | he := List.mem_cons.1 he
    · exact .inl rfl
    · obtain hpre | ⟨before, hmem, hpost⟩ := ih he
      · exact .inr ⟨_, List.mem_cons_self, hpre.symm⟩
      · exact .inr ⟨before, List.mem_cons_of_mem _ hmem, hpost⟩

/-- An execution through a machine is one through every machine that allows more. -/
theorem Exec.mono {M' : Machine S σ} (hM : ∀ s o r s', M.step s o r s' → M'.step s o r s')
    (h : Exec M p s t s' res) : Exec M' p s t s' res := by
  induction h with
  | done a s => exact .done a s
  | fail e s => exact .fail e s
  | call hs _ ih => exact .call (hM _ _ _ _ hs) ih

/-- What every event keeps, the execution keeps. -/
theorem Exec.keeps {I : σ → Prop} (h : Exec M p s t s' res) (hs : I s)
    (ht : ∀ e ∈ t, I e.pre → I e.post) : I s' := by
  induction h with
  | done => exact hs
  | fail => exact hs
  | call _ _ ih =>
    obtain ⟨hfirst, hrest⟩ := List.forall_mem_cons.1 ht
    exact ih (hfirst hs) hrest

/-- What the other events keep holds before the first event of a kind. -/
theorem Exec.pre_of_find {I : σ → Prop} {P : S.Op → Bool} (h : Exec M p s t s' res) (hs : I s)
    (hkeep : ∀ e ∈ t, P e.op = false → I e.pre → I e.post)
    (he : t.find? (fun e => P e.op) = some e) : I e.pre := by
  induction h with
  | done => cases he
  | fail => cases he
  | @call o k s s1 s' r t res _ _ ih =>
    by_cases hP : P o = true
    · simp only [List.find?_cons, hP, Option.some.injEq] at he
      exact he ▸ hs
    · simp only [List.find?_cons, hP] at he
      refine ih (hkeep _ List.mem_cons_self (Bool.not_eq_true _ ▸ hP) hs) (fun e he => ?_) he
      exact hkeep e (List.mem_cons_of_mem _ he)

theorem Exec.starts (h : Exec M p s t s' res) :
    t = [] ∧ s' = s ∨ ∃ first rest, t = first :: rest ∧ first.pre = s := by
  cases h with
  | done => exact .inl ⟨rfl, rfl⟩
  | fail => exact .inl ⟨rfl, rfl⟩
  | call => exact .inr ⟨_, _, rfl, rfl⟩

/-- An event ends where the execution ends, or where another one begins. -/
theorem Exec.post_of_mem (h : Exec M p s t s' res) (he : e ∈ t) :
    e.post = s' ∨ ∃ after ∈ t, after.pre = e.post := by
  induction h with
  | done => cases he
  | fail => cases he
  | call hs hrest ih =>
    obtain rfl | he := List.mem_cons.1 he
    · obtain ⟨-, heq⟩ | ⟨first, rest, rfl, hfirst⟩ := hrest.starts
      · exact .inl heq.symm
      · exact .inr ⟨first, List.mem_cons_of_mem _ List.mem_cons_self, hfirst⟩
    · obtain hpost | ⟨after, hmem, hpre⟩ := ih he
      · exact .inl hpost
      · exact .inr ⟨after, List.mem_cons_of_mem _ hmem, hpre⟩

end

/-! ### Weakest preconditions -/

/-- Every execution of `p` from `s` calls only operations that `Φ` allows in the state they are
called in, and ends in a state and with a result that `Q` allows. -/
def wp (M : Machine S σ) (Φ : σ → S.Op → Prop) :
    Prog S ε α → (Except ε α → σ → Prop) → σ → Prop
  | .done a, Q, s => Q (.ok a) s
  | .fail e, Q, s => Q (.error e) s
  | .call o k, Q, s => Φ s o ∧ ∀ r s1, M.step s o r s1 → wp M Φ (k r) Q s1

variable {Φ : σ → S.Op → Prop}

@[simp]
theorem wp_done (a : α) (Q : Except ε α → σ → Prop) :
    wp M Φ (.done a) Q s ↔ Q (.ok a) s := Iff.rfl

@[simp]
theorem wp_fail (e : ε) (Q : Except ε α → σ → Prop) :
    wp M Φ (.fail e) Q s ↔ Q (.error e) s := Iff.rfl

@[simp]
theorem wp_call (o : S.Op) (k : S.Ret o → Prog S ε α) (Q : Except ε α → σ → Prop) :
    wp M Φ (.call o k) Q s ↔ Φ s o ∧ ∀ r s1, M.step s o r s1 → wp M Φ (k r) Q s1 := Iff.rfl

theorem wp_mono : ∀ {p : Prog S ε α} {Q Q' : Except ε α → σ → Prop} {s : σ},
    wp M Φ p Q s → (∀ r s', Q r s' → Q' r s') → wp M Φ p Q' s
  | .done a, _, _, s, h, hQ => hQ (.ok a) s h
  | .fail e, _, _, s, h, hQ => hQ (.error e) s h
  | .call _ _, _, _, _, h, hQ => ⟨h.1, fun r s1 hs => wp_mono (h.2 r s1 hs) hQ⟩

/-- What a sequence asks after its first part. -/
def andThen (M : Machine S σ) (Φ : σ → S.Op → Prop) (f : α → Prog S ε β)
    (Q : Except ε β → σ → Prop) : Except ε α → σ → Prop
  | .ok a, s => wp M Φ (f a) Q s
  | .error e, s => Q (.error e) s

@[simp]
theorem andThen_ok (f : α → Prog S ε β) (Q : Except ε β → σ → Prop) (a : α) :
    andThen M Φ f Q (.ok a) s ↔ wp M Φ (f a) Q s := Iff.rfl

@[simp]
theorem andThen_error (f : α → Prog S ε β) (Q : Except ε β → σ → Prop) (e : ε) :
    andThen M Φ f Q (.error e) s ↔ Q (.error e) s := Iff.rfl

@[simp]
theorem wp_bind : ∀ (p : Prog S ε α) (f : α → Prog S ε β) (Q : Except ε β → σ → Prop) (s : σ),
    wp M Φ (p.bind f) Q s ↔ wp M Φ p (andThen M Φ f Q) s
  | .done _, _, _, _ => Iff.rfl
  | .fail _, _, _, _ => Iff.rfl
  | .call _ k, f, Q, _ =>
    and_congr Iff.rfl (forall_congr' fun r => forall_congr' fun s1 =>
      imp_congr Iff.rfl (wp_bind (k r) f Q s1))

@[simp]
theorem wp_attempt : ∀ (p : Prog S ε α) (Q : Except ε (Except ε α) → σ → Prop) (s : σ),
    wp M Φ p.attempt Q s ↔ wp M Φ p (fun r => Q (.ok r)) s
  | .done _, _, _ => Iff.rfl
  | .fail _, _, _ => Iff.rfl
  | .call _ k, Q, _ =>
    and_congr Iff.rfl (forall_congr' fun r => forall_congr' fun s1 =>
      imp_congr Iff.rfl (wp_attempt (k r) Q s1))

/-- The rule of a loop: each round keeps the invariant `I`, whether it fails or not. -/
theorem wp_forEach {f : α → Prog S ε Unit} {I : σ → Prop} : ∀ {l : List α} {s : σ}, I s →
    (∀ a ∈ l, ∀ s, I s → wp M Φ (f a) (fun _ => I) s) →
      wp M Φ (Prog.forEach f l) (fun _ => I) s
  | [], _, h, _ => h
  | a :: l, s, h, hf => by
    simp only [Prog.forEach, Prog.bind_eq, wp_bind]
    refine wp_mono (hf a List.mem_cons_self s h) fun r s' hI => ?_
    cases r with
    | ok _ => exact wp_forEach hI fun b hb => hf b (List.mem_cons_of_mem a hb)
    | error _ => exact hI

/-- **Soundness.** A weakest precondition speaks about every execution. -/
theorem Exec.of_wp {p : Prog S ε α} {Q : Except ε α → σ → Prop} {res : Except ε α}
    (h : Exec M p s t s' res) (hw : wp M Φ p Q s) :
    Q res s' ∧ ∀ e ∈ t, Φ e.pre e.op := by
  induction h with
  | done a s => exact ⟨hw, fun _ he => absurd he List.not_mem_nil⟩
  | fail e s => exact ⟨hw, fun _ he => absurd he List.not_mem_nil⟩
  | call hs _ ih =>
    obtain ⟨hQ, ht⟩ := ih (hw.2 _ _ hs)
    exact ⟨hQ, List.forall_mem_cons.2 ⟨hw.1, ht⟩⟩

@[simp]
theorem wp_ofExcept (r : Except ε α) (Q : Except ε α → σ → Prop) :
    wp M Φ (Prog.ofExcept r) Q s ↔ Q r s := by
  cases r <;> rfl

/-! ### Programs with few operations -/

/-- Whatever the answers are, `p` calls only operations that `A` allows and ends as `R` allows. -/
def Always (A : S.Op → Prop) (R : Except ε α → Prop) : Prog S ε α → Prop
  | .done a => R (.ok a)
  | .fail e => R (.error e)
  | .call o k => A o ∧ ∀ r, Always A R (k r)

variable {A : S.Op → Prop}

@[simp]
theorem always_done (a : α) (R : Except ε α → Prop) : Always A R (.done a : Prog S ε α) ↔
    R (.ok a) := Iff.rfl

@[simp]
theorem always_fail (e : ε) (R : Except ε α → Prop) : Always A R (.fail e : Prog S ε α) ↔
    R (.error e) := Iff.rfl

@[simp]
theorem always_call (o : S.Op) (k : S.Ret o → Prog S ε α) (R : Except ε α → Prop) :
    Always A R (.call o k) ↔ A o ∧ ∀ r, Always A R (k r) := Iff.rfl

@[simp]
theorem always_ofExcept (r : Except ε α) (R : Except ε α → Prop) :
    Always A R (Prog.ofExcept r : Prog S ε α) ↔ R r := by
  cases r <;> rfl

theorem always_mono {R R' : Except ε α → Prop} : ∀ {p : Prog S ε α}, Always A R p →
    (∀ r, R r → R' r) → Always A R' p
  | .done a, h, hR => hR (.ok a) h
  | .fail e, h, hR => hR (.error e) h
  | .call _ _, h, hR => ⟨h.1, fun r => always_mono (h.2 r) hR⟩

theorem always_bind {R : Except ε α → Prop} {R' : Except ε β → Prop} {f : α → Prog S ε β} :
    ∀ {p : Prog S ε α}, Always A R p → (∀ e, R (.error e) → R' (.error e)) →
      (∀ a, R (.ok a) → Always A R' (f a)) → Always A R' (p.bind f)
  | .done a, h, _, hf => hf a h
  | .fail e, h, he, _ => he e h
  | .call _ _, h, he, hf => ⟨h.1, fun r => always_bind (h.2 r) he hf⟩

theorem always_attempt {R : Except ε α → Prop} : ∀ {p : Prog S ε α}, Always A R p →
    Always A (fun r => ∃ a, r = .ok a ∧ R a) p.attempt
  | .done a, h => ⟨.ok a, rfl, h⟩
  | .fail e, h => ⟨.error e, rfl, h⟩
  | .call _ _, h => ⟨h.1, fun r => always_attempt (h.2 r)⟩

theorem always_trivial : ∀ p : Prog S ε α, Always (fun _ => True) (fun _ => True) p
  | .done _ => trivial
  | .fail _ => trivial
  | .call _ k => ⟨trivial, fun r => always_trivial (k r)⟩

theorem always_weaken {B : S.Op → Prop} {R : Except ε α → Prop} (hAB : ∀ o, A o → B o) :
    ∀ {p : Prog S ε α}, Always A R p → Always B R p
  | .done _, h => h
  | .fail _, h => h
  | .call _ _, h => ⟨hAB _ h.1, fun r => always_weaken hAB (h.2 r)⟩

/-- What is called and how it ends can be shown one after the other. -/
theorem always_and {R : Except ε α → Prop} : ∀ {p : Prog S ε α}, Always A (fun _ => True) p →
    Always (fun _ => True) R p → Always A R p
  | .done _, _, h => h
  | .fail _, _, h => h
  | .call _ _, h, hR => ⟨h.1, fun r => always_and (h.2 r) (hR.2 r)⟩

/-- `p` calls only operations that `A` allows. -/
def Only (A : S.Op → Prop) (p : Prog S ε α) : Prop := Always A (fun _ => True) p

theorem only_done (a : α) : Only A (.done a : Prog S ε α) := trivial

theorem only_fail (e : ε) : Only A (.fail e : Prog S ε α) := trivial

theorem only_ofExcept (r : Except ε α) : Only A (Prog.ofExcept r : Prog S ε α) :=
  (always_ofExcept r _).2 trivial

theorem Only.bind {p : Prog S ε α} {f : α → Prog S ε β} (hp : Only A p) (hf : ∀ a, Only A (f a)) :
    Only A (p >>= f) :=
  always_bind hp (fun _ _ => trivial) fun a _ => hf a

theorem Only.attempt {p : Prog S ε α} (hp : Only A p) : Only A p.attempt :=
  always_mono (always_attempt hp) fun _ _ => trivial

theorem Only.weaken {B : S.Op → Prop} {p : Prog S ε α} (hp : Only A p) (hAB : ∀ o, A o → B o) :
    Only B p := always_weaken hAB hp

theorem Exec.of_always {p : Prog S ε α} {R : Except ε α → Prop} {res : Except ε α}
    (h : Exec M p s t s' res) (ha : Always A R p) : R res ∧ ∀ e ∈ t, A e.op := by
  induction h with
  | done a s => exact ⟨ha, fun _ he => absurd he List.not_mem_nil⟩
  | fail e s => exact ⟨ha, fun _ he => absurd he List.not_mem_nil⟩
  | call hs _ ih =>
    obtain ⟨hR, ht⟩ := ih (ha.2 _)
    exact ⟨hR, List.forall_mem_cons.2 ⟨ha.1, ht⟩⟩

/-- **The frame rule.** What every allowed operation keeps, the program keeps. -/
theorem wp_of_always {R : Except ε α → Prop} {I : σ → Prop} (hA : ∀ s o, A o → I s → Φ s o)
    (hI : ∀ s o r s', A o → I s → M.step s o r s' → I s') : ∀ {p : Prog S ε α} {s : σ},
      Always A R p → I s → wp M Φ p (fun r s => R r ∧ I s) s
  | .done _, _, h, hs => ⟨h, hs⟩
  | .fail _, _, h, hs => ⟨h, hs⟩
  | .call o _, s, h, hs => ⟨hA s o h.1 hs, fun r s1 hstep =>
      wp_of_always hA hI (h.2 r) (hI s o r s1 h.1 hs hstep)⟩

/-- What holds whatever the answers are holds after every execution. -/
theorem wp_and_always {R : Except ε α → Prop} {Q : Except ε α → σ → Prop} : ∀ {p : Prog S ε α}
    {s : σ}, wp M Φ p Q s → Always A R p → wp M Φ p (fun r s => Q r s ∧ R r) s
  | .done _, _, h, ha => ⟨h, ha⟩
  | .fail _, _, h, ha => ⟨h, ha⟩
  | .call _ _, _, h, ha => ⟨h.1, fun r s1 hs => wp_and_always (h.2 r s1 hs) (ha.2 r)⟩

/-! ### What a success has called -/

/-- Every execution of `p` that succeeds has called an operation of `B`. -/
def Calls (B : S.Op → Prop) (p : Prog S ε α) : Prop :=
  ∀ (σ : Type) (M : Machine S σ) (s s' : σ) (t : List (Event S σ)) (a : α),
    Exec M p s t s' (.ok a) → ∃ e ∈ t, B e.op

variable {B : S.Op → Prop}

theorem calls_call {o : S.Op} (ho : B o) (k : S.Ret o → Prog S ε α) : Calls B (.call o k) := by
  intro σ M s s' t a h
  obtain ⟨r, s1, t1, rfl, -, -⟩ := exec_call.1 h
  exact ⟨_, List.mem_cons_self, ho⟩

theorem Calls.bind {p : Prog S ε α} (hp : Calls B p) (f : α → Prog S ε β) : Calls B (p >>= f) := by
  intro σ M s s' t b h
  obtain ⟨_, he, -⟩ | ⟨a, s1, t1, t2, rfl, h1, -⟩ := exec_bind.1 h
  · cases he
  · obtain ⟨e, he, hB⟩ := hp σ M s s1 t1 a h1
    exact ⟨e, List.mem_append_left _ he, hB⟩

theorem calls_bind (p : Prog S ε α) {f : α → Prog S ε β} (hf : ∀ a, Calls B (f a)) :
    Calls B (p >>= f) := by
  intro σ M s s' t b h
  obtain ⟨_, he, -⟩ | ⟨a, s1, t1, t2, rfl, -, h2⟩ := exec_bind.1 h
  · cases he
  · obtain ⟨e, he, hB⟩ := hf a σ M s1 s' t2 b h2
    exact ⟨e, List.mem_append_right _ he, hB⟩

/-! ### Running a program against a handler -/

/-- The result, the final state and the trace of a program whose calls `h` answers. -/
def Prog.run (h : σ → (o : S.Op) → S.Ret o × σ) :
    Prog S ε α → σ → Except ε α × σ × List (Event S σ)
  | .done a, s => (.ok a, s, [])
  | .fail e, s => (.error e, s, [])
  | .call o k, s =>
    let (r, s1) := h s o
    let (res, s', t) := (k r).run h s1
    (res, s', ⟨s, o, r, s1⟩ :: t)

theorem Prog.run_bind (h : σ → (o : S.Op) → S.Ret o × σ) : ∀ (p : Prog S ε α)
    (f : α → Prog S ε β) (s : σ), (p.bind f).run h s =
      match p.run h s with
      | (.ok a, s1, t) => (((f a).run h s1).1, ((f a).run h s1).2.1, t ++ ((f a).run h s1).2.2)
      | (.error e, s1, t) => (.error e, s1, t)
  | .done _, _, _ => rfl
  | .fail _, _, _ => rfl
  | .call o k, f, s => by
    simp only [Prog.call_bind, Prog.run, run_bind h (k (h s o).1) f (h s o).2]
    rcases (k (h s o).1).run h (h s o).2 with ⟨e | a, s1, t⟩ <;> rfl

/-- The result and the final state. -/
def Prog.result (h : σ → (o : S.Op) → S.Ret o × σ) (p : Prog S ε α) (s : σ) : Except ε α × σ :=
  ((p.run h s).1, (p.run h s).2.1)

section
variable (h : σ → (o : S.Op) → S.Ret o × σ) (s : σ)

@[simp]
theorem result_done (a : α) : (Prog.done a : Prog S ε α).result h s = (.ok a, s) := rfl

@[simp]
theorem result_fail (e : ε) : (Prog.fail e : Prog S ε α).result h s = (.error e, s) := rfl

@[simp]
theorem result_call (o : S.Op) (k : S.Ret o → Prog S ε α) :
    (Prog.call o k).result h s = (k (h s o).1).result h (h s o).2 := rfl

@[simp]
theorem result_ofExcept (r : Except ε α) : (Prog.ofExcept r : Prog S ε α).result h s = (r, s) := by
  cases r <;> rfl

theorem result_bind (p : Prog S ε α) (f : α → Prog S ε β) : (p.bind f).result h s =
    match p.result h s with
    | (.ok a, s1) => (f a).result h s1
    | (.error e, s1) => (.error e, s1) := by
  unfold Prog.result
  rw [Prog.run_bind]
  rcases p.run h s with ⟨e | a, s1, t⟩ <;> rfl

variable {h s}

theorem result_bind_ok {p : Prog S ε α} {a : α} {s1 : σ} (hp : p.result h s = (.ok a, s1))
    (f : α → Prog S ε β) : (p.bind f).result h s = (f a).result h s1 := by
  rw [result_bind, hp]

theorem result_bind_error {p : Prog S ε α} {e : ε} {s1 : σ} (hp : p.result h s = (.error e, s1))
    (f : α → Prog S ε β) : (p.bind f).result h s = (.error e, s1) := by
  rw [result_bind, hp]

theorem result_attempt : ∀ (p : Prog S ε α) (s : σ),
    p.attempt.result h s = (.ok (p.result h s).1, (p.result h s).2)
  | .done _, _ => rfl
  | .fail _, _ => rfl
  | .call o k, s => result_attempt (k (h s o).1) (h s o).2

end

theorem Exec.of_run {h : σ → (o : S.Op) → S.Ret o × σ}
    (hM : ∀ s o, M.step s o (h s o).1 (h s o).2) : ∀ (p : Prog S ε α) (s : σ),
      Exec M p s (p.run h s).2.2 (p.run h s).2.1 (p.run h s).1
  | .done a, s => .done a s
  | .fail e, s => .fail e s
  | .call o k, s => .call (hM s o) (Exec.of_run hM (k (h s o).1) (h s o).2)

end Agentbox.Lib.Program
