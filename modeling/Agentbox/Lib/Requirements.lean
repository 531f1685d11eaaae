import Mathlib.Tactic

/-! # Requirements in order

Checks that are made one after the other: the first one that fails gives the error, and those after
it are not made. -/

namespace Agentbox.Lib.Requirements

variable {ε α : Type} {l l' : List (Except ε Unit)} {e : ε}

/-- A check of one condition. -/
def require (met : Bool) (error : ε) : Except ε Unit := if met then .ok () else .error error

def inOrder : List (Except ε Unit) → Except ε Unit
  | [] => .ok ()
  | x :: l => x.bind fun _ => inOrder l

theorem require_eq_ok {met : Bool} : require met e = .ok () ↔ met = true := by
  unfold require
  split_ifs with h <;> simp [h]

theorem inOrder_append : inOrder (l ++ l') = (inOrder l).bind fun _ => inOrder l' := by
  induction l with
  | nil => rfl
  | cons x l ih =>
    rcases x with e | ⟨⟩
    · rfl
    · exact ih

/-- All checks pass, or one is the first to fail. -/
theorem inOrder_eq_ok : inOrder l = .ok () ↔ ∀ x ∈ l, x = .ok () := by
  induction l with
  | nil => simp [inOrder]
  | cons x l ih =>
    rcases x with e | ⟨⟩
    · simp [inOrder, Except.bind]
    · rw [List.forall_mem_cons, and_iff_right rfl, ← ih]
      rfl

theorem inOrder_eq_error : inOrder l = .error e ↔
    ∃ before after, l = before ++ .error e :: after ∧ ∀ x ∈ before, x = .ok () := by
  constructor
  · intro h
    induction l with
    | nil => cases h
    | cons x l ih =>
      rcases x with e' | ⟨⟩
      · obtain rfl : e' = e := Except.error.inj h
        exact ⟨[], l, rfl, fun _ hx => absurd hx List.not_mem_nil⟩
      · obtain ⟨before, after, rfl, hbefore⟩ := ih h
        exact ⟨.ok () :: before, after, rfl, List.forall_mem_cons.2 ⟨rfl, hbefore⟩⟩
  · rintro ⟨before, after, rfl, hbefore⟩
    rw [inOrder_append, inOrder_eq_ok.2 hbefore]
    rfl

/-! ### A result of checks -/

variable {a r : α}

theorem inOrder_map_eq_ok : ((inOrder l).map fun _ => a) = .ok r ↔
    (∀ x ∈ l, x = .ok ()) ∧ r = a := by
  rw [← inOrder_eq_ok]
  rcases inOrder l with e | ⟨⟩
  · exact ⟨fun h => (by cases h), fun h => (by cases h.1)⟩
  · exact ⟨fun h => ⟨rfl, (Except.ok.inj h).symm⟩, fun h => congrArg Except.ok h.2.symm⟩

theorem inOrder_map_eq_error : ((inOrder l).map fun _ => a) = .error e ↔
    ∃ before after, l = before ++ .error e :: after ∧ ∀ x ∈ before, x = .ok () := by
  rw [← inOrder_eq_error]
  rcases inOrder l with e' | ⟨⟩
  · exact ⟨fun h => congrArg Except.error (Except.error.inj h),
      fun h => congrArg Except.error (Except.error.inj h)⟩
  · exact ⟨fun h => (by cases h), fun h => (by cases h)⟩

end Agentbox.Lib.Requirements
