import Agentbox.Lib.Delimited

/-! # Command lines

Command lines with long options. The options come first: one that takes a value finds it after `=`,
and in the next argument where there is none. They end at `--`, and at the first argument that is
not an option. Short options are not read. -/

namespace Agentbox.Lib.CommandLine

open Agentbox.Lib.Delimited

/-- The long options of a program. -/
structure Grammar (ι : Type) where
  name : ι → String
  takesValue : ι → Bool
  find : String → Option ι
  find_name : ∀ i, find (name i) = some i
  name_ne : ∀ i, (name i).toList ≠ []
  plain : ∀ i, '=' ∉ (name i).toList

/-- What an argument is where an option may stand. -/
inductive Arg (ι : Type)
  | option (i : ι) (value : Option String)
  | stop
  | operand
  | unknown

variable {ι : Type} (g : Grammar ι)

def classify (arg : String) : Arg ι :=
  match arg.toList with
  | ['-', '-'] => .stop
  | '-' :: '-' :: text =>
    match g.find (String.ofList (cutAt '=' text).1) with
    | some i => .option i ((cutAt '=' text).2.map String.ofList)
    | none => .unknown
  | '-' :: _ :: _ => .unknown
  | _ => .operand

/-- The options in the order they are given in, and the arguments after them. -/
def parse : List String → Option (List (ι × Option String) × List String)
  | [] => some ([], [])
  | arg :: rest =>
    match classify g arg with
    | .stop => some ([], rest)
    | .operand => some ([], arg :: rest)
    | .unknown => none
    | .option i (some value) => (parse rest).map fun p => ((i, some value) :: p.1, p.2)
    | .option i none =>
      if g.takesValue i then
        match rest with
        | [] => none
        | value :: rest => (parse rest).map fun p => ((i, some value) :: p.1, p.2)
      else (parse rest).map fun p => ((i, none) :: p.1, p.2)

/-- The arguments of an option, with its value in one of its own. -/
def render (o : ι × Option String) : List String := ("--" ++ g.name o.1) :: o.2.toList

/-- The option has a value exactly if it takes one. -/
def Fits (o : ι × Option String) : Prop := o.2.isSome = g.takesValue o.1

def IsOperand (arg : String) : Prop := arg.toList.head? ≠ some '-' ∨ arg.toList = ['-']

instance (arg : String) : Decidable (IsOperand arg) := inferInstanceAs (Decidable (_ ∨ _))

theorem classify_name (i : ι) : classify g ("--" ++ g.name i) = .option i none := by
  have hname : ("--" ++ g.name i).toList = '-' :: '-' :: (g.name i).toList := by
    rw [String.toList_append]
    rfl
  obtain ⟨c, l, hl⟩ := List.exists_cons_of_ne_nil (g.name_ne i)
  have hcut := cutAt_of_not_mem (g.plain i)
  have hfind := g.find_name i
  rw [← String.ofList_toList (s := g.name i)] at hfind
  unfold classify
  rw [hname]
  rw [hl] at hcut hfind ⊢
  simp only [hcut, hfind, Option.map_none]

theorem classify_operand {arg : String} (h : IsOperand arg) : classify g arg = .operand := by
  unfold classify
  rcases h with h | h
  · rcases hl : arg.toList with _ | ⟨c, l⟩
    · rfl
    · have hc : c ≠ '-' := by simpa [hl] using h
      split <;> simp_all
  · rw [h]
    rfl

/-- The arguments of an option are read as the option. -/
theorem parse_render {o : ι × Option String} (ho : Fits g o) (rest : List String) :
    parse g (render g o ++ rest) = (parse g rest).map fun p => (o :: p.1, p.2) := by
  obtain ⟨i, value⟩ := o
  unfold Fits at ho
  rcases value with _ | value
  · have htakes : g.takesValue i = false := ho.symm
    rw [render, Option.toList_none, List.singleton_append, parse, classify_name]
    simp only [htakes, Bool.false_eq_true, if_false]
  · have htakes : g.takesValue i = true := ho.symm
    rw [render, Option.toList_some, List.cons_append, List.singleton_append, parse, classify_name]
    simp only [htakes, if_true]

theorem parse_flatMap_render : ∀ {os : List (ι × Option String)}, (∀ o ∈ os, Fits g o) →
    ∀ rest : List String,
      parse g (os.flatMap (render g) ++ rest) = (parse g rest).map fun p => (os ++ p.1, p.2)
  | [], _, rest => by
    rw [List.flatMap_nil, List.nil_append]
    simp
  | o :: os, h, rest => by
    have ih := parse_flatMap_render (fun o' ho' => h o' (List.mem_cons_of_mem _ ho')) rest
    rw [List.flatMap_cons, List.append_assoc, parse_render g (h o List.mem_cons_self), ih,
      Option.map_map]
    rfl

theorem parse_operand {arg : String} (h : IsOperand arg) (rest : List String) :
    parse g (arg :: rest) = some ([], arg :: rest) := by
  rw [parse, classify_operand g h]

theorem isOperand_of_classify {arg : String} (h : classify g arg = .operand) : IsOperand arg := by
  unfold classify at h
  split at h
  · cases h
  · split at h <;> cases h
  · cases h
  · next h1 h2 h3 =>
    rcases hl : arg.toList with _ | ⟨c, l⟩
    · exact .inl (by simp [hl])
    · by_cases hc : c = '-'
      · subst hc
        rcases l with _ | ⟨d, l⟩
        · exact .inr hl
        · exact absurd hl (h3 d l)
      · exact .inl (by simpa [hl] using hc)

/-- The options end before the first argument, or what is left is an end of the other ones. -/
def Leaves (args : List String) (os : List (ι × Option String)) (operands : List String) : Prop :=
  (os = [] ∧ operands = args ∧ ∀ arg ∈ args.head?, IsOperand arg) ∨ operands <:+ args.tail

variable {g} {args operands : List String} {os : List (ι × Option String)}

theorem Leaves.suffix (h : Leaves args os operands) : operands <:+ args := by
  obtain ⟨-, rfl, -⟩ | h := h
  · exact List.suffix_rfl
  · exact h.trans (List.tail_suffix _)

/-- An option that is read before the rest. -/
theorem suffix_of_map {o : ι × Option String}
    (ih : ∀ {os operands}, parse g args = some (os, operands) → Leaves args os operands)
    (h : (parse g args).map (fun p => (o :: p.1, p.2)) = some (os, operands)) :
    operands <:+ args := by
  obtain ⟨p, hp, hpo⟩ := Option.map_eq_some_iff.1 h
  obtain ⟨-, rfl⟩ := Prod.mk.inj hpo
  exact (ih hp).suffix

theorem leaves_of_parse : ∀ (args : List String) {os : List (ι × Option String)}
    {operands : List String}, parse g args = some (os, operands) → Leaves args os operands
  | [], os, operands, h => by
    obtain ⟨rfl, rfl⟩ := Prod.mk.inj (Option.some.inj h)
    exact .inl ⟨rfl, rfl, by simp⟩
  | arg :: rest, os, operands, h => by
    rw [parse] at h
    split at h
    · obtain ⟨rfl, rfl⟩ := Prod.mk.inj (Option.some.inj h)
      exact .inr List.suffix_rfl
    · next hclass =>
      obtain ⟨rfl, rfl⟩ := Prod.mk.inj (Option.some.inj h)
      refine .inl ⟨rfl, rfl, ?_⟩
      rintro _ ⟨⟩
      exact isOperand_of_classify g hclass
    · cases h
    · exact .inr (suffix_of_map (leaves_of_parse rest) h)
    · split_ifs at h
      · rcases rest with _ | ⟨value, rest⟩
        · cases h
        · exact .inr ((suffix_of_map (leaves_of_parse rest) h).trans (List.suffix_cons _ _))
      · exact .inr (suffix_of_map (leaves_of_parse rest) h)

/-- The arguments are left whole exactly if the first one is an operand. -/
theorem parse_eq_operands_iff {arg : String} {rest : List String} :
    parse g (arg :: rest) = some (os, arg :: rest) ↔ IsOperand arg ∧ os = [] := by
  constructor
  · intro h
    obtain ⟨hos, -, hoperand⟩ | hsuffix := leaves_of_parse _ h
    · exact ⟨hoperand arg rfl, hos⟩
    · have hle := hsuffix.length_le
      rw [List.length_cons, List.tail_cons] at hle
      omega
  · rintro ⟨h, rfl⟩
    exact parse_operand g h rest

end Agentbox.Lib.CommandLine
