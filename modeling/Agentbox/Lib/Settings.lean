import Mathlib.Data.List.Basic

/-! # Settings read in order

A fold over settings, each a key with a value: a field that the settings of one kind replace has the
value of the last of them, and a field that they extend has all of their values in order. -/

namespace Agentbox.Lib.Settings

variable {σ κ ν β α : Type}

/-- The value of the last setting of a kind. -/
def lastValue (isKind : κ → Bool) (settings : List (κ × ν)) : Option ν :=
  (settings.filter fun setting => isKind setting.1).getLast?.map Prod.snd

/-- The settings of a kind replace a field, and the others keep it. -/
theorem foldl_last {step : σ → κ × ν → σ} {get : σ → β} {isKind : κ → Bool} {value : ν → β}
    (hset : ∀ s k v, isKind k = true → get (step s (k, v)) = value v)
    (hkeep : ∀ s k v, isKind k = false → get (step s (k, v)) = get s) :
    ∀ (settings : List (κ × ν)) (s : σ), get (settings.foldl step s) =
      ((lastValue isKind settings).map value).getD (get s)
  | [], _ => rfl
  | (k, v) :: settings, s => by
    have ih := foldl_last hset hkeep settings (step s (k, v))
    rw [List.foldl_cons, ih]
    unfold lastValue
    rcases hk : isKind k with _ | _
    · simp only [List.filter_cons, hk, Bool.false_eq_true, if_false, hkeep s k v hk]
    · simp only [List.filter_cons, hk, if_true, List.getLast?_cons, hset s k v hk]
      generalize (List.filter _ settings).getLast? = last
      rcases last with _ | last <;> rfl

/-- The settings of a kind extend a field by their values, one after the other. -/
theorem foldl_extend {step : σ → κ × List ν → σ} {get : σ → β} {isKind : κ → Bool}
    {push : β → ν → β}
    (hset : ∀ s k v, isKind k = true → get (step s (k, v)) = v.foldl push (get s))
    (hkeep : ∀ s k v, isKind k = false → get (step s (k, v)) = get s) :
    ∀ (settings : List (κ × List ν)) (s : σ), get (settings.foldl step s) =
      ((settings.filter fun setting => isKind setting.1).flatMap Prod.snd).foldl push (get s)
  | [], _ => rfl
  | (k, v) :: settings, s => by
    have ih := foldl_extend hset hkeep settings (step s (k, v))
    rw [List.foldl_cons, ih]
    rcases hk : isKind k with _ | _
    · simp only [List.filter_cons, hk, Bool.false_eq_true, if_false, hkeep s k v hk]
    · simp only [List.filter_cons, hk, if_true, List.flatMap_cons, List.foldl_append, hset s k v hk]

/-- `a` at the end of a list, unless it is there. -/
def pushUnique [BEq α] (l : List α) (a : α) : List α := if l.any (a == ·) then l else l ++ [a]

theorem foldl_pushUnique_loop [BEq α] : ∀ (l acc : List α),
    l.foldl pushUnique acc = List.eraseDupsBy.loop (· == ·) l acc.reverse
  | [], acc => by simp [List.eraseDupsBy.loop]
  | a :: l, acc => by
    rw [List.foldl_cons, foldl_pushUnique_loop l (pushUnique acc a), pushUnique,
      List.eraseDupsBy.loop, List.any_reverse]
    rcases acc.any (a == ·) with _ | _
    · rw [if_neg (by decide), List.reverse_append]
      rfl
    · rfl

theorem foldl_pushUnique [BEq α] (l : List α) : l.foldl pushUnique [] = l.eraseDups :=
  foldl_pushUnique_loop l []

end Agentbox.Lib.Settings
