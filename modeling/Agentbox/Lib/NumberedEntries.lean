import Agentbox.Lib.Entries

/-! # Numbered entries

A list of pairs of strings written into an ordered map: their number under one key, and the parts of
the pair `i` under the keys `key i` and `value i`. Reading them back gives the list, whatever else is
in the map under other keys. -/

namespace Agentbox.Lib.NumberedEntries

open Agentbox.Lib.Entries

/-- The keys of the entries, no two of which are one key. -/
structure Numbering (κ : Type) where
  count : κ
  key : Nat → κ
  value : Nat → κ
  count_ne_key : ∀ i, count ≠ key i
  count_ne_value : ∀ i, count ≠ value i
  key_ne_value : ∀ i j, key i ≠ value j
  key_injective : Function.Injective key
  value_injective : Function.Injective value

/-- An unsigned decimal number. -/
def parseDecimal (s : String) : Option Nat :=
  if s.toList ≠ [] ∧ s.toList.all Char.isDigit then some (Nat.ofDigitChars 10 s.toList 0) else none

theorem parseDecimal_repr (n : Nat) : parseDecimal (Nat.repr n) = some n := by
  have hdigits : (Nat.repr n).toList = Nat.toDigits 10 n := Nat.toList_repr
  have hall : (Nat.toDigits 10 n).all Char.isDigit = true := List.all_eq_true.2 fun c hc =>
    Nat.isDigit_of_mem_toDigits (by decide) (by decide) hc
  rw [parseDecimal, hdigits, if_pos ⟨Nat.toDigits_ne_nil, hall⟩, Nat.ofDigitChars_ten_toDigits]

section
variable {κ : Type} {cmp : κ → κ → Ordering} [Std.TransCmp cmp]

namespace Numbering

variable (n : Numbering κ)

/-- A key of the numbering. -/
def Uses (k : κ) : Prop := k = n.count ∨ ∃ i, k = n.key i ∨ k = n.value i

/-- The entries, numbered from `i` on. -/
def appendFrom (i : Nat) : List (String × String) → Std.ExtTreeMap κ String cmp →
    Std.ExtTreeMap κ String cmp
  | [], m => m
  | e :: l, m => appendFrom (i + 1) l ((m.insert (n.key i) e.1).insert (n.value i) e.2)

/-- The entries with their number; no entries leave the map as it is. -/
def append (m : Std.ExtTreeMap κ String cmp) (l : List (String × String)) :
    Std.ExtTreeMap κ String cmp :=
  if l = [] then m else n.appendFrom 0 l (m.insert n.count (Nat.repr l.length))

def decodeFrom (m : Std.ExtTreeMap κ String cmp) : Nat → Nat → Option (List (String × String))
  | _, 0 => some []
  | i, k + 1 =>
    match m[n.key i]?, m[n.value i]? with
    | some a, some b => (decodeFrom m (i + 1) k).map ((a, b) :: ·)
    | _, _ => none

/-- The entries of a map: none without a number, and an error where the number is not one or an
entry is missing. -/
def decode (m : Std.ExtTreeMap κ String cmp) : Option (List (String × String)) :=
  match m[n.count]? with
  | none => some []
  | some text => (parseDecimal text).bind (n.decodeFrom m 0)

variable {n} {m m' : Std.ExtTreeMap κ String cmp} {l : List (String × String)} {k : κ}

theorem decodeFrom_congr (h : ∀ i, m[n.key i]? = m'[n.key i]? ∧ m[n.value i]? = m'[n.value i]?) :
    ∀ i k, n.decodeFrom m i k = n.decodeFrom m' i k
  | _, 0 => rfl
  | i, k + 1 => by
    rw [decodeFrom, decodeFrom, (h i).1, (h i).2, decodeFrom_congr h (i + 1) k]

/-- Only the keys of the numbering are read. -/
theorem decode_congr (h : ∀ k, n.Uses k → m[k]? = m'[k]?) : n.decode m = n.decode m' := by
  have hentries : ∀ i, m[n.key i]? = m'[n.key i]? ∧ m[n.value i]? = m'[n.value i]? := fun i =>
    ⟨h _ (Or.inr ⟨i, Or.inl rfl⟩), h _ (Or.inr ⟨i, Or.inr rfl⟩)⟩
  have hfrom : n.decodeFrom m = n.decodeFrom m' := by
    funext i k
    exact decodeFrom_congr hentries i k
  rw [decode, decode, h _ (Or.inl rfl), hfrom]

variable [Std.LawfulEqCmp cmp]

theorem getElem?_appendFrom : ∀ (l : List (String × String)) (i : Nat)
    (m : Std.ExtTreeMap κ String cmp), (∀ j, i ≤ j → k ≠ n.key j ∧ k ≠ n.value j) →
      (n.appendFrom i l m)[k]? = m[k]?
  | [], _, _, _ => rfl
  | e :: l, i, m, h => by
    obtain ⟨hkey, hvalue⟩ := h i le_rfl
    rw [appendFrom, getElem?_appendFrom l (i + 1) _ fun j hj => h j (by omega),
      getElem?_insert_of_ne _ _ hvalue.symm, getElem?_insert_of_ne _ _ hkey.symm]

theorem decodeFrom_appendFrom : ∀ (l : List (String × String)) (i : Nat)
    (m : Std.ExtTreeMap κ String cmp),
      n.decodeFrom (n.appendFrom i l m) i l.length = some l
  | [], _, _ => rfl
  | e :: l, i, m => by
    have hkey : (n.appendFrom i (e :: l) m)[n.key i]? = some e.1 := by
      rw [appendFrom, getElem?_appendFrom l _ _ fun j hj =>
        ⟨fun heq => by have := n.key_injective heq; omega, n.key_ne_value i j⟩,
        getElem?_insert_of_ne _ _ (n.key_ne_value i i).symm,
        Std.ExtTreeMap.getElem?_insert_self]
    have hvalue : (n.appendFrom i (e :: l) m)[n.value i]? = some e.2 := by
      rw [appendFrom, getElem?_appendFrom l _ _ fun j hj =>
        ⟨(n.key_ne_value j i).symm, fun heq => by have := n.value_injective heq; omega⟩,
        Std.ExtTreeMap.getElem?_insert_self]
    rw [List.length_cons, decodeFrom, hkey, hvalue]
    simp only
    rw [appendFrom, decodeFrom_appendFrom l (i + 1)]
    rfl

/-- What is under other keys stays. -/
theorem getElem?_append (h : ¬ n.Uses k) : (n.append m l)[k]? = m[k]? := by
  have hcount : n.count ≠ k := fun heq => h (Or.inl heq.symm)
  rw [append]
  split_ifs
  · rfl
  · rw [getElem?_appendFrom l 0 _ fun j _ => ⟨fun heq => h (Or.inr ⟨j, Or.inl heq⟩),
      fun heq => h (Or.inr ⟨j, Or.inr heq⟩)⟩, getElem?_insert_of_ne _ _ hcount]

/-- The entries that are written are the entries that are read. -/
theorem decode_append (h : m[n.count]? = none) : n.decode (n.append m l) = some l := by
  rw [append]
  split_ifs with hl
  · rw [decode, h, hl]
  · have hcount : (n.appendFrom 0 l (m.insert n.count (Nat.repr l.length)))[n.count]? =
        some (Nat.repr l.length) := by
      rw [getElem?_appendFrom l 0 _ fun j _ => ⟨n.count_ne_key j, n.count_ne_value j⟩,
        Std.ExtTreeMap.getElem?_insert_self]
    rw [decode, hcount]
    simp only [parseDecimal_repr, Option.bind_some]
    exact decodeFrom_appendFrom l 0 _

end Numbering

end

end Agentbox.Lib.NumberedEntries
