import Mathlib.Tactic

/-! # JSON texts

The text of a list of strings in JSON, and of an object whose values are strings and numbers, and
the reading of such a text. Written texts escape what has to be escaped; read texts may use any
escape of the grammar, surrogate pairs included, and blanks between the tokens. -/

namespace Agentbox.Lib.Json

def quote : Char := Char.ofNat 0x22

def backslash : Char := Char.ofNat 0x5C

def hexDigit (n : Nat) : Char := "0123456789abcdef".toList.getD n '0'

/-! ### Writing -/

/-- The letter of a two-character escape. -/
def shortEscape (n : Nat) : Option Char :=
  match n with
  | 0x22 => some quote
  | 0x5C => some backslash
  | 0x08 => some 'b'
  | 0x09 => some 't'
  | 0x0A => some 'n'
  | 0x0C => some 'f'
  | 0x0D => some 'r'
  | _ => none

def escapeChar (c : Char) : List Char :=
  match shortEscape c.toNat with
  | some e => [backslash, e]
  | none =>
    if c.toNat < 0x20 then
      [backslash, 'u', '0', '0', hexDigit (c.toNat / 16), hexDigit (c.toNat % 16)]
    else [c]

def encodeString (s : String) : List Char := quote :: s.toList.flatMap escapeChar ++ [quote]

def encodeRest : List String → List Char
  | [] => [']']
  | s :: l => ',' :: encodeString s ++ encodeRest l

/-- `serde_json::to_string` of a list of strings. -/
def encodeStrings : List String → String
  | [] => "[]"
  | s :: l => String.ofList ('[' :: encodeString s ++ encodeRest l)

/-! ### Reading -/

def hexValue (c : Char) : Option Nat :=
  if '0' ≤ c ∧ c ≤ '9' then some (c.toNat - '0'.toNat)
  else if 'a' ≤ c ∧ c ≤ 'f' then some (c.toNat - 'a'.toNat + 10)
  else if 'A' ≤ c ∧ c ≤ 'F' then some (c.toNat - 'A'.toNat + 10)
  else none

def hexValue4 (a b c d : Char) : Option Nat := do
  let a ← hexValue a
  let b ← hexValue b
  let c ← hexValue c
  let d ← hexValue d
  return ((a * 16 + b) * 16 + c) * 16 + d

/-- The character of a two-character escape. -/
def shortUnescape (e : Char) : Option Char :=
  if e = quote ∨ e = backslash ∨ e = '/' then some e
  else if e = 'b' then some (Char.ofNat 0x08)
  else if e = 't' then some (Char.ofNat 0x09)
  else if e = 'n' then some (Char.ofNat 0x0A)
  else if e = 'f' then some (Char.ofNat 0x0C)
  else if e = 'r' then some (Char.ofNat 0x0D)
  else none

/-- What a character says about the string it stands in, when it is not within an escape. -/
inductive Token
  | close
  | escape
  | plain (c : Char)
  | bad

def token (c : Char) : Token :=
  if c = quote then .close
  else if c = backslash then .escape
  else if c.toNat < 0x20 then .bad
  else .plain c

/-- One character or escape at the head of a text, or the closing quote. -/
def decodeChar (l : List Char) : Option (Option Char × List Char) :=
  match l with
  | [] => none
  | c :: l =>
    match token c with
    | .close => some (none, l)
    | .bad => none
    | .plain c => some (some c, l)
    | .escape =>
      match l with
      | 'u' :: a :: b :: c :: d :: l =>
        (hexValue4 a b c d).bind fun n =>
          if 0xD800 ≤ n ∧ n < 0xDC00 then
            match l with
            | e :: 'u' :: a :: b :: c :: d :: l =>
              (hexValue4 a b c d).bind fun m =>
                if e = backslash ∧ 0xDC00 ≤ m ∧ m < 0xE000 then
                  some (some (Char.ofNat (0x10000 + (n - 0xD800) * 0x400 + (m - 0xDC00))), l)
                else none
            | _ => none
          else if 0xDC00 ≤ n ∧ n < 0xE000 then none
          else some (some (Char.ofNat n), l)
      | e :: l => (shortUnescape e).map fun c => (some c, l)
      | [] => none

/-- The characters of a string up to its closing quote; `fuel` bounds the length of the text. -/
def decodeChars : Nat → List Char → Option (List Char × List Char)
  | 0, _ => none
  | fuel + 1, l =>
    match decodeChar l with
    | none => none
    | some (none, l) => some ([], l)
    | some (some c, l) => (decodeChars fuel l).map fun (s, l) => (c :: s, l)

def isBlank (c : Char) : Bool := c == ' ' || c == '\n' || c == '\t' || c == '\r'

def skip (l : List Char) : List Char := l.dropWhile isBlank

def decodeString (l : List Char) : Option (String × List Char) :=
  match skip l with
  | [] => none
  | c :: l => if c = quote then
      (decodeChars (l.length + 1) l).map fun (s, l) => (String.ofList s, l) else none

/-- The strings after the first one. -/
def decodeRest : Nat → List Char → Option (List String × List Char)
  | 0, _ => none
  | fuel + 1, l =>
    match skip l with
    | ']' :: l => some ([], l)
    | ',' :: l => (decodeString l).bind fun (s, l) =>
        (decodeRest fuel l).map fun (ss, l) => (s :: ss, l)
    | _ => none

/-- `serde_json::from_str` at a list of strings. -/
def decodeStrings (text : String) : Option (List String) :=
  match skip text.toList with
  | '[' :: l =>
    let result := match skip l with
      | ']' :: l => some ([], l)
      | _ => (decodeString l).bind fun (s, l) =>
          (decodeRest (l.length + 1) l).map fun (ss, l) => (s :: ss, l)
    result.bind fun (ss, l) => if skip l = [] then some ss else none
  | _ => none

/-! ### What is written reads back -/

theorem shortUnescape_of_shortEscape {c e : Char} (h : shortEscape c.toNat = some e) :
    shortUnescape e = some c ∧ e ≠ 'u' := by
  have hc : ∀ n, c.toNat = n → c = Char.ofNat n := fun n hn => by rw [← hn, Char.ofNat_toNat]
  unfold shortEscape at h
  split at h
  all_goals first
    | (next hn => rw [hc _ hn, ← Option.some.inj h]; decide)
    | cases h

theorem hexValue4_hexDigit : ∀ n < 0x20,
    hexValue4 '0' '0' (hexDigit (n / 16)) (hexDigit (n % 16)) = some n := by decide

theorem decodeChar_escape (c : Char) (l : List Char) :
    decodeChar (escapeChar c ++ l) = some (some c, l) := by
  unfold escapeChar
  split
  · next e he =>
    obtain ⟨hu, hne⟩ := shortUnescape_of_shortEscape he
    have htoken : token backslash = .escape := rfl
    simp only [List.cons_append, List.nil_append, decodeChar, htoken]
    split
    · next h => exact absurd (List.cons.inj h).1 hne
    · next h =>
      obtain ⟨rfl, rfl⟩ := List.cons.inj h
      rw [hu]
      rfl
    · next h => cases h
  · next hshort =>
    split_ifs with hlt
    · have htoken : token backslash = .escape := rfl
      simp only [List.cons_append, List.nil_append, decodeChar, htoken,
        hexValue4_hexDigit _ hlt, Option.bind_some]
      rw [if_neg (by omega), if_neg (by omega), Char.ofNat_toNat]
    · have hq : c ≠ quote := fun h => by rw [h] at hshort; revert hshort; decide
      have hb : c ≠ backslash := fun h => by rw [h] at hshort; revert hshort; decide
      simp only [List.cons_append, List.nil_append, decodeChar, token, if_neg hq, if_neg hb,
        if_neg hlt]

theorem decodeChars_escape : ∀ (s : List Char) (l : List Char) (fuel : Nat), s.length < fuel →
    decodeChars fuel (s.flatMap escapeChar ++ quote :: l) = some (s, l)
  | [], l, fuel + 1, _ => by
    have htoken : token quote = .close := rfl
    simp only [List.flatMap_nil, List.nil_append, decodeChars, decodeChar, htoken]
  | c :: s, l, fuel + 1, h => by
    have ih := decodeChars_escape s l fuel (by simpa using h)
    rw [List.flatMap_cons, List.append_assoc, decodeChars, decodeChar_escape]
    simp only [ih, Option.map_some]

theorem length_le_flatMap_escape : ∀ s : List Char, s.length ≤ (s.flatMap escapeChar).length
  | [] => le_rfl
  | c :: s => by
    have ih := length_le_flatMap_escape s
    have hc : 1 ≤ (escapeChar c).length := by
      unfold escapeChar
      split
      · simp
      · split_ifs <;> simp
    rw [List.flatMap_cons, List.length_append, List.length_cons]
    omega

theorem decodeString_encodeString (s : String) (l : List Char) :
    decodeString (encodeString s ++ l) = some (s, l) := by
  have hskip : skip (quote :: (s.toList.flatMap escapeChar ++ quote :: l)) =
      quote :: (s.toList.flatMap escapeChar ++ quote :: l) := rfl
  have hlen := length_le_flatMap_escape s.toList
  unfold decodeString encodeString
  rw [List.append_assoc, List.cons_append, List.singleton_append, hskip]
  simp only [↓reduceIte]
  rw [decodeChars_escape _ _ _ (by rw [List.length_append]; omega), Option.map_some,
    String.ofList_toList]

theorem decodeRest_encodeRest : ∀ (ss : List String) (l : List Char) (fuel : Nat),
    ss.length < fuel → decodeRest fuel (encodeRest ss ++ l) = some (ss, l)
  | [], _, _ + 1, _ => rfl
  | s :: ss, l, fuel + 1, h => by
    have ih := decodeRest_encodeRest ss l fuel (by simpa using h)
    have hskip : skip (encodeRest (s :: ss) ++ l) =
      ',' :: (encodeString s ++ (encodeRest ss ++ l)) := by
      rw [encodeRest, List.cons_append, List.cons_append, List.append_assoc]
      rfl
    rw [decodeRest, hskip]
    simp only [decodeString_encodeString, Option.bind_some, ih, Option.map_some]

theorem length_lt_encodeRest : ∀ ss : List String, ss.length < (encodeRest ss).length
  | [] => Nat.one_pos
  | s :: ss => by
    have ih := length_lt_encodeRest ss
    rw [encodeRest, List.cons_append, List.length_cons, List.length_cons, List.length_append]
    omega

/-- **Round trip.** A written list reads back as itself. -/
theorem decodeStrings_encodeStrings : ∀ ss : List String,
    decodeStrings (encodeStrings ss) = some ss
  | [] => by decide
  | s :: ss => by
    have hskip : skip ('[' :: encodeString s ++ encodeRest ss) =
      '[' :: (encodeString s ++ encodeRest ss) := rfl
    have hskip2 : skip (encodeString s ++ encodeRest ss) =
      quote :: (s.toList.flatMap escapeChar ++ [quote] ++ encodeRest ss) := rfl
    have hrest := decodeRest_encodeRest ss [] ((encodeRest ss).length + 1)
      (Nat.lt_succ_of_lt (length_lt_encodeRest ss))
    rw [List.append_nil] at hrest
    rw [decodeStrings, encodeStrings, String.toList_ofList, hskip]
    simp only [hskip2]
    rw [decodeString_encodeString]
    split
    · next h =>
      have hne : quote ≠ ']' := by decide
      exact absurd (List.cons.inj h).1 hne
    · simp only [Option.bind_some, hrest, Option.map_some]
      rfl

/-- The text starts with a bracket. -/
theorem mem_encodeStrings : ∀ ss : List String, '[' ∈ (encodeStrings ss).toList
  | [] => by decide
  | s :: ss => by
    rw [encodeStrings, String.toList_ofList]
    exact List.mem_cons_self

/-! ### Objects of strings and numbers -/

inductive Scalar
  | string (s : String)
  | number (n : Nat)
  deriving DecidableEq

def encodeScalar : Scalar → List Char
  | .string s => encodeString s
  | .number n => Nat.toDigits 10 n

def encodeMember (m : String × Scalar) : List Char :=
  encodeString m.1 ++ ':' :: ' ' :: encodeScalar m.2

def encodeMembers : List (String × Scalar) → List Char
  | [] => ['\n', '}']
  | m :: l => ',' :: '\n' :: ' ' :: ' ' :: encodeMember m ++ encodeMembers l

/-- `serde_json::to_string_pretty` of an object with the members `m` and `l`. -/
def encodeObject (m : String × Scalar) (l : List (String × Scalar)) : String :=
  String.ofList ('{' :: '\n' :: ' ' :: ' ' :: encodeMember m ++ encodeMembers l)

def decodeNumber (l : List Char) : Option (Nat × List Char) :=
  if l.takeWhile Char.isDigit = [] then none
  else some (Nat.ofDigitChars 10 (l.takeWhile Char.isDigit) 0, l.dropWhile Char.isDigit)

def decodeScalar (l : List Char) : Option (Scalar × List Char) :=
  if (skip l).head? = some quote then
    (decodeString l).map fun (s, l) => (.string s, l)
  else (decodeNumber (skip l)).map fun (n, l) => (.number n, l)

def decodeMember (l : List Char) : Option ((String × Scalar) × List Char) :=
  (decodeString l).bind fun (name, l) => match skip l with
    | ':' :: l => (decodeScalar l).map fun (value, l) => ((name, value), l)
    | _ => none

/-- The members after the first one. -/
def decodeMembers : Nat → List Char → Option (List (String × Scalar) × List Char)
  | 0, _ => none
  | fuel + 1, l =>
    match skip l with
    | '}' :: l => some ([], l)
    | ',' :: l => (decodeMember l).bind fun (m, l) =>
        (decodeMembers fuel l).map fun (ms, l) => (m :: ms, l)
    | _ => none

/-- The members of an object whose values are strings and numbers. -/
def decodeObject (text : String) : Option (List (String × Scalar)) :=
  match skip text.toList with
  | '{' :: l =>
    let result := match skip l with
      | '}' :: l => some ([], l)
      | _ => (decodeMember l).bind fun (m, l) =>
          (decodeMembers (l.length + 1) l).map fun (ms, l) => (m :: ms, l)
    result.bind fun (ms, l) => if skip l = [] then some ms else none
  | _ => none

theorem decodeNumber_toDigits (n : Nat) (c : Char) (hc : c.isDigit = false) (l : List Char) :
    decodeNumber (Nat.toDigits 10 n ++ c :: l) = some (n, c :: l) := by
  have hdigit : ∀ d ∈ Nat.toDigits 10 n, d.isDigit = true := fun d hd =>
    Nat.isDigit_of_mem_toDigits (by decide) (by decide) hd
  have htake : (Nat.toDigits 10 n ++ c :: l).takeWhile Char.isDigit = Nat.toDigits 10 n := by
    rw [List.takeWhile_append_of_pos hdigit, List.takeWhile_cons_of_neg (by simp [hc]),
      List.append_nil]
  have hdrop : (Nat.toDigits 10 n ++ c :: l).dropWhile Char.isDigit = c :: l := by
    rw [List.dropWhile_append_of_pos hdigit, List.dropWhile_cons_of_neg (by simp [hc])]
  rw [decodeNumber, htake, hdrop, if_neg Nat.toDigits_ne_nil,
    Nat.ofDigitChars_toDigits (by decide) (by decide)]

theorem isBlank_of_isDigit {c : Char} (h : c.isDigit = true) : isBlank c = false := by
  by_contra hne
  rw [Bool.not_eq_false] at hne
  simp only [isBlank, Bool.or_eq_true, beq_iff_eq] at hne
  rcases hne with ((rfl | rfl) | rfl) | rfl <;> revert h <;> decide

theorem decodeScalar_encodeScalar (v : Scalar) {c : Char} (hc : c.isDigit = false)
    (l : List Char) : decodeScalar (' ' :: (encodeScalar v ++ c :: l)) = some (v, c :: l) := by
  cases v with
  | string s =>
    have hhead : (skip (' ' :: (encodeString s ++ c :: l))).head? = some quote := rfl
    have hstring : decodeString (' ' :: (encodeString s ++ c :: l)) =
        decodeString (encodeString s ++ c :: l) := rfl
    rw [encodeScalar, decodeScalar, if_pos hhead, hstring, decodeString_encodeString]
    rfl
  | number n =>
    obtain ⟨d, ds, hds⟩ := List.exists_cons_of_ne_nil (Nat.toDigits_ne_nil (n := n) (b := 10))
    have hdigit : d.isDigit = true := Nat.isDigit_of_mem_toDigits (by decide) (by decide)
      (hds ▸ List.mem_cons_self : d ∈ Nat.toDigits 10 n)
    have hskip : skip (' ' :: (Nat.toDigits 10 n ++ c :: l)) = Nat.toDigits 10 n ++ c :: l := by
      have hblank := isBlank_of_isDigit hdigit
      rw [hds, skip, List.dropWhile_cons_of_pos (by rfl), List.cons_append,
        List.dropWhile_cons_of_neg (by rw [hblank]; exact Bool.false_ne_true)]
    have hhead : ¬ (Nat.toDigits 10 n ++ c :: l).head? = some quote := by
      rw [hds]
      rintro ⟨⟩
      exact absurd hdigit (by decide)
    rw [encodeScalar, decodeScalar, hskip, if_neg hhead, decodeNumber_toDigits n c hc]
    rfl

theorem decodeMember_encodeMember (m : String × Scalar) {c : Char} (hc : c.isDigit = false)
    (l : List Char) :
    decodeMember ('\n' :: ' ' :: ' ' :: (encodeMember m ++ c :: l)) = some (m, c :: l) := by
  have hstring : ∀ l, decodeString ('\n' :: ' ' :: ' ' :: l) = decodeString l := fun _ => rfl
  have hskip : ∀ l, skip (':' :: l) = ':' :: l := fun _ => rfl
  rw [decodeMember, encodeMember, hstring, List.append_assoc, decodeString_encodeString]
  simp only [Option.bind_some, List.cons_append, hskip, decodeScalar_encodeScalar m.2 hc,
    Option.map_some]

/-- What comes after a member is not a digit. -/
theorem encodeMembers_head (ms : List (String × Scalar)) :
    ∃ c l, encodeMembers ms = c :: l ∧ c.isDigit = false := by
  cases ms with
  | nil => exact ⟨_, _, rfl, by decide⟩
  | cons m ms => exact ⟨_, _, rfl, by decide⟩

theorem decodeMember_append (m : String × Scalar) (ms : List (String × Scalar)) :
    decodeMember ('\n' :: ' ' :: ' ' :: (encodeMember m ++ encodeMembers ms ++ ['\n'])) =
      some (m, encodeMembers ms ++ ['\n']) := by
  obtain ⟨c, l, hms, hc⟩ := encodeMembers_head ms
  rw [hms, List.append_assoc, List.cons_append]
  exact decodeMember_encodeMember m hc _

theorem decodeMembers_encodeMembers : ∀ (ms : List (String × Scalar)) (fuel : Nat),
    ms.length < fuel → decodeMembers fuel (encodeMembers ms ++ ['\n']) = some (ms, ['\n'])
  | [], _ + 1, _ => rfl
  | m :: ms, fuel + 1, h => by
    have ih := decodeMembers_encodeMembers ms fuel (by simpa using h)
    have hskip : skip (encodeMembers (m :: ms) ++ ['\n']) =
      ',' :: '\n' :: ' ' :: ' ' :: (encodeMember m ++ encodeMembers ms ++ ['\n']) := rfl
    rw [decodeMembers, hskip]
    simp only [decodeMember_append, Option.bind_some, ih, Option.map_some]

theorem length_lt_encodeMembers : ∀ ms : List (String × Scalar),
    ms.length < (encodeMembers ms).length
  | [] => by decide
  | m :: ms => by
    have ih := length_lt_encodeMembers ms
    simp only [encodeMembers, List.length_cons, List.length_append, List.cons_append]
    omega

/-- **Round trip.** A written object, with a line end after it, reads back as itself. -/
theorem decodeObject_encodeObject (m : String × Scalar) (ms : List (String × Scalar)) :
    decodeObject (encodeObject m ms ++ "\n") = some (m :: ms) := by
  have htext : (encodeObject m ms ++ "\n").toList =
      '{' :: '\n' :: ' ' :: ' ' :: (encodeMember m ++ encodeMembers ms ++ ['\n']) := by
    rw [encodeObject, String.toList_append, String.toList_ofList]
    rfl
  have hskip : ∀ l, skip ('{' :: l) = '{' :: l := fun _ => rfl
  have hskip2 : skip ('\n' :: ' ' :: ' ' :: (encodeMember m ++ encodeMembers ms ++ ['\n'])) =
    quote :: (m.1.toList.flatMap escapeChar ++ [quote] ++ ':' :: ' ' :: encodeScalar m.2 ++
      encodeMembers ms ++ ['\n']) := rfl
  have hms := decodeMembers_encodeMembers ms ((encodeMembers ms ++ ['\n']).length + 1) (by
    have hlen := length_lt_encodeMembers ms
    rw [List.length_append]
    omega)
  rw [decodeObject, htext, hskip]
  simp only [hskip2]
  split
  · next h =>
    have hne : quote ≠ '}' := by decide
    exact absurd (List.cons.inj h).1 hne
  · simp only [decodeMember_append, Option.bind_some, hms, Option.map_some]
    rfl

end Agentbox.Lib.Json
