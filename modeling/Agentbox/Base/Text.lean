import Mathlib.Data.List.TakeWhile
import Mathlib.Tactic

/-! # Text

The operations of Rust's `str` that agentbox uses. Strings are Unicode strings on both sides, and a
string is read here through its list of characters. -/

namespace Agentbox.Base.Text

/-- `char::is_whitespace`: the Unicode property `White_Space`. -/
def isWhitespace (c : Char) : Bool :=
  let n := c.toNat
  (9 ≤ n && n ≤ 13) || n == 0x20 || n == 0x85 || n == 0xA0 || n == 0x1680 ||
    (0x2000 ≤ n && n ≤ 0x200A) || n == 0x2028 || n == 0x2029 || n == 0x202F || n == 0x205F ||
    n == 0x3000

/-- `str::trim`. -/
def trim (s : String) : String :=
  String.ofList ((s.toList.dropWhile isWhitespace).reverse.dropWhile isWhitespace).reverse

/-- `s.trim().is_empty()`. -/
def isBlank (s : String) : Bool := trim s == ""

theorem isBlank_eq (s : String) : isBlank s = s.toList.all isWhitespace := by
  have hempty : trim s = "" ↔ ∀ c ∈ s.toList, isWhitespace c = true := by
    rw [trim, ← String.ofList_nil, String.ofList_inj, List.reverse_eq_nil_iff,
      List.dropWhile_eq_nil_iff]
    constructor
    · intro h c hc
      by_contra hw
      have hne : s.toList.dropWhile isWhitespace ≠ [] := fun h0 =>
        hw (List.dropWhile_eq_nil_iff.1 h0 c hc)
      have hin := h _ (List.mem_reverse.2 (List.head_mem hne))
      rw [List.head_dropWhile_not isWhitespace hne] at hin
      cases hin
    · intro h c hc
      exact h c (List.dropWhile_suffix _ |>.subset (List.mem_reverse.1 hc))
  rw [Bool.eq_iff_iff, isBlank, beq_iff_eq, hempty, List.all_eq_true]

theorem isBlank_of_mem {s : String} {c : Char} (hc : c ∈ s.toList) (hw : isWhitespace c = false) :
    isBlank s = false := by
  rw [isBlank_eq, List.all_eq_false]
  exact ⟨c, hc, by rw [hw]; decide⟩

/-- `char::is_ascii_digit`. -/
def isAsciiDigit (c : Char) : Bool := '0' ≤ c && c ≤ '9'

/-- `str::to_ascii_lowercase`. -/
def toAsciiLowercase (s : String) : String :=
  String.ofList (s.toList.map fun c => if 'A' ≤ c && c ≤ 'Z' then Char.ofNat (c.toNat + 32) else c)

def startsWith (s pre : String) : Bool := pre.toList.isPrefixOf s.toList

/-- The value of a list of decimal digits. -/
def digitsValue (l : List Char) : Nat := l.foldl (fun n c => 10 * n + (c.toNat - '0'.toNat)) 0

/-- `str::parse::<u16>`: an optional `+`, and at least one decimal digit. -/
def parseU16 (s : String) : Option Nat :=
  let digits := match s.toList with
    | '+' :: l => l
    | l => l
  if digits ≠ [] ∧ digits.all isAsciiDigit ∧ digitsValue digits < 2 ^ 16 then
    some (digitsValue digits)
  else none

/-- The digits of a `u16` after those read so far; the first character that does not fit decides the
text of the `ParseIntError`. -/
def readDigits (n : Nat) : List Char → Except String Nat
  | [] => .ok n
  | c :: l =>
    if !isAsciiDigit c then .error "invalid digit found in string"
    else if 10 * n + (c.toNat - '0'.toNat) < 2 ^ 16 then
      readDigits (10 * n + (c.toNat - '0'.toNat)) l
    else .error "number too large to fit in target type"

/-- `str::parse::<u16>` with the text of its error. -/
def readU16 (s : String) : Except String Nat :=
  let digits := match s.toList with
    | '+' :: l => l
    | l => l
  if s = "" then .error "cannot parse integer from empty string"
  else if digits = [] then .error "invalid digit found in string"
  else readDigits 0 digits

theorem le_foldl_digits (l : List Char) (n : Nat) :
    n ≤ l.foldl (fun n c => 10 * n + (c.toNat - '0'.toNat)) n := by
  induction l generalizing n with
  | nil => exact le_rfl
  | cons c l ih =>
    have hstep : n ≤ 10 * n + (c.toNat - '0'.toNat) := by omega
    exact hstep.trans (ih _)

theorem readDigits_eq_ok (l : List Char) : ∀ {n : Nat}, n < 2 ^ 16 → l.all isAsciiDigit = true →
    l.foldl (fun n c => 10 * n + (c.toNat - '0'.toNat)) n < 2 ^ 16 →
    readDigits n l = .ok (l.foldl (fun n c => 10 * n + (c.toNat - '0'.toNat)) n) := by
  induction l with
  | nil => exact fun _ _ _ => rfl
  | cons c l ih =>
    intro n _ hdigits hvalue
    rw [List.all_cons, Bool.and_eq_true] at hdigits
    have hstep := lt_of_le_of_lt (le_foldl_digits l _) hvalue
    rw [readDigits, hdigits.1, if_neg (by decide), if_pos hstep]
    exact ih hstep hdigits.2 hvalue

/-- A text that has a value is read as it. -/
theorem readU16_of_parseU16 {s : String} {n : Nat} (h : parseU16 s = some n) :
    readU16 s = .ok n := by
  unfold parseU16 at h
  unfold readU16
  extract_lets digits at h ⊢
  split_ifs at h with hdigits
  have hne : s ≠ "" := by
    rintro rfl
    exact hdigits.1 rfl
  rw [if_neg hne, if_neg hdigits.1, ← Option.some.inj h]
  exact readDigits_eq_ok digits (Nat.two_pow_pos 16) hdigits.2.1 hdigits.2.2

/-- `join(", ")`. -/
def joinComma (l : List String) : String := ", ".intercalate l

end Agentbox.Base.Text
