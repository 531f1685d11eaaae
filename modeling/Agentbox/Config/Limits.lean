import Agentbox.Base.Text

/-! # Resource limits

`CpuLimit`, `MemoryLimit` and `ResourceLimits` of `config.rs`. A limit keeps the text it was parsed
from, and can only hold a text that parses. The text of a CPU limit is read as Rust reads an `f64`:
`decimalValue` is its exact value, and rounding matters in two places only, where a large value
becomes infinite and where a small negative one becomes the zero that is not below zero. -/

namespace Agentbox.Config.Limits

open Agentbox.Base.Text

/-! ### Decimal texts -/

/-- An unsigned decimal number: `digits * 10 ^ (expDigits or -expDigits) / 10 ^ fractionLength`. -/
structure Decimal where
  digits : Nat
  fractionLength : Nat
  expNegative : Bool
  expDigits : Nat
  deriving DecidableEq, Repr

def parseExponent : List Char → Option (Bool × Nat)
  | '+' :: l => if l ≠ [] ∧ l.all isAsciiDigit then some (false, digitsValue l) else none
  | '-' :: l => if l ≠ [] ∧ l.all isAsciiDigit then some (true, digitsValue l) else none
  | l => if l ≠ [] ∧ l.all isAsciiDigit then some (false, digitsValue l) else none

/-- The part of a number from its fraction on, after the digits `int`. -/
def parseFraction (int : List Char) (rest : List Char) : Option (List Char × List Char) :=
  match rest with
  | '.' :: l =>
    let fraction := l.takeWhile isAsciiDigit
    if int = [] ∧ fraction = [] then none else some (fraction, l.dropWhile isAsciiDigit)
  | l => if int = [] then none else some ([], l)

/-- The number grammar of `f64::from_str`, without the sign. -/
def parseDecimal (s : List Char) : Option Decimal :=
  let int := s.takeWhile isAsciiDigit
  match parseFraction int (s.dropWhile isAsciiDigit) with
  | none => none
  | some (fraction, []) => some ⟨digitsValue (int ++ fraction), fraction.length, false, 0⟩
  | some (fraction, c :: l) =>
    if c = 'e' ∨ c = 'E' then
      (parseExponent l).map fun e => ⟨digitsValue (int ++ fraction), fraction.length, e.1, e.2⟩
    else none

namespace Decimal

def numerator (d : Decimal) : Nat := if d.expNegative then d.digits else d.digits * 10 ^ d.expDigits

def denominator (d : Decimal) : Nat :=
  10 ^ d.fractionLength * if d.expNegative then 10 ^ d.expDigits else 1

/-- The nearest `f64` is finite: the value is below the midpoint of the last one and `2 ^ 1024`. -/
def isFinite (d : Decimal) : Bool := d.numerator < (2 ^ 1024 - 2 ^ 970) * d.denominator

/-- The nearest `f64` is zero: the value is at most half of the smallest one. -/
def roundsToZero (d : Decimal) : Bool := d.numerator * 2 ^ 1075 ≤ d.denominator

end Decimal

/-- The text parses as an `f64` that is finite and not below zero. -/
def isNonNegativeF64 (s : List Char) : Bool :=
  match s with
  | '-' :: l => (parseDecimal l).any fun d => d.isFinite && d.roundsToZero
  | '+' :: l => (parseDecimal l).any fun d => d.isFinite
  | l => (parseDecimal l).any fun d => d.isFinite

/-! ### The limits -/

def isCpuLimit (value : String) : Bool :=
  trim value == value && !(trim value == "") && isNonNegativeF64 value.toList

/-- `str::strip_suffix(['b', 'k', 'm', 'g'])`. -/
def stripUnit (l : List Char) : List Char :=
  if l.getLast?.any fun c => c == 'b' || c == 'k' || c == 'm' || c == 'g' then l.dropLast else l

def isMemoryLimit (value : String) : Bool :=
  trim value == value && !(trim value == "") && !(stripUnit value.toList).isEmpty &&
    (stripUnit value.toList).all isAsciiDigit

structure CpuLimit where
  text : String
  valid : isCpuLimit text = true
  deriving DecidableEq

structure MemoryLimit where
  text : String
  valid : isMemoryLimit text = true
  deriving DecidableEq

namespace CpuLimit

def isUnlimited (limit : CpuLimit) : Bool := limit.text == "0"

def parse (value : String) : Except String CpuLimit :=
  if h : isCpuLimit value then .ok ⟨value, h⟩
  else .error "CPU limit must be a non-negative decimal number"

theorem parse_text (limit : CpuLimit) : parse limit.text = .ok limit := dif_pos limit.valid

end CpuLimit

namespace MemoryLimit

def isUnlimited (limit : MemoryLimit) : Bool := limit.text == "0"

def parse (value : String) : Except String MemoryLimit :=
  if h : isMemoryLimit value then .ok ⟨value, h⟩
  else .error "memory limit must use Podman format <number>[b|k|m|g]"

theorem parse_text (limit : MemoryLimit) : parse limit.text = .ok limit := dif_pos limit.valid

end MemoryLimit

structure ResourceLimits where
  cpus : Option CpuLimit := none
  memory : Option MemoryLimit := none
  deriving DecidableEq

structure ResourceLimitOverrides where
  cpus : Option CpuLimit := none
  memory : Option MemoryLimit := none
  deriving DecidableEq

structure StoredResourceLimitLabels where
  cpus : String
  memory : String
  deriving DecidableEq

namespace ResourceLimits

def overlay (limits : ResourceLimits) (overrides : ResourceLimitOverrides) : ResourceLimits :=
  ⟨overrides.cpus.or limits.cpus, overrides.memory.or limits.memory⟩

def storedOrZero (limits : ResourceLimits) : StoredResourceLimitLabels :=
  ⟨(limits.cpus.map CpuLimit.text).getD "0", (limits.memory.map MemoryLimit.text).getD "0"⟩

/-- What `append_common_run_args` makes of the limits. -/
def podmanArgs (limits : ResourceLimits) : List String :=
  (match limits.cpus with
    | some cpus => if cpus.isUnlimited then [] else ["--cpus", cpus.text]
    | none => []) ++
  (match limits.memory with
    | some memory => if memory.isUnlimited then [] else ["--memory", memory.text]
    | none => [])

end ResourceLimits

/-! ### The texts of limits -/

theorem isCpuLimit_zero : isCpuLimit "0" = true := by decide +kernel

theorem isMemoryLimit_zero : isMemoryLimit "0" = true := by decide +kernel

theorem isBlank_of_isCpuLimit {value : String} (h : isCpuLimit value = true) :
    isBlank value = false := by
  rw [isCpuLimit, Bool.and_eq_true, Bool.and_eq_true, Bool.not_eq_true'] at h
  exact h.1.2

theorem isBlank_of_isMemoryLimit {value : String} (h : isMemoryLimit value = true) :
    isBlank value = false := by
  rw [isMemoryLimit, Bool.and_eq_true, Bool.and_eq_true, Bool.and_eq_true, Bool.not_eq_true'] at h
  exact h.1.1.2

theorem isBlank_storedOrZero (limits : ResourceLimits) :
    isBlank limits.storedOrZero.cpus = false ∧ isBlank limits.storedOrZero.memory = false := by
  obtain ⟨cpus, memory⟩ := limits
  constructor
  · rcases cpus with _ | cpus
    · exact isBlank_of_isCpuLimit isCpuLimit_zero
    · exact isBlank_of_isCpuLimit cpus.valid
  · rcases memory with _ | memory
    · exact isBlank_of_isMemoryLimit isMemoryLimit_zero
    · exact isBlank_of_isMemoryLimit memory.valid

def CpuLimit.zero : CpuLimit := ⟨"0", isCpuLimit_zero⟩

def MemoryLimit.zero : MemoryLimit := ⟨"0", isMemoryLimit_zero⟩

/-- The stored text of limits reads back as the limits, with a zero for one that is not given. -/
theorem parse_storedOrZero (limits : ResourceLimits) :
    CpuLimit.parse limits.storedOrZero.cpus = .ok (limits.cpus.getD .zero) ∧
      MemoryLimit.parse limits.storedOrZero.memory = .ok (limits.memory.getD .zero) := by
  obtain ⟨cpus, memory⟩ := limits
  constructor
  · rcases cpus with _ | cpus
    · exact dif_pos isCpuLimit_zero
    · exact cpus.parse_text
  · rcases memory with _ | memory
    · exact dif_pos isMemoryLimit_zero
    · exact memory.parse_text

/-- A zero has the arguments of a limit that is not given. -/
theorem podmanArgs_getD_zero (limits : ResourceLimits) :
    ResourceLimits.podmanArgs ⟨some (limits.cpus.getD .zero), some (limits.memory.getD .zero)⟩ =
      limits.podmanArgs := by
  obtain ⟨cpus, memory⟩ := limits
  cases cpus <;> cases memory <;> rfl

end Agentbox.Config.Limits
