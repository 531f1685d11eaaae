import Agentbox.Lib.Delimited
import Agentbox.Lib.Json

/-! # Installables

The text of a Nix installable with a `path:` flake reference. The names of outputs are cut off at the
last `^`, the reference and the fragment at the first `#`, and the path and the query of the reference
at the first `?`. Path and fragment are percent-decoded, and a fragment is an attribute path, cut at
the dots outside quotes. -/

namespace Agentbox.Lib.NixInstallable

open Agentbox.Lib.Delimited (cutAt cutAt_append cutAt_of_not_mem cutAt_fst cutLastAt
  cutLastAt_append cutLastAt_of_not_mem)
open Agentbox.Lib.Json (hexValue)

def utf8 (l : List Char) : List UInt8 := l.flatMap String.utf8EncodeChar

def hexByte (a b : Char) : Option UInt8 := do
  let x ← hexValue a
  let y ← hexValue b
  return UInt8.ofNat (16 * x + y)

def percentDecode : List Char → Option (List UInt8)
  | [] => some []
  | c :: l =>
    if c = '%' then
      match l with
      | a :: b :: l => (hexByte a b).bind fun x => (percentDecode l).map (x :: ·)
      | _ => none
    else (percentDecode l).map (String.utf8EncodeChar c ++ ·)

def quote : UInt8 := 0x22

def dot : UInt8 := 0x2E

/-- The components of an attribute path, the first of them beginning with `cur`. -/
def attrPath : Bool → List UInt8 → List UInt8 → Option (List (List UInt8))
  | quoted, cur, [] => if quoted then none else some (if cur = [] then [] else [cur])
  | quoted, cur, b :: l =>
    if b = quote then attrPath (!quoted) cur l
    else if b = dot ∧ quoted = false then (attrPath false [] l).map (cur :: ·)
    else attrPath quoted (cur ++ [b]) l

/-- A character of the name of an output. -/
def isOutputChar (c : Char) : Bool :=
  c.isAlphanum || ['+', '-', '.', '_', '?', '='].contains c

/-- The outputs after a `^`: all of them, or some by their names. -/
def outputNames (spec : List Char) : Option (List (List Char)) :=
  let names := spec.splitOn ','
  if spec = ['*'] ∨ names.all (fun name => name ≠ [] && name.all isOutputChar) then some names
  else none

structure Installable where
  path : List UInt8
  query : Option (List Char)
  attrPath : List (List UInt8)
  outputs : Option (List (List Char))
  deriving DecidableEq

/-- The text before the names of the outputs. -/
def parseReference (outputs : Option (List (List Char))) (text : List Char) :
    Option Installable :=
  let reference := (cutAt '#' text).1
  let fragment := (cutAt '#' text).2.getD []
  if "path:".toList.isPrefixOf reference then
    let (path, query) := cutAt '?' (reference.drop "path:".length)
    (percentDecode path).bind fun path =>
      ((percentDecode fragment).bind (attrPath false [])).map fun attrs =>
        ⟨path, query, attrs, outputs⟩
  else none

def parse (text : List Char) : Option Installable :=
  let (spec, before) := cutLastAt '^' text
  match before with
  | none => parseReference none text
  | some text => (outputNames spec).bind fun outputs => parseReference (some outputs) text

/-! ### Percent-decoding -/

theorem length_utf8EncodeChar_pos (c : Char) : 0 < (String.utf8EncodeChar c).length := by
  have h := c.utf8Size_pos
  rwa [String.length_utf8EncodeChar]

theorem length_utf8_cons (c : Char) (l : List Char) :
    (utf8 (c :: l)).length = (String.utf8EncodeChar c).length + (utf8 l).length := by
  rw [utf8, List.flatMap_cons, List.length_append, ← utf8]

theorem percentDecode_eq : ∀ {l : List Char}, '%' ∉ l → percentDecode l = some (utf8 l)
  | [], _ => rfl
  | c :: l, h => by
    have hc : c ≠ '%' := fun h' => h (by simp [h'])
    have ih := percentDecode_eq (fun hm => h (List.mem_cons_of_mem c hm))
    rw [percentDecode.eq_def]
    simp only [if_neg hc, ih]
    rfl

/-- Decoding shortens what it changes. -/
theorem length_percentDecode : ∀ (l : List Char) {bs : List UInt8}, percentDecode l = some bs →
    bs.length ≤ (utf8 l).length ∧ (bs.length = (utf8 l).length → '%' ∉ l)
  | [], bs, h => by
    have hbs : [] = bs := by simpa [percentDecode] using h
    simp [← hbs, utf8]
  | c :: l, bs, h => by
    rw [percentDecode.eq_def] at h
    simp only at h
    split_ifs at h with hc
    · split at h
      · next a b l =>
        obtain ⟨x, -, hx⟩ := Option.bind_eq_some_iff.1 h
        obtain ⟨ds, hds, rfl⟩ := Option.map_eq_some_iff.1 hx
        have ih := (length_percentDecode l hds).1
        have hpos := length_utf8EncodeChar_pos c
        have hposa := length_utf8EncodeChar_pos a
        rw [length_utf8_cons, length_utf8_cons, length_utf8_cons, List.length_cons]
        omega
      · cases h
    · obtain ⟨ds, hds, rfl⟩ := Option.map_eq_some_iff.1 h
      obtain ⟨hle, heq⟩ := length_percentDecode l hds
      rw [length_utf8_cons, List.length_append]
      refine ⟨by omega, fun hlen hm => ?_⟩
      rcases List.mem_cons.1 hm with h' | hm
      · exact hc h'.symm
      · exact heq (by omega) hm

/-- A text whose beginning decodes to the whole of it has nothing to decode. -/
theorem eq_of_percentDecode {p r : List Char} (h : percentDecode p = some (utf8 (p ++ r))) :
    r = [] ∧ '%' ∉ p := by
  obtain ⟨hle, heq⟩ := length_percentDecode p h
  have hsplit : (utf8 (p ++ r)).length = (utf8 p).length + (utf8 r).length := by
    rw [utf8, List.flatMap_append, List.length_append]
    rfl
  refine ⟨?_, heq (by omega)⟩
  cases r with
  | nil => rfl
  | cons c r =>
    have hpos := length_utf8EncodeChar_pos c
    rw [length_utf8_cons] at hsplit
    omega

/-! ### Attribute paths -/

/-- Every quote and every cutting dot is lost. -/
theorem length_attrPath : ∀ (l : List UInt8) (quoted : Bool) (cur : List UInt8)
    {cs : List (List UInt8)}, attrPath quoted cur l = some cs →
    cs.flatten.length ≤ cur.length + l.length ∧
      (cs.flatten.length = cur.length + l.length →
        quote ∉ l ∧ (quoted = false → dot ∉ l))
  | [], quoted, cur, cs, h => by
    simp only [attrPath] at h
    split_ifs at h with hq hcur
    · simp [← Option.some.inj h]
    · simp [← Option.some.inj h]
  | b :: l, quoted, cur, cs, h => by
    simp only [attrPath] at h
    rw [List.length_cons]
    split_ifs at h with hq hd
    · obtain ⟨hle, -⟩ := length_attrPath l (!quoted) cur h
      omega
    · obtain ⟨ds, hds, rfl⟩ := Option.map_eq_some_iff.1 h
      obtain ⟨hle, -⟩ := length_attrPath l false [] hds
      rw [List.flatten_cons, List.length_append]
      rw [List.length_nil] at hle
      omega
    · obtain ⟨hle, heq⟩ := length_attrPath l quoted (cur ++ [b]) h
      rw [List.length_append, List.length_singleton] at hle heq
      refine ⟨by omega, fun hlen => ?_⟩
      obtain ⟨hquote, hdot⟩ := heq (by omega)
      refine ⟨?_, fun hf hm => ?_⟩
      · intro hm
        rcases List.mem_cons.1 hm with h' | hm
        · exact hq h'.symm
        · exact hquote hm
      · rcases List.mem_cons.1 hm with h' | hm
        · exact hd ⟨h'.symm, hf⟩
        · exact hdot hf hm

theorem attrPath_append : ∀ (l cur : List UInt8), quote ∉ l → dot ∉ l →
    attrPath false cur l = attrPath false (cur ++ l) []
  | [], cur, _, _ => by rw [List.append_nil]
  | b :: l, cur, hquote, hdot => by
    have hq : b ≠ quote := fun h => hquote (by simp [h])
    have hd : b ≠ dot := fun h => hdot (by simp [h])
    have ih := attrPath_append l (cur ++ [b]) (fun hm => hquote (List.mem_cons_of_mem b hm))
      (fun hm => hdot (List.mem_cons_of_mem b hm))
    have hstep : attrPath false cur (b :: l) = attrPath false (cur ++ [b]) l := by
      rw [attrPath, if_neg hq, if_neg (fun h => hd h.1)]
    rw [hstep, ih, List.append_assoc]
    rfl

/-- A byte of a character below 128 is the character. -/
theorem utf8EncodeChar_of_lt {c : Char} {b : UInt8} (h : b ∈ String.utf8EncodeChar c)
    (hb : b.toNat < 0x80) : c.toNat = b.toNat := by
  have hv : c.toNat = c.val.toNat := rfl
  unfold String.utf8EncodeChar at h
  simp only at h
  split_ifs at h with h1 h2 h3
  all_goals
    simp only [List.mem_cons, List.not_mem_nil, or_false] at h
  · rw [h, UInt8.toNat_ofNat', hv]
    omega
  · rcases h with rfl | rfl <;> rw [UInt8.toNat_ofNat'] at hb <;> omega
  · rcases h with rfl | rfl | rfl <;> rw [UInt8.toNat_ofNat'] at hb <;> omega
  · rcases h with rfl | rfl | rfl | rfl <;> rw [UInt8.toNat_ofNat'] at hb <;> omega

theorem mem_utf8_iff {b : UInt8} {c : Char} (hb : b.toNat < 0x80) (hc : c.toNat = b.toNat)
    (hmem : b ∈ String.utf8EncodeChar c) (l : List Char) : b ∈ utf8 l ↔ c ∈ l := by
  unfold utf8
  rw [List.mem_flatMap]
  constructor
  · rintro ⟨d, hd, hbd⟩
    have hcd : c = d := by
      rw [← Char.ofNat_toNat c, ← Char.ofNat_toNat d, hc, utf8EncodeChar_of_lt hbd hb]
    rwa [hcd]
  · intro h
    exact ⟨c, h, hmem⟩

/-! ### A path and an attribute -/

/-- The path of a reference stands for itself. -/
def IsPlainPath (root : List Char) : Prop :=
  '#' ∉ root ∧ '?' ∉ root ∧ '%' ∉ root ∧ '^' ∉ root

/-- A name is one component of an attribute path. -/
def IsPlainAttr (attr : List Char) : Prop :=
  '.' ∉ attr ∧ Delimited.quote ∉ attr ∧ '%' ∉ attr ∧ '^' ∉ attr

instance (root : List Char) : Decidable (IsPlainPath root) :=
  inferInstanceAs (Decidable (_ ∧ _ ∧ _ ∧ _))

instance (attr : List Char) : Decidable (IsPlainAttr attr) :=
  inferInstanceAs (Decidable (_ ∧ _ ∧ _ ∧ _))

theorem attrPath_utf8_iff {attr : List Char} (hne : attr ≠ []) :
    ((percentDecode attr).bind (attrPath false []) = some [utf8 attr]) ↔
      '.' ∉ attr ∧ Delimited.quote ∉ attr ∧ '%' ∉ attr := by
  have hquote := mem_utf8_iff (b := quote) (c := Delimited.quote) (by decide) (by decide)
    (by decide) attr
  have hdot := mem_utf8_iff (b := dot) (c := '.') (by decide) (by decide) (by decide) attr
  constructor
  · intro h
    obtain ⟨bs, hbs, hpath⟩ := Option.bind_eq_some_iff.1 h
    obtain ⟨hle, heq⟩ := length_percentDecode attr hbs
    obtain ⟨hle', heq'⟩ := length_attrPath bs false [] hpath
    rw [List.flatten_singleton, List.length_nil, Nat.zero_add] at hle' heq'
    have hlen : bs.length = (utf8 attr).length := by omega
    have hplain := heq hlen
    rw [percentDecode_eq hplain] at hbs
    obtain rfl := Option.some.inj hbs
    obtain ⟨hq, hd⟩ := heq' rfl
    exact ⟨fun hm => hd rfl (hdot.2 hm), fun hm => hq (hquote.2 hm), hplain⟩
  · rintro ⟨hd, hq, hplain⟩
    have hempty : utf8 attr ≠ [] := by
      cases attr with
      | nil => exact absurd rfl hne
      | cons c l =>
        have hpos := length_utf8EncodeChar_pos c
        intro h
        have hlen := length_utf8_cons c l
        rw [h, List.length_nil] at hlen
        omega
    rw [percentDecode_eq hplain, Option.bind_some, attrPath_append _ _ (fun hm => hq (hquote.1 hm))
      (fun hm => hd (hdot.1 hm)), List.nil_append, attrPath, if_neg (by decide), if_neg hempty]

/-- What a reference denotes, and what its fragment denotes. -/
theorem parseReference_append (outputs : Option (List (List Char))) (ref : List Char)
    (fragment : List Char) (href : '#' ∉ ref) :
    parseReference outputs ("path:".toList ++ (ref ++ '#' :: fragment)) =
      (percentDecode (cutAt '?' ref).1).bind fun path =>
        ((percentDecode fragment).bind (attrPath false [])).map fun attrs =>
          ⟨path, (cutAt '?' ref).2, attrs, outputs⟩ := by
  have hcut : cutAt '#' ("path:".toList ++ (ref ++ '#' :: fragment)) =
      ("path:".toList ++ ref, some fragment) := by
    rw [← List.append_assoc]
    refine cutAt_append ?_ fragment
    intro hm
    rcases List.mem_append.1 hm with hm | hm
    · exact absurd hm (by decide)
    · exact href hm
  have hscheme : "path:".toList.isPrefixOf ("path:".toList ++ ref) = true := by simp
  have hdrop : ("path:".toList ++ ref).drop "path:".length = ref := rfl
  unfold parseReference
  rw [hcut]
  simp only [Option.getD_some, if_pos hscheme, hdrop]

/-- The path of a reference is at most what stands before the first `?`. -/
theorem parseReference_path {outputs : Option (List (List Char))} {ref rest fragment : List Char}
    (href : '#' ∉ ref) {i : Installable}
    (h : parseReference outputs ("path:".toList ++ (ref ++ '#' :: fragment)) = some i)
    (hpath : i.path = utf8 (ref ++ rest)) : rest = [] ∧ '?' ∉ ref ∧ '%' ∉ ref := by
  rw [parseReference_append outputs ref fragment href] at h
  obtain ⟨path, hdecode, hattrs⟩ := Option.bind_eq_some_iff.1 h
  obtain ⟨attrs, -, rfl⟩ := Option.map_eq_some_iff.1 hattrs
  have hsplit : ref ++ rest = ref.takeWhile (· ≠ '?') ++ (ref.dropWhile (· ≠ '?') ++ rest) := by
    rw [← List.append_assoc, List.takeWhile_append_dropWhile]
  have hpath : path = utf8 (ref ++ rest) := hpath
  rw [cutAt_fst, hpath, hsplit] at hdecode
  obtain ⟨hnil, hpercent⟩ := eq_of_percentDecode hdecode
  obtain ⟨hdrop, hrest⟩ := List.append_eq_nil_iff.1 hnil
  have htake : ref.takeWhile (· ≠ '?') = ref := by
    have hw := @List.takeWhile_append_dropWhile _ (· ≠ '?') ref
    rwa [hdrop, List.append_nil] at hw
  rw [htake] at hpercent
  refine ⟨hrest, fun hm => ?_, hpercent⟩
  simpa using List.dropWhile_eq_nil_iff.1 hdrop _ hm

/-- A reference without outputs denotes the path and the one attribute exactly when nothing in it is
cut or decoded. -/
theorem parseReference_eq_iff (root : List Char) {attr : List Char} (hne : attr ≠ []) :
    parseReference none ("path:".toList ++ (root ++ '#' :: attr)) =
        some ⟨utf8 root, none, [utf8 attr], none⟩ ↔
      ('#' ∉ root ∧ '?' ∉ root ∧ '%' ∉ root) ∧
        '.' ∉ attr ∧ Delimited.quote ∉ attr ∧ '%' ∉ attr := by
  constructor
  · intro h
    have hhash : '#' ∉ root := by
      intro hm
      obtain ⟨p, r, rfl, hp⟩ := List.eq_append_cons_of_mem hm
      rw [List.append_assoc, List.cons_append] at h
      exact absurd (parseReference_path hp h rfl).1 (by simp)
    have hpath : (⟨utf8 root, none, [utf8 attr], none⟩ : Installable).path =
        utf8 (root ++ []) := by
      rw [List.append_nil]
    obtain ⟨-, hquery, hpercent⟩ := parseReference_path hhash h hpath
    refine ⟨⟨hhash, hquery, hpercent⟩, (attrPath_utf8_iff hne).1 ?_⟩
    rw [parseReference_append none root attr hhash] at h
    obtain ⟨path, -, hattrs⟩ := Option.bind_eq_some_iff.1 h
    obtain ⟨attrs, hread, heq⟩ := Option.map_eq_some_iff.1 hattrs
    rw [hread, (Installable.mk.inj heq).2.2.1]
  · rintro ⟨⟨hhash, hquery, hpercent⟩, hattr⟩
    rw [parseReference_append none root attr hhash, cutAt_of_not_mem hquery,
      percentDecode_eq hpercent, Option.bind_some, (attrPath_utf8_iff hne).2 hattr]
    rfl

theorem outputs_of_parseReference {outputs : Option (List (List Char))} {text : List Char}
    {i : Installable} (h : parseReference outputs text = some i) : i.outputs = outputs := by
  unfold parseReference at h
  extract_lets reference fragment at h
  split_ifs at h
  obtain ⟨path, -, hattrs⟩ := Option.bind_eq_some_iff.1 h
  obtain ⟨attrs, -, rfl⟩ := Option.map_eq_some_iff.1 hattrs
  rfl

/-- Only a text without `^` denotes something without outputs. -/
theorem parse_eq_some_iff {text : List Char} {i : Installable} (hi : i.outputs = none) :
    parse text = some i ↔ '^' ∉ text ∧ parseReference none text = some i := by
  constructor
  · intro h
    have hcaret : '^' ∉ text := by
      intro hm
      obtain ⟨p, r, hsplit, hr⟩ := List.eq_append_cons_of_mem (List.mem_reverse.2 hm)
      have htext : text = r.reverse ++ '^' :: p.reverse := by
        rw [← List.reverse_reverse text, hsplit]
        simp
      rw [parse, htext, cutLastAt_append (by simpa using hr)] at h
      obtain ⟨outputs, -, hread⟩ := Option.bind_eq_some_iff.1 h
      rw [outputs_of_parseReference hread] at hi
      cases hi
    rw [parse, cutLastAt_of_not_mem hcaret] at h
    exact ⟨hcaret, h⟩
  · rintro ⟨hcaret, h⟩
    rw [parse, cutLastAt_of_not_mem hcaret]
    exact h

/-- The installable denotes the path and the one attribute exactly when both are plain. -/
theorem parse_eq_iff (root : List Char) {attr : List Char} (hne : attr ≠ []) :
    parse ("path:".toList ++ (root ++ '#' :: attr)) =
        some ⟨utf8 root, none, [utf8 attr], none⟩ ↔
      IsPlainPath root ∧ IsPlainAttr attr := by
  have hcaret : '^' ∉ "path:".toList ++ (root ++ '#' :: attr) ↔ '^' ∉ root ∧ '^' ∉ attr := by
    simp
  rw [parse_eq_some_iff rfl, parseReference_eq_iff root hne, hcaret, IsPlainPath, IsPlainAttr]
  tauto

end Agentbox.Lib.NixInstallable
