import Agentbox.Clean.Inventory
import Mathlib

/-! # Container names

`container_name_from_canonical_root` with the arithmetic and the slice that could panic, and the
names it returns: `is_agentbox_workspace_resource_name` recognises each of them. -/

namespace Agentbox.Workspace.ContainerName

open Agentbox.Base.Path Agentbox.Base.Digest Agentbox.Metadata.DefaultImage Agentbox.Clean.Inventory
  Agentbox.Workspace.Identity

/-! ### Panics

A computation that panics has no result. -/

def checkedSub (a b : Nat) : Option Nat := if b ≤ a then some (a - b) else none

/-- `str::len`. -/
def byteLen (l : List Char) : Nat := (l.map Char.utf8Size).sum

/-- The characters from a byte index on, which has to be a character boundary. -/
def sliceFrom : List Char → Nat → Option (List Char)
  | l, 0 => some l
  | [], _ + 1 => none
  | c :: l, n + 1 => (checkedSub (n + 1) c.utf8Size).bind (sliceFrom l)

def containerNameFromCanonicalRoot (root : String) : Option String := do
  let hash := gitRootHash12 ⟨root⟩
  let escaped := escapeRoot root
  let separatorLen := 1 + byteLen hash.toList
  let remaining ← checkedSub MAX_CONTAINER_NAME_LEN (byteLen CONTAINER_PREFIX.toList)
  let maxSuffixLen ← checkedSub remaining separatorLen
  let suffix ←
    if byteLen escaped ≤ maxSuffixLen then some escaped
    else (checkedSub (byteLen escaped) maxSuffixLen).bind (sliceFrom escaped)
  return CONTAINER_PREFIX ++ String.ofList suffix ++ "-" ++ hash

/-! ### Names of single bytes -/

def isNameChar (c : Char) : Bool := c.isAlphanum || c = '.' || c = '_' || c = '-'

theorem utf8Size_of_isNameChar {c : Char} (h : isNameChar c = true) : c.utf8Size = 1 := by
  rw [Char.utf8Size_eq_one_iff, UInt32.le_iff_toNat_le]
  simp only [isNameChar, Char.isAlphanum, Char.isAlpha, Char.isUpper, Char.isLower, Char.isDigit,
    Bool.or_eq_true, Bool.and_eq_true, decide_eq_true_eq, ge_iff_le, UInt32.le_iff_toNat_le] at h
  change c.val.toNat ≤ 127
  rcases h with ((((⟨-, h⟩ | ⟨-, h⟩) | ⟨-, h⟩) | rfl) | rfl) | rfl
  · exact h.trans (by decide)
  · exact h.trans (by decide)
  · exact h.trans (by decide)
  all_goals decide

theorem byteLen_eq : ∀ {l : List Char}, (∀ c ∈ l, isNameChar c = true) → byteLen l = l.length
  | [], _ => rfl
  | c :: l, h => by
    have ih := byteLen_eq (fun d hd => h d (List.mem_cons_of_mem c hd))
    have hc := utf8Size_of_isNameChar (h c List.mem_cons_self)
    unfold byteLen at ih ⊢
    rw [List.map_cons, List.sum_cons, ih, hc, List.length_cons]
    omega

theorem sliceFrom_eq : ∀ {l : List Char} {n : Nat}, (∀ c ∈ l, isNameChar c = true) →
    n ≤ l.length → sliceFrom l n = some (l.drop n)
  | l, 0, _, _ => by rw [sliceFrom.eq_def, List.drop_zero]
  | [], n + 1, _, hn => by simp at hn
  | c :: l, n + 1, h, hn => by
    have ih := @sliceFrom_eq l n (fun d hd => h d (List.mem_cons_of_mem c hd))
      (by simpa using hn)
    have hc := utf8Size_of_isNameChar (h c List.mem_cons_self)
    rw [sliceFrom, hc, checkedSub, if_pos (by omega), Option.bind_some, Nat.add_sub_cancel, ih,
      List.drop_succ_cons]

theorem isNameChar_escapeRoot {path : String} {c : Char} (h : c ∈ escapeRoot path) :
    isNameChar c = true := by
  obtain ⟨d, -, rfl⟩ := List.mem_map.1 h
  split_ifs with hslash hname
  · decide
  · simpa [isNameChar] using hname
  · decide

theorem mem_hexPrefix {bytes : List UInt8} {len : Nat} {c : Char}
    (h : c ∈ (hexPrefix bytes len).toList) : ∃ n, c = hexDigit n := by
  rw [hexPrefix, String.toList_ofList] at h
  have hin := List.mem_of_mem_take h
  rw [hexLower, String.toList_ofList, List.mem_flatMap] at hin
  obtain ⟨b, -, hb⟩ := hin
  rcases List.mem_cons.1 hb with rfl | hb
  · exact ⟨_, rfl⟩
  · exact ⟨_, List.mem_singleton.1 hb⟩

theorem hexDigit_cases (n : Nat) : hexDigit n ∈ "0123456789abcdef".toList := by
  unfold hexDigit
  rw [List.getD_eq_getElem?_getD]
  rcases h : "0123456789abcdef".toList[n]? with _ | c
  · decide
  · exact List.mem_of_getElem? h

theorem gitRootHash12_hex {root : Utf8Path} {c : Char} (h : c ∈ (gitRootHash12 root).toList) :
    isNameChar c = true ∧ isAsciiHexdigit c = true ∧ c ≠ '-' := by
  have hall : ∀ d ∈ "0123456789abcdef".toList,
      isNameChar d = true ∧ isAsciiHexdigit d = true ∧ d ≠ '-' := by
    simp [isNameChar, isAsciiHexdigit, Agentbox.Base.Text.isAsciiDigit]
  obtain ⟨n, rfl⟩ := mem_hexPrefix h
  exact hall _ (hexDigit_cases n)

/-! ### The name -/

/-- The readable part of a name: the escaped root, or its rightmost 41 characters. -/
def readablePart (root : String) : List Char :=
  if (escapeRoot root).length ≤ 41 then escapeRoot root
  else (escapeRoot root).drop ((escapeRoot root).length - 41)

theorem length_readablePart (root : String) :
    (readablePart root).length = min 41 (escapeRoot root).length := by
  unfold readablePart
  split_ifs with h
  · omega
  · rw [List.length_drop]
    omega

theorem readablePart_suffix (root : String) : readablePart root <:+ escapeRoot root := by
  unfold readablePart
  split_ifs
  · exact List.suffix_rfl
  · exact List.drop_suffix _ _

/-- Nothing panics, and the name is put together from its three parts. -/
theorem containerNameFromCanonicalRoot_eq (root : String) :
    containerNameFromCanonicalRoot root =
      some (CONTAINER_PREFIX ++ String.ofList (readablePart root) ++ "-" ++
        gitRootHash12 ⟨root⟩) := by
  have hhash : byteLen (gitRootHash12 ⟨root⟩).toList = 12 := by
    rw [byteLen_eq (fun c hc => (gitRootHash12_hex hc).1), length_gitRootHash12]
  have hescaped := byteLen_eq (fun c => @isNameChar_escapeRoot root c)
  have hprefix : checkedSub MAX_CONTAINER_NAME_LEN (byteLen CONTAINER_PREFIX.toList) = some 54 := by
    decide
  unfold containerNameFromCanonicalRoot readablePart
  simp only [hhash, hprefix, hescaped, bind, Option.bind_some]
  rw [show checkedSub 54 (1 + 12) = some 41 from rfl, Option.bind_some]
  split_ifs with h
  · rfl
  · rw [checkedSub, if_pos (by omega), Option.bind_some,
      sliceFrom_eq (fun c => isNameChar_escapeRoot) (by omega)]
    rfl

/-- The name that is put together from the root and its stable id is the one of the root. -/
theorem containerNameFromCanonicalRoot_eq_andHash (root : String) :
    containerNameFromCanonicalRoot root =
      some (containerNameFromCanonicalRootAndHash root (gitRootHash12 ⟨root⟩)) := by
  have hlen : (gitRootHash12 ⟨root⟩).length = 12 := by
    rw [← String.length_toList, length_gitRootHash12]
  have hmax : MAX_CONTAINER_NAME_LEN - CONTAINER_PREFIX.length - (1 + 12) = 41 := by decide
  rw [containerNameFromCanonicalRoot_eq, containerNameFromCanonicalRootAndHash, hlen, hmax]
  unfold readablePart
  split_ifs with h
  · rw [Nat.sub_eq_zero_of_le h, List.drop_zero]
  · rfl

/-- What a container name of a root looks like. -/
structure IsContainerName (root name : String) : Prop where
  byteLen_le : byteLen name.toList ≤ MAX_CONTAINER_NAME_LEN
  isNameChar : ∀ c ∈ name.toList, isNameChar c = true
  eq : name = CONTAINER_PREFIX ++ String.ofList (readablePart root) ++ "-" ++ gitRootHash12 ⟨root⟩
  recognised : isAgentboxWorkspaceResourceName name = true

/-- Text split at its last hyphen. -/
theorem takeWhile_reverse {p s : List Char} (h : '-' ∉ s) :
    ((p ++ '-' :: s).reverse.takeWhile (· ≠ '-')).reverse = s := by
  have hall : ∀ c ∈ s.reverse, decide (c ≠ '-') = true := fun c hc => by
    have hne : c ≠ '-' := fun h' => h (h' ▸ List.mem_reverse.1 hc)
    simpa using hne
  rw [List.reverse_append, List.reverse_cons, List.append_assoc, List.takeWhile_append_of_pos hall,
    List.singleton_append, List.takeWhile_cons_of_neg (by simp), List.append_nil,
    List.reverse_reverse]

theorem isAgentboxWorkspaceResourceName_of_parts {name : String} {p s : List Char}
    (hname : name.toList = CONTAINER_PREFIX.toList ++ p ++ '-' :: s) (hp : p ≠ [])
    (hlen : s.length = 12) (hs : ∀ c ∈ s, isAsciiHexdigit c = true ∧ c ≠ '-') :
    isAgentboxWorkspaceResourceName name = true := by
  have hsuffix : (name.toList.reverse.takeWhile (· ≠ '-')).reverse = s := by
    rw [hname, takeWhile_reverse (fun h => (hs _ h).2 rfl)]
  have hstem : name.toList.take (name.toList.length - s.length - 1) =
      CONTAINER_PREFIX.toList ++ p := by
    rw [hname, List.length_append, List.length_cons,
      show (CONTAINER_PREFIX.toList ++ p).length + (s.length + 1) - s.length - 1 =
        (CONTAINER_PREFIX.toList ++ p).length by omega, List.take_left]
  have hpos := List.length_pos_of_ne_nil hp
  have hall : s.all isAsciiHexdigit = true := List.all_eq_true.2 fun c hc => (hs c hc).1
  have hmem : name.toList.contains '-' = true := by
    rw [hname]
    simp
  have hpre : CONTAINER_PREFIX.toList.isPrefixOf (CONTAINER_PREFIX.toList ++ p) = true :=
    List.isPrefixOf_iff_prefix.2 (List.prefix_append _ _)
  rw [hlen] at hstem
  unfold isAgentboxWorkspaceResourceName
  simp only [hsuffix, hstem, hall, hmem, hpre, List.length_append, Bool.and_true, Bool.true_and,
    Bool.and_eq_true, decide_eq_true_eq, hlen]
  exact ⟨by omega, rfl⟩

theorem isContainerName (root : String) (h : root ≠ "") :
    IsContainerName root (CONTAINER_PREFIX ++ String.ofList (readablePart root) ++ "-" ++
      gitRootHash12 ⟨root⟩) := by
  have hlist : (CONTAINER_PREFIX ++ String.ofList (readablePart root) ++ "-" ++
      gitRootHash12 ⟨root⟩).toList =
        CONTAINER_PREFIX.toList ++ readablePart root ++ '-' :: (gitRootHash12 ⟨root⟩).toList := by
    simp only [String.toList_append, String.toList_ofList, List.append_assoc]
    rfl
  have hreadable : ∀ c ∈ readablePart root, isNameChar c = true := fun c hc =>
    isNameChar_escapeRoot ((readablePart_suffix root).mem hc)
  have hpre : ∀ c ∈ CONTAINER_PREFIX.toList, isNameChar c = true :=
    List.all_eq_true.1 (by decide)
  have hchars : ∀ c ∈ CONTAINER_PREFIX.toList ++ readablePart root ++
      '-' :: (gitRootHash12 ⟨root⟩).toList, isNameChar c = true := by
    intro c hc
    rcases List.mem_append.1 hc with hc | hc
    · rcases List.mem_append.1 hc with hc | hc
      · exact hpre c hc
      · exact hreadable c hc
    · rcases List.mem_cons.1 hc with rfl | hc
      · decide
      · exact (gitRootHash12_hex hc).1
  have hne : readablePart root ≠ [] := by
    intro hnil
    have hlen := length_readablePart root
    have hroot : root.toList ≠ [] := fun hr => h (by rw [← String.ofList_toList (s := root), hr])
    have hpos := List.length_pos_of_ne_nil hroot
    rw [hnil, escapeRoot, List.length_map, List.length_nil] at hlen
    omega
  refine ⟨?_, ?_, rfl, ?_⟩
  · have hnine : CONTAINER_PREFIX.toList.length = 9 := by decide
    have hle := length_readablePart root
    rw [hlist, byteLen_eq hchars, List.length_append, List.length_append, List.length_cons,
      length_gitRootHash12, hnine]
    change _ ≤ 63
    omega
  · rw [hlist]
    exact hchars
  · exact isAgentboxWorkspaceResourceName_of_parts hlist hne (length_gitRootHash12 _)
      fun c hc => (gitRootHash12_hex hc).2

/-- Every workspace that is resolved has a container name of its root. -/
theorem isContainerName_of_isResolved {workspace : WorkspaceIdentity} (h : IsResolved workspace) :
    containerNameFromCanonicalRoot workspace.canonicalGitRoot.asStr =
        some workspace.containerName ∧
      IsContainerName workspace.canonicalGitRoot.asStr workspace.containerName := by
  have hname : containerNameFromCanonicalRoot workspace.canonicalGitRoot.asStr =
      some workspace.containerName := by
    rw [containerNameFromCanonicalRoot_eq_andHash, h.containerName_eq, h.hash12_eq]
  have hroot : workspace.canonicalGitRoot.asStr ≠ "" := by
    intro hempty
    have habsolute := h.gitRoot_isAbsolute
    rw [Utf8Path.isAbsolute, hempty] at habsolute
    cases habsolute
  refine ⟨hname, ?_⟩
  have hparts := hname.symm.trans (containerNameFromCanonicalRoot_eq _)
  rw [Option.some.inj hparts]
  exact isContainerName _ hroot

/-- Every root but the empty one has a name, and the name tells the stable id of the root. -/
theorem containerName_wellFormed (root : String) (h : root ≠ "") :
    ∃ name, containerNameFromCanonicalRoot root = some name ∧ IsContainerName root name ∧
      ∀ root', containerNameFromCanonicalRoot root' = some name →
        gitRootHash12 ⟨root'⟩ = gitRootHash12 ⟨root⟩ := by
  refine ⟨_, containerNameFromCanonicalRoot_eq root, isContainerName root h, fun root' h' => ?_⟩
  rw [containerNameFromCanonicalRoot_eq, Option.some.injEq] at h'
  have hlists := congrArg String.toList h'
  have happend : ∀ r, (CONTAINER_PREFIX ++ String.ofList (readablePart r) ++ "-" ++
      gitRootHash12 ⟨r⟩).toList =
        (CONTAINER_PREFIX ++ String.ofList (readablePart r) ++ "-").toList ++
          (gitRootHash12 ⟨r⟩).toList := fun r => String.toList_append
  rw [happend, happend] at hlists
  have hlen : (gitRootHash12 ⟨root'⟩).toList.length = (gitRootHash12 ⟨root⟩).toList.length := by
    rw [length_gitRootHash12, length_gitRootHash12]
  exact String.toList_inj.1 (List.append_inj_right' hlists hlen)

theorem containerName_wellFormed_box :
    ∃ name, containerNameFromCanonicalRoot "/src/box" = some name ∧
      IsContainerName "/src/box" name ∧
      ∀ root', containerNameFromCanonicalRoot root' = some name →
        gitRootHash12 ⟨root'⟩ = gitRootHash12 ⟨"/src/box"⟩ :=
  containerName_wellFormed "/src/box" (by decide)

end Agentbox.Workspace.ContainerName
