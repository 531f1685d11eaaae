import Mathlib.Data.List.AList
import Mathlib.Data.Finset.Card
import Mathlib.Tactic

/-! # One directory of a file system

The names of a directory with what stands at them: files, directories and symbolic links.
`follow` resolves a name through its links, as opening it does; `rename` is `rename(2)` between two
names of the directory, which takes the entry itself, links included, and replaces what stands at
the destination.

* `follow_of_sub`: a name that resolves goes on to do so in every directory with more entries.
* `rename_follow`: after a rename to a name that was free, the new name resolves to what the old
  one did. The chain of links from a name that resolves does not come back to the name, so the
  removal of the old name cuts none of its links (`follow_erase`). -/

namespace Agentbox.Lib.Directory

variable {γ : Type}

/-- What a path ends at. -/
inductive Node (γ : Type)
  | file (contents : γ)
  | directory (isEmpty : Bool)
  deriving DecidableEq

/-- What a name of a directory stands for. -/
inductive Entry (γ : Type)
  | node (node : Node γ)
  /-- A symbolic link to a name of the same directory. -/
  | link (name : String)
  /-- A symbolic link that leaves the directory, with what it ends at, if anything. -/
  | linkOut (target : Option (Node γ))
  deriving DecidableEq

inductive IoError
  | notFound
  | isADirectory
  | notADirectory
  | directoryNotEmpty
  | filesystemLoop
  | invalidData
  deriving DecidableEq, Repr

abbrev Dir (γ : Type) := AList fun _ : String => Entry γ

namespace Dir

/-- **What a name ends at**, over at most `fuel` links to names of the directory. -/
def follow (d : Dir γ) (fuel : Nat) (name : String) : Except IoError (Node γ) :=
  match d.lookup name with
  | none => .error .notFound
  | some (.node node) => .ok node
  | some (.linkOut (some node)) => .ok node
  | some (.linkOut none) => .error .notFound
  | some (.link target) =>
    match fuel with
    | 0 => .error .filesystemLoop
    | fuel + 1 => follow d fuel target

/-- Why the entry `source` cannot replace the entry `target`. -/
def replaceError (source target : Entry γ) : Option IoError :=
  match source, target with
  | .node (.directory _), .node (.directory true) => none
  | .node (.directory _), .node (.directory false) => some .directoryNotEmpty
  | .node (.directory _), _ => some .notADirectory
  | _, .node (.directory _) => some .isADirectory
  | _, _ => none

/-- `rename(2)`: the entry at `old` moves to `new`, and what stood there is gone. -/
def rename (d : Dir γ) (old new : String) : Except IoError (Dir γ) :=
  match d.lookup old with
  | none => .error .notFound
  | some source =>
    match (d.lookup new).bind (replaceError source) with
    | some error => .error error
    | none => .ok ((d.erase old).insert new source)

/-! ### Resolution -/

/-- The directory `d'` has every entry of `d`. -/
def Sub (d d' : Dir γ) : Prop := ∀ name e, d.lookup name = some e → d'.lookup name = some e

theorem follow_link {d : Dir γ} {name target : String} (h : d.lookup name = some (.link target))
    (fuel : Nat) : d.follow (fuel + 1) name = d.follow fuel target := by
  rw [follow.eq_def, h]

/-- A name that resolves is there, and is a link only if there is fuel for it. -/
theorem follow_ok_cases {d : Dir γ} {fuel : Nat} {name : String} {node : Node γ}
    (h : d.follow fuel name = .ok node) :
    d.lookup name = some (.node node) ∨ d.lookup name = some (.linkOut (some node)) ∨
      ∃ target k, d.lookup name = some (.link target) ∧ fuel = k + 1 ∧
        d.follow k target = .ok node := by
  rw [follow.eq_def] at h
  split at h
  · cases h
  · next hl => exact .inl (by rw [hl, Except.ok.inj h])
  · next hl => exact .inr (.inl (by rw [hl, Except.ok.inj h]))
  · cases h
  · next target hl =>
    split at h
    · cases h
    · next k => exact .inr (.inr ⟨target, k, hl, rfl, h⟩)

theorem follow_of_node {d : Dir γ} {name : String} {node : Node γ}
    (h : d.lookup name = some (.node node)) (fuel : Nat) : d.follow fuel name = .ok node := by
  rw [follow.eq_def, h]

theorem follow_of_linkOut {d : Dir γ} {name : String} {node : Node γ}
    (h : d.lookup name = some (.linkOut (some node))) (fuel : Nat) :
    d.follow fuel name = .ok node := by
  rw [follow.eq_def, h]

theorem follow_of_sub {d d' : Dir γ} (hsub : d.Sub d') {fuel : Nat} {name : String} {node : Node γ}
    (h : d.follow fuel name = .ok node) : d'.follow fuel name = .ok node := by
  induction fuel generalizing name with
  | zero =>
    rcases follow_ok_cases h with hl | hl | ⟨_, k, _, hk, _⟩
    · exact follow_of_node (hsub _ _ hl) _
    · exact follow_of_linkOut (hsub _ _ hl) _
    · omega
  | succ fuel ih =>
    rcases follow_ok_cases h with hl | hl | ⟨target, k, hl, hk, ht⟩
    · exact follow_of_node (hsub _ _ hl) _
    · exact follow_of_linkOut (hsub _ _ hl) _
    · obtain rfl : fuel = k := by omega
      rw [follow_link (hsub _ _ hl)]
      exact ih ht

theorem follow_le {d : Dir γ} {fuel fuel' : Nat} (hle : fuel ≤ fuel') {name : String}
    {node : Node γ} (h : d.follow fuel name = .ok node) : d.follow fuel' name = .ok node := by
  induction fuel generalizing name fuel' with
  | zero =>
    rcases follow_ok_cases h with hl | hl | ⟨_, k, _, hk, _⟩
    · exact follow_of_node hl _
    · exact follow_of_linkOut hl _
    · omega
  | succ fuel ih =>
    rcases follow_ok_cases h with hl | hl | ⟨target, k, hl, hk, ht⟩
    · exact follow_of_node hl _
    · exact follow_of_linkOut hl _
    · obtain rfl : fuel = k := by omega
      obtain ⟨m, rfl⟩ : ∃ m, fuel' = m + 1 := ⟨fuel' - 1, by omega⟩
      rw [follow_link hl]
      exact ih (by omega) ht

/-- A chain of links comes by `skip` or does not need it. -/
theorem follow_erase_or {d : Dir γ} (skip : String) {fuel : Nat} {name : String} {node : Node γ}
    (h : d.follow fuel name = .ok node) :
    follow (d.erase skip) fuel name = .ok node ∨ ∃ k ≤ fuel, d.follow k skip = .ok node := by
  induction fuel generalizing name with
  | zero =>
    by_cases hn : name = skip
    · exact .inr ⟨0, le_rfl, hn ▸ h⟩
    · rcases follow_ok_cases h with hl | hl | ⟨_, k, _, hk, _⟩
      · exact .inl (follow_of_node (by rw [AList.lookup_erase_ne hn, hl]) _)
      · exact .inl (follow_of_linkOut (by rw [AList.lookup_erase_ne hn, hl]) _)
      · omega
  | succ fuel ih =>
    by_cases hn : name = skip
    · exact .inr ⟨fuel + 1, le_rfl, hn ▸ h⟩
    · rcases follow_ok_cases h with hl | hl | ⟨target, k, hl, hk, ht⟩
      · exact .inl (follow_of_node (by rw [AList.lookup_erase_ne hn, hl]) _)
      · exact .inl (follow_of_linkOut (by rw [AList.lookup_erase_ne hn, hl]) _)
      · obtain rfl : fuel = k := by omega
        have hl' : (d.erase skip).lookup name = some (.link target) := by
          rw [AList.lookup_erase_ne hn, hl]
        rcases ih ht with h1 | ⟨k, hk, h1⟩
        · exact .inl (by rw [follow_link hl', h1])
        · exact .inr ⟨k, by omega, h1⟩

/-- **The links behind a link that resolves do not come back to it.** -/
theorem follow_erase {d : Dir γ} {name target : String} (hl : d.lookup name = some (.link target))
    {fuel : Nat} {node : Node γ} (h : d.follow fuel target = .ok node) :
    follow (d.erase name) fuel target = .ok node := by
  classical
  -- the least fuel for which `name` resolves leaves none for a second visit
  have hex : ∃ k, d.follow k name = .ok node := ⟨fuel + 1, by rw [follow_link hl, h]⟩
  obtain ⟨m, hm⟩ : ∃ m, Nat.find hex = m + 1 := by
    rcases follow_ok_cases (Nat.find_spec hex) with h1 | h1 | ⟨_, m, _, hm, _⟩
    · rw [hl] at h1; cases h1
    · rw [hl] at h1; cases h1
    · exact ⟨m, hm⟩
  have hspec := Nat.find_spec hex
  rw [hm, follow_link hl] at hspec
  have hle : m ≤ fuel := by
    have := Nat.find_min' hex (by rw [follow_link hl, h])
    omega
  rcases follow_erase_or name hspec with h1 | ⟨k, hk, h1⟩
  · exact follow_le hle h1
  · have := Nat.find_min' hex h1
    omega

/-! ### Renaming -/

section Rename
variable {d d' : Dir γ} {old new : String} (h : d.rename old new = .ok d')
include h

theorem rename_ok : ∃ source, d.lookup old = some source ∧ d' = (d.erase old).insert new source := by
  unfold rename at h
  split at h
  · cases h
  · next source hs =>
    split at h
    · cases h
    · exact ⟨source, hs, (Except.ok.inj h).symm⟩

theorem rename_lookup_of_ne {name : String} (hold : name ≠ old) (hnew : name ≠ new) :
    d'.lookup name = d.lookup name := by
  obtain ⟨source, -, rfl⟩ := rename_ok h
  rw [AList.lookup_insert_ne hnew, AList.lookup_erase_ne hold]

/-- A rename to a name that is free keeps every other entry. -/
theorem rename_keeps (hfree : new ∉ d) {name : String} (hold : name ≠ old) {e : Entry γ}
    (he : d.lookup name = some e) : d'.lookup name = some e := by
  have hnew : name ≠ new := by
    rintro rfl
    exact hfree (AList.lookup_isSome.1 (by rw [he]; rfl))
  rw [rename_lookup_of_ne h hold hnew, he]

theorem rename_mem {name : String} (hold : name ≠ old) (hmem : name ∈ d) : name ∈ d' := by
  obtain ⟨source, -, rfl⟩ := rename_ok h
  exact (AList.mem_insert _).2 (.inr (AList.mem_erase.2 ⟨hold, hmem⟩))

/-- **The new name resolves to what the old one did.** -/
theorem rename_follow (hfree : new ∉ d) {fuel : Nat} {node : Node γ}
    (hf : d.follow fuel old = .ok node) : d'.follow fuel new = .ok node := by
  obtain ⟨source, hs, rfl⟩ := rename_ok h
  have hnew := AList.lookup_insert (a := new) (b := source) (d.erase old)
  have hsub : Sub (d.erase old) ((d.erase old).insert new source) := by
    intro name e he
    have hne : name ≠ new := by
      rintro rfl
      have hmem : name ∈ d.erase old := AList.lookup_isSome.1 (by rw [he]; rfl)
      exact hfree (AList.mem_erase.1 hmem).2
    rw [AList.lookup_insert_ne hne, he]
  rcases follow_ok_cases hf with hl | hl | ⟨target, k, hl, rfl, ht⟩
  · rw [hs] at hl
    exact follow_of_node (by rw [hnew, hl]) _
  · rw [hs] at hl
    exact follow_of_linkOut (by rw [hnew, hl]) _
  · have hk := follow_of_sub hsub (follow_erase hl ht)
    rw [hs] at hl
    rw [follow_link (by rw [hnew, hl]), hk]

end Rename

/-! ### The names of a directory -/

/-- The names other than `name`. -/
def namesBut (d : Dir γ) (name : String) : Finset String := d.keys.toFinset.erase name

theorem mem_namesBut {d : Dir γ} {skip name : String} :
    name ∈ d.namesBut skip ↔ name ≠ skip ∧ name ∈ d := by
  simp only [namesBut, Finset.mem_erase, List.mem_toFinset, AList.mem_keys]

theorem card_namesBut_rename {d d' : Dir γ} {old new : String} (h : d.rename old new = .ok d') :
    (d'.namesBut old).card ≤ (d.namesBut old).card + 1 := by
  have hsub : d'.namesBut old ⊆ insert new (d.namesBut old) := by
    obtain ⟨source, -, rfl⟩ := rename_ok h
    intro name hname
    obtain ⟨hne, hmem⟩ := mem_namesBut.1 hname
    rcases (AList.mem_insert _).1 hmem with rfl | hmem
    · exact Finset.mem_insert_self _ _
    · exact Finset.mem_insert_of_mem (mem_namesBut.2 ⟨hne, (AList.mem_erase.1 hmem).2⟩)
  exact (Finset.card_le_card hsub).trans (Finset.card_insert_le _ _)

end Dir

end Agentbox.Lib.Directory
