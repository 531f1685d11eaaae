import Agentbox.Session.Selection

/-! # Prefixes of stable ids

A prefix that selects an id can be lengthened, and an id is selected by some prefix exactly when it
is selected by itself, which is when no other id begins with it. -/

namespace Agentbox.Session.StableIds

open Agentbox.Base.Text Agentbox.Metadata.Labels Agentbox.Session.Record Agentbox.Session.Selection

variable {sessions : List SessionRecord} {noun : String}

/-- No other id of the sessions begins with the id, in any case of its letters. -/
def IsUnshadowed (sessions : List SessionRecord) (id : String) : Prop :=
  ∀ s ∈ sessions, ∀ k, s.stableId = some k →
    startsWith (toAsciiLowercase k) (toAsciiLowercase id) = true → k = id

theorem startsWith_iff {s pre : String} :
    startsWith s pre = true ↔ pre.toList <+: s.toList := by
  rw [startsWith, List.isPrefixOf_iff_prefix]

theorem startsWith_self (s : String) : startsWith s s = true := startsWith_iff.2 List.prefix_rfl

theorem length_toAsciiLowercase (s : String) :
    (toAsciiLowercase s).toList.length = s.toList.length := by
  rw [toAsciiLowercase, String.toList_ofList, List.length_map]

/-- A longer prefix of one id matches no id that the shorter one does not. -/
theorem startsWith_of_longer {id k p q : String} (hlen : p.toList.length ≤ q.toList.length)
    (hp : startsWith (toAsciiLowercase id) (toAsciiLowercase p) = true)
    (hq : startsWith (toAsciiLowercase id) (toAsciiLowercase q) = true)
    (hk : startsWith (toAsciiLowercase k) (toAsciiLowercase q) = true) :
    startsWith (toAsciiLowercase k) (toAsciiLowercase p) = true := by
  rw [startsWith_iff] at hp hq hk ⊢
  have hpq := List.prefix_of_prefix_length_le hp hq
    (by rw [length_toAsciiLowercase, length_toAsciiLowercase]; exact hlen)
  exact hpq.trans hk

theorem ne_empty_of_stableId {s : SessionRecord} {id : String} (h : s.stableId = some id) :
    id ≠ "" := by
  rintro rfl
  have hblank := (requiredLabelValue_eq_some.1 h).2
  exact absurd hblank (by decide)

/-- Lengthening a prefix keeps the selection, as long as it matches the selected id. -/
theorem selectStableIdPrefix_longer {p q id : String} {selected : List SessionRecord}
    (h : selectStableIdPrefixWithNoun sessions p noun = .ok ⟨id, selected⟩)
    (hlen : p.toList.length ≤ q.toList.length)
    (hq : startsWith (toAsciiLowercase id) (toAsciiLowercase q) = true) :
    selectStableIdPrefixWithNoun sessions q noun = .ok ⟨id, selected⟩ := by
  obtain ⟨hne, hid, hselected⟩ := selectStableIdPrefix_ok_iff.1 h
  have hmatch := hasMatchingId_iff.1 ((hid id).2 rfl)
  have hqne : q ≠ "" := by
    rintro rfl
    have hp : p.toList = [] := List.length_eq_zero_iff.1 (by simpa using hlen)
    exact hne (by rw [← String.ofList_toList (s := p), hp])
  refine selectStableIdPrefix_ok_iff.2 ⟨hqne, fun k => ⟨fun hk => ?_, ?_⟩, hselected⟩
  · obtain ⟨hs, hstarts⟩ := hasMatchingId_iff.1 hk
    exact (hid k).1 (hasMatchingId_iff.2 ⟨hs, startsWith_of_longer hlen hmatch.2 hq hstarts⟩)
  · rintro rfl
    exact hasMatchingId_iff.2 ⟨hmatch.1, hq⟩

/-- The full id selects its sessions exactly when no other id begins with it. -/
theorem selectStableIdPrefix_self_iff {session : SessionRecord} {id : String}
    (hsession : session ∈ sessions) (hstable : session.stableId = some id) :
    selectStableIdPrefixWithNoun sessions id noun =
        .ok ⟨id, sessions.filter fun s => s.stableId = some id⟩ ↔
      IsUnshadowed sessions id := by
  rw [selectStableIdPrefix_ok_iff]
  constructor
  · rintro ⟨-, hid, -⟩ s hs k hk hstarts
    exact (hid k).1 (hasMatchingId_iff.2 ⟨⟨s, hs, hk⟩, hstarts⟩)
  · intro h
    refine ⟨ne_empty_of_stableId hstable, fun k => ⟨fun hk => ?_, ?_⟩, rfl⟩
    · obtain ⟨⟨s, hs, hsk⟩, hstarts⟩ := hasMatchingId_iff.1 hk
      exact h s hs k hsk hstarts
    · rintro rfl
      exact hasMatchingId_iff.2 ⟨⟨session, hsession, hstable⟩, startsWith_self _⟩

/-- No prefix at all selects an id that does not select itself. -/
theorem exists_prefix_iff {session : SessionRecord} {id : String} (hsession : session ∈ sessions)
    (hstable : session.stableId = some id) :
    (∃ p selected, selectStableIdPrefixWithNoun sessions p noun = .ok ⟨id, selected⟩) ↔
      IsUnshadowed sessions id := by
  rw [← @selectStableIdPrefix_self_iff _ noun _ _ hsession hstable]
  constructor
  · rintro ⟨p, selected, h⟩
    obtain ⟨-, hid, hselected⟩ := selectStableIdPrefix_ok_iff.1 h
    have hprefix := startsWith_iff.1 (hasMatchingId_iff.1 ((hid id).2 rfl)).2
    have hlen := hprefix.length_le
    rw [length_toAsciiLowercase, length_toAsciiLowercase] at hlen
    rw [← hselected]
    exact selectStableIdPrefix_longer h hlen (startsWith_self _)
  · intro h
    exact ⟨id, _, h⟩

/-- What a prefix selects, that a longer one selects the same, and when an id can be selected. -/
theorem stableIdPrefix_exact_iff (sessions : List SessionRecord) (noun : String) :
    (∀ p id selected, selectStableIdPrefixWithNoun sessions p noun = .ok ⟨id, selected⟩ ↔
      p ≠ "" ∧ (∀ k, HasMatchingId sessions p k ↔ k = id) ∧
        selected = sessions.filter (fun s => s.stableId = some id)) ∧
    (∀ p q id selected, selectStableIdPrefixWithNoun sessions p noun = .ok ⟨id, selected⟩ →
      p.toList.length ≤ q.toList.length →
      startsWith (toAsciiLowercase id) (toAsciiLowercase q) = true →
      selectStableIdPrefixWithNoun sessions q noun = .ok ⟨id, selected⟩) ∧
    ∀ session ∈ sessions, ∀ id, session.stableId = some id →
      (selectStableIdPrefixWithNoun sessions id noun =
          .ok ⟨id, sessions.filter fun s => s.stableId = some id⟩ ↔ IsUnshadowed sessions id) ∧
      ((∃ p selected, selectStableIdPrefixWithNoun sessions p noun = .ok ⟨id, selected⟩) ↔
        IsUnshadowed sessions id) :=
  ⟨fun _ _ _ => selectStableIdPrefix_ok_iff, fun _ _ _ _ => selectStableIdPrefix_longer,
    fun _ hsession _ hstable =>
      ⟨selectStableIdPrefix_self_iff hsession hstable, exists_prefix_iff hsession hstable⟩⟩

/-- A managed container with a hash label. -/
def sessionWithId (id : String) : SessionRecord where
  containerId := id
  containerName := id
  containerKind := .managed
  metadata := ⟨.ofList [(LABEL_GIT_ROOT_HASH, id)]⟩
  attachEndpoint := none
  containerRunning := true
  status := .running

/-- With the ids `ab12` and `AB12` present no prefix selects either of them. -/
theorem not_stableIdPrefix_exact :
    ¬ ∀ (sessions : List SessionRecord), ∀ session ∈ sessions, ∀ id,
      session.stableId = some id →
      ∃ p selected, selectStableIdPrefix sessions p = .ok ⟨id, selected⟩ := by
  intro h
  have hlower : (sessionWithId "ab12").stableId = some "ab12" := by decide +kernel
  have hupper : (sessionWithId "AB12").stableId = some "AB12" := by decide +kernel
  have hmem : sessionWithId "ab12" ∈ [sessionWithId "ab12", sessionWithId "AB12"] :=
    List.mem_cons_self
  have hunshadowed := (exists_prefix_iff hmem hlower).1 (h _ _ hmem _ hlower)
  exact absurd (hunshadowed (sessionWithId "AB12") (by simp) "AB12" hupper (by decide)) (by decide)

end Agentbox.Session.StableIds
