import Agentbox.Lib.Entries
import Agentbox.Session.Record
import Agentbox.Workspace.Identity

/-! # Selecting sessions

`session/selection.rs` and `session/collection.rs`: the sessions that a stable id prefix or a git root
selects. -/

namespace Agentbox.Session.Selection

open Agentbox.Base.Text Agentbox.Base.Path Agentbox.Base.Errors Agentbox.Lib.Entries
  Agentbox.Runtime.Kind Agentbox.Workspace.Identity Agentbox.Session.Record

/-! ### Stable ids -/

structure StableIdPrefixSelection where
  id : String
  sessions : List SessionRecord

def hasIdPrefix (normalizedPrefix : String) (session : SessionRecord) : Option String :=
  session.stableId.filter fun id => startsWith (toAsciiLowercase id) normalizedPrefix

/-- Adding an element at the end of its entry. -/
def pushEntry {α : Type} (old : Option (List α)) (a : α) : List α := old.getD [] ++ [a]

/-- `select_stable_id_prefix_with_noun`. -/
def selectStableIdPrefixWithNoun (sessions : List SessionRecord) (idPrefix noun : String) :
    Except Error StableIdPrefixSelection :=
  if idPrefix = "" then .error (.msg "stable id prefix must not be empty")
  else
    let found := entries compare (hasIdPrefix (toAsciiLowercase idPrefix)) pushEntry sessions
    match found.toList with
    | [] => .error (.msg ("no " ++ noun ++ " id matches prefix `" ++ idPrefix ++ "`"))
    | [(id, sessions)] => .ok ⟨id, sessions⟩
    | l => .error (.msg ("stable id prefix `" ++ idPrefix ++ "` matches multiple ids (" ++
        joinComma (l.map Prod.fst) ++ "); use a longer prefix"))

def selectStableIdPrefix (sessions : List SessionRecord) (idPrefix : String) :
    Except Error StableIdPrefixSelection :=
  selectStableIdPrefixWithNoun sessions idPrefix "managed session"

def selectAgentboxStableIdPrefix (sessions : List SessionRecord) (idPrefix : String) :
    Except Error StableIdPrefixSelection :=
  selectStableIdPrefixWithNoun sessions idPrefix "agentbox container"

theorem foldl_pushEntry {α : Type} : ∀ (l : List α) (old : Option (List α)),
    l.foldl (fun old a => some (pushEntry old a)) old =
      if l = [] then old else some (old.getD [] ++ l)
  | [], _ => rfl
  | a :: l, old => by
    rw [List.foldl_cons, foldl_pushEntry l, if_neg (List.cons_ne_nil a l)]
    split_ifs with h
    · rw [h, pushEntry]
    · rw [Option.getD_some, pushEntry, List.append_assoc, List.singleton_append]

def matchesIdPrefix (idPrefix : String) (session : SessionRecord) : Bool :=
  (hasIdPrefix (toAsciiLowercase idPrefix) session).isSome

theorem hasIdPrefix_eq_some {normalized id : String} {session : SessionRecord} :
    hasIdPrefix normalized session = some id ↔
      session.stableId = some id ∧ startsWith (toAsciiLowercase id) normalized = true := by
  rw [hasIdPrefix, Option.filter_eq_some_iff]

/-- An id of the sessions that the prefix matches. -/
def HasMatchingId (sessions : List SessionRecord) (idPrefix id : String) : Prop :=
  ∃ s ∈ sessions, hasIdPrefix (toAsciiLowercase idPrefix) s = some id

theorem hasMatchingId_iff {sessions : List SessionRecord} {idPrefix id : String} :
    HasMatchingId sessions idPrefix id ↔ (∃ s ∈ sessions, s.stableId = some id) ∧
      startsWith (toAsciiLowercase id) (toAsciiLowercase idPrefix) = true := by
  unfold HasMatchingId
  simp only [hasIdPrefix_eq_some, ← and_assoc]
  exact ⟨fun ⟨s, hs⟩ => ⟨⟨s, hs.1⟩, hs.2⟩, fun ⟨⟨s, hs⟩, hstarts⟩ => ⟨s, hs, hstarts⟩⟩

/-- The entry of an id that the prefix matches has all sessions with the id. -/
theorem getElem?_matches (sessions : List SessionRecord) (idPrefix : String) (k : String)
    (v : List SessionRecord) :
    (entries compare (hasIdPrefix (toAsciiLowercase idPrefix)) pushEntry sessions)[k]? = some v ↔
      HasMatchingId sessions idPrefix k ∧ v = sessions.filter (fun s => s.stableId = some k) := by
  have hfilter : HasMatchingId sessions idPrefix k →
      (sessions.filter fun s => hasIdPrefix (toAsciiLowercase idPrefix) s = some k) =
        sessions.filter fun s => s.stableId = some k := by
    intro h
    refine List.filter_congr fun s _ => ?_
    rw [decide_eq_decide, hasIdPrefix_eq_some, and_iff_left (hasMatchingId_iff.1 h).2]
  rw [getElem?_entries, foldl_pushEntry]
  split_ifs with hnil
  · have hno : ¬ HasMatchingId sessions idPrefix k := by
      rintro ⟨s, hs, hk⟩
      exact List.filter_eq_nil_iff.1 hnil s hs (by simpa using hk)
    simp [hno]
  · have hyes : HasMatchingId sessions idPrefix k := by
      obtain ⟨s, hs⟩ := List.exists_mem_of_ne_nil _ hnil
      exact ⟨s, (List.mem_filter.1 hs).1, of_decide_eq_true (List.mem_filter.1 hs).2⟩
    rw [hfilter hyes, Option.getD_none, List.nil_append, Option.some.injEq, and_iff_right hyes,
      eq_comm]

/-- A prefix selects an id exactly when it matches this id alone, and then all sessions with it. -/
theorem selectStableIdPrefix_ok_iff {sessions : List SessionRecord} {idPrefix noun id : String}
    {selected : List SessionRecord} :
    selectStableIdPrefixWithNoun sessions idPrefix noun = .ok ⟨id, selected⟩ ↔
      idPrefix ≠ "" ∧ (∀ k, HasMatchingId sessions idPrefix k ↔ k = id) ∧
        selected = sessions.filter (fun s => s.stableId = some id) := by
  have hsingleton : (entries compare (hasIdPrefix (toAsciiLowercase idPrefix)) pushEntry
      sessions).toList = [(id, selected)] ↔
        (∀ k, HasMatchingId sessions idPrefix k ↔ k = id) ∧
          selected = sessions.filter (fun s => s.stableId = some id) := by
    rw [toList_eq_singleton]
    simp only [getElem?_matches]
    constructor
    · intro h
      have hselected := ((h id selected).2 ⟨rfl, rfl⟩).2
      refine ⟨fun k => ⟨fun hk => ((h k _).1 ⟨hk, rfl⟩).1, ?_⟩, hselected⟩
      rintro rfl
      exact ((h k selected).2 ⟨rfl, rfl⟩).1
    · rintro ⟨hid, rfl⟩ k v
      rw [hid]
      refine and_congr_right ?_
      rintro rfl
      rfl
  rw [← hsingleton]
  unfold selectStableIdPrefixWithNoun
  by_cases hempty : idPrefix = ""
  · simp [hempty]
  · rw [if_neg hempty, and_iff_right hempty]
    simp only
    generalize (entries compare (hasIdPrefix (toAsciiLowercase idPrefix)) pushEntry
      sessions).toList = l
    rcases l with _ | ⟨⟨k, v⟩, _ | ⟨b, l⟩⟩
    · simp
    · simp
    · simp

/-- The sessions of a selection are all those with its id, and all those that match the prefix. -/
theorem selectStableIdPrefix_spec {sessions : List SessionRecord} {idPrefix noun : String}
    {selection : StableIdPrefixSelection}
    (h : selectStableIdPrefixWithNoun sessions idPrefix noun = .ok selection) :
    selection.sessions = sessions.filter (fun s => s.stableId = some selection.id) ∧
      selection.sessions = sessions.filter (matchesIdPrefix idPrefix) ∧
      selection.sessions ≠ [] := by
  obtain ⟨id, selected⟩ := selection
  obtain ⟨-, hid, hselected⟩ := selectStableIdPrefix_ok_iff.1 h
  have hmatches : selected = sessions.filter (matchesIdPrefix idPrefix) := by
    refine hselected.trans (List.filter_congr fun s hs => ?_)
    have hiff : s.stableId = some id ↔ matchesIdPrefix idPrefix s = true := by
      rw [matchesIdPrefix, Option.isSome_iff_exists]
      constructor
      · intro hs'
        exact ⟨id, hasIdPrefix_eq_some.2 ⟨hs', (hasMatchingId_iff.1 ((hid id).2 rfl)).2⟩⟩
      · rintro ⟨k, hk⟩
        rw [(hasIdPrefix_eq_some.1 hk).1, (hid k).1 ⟨s, hs, hk⟩]
    rw [Bool.eq_iff_iff, decide_eq_true_iff, hiff]
  refine ⟨hselected, hmatches, ?_⟩
  obtain ⟨s, hs, hk⟩ := (hid id).2 rfl
  rw [hselected]
  exact List.ne_nil_of_mem (List.mem_filter.2 ⟨hs, decide_eq_true (hasIdPrefix_eq_some.1 hk).1⟩)

/-! ### Single sessions -/

def duplicateSessionsError (workspace : WorkspaceIdentity) : Error :=
  .duplicateManagedSessions workspace.canonicalGitRoot

def selectSingleSession (sessions : List SessionRecord) (workspace : WorkspaceIdentity) :
    Except Error (Option SessionRecord) :=
  match sessions with
  | [] => .ok none
  | [session] => .ok (some session)
  | _ => .error (duplicateSessionsError workspace)

def runCommandHint (runtime : Option String) (workspace : WorkspaceIdentity) : String :=
  let runtime := (runtime.filter fun value => (RuntimeKind.parse value).isOk).getD
    RuntimeKind.supportedValuesPlaceholder
  "agentbox start --runtime " ++ runtime ++ " " ++ workspace.requestedTarget.asStr

/-! ### Git roots -/

structure SessionGroup where
  canonicalGitRoot : Utf8Path
  sessions : List SessionRecord

structure SessionRootPartition where
  rooted : List SessionGroup
  unrooted : List SessionRecord

def exactGitRootMatches (sessions : List SessionRecord) (gitRoot : Utf8Path) :
    List SessionRecord :=
  sessions.filter fun session => session.canonicalGitRoot == some gitRoot

/-- An entry keeps the spelling of its first session. -/
def addToGroup (old : Option SessionGroup) (session : SessionRecord) : SessionGroup :=
  match old with
  | some group => { group with sessions := group.sessions ++ [session] }
  | none => ⟨session.canonicalGitRoot.getD ⟨""⟩, [session]⟩

def partitionSessionsByGitRoot (sessions : List SessionRecord) : SessionRootPartition where
  rooted := (entries (List.compareLex Component.cmp)
    (fun session => session.canonicalGitRoot.map Utf8Path.components) addToGroup sessions).toList.map
      Prod.snd
  unrooted := sessions.filter fun session => session.canonicalGitRoot.isNone

def rootComponents (session : SessionRecord) : Option (List Component) :=
  session.canonicalGitRoot.map Utf8Path.components

theorem foldl_addToGroup_some : ∀ (l : List SessionRecord) (group : SessionGroup),
    l.foldl (fun old session => some (addToGroup old session)) (some group) =
      some ⟨group.canonicalGitRoot, group.sessions ++ l⟩
  | [], group => by rw [List.foldl_nil, List.append_nil]
  | session :: l, group => by
    rw [List.foldl_cons, foldl_addToGroup_some l, addToGroup, List.append_assoc,
      List.singleton_append]

/-- The group of a root: the first of its sessions spells the root. -/
theorem getElem?_groups {sessions : List SessionRecord} {key : List Component}
    {group : SessionGroup} :
    (entries (List.compareLex Component.cmp) rootComponents addToGroup sessions)[key]? =
      some group ↔ ∃ root first rest, first.canonicalGitRoot = some root ∧
        root.components = key ∧ (sessions.filter fun session =>
          rootComponents session = some key) = first :: rest ∧ group = ⟨root, first :: rest⟩ := by
  rw [getElem?_entries]
  rcases hfilter : sessions.filter fun session => decide (rootComponents session = some key) with
    _ | ⟨first, rest⟩
  · simp
  · have hmem : first ∈ sessions.filter fun session => rootComponents session = some key := by
      rw [hfilter]
      exact List.mem_cons_self
    obtain ⟨root, hroot, hkey⟩ :=
      Option.map_eq_some_iff.1 (of_decide_eq_true (List.mem_filter.1 hmem).2)
    rw [List.foldl_cons, foldl_addToGroup_some]
    simp only [addToGroup, hroot, Option.getD_some, List.singleton_append, Option.some.injEq]
    constructor
    · rintro rfl
      exact ⟨root, first, rest, hroot, hkey, rfl, rfl⟩
    · rintro ⟨root', first', rest', hroot', -, heq, rfl⟩
      obtain ⟨rfl, rfl⟩ := List.cons.inj heq
      rw [hroot] at hroot'
      cases hroot'
      rfl

/-- The sessions of a group are those with its root. -/
theorem mem_rooted {sessions : List SessionRecord} {group : SessionGroup} :
    group ∈ (partitionSessionsByGitRoot sessions).rooted ↔
      ∃ root first rest, first.canonicalGitRoot = some root ∧
        (sessions.filter fun session => rootComponents session = some root.components) =
          first :: rest ∧ group = ⟨root, first :: rest⟩ := by
  change group ∈ List.map Prod.snd _ ↔ _
  rw [List.mem_map]
  constructor
  · rintro ⟨⟨key, group'⟩, hmem, rfl⟩
    obtain ⟨root, first, rest, hroot, rfl, hfilter, hgroup⟩ :=
      getElem?_groups.1 (Std.ExtTreeMap.mem_toList_iff_getElem?_eq_some.1 hmem)
    exact ⟨root, first, rest, hroot, hfilter, hgroup⟩
  · rintro ⟨root, first, rest, hroot, hfilter, rfl⟩
    exact ⟨(root.components, _), Std.ExtTreeMap.mem_toList_iff_getElem?_eq_some.2
      (getElem?_groups.2 ⟨root, first, rest, hroot, rfl, hfilter, rfl⟩), rfl⟩

/-- No root has two groups. -/
theorem pairwise_rooted (sessions : List SessionRecord) :
    (partitionSessionsByGitRoot sessions).rooted.Pairwise fun group group' =>
      group.canonicalGitRoot.components ≠ group'.canonicalGitRoot.components := by
  have hkey : ∀ entry ∈ (entries (List.compareLex Component.cmp) rootComponents addToGroup
      sessions).toList, entry.2.canonicalGitRoot.components = entry.1 := by
    rintro ⟨key, group⟩ hmem
    obtain ⟨root, first, rest, -, hkey, -, rfl⟩ :=
      getElem?_groups.1 (Std.ExtTreeMap.mem_toList_iff_getElem?_eq_some.1 hmem)
    exact hkey
  refine List.pairwise_map.2 (Std.ExtTreeMap.distinct_keys_toList.imp_of_mem ?_)
  intro entry entry' hmem hmem' hne heq
  rw [hkey entry hmem, hkey entry' hmem'] at heq
  exact hne (Std.LawfulEqCmp.compare_eq_iff_eq.2 heq)

/-- Every session with a root is in a group. -/
theorem exists_group {sessions : List SessionRecord} {session : SessionRecord} {root : Utf8Path}
    (hmem : session ∈ sessions) (hroot : session.canonicalGitRoot = some root) :
    ∃ group ∈ (partitionSessionsByGitRoot sessions).rooted, session ∈ group.sessions ∧
      group.canonicalGitRoot.components = root.components := by
  have hfiltered : session ∈ sessions.filter fun session =>
      rootComponents session = some root.components := by
    refine List.mem_filter.2 ⟨hmem, decide_eq_true ?_⟩
    rw [rootComponents, hroot]
    rfl
  rcases hfilter : sessions.filter fun session =>
    decide (rootComponents session = some root.components) with _ | ⟨first, rest⟩
  · rw [hfilter] at hfiltered
    cases hfiltered
  · have hfirst : first ∈ sessions.filter fun session =>
        rootComponents session = some root.components := by
      rw [hfilter]
      exact List.mem_cons_self
    obtain ⟨root', hroot', hcomponents⟩ :=
      Option.map_eq_some_iff.1 (of_decide_eq_true (List.mem_filter.1 hfirst).2)
    refine ⟨⟨root', first :: rest⟩, mem_rooted.2 ⟨root', first, rest, hroot', ?_, rfl⟩, ?_,
      hcomponents⟩
    · rw [hcomponents]
      exact hfilter
    · rw [← hfilter]
      exact hfiltered

end Agentbox.Session.Selection
