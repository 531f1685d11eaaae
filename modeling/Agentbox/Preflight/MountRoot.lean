import Agentbox.Preflight.Check

/-! # Which paths reach a mount root

The check reads three things: the path, the place it leads to, and for each symlink among its own
initial parts the target, alone and with what follows the symlink. The resolution of the path goes
through more, and `..` and the place of a symlink mean something else in it than in the text. -/

namespace Agentbox.Preflight.MountRoot

open Agentbox.Base.Path Agentbox.Base.Path.Utf8Path Agentbox.Commands.HostCalls
  Agentbox.Lib.Resolution Agentbox.Preflight.Path Agentbox.Preflight.Check
  Agentbox.Preflight.Snapshot Agentbox.Runtime.Kind Agentbox.Runtime.Spec

/-! ### Components -/

theorem segmentComponent_ne_rootDir {atStart : Bool} {segment : List Char} :
    segmentComponent atStart segment ≠ some .rootDir := by
  unfold segmentComponent
  split_ifs <;> simp

theorem not_mem_filterMap_segmentComponent (segments : List (List Char)) :
    Component.rootDir ∉ segments.filterMap (segmentComponent false) := by
  intro hmem
  obtain ⟨segment, -, hsegment⟩ := List.mem_filterMap.1 hmem
  exact segmentComponent_ne_rootDir hsegment

/-- An absolute path starts at the root, and no path comes back to it. -/
theorem components_of_isAbsolute {p : Utf8Path} (h : p.isAbsolute = true) :
    ∃ l, p.components = .rootDir :: l ∧ .rootDir ∉ l := by
  unfold components
  split
  · next hnil => exact absurd hnil (List.splitOn_ne_nil _ _)
  · next first rest _ =>
    exact ⟨_, by rw [if_pos h]; rfl, not_mem_filterMap_segmentComponent rest⟩

theorem rootDir_not_mem_of_relative {p : Utf8Path} (h : p.isAbsolute = false) :
    Component.rootDir ∉ p.components := by
  unfold components
  split
  · exact List.not_mem_nil
  · next first rest _ =>
    rw [h, if_neg Bool.false_ne_true, List.mem_append, not_or]
    refine ⟨fun hmem => ?_, not_mem_filterMap_segmentComponent rest⟩
    exact segmentComponent_ne_rootDir (Option.mem_toList.1 hmem)

/-- The final `.` of a lookup spells out nothing. -/
theorem foldl_lookupComponents (p : Utf8Path) (names : List String) :
    (lookupComponents p).foldl pushName names = p.components.foldl pushName names := by
  rw [lookupComponents, List.foldl_append]
  split_ifs <;> rfl

theorem foldl_drop_lookupComponents (p : Utf8Path) (n : Nat) (names : List String) :
    ((lookupComponents p).drop n).foldl pushName names =
      (p.components.drop n).foldl pushName names := by
  rw [lookupComponents, List.drop_append, List.foldl_append]
  split_ifs
  · rcases n - p.components.length with _ | m
    · rfl
    · rw [List.drop_succ_cons, List.drop_nil]
      rfl
  · rw [List.drop_nil]
    rfl

theorem rootDir_not_mem_tail_lookup (p : Utf8Path) {rest : List Component}
    (hrest : .rootDir ∉ rest) : .rootDir ∉ (lookupComponents p ++ rest).tail := by
  have hdot : Component.rootDir ∉ (if endsInDirectory p then [Component.curDir] else []) := by
    split_ifs <;> simp
  rcases habsolute : p.isAbsolute with _ | _
  · intro hmem
    rcases List.mem_append.1 (List.mem_of_mem_tail hmem) with hmem | hmem
    · rcases List.mem_append.1 hmem with hmem | hmem
      · exact rootDir_not_mem_of_relative habsolute hmem
      · exact hdot hmem
    · exact hrest hmem
  · obtain ⟨l, hl, hroot⟩ := components_of_isAbsolute habsolute
    rw [lookupComponents, hl, List.cons_append, List.cons_append, List.tail_cons, List.mem_append,
      List.mem_append]
    rintro ((hmem | hmem) | hmem)
    exacts [hroot hmem, hdot hmem, hrest hmem]

/-! ### What the check reads -/

/-- The mount root with each `..` taken away in the text. -/
def mountRootNames (mountRoot : Utf8Path) : List String := lexicalNames mountRoot.components

section
variable (fs : FileSystem) (path mountRoot : Utf8Path)

/-- The paths that are spelled out: the path, and for each symlink among its initial parts the
target, alone and with what follows the symlink. With each the state in which it is read. -/
inductive Spelled : List Component → Pending → Prop
  | path : Spelled path.components (fs.start (lookupComponents path))
  | target {link : List Component} {place : List String} {target : Utf8Path}
      (hlink : link ∈ ancestors path) (h : fs.readLink link = some (place, target)) :
      Spelled (resolveSymlinkTarget link target) ⟨place, lookupComponents target⟩
  | expanded {link : List Component} {place : List String} {target : Utf8Path}
      (hlink : link ∈ ancestors path) (h : fs.readLink link = some (place, target)) :
      Spelled (expandedSymlinkPath path link (resolveSymlinkTarget link target))
        ⟨place, lookupComponents target ++ (lookupComponents path).drop link.length⟩

/-- The resolution of the path comes to the mount root. -/
def ReachesMountRoot : Prop := fs.Passes (lookupComponents path) (mountRootNames mountRoot)

/-- The steps to the next symlink come to the mount root, and no `..` follows there. -/
def Visits (s : Pending) : Prop :=
  ∃ s', fs.OwnSteps s s' ∧ .parentDir ∉ s'.rest ∧ mountRootNames mountRoot <+: s'.ahead

/-- The states that the check reads: up to the next symlink after a spelled path, once no `..` is
left there, and the end. -/
inductive IsRead : Pending → Prop
  | spelled {spelled : List Component} {s s' : Pending} (h : Spelled fs path spelled s)
      (hsteps : fs.OwnSteps s s') (hparent : .parentDir ∉ s'.rest) : IsRead s'
  | done {place : List String} (h : fs.resolve (lookupComponents path) = some place) :
      IsRead ⟨place, []⟩

end

section
variable {fs : FileSystem} {path mountRoot : Utf8Path}

theorem ancestors_isPrefix {link : List Component} (h : link ∈ ancestors path) :
    link <+: lookupComponents path := by
  rcases List.mem_cons.1 h with rfl | hmem
  · exact List.prefix_rfl
  · have hinits := List.mem_filter.1 (List.mem_reverse.1 hmem)
    have hinit := (List.mem_inits _ _).1 (List.dropLast_subset _ hinits.1)
    exact hinit.trans (List.prefix_append _ _)

/-- A symlink has a name, so it is below the root. -/
theorem link_eq_rootDir_cons (hpath : path.isAbsolute = true) {link : List Component}
    {place : List String} {target : Utf8Path} (hlink : link ∈ ancestors path)
    (h : fs.readLink link = some (place, target)) :
    ∃ l c, link = .rootDir :: (l ++ [c]) ∧ .rootDir ∉ l ++ [c] := by
  obtain ⟨rest, hrest⟩ := ancestors_isPrefix hlink
  obtain ⟨l₀, hl₀, hroot⟩ := components_of_isAbsolute hpath
  have htail := rootDir_not_mem_tail_lookup path (List.not_mem_nil (a := Component.rootDir))
  rw [List.append_nil, ← hrest] at htail
  rcases link with _ | ⟨c, link⟩
  · cases h
  have hc : c = .rootDir := by
    rw [lookupComponents, hl₀, List.cons_append, List.cons_append] at hrest
    exact (List.cons.inj hrest).1
  subst hc
  rcases List.eq_nil_or_concat link with rfl | ⟨l, c, rfl⟩
  · cases h
  · rw [List.concat_eq_append] at htail ⊢
    exact ⟨l, c, rfl, fun hmem => htail (List.mem_append_left _ hmem)⟩

theorem rootDir_not_mem_drop (path : Utf8Path) (n : Nat) :
    .rootDir ∉ (lookupComponents path).drop (n + 1) := by
  have htail := rootDir_not_mem_tail_lookup path (List.not_mem_nil (a := Component.rootDir))
  rw [List.append_nil, ← List.drop_one] at htail
  rw [Nat.add_comm, ← List.drop_drop]
  exact fun hmem => htail (List.mem_of_mem_drop hmem)

/-- What a spelled path names in the text, and where its steps start. -/
theorem Spelled.text (hpath : path.isAbsolute = true) {spelled : List Component} {s : Pending}
    (h : Spelled fs path spelled s) :
    (∃ l, spelled = .rootDir :: l ∧ .rootDir ∉ l) ∧ .rootDir ∉ s.rest.tail := by
  have hresolve : ∀ {link place target}, link ∈ ancestors path →
      fs.readLink link = some (place, target) →
      ∃ l, resolveSymlinkTarget link target = .rootDir :: l ∧ .rootDir ∉ l := by
    intro link place target hlink h
    unfold resolveSymlinkTarget
    split_ifs with habsolute
    · exact components_of_isAbsolute habsolute
    · obtain ⟨l, c, rfl, hroot⟩ := link_eq_rootDir_cons hpath hlink h
      refine ⟨l ++ target.components, ?_, ?_⟩
      · rw [← List.cons_append, List.dropLast_concat, List.cons_append]
      · rw [List.mem_append, not_or]
        exact ⟨fun hmem => hroot (List.mem_append_left _ hmem),
          rootDir_not_mem_of_relative (Bool.eq_false_iff.2 habsolute)⟩
  have hdrop : ∀ {link place target}, link ∈ ancestors path →
      fs.readLink link = some (place, target) →
      .rootDir ∉ (lookupComponents path).drop link.length := by
    intro link place target hlink h
    obtain ⟨l, c, rfl, -⟩ := link_eq_rootDir_cons hpath hlink h
    exact rootDir_not_mem_drop path _
  cases h with
  | path =>
    have htail := rootDir_not_mem_tail_lookup path (List.not_mem_nil (a := Component.rootDir))
    rw [List.append_nil] at htail
    exact ⟨components_of_isAbsolute hpath, htail⟩
  | @target link place target hlink h =>
    have htail := rootDir_not_mem_tail_lookup target (List.not_mem_nil (a := Component.rootDir))
    rw [List.append_nil] at htail
    exact ⟨hresolve hlink h, htail⟩
  | @expanded link place target hlink h =>
    obtain ⟨l, hl, hroot⟩ := hresolve hlink h
    refine ⟨⟨l ++ path.components.drop link.length, ?_, ?_⟩,
      rootDir_not_mem_tail_lookup target (hdrop hlink h)⟩
    · rw [expandedSymlinkPath, hl, List.cons_append]
    · rw [List.mem_append, not_or]
      refine ⟨hroot, fun hmem => hdrop hlink h ?_⟩
      rw [lookupComponents, List.drop_append]
      exact List.mem_append_left _ hmem

/-- With relative targets in directories spelled as they are, the text is what the state spells. -/
theorem Spelled.lexicalNames (hpath : path.isAbsolute = true)
    (hplace : ∀ link ∈ ancestors path, ∀ place target, fs.readLink link = some (place, target) →
      target.isAbsolute = true ∨ lexicalNames link.dropLast = place)
    {spelled : List Component} {s : Pending} (h : Spelled fs path spelled s) :
    lexicalNames spelled = s.spelled := by
  have htarget : ∀ {link place target}, link ∈ ancestors path →
      fs.readLink link = some (place, target) →
      Lib.Resolution.lexicalNames (resolveSymlinkTarget link target) =
        (lookupComponents target).foldl pushName place := by
    intro link place target hlink h
    rw [foldl_lookupComponents, resolveSymlinkTarget]
    split_ifs with habsolute
    · obtain ⟨l, hl, -⟩ := components_of_isAbsolute habsolute
      rw [hl]
      rfl
    · rw [← (hplace link hlink place target h).resolve_left habsolute]
      exact List.foldl_append
  cases h with
  | path =>
    obtain ⟨l, hl, -⟩ := components_of_isAbsolute hpath
    unfold Pending.spelled FileSystem.start
    rw [foldl_lookupComponents, hl]
    rfl
  | target hlink h => exact htarget hlink h
  | expanded hlink h =>
    unfold Pending.spelled
    rw [List.foldl_append, ← htarget hlink h, foldl_drop_lookupComponents]
    exact List.foldl_append

/-- The steps from a spelled path are steps of the resolution, which may have more to read. -/
theorem Spelled.steps (hpath : path.isAbsolute = true) {spelled : List Component} {s s' : Pending}
    (h : Spelled fs path spelled s) (hsteps : fs.OwnSteps s s') :
    ∃ rest, .rootDir ∉ rest ∧
      fs.Steps (fs.start (lookupComponents path)) ⟨s'.place, s'.rest ++ rest⟩ := by
  have hlinkSteps : ∀ {link place target}, link ∈ ancestors path →
      fs.readLink link = some (place, target) →
      fs.Steps (fs.start (lookupComponents path))
        ⟨place, lookupComponents target ++ (lookupComponents path).drop link.length⟩ := by
    intro link place target hlink h
    obtain ⟨rest, hrest⟩ := ancestors_isPrefix hlink
    rw [← hrest, List.drop_left]
    exact FileSystem.steps_readLink h
  cases h with
  | path =>
    refine ⟨[], List.not_mem_nil, ?_⟩
    rw [List.append_nil]
    exact hsteps.steps
  | target hlink h =>
    obtain ⟨l, c, rfl, -⟩ := link_eq_rootDir_cons hpath hlink h
    exact ⟨_, rootDir_not_mem_drop path _,
      Relation.ReflTransGen.trans (hlinkSteps hlink h) (hsteps.append _).steps⟩
  | expanded hlink h =>
    refine ⟨[], List.not_mem_nil, ?_⟩
    rw [List.append_nil]
    exact Relation.ReflTransGen.trans (hlinkSteps hlink h) hsteps.steps

/-- What follows a path comes after what it has ahead. -/
theorem ahead_isPrefix {place : List String} {l : List Component} (rest : List Component)
    (hroot : .rootDir ∉ l.tail) (hparent : .parentDir ∉ l) (hrest : .rootDir ∉ rest) :
    (Pending.mk place l).ahead <+: (Pending.mk place (l ++ rest)).ahead := by
  rcases l with _ | ⟨c, l⟩
  · have hnil : (Pending.mk place []).ahead = place := List.append_nil place
    rw [hnil]
    unfold Pending.ahead
    split
    · next rest' heq =>
      have hcons : rest = .rootDir :: rest' := heq
      exact absurd (hcons ▸ List.mem_cons_self) hrest
    · exact List.prefix_append _ _
  · rw [List.mem_cons, not_or] at hparent
    have htail : leadingNames (l ++ rest) = leadingNames l ++ leadingNames rest :=
      leadingNames_append hroot hparent.2
    cases c with
    | rootDir => exact ⟨leadingNames rest, htail.symm⟩
    | parentDir => exact absurd rfl hparent.1
    | curDir =>
      refine ⟨leadingNames rest, (List.append_assoc place _ _).trans ?_⟩
      exact congrArg (place ++ ·) htail.symm
    | normal name =>
      refine ⟨leadingNames rest, (List.append_assoc place _ _).trans ?_⟩
      exact congrArg (fun names => place ++ name :: names) htail.symm

/-- What the steps from a spelled path visit, the resolution comes to. -/
theorem Spelled.reaches (hpath : path.isAbsolute = true) {spelled : List Component} {s : Pending}
    (h : Spelled fs path spelled s) (hvisits : Visits fs mountRoot s) :
    ReachesMountRoot fs path mountRoot := by
  obtain ⟨s', hsteps, hparent, hmount⟩ := hvisits
  obtain ⟨rest, hrest, hreach⟩ := h.steps hpath hsteps
  have hroot := hsteps.rootDir_not_mem (h.text hpath).2
  exact ⟨_, hreach, hmount.trans (ahead_isPrefix rest hroot hparent hrest)⟩

/-- What is ahead of a state that the check reads, the resolution comes to. -/
theorem IsRead.reaches (hpath : path.isAbsolute = true) {s : Pending} (h : IsRead fs path s)
    (hahead : mountRootNames mountRoot <+: s.ahead) : ReachesMountRoot fs path mountRoot := by
  cases h with
  | spelled h hsteps hparent => exact h.reaches hpath ⟨s, hsteps, hparent, hahead⟩
  | @done place h =>
    have hplace : (Pending.mk place []).ahead = place := List.append_nil place
    exact FileSystem.passes_of_resolve h (hplace ▸ hahead)

end

/-! ### A chain of symlinks -/

end Agentbox.Preflight.MountRoot
