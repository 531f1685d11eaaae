import Agentbox.Lib.Delimited
import Agentbox.Runtime.Spec

/-! # Mount options

`render_mount` writes a mount as one `--mount` value. Podman reads the value as one comma-separated
record, each field of which is an option `name` or `name=value`. -/

namespace Agentbox.Runtime.MountOptions

open Agentbox.Lib.Delimited Agentbox.Runtime.Spec

/-- An option, cut at its first `=`. -/
def cutOption (field : List Char) : String × Option String :=
  (String.ofList (cutAt '=' field).1, (cutAt '=' field).2.map String.ofList)

/-- The options that Podman reads in the value of `--mount`. -/
def parseMount (value : String) : Option (List (String × Option String)) :=
  (record value.toList).map (List.map cutOption)

/-- What the options of a mount have to be. -/
def mountOptions (mount : RuntimeMount) : List (String × Option String) :=
  [("type", some (match mount.kind with
      | .bind => "bind"
      | .volume => "volume")),
    ("src", some mount.source), ("dst", some mount.destination)] ++
  (if mount.readOnly then [("ro", none)] else []) ++
  (if mount.kind = .volume then [("U", none)] else [])

/-- No character of the paths ends a field or a record, and no carriage return ends the value. -/
def IsRenderable (mount : RuntimeMount) : Prop :=
  (∀ c ∈ mount.source.toList, isPlain c = true) ∧
  (∀ c ∈ mount.destination.toList, isPlain c = true) ∧
  (mount.readOnly = true ∨ mount.kind = .volume ∨ mount.destination.toList.getLast? ≠ some '\r')

/-! ### The text of a mount -/

def typeField : RuntimeMountKind → List Char
  | .bind => "type=bind".toList
  | .volume => "type=volume".toList

/-- The options after the destination, with the comma before each. -/
def flags (mount : RuntimeMount) : List Char :=
  (if mount.readOnly then ",ro".toList else []) ++
  (if mount.kind = .volume then ",U".toList else [])

theorem renderMount_toList (mount : RuntimeMount) : (renderMount mount).toList =
    typeField mount.kind ++ ',' :: ("src=".toList ++ (mount.source.toList ++
      ',' :: ("dst=".toList ++ (mount.destination.toList ++ flags mount)))) := by
  obtain ⟨kind, source, destination, readOnly⟩ := mount
  have hkind : typeField kind = "type=".toList ++ (match kind with
      | .bind => "bind"
      | .volume => "volume").toList := by
    cases kind <;> rfl
  unfold renderMount flags
  rw [hkind]
  simp only [String.toList_intercalate, List.map_append, List.map_cons, List.map_nil,
    String.toList_append]
  cases readOnly <;> by_cases h : kind = .volume <;>
    simp only [h, ↓reduceIte, Bool.false_eq_true, List.map_nil, List.map_cons, List.append_nil,
      List.nil_append, List.cons_append, List.intercalate_cons_cons, List.intercalate_singleton,
      List.append_assoc] <;> rfl

theorem cutOption_src (p : List Char) :
    cutOption ("src=".toList ++ p) = ("src", some (String.ofList p)) := by
  unfold cutOption
  rw [show "src=".toList ++ p = "src".toList ++ '=' :: p from rfl, cutAt_append (by decide)]
  rfl

theorem cutOption_dst (p : List Char) :
    cutOption ("dst=".toList ++ p) = ("dst", some (String.ofList p)) := by
  unfold cutOption
  rw [show "dst=".toList ++ p = "dst".toList ++ '=' :: p from rfl, cutAt_append (by decide)]
  rfl

/-- The first field of the record is the type, whatever the paths are. -/
theorem record_render (mount : RuntimeMount) :
    record (renderMount mount).toList =
      (scan .bare "src=".toList (lines (mount.source.toList ++ ',' :: ("dst=".toList ++
        (mount.destination.toList ++ flags mount))))).map (typeField mount.kind :: ·) := by
  have hplain : ∀ c ∈ typeField mount.kind, isPlain c = true := by
    cases mount.kind <;> exact List.all_eq_true.1 (by decide)
  have hr : '\r' ∉ typeField mount.kind := by
    cases mount.kind <;> exact fun hmem => absurd (List.elem_eq_true_of_mem hmem) (by decide)
  obtain ⟨q, hq⟩ : ∃ q, typeField mount.kind = 't' :: q := by
    cases mount.kind <;> exact ⟨_, rfl⟩
  rw [renderMount_toList]
  generalize mount.source.toList ++ ',' :: _ = rest
  have hlines : lines (typeField mount.kind ++ ',' :: ("src=".toList ++ rest)) =
      typeField mount.kind ++ ',' :: ("src=".toList ++ lines rest) := by
    rw [lines_text hr, lines_cons (by decide), lines_text (by decide)]
  rw [hq] at hplain hlines ⊢
  rw [record_of_lines (c := 't') (l := q ++ ',' :: ("src=".toList ++ lines rest)) hlines (by decide),
    ← List.cons_append, scan_start_append hplain,
    scan_comma (.inr rfl)]
  exact congrArg _ (scan_start_append (List.all_eq_true.1 (by decide)) _)

theorem scan_source {source : List Char} (h : ∀ c ∈ source, isPlain c = true) (l : List Char) :
    scan .bare "src=".toList (lines (source ++ ',' :: ("dst=".toList ++ l))) =
      (scan .bare "dst=".toList (lines l)).map (("src=".toList ++ source) :: ·) := by
  have hn : '\n' ∉ source := fun hm => absurd (h _ hm) (by decide)
  rw [lines_append source _ hn (by decide), lines_cons (by decide), scan_append source h,
    scan_comma (.inr rfl)]
  rfl

theorem lines_flags {destination : List Char} {mount : RuntimeMount}
    (h : ∀ c ∈ destination, isPlain c = true)
    (hlast : mount.readOnly = true ∨ mount.kind = .volume ∨
      destination.getLast? ≠ some '\r') :
    lines (destination ++ flags mount) = destination ++ flags mount := by
  have hn : '\n' ∉ destination := fun hm => absurd (h _ hm) (by decide)
  obtain ⟨kind, _, _, readOnly⟩ := mount
  cases kind <;> cases readOnly
  · have hlast : destination.getLast? ≠ some '\r' := by simpa using hlast
    rw [show flags _ = [] from rfl, List.append_nil, lines_of_getLast hn hlast]
  all_goals exact lines_append destination _ hn (by decide)

theorem scan_flags (mount : RuntimeMount) (field : List Char) :
    (scan .bare field (flags mount)).map (List.map cutOption) =
      some (cutOption field :: ((if mount.readOnly then [("ro", none)] else []) ++
        (if mount.kind = .volume then [("U", none)] else []))) := by
  obtain ⟨kind, source, destination, readOnly⟩ := mount
  cases kind <;> cases readOnly <;> simp [flags, scan, cutOption, cutAt, quote]

/-! ### What Podman reads -/

theorem mountOptions_eq (mount : RuntimeMount) :
    mountOptions mount = cutOption (typeField mount.kind) :: ("src", some mount.source) ::
      ("dst", some mount.destination) :: ((if mount.readOnly then [("ro", none)] else []) ++
        (if mount.kind = .volume then [("U", none)] else [])) := by
  have hkind : cutOption (typeField mount.kind) = ("type", some (match mount.kind with
      | .bind => "bind"
      | .volume => "volume")) := by
    cases mount.kind <;> decide
  rw [hkind]
  rfl

theorem parseMount_of_source {mount : RuntimeMount}
    (h : ∀ c ∈ mount.source.toList, isPlain c = true) :
    parseMount (renderMount mount) =
      ((scan .bare "dst=".toList (lines (mount.destination.toList ++ flags mount))).map
        (List.map cutOption)).map
          (fun o => cutOption (typeField mount.kind) :: ("src", some mount.source) :: o) := by
  unfold parseMount
  rw [record_render, scan_source h, Option.map_map, Option.map_map, Option.map_map]
  congr 1
  funext fs
  have hsrc := cutOption_src mount.source.toList
  rw [String.ofList_toList] at hsrc
  simp only [Function.comp_apply, List.map_cons, hsrc]

theorem parseMount_of_isRenderable {mount : RuntimeMount} (h : IsRenderable mount) :
    parseMount (renderMount mount) = some (mountOptions mount) := by
  obtain ⟨hsource, hdestination, hlast⟩ := h
  rw [parseMount_of_source hsource, lines_flags hdestination hlast,
    scan_append mount.destination.toList hdestination, scan_flags, cutOption_dst,
    String.ofList_toList, mountOptions_eq]
  rfl

theorem isPlain_source_of_parseMount {mount : RuntimeMount}
    (h : parseMount (renderMount mount) = some (mountOptions mount)) :
    ∀ c ∈ mount.source.toList, isPlain c = true := by
  unfold parseMount at h
  rw [record_render, Option.map_map, mountOptions_eq] at h
  obtain ⟨fs, hscan, hfs⟩ := Option.map_eq_some_iff.1 h
  obtain ⟨p, rest, rfl, hp⟩ := scan_bare _ _ hscan
  simp only [Function.comp_apply, List.map_cons, cutOption_src, List.cons.injEq, Prod.mk.injEq,
    Option.some.injEq] at hfs
  have hsource : mount.source.toList = p := by rw [← hfs.2.1.2, String.toList_ofList]
  rwa [hsource]

theorem isRenderable_of_parseMount {mount : RuntimeMount}
    (h : parseMount (renderMount mount) = some (mountOptions mount)) : IsRenderable mount := by
  have hsource := isPlain_source_of_parseMount h
  rw [parseMount_of_source hsource, mountOptions_eq, Option.map_map] at h
  obtain ⟨fs, hscan, hfs⟩ := Option.map_eq_some_iff.1 h
  obtain ⟨p, rest, rfl, hp⟩ := scan_bare _ _ hscan
  simp only [Function.comp_apply, List.map_cons, cutOption_dst, List.cons.injEq, Prod.mk.injEq,
    Option.some.injEq] at hfs
  have hdestination : mount.destination.toList = p := by
    rw [← hfs.2.2.1.2, String.toList_ofList]
  rw [← hdestination] at hp
  refine ⟨hsource, hp, ?_⟩
  by_contra hcr
  simp only [not_or, not_not, Bool.not_eq_true] at hcr
  obtain ⟨hreadOnly, hkind, hlast⟩ := hcr
  -- Nothing follows the destination, and its last carriage return is lost with the line.
  have hflags : flags mount = [] := by simp [flags, hreadOnly, hkind]
  obtain ⟨d, hd⟩ := List.getLast?_eq_some_iff.1 hlast
  have hdp : ∀ c ∈ d, isPlain c = true := fun c hc => hp c (by simp [hd, hc])
  have hn : '\n' ∉ d := fun hm => absurd (hdp _ hm) (by decide)
  have hread : scan .bare "dst=".toList d = some ["dst=".toList ++ d] := by
    simpa [scan] using scan_append d hdp "dst=".toList []
  rw [hflags, List.append_nil, hd, lines_concat_return hn, hread] at hscan
  have hlost := congrArg List.length (List.append_cancel_left
    (List.cons.inj (Option.some.inj hscan)).1)
  rw [← hdestination, hd] at hlost
  simp at hlost

/-- Podman reads the options of a mount, and no other ones, exactly when its paths are renderable. -/
theorem parseMount_renderMount_iff (mount : RuntimeMount) :
    parseMount (renderMount mount) = some (mountOptions mount) ↔ IsRenderable mount :=
  ⟨isRenderable_of_parseMount, parseMount_of_isRenderable⟩

theorem mountOptions_injective {m m' : RuntimeMount} (h : mountOptions m = mountOptions m') :
    m = m' := by
  obtain ⟨kind, source, destination, readOnly⟩ := m
  obtain ⟨kind', source', destination', readOnly'⟩ := m'
  simp only [mountOptions, List.cons_append, List.nil_append, List.cons.injEq, Prod.mk.injEq,
    Option.some.injEq, true_and] at h
  obtain ⟨hkind, rfl, rfl, hflags⟩ := h
  cases kind <;> cases kind' <;> cases readOnly <;> cases readOnly' <;> simp_all

theorem mounts_faithful_iff (mount : RuntimeMount) :
    (parseMount (renderMount mount) = some (mountOptions mount) ↔ IsRenderable mount) ∧
    (IsRenderable mount → ∀ m', IsRenderable m' → renderMount mount = renderMount m' →
      mount = m') := by
  refine ⟨parseMount_renderMount_iff mount, fun h m' h' hrender => mountOptions_injective ?_⟩
  have hm := parseMount_of_isRenderable h
  rw [hrender, parseMount_of_isRenderable h'] at hm
  exact (Option.some.inj hm).symm

/-- The bind mount of a git root whose name ends in `,ro` is read as a read-only one. -/
theorem not_mounts_faithful :
    ¬ ∀ mount, parseMount (renderMount mount) = some (mountOptions mount) := by
  intro h
  exact absurd (h ⟨.bind, "/src/box,ro", "/src/box,ro", false⟩) (by decide)

end Agentbox.Runtime.MountOptions
