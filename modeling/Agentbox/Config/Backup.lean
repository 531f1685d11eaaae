import Agentbox.Config.Load

/-! # Backups of incompatible configs

What the backups keep over every run of the processes that load the config. The loop over the
suffixes always ends: names other than `config.json` stay, each process adds at most one, and a
process that tried `n` suffixes met `n` of them. Nothing is lost as long as each rename that takes
place finds its name free and moves a config that does not parse. The code checks both some steps
before the rename, and its check takes a dangling link for a free name. -/

namespace Agentbox.Config.Backup

open Agentbox.Config.Load Agentbox.Lib.Directory Agentbox.Lib.Transition

variable {ι : Type}

/-- What `config.json` holds now parses. -/
def ConfigParses (fromStr : String → Except String RawAgentboxConfig) (d : ConfigDir) : Prop :=
  ∃ contents config, readToString d = .ok contents ∧ parseConfig fromStr contents = .ok config

section Spec
variable (fromStr : String → Except String RawAgentboxConfig) (timestamp : ι → String)

/-- The step from `s` to `s'` is a rename of `config.json` by process `p`. -/
def Moves (S : System (State ι) (Act ι)) (s : State ι) (p : ι) (s' : State ι) : Prop :=
  S.step s (.run p) s' ∧ ∃ reason n dir, s.pc p = .renaming reason n ∧
    s.dir.rename configName (candidate timestamp p n) = .ok dir

/-- **Backing up loses nothing**, from the state `s` of a run of `S` that started in `d` on. -/
structure LosesNothing [Fintype ι] (S : System (State ι) (Act ι)) (d : ConfigDir) (s : State ι) :
    Prop where
  /-- The loops end: no process gets to more suffixes than there can be names. -/
  terminates : ∀ p reason n, s.pc p = .checking reason n →
    n < (d.namesBut configName).card + Fintype.card ι
  /-- No entry under another name is overwritten. -/
  kept : ∀ s', S.Steps s s' → ∀ name ≠ configName, ∀ e, s.dir.lookup name = some e →
    s'.dir.lookup name = some e
  /-- What is moved aside stays readable under a backup name. -/
  readable : ∀ p s1 s', Moves timestamp S s p s1 → S.Steps s1 s' → ∀ contents,
    s.dir.follow maxLinks configName = .ok (.file contents) →
      ∃ suffix, s'.dir.follow maxLinks (backupName (timestamp p) suffix) = .ok (.file contents)
  /-- A config that parses is not moved. -/
  unparsed : ∀ p s1, Moves timestamp S s p s1 → ¬ ConfigParses fromStr s.dir

/-- When process `p` comes to rename `config.json`, the name it chose has no entry, not even a
dangling link, and the config does not parse. -/
def Undisturbed (s : State ι) (a : Act ι) : Prop :=
  ∀ p reason n dir, a = .run p → s.pc p = .renaming reason n →
    s.dir.rename configName (candidate timestamp p n) = .ok dir →
      candidate timestamp p n ∉ s.dir ∧ ¬ ConfigParses fromStr s.dir

/-- Between the read of a process and its rename nobody else acts, and no backup name is a dangling
link. -/
structure Exclusive (s : State ι) (a : Act ι) : Prop where
  alone : ∀ p reason n, s.pc p = .checking reason n ∨ s.pc p = .renaming reason n → a = .run p
  links : ∀ p n, candidate timestamp p n ∈ s.dir → pathExists s.dir (candidate timestamp p n) = true

end Spec

variable {fromStr : String → Except String RawAgentboxConfig} {timestamp : ι → String}
  {d : ConfigDir}

/-! ### The loops end -/

section Terminates
variable [Fintype ι]

/-- The processes that can still rename. -/
def active (pc : ι → Pc) : Finset ι := Finset.univ.filter fun p => (pc p).isDone = false

/-- What holds between any two steps. -/
structure Bounded (timestamp : ι → String) (d : ConfigDir) (s : State ι) : Prop where
  /-- A process met a name at every suffix it is past. -/
  met : ∀ p reason n, s.pc p = .checking reason n → ∀ m < n, candidate timestamp p m ∈ s.dir
  /-- Each further name took a process that is done. -/
  names : (s.dir.namesBut configName).card + (active s.pc).card ≤
    (d.namesBut configName).card + Fintype.card ι

theorem bounded_init : Bounded timestamp d (State.init d : State ι) := by
  refine ⟨fun _ _ _ h => (nomatch h), ?_⟩
  have := Finset.card_le_univ (active (State.init d : State ι).pc)
  simp only [State.init] at this ⊢
  omega

theorem Bounded.lt {s : State ι} (h : Bounded timestamp d s) {p : ι} {reason : String} {n : Nat}
    (hp : s.pc p = .checking reason n) : n < (d.namesBut configName).card + Fintype.card ι := by
  have hsub : (Finset.range n).image (candidate timestamp p) ⊆ s.dir.namesBut configName := by
    intro name hname
    obtain ⟨m, hm, rfl⟩ := Finset.mem_image.1 hname
    exact Dir.mem_namesBut.2 ⟨backupName_ne_configName _ _,
      h.met p reason n hp m (Finset.mem_range.1 hm)⟩
  have hcard := Finset.card_le_card hsub
  rw [Finset.card_image_of_injective _ (candidate_injective timestamp p), Finset.card_range] at hcard
  have hpos : 0 < (active s.pc).card :=
    Finset.card_pos.2 ⟨p, Finset.mem_filter.2 ⟨Finset.mem_univ _, by rw [hp]; rfl⟩⟩
  have hnames := h.names
  omega

variable [DecidableEq ι]

theorem active_setPc_subset {s : State ι} {p : ι} (hp : (s.pc p).isDone = false) (pc : Pc) :
    active (s.setPc p pc).pc ⊆ active s.pc := by
  intro q hq
  simp only [active, Finset.mem_filter, Finset.mem_univ, true_and, State.setPc_pc] at hq ⊢
  split_ifs at hq with hqp
  · rw [hqp, hp]
  · exact hq

theorem card_active_done {s : State ι} {p : ι} (hp : (s.pc p).isDone = false)
    (config : AgentboxConfig) (warning : Option Warning) :
    (active (s.setPc p (.done config warning)).pc).card + 1 ≤ (active s.pc).card := by
  have hmem : p ∈ active s.pc := Finset.mem_filter.2 ⟨Finset.mem_univ _, hp⟩
  have hsub : active (s.setPc p (.done config warning)).pc ⊆ (active s.pc).erase p := by
    intro q hq
    refine Finset.mem_erase.2 ⟨?_, active_setPc_subset hp _ hq⟩
    rintro rfl
    simp [active, Pc.isDone] at hq
  have hle := Finset.card_le_card hsub
  rw [Finset.card_erase_of_mem hmem] at hle
  have : 0 < (active s.pc).card := Finset.card_pos.2 ⟨p, hmem⟩
  omega

theorem mem_of_exists {d : ConfigDir} {name : String} (h : pathExists d name = true) :
    name ∈ d := by
  rw [← AList.lookup_isSome]
  cases hl : d.lookup name with
  | none =>
    unfold pathExists at h
    rw [Dir.follow.eq_def, hl] at h
    cases h
  | some e => rfl

theorem bounded_step {s s' : State ι} {a : Act ι} (h : Bounded timestamp d s)
    (hs : step fromStr timestamp s a = some s') : Bounded timestamp d s' := by
  have hstay := fun p m => step_mem hs (backupName_ne_configName (timestamp p) (suffixAt m))
  have hnames := h.names
  rcases step_cases hs with ⟨p, pc, -, hp, rfl, hpc⟩ | ⟨p, reason, n, dir, -, hp, hdir, rfl⟩ |
    ⟨entry, -, rfl⟩
  · refine ⟨fun q r k hq m hm => ?_, ?_⟩
    · simp only [State.setPc_pc] at hq
      split_ifs at hq with hqp
      · rcases hpc r k hq with rfl | ⟨j, rfl, hj, hex⟩
        · omega
        · subst hqp
          rcases Nat.lt_succ_iff_lt_or_eq.1 hm with hm | rfl
          · exact h.met q r j hj m hm
          · exact mem_of_exists hex
      · exact h.met q r k hq m hm
    · have := Finset.card_le_card (active_setPc_subset hp pc)
      simp only [State.setPc_dir]
      omega
  · refine ⟨fun q r k hq m hm => ?_, ?_⟩
    · simp only [State.setPc_pc] at hq
      split_ifs at hq with hqp
      exact hstay q m (h.met q r k hq m hm)
    · have hcard := Dir.card_namesBut_rename hdir
      have hact := card_active_done (s := s) (p := p) (by rw [hp]; rfl) {}
        (some (.backedUp reason (candidate timestamp p n)))
      calc
        (dir.namesBut configName).card + _ ≤ (s.dir.namesBut configName).card + 1 + _ :=
          Nat.add_le_add_right hcard _
        _ = (s.dir.namesBut configName).card + (_ + 1) := by rw [Nat.add_assoc, Nat.add_comm 1]
        _ ≤ (s.dir.namesBut configName).card + (active s.pc).card := Nat.add_le_add_left hact _
        _ ≤ _ := hnames
  · refine ⟨fun q r k hq m hm => hstay q m (h.met q r k hq m hm), ?_⟩
    have hsub : (s.put entry).dir.namesBut configName ⊆ s.dir.namesBut configName := by
      intro name hname
      obtain ⟨hne, hmem⟩ := Dir.mem_namesBut.1 hname
      refine Dir.mem_namesBut.2 ⟨hne, ?_⟩
      rwa [← AList.lookup_isSome, State.put_lookup s entry hne, AList.lookup_isSome] at hmem
    have hcard := Finset.card_le_card hsub
    rw [State.put_pc]
    omega

/-- **Every backup loop ends**, whatever the other processes and the user do. -/
theorem terminates_of_reachable {s : State ι} (h : Reachable (loading fromStr timestamp d) s)
    (p : ι) (reason : String) (n : Nat) (hp : s.pc p = .checking reason n) :
    n < (d.namesBut configName).card + Fintype.card ι :=
  (h.invariant (fun _ h0 => h0 ▸ bounded_init) fun _ _ _ hi hs => bounded_step hi hs).lt hp

end Terminates

/-! ### Nothing is lost -/

variable [DecidableEq ι]

/-- A step that meets the condition keeps every entry but the one at `config.json`. -/
theorem step_keeps {s s' : State ι} {a : Act ι} (hC : Undisturbed fromStr timestamp s a)
    (hs : step fromStr timestamp s a = some s') {name : String} (hne : name ≠ configName)
    {e : Entry Contents} (he : s.dir.lookup name = some e) : s'.dir.lookup name = some e := by
  rcases step_cases hs with ⟨p, pc, -, -, rfl, -⟩ | ⟨p, reason, n, dir, rfl, hp, hdir, rfl⟩ |
    ⟨entry, -, rfl⟩
  · exact he
  · exact Dir.rename_keeps hdir (hC p reason n dir rfl hp hdir).1 hne he
  · rw [State.put_lookup s entry hne, he]

theorem steps_keep {s s' : State ι}
    (hs : ((loading fromStr timestamp d).restrict (Undisturbed fromStr timestamp)).Steps s s') :
    ∀ name ≠ configName, ∀ e, s.dir.lookup name = some e → s'.dir.lookup name = some e := by
  induction hs with
  | refl => exact fun _ _ _ he => he
  | tail _ hstep ih => exact fun name hne e he => step_keeps hstep.1 hstep.2 hne (ih name hne e he)

/-- After a rename the process is done and the directory is the renamed one. -/
theorem moves_dir {S : System (State ι) (Act ι)} {s s1 : State ι} {p : ι}
    (h1 : step fromStr timestamp s (.run p) = some s1) (h : Moves timestamp S s p s1) :
    ∃ reason n, s.pc p = .renaming reason n ∧
      s.dir.rename configName (candidate timestamp p n) = .ok s1.dir := by
  obtain ⟨-, reason, n, dir, hp, hdir⟩ := h
  refine ⟨reason, n, hp, ?_⟩
  simp only [step, hp, hdir, Option.some.injEq] at h1
  rw [← h1, hdir]

/-- **Nothing is lost** in a run all of whose renames find their name free and move a config that
does not parse: the loops end, entries under other names stay as they are, and what was moved aside
is readable under its backup name ever after. -/
theorem losesNothing_of_undisturbed [Fintype ι] (fromStr : String → Except String RawAgentboxConfig)
    (timestamp : ι → String) (d : ConfigDir) (s : State ι)
    (h : Reachable ((loading fromStr timestamp d).restrict (Undisturbed fromStr timestamp)) s) :
    LosesNothing fromStr timestamp
      ((loading fromStr timestamp d).restrict (Undisturbed fromStr timestamp)) d s where
  terminates := terminates_of_reachable h.of_restrict
  kept := fun _ hs => steps_keep hs
  readable := by
    intro p s1 s' hmove hs contents hread
    obtain ⟨reason, n, hp, hdir⟩ := moves_dir hmove.1.2 hmove
    have hfree := (hmove.1.1 p reason n s1.dir rfl hp hdir).1
    refine ⟨suffixAt n, Dir.follow_of_sub ?_ (Dir.rename_follow hdir hfree hread)⟩
    intro name e he
    -- the rename left no `config.json`, so the chain of links stays away from it
    have hne : name ≠ configName := by
      rintro rfl
      obtain ⟨source, -, hd⟩ := Dir.rename_ok hdir
      rw [hd, AList.lookup_insert_ne (backupName_ne_configName _ _).symm, AList.lookup_erase] at he
      cases he
    exact steps_keep hs name hne e he
  unparsed := by
    intro p s1 hmove
    obtain ⟨reason, n, hp, hdir⟩ := moves_dir hmove.1.2 hmove
    exact (hmove.1.1 p reason n s1.dir rfl hp hdir).2

/-- A rename that the condition leaves out replaces an entry, or moves a config that parses. -/
theorem disturbed_step {s s' : State ι} {a : Act ι} (hC : ¬ Undisturbed fromStr timestamp s a)
    (hs : step fromStr timestamp s a = some s') : ∃ p, a = .run p ∧
      ((∃ name ≠ configName, ∃ e, s.dir.lookup name = some e ∧
        s'.dir.lookup name = s.dir.lookup configName) ∨ ConfigParses fromStr s.dir) := by
  simp only [Undisturbed, not_forall] at hC
  obtain ⟨p, reason, n, dir, rfl, hp, hdir, hn⟩ := hC
  refine ⟨p, rfl, ?_⟩
  simp only [step, hp, hdir, Option.some.injEq] at hs
  by_cases hmem : candidate timestamp p n ∈ s.dir
  · obtain ⟨e, he⟩ := Option.isSome_iff_exists.1 (AList.lookup_isSome.2 hmem)
    obtain ⟨source, hsource, rfl⟩ := Dir.rename_ok hdir
    refine .inl ⟨_, backupName_ne_configName _ _, e, he, ?_⟩
    rw [← hs, hsource]
    exact AList.lookup_insert _
  · exact .inr (by_contra fun hparse => hn ⟨hmem, hparse⟩)

/-! ### What the checks see -/

/-- What a process has found out by the checks it is past. -/
structure Checked (fromStr : String → Except String RawAgentboxConfig) (timestamp : ι → String)
    (s : State ι) : Prop where
  unparsed : ∀ p reason n, s.pc p = .checking reason n ∨ s.pc p = .renaming reason n →
    ¬ ConfigParses fromStr s.dir
  free : ∀ p reason n, s.pc p = .renaming reason n →
    pathExists s.dir (candidate timestamp p n) = false

theorem not_parses_of_load {dir : ConfigDir} {reason : String}
    (h : load fromStr dir = .checking reason 0) : ¬ ConfigParses fromStr dir := by
  rintro ⟨contents, config, hread, hparse⟩
  rw [load, hread] at h
  simp only [hparse] at h
  cases h

/-- While no other process is between its checks and its rename, it is enough to look at the one that
acts. -/
theorem Checked.of_others {s s' : State ι} {p : ι}
    (hothers : ∀ q ≠ p, ∀ reason n, ¬ (s.pc q = .checking reason n ∨ s.pc q = .renaming reason n))
    (hpc : ∀ q ≠ p, s'.pc q = s.pc q)
    (hunparsed : ∀ reason n, s'.pc p = .checking reason n ∨ s'.pc p = .renaming reason n →
      ¬ ConfigParses fromStr s'.dir)
    (hfree : ∀ reason n, s'.pc p = .renaming reason n →
      pathExists s'.dir (candidate timestamp p n) = false) :
    Checked fromStr timestamp s' := by
  constructor
  · intro q reason n hq
    by_cases hqp : q = p
    · exact hunparsed reason n (hqp ▸ hq)
    · exact absurd (hpc q hqp ▸ hq) (hothers q hqp reason n)
  · intro q reason n hq
    by_cases hqp : q = p
    · subst hqp
      exact hfree reason n hq
    · exact absurd (.inr (hpc q hqp ▸ hq)) (hothers q hqp reason n)

/-- The one process that is past its checks has seen what they say. -/
theorem checked_step {s s' : State ι} {a : Act ι} (h : Checked fromStr timestamp s)
    (ha : Exclusive timestamp s a) (hs : step fromStr timestamp s a = some s') :
    Checked fromStr timestamp s' := by
  cases a with
  | recreate entry =>
    cases hs
    have hnone : ∀ q reason n, ¬ (s.pc q = .checking reason n ∨ s.pc q = .renaming reason n) := by
      intro q reason n hq
      cases ha.alone q reason n hq
    exact ⟨fun q reason n hq => absurd hq (hnone q reason n),
      fun q reason n hq => absurd (.inr hq) (hnone q reason n)⟩
  | run p =>
    have hothers : ∀ q ≠ p, ∀ reason n,
        ¬ (s.pc q = .checking reason n ∨ s.pc q = .renaming reason n) := by
      intro q hqp reason n hq
      exact hqp (Act.run.inj (ha.alone q reason n hq)).symm
    have hupdate : ∀ pc, ∀ q ≠ p, (s.setPc p pc).pc q = s.pc q := by
      intro pc q hqp
      rw [State.setPc_pc, if_neg hqp]
    have hat : ∀ pc, (s.setPc p pc).pc p = pc := fun pc => by rw [State.setPc_pc, if_pos rfl]
    simp only [step] at hs
    split at hs
    · cases hs
      refine .of_others hothers (hupdate _) (fun reason n hq => ?_) (fun reason n hq => ?_)
      · rw [hat] at hq
        rcases load_cases fromStr s.dir with ⟨_, _, hload⟩ | ⟨reason', hload⟩
        · rw [hload] at hq
          rcases hq with hq | hq <;> cases hq
        · exact not_parses_of_load hload
      · rw [hat] at hq
        rcases load_cases fromStr s.dir with ⟨_, _, hload⟩ | ⟨reason', hload⟩ <;>
        · rw [hload] at hq
          cases hq
    · next reason n hpc =>
      have hunparsed := h.unparsed p reason n (.inl hpc)
      split_ifs at hs with hexists
      · cases hs
        refine .of_others hothers (hupdate _) (fun _ _ _ => hunparsed) (fun reason n hq => ?_)
        rw [hat] at hq
        cases hq
      · cases hs
        refine .of_others hothers (hupdate _) (fun _ _ _ => hunparsed) (fun reason' m hq => ?_)
        rw [hat] at hq
        cases hq
        exact Bool.eq_false_iff.2 hexists
    · next reason n hpc =>
      have hdone : ∀ config warning (s1 : State ι), s1.pc = (s.setPc p (.done config warning)).pc →
          Checked fromStr timestamp s1 := by
        intro config warning s1 hs1
        refine .of_others hothers (fun q hqp => by rw [hs1, hupdate _ q hqp]) ?_ ?_
        · intro reason n hq
          rw [hs1, hat] at hq
          rcases hq with hq | hq <;> cases hq
        · intro reason n hq
          rw [hs1, hat] at hq
          cases hq
      split at hs
      · cases hs
        exact hdone _ _ _ rfl
      · cases hs
        exact hdone _ _ _ rfl
    · cases hs

/-- The checks are enough where nobody acts between the read and the rename and no backup name is a
dangling link: every step of such a run meets the condition. -/
theorem undisturbed_of_exclusive {s : State ι} {a : Act ι}
    (h : Reachable ((loading fromStr timestamp d).restrict (Exclusive timestamp)) s)
    (ha : Exclusive timestamp s a) : Undisturbed fromStr timestamp s a := by
  have hchecked : Checked fromStr timestamp s := by
    refine h.invariant (fun s hs => ?_) fun _ _ _ hi hstep => checked_step hi hstep.1 hstep.2
    cases hs
    exact ⟨fun _ _ _ hq => hq.elim nofun nofun, fun _ _ _ hq => nomatch hq⟩
  intro p reason n dir _ hp _
  refine ⟨fun hmem => ?_, hchecked.unparsed p reason n (.inr hp)⟩
  have hexists := ha.links p n hmem
  rw [hchecked.free p reason n hp] at hexists
  cases hexists

theorem reachable_of_exclusive {s : State ι}
    (h : Reachable ((loading fromStr timestamp d).restrict (Exclusive timestamp)) s) :
    Reachable ((loading fromStr timestamp d).restrict (Undisturbed fromStr timestamp)) s := by
  induction h with
  | init h => exact .init h
  | step h hs ih => exact .step ih ⟨undisturbed_of_exclusive h hs.1, hs.2⟩

/-! ### Runs -/

/-- What the library says of the texts below. -/
def demoFromStr (contents : String) : Except String RawAgentboxConfig :=
  if contents = "\x7b\x7d" then .ok {}
  else if contents = "" then .error "EOF while parsing a value at line 1 column 0"
  else .error "expected value at line 1 column 1"

def demoTimestamp : Fin 2 → String := fun _ => "20260517T112345Z"

def demoBackup : String := "config.json.bak.20260517T112345Z"

/-- A config file with the text `contents`. -/
def demoFile (contents : String) : Entry Contents := .node (.file (.utf8 contents))

/-- An empty config file. -/
def demoDir : ConfigDir := AList.singleton configName (demoFile "")

/-- The condition, as it is evaluated along a run. -/
def isUndisturbed (fromStr : String → Except String RawAgentboxConfig) (timestamp : ι → String)
    (s : State ι) : Act ι → Bool
  | .recreate _ => true
  | .run p =>
    match s.pc p with
    | .renaming _ n => decide (candidate timestamp p n ∉ s.dir) &&
        !(match readToString s.dir with
          | .ok contents => (parseConfig fromStr contents).isOk
          | .error _ => false)
    | _ => true

omit [DecidableEq ι] in
theorem undisturbed_of_isUndisturbed {s : State ι} {a : Act ι}
    (h : isUndisturbed fromStr timestamp s a = true) : Undisturbed fromStr timestamp s a := by
  rintro p reason n dir rfl hp -
  rw [isUndisturbed, hp, Bool.and_eq_true, decide_eq_true_eq] at h
  refine ⟨h.1, ?_⟩
  rintro ⟨contents, config, hread, hparse⟩
  have hnot := h.2
  rw [hread] at hnot
  simp only [hparse] at hnot
  cases hnot

/-- Both processes read the empty config; the first moves it aside, the user puts another empty one
there, and the second finds the name taken and moves that aside under the next one. -/
theorem losesNothing_of_undisturbed_demo : ∃ s : State (Fin 2),
    s.dir.lookup demoBackup = some (demoFile "") ∧
    s.dir.lookup (candidate demoTimestamp 1 1) = some (demoFile "") ∧
    LosesNothing demoFromStr demoTimestamp
      ((loading demoFromStr demoTimestamp demoDir).restrict
        (Undisturbed demoFromStr demoTimestamp)) demoDir s := by
  obtain ⟨s, hs, he⟩ := Option.map_eq_some_iff.1
    (show (replay (step demoFromStr demoTimestamp) (State.init demoDir)
        [.run 0, .run 1, .run 0, .run 0, .recreate (some (demoFile "")), .run 1, .run 1,
          .run 1]).map (fun s => (s.dir.lookup demoBackup,
            s.dir.lookup (candidate demoTimestamp 1 1))) =
      some (some (demoFile ""), some (demoFile "")) by decide +kernel)
  have hmeets : Meets (step demoFromStr demoTimestamp)
      (fun s a => isUndisturbed demoFromStr demoTimestamp s a = true)
      (State.init demoDir : State (Fin 2))
      [.run 0, .run 1, .run 0, .run 0, .recreate (some (demoFile "")), .run 1, .run 1, .run 1] := by
    decide +kernel
  refine ⟨s, congrArg Prod.fst he, congrArg Prod.snd he,
    losesNothing_of_undisturbed demoFromStr demoTimestamp demoDir s ?_⟩
  exact reachable_restrict_of_replay _ (.init rfl)
    (Meets.mono (fun _ _ => undisturbed_of_isUndisturbed) _ hmeets) hs

/-- A dangling link at the backup's name is replaced. -/
theorem demo_link_replaced : ∃ s : State (Fin 2), Reachable (loading demoFromStr demoTimestamp
    (demoDir.insert demoBackup (.linkOut none))) s ∧
      s.dir.lookup demoBackup = some (demoFile "") := by
  obtain ⟨s, hs, he⟩ := Option.map_eq_some_iff.1
    (show (replay (step demoFromStr demoTimestamp)
        (State.init (demoDir.insert demoBackup (.linkOut none))) [.run 0, .run 0, .run 0]).map
      (fun s => s.dir.lookup demoBackup) = some (some (demoFile "")) by decide +kernel)
  exact ⟨s, reachable_of_replay _ (.init rfl) hs, he⟩

/-- A config put in place after the read is moved though it parses. -/
theorem demo_parsing_moved : ∃ s : State (Fin 2),
    Reachable (loading demoFromStr demoTimestamp demoDir) s ∧
      s.dir.lookup demoBackup = some (demoFile "\x7b\x7d") := by
  obtain ⟨s, hs, he⟩ := Option.map_eq_some_iff.1
    (show (replay (step demoFromStr demoTimestamp) (State.init demoDir)
        [.run 0, .run 0, .recreate (some (demoFile "\x7b\x7d")), .run 0]).map
      (fun s => s.dir.lookup demoBackup) = some (some (demoFile "\x7b\x7d")) by decide +kernel)
  exact ⟨s, reachable_of_replay _ (.init rfl) hs, he⟩

/-- Both processes found the name free. -/
def demoChecked : List (Act (Fin 2)) := [.run 0, .run 1, .run 0, .run 1]

/-- The user writes another config once the first is moved aside. -/
def demoReplaced : List (Act (Fin 2)) := [.recreate (some (demoFile "x")), .run 1]

/-- No backup of the first process has the contents it moved aside. -/
theorem demo_contents_lost {d : ConfigDir} (hd : d.entries = [⟨demoBackup, demoFile "x"⟩])
    (name : String) : d.follow maxLinks name ≠ .ok (.file (.utf8 "")) := by
  intro h
  have hname : ∀ e, d.lookup name = some e → e = demoFile "x" := by
    intro e he
    have hmem := AList.mem_lookup_iff.1 he
    rw [hd, List.mem_singleton] at hmem
    cases hmem
    rfl
  rcases Dir.follow_ok_cases h with hl | hl | ⟨target, _, hl, _⟩
  · exact absurd (hname _ hl) (by decide)
  · exact absurd (hname _ hl) (by decide)
  · cases hname _ hl

/-- **What can be lost.** A dangling link is replaced, and a config that parses is moved; of two
processes that found the same name free the second replaces the backup of the first, and no backup
has its contents any more. -/
theorem not_losesNothing :
    (∃ s : State (Fin 2), Reachable (loading demoFromStr demoTimestamp
        (demoDir.insert demoBackup (.linkOut none))) s ∧
      s.dir.lookup demoBackup = some (demoFile "")) ∧
    (∃ s : State (Fin 2), Reachable (loading demoFromStr demoTimestamp demoDir) s ∧
      s.dir.lookup demoBackup = some (demoFile "\x7b\x7d")) ∧
    ¬ ∀ s : State (Fin 2), Reachable (loading demoFromStr demoTimestamp demoDir) s →
      LosesNothing demoFromStr demoTimestamp (loading demoFromStr demoTimestamp demoDir)
        demoDir s := by
  refine ⟨demo_link_replaced, demo_parsing_moved, fun h => ?_⟩
  obtain ⟨s, hs, hchecked⟩ := Option.map_eq_some_iff.1
    (show (replay (step demoFromStr demoTimestamp) (State.init demoDir) demoChecked).map
      (fun s => (s.pc 0, s.dir.entries)) =
        some (.renaming "EOF while parsing a value at line 1 column 0" 0, demoDir.entries)
      by decide +kernel)
  have hpc : s.pc 0 = .renaming "EOF while parsing a value at line 1 column 0" 0 :=
    congrArg Prod.fst hchecked
  have hdir : s.dir = demoDir := AList.ext (congrArg Prod.snd hchecked)
  obtain ⟨s', hs', hlost⟩ := Option.map_eq_some_iff.1
    (show (replay (step demoFromStr demoTimestamp) (State.init demoDir)
        (demoChecked ++ (.run 0 :: demoReplaced))).map (fun s => s.dir.entries) =
      some [⟨demoBackup, demoFile "x"⟩] by decide +kernel)
  rw [replay_append, hs, Option.bind_some, replay, Option.bind_eq_some_iff] at hs'
  obtain ⟨s1, hmove, hrest⟩ := hs'
  have hread : s.dir.follow maxLinks configName = .ok (.file (.utf8 "")) := by
    rw [hdir]
    decide +kernel
  obtain ⟨dir, hrename⟩ : ∃ dir, demoDir.rename configName (candidate demoTimestamp 0 0) =
      .ok dir := ⟨_, rfl⟩
  obtain ⟨suffix, hkept⟩ := (h s (reachable_of_replay _ (.init rfl) hs)).readable 0 s1 s'
    ⟨hmove, _, 0, dir, hpc, by rw [hdir, hrename]⟩ (steps_of_replay _ (.refl s1) hrest) _ hread
  exact demo_contents_lost hlost _ hkept

end Agentbox.Config.Backup
