import Agentbox.Commands.RestartSafety

/-! # The limits of a replacement

A restart takes each limit from its override, else from the label of the session, else from the
configuration. The configuration has a say exactly when a label is missing, and no other label keeps
the restart from going on. -/

namespace Agentbox.Commands.RestartLimits

open Agentbox.Base.Path Agentbox.Base.Errors Agentbox.Config.Limits Agentbox.Lib.Program
  Agentbox.Metadata.Labels Agentbox.Session.Record Agentbox.Session.Status
  Agentbox.Session.Restartable Agentbox.Commands.HostCalls Agentbox.Commands.Restart
  Agentbox.Commands.RestartSafety
open Agentbox.Commands.RoundTrip (isCpuLimit_two)

/-- `restart_resource_limits`, of the limits of the configuration. -/
def restartLimits (m : SessionMetadata) (overrides : ResourceLimitOverrides)
    (defaults : ResourceLimits) : Except Error ResourceLimits := do
  let stored ← m.storedResourceLimits
  return ⟨(overrides.cpus.or stored.cpus).or defaults.cpus,
    (overrides.memory.or stored.memory).or defaults.memory⟩

theorem restartResourceLimits_eq (session : SessionRecord) (overrides : ResourceLimitOverrides) :
    restartResourceLimits session overrides =
      .call .loadConfig fun defaults =>
        Prog.ofExcept (restartLimits session.metadata overrides defaults) := by
  unfold restartResourceLimits restartLimits
  change Prog.call _ (fun defaults => (Prog.ofExcept _).bind _) = _
  congr 1
  funext defaults
  rcases session.metadata.storedResourceLimits with e | stored <;> rfl

/-! ### One limit -/

section
variable {α : Type} (override : Option α) (label : Option String)
  (parse : String → Except String α)

/-- The limit is the override, if there is one, and else the one on the label. -/
def IsOverrideOrLabel (result : Option α) : Prop :=
  match override with
  | some limit => result = some limit
  | none => ∃ value limit, label = some value ∧ parse value = .ok limit ∧ result = some limit

/-- There is no override, and no limit on the label. -/
def IsUnreadable : Prop :=
  override = none ∧ ∀ value limit, label = some value → parse value ≠ .ok limit

/-- There is something else than a limit on the label. -/
def IsMalformed : Prop := ∃ value text, label = some value ∧ parse value = .error text

/-- There is an override or something on the label. -/
def IsGiven : Prop := override ≠ none ∨ label ≠ none

variable {override label parse}

theorem parseOptional_eq_ok {result : Option α} :
    SessionMetadata.parseOptional label parse = .ok result ↔
      label = none ∧ result = none ∨
        ∃ value limit, label = some value ∧ parse value = .ok limit ∧ result = some limit := by
  unfold SessionMetadata.parseOptional
  rcases label with _ | value
  · simp [eq_comm]
  · rcases hparse : parse value with text | limit
    · simp [hparse]
    · simp [hparse, eq_comm]

theorem parseOptional_isMalformed (h : IsMalformed label parse) :
    ∃ e, SessionMetadata.parseOptional label parse = .error e := by
  obtain ⟨value, text, rfl, htext⟩ := h
  exact ⟨.msg text, by simp only [SessionMetadata.parseOptional, htext]⟩

theorem parseOptional_of_not_isMalformed (h : ¬ IsMalformed label parse) :
    ∃ result, SessionMetadata.parseOptional label parse = .ok result := by
  unfold SessionMetadata.parseOptional
  rcases label with _ | value
  · exact ⟨none, rfl⟩
  · rcases hparse : parse value with text | limit
    · exact absurd ⟨value, text, rfl, hparse⟩ h
    · exact ⟨some limit, by simp only [hparse]⟩

/-- A limit that is given does not depend on the configuration. -/
theorem isOverrideOrLabel_of_isGiven {stored default : Option α} (h : IsGiven override label)
    (hstored : SessionMetadata.parseOptional label parse = .ok stored) :
    IsOverrideOrLabel override label parse ((override.or stored).or default) := by
  unfold IsOverrideOrLabel
  rcases override with _ | limit
  · obtain ⟨rfl, -⟩ | ⟨value, limit, hvalue, hlimit, rfl⟩ := parseOptional_eq_ok.1 hstored
    · exact absurd rfl (h.resolve_left fun hne => hne rfl)
    · exact ⟨value, limit, hvalue, hlimit, rfl⟩
  · rfl

end

/-! ### Both limits -/

variable {m : SessionMetadata} {overrides : ResourceLimitOverrides}

/-- The limits come from the overrides and the labels only, and a limit that neither has is an
error. -/
def LimitsFromSession (m : SessionMetadata) (overrides : ResourceLimitOverrides) : Prop :=
  (∀ defaults limits, restartLimits m overrides defaults = .ok limits →
    IsOverrideOrLabel overrides.cpus (m.label LABEL_RESOURCE_LIMIT_CPUS) CpuLimit.parse
        limits.cpus ∧
      IsOverrideOrLabel overrides.memory (m.label LABEL_RESOURCE_LIMIT_MEMORY) MemoryLimit.parse
        limits.memory) ∧
  (IsUnreadable overrides.cpus (m.label LABEL_RESOURCE_LIMIT_CPUS) CpuLimit.parse ∨
      IsUnreadable overrides.memory (m.label LABEL_RESOURCE_LIMIT_MEMORY) MemoryLimit.parse →
    ∀ defaults, ∃ e, restartLimits m overrides defaults = .error e) ∧
  ∀ defaults defaults', restartLimits m overrides defaults = restartLimits m overrides defaults'

/-- No limit is left to the configuration. -/
def NothingLeft (m : SessionMetadata) (overrides : ResourceLimitOverrides) : Prop :=
  IsMalformed (m.label LABEL_RESOURCE_LIMIT_CPUS) CpuLimit.parse ∨
    IsMalformed (m.label LABEL_RESOURCE_LIMIT_MEMORY) MemoryLimit.parse ∨
    IsGiven overrides.cpus (m.label LABEL_RESOURCE_LIMIT_CPUS) ∧
      IsGiven overrides.memory (m.label LABEL_RESOURCE_LIMIT_MEMORY)

theorem restartLimits_isMalformed
    (h : IsMalformed (m.label LABEL_RESOURCE_LIMIT_CPUS) CpuLimit.parse ∨
      IsMalformed (m.label LABEL_RESOURCE_LIMIT_MEMORY) MemoryLimit.parse) :
    ∃ e, ∀ defaults, restartLimits m overrides defaults = .error e := by
  unfold restartLimits SessionMetadata.storedResourceLimits
  rcases hcpus : SessionMetadata.parseOptional (m.label LABEL_RESOURCE_LIMIT_CPUS)
    CpuLimit.parse with e | cpus
  · exact ⟨e, fun _ => rfl⟩
  rcases hmemory : SessionMetadata.parseOptional (m.label LABEL_RESOURCE_LIMIT_MEMORY)
    MemoryLimit.parse with e | memory
  · exact ⟨e, fun _ => rfl⟩
  obtain ⟨e, he⟩ | ⟨e, he⟩ := h.imp parseOptional_isMalformed parseOptional_isMalformed
  · rw [hcpus] at he
    cases he
  · rw [hmemory] at he
    cases he

theorem restartLimits_eq_ok {defaults limits : ResourceLimits}
    (h : restartLimits m overrides defaults = .ok limits) : ∃ stored : ResourceLimits,
      SessionMetadata.parseOptional (m.label LABEL_RESOURCE_LIMIT_CPUS) CpuLimit.parse =
          .ok stored.cpus ∧
        SessionMetadata.parseOptional (m.label LABEL_RESOURCE_LIMIT_MEMORY) MemoryLimit.parse =
          .ok stored.memory ∧
        limits = ⟨(overrides.cpus.or stored.cpus).or defaults.cpus,
          (overrides.memory.or stored.memory).or defaults.memory⟩ := by
  obtain ⟨stored, hstored, hlimits⟩ := bind_eq_ok.1 h
  obtain ⟨cpus, hcpus, hstored⟩ := bind_eq_ok.1 hstored
  obtain ⟨memory, hmemory, hstored⟩ := bind_eq_ok.1 hstored
  cases hstored
  exact ⟨⟨cpus, memory⟩, hcpus, hmemory, (Except.ok.inj hlimits).symm⟩

/-- An override or a label hides the configuration. -/
theorem or_default_eq {α : Type} {override stored : Option α} {label : Option String}
    {parse : String → Except String α} (h : IsGiven override label)
    (hstored : SessionMetadata.parseOptional label parse = .ok stored) (default : Option α) :
    (override.or stored).or default = override.or stored := by
  rcases override with _ | limit
  · obtain ⟨rfl, -⟩ | ⟨_, limit, -, -, rfl⟩ := parseOptional_eq_ok.1 hstored
    · exact absurd rfl (h.resolve_left fun hne => hne rfl)
    · rfl
  · rfl

theorem isUnreadable_of_isGiven {α : Type} {override stored : Option α} {label : Option String}
    {parse : String → Except String α} (h : IsGiven override label)
    (hstored : SessionMetadata.parseOptional label parse = .ok stored) :
    ¬ IsUnreadable override label parse := by
  rintro ⟨rfl, hno⟩
  obtain ⟨rfl, -⟩ | ⟨value, limit, hvalue, hlimit, -⟩ := parseOptional_eq_ok.1 hstored
  · exact absurd rfl (h.resolve_left fun hne => hne rfl)
  · exact hno value limit hvalue hlimit

theorem isUnreadable_of_not_isGiven {α : Type} {override : Option α} {label : Option String}
    (parse : String → Except String α) (h : ¬ IsGiven override label) :
    IsUnreadable override label parse := by
  rw [IsGiven, not_or, not_not, not_not] at h
  refine ⟨h.1, fun value limit hvalue => ?_⟩
  rw [h.2] at hvalue
  cases hvalue

theorem limitsFromSession_of_nothingLeft (h : NothingLeft m overrides) :
    LimitsFromSession m overrides := by
  by_cases hbad : IsMalformed (m.label LABEL_RESOURCE_LIMIT_CPUS) CpuLimit.parse ∨
      IsMalformed (m.label LABEL_RESOURCE_LIMIT_MEMORY) MemoryLimit.parse
  · obtain ⟨e, he⟩ := @restartLimits_isMalformed _ overrides hbad
    refine ⟨fun defaults limits hok => ?_, fun _ defaults => ⟨e, he defaults⟩,
      fun defaults defaults' => (he defaults).trans (he defaults').symm⟩
    rw [he] at hok
    cases hok
  rw [not_or] at hbad
  obtain ⟨hcpus, hmemory⟩ := (h.resolve_left hbad.1).resolve_left hbad.2
  obtain ⟨cpus, hcpusOk⟩ := parseOptional_of_not_isMalformed hbad.1
  obtain ⟨memory, hmemoryOk⟩ := parseOptional_of_not_isMalformed hbad.2
  have hlimits : ∀ defaults, restartLimits m overrides defaults =
      .ok ⟨overrides.cpus.or cpus, overrides.memory.or memory⟩ := by
    intro defaults
    simp only [restartLimits, SessionMetadata.storedResourceLimits, hcpusOk, hmemoryOk, bind,
      Except.bind, pure, Except.pure, or_default_eq hcpus hcpusOk, or_default_eq hmemory hmemoryOk]
  refine ⟨fun defaults limits hok => ?_, fun hunreadable => ?_,
    fun defaults defaults' => (hlimits defaults).trans (hlimits defaults').symm⟩
  · obtain ⟨stored, hc, hm, rfl⟩ := restartLimits_eq_ok hok
    exact ⟨isOverrideOrLabel_of_isGiven hcpus hc, isOverrideOrLabel_of_isGiven hmemory hm⟩
  · rcases hunreadable with hno | hno
    · exact absurd hno (isUnreadable_of_isGiven hcpus hcpusOk)
    · exact absurd hno (isUnreadable_of_isGiven hmemory hmemoryOk)

theorem nothingLeft_of_limitsFromSession (h : LimitsFromSession m overrides) :
    NothingLeft m overrides := by
  by_contra hleft
  rw [NothingLeft, not_or, not_or, not_and_or] at hleft
  obtain ⟨hcpus, hmemory, hgiven⟩ := hleft
  obtain ⟨cpus, hcpusOk⟩ := parseOptional_of_not_isMalformed hcpus
  obtain ⟨memory, hmemoryOk⟩ := parseOptional_of_not_isMalformed hmemory
  obtain ⟨e, he⟩ := h.2.1 (hgiven.imp (isUnreadable_of_not_isGiven _)
    (isUnreadable_of_not_isGiven _)) {}
  simp only [restartLimits, SessionMetadata.storedResourceLimits, hcpusOk, hmemoryOk, bind,
    Except.bind, pure, Except.pure] at he
  cases he

/-- A restart whose limits are an error stops nothing. -/
theorem wp_restartSession_noLimits {σ : Type} {M : Machine HostOps σ} {s : σ} {args : RestartArgs}
    {gitRoot : Utf8Path} {session : SessionRecord}
    (h : ∀ defaults, ∃ e, restartLimits session.metadata args.overrides defaults = .error e) :
    wp M (fun _ o => ∀ name, o ≠ HostOp.stopIgnore name) (restartSession args gitRoot session)
      (fun r _ => ∃ e, r = .error e) s := by
  refine (wp_bind _ _ _ _).2 ((wp_ofExcept _ _).2 ?_)
  rcases hprepare : prepareRestartSession args.target.display session with e | restart
  · exact ⟨e, rfl⟩
  have hsession := (prepareRestartSession_eq_ok hprepare).1
  rw [andThen_ok]
  refine (wp_bind _ _ _ _).2 ⟨fun _ => nofun, fun host s1 _ => (wp_ofExcept _ _).2 ?_⟩
  rcases restartWorkspaceOf host gitRoot restart.session restart.launchDirectory with e | workspace
  · exact ⟨e, rfl⟩
  rw [andThen_ok, restartResourceLimits_eq, hsession]
  refine (wp_bind _ _ _ _).2 ⟨fun _ => nofun, fun defaults s2 _ => (wp_ofExcept _ _).2 ?_⟩
  obtain ⟨e, he⟩ := h defaults
  rw [he]
  exact ⟨e, rfl⟩

/-- **When the limits of a restart come from the session.** Where they are an error, the restart
fails before it stops anything. -/
theorem limitsFromSession_iff (m : SessionMetadata) (overrides : ResourceLimitOverrides) :
    (LimitsFromSession m overrides ↔ NothingLeft m overrides) ∧
    ∀ args gitRoot session, session.metadata = m → args.overrides = overrides →
      (∀ defaults, ∃ e, restartLimits m overrides defaults = .error e) →
      ∀ (σ : Type) (M : Machine HostOps σ) s t s' res,
        Exec M (restartSession args gitRoot session) s t s' res →
          (∃ e, res = .error e) ∧ ∀ e ∈ t, ∀ name, e.op ≠ HostOp.stopIgnore name := by
  refine ⟨⟨nothingLeft_of_limitsFromSession, limitsFromSession_of_nothingLeft⟩, ?_⟩
  rintro args gitRoot session rfl rfl h σ M s t s' res hexec
  exact hexec.of_wp (wp_restartSession_noLimits h)

/-- A session without limit labels, and the limit that a configuration gives its replacement. -/
theorem not_limitsFromSession : ¬ LimitsFromSession ⟨∅⟩ ⟨none, none⟩ ∧
    restartLimits ⟨∅⟩ ⟨none, none⟩ ⟨some ⟨"2", isCpuLimit_two⟩, none⟩ =
      .ok ⟨some ⟨"2", isCpuLimit_two⟩, none⟩ ∧
    restartLimits ⟨∅⟩ ⟨none, none⟩ {} = .ok ⟨none, none⟩ := by
  have hcpus : (SessionMetadata.mk ∅).label LABEL_RESOURCE_LIMIT_CPUS = none := by decide
  have hmemory : (SessionMetadata.mk ∅).label LABEL_RESOURCE_LIMIT_MEMORY = none := by decide
  have hlimits : ∀ defaults, restartLimits ⟨∅⟩ ⟨none, none⟩ defaults =
      .ok ⟨defaults.cpus, defaults.memory⟩ := by
    intro defaults
    simp only [restartLimits, SessionMetadata.storedResourceLimits, hcpus, hmemory]
    rfl
  refine ⟨fun h => ?_, hlimits _, hlimits _⟩
  obtain ⟨e, he⟩ := h.2.1 (.inl (isUnreadable_of_not_isGiven _ (by simp [IsGiven, hcpus]))) {}
  rw [hlimits] at he
  cases he

end Agentbox.Commands.RestartLimits
