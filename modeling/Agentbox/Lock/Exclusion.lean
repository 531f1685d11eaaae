import Agentbox.Lock.Model

/-! # Mutual exclusion of the workspace lock

A guard is exclusive along every run in which no lock file is unlinked while its guard is held, and
without that condition it is not: `remove_cleanup_lock_file` unlinks the path without asking, as
`guard` does, whether the inode it locked is still the one at the path. The invariant says that a
lock is owned by the process that took it and that a guard's inode is the one at its path. -/

namespace Agentbox.Lock.Exclusion

open Agentbox.Lib.Transition Agentbox.Lock.Model

variable {Pid Path : Type}

theorem unlinkFree_of_ne {s : State Pid Path} {a : Pid × Op Path} (h : a.2 ≠ .removeFile) :
    UnlinkFree s a := fun _ _ _ ha => absurd ha h

/-- What holds between any two steps. -/
structure Inv (s : State Pid Path) : Prop where
  /-- A process that is past an `flock` owns it. -/
  owner : ∀ p i, (s.phase p).flocked = some i → s.flock i = some p
  /-- The inode of a guard is the one at its path. -/
  current : ∀ p path i, s.phase p = .held path i → s.names path = some i

theorem Inv.exclusive {s : State Pid Path} (h : Inv s) : Exclusive s := by
  rintro path p q ⟨i, hp⟩ ⟨j, hq⟩
  have hij : i = j := Option.some.inj ((h.current p path i hp).symm.trans (h.current q path j hq))
  have hop := h.owner p i (by rw [hp]; rfl)
  have hoq := h.owner q j (by rw [hq]; rfl)
  rw [hij] at hop
  exact Option.some.inj (hop.symm.trans hoq)

theorem inv_empty : Inv (State.empty : State Pid Path) :=
  ⟨fun _ _ h => (nomatch h), fun _ _ _ h => (nomatch h)⟩

/-- A cleaner whose locked inode is still the one at the path can unlink it: the test of
`lock_file_still_at_path` would be enough. -/
theorem unlinkFree_of_still_at_path {s : State Pid Path} (h : Inv s) {p : Pid} {op : Op Path}
    (hat : ∀ path i, s.phase p = .cleanLocked path i → s.names path = some i) :
    UnlinkFree s (p, op) := by
  rintro path i hp - q ⟨j, hq⟩
  have hij : i = j := Option.some.inj ((hat path i hp).symm.trans (h.current q path j hq))
  have hop := h.owner p i (by rw [hp]; rfl)
  have hoq := h.owner q j (by rw [hq]; rfl)
  rw [← hij, hop] at hoq
  rw [← Option.some.inj hoq] at hq
  rw [hp] at hq
  cases hq

/-! ### What each kind of step keeps -/

variable [DecidableEq Pid]

theorem setPhase_phase (s : State Pid Path) (p q : Pid) (ph : Phase Path) :
    (s.setPhase p ph).phase q = if q = p then ph else s.phase q := by
  simp only [State.setPhase, Function.update_apply]

theorem inv_setPhase {s : State Pid Path} (h : Inv s) (p : Pid) (ph : Phase Path)
    (ho : ∀ i, ph.flocked = some i → s.flock i = some p)
    (hc : ∀ path i, ph = .held path i → s.names path = some i) : Inv (s.setPhase p ph) := by
  refine ⟨fun q i hq => ?_, fun q path i hq => ?_⟩
  · rw [setPhase_phase] at hq
    split_ifs at hq with hqp
    · exact hqp ▸ ho i hq
    · exact h.owner q i hq
  · rw [setPhase_phase] at hq
    split_ifs at hq with hqp
    · exact hc path i hq
    · exact h.current q path i hq

theorem inv_openAt {s : State Pid Path} (h : Inv s) (p : Pid) (path : Path)
    {ph : Path → Ino → Phase Path} (ho : ∀ i, (ph path i).flocked = none)
    (hc : ∀ i r j, ph path i ≠ .held r j) : Inv (s.openAt p path ph) := by
  unfold State.openAt
  split
  · exact inv_setPhase h p _ (fun i hi => by rw [ho] at hi; cases hi) fun r i hr => absurd hr (hc _ r i)
  · exact h

theorem inv_take {s : State Pid Path} (h : Inv s) {p : Pid} {i : Ino} {ph : Phase Path}
    (hfree : s.flock i = none) (hi : ph.flocked = some i) (hc : ∀ r j, ph ≠ .held r j) :
    Inv (s.take p i ph) := by
  refine ⟨fun q j hq => ?_, fun q path j hq => ?_⟩
  · simp only [State.take, setPhase_phase] at hq ⊢
    split_ifs at hq with hqp
    · rw [hi] at hq
      rw [← Option.some.inj hq, Function.update_self, hqp]
    · have hj := h.owner q j hq
      have hne : j ≠ i := fun hji => by rw [hji, hfree] at hj; cases hj
      rw [Function.update_of_ne hne, hj]
  · simp only [State.take, setPhase_phase] at hq
    split_ifs at hq with hqp
    · exact absurd hq (hc path j)
    · exact h.current q path j hq

theorem inv_close {s : State Pid Path} (h : Inv s) (p : Pid) : Inv (s.close p) := by
  unfold State.close
  split
  · next i hi =>
    refine ⟨fun q j hq => ?_, fun q path j hq => ?_⟩
    · simp only [setPhase_phase] at hq ⊢
      split_ifs at hq with hqp
      · cases hq
      · have hj := h.owner q j hq
        have hne : j ≠ i := fun hji => by
          rw [hji, h.owner p i hi] at hj
          exact hqp (Option.some.inj hj).symm
        rw [Function.update_of_ne hne, hj]
    · simp only [setPhase_phase] at hq
      split_ifs at hq with hqp
      · exact h.current q path j hq
  · exact inv_setPhase h p _ (fun _ hi => nomatch hi) fun _ _ hr => nomatch hr

variable [DecidableEq Path]

/-- A new name does not touch the guards, for the path had no file. -/
theorem inv_create {s : State Pid Path} (h : Inv s) (p : Pid) {path : Path}
    (hnone : s.names path = none) (k : Ino) :
    Inv { s.setPhase p (.opened path k) with
      names := Function.update s.names path (some k), fresh := k + 1 } := by
  have hset := inv_setPhase h p (.opened path k) (fun _ hi => nomatch hi)
    fun _ _ hr => nomatch hr
  refine ⟨hset.owner, fun q r j hq => ?_⟩
  have hr : s.names r = some j := hset.current q r j hq
  have hne : r ≠ path := fun hrp => by rw [hrp, hnone] at hr; cases hr
  exact (Function.update_of_ne hne _ _).trans hr

/-- The unlink of a name whose guard nobody holds. -/
theorem inv_unlink {s : State Pid Path} (h : Inv s) {p : Pid} {path : Path} {i : Ino}
    (hp : s.phase p = .cleanLocked path i) (hfree : ∀ q, ¬ Holds s q path) :
    Inv { s.setPhase p (.cleanRemoved path i) with
      names := Function.update s.names path none } := by
  have hset := inv_setPhase h p (.cleanRemoved path i)
    (fun j hj => h.owner p j (by rw [hp]; exact hj)) fun _ _ hr => nomatch hr
  refine ⟨hset.owner, fun q r j hq => ?_⟩
  have hr : s.names r = some j := hset.current q r j hq
  simp only [setPhase_phase] at hq
  split_ifs at hq with hqp
  have hne : r ≠ path := fun hrp => hfree q ⟨j, hrp ▸ hq⟩
  exact (Function.update_of_ne hne _ _).trans hr

/-- One step that meets the condition keeps the invariant. -/
theorem inv_step {s s' : State Pid Path} {a : Pid × Op Path} (h : Inv s) (hC : UnlinkFree s a)
    (hs : step s a = some s') : Inv s' := by
  obtain ⟨p, op⟩ := a
  unfold step at hs
  split at hs
  case h_1 path hp hop =>
    split at hs
    · exact Option.some.inj hs ▸ inv_setPhase h p _ (fun _ hi => nomatch hi) fun _ _ hr => nomatch hr
    · next hnone => exact Option.some.inj hs ▸ inv_create h p hnone s.fresh
  case h_2 path i hp hop =>
    split_ifs at hs with hfree
    exact Option.some.inj hs ▸ inv_take h hfree rfl fun _ _ hr => nomatch hr
  case h_3 path i hp hop =>
    have hown : s.flock i = some p := h.owner p i (by rw [hp]; rfl)
    refine Option.some.inj hs ▸ inv_setPhase h p _ (fun j hj => ?_) fun r j hr => ?_
    · split_ifs at hj <;> exact Option.some.inj hj ▸ hown
    · split_ifs at hr with hat
      cases hr
      exact hat
  case h_4 path hp hop =>
    exact Option.some.inj hs ▸ inv_openAt h p path (fun _ => rfl) fun _ _ _ hr => nomatch hr
  case h_5 path i hp hop =>
    rw [← Option.some.inj hs]
    split_ifs with hfree
    · exact inv_take h hfree rfl fun _ _ hr => nomatch hr
    · exact inv_close h p
  case h_6 path i hp hop =>
    exact Option.some.inj hs ▸ inv_unlink h hp (hC path i hp hop)
  case h_7 path hp hop =>
    exact Option.some.inj hs ▸ inv_openAt h p path (fun _ => rfl) fun _ _ _ hr => nomatch hr
  case h_8 path i hp hop =>
    rw [← Option.some.inj hs]
    split_ifs with hfree
    · exact inv_take h hfree rfl fun _ _ hr => nomatch hr
    · exact inv_close h p
  case h_9 => exact Option.some.inj hs ▸ inv_close h p
  case h_10 => cases hs

theorem inv_of_reachable {s : State Pid Path}
    (h : Reachable ((locks Pid Path).restrict UnlinkFree) s) : Inv s :=
  h.invariant (fun _ h0 => h0 ▸ inv_empty) fun _ _ _ hi hs => inv_step hi hs.1 hs.2

/-- **Mutual exclusion.** Whatever the processes do in whatever order, at most one of them holds
the guard of a path, as long as no lock file is unlinked while somebody holds its guard. -/
theorem exclusive_of_reachable (Pid Path : Type) [DecidableEq Pid] [DecidableEq Path]
    (s : State Pid Path) (h : Reachable ((locks Pid Path).restrict UnlinkFree) s) :
    Exclusive s :=
  (inv_of_reachable h).exclusive

/-- Two processes come and go, with a cleaner between them. -/
theorem exclusive_of_reachable_cleaned : ∃ s : State Nat Unit,
    Reachable ((locks Nat Unit).restrict UnlinkFree) s ∧ Holds s 2 () ∧ Exclusive s := by
  obtain ⟨s, hs, h2⟩ : ∃ s, replay step (State.empty : State Nat Unit)
      [(0, .openLockFile ()), (0, .write), (0, .stillAtPath), (0, .drop),
       (1, .openExisting ()), (1, .tryWrite), (1, .removeFile), (1, .drop),
       (2, .openLockFile ()), (2, .write), (2, .stillAtPath)] = some s ∧
      s.phase 2 = .held () 1 := ⟨_, rfl, by decide⟩
  have hr : Reachable ((locks Nat Unit).restrict UnlinkFree) s := by
    refine reachable_restrict_of_replay _ (.init rfl) ?_ hs
    refine .cons (unlinkFree_of_ne (by decide)) rfl <| .cons (unlinkFree_of_ne (by decide)) rfl <|
      .cons (unlinkFree_of_ne (by decide)) rfl <| .cons (unlinkFree_of_ne (by decide)) rfl <|
      .cons (unlinkFree_of_ne (by decide)) rfl <| .cons (unlinkFree_of_ne (by decide)) rfl <|
      .cons ?_ rfl <| .cons (unlinkFree_of_ne (by decide)) rfl <|
      .cons (unlinkFree_of_ne (by decide)) rfl <| .cons (unlinkFree_of_ne (by decide)) rfl <|
      .cons (unlinkFree_of_ne (by decide)) rfl trivial
    rintro path i - - q ⟨j, hq⟩
    simp [State.take, State.setPhase, State.openAt, State.close, State.empty, Phase.flocked,
      Function.update_apply] at hq
    split_ifs at hq
  exact ⟨s, hr, ⟨1, h2⟩, exclusive_of_reachable Nat Unit s hr⟩

/-- **Two guards at once.** Two cleaners open the lock file; one unlinks it, a process creates and
holds a new one, and the second cleaner unlinks that. -/
theorem not_exclusive : ¬ ∀ s : State Nat Unit, Reachable (locks Nat Unit) s → Exclusive s := by
  intro h
  have hr : ∃ s, replay step (State.empty : State Nat Unit)
      [(0, .openLockFile ()), (0, .write), (0, .stillAtPath), (0, .drop),
       (1, .openExisting ()), (2, .openExisting ()),
       (2, .tryWrite), (2, .removeFile), (2, .drop),
       (3, .openLockFile ()), (3, .write), (3, .stillAtPath),
       (1, .tryWrite), (1, .removeFile), (1, .drop),
       (0, .openLockFile ()), (0, .write), (0, .stillAtPath)] = some s ∧
      s.phase 3 = .held () 1 ∧ s.phase 0 = .held () 2 := ⟨_, rfl, by decide, by decide⟩
  obtain ⟨s, hs, h3, h0⟩ := hr
  have h30 := h s (reachable_of_replay _ (.init rfl) hs) () 3 0 ⟨1, h3⟩ ⟨2, h0⟩
  cases h30

end Agentbox.Lock.Exclusion
