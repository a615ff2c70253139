import WifiGateway.Controller.Success
import WifiGateway.Controller.Watchdog

/-!
# Abandoned sessions

A record that nobody calls for is removed after at most `PAUSE_TIME + UPDATE_TIME +
END_TIME` ticks. `remaining` counts the ticks that are left to it, and every tick takes one
off it (`ticked_remaining`): the update timer of a STARTED or EXHAUSTED record runs until
it is ENDED, the end timer of that until it is removed, and a PAUSED record is started when
its pause is over.

Not so when the time or the quota of the PAUSED record has run out: `tick` sets its pause
timer again and cannot play it, and the record stays (`Stuck`). `reclaimed_iff` says that
this is the only case.
-/

namespace WifiGateway

open Waiting (Code Oracle)

namespace Host

variable {a : String} {s s' s₀ : Session}

/-! ## The ranges of the timers -/

/-- The pause and the end timer have at most what they are set to. -/
structure Ranged (s : Session) : Prop where
  pause : s.pauseTimeRemaining ≤ PAUSE_TIME
  finish : s.endTimeRemaining ≤ END_TIME

theorem Edit.ranged (he : Edit s s') (hi : Ranged s) : Ranged s' := by
  cases he with
  | updated | bandwidth | quota | time | used | started | exhausted => exact ⟨hi.pause, hi.finish⟩
  | paused => exact ⟨UInt32.le_trans (countdown_le _) hi.pause, hi.finish⟩
  | rearmed => exact ⟨UInt32.le_refl _, hi.finish⟩
  | ended => exact ⟨hi.pause, UInt32.le_trans (countdown_le _) hi.finish⟩

theorem ranged_kept (a : String) (hs₀ : Ranged s₀) :
    Kept a s₀ fun h => ∀ s, h.record = some s → Ranged s :=
  kept_of_record hs₀ (fun _ hi => ⟨hi.pause, hi.finish⟩) (fun _ _ hi => ⟨hi.pause, hi.finish⟩)
    fun _ _ he hi => he.ranged hi

/-! ## The ticks that are left -/

/-- The time or the quota of a PAUSED record has run out. -/
structure Stuck (s : Session) : Prop where
  paused : s.state = .paused
  exhausted : isExhausted s = true

instance (s : Session) : Decidable (Stuck s) :=
  decidable_of_iff (s.state = .paused ∧ isExhausted s = true)
    ⟨fun h => ⟨h.1, h.2⟩, fun h => ⟨h.paused, h.exhausted⟩⟩

/-- The ticks that are left to a record which is not stuck. A timer that is at 0 already
still takes one tick to be found so. -/
def remaining (s : Session) : Nat :=
  match s.state with
  | .paused =>
    max s.pauseTimeRemaining.toNat 1 + UPDATE_TIME.toNat + max s.endTimeRemaining.toNat 1
  | .started | .exhausted =>
    max s.updateTimeRemaining.toNat 1 + max s.endTimeRemaining.toNat 1
  | .ended => max s.endTimeRemaining.toNat 1
  | .uninitialized => 0

theorem remaining_le (hu : s.updateTimeRemaining ≤ UPDATE_TIME) (hi : Ranged s) :
    remaining s ≤ PAUSE_TIME.toNat + UPDATE_TIME.toNat + END_TIME.toNat := by
  have hupdate : s.updateTimeRemaining.toNat ≤ 60 := UInt32.le_iff_toNat_le.mp hu
  have hpause : s.pauseTimeRemaining.toNat ≤ 60 := UInt32.le_iff_toNat_le.mp hi.pause
  have hfinish : s.endTimeRemaining.toNat ≤ 3600 := UInt32.le_iff_toNat_le.mp hi.finish
  show remaining s ≤ 60 + 60 + 3600
  unfold remaining
  split
  · show _ + 60 + _ ≤ _
    omega
  · omega
  · omega
  · omega
  · omega

/-- A timer that does not run out leaves a tick less. -/
theorem max_countdown {t : UInt32} (h : countdown t ≠ 0) :
    max (countdown t).toNat 1 + 1 = max t.toNat 1 := by
  have hdec := countdown_toNat h
  have hne : (countdown t).toNat ≠ 0 := fun e => h (UInt32.toNat_inj.mp e)
  omega

/-- The step lemma: a tick takes one tick off what is left to the record, or removes it. -/
theorem ticked_remaining (hst : s.state ≠ .uninitialized) (hs : ¬ Stuck s)
    (ht : ticked s = some s') :
    s'.state ≠ .uninitialized ∧ ¬ Stuck s' ∧ remaining s' + 1 ≤ remaining s := by
  unfold ticked at ht
  split at ht
  · next hst =>
    obtain rfl := Option.some.inj ht
    unfold stateAfter
    split
    · refine ⟨by simp, fun hk => absurd hk.paused (by simp), ?_⟩
      simp only [remaining, hst, countStarted]
      omega
    · next hu =>
      have hu' : countdown s.updateTimeRemaining ≠ 0 := fun e => hu (.inl e)
      have hmax := max_countdown hu'
      split
      · refine ⟨by simp, fun hk => absurd hk.paused (by simp), ?_⟩
        simp only [remaining, hst, countStarted]
        omega
      · have hst' : (countStarted s).state = .started := hst
        refine ⟨by simp [hst'], fun hk => absurd (hst'.symm.trans hk.paused) (by decide), ?_⟩
        simp only [remaining, hst]
        simp only [countStarted, hst]
        omega
  · next hst =>
    obtain rfl := Option.some.inj ht
    split
    · refine ⟨by simp, fun hk => absurd hk.paused (by simp), ?_⟩
      simp only [remaining, hst, countExhausted]
      omega
    · next hu =>
      have hu' : countdown s.updateTimeRemaining ≠ 0 := fun e => hu (.inl e)
      have hmax := max_countdown hu'
      refine ⟨by simp, fun hk => absurd hk.paused (by simp), ?_⟩
      simp only [remaining, hst, countExhausted]
      omega
  · next hst =>
    have hx : isExhausted s = false := Bool.eq_false_iff.mpr fun hx => hs ⟨hst, hx⟩
    split at ht
    · next h0 =>
      obtain rfl := Option.some.inj ht
      have hmax := max_countdown h0
      have hst' : (countPaused s).state = .paused := hst
      refine ⟨by simp [hst'], fun hk => absurd (hx.symm.trans hk.exhausted) (by simp), ?_⟩
      simp only [remaining, hst, hst']
      simp only [countPaused]
      omega
    · obtain rfl := Option.some.inj ht
      refine ⟨by simp [startedRecord], fun hk => absurd hk.paused (by simp [startedRecord]), ?_⟩
      simp only [remaining, hst, startedRecord, rearmPause, countPaused]
      show max 60 1 + _ + 1 ≤ _ + 60 + _
      omega
  · next hst =>
    split at ht
    · exact absurd ht (by simp)
    · next h0 =>
      obtain rfl := Option.some.inj ht
      have hmax := max_countdown h0
      have hst' : (countEnded s).state = .ended := hst
      refine ⟨by simp [hst'], fun hk => absurd (hst'.symm.trans hk.paused) (by decide), ?_⟩
      simp only [remaining, hst, hst']
      simp only [countEnded]
      omega
  · next hst' => exact absurd hst' hst

/-- A record that is stuck is so after the next tick. -/
theorem Stuck.ticked (hs : Stuck s) : ∃ s', ticked s = some s' ∧ Stuck s' := by
  have hx : ¬ isExhausted s = false := by
    rw [hs.exhausted]
    decide
  unfold Host.ticked
  rw [hs.paused]
  dsimp only
  by_cases h0 : (countPaused s).pauseTimeRemaining ≠ 0
  · rw [if_pos h0]
    exact ⟨_, rfl, hs.paused, hs.exhausted⟩
  · rw [if_neg h0, if_neg hx]
    exact ⟨_, rfl, hs.paused, hs.exhausted⟩

end Host

/-! ## Ticks only -/

section Ticks

variable {w : GwWorld} {ms : List Moment} {a : String} {s : Session}

/-- Once the record is gone it does not come back. -/
theorem Linked.stays_absent (h : Linked w ms) (hok : ∀ m ∈ ms, m.Succeeds)
    (htick : ∀ m ∈ ms, m.call = .tick) (hr : w.mem.record a = none) :
    (lastWorld w ms).mem.record a = none :=
  (h.invariant (I := fun w => w.mem.record a = none) hr fun m hm _ hbefore => by
    rw [(hok m hm).ticked (htick m hm) a, hbefore, Option.bind_none]).2

/-- A record that is stuck stays so. -/
theorem Linked.stays_stuck (h : Linked w ms) (hok : ∀ m ∈ ms, m.Succeeds)
    (htick : ∀ m ∈ ms, m.call = .tick) (hr : w.mem.record a = some s) (hs : Host.Stuck s) :
    ∃ s', (lastWorld w ms).mem.record a = some s' ∧ Host.Stuck s' :=
  (h.invariant (I := fun w => ∃ s, w.mem.record a = some s ∧ Host.Stuck s) ⟨s, hr, hs⟩
    fun m hm _ hbefore => by
      obtain ⟨s₁, hr₁, hs₁⟩ := hbefore
      rw [(hok m hm).ticked (htick m hm) a, hr₁, Option.bind_some]
      exact hs₁.ticked).2

/-- Another record is gone after as many ticks as are left to it. The induction is on the
rest of the history. -/
theorem Linked.reclaimed (h : Linked w ms) (hok : ∀ m ∈ ms, m.Succeeds)
    (htick : ∀ m ∈ ms, m.call = .tick) (hr : w.mem.record a = some s)
    (hst : s.state ≠ .uninitialized) (hs : ¬ Host.Stuck s) (hn : Host.remaining s ≤ ms.length) :
    (lastWorld w ms).mem.record a = none := by
  induction ms generalizing w s with
  | nil =>
    -- every record has a tick left
    have hpos : 1 ≤ Host.remaining s := by
      unfold Host.remaining
      cases hcase : s.state with
      | uninitialized => exact absurd hcase hst
      | started | paused | exhausted | ended =>
        dsimp only
        omega
    exact absurd (Nat.le_trans hpos hn) (by simp)
  | cons m rest ih =>
    obtain ⟨rfl, -, hrest⟩ := h
    have hafter := (hok m List.mem_cons_self).ticked (htick m List.mem_cons_self) a
    rw [hr, Option.bind_some] at hafter
    have hok' := fun m' hm' => hok m' (List.mem_cons_of_mem m hm')
    have htick' := fun m' hm' => htick m' (List.mem_cons_of_mem m hm')
    cases ht : Host.ticked s with
    | none => exact hrest.stays_absent hok' htick' (hafter.trans ht)
    | some s' =>
      obtain ⟨hst', hs', hle⟩ := Host.ticked_remaining hst hs ht
      rw [List.length_cons] at hn
      exact ih hrest hok' htick' (hafter.trans ht) hst' hs' (by omega)

end Ticks

/-- How long the ticks need at most. -/
def RECLAIM_TIME : Nat := PAUSE_TIME.toNat + UPDATE_TIME.toNat + END_TIME.toNat

theorem Reachable.remaining_le {w : GwWorld} (hw : Reachable w) {a : String} {s : Session}
    (hr : w.mem.record a = some s) : Host.remaining s ≤ RECLAIM_TIME := by
  have hnone : ∀ s : Session, (⟨none, none⟩ : Host).record ≠ some s := by simp
  have htimed : s.updateTimeRemaining ≤ UPDATE_TIME :=
    hw.kept (I := Host.Timed) (fun s hs => absurd hs (hnone s))
      (fun _ b => Host.timed_kept b (UInt32.le_refl _)) a s hr
  have hranged : Host.Ranged s :=
    hw.kept (I := fun h => ∀ s, h.record = some s → Host.Ranged s)
      (fun s hs => absurd hs (hnone s))
      (fun _ b => Host.ranged_kept b ⟨UInt32.le_refl _, UInt32.le_refl _⟩) a s hr
  exact Host.remaining_le htimed hranged

/-- Ticks only, every command succeeding. -/
theorem execute_ticks {w : GwWorld} (hw : w.mem.WF) (n : Nat) :
    ∃ ms, execute w (Schedule.succeeding (List.replicate n .tick)) = some ms ∧ Linked w ms ∧
      (∀ m ∈ ms, m.Succeeds) ∧ (∀ m ∈ ms, m.call = .tick) ∧ ms.length = n := by
  obtain ⟨ms, hms, hcalls, hlinked, hok⟩ := execute_succeeds hw (List.replicate n .tick)
  refine ⟨ms, hms, hlinked, hok, fun m hm => ?_, ?_⟩
  · have hmem : m.call ∈ ms.map Moment.call := List.mem_map_of_mem hm
    rw [hcalls] at hmem
    exact List.eq_of_mem_replicate hmem
  · rw [← List.length_map Moment.call, hcalls, List.length_replicate]

/-- In every reachable world: `RECLAIM_TIME` ticks, every command succeeding, remove the
records that were there in any state but UNINITIALIZED, those that are not stuck. -/
theorem reclaimed_iff {w : GwWorld} (hw : Reachable w) :
    ∃ ms, execute w (Schedule.succeeding (List.replicate RECLAIM_TIME .tick)) = some ms ∧
      ∀ a s, w.mem.record a = some s → s.state ≠ .uninitialized →
        ((lastWorld w ms).mem.record a = none ↔ ¬ (s.state = .paused ∧ isExhausted s = true)) := by
  obtain ⟨ms, hms, hlinked, hok, htick, hlength⟩ := execute_ticks hw.wf RECLAIM_TIME
  refine ⟨ms, hms, fun a s hr hst => ?_⟩
  by_cases hs : Host.Stuck s
  · obtain ⟨s', hr', -⟩ := hlinked.stays_stuck hok htick hr hs
    refine iff_of_false (fun hnone => ?_) fun hn => hn ⟨hs.paused, hs.exhausted⟩
    exact absurd (hnone.symm.trans hr') (by simp)
  · refine iff_of_true ?_ fun hs' => hs ⟨hs'.1, hs'.2⟩
    exact hlinked.reclaimed hok htick hr hst hs (hlength ▸ hw.remaining_le hr)

/-- A history that leaves one session STARTED and one PAUSED whose quota was set to 0. -/
def abandonedCalls : List Call :=
  [.startSession "10.0.0.7", .startSession "10.0.0.8", .setQuota "10.0.0.8" 0]

/-- The world after it. -/
def abandonedWorld : GwWorld :=
  lastWorld GwWorld.init ((execute GwWorld.init (.succeeding abandonedCalls)).getD [])

theorem abandonedWorld_reachable : Reachable abandonedWorld :=
  ⟨.succeeding abandonedCalls, _, rfl, rfl⟩

theorem reclaimed_started :
    ∃ ms, execute abandonedWorld (Schedule.succeeding (List.replicate RECLAIM_TIME .tick)) =
        some ms ∧
      (abandonedWorld.mem.record "10.0.0.7").map Session.state = some .started ∧
      (lastWorld abandonedWorld ms).mem.record "10.0.0.7" = none := by
  obtain ⟨ms, hms, hiff⟩ := reclaimed_iff abandonedWorld_reachable
  refine ⟨ms, hms, by decide, ?_⟩
  have hr : abandonedWorld.mem.record "10.0.0.7" =
      some ⟨"10.0.0.7", "", .started, 1000, -1, -1, 60, 60, 60, 3600, 0⟩ := by decide
  exact (hiff "10.0.0.7" _ hr (by decide)).mpr (by decide)

/-- The PAUSED session is there after any number of ticks. -/
theorem never_reclaimed :
    Reachable abandonedWorld ∧
    (abandonedWorld.mem.record "10.0.0.8").map Session.state = some .paused ∧
    ∀ n, ∃ ms, execute abandonedWorld (Schedule.succeeding (List.replicate n .tick)) = some ms ∧
      ((lastWorld abandonedWorld ms).mem.record "10.0.0.8").map Session.state = some .paused := by
  refine ⟨abandonedWorld_reachable, by decide, fun n => ?_⟩
  obtain ⟨ms, hms, hlinked, hok, htick, -⟩ := execute_ticks abandonedWorld_reachable.wf n
  have hr : abandonedWorld.mem.record "10.0.0.8" =
      some ⟨"10.0.0.8", "", .paused, 1000, -1, 0, 60, 60, 60, 3600, 0⟩ := by decide
  obtain ⟨s', hr', hs'⟩ := hlinked.stays_stuck hok htick hr ⟨rfl, rfl⟩
  refine ⟨ms, hms, ?_⟩
  rw [hr', Option.map_some, hs'.paused]

end WifiGateway
