import WifiGateway.Controller.Budget

/-!
# The watchdog

A session that nobody calls for any more is STARTED for at most `UPDATE_TIME`
ticks. The update timer never exceeds `UPDATE_TIME` in any history (`Timed`).
From then on `patience` counts the STARTED ticks that are left to a record: its
update timer if it is STARTED, a full `UPDATE_TIME` if it is PAUSED, since the
tick may still resume it, and none otherwise. Without calls every STARTED tick
takes one off it and nothing adds to it, the automatic resumption included
(`Idles.patience`).
-/

namespace WifiGateway

open Waiting (Code Oracle)

theorem countdown_le (t : UInt32) : countdown t ≤ t := by
  unfold countdown
  split
  · next h =>
    apply UInt32.le_iff_toNat_le.mpr
    rw [UInt32.toNat_sub_of_le t 1 (UInt32.le_iff_toNat_le.mpr (UInt32.lt_iff_toNat_lt.mp h))]
    omega
  · exact UInt32.zero_le

/-- The countdown of a timer that does not run out takes one unit. -/
theorem countdown_toNat {t : UInt32} (h : countdown t ≠ 0) :
    (countdown t).toNat + 1 = t.toNat := by
  unfold countdown at h ⊢
  split at h
  · next hpos =>
    have hpos' : 0 < t.toNat := UInt32.lt_iff_toNat_lt.mp hpos
    rw [if_pos hpos, UInt32.toNat_sub_of_le t 1 (UInt32.le_iff_toNat_le.mpr hpos')]
    show t.toNat - 1 + 1 = t.toNat
    omega
  · exact absurd rfl h

namespace Host

variable {a : String} {s s' s₀ : Session} {h : Host} {r : Result} {o : Outcomes} {c : Call}
  {status : Int}

/-! ## The range of the update timer -/

/-- The update timer has at most `UPDATE_TIME` left. -/
def Timed (h : Host) : Prop := ∀ s, h.record = some s → s.updateTimeRemaining ≤ UPDATE_TIME

theorem Edit.timed (he : Edit s s') (ht : s.updateTimeRemaining ≤ UPDATE_TIME) :
    s'.updateTimeRemaining ≤ UPDATE_TIME := by
  cases he with
  | updated => exact UInt32.le_refl _
  | started | exhausted => exact UInt32.le_trans (countdown_le _) ht
  | bandwidth | quota | time | used | paused | rearmed | ended => exact ht

/-- Every call keeps the update timer in range. -/
theorem timed_kept (a : String) (hs₀ : s₀.updateTimeRemaining ≤ UPDATE_TIME) :
    Kept a s₀ Timed :=
  kept_of_record hs₀ (fun _ _ => UInt32.le_refl _) (fun _ _ ht => ht) fun _ _ he ht => he.timed ht

/-! ## Without calls -/

/-- The STARTED ticks that are left to a record nobody calls for. -/
def patience (s : Session) : Nat :=
  match s.state with
  | .started => max s.updateTimeRemaining.toNat 1
  | .paused => UPDATE_TIME.toNat
  | .exhausted | .ended | .uninitialized => 0

theorem patience_le (ht : s.updateTimeRemaining ≤ UPDATE_TIME) :
    patience s ≤ UPDATE_TIME.toNat := by
  have hle := UInt32.le_iff_toNat_le.mp ht
  unfold patience
  split
  · exact Nat.max_le.mpr ⟨hle, by decide⟩
  · exact Nat.le_refl _
  · exact Nat.zero_le _
  · exact Nat.zero_le _
  · exact Nat.zero_le _

theorem patience_eq_zero (hst : s.state = .ended ∨ s.state = .exhausted) : patience s = 0 := by
  unfold patience
  rcases hst with hst | hst
  · rw [hst]
  · rw [hst]

/-- A call that leaves the session of `a` alone: a quota event for it, or no
call on it at all. -/
def LeavesAlone (a : String) (c : Call) : Prop :=
  c.names = some a → c = .updateQuotaRemaining a

/-- What happens to a record without calls. -/
structure Idles (c : Call) (s s' : Session) : Prop where
  patience : patience s' + (if c = .tick ∧ s.state = .started then 1 else 0) ≤ patience s
  ended : s.state = .ended → s'.state = .ended

theorem Idles.refl (hc : c ≠ .tick) (s : Session) : Idles c s s := by
  refine ⟨?_, id⟩
  rw [if_neg fun hx => hc hx.1]
  exact Nat.le_refl _

/-- A pass over a STARTED record takes one unit of its update timer, or ends or
exhausts it. -/
theorem patience_countStarted (s : Session) (hst : s.state = .started) :
    patience { countStarted s with state := stateAfter (countStarted s) } + 1 ≤ patience s := by
  have hpos : 1 ≤ patience s := by
    unfold patience
    rw [hst]
    exact Nat.le_max_right _ _
  unfold stateAfter
  split
  · exact hpos
  · next hu =>
    split
    · exact hpos
    · have hne : countdown s.updateTimeRemaining ≠ 0 := fun e => hu (.inl e)
      have hdec := countdown_toNat hne
      have hne' : (countdown s.updateTimeRemaining).toNat ≠ 0 := fun e =>
        hne (UInt32.toNat_inj.mp e)
      have hst' : (countStarted s).state = .started := hst
      have hu' : (countStarted s).updateTimeRemaining = countdown s.updateTimeRemaining := rfl
      simp only [patience, hst, hst', hu']
      omega

theorem tick_idles (hok : RemovalsSucceed (tick a o h).issued) (hr : h.record = some s)
    (hr' : (tick a o h).host.record = some s') : Idles .tick s s' := by
  -- a PAUSED record has a full `UPDATE_TIME` to lose
  have hpaused : s.state = .paused → patience s' ≤ UPDATE_TIME.toNat → Idles .tick s s' := by
    intro hst hle
    refine ⟨?_, fun hx => absurd (hst.symm.trans hx) (by decide)⟩
    have hpatience : patience s = UPDATE_TIME.toNat := by simp [patience, hst]
    rwa [if_neg (by simp [hst]), hpatience]
  cases tick_passed hok hr hr' with
  | started hst =>
    refine ⟨?_, fun hx => absurd (hst.symm.trans hx) (by decide)⟩
    rw [if_pos ⟨rfl, hst⟩]
    exact patience_countStarted s hst
  | exhausted hst =>
    refine ⟨?_, fun hx => absurd (hst.symm.trans hx) (by decide)⟩
    rw [patience_eq_zero (by dsimp only; split <;> simp)]
    simp [hst]
  | paused hst h0 =>
    have hst' : (countPaused s).state = .paused := hst
    exact hpaused hst (by simp [patience, hst'])
  | rearmed hst h0 =>
    have hst' : (rearmPause (countPaused s)).state = .paused := hst
    exact hpaused hst (by simp [patience, hst'])
  | resumed hst h0 hx => exact hpaused hst (patience_le (UInt32.le_refl _))
  | ended hst h0 =>
    have hst' : (countEnded s).state = .ended := hst
    exact ⟨by simp [patience, hst, hst'], fun _ => hst'⟩
  | uninitialized hst => exact ⟨by simp [hst], id⟩

/-- The step lemma of the watchdog. -/
theorem step_idles (hr : h.record = some s) (hr' : (step a s₀ o h c).host.record = some s')
    (hok : RemovalsSucceed (step a s₀ o h c).issued) (hc : LeavesAlone a c) : Idles c s s' := by
  by_cases htick : c = .tick
  · subst htick
    exact tick_idles hok hr hr'
  · rcases step_cases a s₀ o h c with ⟨he, hIP⟩ | ⟨he, -⟩
    · rw [he] at hr'
      cases hn : c.names with
      | none =>
        have hstay : serve a s₀ o h c = stay 0 h := by
          cases c with
          | setDefaultBandWidth | setDefaultQuota | setDefaultTime | setDefaultSession
          | getDefaultSession | getAllSessions | getIPs => rfl
          | tick => exact absurd rfl htick
          | _ => exact absurd hn (by simp [Call.names])
        rw [hstay] at hr'
        obtain rfl := Option.some.inj (hr.symm.trans hr')
        exact .refl htick s
      | some IP =>
        obtain rfl := hc (hIP IP hn ▸ hn)
        obtain rfl := amend_record hr hr'
        exact ⟨by simp [patience], id⟩
    · rw [he] at hr'
      obtain rfl := Option.some.inj (hr.symm.trans hr')
      exact .refl htick s

/-- Without calls no record appears. -/
theorem step_absent (hr : h.record = none) (hc : LeavesAlone a c) :
    (step a s₀ o h c).host.record = none := by
  rcases step_cases a s₀ o h c with ⟨he, hIP⟩ | ⟨he, -⟩
  · rw [he]
    cases hn : c.names with
    | none =>
      cases c with
      | tick => simp [serve, tick, hr, stay]
      | setDefaultBandWidth | setDefaultQuota | setDefaultTime | setDefaultSession
      | getDefaultSession | getAllSessions | getIPs => exact hr
      | _ => exact absurd hn (by simp [Call.names])
    | some IP =>
      obtain rfl := hc (hIP IP hn ▸ hn)
      simp [serve, amend, withRecord_none hr, stay, hr]
  · rw [he]
    exact hr

end Host

/-! ## Histories -/

/-- The update timers of all records are in range. -/
def GwWorld.Timed (w : GwWorld) : Prop := ∀ a, (w.host a).Timed

theorem Linked.timed {ms : List Moment} (h : Linked GwWorld.init ms) :
    (lastWorld GwWorld.init ms).Timed :=
  h.kept (I := Host.Timed) (fun _ hs => absurd hs (by simp)) fun _ a =>
    Host.timed_kept a (UInt32.le_refl _)

/-- A moment of a continuation without calls on `a`. -/
structure Moment.Idle (a : String) (m : Moment) : Prop where
  alone : Host.LeavesAlone a m.call
  removals : Host.RemovalsSucceed m.issued

instance (a : String) (m : Moment) : Decidable (m.Idle a) :=
  decidable_of_iff ((m.call.names = some a → m.call = .updateQuotaRemaining a) ∧
      Host.RemovalsSucceed m.issued)
    ⟨fun h => ⟨h.1, h.2⟩, fun h => ⟨h.alone, h.removals⟩⟩

theorem Moment.Acts.idles {a : String} {s s' : Session} {m : Moment} (hm : m.Acts)
    (hi : m.Idle a) (hr : m.before.mem.record a = some s) (hr' : m.after.mem.record a = some s') :
    Host.Idles m.call s s' := by
  obtain ⟨x, hhost, hissued⟩ := hm.host a
  exact Host.step_idles (h := m.before.host a) hr ((congrArg Host.record hhost).symm.trans hr')
    (hi.removals.subset hissued) hi.alone

theorem Moment.Acts.idle_absent {a : String} {m : Moment} (hm : m.Acts) (hi : m.Idle a)
    (hr : m.before.mem.record a = none) : m.after.mem.record a = none := by
  obtain ⟨x, hhost, -⟩ := hm.host a
  exact (congrArg Host.record hhost).trans
    (Host.step_absent (h := m.before.host a) hr hi.alone)

section Idle

variable {w : GwWorld} {ms : List Moment} {a : String}

theorem Linked.no_started_ticks (h : Linked w ms) (hr : w.mem.record a = none)
    (hidle : ∀ m ∈ ms, m.Idle a) : ms.countP (Moment.isStartedTick a) = 0 := by
  have hinv := h.invariant (I := fun w => w.mem.record a = none) hr
    fun m hm hacts hbefore => hacts.idle_absent (hidle m hm) hbefore
  apply List.countP_eq_zero.mpr
  intro m hm
  simp [Moment.isStartedTick, (hinv.1 m hm).1]

/-- Without calls, the STARTED ticks are at most the patience of the record. -/
theorem Linked.started_ticks_le_patience (h : Linked w ms) {s : Session}
    (hr : w.mem.record a = some s) (hidle : ∀ m ∈ ms, m.Idle a) :
    ms.countP (Moment.isStartedTick a) ≤ Host.patience s := by
  induction ms generalizing w s with
  | nil => exact Nat.zero_le _
  | cons m rest ih =>
    obtain ⟨rfl, hacts, hrest⟩ := h
    have hm := hidle m List.mem_cons_self
    have hidle' := fun m' hm' => hidle m' (List.mem_cons_of_mem m hm')
    have hiff : Moment.isStartedTick a m = true ↔ m.call = .tick ∧ s.state = .started := by
      simp [Moment.isStartedTick, hr]
    rw [List.countP_cons]
    cases hr' : m.after.mem.record a with
    | none =>
      -- removed by this moment, which counts at most once
      rw [hrest.no_started_ticks hr' hidle', Nat.zero_add]
      split
      · next hx =>
        have hst := (hiff.mp hx).2
        simp only [Host.patience, hst]
        exact Nat.le_max_right _ _
      · exact Nat.zero_le _
    | some s' =>
      have hi := (hacts.idles hm hr hr').patience
      have hle := ih hrest hr' hidle'
      by_cases hx : m.call = .tick ∧ s.state = .started
      · rw [if_pos hx] at hi
        rw [if_pos (hiff.mpr hx)]
        omega
      · rw [if_neg hx] at hi
        rw [if_neg (fun e => hx (hiff.mp e))]
        omega

/-- Without calls, an ENDED session stays so until its record is removed. -/
theorem Linked.ended (h : Linked w ms) {s : Session} (hr : w.mem.record a = some s)
    (hst : s.state = .ended) (hidle : ∀ m ∈ ms, m.Idle a) :
    ∀ m ∈ ms, ∀ s', m.after.mem.record a = some s' → s'.state = .ended := by
  have hinv := h.invariant (I := fun w => ∀ s, w.mem.record a = some s → s.state = .ended)
    (fun s' hs' => Option.some.inj (hr.symm.trans hs') ▸ hst)
    (fun m hm hacts hbefore s' hr' => by
      cases hr₀ : m.before.mem.record a with
      | none =>
        rw [hacts.idle_absent (hidle m hm) hr₀] at hr'
        exact absurd hr' (by simp)
      | some s₁ => exact (hacts.idles (hidle m hm) hr₀ hr').ended (hbefore s₁ hr₀))
  exact fun m hm => (hinv.1 m hm).2

end Idle

/-- From any point of any history on, without calls on `a`: at most `UPDATE_TIME`
ticks find the session of `a` STARTED, and once ENDED it is not STARTED again. -/
theorem watchdog {sched : Schedule} {pre cont : List Moment}
    (hms : execute GwWorld.init sched = some (pre ++ cont)) {a : String}
    (hidle : ∀ m ∈ cont, m.Idle a) :
    cont.countP (Moment.isStartedTick a) ≤ UPDATE_TIME.toNat ∧
    ∀ xs t ys, cont = xs ++ t :: ys →
      (∃ s, t.before.mem.record a = some s ∧ s.state = .ended) →
      ∀ m ∈ t :: ys, ∀ s', m.after.mem.record a = some s' → s'.state ≠ .started := by
  have hlinked := linked_of_execute (w := GwWorld.init) Controller.wf_init hms
  obtain ⟨hpre, hcont⟩ := hlinked.append
  have htimed := hpre.timed
  refine ⟨?_, ?_⟩
  · cases hr : (lastWorld GwWorld.init pre).mem.record a with
    | none =>
      rw [hcont.no_started_ticks hr hidle]
      exact Nat.zero_le _
    | some s =>
      exact Nat.le_trans (hcont.started_ticks_le_patience hr hidle)
        (Host.patience_le (htimed a s hr))
  · intro xs t ys hsplit hended m hm s' hr'
    subst hsplit
    obtain ⟨s, hr, hst⟩ := hended
    have hys := hcont.append.2
    have hended := hys.ended (hys.1 ▸ hr) hst
      (fun m hm => hidle m (List.mem_append_right xs hm)) m hm s' hr'
    simp [hended]

/-- A history in which a session is paused and left alone; the commands succeed. -/
def watchdogSchedule : Schedule :=
  ([Call.startSession "10.0.0.7", .startSession "10.0.0.8", .pauseSession "10.0.0.7"] ++
    List.replicate 61 Call.tick ++ [Call.endSession "10.0.0.8", .tick]).map
      fun c => (c, fun _ _ => 0)

/-- The moments of that history. -/
def watchdogMoments : List Moment := (execute GwWorld.init watchdogSchedule).getD []

theorem watchdog_paused :
    (watchdogMoments.drop 3).countP (Moment.isStartedTick "10.0.0.7") = 2 ∧
      (watchdogMoments.drop 3).countP (Moment.isStartedTick "10.0.0.7") ≤ 60 := by
  have hidle : ∀ m ∈ watchdogMoments.drop 3, m.Idle "10.0.0.7" := by decide
  exact ⟨by decide, (@watchdog watchdogSchedule (watchdogMoments.take 3) _ rfl _ hidle).1⟩

end WifiGateway
