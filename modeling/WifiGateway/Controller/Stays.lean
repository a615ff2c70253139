import WifiGateway.Controller.Edits
import WifiGateway.Controller.Reclaim

/-!
# Stays in PAUSED and ENDED

The pause timer is set when the record is created and when `tick` finds that it has run
out, the end timer when the record is created; nothing sets them when the record enters
the state that they are for. A stay therefore lasts as long as the timer has left from
the stays before it: `Linked.paused_ticks` and `Linked.ended_ticks` count the ticks of a
stay, by induction on its moments.

`stays_iff` says from this which stays that a tick ends have lasted the full time.
-/

namespace WifiGateway

open Waiting (Code Oracle)

/-! ## Timers that run out -/

theorem countdown_eq_zero {t : UInt32} : countdown t = 0 ↔ t ≤ 1 := by
  constructor
  · intro h
    apply UInt32.le_iff_toNat_le.mpr
    show t.toNat ≤ 1
    by_contra hlt
    unfold countdown at h
    have hpos : t > 0 := UInt32.lt_iff_toNat_lt.mpr (show 0 < t.toNat by omega)
    rw [if_pos hpos] at h
    have hle : (1 : UInt32) ≤ t := UInt32.le_iff_toNat_le.mpr (show 1 ≤ t.toNat by omega)
    have hsub := UInt32.toNat_sub_of_le t 1 hle
    rw [h] at hsub
    have hsub' : 0 = t.toNat - 1 := hsub
    omega
  · intro h
    by_contra hne
    have hdec := countdown_toNat hne
    have hle : t.toNat ≤ 1 := UInt32.le_iff_toNat_le.mp h
    exact hne (UInt32.toNat_inj.mp (show (countdown t).toNat = 0 by omega))

/-! ## One moment of a stay -/

namespace Moment

variable {a : String} {m : Moment} {s s' : Session}

/-- The state of the record of `a` when the call is made. -/
def stateBefore (a : String) (m : Moment) : Option SessionState :=
  (m.before.mem.record a).map Session.state

/-- The state of the record of `a` after the call. -/
def stateAfter (a : String) (m : Moment) : Option SessionState :=
  (m.after.mem.record a).map Session.state

/-- The call is a tick. -/
def isTick (m : Moment) : Bool := m.call == .tick

theorem isTick_iff : m.isTick = true ↔ m.call = .tick := by simp [isTick]

/-- The pause timer of the record has run out at this call, or is about to. -/
def pauseRunsOut (a : String) (m : Moment) : Prop :=
  m.call = .tick ∧ ∃ s, m.before.mem.record a = some s ∧ s.pauseTimeRemaining ≤ 1

theorem Acts.pauseTimer (hm : m.Acts) (hr : m.before.mem.record a = some s)
    (hr' : m.after.mem.record a = some s') (hn : ¬ (m.call = .tick ∧ s.state = .paused)) :
    s'.pauseTimeRemaining = s.pauseTimeRemaining := by
  obtain ⟨x, hhost, -⟩ := hm.host a
  exact Host.step_pauseTimer (h := m.before.host a) hr
    ((congrArg Host.record hhost).symm.trans hr') hn

theorem Acts.endTimer (hm : m.Acts) (hr : m.before.mem.record a = some s)
    (hr' : m.after.mem.record a = some s') (hn : ¬ (m.call = .tick ∧ s.state = .ended)) :
    s'.endTimeRemaining = s.endTimeRemaining := by
  obtain ⟨x, hhost, -⟩ := hm.host a
  exact Host.step_endTimer (h := m.before.host a) hr
    ((congrArg Host.record hhost).symm.trans hr') hn

/-- A tick of a record that stays PAUSED: the pause timer has run out and is set again, or it
has one tick less. -/
theorem Succeeds.paused_tick (hm : m.Succeeds) (hc : m.call = .tick)
    (hr : m.before.mem.record a = some s) (hst : s.state = .paused)
    (hr' : m.after.mem.record a = some s') (hst' : s'.state = .paused) :
    (s.pauseTimeRemaining ≤ 1 ∧ s'.pauseTimeRemaining = PAUSE_TIME) ∨
      (¬ s.pauseTimeRemaining ≤ 1 ∧
        max s'.pauseTimeRemaining.toNat 1 + 1 = max s.pauseTimeRemaining.toNat 1) := by
  have ht := hm.ticked hc a
  rw [hr, hr', Option.bind_some] at ht
  unfold Host.ticked at ht
  rw [hst] at ht
  dsimp only at ht
  split at ht
  · next h0 =>
    obtain rfl := Option.some.inj ht
    exact .inr ⟨fun hle => h0 (countdown_eq_zero.mpr hle), Host.max_countdown h0⟩
  · next h0 =>
    have hle : s.pauseTimeRemaining ≤ 1 := countdown_eq_zero.mp (Decidable.not_not.mp h0)
    split at ht
    · obtain rfl := Option.some.inj ht
      exact absurd hst' (by simp [Host.startedRecord])
    · obtain rfl := Option.some.inj ht
      exact .inl ⟨hle, rfl⟩

/-- A tick that resumes a PAUSED record finds that the pause timer has run out. -/
theorem Succeeds.resuming_tick (hm : m.Succeeds) (hc : m.call = .tick)
    (hr : m.before.mem.record a = some s) (hst : s.state = .paused)
    (hst' : m.stateAfter a = some .started) : s.pauseTimeRemaining ≤ 1 := by
  unfold stateAfter at hst'
  rw [hm.ticked hc a, hr, Option.bind_some] at hst'
  unfold Host.ticked at hst'
  rw [hst] at hst'
  dsimp only at hst'
  split at hst'
  · next h0 =>
    have hpaused : (countPaused s).state = .paused := hst
    rw [Option.map_some, hpaused] at hst'
    exact absurd hst' (by decide)
  · next h0 => exact countdown_eq_zero.mp (Decidable.not_not.mp h0)

/-- A tick of an ENDED record that it keeps, and of one that it removes. -/
theorem Succeeds.ended_tick (hm : m.Succeeds) (hc : m.call = .tick)
    (hr : m.before.mem.record a = some s) (hst : s.state = .ended) :
    (m.after.mem.record a = none ↔ s.endTimeRemaining ≤ 1) ∧
      ∀ s', m.after.mem.record a = some s' →
        max s'.endTimeRemaining.toNat 1 + 1 = max s.endTimeRemaining.toNat 1 := by
  have ht := hm.ticked hc a
  rw [hr, Option.bind_some] at ht
  unfold Host.ticked at ht
  rw [hst] at ht
  dsimp only at ht
  rw [ht]
  by_cases h0 : (countEnded s).endTimeRemaining = 0
  · rw [if_pos h0]
    exact ⟨iff_of_true rfl (countdown_eq_zero.mp h0), fun s' hs' => absurd hs' (by simp)⟩
  · rw [if_neg h0]
    refine ⟨iff_of_false (by simp) fun hle => h0 (countdown_eq_zero.mpr hle), fun s' hs' => ?_⟩
    obtain rfl := Option.some.inj hs'
    exact Host.max_countdown h0

end Moment

/-! ## The ticks of a stay -/

section Stay

variable {w : GwWorld} {stay : List Moment} {last : Moment} {a : String} {s : Session}
  {st : SessionState}

theorem stateBefore_some {m : Moment} (h : m.stateBefore a = some st) :
    ∃ s, m.before.mem.record a = some s ∧ s.state = st := by
  unfold Moment.stateBefore at h
  exact Option.map_eq_some_iff.mp h

/-- The record at the start of a stay. -/
theorem Linked.stay_starts (h : Linked w (stay ++ [last]))
    (hst : ∀ m ∈ stay ++ [last], m.stateBefore a = some st) :
    ∃ s, w.mem.record a = some s ∧ s.state = st := by
  cases stay with
  | nil =>
    have hfirst := stateBefore_some (hst last (by simp))
    rwa [h.1] at hfirst
  | cons m rest =>
    have hfirst := stateBefore_some (hst m (by simp))
    rwa [h.1] at hfirst

/-- The ticks of a stay in PAUSED that a tick ends by resuming the session: as many as the
timer had left, or more if it has run out and was set again. -/
theorem Linked.paused_ticks (h : Linked w (stay ++ [last])) (hok : ∀ m ∈ stay ++ [last], m.Succeeds)
    (hr : w.mem.record a = some s) (hpaused : ∀ m ∈ stay ++ [last], m.stateBefore a = some .paused)
    (hc : last.call = .tick) (hresumed : last.stateAfter a = some .started) :
    max s.pauseTimeRemaining.toNat 1 ≤ (stay ++ [last]).countP Moment.isTick ∧
      ((∀ m ∈ stay, ¬ m.pauseRunsOut a) →
        (stay ++ [last]).countP Moment.isTick = max s.pauseTimeRemaining.toNat 1) := by
  induction stay generalizing w s with
  | nil =>
    obtain ⟨rfl, -, -⟩ := h
    obtain ⟨s₁, hr₁, hst⟩ := stateBefore_some (hpaused last (by simp))
    obtain rfl := Option.some.inj (hr.symm.trans hr₁)
    have hle := (hok last (by simp)).resuming_tick hc hr hst hresumed
    have hle' : s.pauseTimeRemaining.toNat ≤ 1 := UInt32.le_iff_toNat_le.mp hle
    have hcount : ([] ++ [last]).countP Moment.isTick = 1 := by
      rw [List.nil_append, List.countP_singleton, if_pos (Moment.isTick_iff.mpr hc)]
    rw [hcount]
    exact ⟨by omega, fun _ => by omega⟩
  | cons m rest ih =>
    obtain ⟨rfl, hacts, hrest⟩ := h
    have hpaused' := fun x hx => hpaused x (List.mem_cons_of_mem m hx)
    obtain ⟨s₁, hr₁, hst⟩ := stateBefore_some (hpaused m (by simp))
    obtain rfl := Option.some.inj (hr.symm.trans hr₁)
    obtain ⟨s', hr', hst'⟩ := hrest.stay_starts hpaused'
    obtain ⟨hle, heq⟩ := ih hrest (fun x hx => hok x (List.mem_cons_of_mem m hx)) hr' hpaused'
    rw [List.cons_append, List.countP_cons]
    by_cases htick : m.call = .tick
    · rw [if_pos (Moment.isTick_iff.mpr htick)]
      rcases (hok m (by simp)).paused_tick htick hr hst hr' hst' with ⟨hout, hset⟩ | ⟨hin, hdec⟩
      · have hout' : s.pauseTimeRemaining.toNat ≤ 1 := UInt32.le_iff_toNat_le.mp hout
        exact ⟨by omega, fun hno => absurd ⟨htick, s, hr, hout⟩ (hno m (by simp))⟩
      · refine ⟨by omega, fun hno => ?_⟩
        rw [heq fun x hx => hno x (List.mem_cons_of_mem m hx)]
        exact hdec
    · rw [if_neg (fun hx => htick (Moment.isTick_iff.mp hx)),
        ← hacts.pauseTimer hr hr' fun hand => htick hand.1]
      exact ⟨hle, fun hno => heq fun x hx => hno x (List.mem_cons_of_mem m hx)⟩

/-- When the timer has run out during the stay, a full pause is still to come. -/
theorem Linked.rearmed_ticks (h : Linked w (stay ++ [last]))
    (hok : ∀ m ∈ stay ++ [last], m.Succeeds)
    (hpaused : ∀ m ∈ stay ++ [last], m.stateBefore a = some .paused) (hc : last.call = .tick)
    (hresumed : last.stateAfter a = some .started) {m : Moment} (hm : m ∈ stay)
    (hout : m.pauseRunsOut a) :
    PAUSE_TIME.toNat ≤ (stay ++ [last]).countP Moment.isTick := by
  obtain ⟨xs, ys, rfl⟩ := List.append_of_mem hm
  rw [List.append_assoc, List.cons_append] at h hok hpaused
  obtain ⟨hbefore, hacts, hys⟩ := h.append.2
  have hrest : ∀ x ∈ ys ++ [last], x ∈ xs ++ m :: (ys ++ [last]) := fun x hx =>
    List.mem_append_right xs (List.mem_cons_of_mem m hx)
  obtain ⟨htick, s, hr, hle⟩ := hout
  obtain ⟨s₁, hr₁, hst⟩ := stateBefore_some (hpaused m (by simp))
  obtain rfl := Option.some.inj (hr.symm.trans hr₁)
  obtain ⟨s', hr', hst'⟩ := hys.stay_starts fun x hx => hpaused x (hrest x hx)
  have hset : s'.pauseTimeRemaining = PAUSE_TIME := by
    rcases (hok m (by simp)).paused_tick htick hr hst hr' hst' with ⟨-, hset⟩ | ⟨hin, -⟩
    · exact hset
    · exact absurd hle hin
  have hys' := (hys.paused_ticks (fun x hx => hok x (hrest x hx)) hr'
    (fun x hx => hpaused x (hrest x hx)) hc hresumed).1
  rw [hset] at hys'
  have hle' : (ys ++ [last]).countP Moment.isTick ≤
      (xs ++ m :: ys ++ [last]).countP Moment.isTick := by
    apply List.Sublist.countP_le
    simp
  exact Nat.le_trans (Nat.le_trans (Nat.le_max_left _ _) hys') hle'

/-- The ticks of a stay in ENDED that a tick ends by removing the record: as many as the
timer had left. -/
theorem Linked.ended_ticks (h : Linked w (stay ++ [last])) (hok : ∀ m ∈ stay ++ [last], m.Succeeds)
    (hr : w.mem.record a = some s) (hended : ∀ m ∈ stay ++ [last], m.stateBefore a = some .ended)
    (hc : last.call = .tick) (hremoved : last.after.mem.record a = none) :
    (stay ++ [last]).countP Moment.isTick = max s.endTimeRemaining.toNat 1 := by
  induction stay generalizing w s with
  | nil =>
    obtain ⟨rfl, -, -⟩ := h
    obtain ⟨s₁, hr₁, hst⟩ := stateBefore_some (hended last (by simp))
    obtain rfl := Option.some.inj (hr.symm.trans hr₁)
    have hle := ((hok last (by simp)).ended_tick hc hr hst).1.mp hremoved
    have hle' : s.endTimeRemaining.toNat ≤ 1 := UInt32.le_iff_toNat_le.mp hle
    rw [List.nil_append, List.countP_singleton, if_pos (Moment.isTick_iff.mpr hc)]
    omega
  | cons m rest ih =>
    obtain ⟨rfl, hacts, hrest⟩ := h
    have hended' := fun x hx => hended x (List.mem_cons_of_mem m hx)
    obtain ⟨s₁, hr₁, hst⟩ := stateBefore_some (hended m (by simp))
    obtain rfl := Option.some.inj (hr.symm.trans hr₁)
    obtain ⟨s', hr', -⟩ := hrest.stay_starts hended'
    rw [List.cons_append, List.countP_cons,
      ih hrest (fun x hx => hok x (List.mem_cons_of_mem m hx)) hr' hended']
    by_cases htick : m.call = .tick
    · rw [if_pos (Moment.isTick_iff.mpr htick)]
      exact ((hok m (by simp)).ended_tick htick hr hst).2 s' hr'
    · rw [if_neg (fun hx => htick (Moment.isTick_iff.mp hx)),
        ← hacts.endTimer hr hr' fun hand => htick hand.1]
      rfl

end Stay

/-! ## The stays of a history -/

/-- A stay of the record of `a` in the state `st`: the call that it enters the state with,
and the calls that find it there, the last of which is `last`. -/
structure Stay (a : String) (st : SessionState) (enter : Moment) (stay : List Moment)
    (last : Moment) : Prop where
  outside : enter.stateBefore a ≠ some st
  entered : enter.stateAfter a = some st
  stays : ∀ m ∈ stay ++ [last], m.stateBefore a = some st

/-- The record that enters PAUSED or ENDED was there before. -/
theorem Moment.Acts.entered {a : String} {m : Moment} {st : SessionState} (hm : m.Acts)
    (hafter : m.stateAfter a = some st) (hst : st = .paused ∨ st = .ended) :
    ∃ s, m.before.mem.record a = some s := by
  cases hr : m.before.mem.record a with
  | some s => exact ⟨s, rfl⟩
  | none =>
    unfold Moment.stateAfter at hafter
    obtain ⟨s', hr', rfl⟩ := Option.map_eq_some_iff.mp hafter
    obtain ⟨x, hhost, -⟩ := hm.host a
    -- a new record is UNINITIALIZED or STARTED
    have hnew : s'.state = .uninitialized ∨ s'.state = .started := by
      rcases Host.step_created (h := m.before.host a) hr
        ((congrArg Host.record hhost).symm.trans hr') with rfl | hrec
      · exact .inl rfl
      · rcases Host.startRecord_record a x.add (m.before.mem.initSession a) _ with hs | ⟨hs, -⟩
        · obtain rfl := Option.some.inj (hs.symm.trans hrec)
          exact .inl rfl
        · obtain rfl := Option.some.inj (hs.symm.trans hrec)
          exact .inr rfl
    rcases hnew with hnew | hnew
    · rw [hnew] at hst
      exact absurd hst (by simp)
    · rw [hnew] at hst
      exact absurd hst (by simp)

/-- In every history whose commands all succeed: a stay in PAUSED that a tick ends by
resuming the session has lasted `PAUSE_TIME` ticks exactly if the record entered it with
the full timer or the timer has run out in it before; a stay in ENDED that a tick ends by
removing the record has lasted `END_TIME` ticks exactly if the record entered it with the
full timer. -/
theorem stays_iff {calls : List Call} {pre stay post : List Moment} {enter last : Moment}
    (hms : execute GwWorld.init (.succeeding calls) =
      some (pre ++ enter :: (stay ++ [last]) ++ post)) (a : String) :
    (Stay a .paused enter stay last → last.call = .tick → last.stateAfter a = some .started →
      (PAUSE_TIME.toNat ≤ (stay ++ [last]).countP Moment.isTick ↔
        (enter.before.mem.record a).map Session.pauseTimeRemaining = some PAUSE_TIME ∨
          ∃ m ∈ stay, m.pauseRunsOut a)) ∧
    (Stay a .ended enter stay last → last.call = .tick → last.after.mem.record a = none →
      (END_TIME.toNat ≤ (stay ++ [last]).countP Moment.isTick ↔
        (enter.before.mem.record a).map Session.endTimeRemaining = some END_TIME)) := by
  obtain ⟨ms, hms', -, hlinked, hall⟩ :=
    execute_succeeds (w := GwWorld.init) Controller.wf_init calls
  obtain rfl := Option.some.inj (hms'.symm.trans hms)
  rw [List.append_assoc] at hlinked
  obtain ⟨hpre, hbefore, henter, hrest⟩ := hlinked.append
  have hstay : Linked enter.after (stay ++ [last]) := hrest.append.1
  have hok : ∀ m ∈ stay ++ [last], m.Succeeds := fun m hm =>
    hall m (List.mem_append_left post (List.mem_append_right pre (List.mem_cons_of_mem enter hm)))
  -- the record before the stay, with its timers in range
  have hranged : ∀ s, enter.before.mem.record a = some s → Host.Ranged s := by
    rw [hbefore]
    exact hpre.kept (I := fun h => ∀ s, h.record = some s → Host.Ranged s)
      (fun s hs => absurd hs (by simp))
      (fun _ b => Host.ranged_kept b ⟨UInt32.le_refl _, UInt32.le_refl _⟩) a
  constructor
  · intro hst hc hresumed
    obtain ⟨s, hr⟩ := henter.entered hst.entered (.inl rfl)
    obtain ⟨s', hr', -⟩ := hstay.stay_starts hst.stays
    have htimer := henter.pauseTimer hr hr' fun hand => hst.outside (by
      rw [Moment.stateBefore, hr, Option.map_some, hand.2])
    obtain ⟨hle, heq⟩ := hstay.paused_ticks hok hr' hst.stays hc hresumed
    rw [htimer] at hle heq
    have hrange : s.pauseTimeRemaining.toNat ≤ 60 := UInt32.le_iff_toNat_le.mp (hranged s hr).pause
    rw [hr, Option.map_some, Option.some.injEq]
    constructor
    · intro hfull
      by_cases hout : ∃ m ∈ stay, m.pauseRunsOut a
      · exact .inr hout
      · rw [heq fun m hm hrun => hout ⟨m, hm, hrun⟩] at hfull
        have hfull' : 60 ≤ max s.pauseTimeRemaining.toNat 1 := hfull
        exact .inl (UInt32.toNat_inj.mp (show s.pauseTimeRemaining.toNat = 60 by omega))
    · rintro (hfull | ⟨m, hm, hout⟩)
      · rw [hfull] at hle
        exact Nat.le_trans (Nat.le_max_left _ _) hle
      · exact hstay.rearmed_ticks hok hst.stays hc hresumed hm hout
  · intro hst hc hremoved
    obtain ⟨s, hr⟩ := henter.entered hst.entered (.inr rfl)
    obtain ⟨s', hr', -⟩ := hstay.stay_starts hst.stays
    have htimer := henter.endTimer hr hr' fun hand => hst.outside (by
      rw [Moment.stateBefore, hr, Option.map_some, hand.2])
    rw [hstay.ended_ticks hok hr' hst.stays hc hremoved, htimer, hr, Option.map_some,
      Option.some.injEq]
    have hrange : s.endTimeRemaining.toNat ≤ 3600 := UInt32.le_iff_toNat_le.mp (hranged s hr).finish
    constructor
    · intro hfull
      have hfull' : 3600 ≤ max s.endTimeRemaining.toNat 1 := hfull
      exact UInt32.toNat_inj.mp (show s.endTimeRemaining.toNat = 3600 by omega)
    · intro hfull
      rw [hfull]
      exact Nat.le_max_left _ _

/-- Two pauses, the first of which is left after one tick. -/
def staysCalls : List Call :=
  [.startSession "10.0.0.7", .pauseSession "10.0.0.7", .tick, .playSession "10.0.0.7",
    .pauseSession "10.0.0.7"] ++ List.replicate 59 .tick

/-- The moments of that history. -/
def staysMoments : List Moment := (execute GwWorld.init (.succeeding staysCalls)).getD []

/-- One pause, which is not left. -/
def stayCalls : List Call :=
  [.startSession "10.0.0.7", .pauseSession "10.0.0.7"] ++ List.replicate 60 .tick

/-- The moments of that history. -/
def stayMoments : List Moment := (execute GwWorld.init (.succeeding stayCalls)).getD []

theorem stays_first :
    PAUSE_TIME.toNat ≤
        ((stayMoments.drop 2).take 59 ++ [(stayMoments.drop 61).head (by decide)]).countP
      Moment.isTick := by
  have hstay : Stay "10.0.0.7" .paused ((stayMoments.drop 1).head (by decide))
      ((stayMoments.drop 2).take 59) ((stayMoments.drop 61).head (by decide)) :=
    ⟨by decide, by decide, by decide⟩
  exact ((@stays_iff stayCalls (stayMoments.take 1) _ [] _ _ rfl "10.0.0.7").1 hstay (by decide)
    (by decide)).mpr (.inl (by decide))

/-- The second pause is over after 59 ticks. -/
theorem stays_second :
    execute GwWorld.init (.succeeding staysCalls) = some (staysMoments.take 4 ++
      (staysMoments.drop 4).head (by decide) :: ((staysMoments.drop 5).take 58 ++
        [(staysMoments.drop 63).head (by decide)])) ∧
    Stay "10.0.0.7" .paused ((staysMoments.drop 4).head (by decide))
      ((staysMoments.drop 5).take 58) ((staysMoments.drop 63).head (by decide)) ∧
    ((staysMoments.drop 63).head (by decide)).call = .tick ∧
    ((staysMoments.drop 63).head (by decide)).stateAfter "10.0.0.7" = some .started ∧
    ¬ PAUSE_TIME.toNat ≤ ((staysMoments.drop 5).take 58 ++
      [(staysMoments.drop 63).head (by decide)]).countP Moment.isTick :=
  ⟨rfl, ⟨by decide, by decide, by decide⟩, by decide, by decide, by decide⟩

end WifiGateway
