import WifiGateway.Controller.Lockstep

/-!
# Budget enforcement

What the limits of a session are worth over the whole life of its record. The
step lemma is `step_spends`: a call that does not set the limits of a host
changes its time only in a tick that finds it STARTED, its quota only by a quota
event, each by one unit and never past 0 or below, and starts it only with both
limits left (`Spends`).

Over a chain of moments this gives the three results: the limits never grow and
stay in range (`Linked.limits`), every STARTED tick is paid for with one unit of
time (`Linked.started_ticks_le`), and a session whose quota is spent is not
STARTED again from the next tick on (`Linked.spent`).
-/

namespace WifiGateway

open Waiting (Code Oracle)

/-! ## Counting down -/

theorem pred_toInt {t : Int32} (h : t > 0) : (t - 1).toInt = t.toInt - 1 := by
  have hpos : (0 : Int) < t.toInt := Int32.lt_iff_toInt_lt.mp h
  exact Int32.toInt_sub_of_le t 1 (by decide) (Int32.le_iff_toInt_le.mpr hpos)

theorem pred_nonneg {t : Int32} (h : t > 0) : 0 ≤ t - 1 := by
  have hpos : (0 : Int) < t.toInt := Int32.lt_iff_toInt_lt.mp h
  apply Int32.le_iff_toInt_le.mpr
  rw [pred_toInt h]
  show (0 : Int) ≤ _
  omega

theorem pred_le {t : Int32} (h : t > 0) : t - 1 ≤ t := by
  apply Int32.le_iff_toInt_le.mpr
  rw [pred_toInt h]
  omega

/-- One step of a limit: as it was, or one unit less of what was left. -/
def Counted (t t' : Int32) : Prop := t' = t ∨ t > 0 ∧ t' = t - 1

theorem Counted.refl (t : Int32) : Counted t t := .inl rfl

theorem Counted.le {t t' : Int32} (h : Counted t t') : t' ≤ t := by
  rcases h with rfl | ⟨hpos, rfl⟩
  · exact Int32.le_refl _
  · exact pred_le hpos

theorem Counted.nonneg {t t' : Int32} (h : Counted t t') (h0 : 0 ≤ t) : 0 ≤ t' := by
  rcases h with rfl | ⟨hpos, rfl⟩
  · exact h0
  · exact pred_nonneg hpos

theorem Counted.of_neg {t t' : Int32} (h : Counted t t') (h0 : t < 0) : t' = t := by
  rcases h with rfl | ⟨hpos, -⟩
  · rfl
  · exact absurd (Int32.lt_trans h0 hpos) (Int32.lt_irrefl)

theorem Counted.of_zero {t t' : Int32} (h : Counted t t') (h0 : t = 0) : t' = 0 := by
  rcases h with rfl | ⟨hpos, -⟩
  · exact h0
  · exact absurd (h0 ▸ hpos) (Int32.lt_irrefl)

/-! ## What one call spends -/

namespace Host

variable {a : String} {s s' s'' s₀ : Session} {h : Host} {r : Result} {o : Outcomes} {c : Call}
  {status : Int}

/-- What commands do to the limits: nothing, and they start only what has some left. -/
structure Unspent (s s' : Session) : Prop where
  time : s'.timeRemaining = s.timeRemaining
  quota : s'.quotaRemaining = s.quotaRemaining
  started : s'.state = .started → s.state = .started ∨ isExhausted s' = false

theorem Unspent.refl (s : Session) : Unspent s s := ⟨rfl, rfl, .inl⟩

theorem isExhausted_congr (ht : s'.timeRemaining = s.timeRemaining)
    (hq : s'.quotaRemaining = s.quotaRemaining) : isExhausted s' = isExhausted s := by
  unfold isExhausted
  rw [ht, hq]

theorem Unspent.trans (h₁ : Unspent s s') (h₂ : Unspent s' s'') : Unspent s s'' := by
  refine ⟨h₂.time.trans h₁.time, h₂.quota.trans h₁.quota, fun hst => ?_⟩
  rcases h₂.started hst with hst' | hx
  · rcases h₁.started hst' with hst'' | hx
    · exact .inl hst''
    · exact .inr ((isExhausted_congr h₂.time h₂.quota).trans hx)
  · exact .inr hx

theorem Turn.unspent (ht : Turn a status h r) (hr : h.record = some s)
    (hr' : r.host.record = some s') : Unspent s s' := by
  cases ht with
  | stayed =>
    obtain rfl := Option.some.inj (hr.symm.trans hr')
    exact .refl s
  | refused =>
    obtain rfl := Option.some.inj (hr.symm.trans hr')
    exact .refl s
  | granted s₁ _ hr₁ hs hx =>
    obtain rfl := Option.some.inj (hr.symm.trans hr₁)
    obtain rfl := Option.some.inj hr'
    exact ⟨rfl, rfl, fun _ => .inr hx⟩
  | revoked s₁ st _ hr₁ hst =>
    obtain rfl := Option.some.inj (hr.symm.trans hr₁)
    obtain rfl := Option.some.inj hr'
    exact ⟨rfl, rfl, fun hx => absurd hx hst⟩

/-- What a call that does not set the limits does to them. -/
structure Spends (c : Call) (s s' : Session) : Prop where
  time : s'.timeRemaining = if c = .tick ∧ s.state = .started ∧ s.timeRemaining > 0
    then s.timeRemaining - 1 else s.timeRemaining
  quota : Counted s.quotaRemaining s'.quotaRemaining
  started : s'.state = .started → isExhausted s' = false ∨ c ≠ .tick ∧ s.state = .started

theorem Unspent.spends (hu : Unspent s s') (hc : c ≠ .tick) : Spends c s s' := by
  refine ⟨?_, .inl hu.quota, fun hst => ?_⟩
  · rw [if_neg (fun hx => hc hx.1)]
    exact hu.time
  · rcases hu.started hst with hst' | hx
    · exact .inr ⟨hc, hst'⟩
    · exact .inl hx

theorem tick_spends (hok : RemovalsSucceed (tick a o h).issued) (hr : h.record = some s)
    (hr' : (tick a o h).host.record = some s') : Spends .tick s s' := by
  cases tick_passed hok hr hr' with
  | started hst =>
    refine ⟨?_, .refl _, ?_⟩
    · simp only [hst, true_and]
      rfl
    · unfold stateAfter
      dsimp only
      split
      · exact fun hx => absurd hx (by decide)
      · split
        · exact fun hx => absurd hx (by decide)
        · next hx => exact fun _ => .inl (Bool.eq_false_iff.mpr hx)
  | exhausted hst =>
    refine ⟨?_, .refl _, ?_⟩
    · simp [hst, countExhausted]
    · dsimp only
      split
      · exact fun hx => absurd hx (by decide)
      · exact fun hx => absurd hx (by decide)
  | paused hst h0 =>
    refine ⟨by simp [hst, countPaused], .refl _, fun hx => ?_⟩
    exact absurd (hst.symm.trans hx) (by decide)
  | rearmed hst h0 =>
    refine ⟨by simp [hst, countPaused, rearmPause], .refl _, fun hx => ?_⟩
    exact absurd (hst.symm.trans hx) (by decide)
  | resumed hst h0 hx =>
    refine ⟨?_, .refl _, fun _ => .inl hx⟩
    simp [hst, countPaused, rearmPause, startedRecord]
  | ended hst h0 =>
    refine ⟨by simp [hst, countEnded], .refl _, fun hx => ?_⟩
    exact absurd (hst.symm.trans hx) (by decide)
  | uninitialized hst =>
    refine ⟨by simp [hst], .refl _, fun hx => ?_⟩
    exact absurd (hst.symm.trans hx) (by decide)

theorem relimit_unspent {f : Session → Session} (hr : h.record = some s)
    (hr' : (relimit a f o h).host.record = some s') : Unspent (f s) s' := by
  unfold relimit at hr'
  rw [withRecord_some hr] at hr'
  have hpause := @pause_turn a { h with record := some (f s) } o.remove
  obtain ⟨s₁, hr₁⟩ := hpause.record rfl
  exact (hpause.unspent rfl hr₁).trans (play_turn.unspent hr₁ hr')

/-- The step lemma of the budget. -/
theorem step_spends (hr : h.record = some s) (hr' : (step a s₀ o h c).host.record = some s')
    (hok : RemovalsSucceed (step a s₀ o h c).issued) (hc : c.setsLimits a = false) :
    Spends c s s' := by
  rcases step_cases a s₀ o h c with ⟨he, hIP⟩ | ⟨he, IP, hIP, -⟩
  · rw [he] at hr' hok
    cases c with
    | newSession =>
      have hrec : (create s₀ h).record = some s' := hr'
      obtain rfl : s = s' := by simpa [create, hr] using hrec
      exact (Unspent.refl s).spends (by simp)
    | startSession =>
      have hrec : (startRecord a o.add s h).host.record = some s' := by
        have hstart : start a s₀ o.add h = startRecord a o.add s h := by simp [start, hr]
        exact hstart ▸ hr'
      exact ((startRecord_turn hr).unspent hr hrec).spends (by simp)
    | pauseSession => exact (pause_turn.unspent hr hr').spends (by simp)
    | playSession => exact (play_turn.unspent hr hr').spends (by simp)
    | endSession => exact (finish_turn.unspent hr hr').spends (by simp)
    | deleteSession => exact (finish_turn.unspent hr (discard_record hr')).spends (by simp)
    | updateSession =>
      obtain rfl := amend_record hr hr'
      exact Unspent.spends ⟨rfl, rfl, .inl⟩ (by simp)
    | updateQuotaRemaining =>
      obtain rfl := amend_record hr hr'
      refine ⟨by simp, ?_, fun hst => .inr ⟨by simp, hst⟩⟩
      by_cases hq : s.quotaRemaining > 0
      · exact .inr ⟨hq, by simp [hq]⟩
      · exact .inl (by simp [hq])
    | setBandwidth =>
      have hu := relimit_unspent hr hr'
      exact Unspent.spends ⟨hu.time, hu.quota, hu.started⟩ (by simp)
    | setQuota IP | setTime IP => exact absurd hc (by simp [Call.setsLimits, hIP IP rfl])
    | tick => exact tick_spends hok hr hr'
    | setDefaultBandWidth | setDefaultQuota | setDefaultTime | setDefaultSession
    | getDefaultSession | getSession | getAllSessions | getIPs =>
      obtain rfl := Option.some.inj (hr.symm.trans hr')
      exact (Unspent.refl s).spends (by simp)
  · rw [he] at hr'
    obtain rfl := Option.some.inj (hr.symm.trans hr')
    refine (Unspent.refl s).spends ?_
    intro heq
    subst heq
    exact absurd hIP (by simp [Call.names])

end Host

/-! ## The life of a record -/

/-- The life of a record of `a`: it is created as `s₀`, and is there at each of
the calls that follow. -/
structure Lifetime (a : String) (s₀ : Session) (creation : Moment) (life : List Moment) : Prop where
  absent : creation.before.mem.record a = none
  created : creation.after.mem.record a = some s₀
  present : ∀ m ∈ life, m.before.mem.record a ≠ none

/-- Calls that keep to the limits of `a`: none sets them, and no removal is refused. -/
structure Moment.Keeps (a : String) (m : Moment) : Prop where
  limits : m.call.setsLimits a = false
  removals : Host.RemovalsSucceed m.issued

instance (a : String) (m : Moment) : Decidable (m.Keeps a) :=
  decidable_of_iff (m.call.setsLimits a = false ∧ Host.RemovalsSucceed m.issued)
    ⟨fun h => ⟨h.1, h.2⟩, fun h => ⟨h.limits, h.removals⟩⟩

namespace Moment

variable {a : String} {s s' : Session} {m : Moment}

theorem Acts.spends (hm : m.Acts) (hk : m.Keeps a) (hr : m.before.mem.record a = some s)
    (hr' : m.after.mem.record a = some s') : Host.Spends m.call s s' := by
  obtain ⟨x, hhost, hissued⟩ := hm.host a
  exact Host.step_spends (h := m.before.host a) hr ((congrArg Host.record hhost).symm.trans hr')
    (hk.removals.subset hissued) hk.limits

/-- A tick does not remove a STARTED record. -/
theorem Acts.started_stays (hm : m.Acts) (hk : m.Keeps a) (hr : m.before.mem.record a = some s)
    (hc : m.call = .tick) (hst : s.state = .started) : ∃ s', m.after.mem.record a = some s' := by
  obtain ⟨x, hhost, hissued⟩ := hm.host a
  rw [hc] at hhost hissued
  have hrec := Host.tick_started (h := m.before.host a) hr hst (hk.removals.subset hissued)
  exact ⟨_, (congrArg Host.record hhost).trans hrec⟩

end Moment

/-- A limit over the life of a record that starts with `n`: in `0..n`, or
negative and the same for ever. -/
structure Within (n t : Int32) : Prop where
  range : 0 ≤ n → 0 ≤ t ∧ t ≤ n
  unlimited : n < 0 → t = n

theorem Within.refl (n : Int32) : Within n n := ⟨fun h => ⟨h, Int32.le_refl _⟩, fun _ => rfl⟩

theorem Within.counted {n t t' : Int32} (h : Within n t) (hc : Counted t t') : Within n t' := by
  refine ⟨fun hn => ?_, fun hn => ?_⟩
  · obtain ⟨h0, hle⟩ := h.range hn
    exact ⟨hc.nonneg h0, Int32.le_trans hc.le hle⟩
  · have ht := h.unlimited hn
    rw [hc.of_neg (ht ▸ hn), ht]

theorem Host.Spends.counted {c : Call} {s s' : Session} (h : Host.Spends c s s') :
    Counted s.timeRemaining s'.timeRemaining := by
  rw [h.time]
  split
  · next hpos => exact .inr ⟨hpos.2.2, rfl⟩
  · exact .refl _

section Life

variable {w : GwWorld} {life : List Moment} {a : String} {s₀ s : Session}

/-- The calls of a life end when the record is gone. -/
theorem Linked.nil_of_absent (h : Linked w life) (hr : w.mem.record a = none)
    (hpresent : ∀ m ∈ life, m.before.mem.record a ≠ none) : life = [] := by
  cases life with
  | nil => rfl
  | cons m rest =>
    have hpre := hpresent m List.mem_cons_self
    rw [h.1] at hpre
    exact absurd hr hpre

/-- The limits of the record stay within what they were at the start of the life. -/
theorem Linked.limits (h : Linked w life) (hs₀ : w.mem.record a = some s₀)
    (hpresent : ∀ m ∈ life, m.before.mem.record a ≠ none) (hkeeps : ∀ m ∈ life, m.Keeps a) :
    ∀ m ∈ life, ∀ s, m.before.mem.record a = some s ∨ m.after.mem.record a = some s →
      Within s₀.timeRemaining s.timeRemaining ∧ Within s₀.quotaRemaining s.quotaRemaining := by
  have hinv := h.invariant
    (I := fun w => ∀ s, w.mem.record a = some s →
      Within s₀.timeRemaining s.timeRemaining ∧ Within s₀.quotaRemaining s.quotaRemaining)
    (fun s hs => Option.some.inj (hs₀.symm.trans hs) ▸ ⟨.refl _, .refl _⟩)
    (fun m hm hacts hbefore s' hr' => by
      obtain ⟨s, hr⟩ := Option.ne_none_iff_exists'.mp (hpresent m hm)
      have hsp := hacts.spends (hkeeps m hm) hr hr'
      exact ⟨(hbefore s hr).1.counted hsp.counted, (hbefore s hr).2.counted hsp.quota⟩)
  intro m hm s hs
  rcases hs with hs | hs
  · exact (hinv.1 m hm).1 s hs
  · exact (hinv.1 m hm).2 s hs

/-- Every STARTED tick takes one unit of time. The induction is on the rest of
the life; a STARTED record has time left, or the last tick would have exhausted it. -/
theorem Linked.started_ticks_le (h : Linked w life) (hs : w.mem.record a = some s)
    (hpresent : ∀ m ∈ life, m.before.mem.record a ≠ none) (hkeeps : ∀ m ∈ life, m.Keeps a)
    (htime : 0 ≤ s.timeRemaining) (hstarted : s.state = .started → s.timeRemaining ≠ 0) :
    (life.countP (Moment.isStartedTick a) : Int) ≤ s.timeRemaining.toInt := by
  induction life generalizing w s with
  | nil => exact Int32.le_iff_toInt_le.mp htime
  | cons m rest ih =>
    obtain ⟨rfl, hacts, hrest⟩ := h
    have hk := hkeeps m List.mem_cons_self
    have hpos : s.state = .started → s.timeRemaining > 0 := fun hst =>
      Int32.lt_of_le_of_ne htime (Ne.symm (hstarted hst))
    rw [List.countP_cons]
    cases hr' : m.after.mem.record a with
    | none =>
      -- the record is gone: this was the last call of its life, and not a STARTED tick
      have hnil : rest = [] :=
        hrest.nil_of_absent hr' fun m' hm' => hpresent m' (List.mem_cons_of_mem m hm')
      have hno : Moment.isStartedTick a m = false := by
        by_contra hyes
        have htick : m.call = .tick ∧ s.state = .started := by
          simpa [Moment.isStartedTick, hs] using hyes
        obtain ⟨s', hs'⟩ := hacts.started_stays hk hs htick.1 htick.2
        exact absurd (hr'.symm.trans hs') (by simp)
      rw [hnil, hno]
      exact Int32.le_iff_toInt_le.mp htime
    | some s' =>
      have hsp := hacts.spends hk hs hr'
      have hstarted' : s'.state = .started → s'.timeRemaining ≠ 0 := by
        intro hst'
        rcases hsp.started hst' with hx | ⟨hc, hst⟩
        · exact (Host.isExhausted_eq_false.mp hx).1
        · rw [hsp.time, if_neg fun hx => hc hx.1]
          exact hstarted hst
      have hle := ih hrest hr' (fun m' hm' => hpresent m' (List.mem_cons_of_mem m hm'))
        (fun m' hm' => hkeeps m' (List.mem_cons_of_mem m hm')) (hsp.counted.nonneg htime) hstarted'
      split
      · next htick =>
        have htick' : m.call = .tick ∧ s.state = .started := by
          simpa [Moment.isStartedTick, hs] using htick
        have hdec : s'.timeRemaining.toInt = s.timeRemaining.toInt - 1 := by
          rw [hsp.time, if_pos ⟨htick'.1, htick'.2, hpos htick'.2⟩, pred_toInt (hpos htick'.2)]
        push_cast
        omega
      · have hmono := Int32.le_iff_toInt_le.mp hsp.counted.le
        push_cast
        omega

/-- From the tick that finds the quota spent on, the session is not STARTED. -/
theorem Linked.spent {t : Moment} (h : Linked w (t :: life))
    (hpresent : ∀ m ∈ t :: life, m.before.mem.record a ≠ none)
    (hkeeps : ∀ m ∈ t :: life, m.Keeps a) (ht : t.call = .tick)
    (hs : t.before.mem.record a = some s) (h0 : s.quotaRemaining = 0) :
    ∀ m ∈ t :: life, ∀ s', m.after.mem.record a = some s' → s'.state ≠ .started := by
  obtain ⟨rfl, hacts, hrest⟩ := h
  have hexhausted : ∀ s' : Session, s'.quotaRemaining = 0 → isExhausted s' ≠ false := by
    intro s' hq hx
    exact (Host.isExhausted_eq_false.mp hx).2 hq
  -- the tick itself: what it starts has quota left
  have hfirst : ∀ s', t.after.mem.record a = some s' →
      s'.quotaRemaining = 0 ∧ s'.state ≠ .started := by
    intro s' hr'
    have hsp := hacts.spends (hkeeps t List.mem_cons_self) hs hr'
    have hq := hsp.quota.of_zero h0
    refine ⟨hq, fun hst => ?_⟩
    rcases hsp.started hst with hx | ⟨hc, -⟩
    · exact hexhausted s' hq hx
    · exact hc ht
  have hinv := hrest.invariant
    (I := fun w => ∀ s, w.mem.record a = some s → s.quotaRemaining = 0 ∧ s.state ≠ .started)
    hfirst (fun m hm hacts hbefore s' hr' => by
      have hm' := List.mem_cons_of_mem t hm
      obtain ⟨s₁, hr⟩ := Option.ne_none_iff_exists'.mp (hpresent m hm')
      have hsp := hacts.spends (hkeeps m hm') hr hr'
      have hq := hsp.quota.of_zero (hbefore s₁ hr).1
      refine ⟨hq, fun hst => ?_⟩
      rcases hsp.started hst with hx | ⟨-, hst'⟩
      · exact hexhausted s' hq hx
      · exact (hbefore s₁ hr).2 hst')
  intro m hm s' hr'
  rcases hm with _ | ⟨_, hm⟩
  · exact (hfirst s' hr').2
  · exact ((hinv.1 m hm).2 s' hr').2

end Life

/-- A record that a call creates and starts has limits left. -/
theorem Host.step_creates {a : String} {s s₀ : Session} {h : Host} {o : Outcomes} {c : Call}
    (hr : h.record = none) (hr' : (Host.step a s₀ o h c).host.record = some s)
    (hs₀ : s₀.state ≠ .started) (hst : s.state = .started) : isExhausted s = false := by
  rcases Host.step_created hr hr' with rfl | hrec
  · exact absurd hst hs₀
  · have hcreate : (Host.create s₀ h).record = some s₀ := by simp [Host.create, hr]
    have hu := (Host.startRecord_turn hcreate).unspent hcreate hrec
    exact (hu.started hst).resolve_left hs₀

/-- The budget of a record over its life in any history, from its creation as
`s₀` on, as long as no call sets its limits and no removal is refused. -/
theorem budget_enforced {sched : Schedule} {pre life post : List Moment} {creation : Moment}
    (hms : execute GwWorld.init sched = some (pre ++ creation :: life ++ post)) {a : String}
    {s₀ : Session} (hlife : Lifetime a s₀ creation life) (hkeeps : ∀ m ∈ life, m.Keeps a) :
    (∀ m ∈ life, ∀ s s', m.before.mem.record a = some s → m.after.mem.record a = some s' →
      s'.timeRemaining ≤ s.timeRemaining ∧ Within s₀.timeRemaining s'.timeRemaining ∧
      s'.quotaRemaining ≤ s.quotaRemaining ∧ Within s₀.quotaRemaining s'.quotaRemaining) ∧
    (0 ≤ s₀.timeRemaining →
      (life.countP (Moment.isStartedTick a) : Int) ≤ s₀.timeRemaining.toInt) ∧
    (∀ xs t ys, life = xs ++ t :: ys → t.call = .tick →
      (∃ s, t.before.mem.record a = some s ∧ s.quotaRemaining = 0) →
      ∀ m ∈ t :: ys, ∀ s', m.after.mem.record a = some s' → s'.state ≠ .started) := by
  have hlinked := linked_of_execute (w := GwWorld.init) Controller.wf_init hms
  rw [List.append_assoc] at hlinked
  obtain ⟨-, hcreation, hpost⟩ := hlinked.append.2
  have hl : Linked creation.after life := hpost.append.1
  -- created STARTED by `startSession`, the record has time left
  have hstarted : s₀.state = .started → s₀.timeRemaining ≠ 0 := by
    intro hst
    obtain ⟨x, hhost, -⟩ := hcreation.host a
    have hx := Host.step_creates (h := creation.before.host a) hlife.absent
      ((congrArg Host.record hhost).symm.trans hlife.created)
      (show SessionState.uninitialized ≠ .started by decide) hst
    exact (Host.isExhausted_eq_false.mp hx).1
  refine ⟨fun m hm s s' hr hr' => ?_, fun h0 => ?_, ?_⟩
  · have hsp := (hl.mem_acts m hm).spends (hkeeps m hm) hr hr'
    obtain ⟨htime, hquota⟩ := hl.limits hlife.created hlife.present hkeeps m hm s' (.inr hr')
    exact ⟨hsp.counted.le, htime, hsp.quota.le, hquota⟩
  · exact hl.started_ticks_le hlife.created hlife.present hkeeps h0 hstarted
  · intro xs t ys hsplit ht hspent
    subst hsplit
    obtain ⟨s, hs, h0⟩ := hspent
    exact hl.append.2.spent (fun m hm => hlife.present m (List.mem_append_right xs hm))
      (fun m hm => hkeeps m (List.mem_append_right xs hm)) ht hs h0

/-- A history with one host, created with 2 units of time, in which every
command succeeds. -/
def budgetSchedule : Schedule :=
  [.setDefaultTime 2, .newSession "10.0.0.7", .startSession "10.0.0.7", .tick,
    .pauseSession "10.0.0.7", .playSession "10.0.0.7", .tick, .startSession "10.0.0.7", .tick].map
    fun c => (c, fun _ _ => 0)

/-- The moments of that history. -/
def budgetMoments : List Moment := (execute GwWorld.init budgetSchedule).getD []

theorem budget_enforced_two_units :
    (budgetMoments.drop 2).countP (Moment.isStartedTick "10.0.0.7") = 2 ∧
      ((budgetMoments.drop 2).countP (Moment.isStartedTick "10.0.0.7") : Int) ≤ 2 := by
  have hlife : Lifetime "10.0.0.7"
      ⟨"10.0.0.7", "", .uninitialized, 1000, 2, -1, 60, 60, 60, 3600, 0⟩
      ((budgetMoments.drop 1).head (by decide)) (budgetMoments.drop 2) :=
    ⟨by decide, by decide, by decide⟩
  exact ⟨by decide, (@budget_enforced budgetSchedule (budgetMoments.take 1) _ [] _ rfl _ _ hlife
    (by decide)).2.1 (by decide)⟩

end WifiGateway
