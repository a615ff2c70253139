import WifiGateway.Controller.Turns

/-!
# What a call makes of a record

A call sets some fields of the record, as `editOf` has it, and the commands it then issues
change the state of the record and the two timers that `startSession` sets, and nothing
else (`Turned`). `step_turned` says this of every call, whatever its commands return; what
a field is after a call can be read off `editOf` for all the other fields.
-/

namespace WifiGateway

namespace Host

variable {a : String} {s s' s'' s₀ : Session} {h : Host} {r : Result} {o : Outcomes} {c : Call}
  {status : Int}

/-- What a call sets in a record that is about `a`, before any command. -/
def editOf (s : Session) : Call → Session
  | .updateSession _ => { s with updateTimeRemaining := UPDATE_TIME }
  | .setBandwidth _ bw => { s with bandwidth := bw }
  | .setQuota _ quota => { s with quotaRemaining := quota }
  | .setTime _ time => { s with timeRemaining := time }
  | .updateQuotaRemaining _ =>
    { s with quotaRemaining := if s.quotaRemaining > 0 then s.quotaRemaining - 1
                               else s.quotaRemaining }
  | .tick =>
    match s.state with
    | .started => countStarted s
    | .exhausted => countExhausted s
    | .paused =>
      if (countPaused s).pauseTimeRemaining = 0 then rearmPause (countPaused s) else countPaused s
    | .ended => countEnded s
    | .uninitialized => s
  | .newSession _ | .startSession _ | .pauseSession _ | .playSession _ | .endSession _
  | .deleteSession _ | .setDefaultBandWidth _ | .setDefaultQuota _ | .setDefaultTime _
  | .setDefaultSession _ | .getDefaultSession | .getSession _ | .getAllSessions | .getIPs => s

/-- What a call sets in the record of `a`; a call that names another host sets nothing. -/
def editAt (a : String) (s : Session) (c : Call) : Session :=
  match c.names with
  | some IP => if IP = a then editOf s c else s
  | none => editOf s c

/-- What commands do to a record. -/
def Turned (s s' : Session) : Prop :=
  ∃ state activity update, s' = { s with
    state := state
    activityTimeRemaining := activity
    updateTimeRemaining := update }

namespace Turned

theorem refl (s : Session) : Turned s s :=
  ⟨s.state, s.activityTimeRemaining, s.updateTimeRemaining, rfl⟩

theorem trans (h₁ : Turned s s') (h₂ : Turned s' s'') : Turned s s'' := by
  obtain ⟨state₁, activity₁, update₁, rfl⟩ := h₁
  obtain ⟨state₂, activity₂, update₂, rfl⟩ := h₂
  exact ⟨state₂, activity₂, update₂, rfl⟩

theorem timeRemaining (ht : Turned s s') : s'.timeRemaining = s.timeRemaining := by
  obtain ⟨state, activity, update, rfl⟩ := ht
  rfl

theorem sessionTime (ht : Turned s s') : s'.sessionTime = s.sessionTime := by
  obtain ⟨state, activity, update, rfl⟩ := ht
  rfl

theorem pauseTimeRemaining (ht : Turned s s') :
    s'.pauseTimeRemaining = s.pauseTimeRemaining := by
  obtain ⟨state, activity, update, rfl⟩ := ht
  rfl

theorem endTimeRemaining (ht : Turned s s') : s'.endTimeRemaining = s.endTimeRemaining := by
  obtain ⟨state, activity, update, rfl⟩ := ht
  rfl

end Turned

theorem Turn.turned (ht : Turn a status h r) (hr : h.record = some s)
    (hr' : r.host.record = some s') : Turned s s' := by
  cases ht with
  | stayed | refused =>
    obtain rfl := Option.some.inj (hr.symm.trans hr')
    exact .refl s
  | granted s₁ _ hr₁ =>
    obtain rfl := Option.some.inj (hr.symm.trans hr₁)
    obtain rfl := Option.some.inj hr'
    exact ⟨.started, ACTIVITY_TIME, UPDATE_TIME, rfl⟩
  | revoked s₁ st _ hr₁ =>
    obtain rfl := Option.some.inj (hr.symm.trans hr₁)
    obtain rfl := Option.some.inj hr'
    exact ⟨st, s.activityTimeRemaining, s.updateTimeRemaining, rfl⟩

/-- A turn, and then something that turns the record. -/
theorem Turn.turned_then (ht : Turn a status h r) (hr : h.record = some s)
    (hnext : ∀ s₁, r.host.record = some s₁ → Turned s₁ s') : Turned s s' := by
  obtain ⟨s₁, hr₁⟩ := ht.record hr
  exact (ht.turned hr hr₁).trans (hnext s₁ hr₁)

theorem relimit_turned {f : Session → Session} (hr : h.record = some s)
    (hr' : (relimit a f o h).host.record = some s') : Turned (f s) s' := by
  unfold relimit at hr'
  rw [withRecord_some hr] at hr'
  exact (@pause_turn a { h with record := some (f s) } o.remove).turned_then rfl
    fun _ hr₁ => play_turn.turned hr₁ hr'

theorem tick_turned (hr : h.record = some s) (hr' : (tick a o h).host.record = some s') :
    Turned (editOf s .tick) s' := by
  simp only [tick, hr] at hr'
  unfold editOf
  unfold tickRecord at hr'
  dsimp only at hr' ⊢
  cases hst : s.state with
  | started =>
    rw [hst] at hr'
    refine (@exhaustIf_turn a (countStarted s) ⟨some (countStarted s), h.rule⟩
      o.remove).turned_then rfl fun _ hr₁ => ?_
    exact finishAt_turn.turned_then hr₁ fun _ hr₂ => finishAt_turn.turned hr₂ hr'
  | exhausted =>
    rw [hst] at hr'
    exact (@finishAt_turn a ⟨some (countExhausted s), h.rule⟩ o.removeUpdate _).turned_then rfl
      fun _ hr₂ => finishAt_turn.turned hr₂ hr'
  | paused =>
    rw [hst] at hr'
    dsimp only at hr' ⊢
    split at hr'
    · next h0 =>
      rw [if_pos h0]
      exact (@play_turn a ⟨some (rearmPause (countPaused s)), h.rule⟩ o.add).turned rfl hr'
    · next h0 =>
      rw [if_neg h0]
      obtain rfl := Option.some.inj hr'
      exact .refl _
  | ended =>
    rw [hst] at hr'
    dsimp only at hr' ⊢
    split at hr'
    · exact absurd hr' (by simp [stay])
    · obtain rfl := Option.some.inj hr'
      exact .refl _
  | uninitialized =>
    rw [hst] at hr'
    obtain rfl := Option.some.inj (hr.symm.trans hr')
    exact .refl _

/-- Whatever the commands return: the fields that are not turned are as `editAt` has them. -/
theorem step_turned (hr : h.record = some s) (hr' : (step a s₀ o h c).host.record = some s') :
    Turned (editAt a s c) s' := by
  have hsame : ∀ {r : Result}, r.host = h → r.host.record = some s' → Turned s s' := by
    intro r hrh hr'
    rw [hrh] at hr'
    obtain rfl := Option.some.inj (hr.symm.trans hr')
    exact .refl s
  unfold editAt
  unfold step at hr'
  cases hn : c.names with
  | some IP =>
    rw [hn] at hr'
    dsimp only at hr' ⊢
    by_cases ha : IP = a
    · rw [if_pos ha] at hr' ⊢
      cases c with
      | newSession =>
        have hcreate : create s₀ h = h := by
          unfold create
          rw [hr, Option.getD_some, ← hr]
        exact hsame hcreate hr'
      | startSession =>
        have hstart : start a s₀ o.add h = startRecord a o.add s h := by simp [start, hr]
        have hrec : (start a s₀ o.add h).host.record = some s' := hr'
        rw [hstart] at hrec
        exact (startRecord_turn hr).turned hr hrec
      | pauseSession => exact pause_turn.turned hr hr'
      | playSession => exact play_turn.turned hr hr'
      | endSession => exact finish_turn.turned hr hr'
      | deleteSession => exact finish_turn.turned hr (discard_record hr')
      | updateSession | setTime | updateQuotaRemaining =>
        obtain rfl := amend_record hr hr'
        exact .refl _
      | setBandwidth | setQuota => exact relimit_turned hr hr'
      | getSession => exact hsame rfl hr'
      | setDefaultBandWidth | setDefaultQuota | setDefaultTime | setDefaultSession
      | getDefaultSession | getAllSessions | getIPs | tick => exact absurd hn (by simp [Call.names])
    · rw [if_neg ha] at hr' ⊢
      exact hsame rfl hr'
  | none =>
    rw [hn] at hr'
    dsimp only at hr' ⊢
    cases c with
    | tick => exact tick_turned hr hr'
    | setDefaultBandWidth | setDefaultQuota | setDefaultTime | setDefaultSession
    | getDefaultSession | getAllSessions | getIPs => exact hsame rfl hr'
    | newSession | startSession | pauseSession | playSession | updateSession | endSession
    | deleteSession | setBandwidth | setQuota | setTime | getSession | updateQuotaRemaining =>
      exact absurd hn (by simp [Call.names])

/-- A new record is the one the defaults give, turned. -/
theorem step_created_turned (hr : h.record = none)
    (hr' : (step a s₀ o h c).host.record = some s) : Turned s₀ s := by
  rcases step_created hr hr' with rfl | hrec
  · exact .refl s
  · have hcreate : (create s₀ h).record = some s₀ := by simp [create, hr]
    exact (startRecord_turn hcreate).turned hcreate hrec

/-- Only `setTime` and a tick set the time or the session time. -/
theorem editAt_times (hc : c ≠ .tick) :
    (editAt a s c).sessionTime = s.sessionTime ∧
      ((∀ time, c ≠ .setTime a time) → (editAt a s c).timeRemaining = s.timeRemaining) := by
  unfold editAt
  cases c with
  | tick => exact absurd rfl hc
  | setTime IP time =>
    dsimp only [Call.names]
    split
    · next ha => exact ⟨rfl, fun hne => absurd (ha ▸ rfl) (hne time)⟩
    · exact ⟨rfl, fun _ => rfl⟩
  | newSession | startSession | pauseSession | playSession | updateSession | endSession
  | deleteSession | setBandwidth | setQuota | getSession | updateQuotaRemaining =>
    dsimp only [Call.names]
    split
    · exact ⟨rfl, fun _ => rfl⟩
    · exact ⟨rfl, fun _ => rfl⟩
  | setDefaultBandWidth | setDefaultQuota | setDefaultTime | setDefaultSession
  | getDefaultSession | getAllSessions | getIPs => exact ⟨rfl, fun _ => rfl⟩

/-- The pause and the end timer run in a tick only. -/
theorem editAt_timers (hc : c ≠ .tick) :
    (editAt a s c).pauseTimeRemaining = s.pauseTimeRemaining ∧
      (editAt a s c).endTimeRemaining = s.endTimeRemaining := by
  unfold editAt
  cases c with
  | tick => exact absurd rfl hc
  | newSession | startSession | pauseSession | playSession | updateSession | endSession
  | deleteSession | setBandwidth | setQuota | setTime | getSession | updateQuotaRemaining =>
    dsimp only [Call.names]
    split
    · exact ⟨rfl, rfl⟩
    · exact ⟨rfl, rfl⟩
  | setDefaultBandWidth | setDefaultQuota | setDefaultTime | setDefaultSession
  | getDefaultSession | getAllSessions | getIPs => exact ⟨rfl, rfl⟩

/-- The pause timer runs only while the record is PAUSED. -/
theorem step_pauseTimer (hr : h.record = some s)
    (hr' : (step a s₀ o h c).host.record = some s') (hn : ¬ (c = .tick ∧ s.state = .paused)) :
    s'.pauseTimeRemaining = s.pauseTimeRemaining := by
  rw [(step_turned hr hr').pauseTimeRemaining]
  by_cases hc : c = .tick
  · subst hc
    show (editOf s .tick).pauseTimeRemaining = _
    unfold editOf
    cases hst : s.state with
    | paused => exact absurd ⟨rfl, hst⟩ hn
    | started | exhausted | ended | uninitialized => rfl
  · exact (editAt_timers hc).1

/-- The end timer runs only while the record is ENDED. -/
theorem step_endTimer (hr : h.record = some s)
    (hr' : (step a s₀ o h c).host.record = some s') (hn : ¬ (c = .tick ∧ s.state = .ended)) :
    s'.endTimeRemaining = s.endTimeRemaining := by
  rw [(step_turned hr hr').endTimeRemaining]
  by_cases hc : c = .tick
  · subst hc
    show (editOf s .tick).endTimeRemaining = _
    unfold editOf
    cases hst : s.state with
    | ended => exact absurd ⟨rfl, hst⟩ hn
    | paused =>
      dsimp only
      split
      · rfl
      · rfl
    | started | exhausted | uninitialized => rfl
  · exact (editAt_timers hc).2

end Host

end WifiGateway
