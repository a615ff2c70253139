import WifiGateway.Controller.Success
import WifiGateway.Gateway.Window

/-!
# A window that stays open

The session of a visitor is to go on for as long as the window with the session panel is open, and
to end soon after it is closed.

Open (`open_window_keeps`): the page asks for updates as long as it does not show that the session
has ended, and the session does not end as long as updates come in. The invariant therefore follows
both (`Kept`): it bounds what the update timer lacks by how long the oldest update has been on its
way, or by how long the interval has been running. Nothing may be lost here, or be late; no button
is clicked; and as in `Window.lean` calls run one at a time, so no tick removes the record that the
call which starts the session waits to write to.

Closed (`closed_window_ends`): what is still under way can bring the session back to the full timer
for as long as it takes to get there, and no longer.
-/

namespace WifiGateway

open Api (Locals)
open Waiting (Oracle)
open Web (RemoteAddr PanelCall PanelAnswer Page ajaxEnd)

namespace Host

variable {a : String} {s s' s₀ : Session} {h : Host} {c : Call}

/-- A call of someone else, other than a tick, can only use up a unit of the quota. -/
theorem other_record (hc : LeavesAlone a c) (htick : c ≠ .tick) :
    (step a s₀ .success h c).host.record = h.record.map (editAt a · c) ∧
      (step a s₀ .success h c).issued = [] := by
  rcases step_cases a s₀ .success h c with ⟨he, hIP⟩ | ⟨he, IP, hIP, hne⟩
  · rw [he]
    cases hn : c.names with
    | none =>
      have hedit : (editAt a · c) = id := by
        funext s
        unfold editAt
        rw [hn]
        cases c with
        | tick => exact absurd rfl htick
        | setDefaultBandWidth | setDefaultQuota | setDefaultTime | setDefaultSession
        | getDefaultSession | getAllSessions | getIPs => rfl
        | _ => exact absurd hn (by simp [Call.names])
      rw [hedit, Option.map_id]
      cases c with
      | tick => exact absurd rfl htick
      | setDefaultBandWidth | setDefaultQuota | setDefaultTime | setDefaultSession
      | getDefaultSession | getAllSessions | getIPs => exact ⟨rfl, rfl⟩
      | _ => exact absurd hn (by simp [Call.names])
    | some IP =>
      obtain rfl := hc (hIP IP hn ▸ hn)
      cases hr : h.record with
      | none => simp [serve, amend, withRecord_none hr, stay, hr]
      | some s => simp [serve, amend, withRecord_some hr, stay, editAt, editOf, Call.names]
  · rw [he]
    have hedit : (editAt a · c) = id := by
      funext s
      unfold editAt
      rw [hIP]
      exact if_neg hne
    rw [hedit, Option.map_id]
    exact ⟨rfl, rfl⟩

theorem keepsAlive_of_leavesAlone (hc : LeavesAlone a c) : c.keepsAlive a = true := by
  cases c with
  | pauseSession IP | endSession IP | deleteSession IP | setBandwidth IP | setQuota IP
  | setTime IP =>
    by_cases ha : IP = a
    · have hcall := hc (congrArg some ha)
      exact absurd hcall (by simp)
    · simpa [Call.keepsAlive] using ha
  | newSession | startSession | playSession | updateSession | getSession | updateQuotaRemaining
  | setDefaultBandWidth | setDefaultQuota | setDefaultTime | setDefaultSession
  | getDefaultSession | getAllSessions | getIPs | tick => rfl

theorem other_update (hc : LeavesAlone a c) (htick : c ≠ .tick) :
    (editAt a s c).updateTimeRemaining = s.updateTimeRemaining := by
  by_cases hquota : c = .updateQuotaRemaining a
  · subst hquota
    have hedit : editAt a s (.updateQuotaRemaining a) = editOf s (.updateQuotaRemaining a) :=
      if_pos rfl
    rw [hedit]
    rfl
  · have hupdate : c ≠ .updateSession a := by
      rintro rfl
      exact absurd (hc rfl) (by simp)
    rw [editAt_quiet (keepsAlive_of_leavesAlone hc) htick hupdate hquota]

theorem other_removals (hc : LeavesAlone a c) :
    RemovalsSucceed (step a s₀ .success h c).issued := by
  by_cases htick : c = .tick
  · subst htick
    exact tick_removals a h
  · rw [(other_record hc htick).2]
    exact fun e he => absurd he List.not_mem_nil

/-- A session that was not STARTED and is so after a tick has the full update timer. -/
theorem other_restarted (hc : LeavesAlone a c)
    (hr' : (step a s₀ .success h c).host.record = some s') (hst' : s'.state = .started)
    (hnot : ∀ s, h.record = some s → s.state ≠ .started) :
    s'.updateTimeRemaining = UPDATE_TIME := by
  by_cases htick : c = .tick
  · subst htick
    cases hr : h.record with
    | none =>
      have habsent : (step a s₀ .success h .tick).host.record = none := step_absent hr hc
      exact absurd (habsent.symm.trans hr') (by simp)
    | some s =>
      cases tick_passed (tick_removals a h) hr hr' with
      | started hst => exact absurd hst (hnot s hr)
      | exhausted hst =>
        dsimp only at hst'
        split at hst'
        · exact absurd hst' (by simp)
        · exact absurd hst' (by simp)
      | paused hst | rearmed hst => exact absurd (hst.symm.trans hst') (by simp)
      | resumed => rfl
      | ended hst => exact absurd (hst.symm.trans hst') (by simp)
      | uninitialized hst => exact absurd (hst.symm.trans hst') (by simp)
  · rw [(other_record hc htick).1, Option.map_eq_some_iff] at hr'
    obtain ⟨s, hr, rfl⟩ := hr'
    rw [editAt_state htick] at hst'
    exact absurd hst' (hnot s hr)

/-- A session with limits left can be started, or is. -/
theorem serve_start (hx : isExhausted (h.record.getD s₀) = false) :
    (serve a s₀ .success h (.startSession a)).status = 0 ∧
      (serve a s₀ .success h (.startSession a)).host.record =
        some (if (h.record.getD s₀).state = .started then h.record.getD s₀
          else startedRecord (h.record.getD s₀)) := by
  simp only [serve, start, startRecord]
  by_cases hst : (h.record.getD s₀).state = .started
  · rw [if_pos hst, if_pos hst]
    exact ⟨rfl, rfl⟩
  · rw [if_neg hst, if_neg hst, if_pos hx]
    exact ⟨rfl, rfl⟩

/-- Starting leaves the limits as they were. -/
theorem serve_start_limits (hr' : (serve a s₀ .success h (.startSession a)).host.record = some s') :
    isExhausted s' = isExhausted (h.record.getD s₀) := by
  have hrec : (startRecord a 0 (h.record.getD s₀) h).host.record = some s' := hr'
  rcases startRecord_record a 0 (h.record.getD s₀) h with hsame | ⟨hstarted, -⟩
  · obtain rfl := Option.some.inj (hsame.symm.trans hrec)
    rfl
  · obtain rfl := Option.some.inj (hstarted.symm.trans hrec)
    rfl

end Host

/-! ## The session -/

variable {remote : RemoteAddr} {locals : Locals} {a : String} {w w' : GwWorld} {i : Call}
  {issued : List (Command × Int)} {k d n : Nat}

/-- The session of `a` is STARTED, and its update timer lacks at most `n` ticks. -/
def GwWorld.Spare (w : GwWorld) (a : String) (n : Nat) : Prop :=
  ∃ s, w.mem.record a = some s ∧ s.state = .started ∧
    UPDATE_TIME.toNat ≤ s.updateTimeRemaining.toNat + n

/-- The session of `a` has not used up its limits. -/
def GwWorld.InLimits (w : GwWorld) (a : String) : Prop :=
  ∀ s, w.mem.record a = some s → isExhausted s = false

instance (w : GwWorld) (a : String) : Decidable (w.InLimits a) :=
  decidable_of_iff (∀ s ∈ w.mem.record a, isExhausted s = false) Iff.rfl

/-- The activity timer is as it was set. -/
def GwWorld.Active (w : GwWorld) (a : String) : Prop :=
  ∀ s, w.mem.record a = some s → s.activityTimeRemaining = ACTIVITY_TIME

theorem GwWorld.Spare.mono {n m : Nat} (h : w.Spare a n) (hle : n ≤ m) : w.Spare a m := by
  obtain ⟨s, hr, hst, hn⟩ := h
  exact ⟨s, hr, hst, Nat.le_trans hn (Nat.add_le_add_left hle _)⟩

/-- A call that succeeds, seen from one host. -/
theorem ActsOnAll.success (hacts : ActsOnAll succeeding w w' issued fun a x h =>
    Host.step a (w.mem.initSession a) x h i) (a : String) :
    w'.host a = (Host.step a (w.mem.initSession a) .success (w.host a) i).host := by
  obtain ⟨x, hx, hhost, -⟩ := hacts.hosts a
  obtain rfl := allDrawn_succeeding hx
  exact hhost

/-- The step lemma of a STARTED session: it goes on as long as there is time left to the update
timer, and a tick takes one unit of that. -/
theorem GwWorld.Spare.other (h : w.Spare a n) (hacts : ActsOnAll succeeding w w' issued
      fun a x h => Host.step a (w.mem.initSession a) x h i)
    (hi : Host.LeavesAlone a i) (hactive : w.Active a) (hlimits : w'.InLimits a)
    (hn : i = .tick → n + 1 < UPDATE_TIME.toNat) :
    w'.Spare a (if i = .tick then n + 1 else n) := by
  obtain ⟨s, hr, hst, hlack⟩ := h
  have hkeeps := Host.keepsAlive_of_leavesAlone hi
  have hr' : w'.mem.record a = some (Host.keptAlive a s i) :=
    (congrArg Host.record (hacts.success a)).trans (Host.step_keptAlive (h := w.host a) hr hst
      hkeeps (Host.other_removals hi).own)
  refine ⟨_, hr', ?_⟩
  have hx := hlimits _ hr'
  by_cases htick : i = .tick
  · subst htick
    have hn' := hn rfl
    have hcount : (Host.keptAlive a s .tick).updateTimeRemaining.toNat =
        s.updateTimeRemaining.toNat - 1 := toNat_countdown _
    have hlack' : UPDATE_TIME.toNat ≤
        (Host.keptAlive a s .tick).updateTimeRemaining.toNat + (n + 1) := by
      rw [hcount]
      omega
    refine ⟨?_, by rw [if_pos rfl]; exact hlack'⟩
    -- the tick neither ends it nor exhausts it
    have hupdate : (countStarted s).updateTimeRemaining ≠ 0 := by
      intro h0
      have hzero : (Host.keptAlive a s .tick).updateTimeRemaining.toNat = 0 :=
        congrArg UInt32.toNat h0
      omega
    have hactivity : (countStarted s).activityTimeRemaining ≠ 0 := by
      have hset : (countStarted s).activityTimeRemaining = ACTIVITY_TIME := hactive s hr
      rw [hset]
      decide
    have hx' : isExhausted (countStarted s) = false := hx
    show Host.stateAfter (countStarted s) = .started
    unfold Host.stateAfter
    rw [if_neg (fun hout => hout.elim hupdate hactivity), hx']
    exact hst
  · rw [if_neg htick]
    have hkept : Host.keptAlive a s i = Host.editAt a s i := if_neg htick
    rw [hkept, Host.editAt_state htick]
    refine ⟨hst, ?_⟩
    rw [Host.other_update hi htick]
    exact hlack

/-- While the window waits for the session to be started, a session that is STARTED anyway has just
been resumed, or goes on. -/
theorem ActsOnAll.waits_for_start {m : Nat} (hacts : ActsOnAll succeeding w w' issued
      fun a x h => Host.step a (w.mem.initSession a) x h i)
    (hi : Host.LeavesAlone a i)
    (hspare : ∀ s, w.mem.record a = some s → s.state = .started →
      UPDATE_TIME.toNat ≤ s.updateTimeRemaining.toNat + n)
    (hnext : w.Spare a n → w'.Spare a m) :
    ∀ s, w'.mem.record a = some s → s.state = .started →
      UPDATE_TIME.toNat ≤ s.updateTimeRemaining.toNat + m := by
  intro s' hr' hst'
  by_cases hstarted : ∃ s, w.mem.record a = some s ∧ s.state = .started
  · obtain ⟨s, hr, hst⟩ := hstarted
    obtain ⟨s₁, hr₁, -, hlack⟩ := hnext ⟨s, hr, hst, hspare s hr hst⟩
    obtain rfl := Option.some.inj (hr₁.symm.trans hr')
    exact hlack
  · have hfull := Host.other_restarted (h := w.host a) hi
      ((congrArg Host.record (hacts.success a)).symm.trans hr') hst'
      fun s hr hst => hstarted ⟨s, hr, hst⟩
    rw [hfull]
    exact Nat.le_add_right _ _

/-- A call of the page for a STARTED session: an update gives it the full timer, and asking for the
stats leaves it as it is. -/
theorem GwWorld.Spare.serve {p : PanelCall} {ans : PanelAnswer} (h : w.Spare a n)
    (hresponds : Responds a p succeeding w ans w' issued)
    (hp : p = .updateSession ∨ p = .getSessionStats) :
    (p = .updateSession → w'.Spare a 0 ∧ ans = .result .ok) ∧
      (p = .getSessionStats → w'.Spare a n ∧
        ∃ s, s.state = .started ∧ ans = .result (.stats (Api.fieldsOf s))) := by
  obtain ⟨s, hr, hst, hlack⟩ := h
  obtain ⟨x, hx, hhost, hans⟩ := hresponds.answers
  have hrecord : (w.host a).record = some s := hr
  rcases hp with rfl | rfl
  · refine ⟨fun _ => ?_, fun h => absurd h (by simp)⟩
    rw [if_neg (by simp)] at hans
    obtain ⟨message, hans⟩ := hans
    simp only [PanelCall.gateway, Api.GatewayCall.meant, Host.serve, Host.amend,
      Host.withRecord_some hrecord, Host.stay] at hhost hans
    refine ⟨⟨_, congrArg Host.record hhost, hst, ?_⟩, ?_⟩
    · exact Nat.le_refl _
    · simpa using hans
  · refine ⟨fun h => absurd h (by simp), fun _ => ?_⟩
    rw [if_pos rfl] at hans
    have hsame : w'.host a = w.host a := hhost
    refine ⟨⟨s, (congrArg Host.record hsame).trans hr, hst, hlack⟩, _, ?_, hans⟩
    unfold GwWorld.seen
    rw [hr]
    exact hst

/-- The call that starts the session. -/
theorem Responds.started {ans : PanelAnswer}
    (hresponds : Responds a .startSession succeeding w ans w' issued)
    (hlimits : w'.InLimits a)
    (hspare : ∀ s, w.mem.record a = some s → s.state = .started →
      UPDATE_TIME.toNat ≤ s.updateTimeRemaining.toNat + n) :
    w'.Spare a n ∧ ans = .result .ok := by
  obtain ⟨x, hx, hhost, hans⟩ := hresponds.answers
  obtain rfl := allDrawn_succeeding hx
  rw [if_neg (by simp)] at hans
  obtain ⟨message, hans⟩ := hans
  have hhost' : w'.host a = (Host.serve a (w.mem.initSession a) .success (w.host a)
    (.startSession a)).host := hhost
  have hr' : ∃ s', w'.mem.record a = some s' := by
    rcases Host.startRecord_record a 0 ((w.host a).record.getD (w.mem.initSession a)) (w.host a)
      with h | ⟨h, -⟩
    · exact ⟨_, (congrArg Host.record hhost').trans h⟩
    · exact ⟨_, (congrArg Host.record hhost').trans h⟩
  obtain ⟨s', hr'⟩ := hr'
  have hx' : isExhausted ((w.host a).record.getD (w.mem.initSession a)) = false := by
    rw [← Host.serve_start_limits ((congrArg Host.record hhost').symm.trans hr')]
    exact hlimits s' hr'
  obtain ⟨hstatus, hrecord⟩ := @Host.serve_start a (w.mem.initSession a) _ hx'
  refine ⟨⟨_, (congrArg Host.record hhost').trans hrecord, ?_⟩, ?_⟩
  · split
    · next hst =>
      refine ⟨hst, ?_⟩
      cases hr : w.mem.record a with
      | none =>
        have hnew : (w.host a).record.getD (w.mem.initSession a) = w.mem.initSession a := by
          simp [GwWorld.host, hr]
        rw [hnew] at hst
        exact absurd hst (by simp [Controller.initSession])
      | some s =>
        have hsame : (w.host a).record.getD (w.mem.initSession a) = s := by
          simp [GwWorld.host, hr]
        rw [hsame] at hst ⊢
        exact hspare s hr hst
    · exact ⟨rfl, Nat.le_add_right _ _⟩
  · have hstatus' : (Host.serve a (w.mem.initSession a) Outcomes.success (w.host a)
        (PanelCall.startSession.gateway a).meant).status = 0 := hstatus
    rw [if_neg (fun hne => hne hstatus')] at hans
    exact hans

/-! ## The window -/

/-- Nothing happens to the window but what its own script does, nothing is lost and all commands
succeed; others make no calls for the host `a`. -/
def WindowEvent.Steady (a : String) : WindowEvent → Prop
  | .other i o => Host.LeavesAlone a i ∧ o = succeeding
  | .serve _ o => o = succeeding
  | .receive _ | .interval | .leave => True
  | .lose _ | .drop _ | .clickPause | .clickEnd | .close => False

namespace Window

variable {c c' : Window} {e : WindowEvent} {events : List WindowEvent}

/-- The interval of the update timer takes at most `k` ticks, and a call or an answer is under way
for at most `d`. -/
structure OnTime (k d : Nat) (c : Window) : Prop where
  interval : c.page.updateTimer = true → c.idle ≤ k
  requests : ∀ r ∈ c.requests, r.2 ≤ d
  answers : ∀ r ∈ c.answers, r.2.2 ≤ d

instance (k d : Nat) (c : Window) : Decidable (OnTime k d c) :=
  decidable_of_iff ((c.page.updateTimer = true → c.idle ≤ k) ∧ (∀ r ∈ c.requests, r.2 ≤ d) ∧
      ∀ r ∈ c.answers, r.2.2 ≤ d)
    ⟨fun h => ⟨h.1, h.2.1, h.2.2⟩, fun h => ⟨h.interval, h.requests, h.answers⟩⟩

/-- How far the window has come, and what the update timer of the session lacks at most. -/
inductive Phase (a : String) (k d : Nat) (c : Window) : Prop
  /-- The session is to be started. -/
  | asking (t : Nat) (hrequests : c.requests = [(.startSession, t)]) (hanswers : c.answers = [])
      (htimer : c.page.updateTimer = false) (hidle : c.idle = 0)
      (hspare : ∀ s, c.world.mem.record a = some s → s.state = .started →
        UPDATE_TIME.toNat ≤ s.updateTimeRemaining.toNat + t)
  /-- It is started, which the page does not know yet. -/
  | answered (t : Nat) (hrequests : c.requests = [])
      (hanswers : c.answers = [(.startSession, .result .ok, t)])
      (htimer : c.page.updateTimer = false) (hidle : c.idle = 0)
      (hspare : c.world.Spare a (d + t))
  /-- The page asks for updates. The timer lacks what it took an update to get here, or what the
  interval has taken. -/
  | going (htimer : c.page.updateTimer = true)
      (hrequests : ∀ r ∈ c.requests, r.1 = .updateSession ∨ r.1 = .getSessionStats)
      (hanswers : ∀ r ∈ c.answers, r.1 = .updateSession ∧ r.2.1 = .result .ok ∨
        r.1 = .getSessionStats ∧ ∃ s, s.state = .started ∧
          r.2.1 = .result (.stats (Api.fieldsOf s)))
      (hspare : (∃ t, (PanelCall.updateSession, t) ∈ c.requests ∧
          c.world.Spare a (t + k + 2 * d)) ∨
        (∀ t, (PanelCall.updateSession, t) ∉ c.requests) ∧ c.world.Spare a (c.idle + 2 * d))

/-- The window is open and stays so. -/
structure Kept (a : String) (k d : Nat) (c : Window) : Prop where
  gone : c.gone = false
  leaving : c.page.leaving = 0
  phase : Phase a k d c

/-- A tick or a call of someone else. -/
theorem Kept.other {i : Call} {issued : List (Command × Int)} {w' : GwWorld} (h : Kept a k d c)
    (hacts : ActsOnAll succeeding c.world w' issued fun a x h =>
      Host.step a (c.world.mem.initSession a) x h i)
    (hi : Host.LeavesAlone a i) (hkd : k + 3 * d < UPDATE_TIME.toNat)
    (hactive : c.world.Active a) (hlimits : w'.InLimits a)
    (hontime : OnTime k d
      { (if i = .tick then c.aged else c) with world := w', issued := issued ++ c.issued }) :
    Kept a k d
      { (if i = .tick then c.aged else c) with world := w', issued := issued ++ c.issued } := by
  obtain ⟨hgone, hleaving, hphase⟩ := h
  by_cases htick : i = .tick
  · rw [if_pos htick] at hontime ⊢
    obtain ⟨hinterval, hrequests', hanswers'⟩ := hontime
    -- what the timer lacks after the tick
    have hspare' : ∀ n, c.world.Spare a n → n + 1 < UPDATE_TIME.toNat → w'.Spare a (n + 1) := by
      intro n hspare hn
      have hnext := hspare.other hacts hi hactive hlimits fun _ => hn
      rwa [if_pos htick] at hnext
    refine ⟨hgone, hleaving, ?_⟩
    cases hphase with
    | asking t hrequests hanswers htimer hidle hspare =>
      refine .asking (t + 1) (by simp [aged, hrequests]) (by simp [aged, hanswers]) htimer
        (if_neg (by simp [htimer]))
        (hacts.waits_for_start hi hspare fun hstarted => hspare' t hstarted ?_)
      have hle : t + 1 ≤ d := hrequests' (.startSession, t + 1) (by simp [aged, hrequests])
      omega
    | answered t hrequests hanswers htimer hidle hspare =>
      refine .answered (t + 1) (by simp [aged, hrequests]) (by simp [aged, hanswers]) htimer
        (if_neg (by simp [htimer])) (hspare' (d + t) hspare ?_)
      have hle : t + 1 ≤ d := hanswers' (.startSession, .result .ok, t + 1) (by
        simp [aged, hanswers])
      omega
    | going htimer hrequests hanswers hspare =>
      refine .going htimer (fun r hr => ?_) (fun r hr => ?_) ?_
      · obtain ⟨r', hr', rfl⟩ := List.mem_map.mp hr
        exact hrequests r' hr'
      · obtain ⟨r', hr', rfl⟩ := List.mem_map.mp hr
        exact hanswers r' hr'
      · rcases hspare with ⟨t, hmem, hspare⟩ | ⟨hnone, hspare⟩
        · have hmem' : (PanelCall.updateSession, t + 1) ∈ c.aged.requests :=
            List.mem_map.mpr ⟨_, hmem, rfl⟩
          have hle : t + 1 ≤ d := hrequests' _ hmem'
          refine .inl ⟨t + 1, hmem', (hspare' _ hspare (by omega)).mono (by omega)⟩
        · refine .inr ⟨fun t hmem => ?_, ?_⟩
          · obtain ⟨⟨p, t'⟩, hmem', heq⟩ := List.mem_map.mp hmem
            obtain ⟨rfl, -⟩ : p = .updateSession ∧ t' + 1 = t := by simpa using heq
            exact hnone t' hmem'
          · have hidle : c.aged.idle = c.idle + 1 := if_pos htimer
            have hle : c.idle + 1 ≤ k := hidle ▸ hinterval htimer
            show w'.Spare a (c.aged.idle + 2 * d)
            rw [hidle]
            exact (hspare' _ hspare (by omega)).mono (by omega)
  · rw [if_neg htick]
    have hspare' : ∀ n, c.world.Spare a n → w'.Spare a n := by
      intro n hspare
      have hnext := hspare.other hacts hi hactive hlimits fun h => absurd h htick
      rwa [if_neg htick] at hnext
    refine ⟨hgone, hleaving, ?_⟩
    cases hphase with
    | asking t hrequests hanswers htimer hidle hspare =>
      exact .asking t hrequests hanswers htimer hidle
        (hacts.waits_for_start hi hspare fun hstarted => hspare' t hstarted)
    | answered t hrequests hanswers htimer hidle hspare =>
      exact .answered t hrequests hanswers htimer hidle (hspare' _ hspare)
    | going htimer hrequests hanswers hspare =>
      refine .going htimer hrequests hanswers ?_
      rcases hspare with ⟨t, hmem, hspare⟩ | ⟨hnone, hspare⟩
      · exact .inl ⟨t, hmem, hspare' _ hspare⟩
      · exact .inr ⟨hnone, hspare' _ hspare⟩

theorem mem_eraseIdx_of_ne {α : Type} {l : List α} {x y : α} {n : Nat} (hn : l[n]? = some y)
    (hx : x ∈ l) (hne : x ≠ y) : x ∈ l.eraseIdx n := by
  obtain ⟨m, hm⟩ := List.mem_iff_getElem?.mp hx
  refine List.mem_eraseIdx_iff_getElem?.mpr ⟨m, fun heq => ?_, hm⟩
  rw [heq, hn] at hm
  exact hne (Option.some.inj hm).symm

/-- The gateway serves a call of the page. -/
theorem Kept.serve {m t : Nat} {p : PanelCall} {ans : PanelAnswer} {w' : GwWorld}
    {issued : List (Command × Int)} (h : Kept a k d c) (hn : c.requests[m]? = some (p, t))
    (hresponds : Responds a p succeeding c.world ans w' issued) (hlimits : w'.InLimits a)
    (hontime : OnTime k d c) :
    Kept a k d { c with
      requests := c.requests.eraseIdx m
      answers := c.answers ++ [(p, ans, 0)]
      world := w'
      issued := issued ++ c.issued } := by
  obtain ⟨hgone, hleaving, hphase⟩ := h
  refine ⟨hgone, hleaving, ?_⟩
  cases hphase with
  | asking t' hrequests hanswers htimer hidle hspare =>
    rw [hrequests] at hn ⊢
    obtain ⟨rfl, heq⟩ := eq_zero_of_getElem? hn
    obtain ⟨rfl, rfl⟩ : PanelCall.startSession = p ∧ t' = t := by simpa using heq
    obtain ⟨hstarted, rfl⟩ := hresponds.started hlimits hspare
    have hle : t' ≤ d := hontime.requests (.startSession, t') (by simp [hrequests])
    exact .answered 0 rfl (by simp [hanswers]) htimer hidle (hstarted.mono hle)
  | answered t' hrequests =>
    rw [hrequests] at hn
    exact absurd hn (by simp)
  | going htimer hrequests hanswers hspare =>
    have hp : p = .updateSession ∨ p = .getSessionStats :=
      hrequests (p, t) (List.mem_of_getElem? hn)
    have hrequests' : ∀ r ∈ c.requests.eraseIdx m, r.1 = .updateSession ∨ r.1 = .getSessionStats :=
      fun r hr => hrequests r (List.mem_of_mem_eraseIdx hr)
    have hlack : ∃ n, c.world.Spare a n := by
      rcases hspare with ⟨t, -, hspare⟩ | ⟨-, hspare⟩
      · exact ⟨_, hspare⟩
      · exact ⟨_, hspare⟩
    rcases hp with rfl | rfl
    · obtain ⟨n, hlack⟩ := hlack
      obtain ⟨hfull, rfl⟩ := (hlack.serve hresponds (.inl rfl)).1 rfl
      refine .going htimer hrequests' (fun r hr => ?_) ?_
      · rcases List.mem_append.mp hr with hr | hr
        · exact hanswers r hr
        · obtain rfl := List.mem_singleton.mp hr
          exact .inl ⟨rfl, rfl⟩
      · -- the timer is full, whatever else is under way
        by_cases hmore : ∃ t, (PanelCall.updateSession, t) ∈ c.requests.eraseIdx m
        · obtain ⟨t₁, hmem⟩ := hmore
          exact .inl ⟨t₁, hmem, hfull.mono (Nat.zero_le _)⟩
        · exact .inr ⟨fun t₁ hmem => hmore ⟨t₁, hmem⟩, hfull.mono (Nat.zero_le _)⟩
    · have hserve : ∀ n, c.world.Spare a n → w'.Spare a n ∧
          ∃ s, s.state = .started ∧ ans = .result (.stats (Api.fieldsOf s)) :=
        fun n hspare => (hspare.serve hresponds (.inr rfl)).2 rfl
      obtain ⟨n, hlack⟩ := hlack
      obtain ⟨s, hst, rfl⟩ := (hserve n hlack).2
      refine .going htimer hrequests' (fun r hr => ?_) ?_
      · rcases List.mem_append.mp hr with hr | hr
        · exact hanswers r hr
        · obtain rfl := List.mem_singleton.mp hr
          exact .inr ⟨rfl, s, hst, rfl⟩
      · rcases hspare with ⟨t₁, hmem, hspare⟩ | ⟨hnone, hspare⟩
        · exact .inl ⟨t₁, mem_eraseIdx_of_ne hn hmem (by simp), (hserve _ hspare).1⟩
        · exact .inr ⟨fun t₁ hmem => hnone t₁ (List.mem_of_mem_eraseIdx hmem), (hserve _ hspare).1⟩

/-- The page gets an answer. -/
theorem Kept.receive {m t : Nat} {p : PanelCall} {ans : PanelAnswer} (h : Kept a k d c)
    (hn : c.answers[m]? = some (p, ans, t)) (hontime : OnTime k d c) :
    Kept a k d ({ c with answers := c.answers.eraseIdx m }.handled (ajaxEnd p ans c.page)) := by
  obtain ⟨hgone, hleaving, hphase⟩ := h
  cases hphase with
  | asking t' hrequests hanswers =>
    rw [hanswers] at hn
    exact absurd hn (by simp)
  | answered t' hrequests hanswers htimer hidle hspare =>
    have hle : t' ≤ d := hontime.answers (.startSession, .result .ok, t') (by simp [hanswers])
    rw [hanswers] at hn
    obtain ⟨rfl, heq⟩ := eq_zero_of_getElem? hn
    obtain ⟨rfl, rfl, rfl⟩ : PanelCall.startSession = p ∧ PanelAnswer.result .ok = ans ∧
      t' = t := by simpa using heq
    have hset : ajaxEnd .startSession (.result .ok) c.page =
        ({ c.page with updateTimer := true }, [.getSessionStats]) := rfl
    rw [hset]
    refine ⟨hgone, hleaving, .going rfl (fun r hr => ?_) (fun r hr => ?_) (.inr ⟨fun t hmem => ?_,
      ?_⟩)⟩
    · obtain rfl : r = (.getSessionStats, 0) := by simpa [handled, hrequests] using hr
      exact .inr rfl
    · exact absurd hr (by simp [handled, hanswers])
    · exact absurd hmem (by simp [handled, hrequests])
    · exact hspare.mono (by omega)
  | going htimer hrequests hanswers hspare =>
    have hcalls := Web.ajaxEnd_calls p ans c.page
    have hpage : (ajaxEnd p ans c.page).1.updateTimer = true ∧
        (ajaxEnd p ans c.page).1.leaving = 0 := by
      rcases hanswers _ (List.mem_of_getElem? hn) with ⟨hp, hans⟩ | ⟨hp, s, hst, hans⟩
      · obtain rfl : p = .updateSession := hp
        obtain rfl : ans = .result .ok := hans
        exact ⟨htimer, hleaving⟩
      · obtain rfl : p = .getSessionStats := hp
        obtain rfl : ans = .result (.stats (Api.fieldsOf s)) := hans
        have hcb := Web.getSessionStatsCb_stats s c.page
        rw [hst] at hcb
        show (Web.getSessionStatsCb _ c.page).updateTimer = true ∧
          (Web.getSessionStatsCb _ c.page).leaving = 0
        rw [hcb]
        have hsame := Web.setState_started { c.page with figures := some (Web.figuresOf s) }
        exact ⟨hsame.1.trans htimer, hsame.2.trans hleaving⟩
    have hmore : ∀ r ∈ (ajaxEnd p ans c.page).2.map fun p => (p, 0), r = (.getSessionStats, 0) := by
      intro r hr
      rw [hcalls] at hr
      split at hr
      · exact absurd hr (by simp)
      · simpa using hr
    refine ⟨hgone, hpage.2, .going hpage.1 (fun r hr => ?_)
      (fun r hr => hanswers r (List.mem_of_mem_eraseIdx hr)) ?_⟩
    · rcases List.mem_append.mp hr with hr | hr
      · exact hrequests r hr
      · exact .inr (congrArg Prod.fst (hmore r hr))
    · rcases hspare with ⟨t₁, hmem, hspare⟩ | ⟨hnone, hspare⟩
      · exact .inl ⟨t₁, List.mem_append_left _ hmem, hspare⟩
      · refine .inr ⟨fun t₁ hmem => ?_, hspare⟩
        rcases List.mem_append.mp hmem with hmem | hmem
        · exact hnone t₁ hmem
        · exact absurd (hmore _ hmem) (by simp)

/-- The step lemma of a window that stays open. -/
theorem Kept.step (h : Kept a k d c) (hs : Stepped a c e c') (he : e.Steady a)
    (hkd : k + 3 * d < UPDATE_TIME.toNat) (hactive : c.world.Active a)
    (hlimits : c'.world.InLimits a) (hontime : OnTime k d c) (hontime' : OnTime k d c') :
    Kept a k d c' := by
  cases hs with
  | other hrun hacts =>
    obtain ⟨hi, rfl⟩ := he
    exact h.other hacts hi hkd hactive hlimits hontime'
  | serve hn hresponds =>
    obtain rfl : _ = succeeding := he
    exact h.serve hn hresponds hlimits hontime
  | lose | drop | clickPause | clickEnd | close => exact absurd he (by simp [WindowEvent.Steady])
  | receive hn hgone => exact h.receive hn hontime
  | ignore hn hgone => exact absurd (h.gone.symm.trans hgone) (by simp)
  | interval hgone hon =>
    obtain ⟨-, hleaving, hphase⟩ := h
    refine ⟨hgone, hleaving, ?_⟩
    cases hphase with
    | asking t hrequests hanswers htimer => exact absurd (htimer.symm.trans hon) (by simp)
    | answered t hrequests hanswers htimer => exact absurd (htimer.symm.trans hon) (by simp)
    | going htimer hrequests hanswers hspare =>
      refine .going htimer (fun r hr => ?_) hanswers (.inl ?_)
      · rcases List.mem_append.mp hr with hr | hr
        · exact hrequests r hr
        · obtain rfl : r = (.updateSession, 0) := by simpa using hr
          exact .inl rfl
      · rcases hspare with ⟨t, hmem, hspare⟩ | ⟨-, hspare⟩
        · exact ⟨t, List.mem_append_left _ hmem, hspare⟩
        · have hle : c.idle ≤ k := hontime.interval hon
          exact ⟨0, List.mem_append_right _ (by simp), hspare.mono (by omega)⟩
  | leave hleaving =>
    rw [h.leaving] at hleaving
    exact absurd hleaving (Nat.lt_irrefl 0)

/-- The run lemma. -/
theorem kept_open {w : GwWorld} (hw : Reachable w)
    (hnew : ∀ s, w.mem.record remote.text = some s → s.state ≠ .started)
    (hkd : k + 3 * d < UPDATE_TIME.toNat) (hsteady : ∀ e ∈ events, e.Steady remote.text)
    (hontime : ∀ xs b, xs <+: events → run remote locals (load w) xs = some b →
      OnTime k d b ∧ b.world.InLimits remote.text)
    (hrun : run remote locals (load w) events = some c) : Kept remote.text k d c := by
  refine run_induct (I := fun xs c => xs <+: events → Kept remote.text k d c) (fun _ => ?_)
    (fun xs b e b' hxs hb he hprefix => ?_) hrun (List.prefix_refl events)
  · exact ⟨rfl, rfl, .asking 0 rfl rfl rfl rfl fun s hr hst => absurd hst (hnew s hr)⟩
  · have hprefix' : xs <+: events := (List.prefix_append xs [e]).trans hprefix
    obtain ⟨hon, -⟩ := hontime xs b hprefix' hxs
    obtain ⟨hon', hlimits'⟩ := hontime _ b' hprefix (run_snoc hxs he)
    obtain ⟨hwf, hactive⟩ := run_kept hw
      (I := fun h => ∀ s, h.record = some s → s.activityTimeRemaining = ACTIVITY_TIME)
      (fun _ hx => absurd hx (by simp)) (fun _ b => Host.active_kept b rfl) hxs
    have hmem : e ∈ events := hprefix.subset (by simp)
    exact (hb hprefix').step (step_cases hwf he) (hsteady e hmem) hkd (hactive remote.text)
      hlimits' hon hon'

/-- What that comes to once the call that starts the session has been served. -/
theorem Kept.served (h : Kept a k d c) (hserved : ∀ t, (PanelCall.startSession, t) ∉ c.requests) :
    (∃ s, c.world.mem.record a = some s ∧ s.state = .started) ∧ c.gone = false ∧
      (c.page.updateTimer = true ∨
        ∃ t, (PanelCall.startSession, .result .ok, t) ∈ c.answers) := by
  obtain ⟨hgone, -, hphase⟩ := h
  cases hphase with
  | asking t hrequests => exact absurd (by simp [hrequests]) (hserved t)
  | answered t hrequests hanswers htimer hidle hspare =>
    obtain ⟨s, hr, hst, -⟩ := hspare
    exact ⟨⟨s, hr, hst⟩, hgone, .inr ⟨t, by simp [hanswers]⟩⟩
  | going htimer hrequests hanswers hspare =>
    refine ⟨?_, hgone, .inl htimer⟩
    rcases hspare with ⟨t, -, s, hr, hst, -⟩ | ⟨-, s, hr, hst, -⟩
    · exact ⟨s, hr, hst⟩
    · exact ⟨s, hr, hst⟩

/-- From any point of any history where the session of a visitor is not STARTED: the visitor opens
the window, clicks on nothing and leaves it open, others make no calls for it, calls and ticks run
one at a time, nothing is lost and commands succeed. If the interval takes at most `k` ticks and
messages are under way for at most `d`, with `k + 3 * d < UPDATE_TIME`, then from the moment on when
the call that starts the session is served, and as long as the limits last, the session is STARTED
and the page asks for updates, or is about to hear that the session is started. -/
theorem open_window_keeps {w : GwWorld} (hw : Reachable w)
    (hnew : ∀ s, w.mem.record remote.text = some s → s.state ≠ .started)
    (hkd : k + 3 * d < UPDATE_TIME.toNat) (hsteady : ∀ e ∈ events, e.Steady remote.text)
    (hontime : ∀ xs b, xs <+: events → run remote locals (load w) xs = some b →
      OnTime k d b ∧ b.world.InLimits remote.text)
    (hrun : run remote locals (load w) events = some c)
    (hserved : ∀ t, (PanelCall.startSession, t) ∉ c.requests) :
    (∃ s, c.world.mem.record remote.text = some s ∧ s.state = .started) ∧ c.gone = false ∧
      (c.page.updateTimer = true ∨
        ∃ t, (PanelCall.startSession, .result .ok, t) ∈ c.answers) :=
  (kept_open hw hnew hkd hsteady hontime hrun).served hserved

/-- The page hears that the session is started, asks for an update and shows the stats. -/
def openEvents : List WindowEvent :=
  [.serve 0 succeeding, .other .tick succeeding, .receive 0, .interval, .serve 1 succeeding,
    .serve 0 succeeding, .receive 1, .other .tick succeeding]

theorem open_window_keeps_openEvents :
    let c := (run Web.caller Api.emptyLocals (load GwWorld.init) openEvents).getD
      (load GwWorld.init)
    (∃ s, c.world.mem.record Web.caller.text = some s ∧ s.state = .started) ∧ c.gone = false ∧
      (c.page.updateTimer = true ∨
        ∃ t, (PanelCall.startSession, .result .ok, t) ∈ c.answers) := by
  intro c
  have hall : ∀ xs ∈ openEvents.inits, ∀ b ∈ run Web.caller Api.emptyLocals (load GwWorld.init) xs,
      OnTime 15 14 b ∧ b.world.InLimits Web.caller.text := by decide +kernel
  have hrun : run Web.caller Api.emptyLocals (load GwWorld.init) openEvents = some c :=
    (Option.some_get (by decide +kernel)).symm
  refine open_window_keeps reachable_init (k := 15) (d := 14) (fun s hs => ?_) (by decide) ?_
    (fun xs b hxs hb => hall xs ((List.mem_inits xs openEvents).mpr hxs) b hb) hrun ?_
  · exact absurd hs (by simp [GwWorld.init, Controller.init, Controller.record])
  · intro e he
    simp only [openEvents, List.mem_cons, List.not_mem_nil, or_false] at he
    rcases he with rfl | rfl | rfl | rfl | rfl | rfl | rfl | rfl
    · rfl
    · exact ⟨fun h => absurd h (by simp [Call.names]), rfl⟩
    · trivial
    · trivial
    · rfl
    · rfl
    · trivial
    · exact ⟨fun h => absurd h (by simp [Call.names]), rfl⟩
  · have hnone : ∀ r ∈ c.requests, r.1 ≠ .startSession := by decide +kernel
    exact fun t hmem => hnone _ hmem rfl

/-! ## After it is closed -/

/-- The STARTED ticks that are left to the session of `a` without calls. -/
def patienceOf (a : String) (w : GwWorld) : Nat := (w.mem.record a).elim 0 Host.patience

/-- The event is a tick that finds the session of `a` STARTED. -/
def isStartedTick (a : String) (c : Window) : WindowEvent → Bool
  | .other i _ => i == .tick && (c.world.mem.record a).any fun s => s.state == .started
  | .serve _ _ | .lose _ | .drop _ | .receive _ | .interval | .clickPause | .clickEnd | .leave
  | .close => false

/-- The ticks of a run that find the visitor's session STARTED. -/
def startedTicks (remote : RemoteAddr) (locals : Locals) : Window → List WindowEvent → Nat
  | _, [] => 0
  | c, e :: rest =>
    match step remote locals c e with
    | some c' =>
      (if isStartedTick remote.text c e then 1 else 0) + startedTicks remote locals c' rest
    | none => 0

/-- All commands succeed, and others make no calls for the host `a`. -/
def Quiet (a : String) : WindowEvent → Prop
  | .other i o => Host.LeavesAlone a i ∧ o = succeeding
  | .serve _ o => o = succeeding
  | .lose _ | .drop _ | .receive _ | .interval | .clickPause | .clickEnd | .leave | .close => True

/-- A closed window has at most so many STARTED ticks to come: those that are left to the session,
or, for each call that is under way, the full timer after it has got to the gateway. -/
structure Fades (a : String) (d n : Nat) (c : Window) : Prop where
  gone : c.gone = true
  session : patienceOf a c.world ≤ n
  requests : ∀ r ∈ c.requests, UPDATE_TIME.toNat + (d - r.2) ≤ n

theorem patienceOf_le (htimed : c.world.Timed) : patienceOf a c.world ≤ UPDATE_TIME.toNat := by
  unfold patienceOf
  cases hr : c.world.mem.record a with
  | none => exact Nat.zero_le _
  | some s => exact Host.patience_le (htimed a s hr)

/-- A tick or a call of someone else takes what it uses. -/
theorem patienceOf_other {i : Call} {issued : List (Command × Int)}
    (hacts : ActsOnAll succeeding w w' issued fun a x h =>
      Host.step a (w.mem.initSession a) x h i) (hi : Host.LeavesAlone a i) :
    patienceOf a w' + (if i = .tick ∧ ∃ s, w.mem.record a = some s ∧ s.state = .started
      then 1 else 0) ≤ patienceOf a w := by
  have hhost := hacts.success a
  unfold patienceOf
  cases hr : w.mem.record a with
  | none =>
    have habsent : w'.mem.record a = none :=
      (congrArg Host.record hhost).trans (Host.step_absent (h := w.host a) hr hi)
    rw [habsent, if_neg (by simp)]
    exact Nat.le_refl _
  | some s =>
    cases hr' : w'.mem.record a with
    | none =>
      split
      · next htick =>
        obtain ⟨rfl, s₁, hs₁, hst⟩ := htick
        obtain rfl := Option.some.inj hs₁
        show 0 + 1 ≤ Host.patience s
        unfold Host.patience
        rw [hst]
        exact Nat.le_max_right _ _
      · exact Nat.zero_le _
    | some s' =>
      have hidle := (Host.step_idles (h := w.host a) hr
        ((congrArg Host.record hhost).symm.trans hr') (Host.other_removals hi) hi).patience
      simpa using hidle

/-- The step lemma of a closed window. -/
theorem Fades.step {n : Nat} (h : Fades a d n c) (hs : Stepped a c e c') (he : Quiet a e)
    (htimed : c'.world.Timed) (hontime : ∀ r ∈ c'.requests, r.2 ≤ d) :
    ∃ m, Fades a d m c' ∧ m + (if isStartedTick a c e then 1 else 0) ≤ n := by
  obtain ⟨hgone, hsession, hrequests⟩ := h
  have hfewer : ∀ k, ∀ r ∈ c.requests.eraseIdx k, UPDATE_TIME.toNat + (d - r.2) ≤ n :=
    fun _ r hr => hrequests r (List.mem_of_mem_eraseIdx hr)
  cases hs with
  | @other i o reply issued w' hrun hacts =>
    obtain ⟨hi, rfl⟩ := he
    have hother := patienceOf_other hacts hi
    have hcount : isStartedTick a c (.other i succeeding) = true ↔
        i = .tick ∧ ∃ s, c.world.mem.record a = some s ∧ s.state = .started := by
      simp [isStartedTick, Option.any_eq_true]
    by_cases htick : i = .tick
    · rw [if_pos htick] at htimed hontime ⊢
      by_cases hnone : c.requests = []
      · -- the session has to do with what is left to it
        refine ⟨patienceOf a w', ⟨hgone, Nat.le_refl _, fun r hr => ?_⟩, ?_⟩
        · exact absurd hr (by simp [aged, hnone])
        · simp only [hcount]
          omega
      · -- all the calls have been under way for a tick more
        have haged : ∀ r ∈ c.requests, r.2 + 1 ≤ d ∧ UPDATE_TIME.toNat + (d - r.2) ≤ n :=
          fun r hr => ⟨hontime (r.1, r.2 + 1) (List.mem_map.mpr ⟨r, hr, rfl⟩), hrequests r hr⟩
        obtain ⟨r, hr⟩ := List.exists_mem_of_ne_nil _ hnone
        obtain ⟨hd, hn⟩ := haged r hr
        have hfull : patienceOf a w' ≤ UPDATE_TIME.toNat := patienceOf_le htimed
        refine ⟨n - 1, ⟨hgone, ?_, fun r' hr' => ?_⟩, ?_⟩
        · show patienceOf a w' ≤ n - 1
          omega
        · obtain ⟨r₁, hr₁, rfl⟩ := List.mem_map.mp hr'
          obtain ⟨hd₁, hn₁⟩ := haged r₁ hr₁
          dsimp only
          omega
        · split <;> omega
    · rw [if_neg htick]
      refine ⟨n, ⟨hgone, ?_, hrequests⟩, ?_⟩
      · exact Nat.le_trans (Nat.le_trans (Nat.le_add_right _ _) hother) hsession
      · rw [if_neg (fun h => htick (hcount.mp h).1)]
        exact Nat.le_refl n
  | @serve k t p o ans w' issued hn hresponds =>
    have hle : UPDATE_TIME.toNat + (d - t) ≤ n := hrequests (p, t) (List.mem_of_getElem? hn)
    have hfull : patienceOf a w' ≤ UPDATE_TIME.toNat := patienceOf_le htimed
    have hsession' : patienceOf a w' ≤ n := by omega
    exact ⟨n, ⟨hgone, hsession', hfewer k⟩, Nat.le_refl n⟩
  | lose hn => exact ⟨n, ⟨hgone, hsession, hfewer _⟩, Nat.le_refl n⟩
  | drop | ignore => exact ⟨n, ⟨hgone, hsession, hrequests⟩, Nat.le_refl n⟩
  | leave | close => exact ⟨n, ⟨rfl, hsession, hrequests⟩, Nat.le_refl n⟩
  | receive hn hopen => exact absurd (hgone.symm.trans hopen) (by simp)
  | interval hopen => exact absurd (hgone.symm.trans hopen) (by simp)
  | clickPause hopen => exact absurd (hgone.symm.trans hopen) (by simp)
  | clickEnd hopen => exact absurd (hgone.symm.trans hopen) (by simp)

theorem startedTicks_le {n : Nat} (h : Fades remote.text d n b) (hw : b.world.mem.WF)
    (htimed : b.world.Timed) (hquiet : ∀ e ∈ events, Quiet remote.text e)
    (hontime : ∀ xs c, xs <+: events → run remote locals b xs = some c →
      ∀ r ∈ c.requests, r.2 ≤ d) :
    startedTicks remote locals b events ≤ n := by
  induction events generalizing b n with
  | nil => exact Nat.zero_le n
  | cons e rest ih =>
    unfold startedTicks
    cases he : step remote locals b e with
    | none => exact Nat.zero_le n
    | some c =>
      have hs := step_cases hw he
      have htimed' : c.world.Timed :=
        hs.kept hw (fun _ a => Host.timed_kept a (UInt32.le_refl _)) htimed
      have hon : ∀ r ∈ c.requests, r.2 ≤ d :=
        hontime [e] c (List.prefix_append [e] rest) (by simp [run, he])
      obtain ⟨m, hm, hle⟩ := h.step hs (hquiet e List.mem_cons_self) htimed' hon
      have hrest : startedTicks remote locals c rest ≤ m := by
        refine ih hm (hs.wf hw) htimed' (fun e' he' => hquiet e' (List.mem_cons_of_mem e he'))
          fun xs c' hxs hrun => hontime (e :: xs) c' ((List.prefix_cons_inj e).mpr hxs) ?_
        simpa [run, he] using hrun
      dsimp only
      omega

/-- In any history of calls and ticks one at a time: once a window is gone, and nobody else makes
calls for the visitor, its session is STARTED at no more than `UPDATE_TIME` ticks and as many more
as calls of the window can be under way, even if some of them get to the gateway only then. -/
theorem closed_window_ends {w : GwWorld} (hw : Reachable w)
    (hrun : run remote locals (load w) xs = some b) (hgone : b.gone = true)
    (hquiet : ∀ e ∈ events, Quiet remote.text e)
    (hontime : ∀ zs c, zs <+: events → run remote locals b zs = some c →
      ∀ r ∈ c.requests, r.2 ≤ d) :
    startedTicks remote locals b events ≤ d + UPDATE_TIME.toNat := by
  obtain ⟨hwf, htimed⟩ := run_kept hw (I := Host.Timed) (fun _ hs => absurd hs (by simp))
    (fun _ a => Host.timed_kept a (UInt32.le_refl _)) hrun
  refine startedTicks_le ⟨hgone, ?_, fun r _ => ?_⟩ hwf htimed hquiet hontime
  · exact Nat.le_trans (patienceOf_le htimed) (Nat.le_add_left _ _)
  · omega

/-- The session is started and the window closed, with an update still on its way. -/
def closeEvents : List WindowEvent := [.serve 0 succeeding, .receive 0, .interval, .close]

def afterEvents : List WindowEvent :=
  [.other .tick succeeding, .other .tick succeeding, .serve 1 succeeding, .other .tick succeeding]

theorem closed_window_ends_afterEvents :
    let b := (run Web.caller Api.emptyLocals (load GwWorld.init) closeEvents).getD
      (load GwWorld.init)
    startedTicks Web.caller Api.emptyLocals b afterEvents ≤ 3 + UPDATE_TIME.toNat := by
  intro b
  have hrun : run Web.caller Api.emptyLocals (load GwWorld.init) closeEvents = some b :=
    (Option.some_get (by decide +kernel)).symm
  have hall : ∀ zs ∈ afterEvents.inits, ∀ c ∈ run Web.caller Api.emptyLocals b zs,
      ∀ r ∈ c.requests, r.2 ≤ 3 := by decide +kernel
  refine closed_window_ends reachable_init hrun (by decide +kernel) ?_
    fun zs c hzs hc => hall zs ((List.mem_inits zs afterEvents).mpr hzs) c hc
  intro e he
  simp only [afterEvents, List.mem_cons, List.not_mem_nil, or_false] at he
  rcases he with rfl | rfl | rfl | rfl
  · exact ⟨fun h => absurd h (by simp [Call.names]), rfl⟩
  · exact ⟨fun h => absurd h (by simp [Call.names]), rfl⟩
  · rfl
  · exact ⟨fun h => absurd h (by simp [Call.names]), rfl⟩

end Window

end WifiGateway
