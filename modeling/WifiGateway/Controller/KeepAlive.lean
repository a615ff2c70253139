import WifiGateway.Controller.Stays

/-!
# Keeping a session alive

A client that wants its session to go on calls `updateSession` from time to time. This module says
when that is often enough. As long as nobody pauses, ends or deletes the session or sets its limits,
what is left of its timers can be read off the calls: the update timer off the ticks since the last
update (`sinceUpdate`), the limits off the ticks and the quota events (`unspent`). The step lemma is
`Alive.step`.

`started_iff_inTime`: the session stays STARTED exactly as long as every tick comes in time for all
three of them.
-/

namespace WifiGateway

open Waiting (Code Oracle)

/-- A call that a client makes for a session that is to go on, or one that is not about `a`. -/
def Call.keepsAlive (a : String) : Call → Bool
  | .pauseSession IP | .endSession IP | .deleteSession IP | .setBandwidth IP _ | .setQuota IP _
  | .setTime IP _ => IP != a
  | .newSession _ | .startSession _ | .playSession _ | .updateSession _ | .getSession _
  | .updateQuotaRemaining _ | .setDefaultBandWidth _ | .setDefaultQuota _ | .setDefaultTime _
  | .setDefaultSession _ | .getDefaultSession | .getAllSessions | .getIPs | .tick => true

/-- The ticks since the last update of `a`, the last one being `t` ticks before the calls. -/
def sinceUpdate (a : String) (t : Nat) (calls : List Call) : Nat :=
  calls.foldl (fun t c => if c = .updateSession a then 0 else if c = .tick then t + 1 else t) t

theorem sinceUpdate_append (a : String) (t : Nat) (calls : List Call) (c : Call) :
    sinceUpdate a t (calls ++ [c]) = if c = .updateSession a then 0
      else if c = .tick then sinceUpdate a t calls + 1 else sinceUpdate a t calls := by
  simp [sinceUpdate]

/-- What is left of a limit after so many units; a negative one is no limit. -/
def unspent (limit : Int) (used : Nat) : Int := if limit < 0 then limit else max (limit - used) 0

theorem unspent_succ (limit : Int) (used : Nat) :
    unspent limit (used + 1) =
      if unspent limit used > 0 then unspent limit used - 1 else unspent limit used := by
  unfold unspent
  split
  · next hneg => rw [if_neg (by omega)]
  · split
    · omega
    · omega

theorem unspent_ne_zero {limit : Int} {used : Nat} :
    unspent limit used ≠ 0 ↔ limit < 0 ∨ (used : Int) < limit := by
  unfold unspent
  split
  · omega
  · omega

/-- A unit of a limit is used up. -/
theorem toInt_used (t : Int32) :
    (if t > 0 then t - 1 else t).toInt = if t.toInt > 0 then t.toInt - 1 else t.toInt := by
  have hpos : t > 0 ↔ t.toInt > 0 := Int32.lt_iff_toInt_lt
  by_cases h : t > 0
  · rw [if_pos h, if_pos (hpos.mp h), pred_toInt h]
  · rw [if_neg h, if_neg fun hx => h (hpos.mpr hx)]

theorem toNat_countdown (t : UInt32) : (countdown t).toNat = t.toNat - 1 := by
  by_cases h : countdown t = 0
  · have hle : t.toNat ≤ 1 := UInt32.le_iff_toNat_le.mp (countdown_eq_zero.mp h)
    rw [h]
    show 0 = t.toNat - 1
    omega
  · have hdec := countdown_toNat h
    omega

namespace Host

variable {a : String} {s s' s₀ : Session} {h : Host} {o : Outcomes} {c : Call} {cs : List Call}

/-- The commands of a tick for a host are about that host. -/
theorem tick_about (a : String) (o : Outcomes) (h : Host) :
    ∀ e ∈ (tick a o h).issued, e.1.host = some a := by
  have hnone : ∀ e ∈ ([] : List (Command × Int)), e.1.host = some a :=
    fun e he => absurd he List.not_mem_nil
  unfold tick
  cases hr : h.record with
  | none => exact hnone
  | some s =>
    unfold tickRecord
    dsimp only
    cases hst : s.state with
    | started =>
      intro e he
      rcases List.mem_append.mp he with he | he
      · rcases List.mem_append.mp he with he | he
        · exact finishAt_turn.about e he
        · exact finishAt_turn.about e he
      · exact exhaustIf_turn.about e he
    | exhausted =>
      intro e he
      rcases List.mem_append.mp he with he | he
      · exact finishAt_turn.about e he
      · exact finishAt_turn.about e he
    | paused =>
      dsimp only
      split
      · exact play_turn.about
      · exact hnone
    | ended =>
      dsimp only
      split
      · exact hnone
      · exact hnone
    | uninitialized => exact hnone

/-- No removal of the host itself was refused. -/
def OwnRemovalsSucceed (a : String) (issued : List (Command × Int)) : Prop :=
  ∀ e ∈ issued, e.1 = .removeHost a → e.2 = 0

instance (a : String) (issued : List (Command × Int)) : Decidable (OwnRemovalsSucceed a issued) :=
  inferInstanceAs (Decidable (∀ e ∈ issued, e.1 = .removeHost a → e.2 = 0))

theorem OwnRemovalsSucceed.subset {l l' : List (Command × Int)} (hl : OwnRemovalsSucceed a l')
    (hsub : l ⊆ l') : OwnRemovalsSucceed a l := fun e hm => hl e (hsub hm)

/-- The removals of a tick for the host are the host's own. -/
theorem OwnRemovalsSucceed.tick (hok : OwnRemovalsSucceed a (tick a o h).issued) :
    RemovalsSucceed (Host.tick a o h).issued := by
  intro e he hrem
  have habout := tick_about a o h e he
  refine hok e he ?_
  cases hcmd : e.1 with
  | removeHost IP =>
    rw [hcmd] at habout
    exact congrArg Command.removeHost (Option.some.inj habout)
  | addHost | cleanUp => exact absurd hrem (by simp [hcmd, Command.isRemoval])

theorem RemovalsSucceed.own {l : List (Command × Int)} (hl : RemovalsSucceed l) :
    OwnRemovalsSucceed a l :=
  fun e he hcmd => hl e he (by rw [hcmd, Command.isRemoval])

/-- The record of a STARTED session after such a call. -/
def keptAlive (a : String) (s : Session) (c : Call) : Session :=
  if c = .tick then { countStarted s with state := stateAfter (countStarted s) } else editAt a s c

/-- The step lemma: what such a call makes of a STARTED session, its removal not refused. -/
theorem step_keptAlive (hr : h.record = some s) (hst : s.state = .started)
    (hc : c.keepsAlive a = true) (hok : OwnRemovalsSucceed a (step a s₀ o h c).issued) :
    (step a s₀ o h c).host.record = some (keptAlive a s c) := by
  rcases step_cases a s₀ o h c with ⟨hserve, hIP⟩ | ⟨hstay, IP, hIP, hne⟩
  · rw [hserve] at hok ⊢
    cases c with
    | tick => exact tick_started hr hst hok.tick
    | newSession IP =>
      obtain rfl := hIP IP rfl
      simp [serve, stay, create, hr, keptAlive, editAt, editOf, Call.names]
    | startSession IP =>
      obtain rfl := hIP IP rfl
      simp [serve, start, startRecord, stay, hr, hst, keptAlive, editAt, editOf, Call.names]
    | playSession IP =>
      obtain rfl := hIP IP rfl
      simp [serve, play, withRecord_some hr, stay, hr, hst, keptAlive, editAt, editOf, Call.names]
    | updateSession IP | updateQuotaRemaining IP =>
      obtain rfl := hIP IP rfl
      simp [serve, amend, withRecord_some hr, stay, keptAlive, editAt, editOf, Call.names]
    | getSession IP =>
      obtain rfl := hIP IP rfl
      simp [serve, stay, hr, keptAlive, editAt, editOf, Call.names]
    | setDefaultBandWidth | setDefaultQuota | setDefaultTime | setDefaultSession
    | getDefaultSession | getAllSessions | getIPs => exact hr
    | pauseSession IP | endSession IP | deleteSession IP | setBandwidth IP | setQuota IP
    | setTime IP => exact absurd (hIP IP rfl) (by simpa [Call.keepsAlive] using hc)
  · -- it names another host
    rw [hstay]
    have hkept : keptAlive a s c = s := by
      unfold keptAlive editAt
      rw [if_neg (by rintro rfl; exact absurd hIP (by simp [Call.names])), hIP]
      exact if_neg hne
    rw [hkept]
    exact hr

/-! ## What is left -/

/-- What is left to a session that was STARTED as `s`, after the calls `cs`. -/
structure Alive (a : String) (s : Session) (cs : List Call) (s' : Session) : Prop where
  update : s'.updateTimeRemaining.toNat = UPDATE_TIME.toNat -
    sinceUpdate a (UPDATE_TIME.toNat - s.updateTimeRemaining.toNat) cs
  time : s'.timeRemaining.toInt = unspent s.timeRemaining.toInt (cs.count .tick)
  quota : s'.quotaRemaining.toInt =
    unspent s.quotaRemaining.toInt (cs.count (.updateQuotaRemaining a))
  activity : s'.activityTimeRemaining = ACTIVITY_TIME

/-- Nothing has run out at the last of the calls `cs`. -/
structure InTime (a : String) (s : Session) (cs : List Call) : Prop where
  update : sinceUpdate a (UPDATE_TIME.toNat - s.updateTimeRemaining.toNat) cs < UPDATE_TIME.toNat
  time : s.timeRemaining < 0 ∨ (cs.count .tick : Int) < s.timeRemaining.toInt
  quota : s.quotaRemaining < 0 ∨
    (cs.count (.updateQuotaRemaining a) : Int) < s.quotaRemaining.toInt

theorem Alive.start (htimed : s.updateTimeRemaining ≤ UPDATE_TIME)
    (hactivity : s.activityTimeRemaining = ACTIVITY_TIME) : Alive a s [] s := by
  have hle : s.updateTimeRemaining.toNat ≤ UPDATE_TIME.toNat := UInt32.le_iff_toNat_le.mp htimed
  refine ⟨?_, ?_, ?_, hactivity⟩
  · show _ = UPDATE_TIME.toNat - (UPDATE_TIME.toNat - s.updateTimeRemaining.toNat)
    omega
  · show _ = unspent s.timeRemaining.toInt 0
    unfold unspent
    split
    · rfl
    · omega
  · show _ = unspent s.quotaRemaining.toInt 0
    unfold unspent
    split
    · rfl
    · omega

/-- The other calls make no change to the record. -/
theorem editAt_quiet (hc : c.keepsAlive a = true) (htick : c ≠ .tick)
    (hupdate : c ≠ .updateSession a) (hquota : c ≠ .updateQuotaRemaining a) : editAt a s c = s := by
  unfold editAt
  cases c with
  | tick => exact absurd rfl htick
  | updateSession IP =>
    have hne : IP ≠ a := fun ha => hupdate (congrArg Call.updateSession ha)
    exact if_neg hne
  | updateQuotaRemaining IP =>
    have hne : IP ≠ a := fun ha => hquota (congrArg Call.updateQuotaRemaining ha)
    exact if_neg hne
  | pauseSession IP | endSession IP | deleteSession IP | setBandwidth IP | setQuota IP
  | setTime IP =>
    have hne : IP ≠ a := by simpa [Call.keepsAlive] using hc
    exact if_neg hne
  | newSession | startSession | playSession | getSession => exact ite_self s
  | setDefaultBandWidth | setDefaultQuota | setDefaultTime | setDefaultSession
  | getDefaultSession | getAllSessions | getIPs => rfl

/-- The step lemma of what is left. -/
theorem Alive.step (hi : Alive a s cs s') (hc : c.keepsAlive a = true) :
    Alive a s (cs ++ [c]) (keptAlive a s' c) := by
  obtain ⟨hupdate, htime, hquota, hactivity⟩ := hi
  by_cases htick : c = .tick
  · subst htick
    refine ⟨?_, ?_, ?_, hactivity⟩
    · show (countdown s'.updateTimeRemaining).toNat = _
      rw [toNat_countdown, hupdate, sinceUpdate_append]
      exact Nat.sub_sub ..
    · show (if s'.timeRemaining > 0 then s'.timeRemaining - 1 else s'.timeRemaining).toInt = _
      rw [toInt_used, htime, List.count_append, List.count_singleton_self, unspent_succ]
    · rw [List.count_append, List.count_singleton, if_neg (by simp)]
      exact hquota
  · unfold keptAlive
    rw [if_neg htick]
    by_cases hu : c = .updateSession a
    · subst hu
      have hedit : editAt a s' (.updateSession a) =
          { s' with updateTimeRemaining := UPDATE_TIME } := if_pos rfl
      rw [hedit]
      refine ⟨?_, ?_, ?_, hactivity⟩
      · rw [sinceUpdate_append, if_pos rfl]
        rfl
      · rw [List.count_append, List.count_singleton, if_neg (by simp)]
        exact htime
      · rw [List.count_append, List.count_singleton, if_neg (by simp)]
        exact hquota
    · by_cases hq : c = .updateQuotaRemaining a
      · subst hq
        have hedit : editAt a s' (.updateQuotaRemaining a) = { s' with
            quotaRemaining := if s'.quotaRemaining > 0 then s'.quotaRemaining - 1
                              else s'.quotaRemaining } := if_pos rfl
        rw [hedit]
        refine ⟨?_, ?_, ?_, hactivity⟩
        · rw [sinceUpdate_append, if_neg hu, if_neg htick]
          exact hupdate
        · show s'.timeRemaining.toInt = _
          rw [List.count_append, List.count_singleton, if_neg (by simp)]
          exact htime
        · show (if s'.quotaRemaining > 0 then s'.quotaRemaining - 1
            else s'.quotaRemaining).toInt = _
          rw [toInt_used, hquota, List.count_append, List.count_singleton_self, unspent_succ]
      · rw [editAt_quiet hc htick hu hq]
        refine ⟨?_, ?_, ?_, hactivity⟩
        · rw [sinceUpdate_append, if_neg hu, if_neg htick]
          exact hupdate
        · rw [List.count_append, List.count_singleton, if_neg (by simpa using htick)]
          exact htime
        · rw [List.count_append, List.count_singleton, if_neg (by simpa using hq)]
          exact hquota

/-- The tick that leaves so much to the session keeps it STARTED if it comes in time. -/
theorem Alive.stateAfter_iff (hi : Alive a s cs s') (hst : s'.state = .started) :
    stateAfter s' = .started ↔ InTime a s cs := by
  obtain ⟨hupdate, htime, hquota, hactivity⟩ := hi
  have hneg : ∀ t : Int32, t < 0 ↔ t.toInt < 0 := fun t => Int32.lt_iff_toInt_lt
  have hzero : ∀ t : Int32, t ≠ 0 ↔ t.toInt ≠ 0 := fun t => not_congr Int32.toInt_inj.symm
  have hupdate' : s'.updateTimeRemaining ≠ 0 ↔
      sinceUpdate a (UPDATE_TIME.toNat - s.updateTimeRemaining.toNat) cs < UPDATE_TIME.toNat := by
    rw [Ne, ← UInt32.toNat_inj, hupdate]
    show ¬ _ = 0 ↔ _
    omega
  have htime' : s'.timeRemaining ≠ 0 ↔
      s.timeRemaining < 0 ∨ (cs.count .tick : Int) < s.timeRemaining.toInt := by
    rw [hzero, htime, hneg]
    exact unspent_ne_zero
  have hquota' : s'.quotaRemaining ≠ 0 ↔ s.quotaRemaining < 0 ∨
      (cs.count (.updateQuotaRemaining a) : Int) < s.quotaRemaining.toInt := by
    rw [hzero, hquota, hneg]
    exact unspent_ne_zero
  have hactivity' : s'.activityTimeRemaining ≠ 0 := by
    rw [hactivity]
    decide
  have hstate : stateAfter s' = .started ↔ s'.updateTimeRemaining ≠ 0 ∧ s'.timeRemaining ≠ 0 ∧
      s'.quotaRemaining ≠ 0 := by
    unfold stateAfter
    rw [← isExhausted_eq_false, hst]
    split
    · next hout =>
      have hout' : s'.updateTimeRemaining = 0 := hout.resolve_right hactivity'
      simp [hout']
    · next hin =>
      have hin' : s'.updateTimeRemaining ≠ 0 := fun h0 => hin (.inl h0)
      cases hx : isExhausted s' with
      | true => simp
      | false => simp [hin']
  rw [hstate, hupdate', htime', hquota']
  exact ⟨fun ⟨h₁, h₂, h₃⟩ => ⟨h₁, h₂, h₃⟩, fun ⟨h₁, h₂, h₃⟩ => ⟨h₁, h₂, h₃⟩⟩

theorem editAt_state (hc : c ≠ .tick) : (editAt a s c).state = s.state := by
  unfold editAt
  cases c with
  | tick => exact absurd rfl hc
  | newSession | startSession | pauseSession | playSession | updateSession | endSession
  | deleteSession | setBandwidth | setQuota | setTime | getSession | updateQuotaRemaining =>
    dsimp only [Call.names]
    split
    · rfl
    · rfl
  | setDefaultBandWidth | setDefaultQuota | setDefaultTime | setDefaultSession
  | getDefaultSession | getAllSessions | getIPs => rfl

/-- Only a tick ends or exhausts the session, and only one that comes too late. -/
theorem Alive.state_iff (hi : Alive a s cs s') (hst : s'.state = .started)
    (hc : c.keepsAlive a = true) :
    (keptAlive a s' c).state = .started ↔ (c = .tick → InTime a s (cs ++ [c])) := by
  by_cases htick : c = .tick
  · subst htick
    obtain ⟨hupdate, htime, hquota, hactivity⟩ := hi.step hc
    have hcounted : Alive a s (cs ++ [.tick]) (countStarted s') :=
      ⟨hupdate, htime, hquota, hactivity⟩
    have hiff := hcounted.stateAfter_iff hst
    exact ⟨fun h _ => hiff.mp h, fun h => hiff.mpr (h rfl)⟩
  · have hstate : (keptAlive a s' c).state = .started := by
      unfold keptAlive
      rw [if_neg htick, editAt_state htick, hst]
    exact iff_of_true hstate fun hx => absurd hx htick

/-- Nothing makes use of the activity timer. -/
theorem active_kept (a : String) (hs₀ : s₀.activityTimeRemaining = ACTIVITY_TIME) :
    Kept a s₀ fun h => ∀ s, h.record = some s → s.activityTimeRemaining = ACTIVITY_TIME :=
  kept_of_record hs₀ (fun _ _ => rfl) (fun _ _ ht => ht) fun _ _ he ht => by
    cases he with
    | updated | bandwidth | quota | time | used | started | exhausted | paused | rearmed | ended =>
      exact ht

end Host

/-! ## Histories -/

variable {a : String} {w : GwWorld} {ms : List Moment} {s s' : Session} {cs : List Call}

/-- What holds of every split of a list holds of the first one and of those of the rest. -/
theorem forall_split_cons {α : Type} {x : α} {l : List α} {P : List α → α → Prop} :
    (∀ xs y ys, x :: l = xs ++ y :: ys → P xs y) ↔
      P [] x ∧ ∀ xs y ys, l = xs ++ y :: ys → P (x :: xs) y := by
  constructor
  · intro h
    exact ⟨h [] x l rfl, fun xs y ys hl => h (x :: xs) y ys (by rw [hl]; rfl)⟩
  · rintro ⟨hfirst, hrest⟩ xs y ys hsplit
    cases xs with
    | nil =>
      obtain ⟨rfl, rfl⟩ := List.cons.inj hsplit
      exact hfirst
    | cons x' xs =>
      obtain ⟨rfl, rfl⟩ := List.cons.inj hsplit
      exact hrest xs y ys rfl

/-- From a session that was STARTED as `s`, and is so after the calls `cs`: it stays STARTED over
the moments that follow if and only if every tick among them comes in time. -/
theorem Linked.started_iff (h : Linked w ms) (hs : w.mem.record a = some s')
    (hst : s'.state = .started) (hi : Host.Alive a s cs s')
    (hcalls : ∀ m ∈ ms, m.call.keepsAlive a = true)
    (hok : ∀ m ∈ ms, Host.OwnRemovalsSucceed a m.issued) :
    (∀ m ∈ ms, m.stateAfter a = some .started) ↔
      ∀ xs m ys, ms = xs ++ m :: ys → m.call = .tick →
        Host.InTime a s (cs ++ (xs ++ [m]).map Moment.call) := by
  induction ms generalizing w s' cs with
  | nil => exact iff_of_true (fun m hm => absurd hm List.not_mem_nil) fun xs m ys hsplit =>
      absurd hsplit (by simp)
  | cons m rest ih =>
    obtain ⟨rfl, hacts, hrest⟩ := h
    have hc := hcalls m List.mem_cons_self
    obtain ⟨x, hhost, hissued⟩ := hacts.host a
    have hr' : m.after.mem.record a = some (Host.keptAlive a s' m.call) :=
      (congrArg Host.record hhost).trans (Host.step_keptAlive (h := m.before.host a) hs hst hc
        ((hok m List.mem_cons_self).subset hissued))
    have hi' := hi.step hc
    have hafter : m.stateAfter a = some (Host.keptAlive a s' m.call).state := by
      rw [Moment.stateAfter, hr', Option.map_some]
    -- the first moment, and the rest of them
    have hfirst : m.stateAfter a = some .started ↔
        (m.call = .tick → Host.InTime a s (cs ++ [m.call])) := by
      rw [hafter, Option.some.injEq]
      exact hi.state_iff hst hc
    have hshift : (∀ xs m' ys, m :: rest = xs ++ m' :: ys → m'.call = .tick →
          Host.InTime a s (cs ++ (xs ++ [m']).map Moment.call)) ↔
        (m.call = .tick → Host.InTime a s (cs ++ [m.call])) ∧
          ∀ xs m' ys, rest = xs ++ m' :: ys → m'.call = .tick →
            Host.InTime a s (cs ++ [m.call] ++ (xs ++ [m']).map Moment.call) := by
      simp only [List.append_assoc]
      exact forall_split_cons
    rw [hshift, ← hfirst, List.forall_mem_cons]
    refine and_congr_right fun hstarted => ?_
    have hst' : (Host.keptAlive a s' m.call).state = .started :=
      Option.some.inj (hafter.symm.trans hstarted)
    exact ih hrest hr' hst' hi' (fun m' hm' => hcalls m' (List.mem_cons_of_mem m hm'))
      fun m' hm' => hok m' (List.mem_cons_of_mem m hm')

/-- From any point of any history where the session of `a` is STARTED, as long as nobody pauses,
ends or deletes it or sets its limits, and its own removal is not refused: it stays STARTED if and
only if every tick comes less than `UPDATE_TIME` ticks after the last update, with time left and
with quota left, as far as it has such limits. -/
theorem started_iff_inTime {sched : Schedule} {pre cont : List Moment}
    (hms : execute GwWorld.init sched = some (pre ++ cont))
    (hs : (lastWorld GwWorld.init pre).mem.record a = some s) (hst : s.state = .started)
    (hcalls : ∀ m ∈ cont, m.call.keepsAlive a = true)
    (hok : ∀ m ∈ cont, Host.OwnRemovalsSucceed a m.issued) :
    (∀ m ∈ cont, m.stateAfter a = some .started) ↔
      ∀ xs m ys, cont = xs ++ m :: ys → m.call = .tick →
        Host.InTime a s ((xs ++ [m]).map Moment.call) := by
  have hlinked := linked_of_execute (w := GwWorld.init) Controller.wf_init hms
  obtain ⟨hpre, hcont⟩ := hlinked.append
  have hactivity : s.activityTimeRemaining = ACTIVITY_TIME :=
    hpre.kept (fun _ hx => absurd hx (by simp)) (fun _ b => Host.active_kept b rfl) a s hs
  exact hcont.started_iff hs hst (.start (hpre.timed a s hs) hactivity) hcalls hok

/-- A session with three units of time, which the third tick uses up; the removal of another host
is refused in between. -/
def keepAliveSchedule : Schedule :=
  [.setDefaultTime 3, .startSession "10.0.0.7", .startSession "10.0.0.8", .tick,
    .updateSession "10.0.0.7", .endSession "10.0.0.8", .tick, .playSession "10.0.0.7", .tick].map
      fun c => (c, fun _ cmd => if cmd = .removeHost "10.0.0.8" then -1 else 0)

/-- The moments of that history. -/
def keepAliveMoments : List Moment := (execute GwWorld.init keepAliveSchedule).getD []

theorem started_iff_inTime_threeUnits :
    let s : Session := ⟨"10.0.0.7", "", .started, 1000, 3, -1, 60, 60, 60, 3600, 0⟩
    (∀ m ∈ keepAliveMoments.drop 2, m.stateAfter "10.0.0.7" = some .started) ↔
      ∀ xs m ys, keepAliveMoments.drop 2 = xs ++ m :: ys → m.call = .tick →
        Host.InTime "10.0.0.7" s ((xs ++ [m]).map Moment.call) :=
  @started_iff_inTime "10.0.0.7" _ keepAliveSchedule (keepAliveMoments.take 2) _ rfl (by decide)
    (by decide) (by decide) (by decide)

end WifiGateway
