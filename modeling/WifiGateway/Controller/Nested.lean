import WifiGateway.Controller.Lockstep

/-!
# Calls made while a command runs

A call made while the Controller waits for a command has all its own commands
refused: `runCommandExec` returns -1 at once while the process is running. Such
a call is `slot_acts` with the oracle that always answers -1, and a host that it
acts on stays in its state (`Host.Still`).

`Quiet` says this of the Controller's memory, pointer by pointer: no record
changes its state, records are only added UNINITIALIZED and only removed ENDED,
and no pointer that was freed is used again.
-/

namespace WifiGateway

open Waiting (Code Oracle)

/-- The status that `runCommandExec` returns when it is busy. -/
def refusedStatus : Int := -1

/-- The oracle under which nested calls run. -/
def refusing : Oracle Command := fun _ _ => refusedStatus

theorem drawn_refusing {status : Int} (h : Drawn refusing status) : status ≠ 0 := by
  obtain ⟨t, c, rfl⟩ := h
  show refusedStatus ≠ 0
  decide

namespace Host

variable {a : String} {s s₀ : Session} {h h' : Host} {r : Result} {o : Outcomes} {c : Call}

/-- The host stays in its state. -/
structure Still (h h' : Host) : Prop where
  rule : h'.rule = h.rule
  kept : ∀ s s', h.record = some s → h'.record = some s' → s'.state = s.state
  removed : ∀ s, h.record = some s → h'.record = none → s.state = .ended
  added : ∀ s', h.record = none → h'.record = some s' → s'.state = .uninitialized

theorem Still.refl (h : Host) : Still h h where
  rule := rfl
  kept s s' hs hs' := by rw [Option.some.inj (hs.symm.trans hs')]
  removed s hs hs' := absurd (hs.symm.trans hs') (by simp)
  added s' hs hs' := absurd (hs.symm.trans hs') (by simp)

/-- Only fields other than the state change. -/
theorem still_fields (hr : h.record = some s) {s' : Session} (hst : s'.state = s.state) :
    Still h { h with record := some s' } where
  rule := rfl
  kept s₁ s₁' hs hs' := by
    rw [← Option.some.inj (hr.symm.trans hs), ← Option.some.inj hs']
    exact hst
  removed s₁ hs hs' := absurd hs' (by simp)
  added s₁' hs hs' := absurd (hr.symm.trans hs) (by simp)

/-- An ENDED record goes. -/
theorem still_removed (hr : h.record = some s) (hst : s.state = .ended) :
    Still h { h with record := none } where
  rule := rfl
  kept s₁ s₁' hs hs' := absurd hs' (by simp)
  removed s₁ hs _ := by
    rw [← Option.some.inj (hr.symm.trans hs)]
    exact hst
  added s₁' hs hs' := absurd hs' (by simp)

theorem create_still (hs₀ : s₀.state = .uninitialized) : Still h (create s₀ h) := by
  unfold create
  cases hr : h.record with
  | some s => exact still_fields hr rfl
  | none =>
    refine ⟨rfl, fun s s' hs => absurd (hr.symm.trans hs) (by simp),
      fun s hs => absurd (hr.symm.trans hs) (by simp), ?_⟩
    intro s' _ hs'
    obtain ⟨rfl⟩ := hs'
    exact hs₀

theorem amend_still {f : Session → Session} (hst : ∀ s, (f s).state = s.state) :
    Still h (amend f h).host := by
  unfold amend
  cases hr : h.record with
  | none =>
    rw [withRecord_none hr]
    exact .refl h
  | some s =>
    rw [withRecord_some hr]
    exact still_fields hr (hst s)

theorem relimit_still {f : Session → Session} (hst : ∀ s, (f s).state = s.state)
    (hpause : o.remove ≠ 0) (hplay : o.add ≠ 0) : Still h (relimit a f o h).host := by
  unfold relimit
  cases hr : h.record with
  | none =>
    rw [withRecord_none hr]
    exact .refl h
  | some s =>
    rw [withRecord_some hr]
    dsimp only
    rw [play_turn.host_eq hplay, pause_turn.host_eq hpause]
    exact still_fields hr (hst s)

theorem discard_still {status : Int} (h0 : status ≠ 0) : Still h (discard a status h).host := by
  have hhost : (finish a status h).host = h := finish_turn.host_eq h0
  unfold discard
  dsimp only
  rw [hhost]
  split
  · next hok =>
    cases hr : h.record with
    | none =>
      rw [← hr]
      exact .refl h
    | some s => exact still_removed hr (finish_state (hhost.symm ▸ hr) hok.1)
  · exact .refl h

theorem tick_still (hadd : o.add ≠ 0) (hremove : o.remove ≠ 0) (hupdate : o.removeUpdate ≠ 0)
    (hactivity : o.removeActivity ≠ 0) : Still h (tick a o h).host := by
  unfold tick
  cases hr : h.record with
  | none => exact .refl h
  | some s =>
    unfold tickRecord
    dsimp only
    cases hst : s.state with
    | started =>
      dsimp only
      rw [finishAt_turn.host_eq hactivity, finishAt_turn.host_eq hupdate,
        exhaustIf_turn.host_eq hremove]
      exact still_fields hr rfl
    | exhausted =>
      dsimp only
      rw [finishAt_turn.host_eq hactivity, finishAt_turn.host_eq hupdate]
      exact still_fields hr rfl
    | paused =>
      dsimp only
      split
      · rw [play_turn.host_eq hadd]
        exact still_fields hr rfl
      · exact still_fields hr rfl
    | ended =>
      dsimp only
      split
      · exact still_removed hr hst
      · exact still_fields hr rfl
    | uninitialized => exact .refl h

/-- With its commands refused, no call takes a host out of its state. -/
theorem step_still (hs₀ : s₀.state = .uninitialized) (ho : o.AllDrawn refusing) (c : Call) :
    Still h (step a s₀ o h c).host := by
  have hadd := drawn_refusing ho.add
  have hremove := drawn_refusing ho.remove
  rcases step_cases a s₀ o h c with ⟨he, -⟩ | ⟨he, -⟩
  · rw [he]
    cases c with
    | newSession => exact create_still hs₀
    | startSession =>
      show Still h (start a s₀ o.add h).host
      rw [start_eq, (startRecord_turn rfl).host_eq hadd]
      exact create_still hs₀
    | pauseSession =>
      show Still h (pause a o.remove h).host
      rw [pause_turn.host_eq hremove]
      exact .refl h
    | playSession =>
      show Still h (play a o.add h).host
      rw [play_turn.host_eq hadd]
      exact .refl h
    | endSession =>
      show Still h (finish a o.remove h).host
      rw [finish_turn.host_eq hremove]
      exact .refl h
    | deleteSession => exact discard_still hremove
    | updateSession | setTime | updateQuotaRemaining => exact amend_still fun _ => rfl
    | setBandwidth | setQuota => exact relimit_still (fun _ => rfl) hremove hadd
    | tick =>
      exact tick_still hadd hremove (drawn_refusing ho.removeUpdate)
        (drawn_refusing ho.removeActivity)
    | setDefaultBandWidth | setDefaultQuota | setDefaultTime | setDefaultSession
    | getDefaultSession | getSession | getAllSessions | getIPs => exact .refl h
  · rw [he]
    exact .refl h

end Host

/-! ## The Controller's memory across nested calls -/

/-- Records that are there before and after are the same, and no freed pointer
is used again. -/
structure Tame (c c' : Controller) : Prop where
  fresh : c.fresh ≤ c'.fresh
  gone : ∀ p, p < c.fresh → c.heap p = none → c'.heap p = none
  kept : ∀ p s s', c.heap p = some s → c'.heap p = some s' → s'.state = s.state ∧ s'.IP = s.IP

/-- Besides, only ENDED records are removed and only UNINITIALIZED ones added. -/
structure Quiet (c c' : Controller) : Prop extends Tame c c' where
  removed : ∀ p s, c.heap p = some s → c'.heap p = none → s.state = .ended
  added : ∀ p s', c.heap p = none → c'.heap p = some s' → s'.state = .uninitialized

theorem Tame.refl (c : Controller) : Tame c c where
  fresh := Nat.le_refl _
  gone _ _ h := h
  kept p s s' hs hs' := by
    rw [Option.some.inj (hs.symm.trans hs')]
    exact ⟨rfl, rfl⟩

theorem Quiet.refl (c : Controller) : Quiet c c where
  toTame := Tame.refl c
  removed p s hs hs' := absurd (hs.symm.trans hs') (by simp)
  added p s' hs hs' := absurd (hs.symm.trans hs') (by simp)

/-- A pointer to a record was handed out. -/
theorem Controller.WF.lt_fresh {c : Controller} (h : c.WF) {p : Ptr} {s : Session}
    (hs : c.heap p = some s) : p < c.fresh := by
  by_contra hge
  rw [h.unused p (Nat.le_of_not_lt hge)] at hs
  exact absurd hs (by simp)

variable {c c' c'' : Controller}

/-- A record that is there at both ends was there all along. -/
theorem Tame.between (h₁ : Tame c c') (h₂ : Tame c' c'') (hc : c.WF) {p : Ptr} {s s'' : Session}
    (hs : c.heap p = some s) (hs'' : c''.heap p = some s'') : ∃ s', c'.heap p = some s' := by
  cases hs' : c'.heap p with
  | some s' => exact ⟨s', rfl⟩
  | none =>
    rw [h₂.gone p (Nat.lt_of_lt_of_le (hc.lt_fresh hs) h₁.fresh) hs'] at hs''
    exact absurd hs'' (by simp)

theorem Tame.trans (h₁ : Tame c c') (h₂ : Tame c' c'') (hc : c.WF) : Tame c c'' where
  fresh := Nat.le_trans h₁.fresh h₂.fresh
  gone p hp hs := h₂.gone p (Nat.lt_of_lt_of_le hp h₁.fresh) (h₁.gone p hp hs)
  kept p s s'' hs hs'' := by
    obtain ⟨s', hs'⟩ := h₁.between h₂ hc hs hs''
    obtain ⟨hst₁, hIP₁⟩ := h₁.kept p s s' hs hs'
    obtain ⟨hst₂, hIP₂⟩ := h₂.kept p s' s'' hs' hs''
    exact ⟨hst₂.trans hst₁, hIP₂.trans hIP₁⟩

theorem Quiet.trans (h₁ : Quiet c c') (h₂ : Quiet c' c'') (hc : c.WF) : Quiet c c'' where
  toTame := h₁.toTame.trans h₂.toTame hc
  removed p s hs hs'' := by
    cases hs' : c'.heap p with
    | none => exact h₁.removed p s hs hs'
    | some s' =>
      rw [← (h₁.kept p s s' hs hs').1]
      exact h₂.removed p s' hs' hs''
  added p s'' hs hs'' := by
    cases hs' : c'.heap p with
    | none => exact h₂.added p s'' hs' hs''
    | some s' =>
      rw [(h₂.kept p s' s'' hs' hs'').1]
      exact h₁.added p s' hs hs'

section Acts

variable {w w' : GwWorld} {issued : List (Command × Int)} {i : Call}

/-- What a nested call does to the Controller and the firewall. -/
theorem ActsOnAll.quiet (hw : w.mem.WF)
    (h : ActsOnAll refusing w w' issued fun a x h => Host.step a (w.mem.initSession a) x h i) :
    Quiet w.mem w'.mem ∧ w'.env = w.env := by
  have hstill : ∀ a, Host.Still (w.host a) (w'.host a) := by
    intro a
    obtain ⟨x, hx, hhost, -⟩ := h.hosts a
    rw [hhost]
    exact Host.step_still rfl hx i
  -- a pointer with a record afterwards had a record of the same IP before, or is new
  have hback : ∀ p s', w'.mem.heap p = some s' →
      (∃ s, w.mem.heap p = some s ∧ s.IP = s'.IP) ∨
        w.mem.fresh ≤ p ∧ w.mem.sessions[s'.IP]? = none := by
    intro p s' hs'
    have hp' := h.wf.owned p s' hs'
    cases hp : w.mem.sessions[s'.IP]? with
    | none => exact .inr ⟨h.newPtr _ p hp hp', rfl⟩
    | some q =>
      obtain rfl := h.ptr _ q p hp hp'
      obtain ⟨s, hs, hIP⟩ := hw.stored _ p hp
      exact .inl ⟨s, hs, hIP⟩
  refine ⟨⟨⟨h.fresh, fun p hp hs => ?_, fun p s s' hs hs' => ?_⟩, fun p s hs hs' => ?_,
    fun p s' hs hs' => ?_⟩, funext fun a => (hstill a).rule⟩
  · cases hs' : w'.mem.heap p with
    | none => rfl
    | some s' =>
      rcases hback p s' hs' with ⟨s, hs₀, -⟩ | ⟨hge, -⟩
      · exact absurd (hs.symm.trans hs₀) (by simp)
      · exact absurd hp (Nat.not_lt_of_le hge)
  · rcases hback p s' hs' with ⟨s₀, hs₀, hIP⟩ | ⟨hge, -⟩
    · obtain rfl := Option.some.inj (hs.symm.trans hs₀)
      refine ⟨(hstill s.IP).kept s s' ?_ ?_, hIP.symm⟩
      · exact (Controller.record_some (hw.owned p s hs)).trans hs
      · exact (Controller.record_some (hIP ▸ h.wf.owned p s' hs')).trans hs'
    · exact absurd (hw.lt_fresh hs) (Nat.not_lt_of_le hge)
  · have hp := hw.owned p s hs
    refine (hstill s.IP).removed s ((Controller.record_some hp).trans hs) ?_
    cases hq : w'.mem.sessions[s.IP]? with
    | none => exact Controller.record_none hq
    | some q =>
      obtain rfl := h.ptr _ p q hp hq
      obtain ⟨s', hs₁, -⟩ := h.wf.stored _ q hq
      exact absurd (hs'.symm.trans hs₁) (by simp)
  · rcases hback p s' hs' with ⟨s, hs₀, -⟩ | ⟨-, hnone⟩
    · exact absurd (hs.symm.trans hs₀) (by simp)
    · refine (hstill s'.IP).added s' (Controller.record_none hnone) ?_
      exact (Controller.record_some (h.wf.owned p s' hs')).trans hs'

end Acts

end WifiGateway
