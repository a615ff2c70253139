import WifiGateway.Controller.Lockstep

/-!
# The setters of the limits

`setBandwidth` and `setQuota` pause the session and play it, to get the new limit into
the firewall, and return 0 whatever has come of that. `Host.relimit_keeps` says for which
records the session is then in the state it was in and the firewall has its bandwidth:
the pause must have been undone by the play, and there must have been a pause to undo.

A session that was PAUSED is started by the play; one that was STARTED stays PAUSED when
it is exhausted or cannot be added again, and keeps its old rule when it cannot be
removed. `setters_iff` says this of the slots, with the statuses that their commands get.
-/

namespace WifiGateway

open Waiting (Code Oracle)

/-- The setters: the IP, and what they set in its record. -/
def Call.sets : Call → Option (String × (Session → Session))
  | .setBandwidth IP bw => some (IP, fun s => { s with bandwidth := bw })
  | .setQuota IP quota => some (IP, fun s => { s with quotaRemaining := quota })
  | .newSession _ | .startSession _ | .pauseSession _ | .playSession _ | .updateSession _
  | .endSession _ | .deleteSession _ | .setTime _ _ | .setDefaultBandWidth _
  | .setDefaultQuota _ | .setDefaultTime _ | .setDefaultSession _ | .getDefaultSession
  | .getSession _ | .getAllSessions | .getIPs | .updateQuotaRemaining _ | .tick => none

namespace Host

variable {a : String} {s s₀ : Session} {h : Host} {o : Outcomes} {f : Session → Session}
  {i : Call}

/-- The session is in the state it was in, and if it is STARTED its rule has the bandwidth
of the record. -/
structure LimitKept (h h' : Host) : Prop where
  state : h'.record.map Session.state = h.record.map Session.state
  rule : ∀ s', h'.record = some s' → s'.state = .started →
    h'.rule.map HostRule.bandwidth = some s'.bandwidth

/-- When pausing and playing the record `s`, with its limit already set, gets the session
back to where it was; `o` gives the statuses of the commands that this issues. -/
def Restored (a : String) (o : Oracle Command) (s : Session) (h : Host) : Prop :=
  match s.state with
  -- nothing is issued
  | .uninitialized | .exhausted | .ended => True
  -- only the play does anything
  | .paused => isExhausted s = true ∨ o [] (.addHost a s.bandwidth s.quotaRemaining) ≠ 0
  | .started =>
    if o [] (.removeHost a) = 0 then
      isExhausted s = false ∧
        o [(.removeHost a, 0)] (.addHost a s.bandwidth s.quotaRemaining) = 0
    else h.rule.map HostRule.bandwidth = some s.bandwidth

instance (a : String) (o : Oracle Command) (s : Session) (h : Host) :
    Decidable (Restored a o s h) := by
  unfold Restored
  cases s.state <;> infer_instance

/-- A session that stays in a state other than STARTED. -/
theorem limitKept_of {s' : Session} {rule : Option HostRule} (hr : h.record = some s)
    (hst : s'.state = s.state) (hne : s.state ≠ .started) : LimitKept h ⟨some s', rule⟩ := by
  refine ⟨by rw [hr]; exact congrArg some hst, fun x hx hstarted => ?_⟩
  obtain rfl := Option.some.inj hx
  exact absurd (hst.symm.trans hstarted) hne

/-- A session that moves to another state. -/
theorem not_limitKept {h' : Host} {s' : Session} (hr : h.record = some s)
    (hr' : h'.record = some s') (hne : s'.state ≠ s.state) : ¬ LimitKept h h' := by
  intro hk
  have hstate := hk.state
  rw [hr, hr'] at hstate
  exact hne (Option.some.inj hstate)

/-- A session that stays STARTED. -/
theorem limitKept_started {s' : Session} {rule : Option HostRule} (hr : h.record = some s)
    (hst : s.state = .started) (hst' : s'.state = .started) :
    LimitKept h ⟨some s', rule⟩ ↔ rule.map HostRule.bandwidth = some s'.bandwidth := by
  constructor
  · exact fun hk => hk.rule s' rfl hst'
  · intro hrule
    refine ⟨by rw [hr]; exact congrArg some (hst'.trans hst.symm), fun x hx _ => ?_⟩
    obtain rfl := Option.some.inj hx
    exact hrule

/-- Neither the pause nor the play does anything to such a session. -/
theorem relimit_idle (hr : h.record = some s)
    (hst : (f s).state = .uninitialized ∨ (f s).state = .exhausted ∨ (f s).state = .ended) :
    (relimit a f o h).host = { h with record := some (f s) } := by
  unfold relimit
  rw [withRecord_some hr]
  rcases hst with hst | hst | hst
  · simp [pause, play, withRecord, hst, stay]
  · simp [pause, play, withRecord, hst, stay]
  · simp [pause, play, withRecord, hst, stay]

theorem relimit_paused (hr : h.record = some s) (hst : (f s).state = .paused) :
    (relimit a f o h).host = (startRecord a o.add (f s) { h with record := some (f s) }).host ∧
      (relimit a f o h).issued =
        (startRecord a o.add (f s) { h with record := some (f s) }).issued := by
  unfold relimit
  rw [withRecord_some hr]
  simp [pause, play, withRecord, hst, stay]

/-- The new limit of a STARTED session that is not removed stays out of the firewall. -/
theorem relimit_refused (hr : h.record = some s) (hst : (f s).state = .started)
    (h0 : o.remove ≠ 0) :
    (relimit a f o h).host = { h with record := some (f s) } ∧
      (relimit a f o h).issued = [(.removeHost a, o.remove)] := by
  unfold relimit
  rw [withRecord_some hr]
  simp [pause, play, withRecord, hst, stay, revoke, h0]

theorem relimit_started (hr : h.record = some s) (hst : (f s).state = .started)
    (h0 : o.remove = 0) :
    (relimit a f o h).host =
        (startRecord a o.add { f s with state := .paused }
          ⟨some { f s with state := .paused }, none⟩).host ∧
      (relimit a f o h).issued =
        (startRecord a o.add { f s with state := .paused }
          ⟨some { f s with state := .paused }, none⟩).issued ++ [(.removeHost a, 0)] := by
  unfold relimit
  rw [withRecord_some hr]
  simp [pause, play, withRecord, hst, revoke, h0]

/-- What a setter does is restored exactly under the condition above. -/
theorem relimit_keeps {orc : Oracle Command} (hr : h.record = some s)
    (hf : (f s).state = s.state) (ho : Code.Answered orc (relimit a f o h).issued) :
    LimitKept h (relimit a f o h).host ↔ Restored a orc (f s) h := by
  unfold Restored
  cases hst : (f s).state with
  | uninitialized | exhausted | ended =>
    rw [relimit_idle hr (by simp [hst])]
    refine iff_of_true (limitKept_of hr hf ?_) trivial
    rw [← hf, hst]
    decide
  | paused =>
    have hne : s.state ≠ .started := by
      rw [← hf, hst]
      decide
    obtain ⟨hhost, hissued⟩ := relimit_paused (a := a) (o := o) hr hst
    rw [hissued] at ho
    rw [hhost]
    dsimp only
    unfold startRecord at ho ⊢
    rw [if_neg (by simp [hst])] at ho ⊢
    by_cases hx : isExhausted (f s) = false
    · rw [if_pos hx] at ho ⊢
      have hadd : o.add = orc [] (.addHost a (f s).bandwidth (f s).quotaRemaining) := ho.1
      rw [← hadd]
      unfold letIn
      by_cases h0 : o.add = 0
      · rw [if_pos h0]
        refine iff_of_false (not_limitKept hr rfl ?_) (by simp [hx, h0])
        exact fun he => hne he.symm
      · rw [if_neg h0]
        exact iff_of_true (limitKept_of hr hf hne) (.inr h0)
    · rw [if_neg hx]
      exact iff_of_true (limitKept_of hr hf hne) (.inl (Bool.not_eq_false _ ▸ hx))
  | started =>
    have hst' : s.state = .started := hf.symm.trans hst
    dsimp only
    by_cases h0 : o.remove = 0
    · obtain ⟨hhost, hissued⟩ := relimit_started (a := a) (o := o) hr hst h0
      rw [hissued] at ho
      rw [hhost]
      unfold startRecord at ho ⊢
      rw [if_neg (by simp)] at ho ⊢
      by_cases hx : isExhausted (f s) = false
      · have hx' : isExhausted { f s with state := .paused } = false := hx
        rw [if_pos hx'] at ho ⊢
        obtain ⟨hadd, hremove, -⟩ := ho
        have hadd' : o.add =
            orc [(.removeHost a, 0)] (.addHost a (f s).bandwidth (f s).quotaRemaining) := hadd
        rw [if_pos hremove.symm, ← hadd']
        unfold letIn
        by_cases ha : o.add = 0
        · rw [if_pos ha]
          exact iff_of_true ((limitKept_started hr hst' rfl).mpr rfl) ⟨hx, ha⟩
        · rw [if_neg ha]
          refine iff_of_false (not_limitKept hr rfl ?_) fun hc => ha hc.2
          simp [hst']
      · have hx' : ¬ isExhausted { f s with state := .paused } = false := hx
        rw [if_neg hx'] at ho ⊢
        obtain ⟨hremove, -⟩ := ho
        rw [if_pos hremove.symm]
        refine iff_of_false (not_limitKept hr rfl ?_) fun hc => hx hc.1
        simp [hst']
    · obtain ⟨hhost, hissued⟩ := relimit_refused (a := a) (o := o) hr hst h0
      rw [hissued] at ho
      rw [hhost, if_neg (ho.1 ▸ h0)]
      exact limitKept_started hr hst' hst

/-- A setter acts as `relimit`, and sets nothing that a state depends on. -/
theorem sets_serve (hi : i.sets = some (a, f)) :
    i.names = some a ∧ (∀ s₀ o h, serve a s₀ o h i = relimit a f o h) ∧
      (∀ s₀ o h, reply a s₀ o h i = .status (relimit a f o h).status) ∧
      ∀ s, (f s).state = s.state := by
  cases i with
  | setBandwidth | setQuota =>
    obtain ⟨rfl, rfl⟩ := Prod.mk.inj (Option.some.inj hi)
    exact ⟨rfl, fun _ _ _ => rfl, fun _ _ _ => rfl, fun _ => rfl⟩
  | newSession | startSession | pauseSession | playSession | updateSession | endSession
  | deleteSession | setTime | setDefaultBandWidth | setDefaultQuota | setDefaultTime
  | setDefaultSession | getDefaultSession | getSession | getAllSessions | getIPs
  | updateQuotaRemaining | tick => exact absurd hi (by simp [Call.sets])

end Host

/-- Whatever the Controller has in its memory and whatever the commands return: the session
is where it was and its bandwidth in the firewall after a setter that returned 0, exactly
if the pause and the play of its record restore it. -/
theorem setters_iff {w : GwWorld} (hw : w.mem.WF) {i : Call} {a : String}
    {f : Session → Session} (hi : i.sets = some (a, f)) (o : Oracle Command) :
    (∃ (status : Int) (w' : GwWorld) (issued : List (Command × Int)),
      i.slot.run Command.effect o w [] = some (.status status, w', issued) ∧
      (status = 0 → Host.LimitKept (w.host a) (w'.host a))) ↔
    ∀ s, w.mem.record a = some s → Host.Restored a o (f s) (w.host a) := by
  obtain ⟨hnames, hserve, hreply, hf⟩ := Host.sets_serve hi
  obtain ⟨x, -, w', hrun, he⟩ := slot_serves (o := o) (t := []) hw i hnames
  have hanswered := Code.run_answered Command.effect o w [] i.slot trivial hrun
  rw [hserve, hreply, List.append_nil] at hrun
  rw [hserve, List.append_nil] at hanswered
  rw [hserve] at he
  have hiff : (∃ (status : Int) (w' : GwWorld) (issued : List (Command × Int)),
      i.slot.run Command.effect o w [] = some (.status status, w', issued) ∧
      (status = 0 → Host.LimitKept (w.host a) (w'.host a))) ↔
      ((Host.relimit a f x (w.host a)).status = 0 →
        Host.LimitKept (w.host a) (Host.relimit a f x (w.host a)).host) := by
    rw [← he.host]
    constructor
    · rintro ⟨status, w'', issued, hrun', hkept⟩
      rw [hrun] at hrun'
      obtain ⟨hstatus, hworld⟩ := Prod.mk.inj (Option.some.inj hrun')
      obtain ⟨rfl, -⟩ := Prod.mk.inj hworld
      obtain rfl := Reply.status.inj hstatus
      exact hkept
    · exact fun hkept => ⟨_, w', _, hrun, hkept⟩
  rw [hiff]
  cases hr : w.mem.record a with
  | none =>
    refine iff_of_true (fun h0 => ?_) fun s hs => absurd hs (by simp)
    have hnone : (w.host a).record = none := hr
    simp only [Host.relimit, Host.withRecord_none hnone, Host.stay] at h0
    exact absurd h0 (by decide)
  | some s =>
    have hrec : (w.host a).record = some s := hr
    have h0 : (Host.relimit a f x (w.host a)).status = 0 := by
      simp only [Host.relimit, Host.withRecord_some hrec]
    have hkeeps := Host.relimit_keeps hrec (hf s) hanswered
    constructor
    · intro hkept s' hs'
      obtain rfl := Option.some.inj hs'
      exact hkeeps.mp (hkept h0)
    · exact fun hrestored _ => hkeeps.mpr (hrestored s rfl)

/-- A history that leaves one session STARTED and one PAUSED. -/
def limitedSchedule : Schedule :=
  [.startSession "10.0.0.7", .startSession "10.0.0.8", .pauseSession "10.0.0.8"].map
    fun c => (c, fun _ _ => 0)

/-- The world after it. -/
def limitedWorld : GwWorld :=
  lastWorld GwWorld.init ((execute GwWorld.init limitedSchedule).getD [])

theorem limitedWorld_reachable : Reachable limitedWorld := ⟨limitedSchedule, _, rfl, rfl⟩

/-- The STARTED session is removed and added again with the new bandwidth. -/
theorem setters_started :
    (limitedWorld.mem.record "10.0.0.7").map Session.state = some .started ∧
    ∃ (status : Int) (w' : GwWorld) (issued : List (Command × Int)),
      (Call.setBandwidth "10.0.0.7" 500).slot.run Command.effect (fun _ _ => 0) limitedWorld [] =
          some (.status status, w', issued) ∧
        (status = 0 → Host.LimitKept (limitedWorld.host "10.0.0.7") (w'.host "10.0.0.7")) := by
  refine ⟨by decide, (setters_iff limitedWorld_reachable.wf rfl _).mpr ?_⟩
  intro s hs
  have hrec : limitedWorld.mem.record "10.0.0.7" =
      some ⟨"10.0.0.7", "", .started, 1000, -1, -1, 60, 60, 60, 3600, 0⟩ := by decide
  obtain rfl := Option.some.inj (hrec.symm.trans hs)
  decide

/-- The PAUSED session is STARTED by `setBandwidth`. The STARTED one is PAUSED by it when
it is removed and not added again, and keeps its old rule when it is not removed. -/
theorem setters_lose :
    Reachable limitedWorld ∧
    (∃ (w' : GwWorld) (issued : List (Command × Int)),
      (Call.setBandwidth "10.0.0.8" 500).slot.run Command.effect (fun _ _ => 0) limitedWorld [] =
          some (.status 0, w', issued) ∧
        (limitedWorld.mem.record "10.0.0.8").map Session.state = some .paused ∧
        (w'.mem.record "10.0.0.8").map Session.state = some .started ∧
        ¬ Host.LimitKept (limitedWorld.host "10.0.0.8") (w'.host "10.0.0.8")) ∧
    (∃ (w' : GwWorld) (issued : List (Command × Int)),
      (Call.setBandwidth "10.0.0.7" 500).slot.run Command.effect
          (fun _ c => if c.isRemoval then 0 else 1) limitedWorld [] =
          some (.status 0, w', issued) ∧
        (limitedWorld.mem.record "10.0.0.7").map Session.state = some .started ∧
        (w'.mem.record "10.0.0.7").map Session.state = some .paused ∧
        ¬ Host.LimitKept (limitedWorld.host "10.0.0.7") (w'.host "10.0.0.7")) ∧
    (∃ (w' : GwWorld) (issued : List (Command × Int)),
      (Call.setBandwidth "10.0.0.7" 500).slot.run Command.effect (fun _ _ => 1) limitedWorld [] =
          some (.status 0, w', issued) ∧
        (w'.mem.record "10.0.0.7").map Session.bandwidth = some 500 ∧
        (w'.env "10.0.0.7").map HostRule.bandwidth = some 1000 ∧
        ¬ Host.LimitKept (limitedWorld.host "10.0.0.7") (w'.host "10.0.0.7")) := by
  refine ⟨limitedWorld_reachable, ⟨_, _, rfl, by decide, by decide, fun hk => ?_⟩,
    ⟨_, _, rfl, by decide, by decide, fun hk => ?_⟩,
    ⟨_, _, rfl, by decide, by decide, fun hk => ?_⟩⟩
  · exact absurd hk.state (by decide)
  · exact absurd hk.state (by decide)
  · exact absurd (hk.rule ⟨"10.0.0.7", "", .started, 500, -1, -1, 60, 60, 60, 3600, 0⟩
      (by decide) rfl) (by decide)

end WifiGateway
