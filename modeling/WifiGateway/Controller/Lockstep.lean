import WifiGateway.Controller.History

/-!
# Records and firewall in lockstep

A host is allowed in the firewall exactly when it has a STARTED record, after
every call of every history, whatever its commands return (`Lockstep`). With it
goes the range invariant that the tick rests on: the end timer of a record is
never 0 between calls, since the tick that counts it down to 0 removes the record.

`Settled` is what a tick leaves behind when none of its commands was refused: no
session is left in a state that its timers or limits have run out for.
-/

namespace WifiGateway

open Waiting (Code Oracle)

namespace Host

variable {a : String} {s s₀ : Session} {h : Host} {r : Result} {o : Outcomes} {status : Int}

/-- Allowed exactly when STARTED, and the end timer has not run out. -/
structure Lockstep (h : Host) : Prop where
  allowed : h.rule.isSome = true ↔ h.inState .started
  endTimer : ∀ s, h.record = some s → s.endTimeRemaining ≠ 0

/-- A host that has nothing. -/
theorem lockstep_empty : Lockstep ⟨none, none⟩ :=
  ⟨by simp [inState], fun s hs => absurd hs (by simp)⟩

/-- Access is granted and the record STARTED. -/
theorem Lockstep.granted (hi : Lockstep h) (hr : h.record = some s) (rule : HostRule) :
    Lockstep ⟨some (startedRecord s), some rule⟩ := by
  refine ⟨by simp [inState, startedRecord], ?_⟩
  intro s' hs'
  obtain ⟨rfl⟩ := hs'
  exact hi.endTimer s hr

/-- Access is revoked and the record in another state. -/
theorem Lockstep.revoked (hi : Lockstep h) (hr : h.record = some s) {st : SessionState}
    (hst : st ≠ .started) : Lockstep ⟨some { s with state := st }, none⟩ := by
  refine ⟨by simp [inState, hst], ?_⟩
  intro s' hs'
  obtain ⟨rfl⟩ := hs'
  exact hi.endTimer s hr

theorem Turn.lockstep (ht : Turn a status h r) (hi : Lockstep h) : Lockstep r.host := by
  cases ht with
  | stayed => exact hi
  | refused => exact hi
  | granted s _ hr => exact hi.granted hr _
  | revoked s st _ hr hst => exact hi.revoked hr hst

/-- Changing fields other than the state and the end timer. -/
theorem Lockstep.fields (hi : Lockstep h) (hr : h.record = some s) {x : Session}
    (hst : x.state = s.state) (hend : x.endTimeRemaining = s.endTimeRemaining) :
    Lockstep { h with record := some x } := by
  refine ⟨?_, ?_⟩
  · have hstate : ({ h with record := some x } : Host).inState .started ↔ h.inState .started := by
      simp only [inState, hr, Option.map_some, hst]
    exact hi.allowed.trans hstate.symm
  · intro x' hx'
    obtain ⟨rfl⟩ := hx'
    rw [hend]
    exact hi.endTimer s hr

/-- A record that is not STARTED can go. -/
theorem Lockstep.removed (hi : Lockstep h) (hr : h.record = some s) (hst : s.state ≠ .started) :
    Lockstep { h with record := none } := by
  have hrule : h.rule.isSome ≠ true := by
    rw [Ne, hi.allowed, inState, hr]
    simpa using hst
  exact ⟨by simp [inState, hrule], fun s' hs' => absurd hs' (by simp)⟩

/-- A record can come that is neither STARTED nor about to be removed. -/
theorem Lockstep.created (hi : Lockstep h) (hr : h.record = none) (hst : s.state ≠ .started)
    (hend : s.endTimeRemaining ≠ 0) : Lockstep { h with record := some s } := by
  have hrule : h.rule.isSome ≠ true := by
    rw [Ne, hi.allowed, inState, hr]
    simp
  refine ⟨by simp [inState, hst, hrule], ?_⟩
  intro s' hs'
  obtain ⟨rfl⟩ := hs'
  exact hend

theorem Lockstep.edited {s' : Session} (hi : Lockstep h) (hr : h.record = some s)
    (he : Edit s s') : Lockstep { h with record := some s' } := by
  cases he with
  | updated | bandwidth | quota | time | used => exact hi.fields hr rfl rfl
  | started | exhausted | paused | rearmed => exact hi.fields hr rfl rfl
  | ended hst h0 =>
    -- the one edit that counts the end timer down
    refine ⟨(hi.fields hr (x := s) rfl rfl).allowed, ?_⟩
    intro s' hs'
    obtain ⟨rfl⟩ := hs'
    exact h0

theorem lockstep_kept (a : String) (hst : s₀.state = .uninitialized)
    (hend : s₀.endTimeRemaining ≠ 0) : Kept a s₀ Lockstep where
  turn ht hi := ht.lockstep hi
  edit hr he hi := hi.edited hr he
  created hr hi := hi.created hr (by rw [hst]; decide) hend
  removed hr hst hi := hi.removed hr (by rw [hst]; decide)

/-! ## What a tick leaves behind -/

/-- No session is in a state for which its limits or timers have run out. -/
structure Settled (s : Session) : Prop where
  started : s.state = .started →
    s.timeRemaining ≠ 0 ∧ s.quotaRemaining ≠ 0 ∧ s.updateTimeRemaining ≠ 0
  exhausted : s.state = .exhausted → s.updateTimeRemaining ≠ 0
  ended : s.state = .ended → s.endTimeRemaining ≠ 0

theorem isExhausted_eq_false {s : Session} :
    isExhausted s = false ↔ s.timeRemaining ≠ 0 ∧ s.quotaRemaining ≠ 0 := by
  simp [isExhausted]

/-- What `Settled` asks of a record depends on its state. -/
theorem settled_of {s : Session} {z : SessionState}
    (h : match z with
      | .started => s.timeRemaining ≠ 0 ∧ s.quotaRemaining ≠ 0 ∧ s.updateTimeRemaining ≠ 0
      | .exhausted => s.updateTimeRemaining ≠ 0
      | .ended => s.endTimeRemaining ≠ 0
      | .paused | .uninitialized => True)
    (hst : s.state = z) : Settled s := by
  refine ⟨fun hx => ?_, fun hx => ?_, fun hx => ?_⟩
  · obtain rfl := hx.symm.trans hst
    exact h
  · obtain rfl := hx.symm.trans hst
    exact h
  · obtain rfl := hx.symm.trans hst
    exact h

/-- After a tick, no removal refused, the record is settled. -/
theorem tick_settled (hi : Lockstep h) (hok : RemovalsSucceed (tick a o h).issued) {s' : Session}
    (hr' : (tick a o h).host.record = some s') : Settled s' := by
  cases hr : h.record with
  | none =>
    simp only [tick, hr, stay] at hr'
    exact absurd hr' (by simp)
  | some s =>
    have hend := hi.endTimer s hr
    cases tick_passed hok hr hr' with
    | started hst =>
      unfold stateAfter
      -- it ended, it was exhausted, or it goes on with something left of everything
      split
      · exact settled_of hend rfl
      · next hu =>
        split
        · exact settled_of (z := .exhausted) (fun e => hu (.inl e)) rfl
        · next hx =>
          have hlimits := isExhausted_eq_false.mp (Bool.eq_false_iff.mpr hx)
          exact settled_of (z := .started) ⟨hlimits.1, hlimits.2, fun e => hu (.inl e)⟩ hst
    | exhausted hst =>
      split
      · exact settled_of hend rfl
      · next hu => exact settled_of (z := .exhausted) (fun e => hu (.inl e)) rfl
    | paused hst h0 => exact settled_of trivial hst
    | rearmed hst h0 => exact settled_of trivial hst
    | resumed hst h0 hx =>
      have hlimits := isExhausted_eq_false.mp hx
      exact settled_of (z := .started)
        ⟨hlimits.1, hlimits.2, by simp [startedRecord, UPDATE_TIME]⟩ rfl
    | ended hst h0 => exact settled_of (z := .ended) h0 hst
    | uninitialized hst => exact settled_of trivial hst

end Host

/-! ## Histories -/

/-- Every call keeps a host in lockstep. -/
theorem Controller.lockstep_kept (c : Controller) (a : String) :
    Host.Kept a (c.initSession a) Host.Lockstep :=
  Host.lockstep_kept a rfl (show END_TIME ≠ 0 by decide)

/-- Every host of the world is in lockstep. -/
def GwWorld.Lockstep (w : GwWorld) : Prop := ∀ a, (w.host a).Lockstep

theorem lockstep_init : GwWorld.init.Lockstep := fun a => by
  rw [init_host]
  exact Host.lockstep_empty

theorem Moment.Acts.lockstep {m : Moment} (hm : m.Acts) (hi : m.before.Lockstep) :
    m.after.Lockstep :=
  hm.kept Controller.lockstep_kept hi

/-- Lockstep, said of the firewall and the records as the Controller stores them. -/
theorem GwWorld.Lockstep.iff {w : GwWorld} (h : w.Lockstep) (a : String) :
    (w.env a).isSome = true ↔ ∃ s, w.mem.record a = some s ∧ s.state = .started := by
  have hal := (h a).allowed
  unfold Host.inState GwWorld.host at hal
  simpa using hal

theorem Reachable.lockstep {w : GwWorld} (h : Reachable w) : w.Lockstep :=
  h.invariant lockstep_init fun _ hm hi => hm.lockstep hi

/-- Every history from the start: no memory error; after each call a host is
allowed if and only if it has a STARTED record, and every record is stored under
its own IP; after a tick none of whose commands was refused, every record is
settled. -/
theorem execute_in_lockstep (sched : Schedule) :
    ∃ ms, execute GwWorld.init sched = some ms ∧ ms.map Moment.call = sched.map Prod.fst ∧
      ∀ m ∈ ms,
        (∀ a, (m.after.env a).isSome = true ↔
          ∃ s, m.after.mem.record a = some s ∧ s.state = .started) ∧
        (∀ (a : String) p, m.after.mem.sessions[a]? = some p →
          ∃ s, m.after.mem.heap p = some s ∧ s.IP = a) ∧
        (m.call = .tick → (∀ e ∈ m.issued, e.2 = 0) →
          ∀ a s, m.after.mem.record a = some s → Host.Settled s) := by
  obtain ⟨ms, hms, hcalls, hlinked⟩ :=
    execute_linked (w := GwWorld.init) Controller.wf_init sched
  refine ⟨ms, hms, hcalls, fun m hm => ?_⟩
  have hacts := hlinked.mem_acts m hm
  obtain ⟨hbefore, hafter⟩ :=
    (hlinked.invariant lockstep_init fun m _ ha hi => ha.lockstep hi).1 m hm
  refine ⟨hafter.iff, hacts.after_wf.stored, fun htick hok a s hr => ?_⟩
  obtain ⟨x, hhost, hissued⟩ := hacts.host a
  rw [htick] at hhost hissued
  refine Host.tick_settled (hbefore a) ?_ ((congrArg Host.record hhost).symm.trans hr)
  exact fun e he _ => hok e (hissued he)

end WifiGateway
