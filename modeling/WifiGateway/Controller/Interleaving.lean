import WifiGateway.Controller.SingleFlight
import WifiGateway.Controller.History

/-!
# Interleavings

Two questions about calls that are delivered while a command runs.

*Is the firewall still in lockstep with the records whenever no command is in
flight?* Not in every interleaving: `start_deleted` is a run in which a host is
let in although its record went while `gw_add_host` was running. It is in every
run whose steps are `Careful` (`lockstep_when_careful`).

*Does `tick` only touch sessions that still exist?* Not if a call deletes one
that the loop is still to visit (`tick_deleted`), and it does if no call deletes
one (`tick_safe`).
-/

namespace WifiGateway

open Waiting (Code Oracle Interference Machine Config Frame Step)

/-! ## Lockstep -/

/-- The Controller on which anything may be delivered at any time, but for a
tick during a tick. -/
def fullGateway : Machine Event Controller Firewall Command Ptr :=
  gateway (fun _ => true) fun waiter e => !(waiter == .call .tick && e == .call .tick)

/-- Memory errors are excluded, and the firewall is tracked. -/
def lockstepRegime : Regime where
  safe := True
  guarded := False
  lockstep := True
  safe_of_guarded := fun _ => trivial

/-- A step that does not go wrong: a command completes only while the records
its slot goes on to use are still there, and `gw_clean_up` does not fail with a
host allowed; the clean-up is not requested during a host command with a host
allowed. -/
def Careful (c : Config Event Controller Firewall Command Ptr) : Step Event → Prop
  | .complete status => ∀ f ∈ c.stack, Stored (f.held status) c.world ∧
      (f.cmd = .cleanUp → status = 0 ∨ ∀ a, c.world.env a = none)
  | .call .cleanup => ∀ f ∈ c.stack, f.cmd ≠ .cleanUp → ∀ a, c.world.env a = none
  | .call (.call _) => True

/-- Calls keep hosts in lockstep. -/
theorem ActsOnAll.lockstep {o : Oracle Command} {w w' : GwWorld} {issued : List (Command × Int)}
    {i : Call} (h : ActsOnAll o w w' issued fun a x h => Host.step a (w.mem.initSession a) x h i)
    (hl : w.Lockstep) : w'.Lockstep := fun a => by
  obtain ⟨x, -, hhost, -⟩ := h.hosts a
  rw [hhost]
  exact (w.mem.lockstep_kept a).step (hl a) i

theorem careful_rules :
    Machine.Rules fullGateway lockstepRegime.interference lockstepRegime.Inv Careful where
  refused := effect_refused
  opened e w _ hi := lockstepRegime.opens_event e w hi
  nested f e w₀ w _ hd hcareful := by
    obtain ⟨hw₀, hw, henv₀, htame, -⟩ := hd
    cases e with
    | call i =>
      obtain ⟨w', issued, hrun, hacts⟩ := nested_call hw i
      obtain ⟨hquiet, henv⟩ := hacts.quiet hw
      exact ⟨_, hrun, hw₀, hacts.wf, henv.trans henv₀,
        fun hc => ⟨fun hl => hacts.lockstep ((htame hc).1 hl),
          (htame hc).2.trans hquiet.toTame hw₀⟩, fun hg => absurd hg id⟩
    | cleanup =>
      obtain ⟨w', issued, hrun, henv, hfresh, hsessions, hheap⟩ := nested_cleanup hw
      obtain ⟨hwf, htame'⟩ := empty_tame (c := w.mem) hfresh hsessions hheap
      refine ⟨_, hrun, hw₀, hwf, henv.trans henv₀, fun hc => ⟨fun _ => ?_,
        (htame hc).2.trans htame' hw₀⟩, fun hg => absurd hg id⟩
      apply empty_lockstep hsessions
      intro a
      rw [henv]
      exact hcareful f List.mem_cons_self hc a
  completed f status w₀ w hd hcareful := by
    obtain ⟨hstored, hclean⟩ := hcareful f List.mem_cons_self
    exact ⟨fun _ => hstored, fun _ => hclean⟩

/-- Every run of careful steps is good. -/
theorem careful_good {steps : List (Step Event)}
    (hsteps : fullGateway.AllSteps Careful (Config.idle GwWorld.init) steps) :
    Machine.Good fullGateway lockstepRegime.interference lockstepRegime.Inv
      (fullGateway.run (Config.idle GwWorld.init) steps) :=
  Machine.Good.run careful_rules steps (c := Config.idle GwWorld.init)
    (.idle ⟨Controller.wf_init, fun _ => lockstep_init⟩) hsteps

/-- A good configuration has had no memory error, and is in lockstep when nothing is in flight. -/
theorem lockstep_of_good {c : Config Event Controller Firewall Command Ptr}
    (hgood : Machine.Good fullGateway lockstepRegime.interference lockstepRegime.Inv c) :
    c.crashed = false ∧ (c.running = false → ∀ a,
      (c.world.env a).isSome = true ↔
        (c.world.mem.record a).map Session.state = some .started) := by
  cases hgood with
  | idle hi => exact ⟨rfl, fun _ a => (hi.lockstep trivial a).allowed⟩
  | waiting hd hn => exact ⟨rfl, fun hrun => absurd hrun (by simp)⟩
  | crashed hcrash hcr => exact absurd trivial hcr

/-- In every run of careful steps there is no memory error, and whenever no
command is in flight a host is allowed if and only if it has a STARTED record. -/
theorem lockstep_when_careful (steps : List (Step Event))
    (hsteps : fullGateway.AllSteps Careful (Config.idle GwWorld.init) steps) :
    let c := fullGateway.run (Config.idle GwWorld.init) steps
    c.crashed = false ∧ (c.running = false → ∀ a,
      (c.world.env a).isSome = true ↔ (c.world.mem.record a).map Session.state = some .started) :=
  lockstep_of_good (careful_good hsteps)

/-- A session is started, its bandwidth is set while the command runs, and it
is ended. -/
def carefulSteps : List (Step Event) :=
  [.call (.call (.startSession "10.0.0.7")), .call (.call (.setBandwidth "10.0.0.7" 500)),
    .call (.call .tick), .complete 0, .call (.call (.endSession "10.0.0.7")), .complete 1]

theorem lockstep_when_careful_started :
    (fullGateway.run (Config.idle GwWorld.init) carefulSteps).crashed = false ∧
      ((fullGateway.run (Config.idle GwWorld.init) carefulSteps).world.env "10.0.0.7").isSome
        = true := by
  have hcareful : fullGateway.AllSteps Careful (Config.idle GwWorld.init) carefulSteps := by
    refine ⟨trivial, trivial, trivial, ?_, trivial, ?_, trivial⟩
    · exact List.forall_mem_singleton.mpr ⟨by decide, fun hc => absurd hc (by decide)⟩
    · exact List.forall_mem_singleton.mpr ⟨by decide, fun hc => absurd hc (by decide)⟩
  obtain ⟨hcrash, hlock⟩ := lockstep_when_careful carefulSteps hcareful
  exact ⟨hcrash, (hlock (by decide) "10.0.0.7").mpr (by decide)⟩

/-- An ENDED session is started again, and deleted while `gw_add_host` runs. -/
def deletedSteps : List (Step Event) :=
  [.call (.call (.startSession "10.0.0.7")), .complete 0,
    .call (.call (.endSession "10.0.0.7")), .complete 0,
    .call (.call (.startSession "10.0.0.7")), .call (.call (.deleteSession "10.0.0.7")),
    .complete 0]

/-- The host is let in without a record. -/
theorem start_deleted :
    ¬ ∀ steps : List (Step Event),
      let c := fullGateway.run (Config.idle GwWorld.init) steps
      c.running = false → ∀ a, (c.world.env a).isSome = true ↔
        (c.world.mem.record a).map Session.state = some .started := by
  intro h
  exact absurd (h deletedSteps (by decide) "10.0.0.7") (by decide)

/-! ## The sessions that `tick` visits -/

/-- The Controller in its tick: calls of the bus and the quota beacon are
delivered at the waits, and nothing else starts. -/
def tickGateway : Machine Event Controller Firewall Command Ptr :=
  gateway (fun _ => false) fun _ e => e.isCall && e != .call .tick

/-- `tick` entered in the world `w`, its loop over the sessions in some order. -/
def tickStarted (w : GwWorld) (order : List Ptr) : Config Event Controller Firewall Command Ptr :=
  tickGateway.enter (.call .tick) (tickOver order) (Config.idle w)

/-- Memory errors are excluded by guarding the records that `tick` holds. -/
def guardedRegime : Regime where
  safe := True
  guarded := True
  lockstep := False
  safe_of_guarded := id

/-- A step that does not delete an ENDED session that the waiting slot holds. -/
def Spares (c : Config Event Controller Firewall Command Ptr) : Step Event → Prop
  | .call (.call (.deleteSession IP)) =>
    IP ≠ "" → ∀ p s, c.world.mem.sessions[IP]? = some p → c.world.mem.heap p = some s →
      s.state = .ended → ∀ f ∈ c.stack, ∀ status, p ∉ f.held status
  | _ => True

/-- Only a tick and a call to delete remove a record. -/
theorem Host.step_removes {a : String} {s s₀ : Session} {h : Host} {o : Outcomes} {c : Call}
    (hr : h.record = some s) (hr' : (Host.step a s₀ o h c).host.record = none) :
    c = .tick ∨ c = .deleteSession a ∧ a ≠ "" := by
  have hkept : ∀ {r : Result} {status : Int}, Host.Turn a status h r → r.host.record ≠ none := by
    intro r status ht hnone
    obtain ⟨s', hs'⟩ := ht.record hr
    exact absurd (hnone.symm.trans hs') (by simp)
  have hrelimit : ∀ f : Session → Session, (Host.relimit a f o h).host.record ≠ none := by
    intro f hnone
    unfold Host.relimit at hnone
    rw [Host.withRecord_some hr] at hnone
    obtain ⟨s₁, hs₁⟩ := (@Host.pause_turn a { h with record := some (f s) } o.remove).record rfl
    obtain ⟨s₂, hs₂⟩ := (@Host.play_turn a _ o.add).record hs₁
    exact absurd (hnone.symm.trans hs₂) (by simp)
  rcases Host.step_cases a s₀ o h c with ⟨he, hIP⟩ | ⟨he, -⟩
  · rw [he] at hr'
    cases c with
    | tick => exact .inl rfl
    | deleteSession IP =>
      obtain rfl := hIP IP rfl
      refine .inr ⟨rfl, fun ha => ?_⟩
      have hdiscard : (Host.discard IP o.remove h).host = (Host.finish IP o.remove h).host := by
        simp [Host.discard, ha]
      exact hkept Host.finish_turn ((congrArg Host.record hdiscard).symm.trans hr')
    | newSession => exact absurd hr' (by simp [Host.serve, Host.stay, Host.create])
    | startSession =>
      have hstart : (Host.startRecord a o.add s (Host.create s₀ h)).host.record = none := by
        simpa [Host.serve, Host.start_eq, hr] using hr'
      rcases Host.startRecord_record a o.add s (Host.create s₀ h) with hs | ⟨hs, -⟩
      · exact absurd (hs.symm.trans hstart) (by simp)
      · exact absurd (hs.symm.trans hstart) (by simp)
    | pauseSession => exact absurd hr' (hkept Host.pause_turn)
    | playSession => exact absurd hr' (hkept Host.play_turn)
    | endSession => exact absurd hr' (hkept Host.finish_turn)
    | setBandwidth => exact absurd hr' (hrelimit _)
    | setQuota => exact absurd hr' (hrelimit _)
    | updateSession | setTime | updateQuotaRemaining =>
      exact absurd hr' (by simp [Host.serve, Host.amend, Host.withRecord_some hr, Host.stay])
    | setDefaultBandWidth | setDefaultQuota | setDefaultTime | setDefaultSession
    | getDefaultSession | getSession | getAllSessions | getIPs =>
      exact absurd (hr.symm.trans hr') (by simp)
  · rw [he] at hr'
    exact absurd (hr.symm.trans hr') (by simp)

/-- What a nested call other than a tick deletes. -/
theorem ActsOnAll.deletes {w w' : GwWorld} {issued : List (Command × Int)} {i : Call}
    (hw : w.mem.WF)
    (h : ActsOnAll refusing w w' issued fun a x h => Host.step a (w.mem.initSession a) x h i)
    (htick : i ≠ .tick) {p : Ptr} {s : Session} (hs : w.mem.heap p = some s)
    (hs' : w'.mem.heap p = none) :
    s.state = .ended ∧ i = .deleteSession s.IP ∧ s.IP ≠ "" := by
  have hptr := hw.owned p s hs
  obtain ⟨x, -, hhost, -⟩ := h.hosts s.IP
  have hgone : w'.mem.record s.IP = none := by
    cases hq : w'.mem.sessions[s.IP]? with
    | none => exact Controller.record_none hq
    | some q =>
      obtain rfl := h.ptr _ p q hptr hq
      exact (Controller.record_some hq).trans hs'
  have hremoves := Host.step_removes (h := w.host s.IP) ((Controller.record_some hptr).trans hs)
    ((congrArg Host.record hhost).symm.trans hgone)
  obtain ⟨hdelete, hIP⟩ := hremoves.resolve_left htick
  exact ⟨(h.quiet hw).1.removed p s hs hs', hdelete, hIP⟩

theorem sparing_rules :
    Machine.Rules tickGateway guardedRegime.interference guardedRegime.Inv Spares where
  refused := effect_refused
  opened e w ho _ := absurd ho (by simp [tickGateway, gateway])
  nested f e w₀ w hadm hd hspares := by
    obtain ⟨hw₀, hw, henv₀, htame, hstored⟩ := hd
    cases e with
    | cleanup => exact absurd hadm (by simp [tickGateway, gateway, Event.isCall])
    | call i =>
      have htick : i ≠ .tick := by
        intro heq
        subst heq
        exact absurd hadm (by simp [tickGateway, gateway])
      obtain ⟨w', issued, hrun, hacts⟩ := nested_call hw i
      obtain ⟨hquiet, henv⟩ := hacts.quiet hw
      refine ⟨_, hrun, hw₀, hacts.wf, henv.trans henv₀, fun hc => ⟨fun hl => absurd hl id,
        (htame hc).2.trans hquiet.toTame hw₀⟩, fun hg status p hp hnone => ?_⟩
      obtain ⟨s, hs⟩ := Option.ne_none_iff_exists'.mp (hstored hg status p hp)
      obtain ⟨hended, rfl, hIP⟩ := hacts.deletes hw htick hs hnone
      exact hspares hIP p s (hw.owned p s hs) hs hended f List.mem_cons_self status hp
  completed f status w₀ w hd _ := by
    obtain ⟨-, -, -, -, hstored⟩ := hd
    exact ⟨fun _ => hstored trivial status, fun hl => absurd hl id⟩

/-- `tick`, over any map of sessions and in any order of its loop, has no memory
error in any run whose steps spare the sessions that it holds; and whatever it
holds at a wait is still stored in the map. -/
theorem tick_safe {w : GwWorld} (hw : w.mem.WF) {order : List Ptr}
    (horder : order.Perm w.mem.sessions.values) (steps : List (Step Event))
    (hsteps : tickGateway.AllSteps Spares (tickStarted w order) steps) :
    let c := tickGateway.run (tickStarted w order) steps
    c.crashed = false ∧
      ∀ f ∈ c.stack, ∀ status, ∀ p ∈ f.held status,
        ∃ a : String, c.world.mem.sessions[a]? = some p := by
  intro c
  have hinv : guardedRegime.Inv w := ⟨hw, fun hl => absurd hl id⟩
  have hheld : guardedRegime.Held order w := fun hsafe p hp =>
    hinv.held_values hsafe p (horder.subset hp)
  have hstart : Machine.Good tickGateway guardedRegime.interference guardedRegime.Inv
      (tickStarted w order) :=
    Machine.good_enter _
      (guardedRegime.tickOver_wp hinv hheld (horder.nodup_iff.mpr (values_nodup hw)))
  have hgood := Machine.Good.run sparing_rules steps hstart hsteps
  change Machine.Good tickGateway guardedRegime.interference guardedRegime.Inv c at hgood
  generalize c = d at hgood ⊢
  cases hgood with
  | idle hi => exact ⟨rfl, fun f hf => absurd hf List.not_mem_nil⟩
  | @waiting w₀ w f hd hn =>
    obtain ⟨-, hwf, -, -, hstored⟩ := hd
    refine ⟨rfl, fun g hg status p hp => ?_⟩
    obtain rfl := List.mem_singleton.mp hg
    obtain ⟨s, hs⟩ := Option.ne_none_iff_exists'.mp (hstored trivial status p hp)
    exact ⟨s.IP, hwf.owned p s hs⟩
  | crashed hcrash hcr => exact absurd trivial hcr

/-- Two sessions: one STARTED with a unit of time left, one ENDED. -/
def tickSchedule : Schedule :=
  [.setDefaultTime 1, .startSession "10.0.0.7", .startSession "10.0.0.8",
    .endSession "10.0.0.8"].map fun c => (c, fun _ _ => 0)

/-- The world after them. -/
def tickWorld : GwWorld := lastWorld GwWorld.init ((execute GwWorld.init tickSchedule).getD [])

theorem tickWorld_wf : tickWorld.mem.WF := by
  obtain ⟨ms, hms, -, hlinked⟩ := execute_linked (w := GwWorld.init) Controller.wf_init tickSchedule
  have hw := (hlinked.invariant (I := fun w => w.mem.WF) Controller.wf_init
    fun m _ hacts _ => hacts.after_wf).2
  rw [tickWorld, hms]
  exact hw

theorem tick_safe_update :
    (tickGateway.run (tickStarted tickWorld tickWorld.mem.sessions.values)
      [.call (.call (.updateSession "10.0.0.8")), .complete 0]).crashed = false :=
  (tick_safe tickWorld_wf (List.Perm.refl _)
    [.call (.call (.updateSession "10.0.0.8")), .complete 0] ⟨trivial, trivial, trivial⟩).1

/-- The ENDED session is deleted while `tick` waits for the other one's
`gw_remove_host`: the loop then reads a deleted record. -/
theorem tick_deleted :
    ¬ ∀ w : GwWorld, w.mem.WF → ∀ order : List Ptr, order.Perm w.mem.sessions.values →
      ∀ steps : List (Step Event),
        (tickGateway.run (tickStarted w order) steps).crashed = false := by
  intro h
  have hcrash := h tickWorld tickWorld_wf tickWorld.mem.sessions.values (List.Perm.refl _)
    [.call (.call (.deleteSession "10.0.0.8")), .complete 0]
  exact absurd hcrash (by decide)

end WifiGateway
