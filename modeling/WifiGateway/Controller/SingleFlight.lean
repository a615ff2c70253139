import WifiGateway.Controller.Reentrancy

/-!
# Single flight

The busy test of `runCommandExec` alone keeps at most one command in flight
(`Waiting.Machine.single_flight`). That it also protects the records takes the
whole of `Nested.lean`: whatever calls are made while a command runs, the memory
they leave behind is `Quiet`.

Nothing is assumed here of the calls, so a slot may well find its record gone
when its command completes. Such a run ends in a memory error, and all that is
said of it is what held before.
-/

namespace WifiGateway

open Waiting (Code Oracle Interference Machine Config Frame Step)

/-- A call of the bus, the quota beacon or the tick timer. -/
def Event.isCall : Event → Bool
  | .call _ => true
  | .cleanup => false

/-- The Controller on which any call may be made at any time. -/
def callGateway : Machine Event Controller Firewall Command Ptr :=
  gateway Event.isCall fun _ e => e.isCall

/-- Nothing is excluded and nothing is tracked but the memory invariant. -/
def bareRegime : Regime where
  safe := False
  guarded := False
  lockstep := False
  safe_of_guarded := id

theorem bare_rules :
    Machine.Rules callGateway bareRegime.interference bareRegime.Inv fun _ _ => True where
  refused := effect_refused
  opened e w _ hi := bareRegime.opens_event e w hi
  nested f e w₀ w hadm hd _ := by
    cases e with
    | cleanup => exact absurd hadm (by simp [callGateway, gateway, Event.isCall])
    | call i =>
      obtain ⟨hw₀, hw, henv₀, htame, -⟩ := hd
      obtain ⟨w', issued, hrun, hacts⟩ := nested_call hw i
      obtain ⟨hquiet, henv⟩ := hacts.quiet hw
      exact ⟨_, hrun, hw₀, hacts.wf, henv.trans henv₀,
        fun hc => ⟨fun hl => absurd hl id, (htame hc).2.trans hquiet.toTame hw₀⟩,
        fun hg => absurd hg id⟩
  completed f status w₀ w hd _ := ⟨fun hsafe => absurd hsafe id, fun hl => absurd hl id⟩

/-- Calls made while a command runs: the waiting slot stays as it is, and the
memory is quiet. -/
theorem calls_quiet (calls : List Event) {c : Config Event Controller Firewall Command Ptr}
    {f : Frame Event Controller Command Ptr} (hw : c.world.mem.WF) (hrun : c.running = true)
    (hstack : c.stack = [f]) :
    let c' := callGateway.run c (calls.map .call)
    c'.running = true ∧ c'.stack = [f] ∧ Quiet c.world.mem c'.world.mem := by
  induction calls generalizing c with
  | nil => exact ⟨hrun, hstack, .refl _⟩
  | cons e calls ih =>
    by_cases ha : callGateway.accepts c e = true
    · cases e with
      | cleanup =>
        exact absurd ha (by simp [Machine.accepts, callGateway, gateway, Event.isCall, hstack])
      | call i =>
        obtain ⟨w', issued, hslot, hacts⟩ := nested_call hw i
        obtain ⟨hquiet, -⟩ := hacts.quiet hw
        have hstep : callGateway.step c (.call (.call i)) = { c with world := w' } := by
          unfold Machine.step
          dsimp only
          rw [if_pos ha]
          exact callGateway.enter_running effect_refused _ _ hrun hslot
        rw [List.map_cons, Machine.run_cons, hstep]
        obtain ⟨hrun', hstack', hquiet'⟩ := ih (c := { c with world := w' }) hacts.wf hrun
          hstack
        exact ⟨hrun', hstack', hquiet.trans hquiet' hw⟩
    · have hstep : callGateway.step c (.call e) = c := by
        unfold Machine.step
        dsimp only
        rw [if_neg ha]
      rw [List.map_cons, Machine.run_cons, hstep]
      exact ih hw hrun hstack

/-- After a memory error nothing happens. -/
theorem calls_crashed (calls : List Event) {c : Config Event Controller Firewall Command Ptr}
    (hcrash : c.crashed = true) : callGateway.run c (calls.map .call) = c := by
  induction calls with
  | nil => rfl
  | cons e calls ih =>
    have hstep : callGateway.step c (.call e) = c := by simp [Machine.step, Machine.accepts, hcrash]
    rw [List.map_cons, Machine.run_cons, hstep]
    exact ih

/-- At any time at most one command is in flight; and whatever is called from
then on until it completes, it stays the one in flight, no record changes its
state, and records are only added UNINITIALIZED and only removed ENDED. -/
theorem one_command_at_a_time (steps : List (Step Event)) :
    let c := callGateway.run (Config.idle GwWorld.init) steps
    c.inFlight.length ≤ 1 ∧
      (c.running = true → ∀ calls : List Event,
        let c' := callGateway.run c (calls.map .call)
        c'.inFlight = c.inFlight ∧ Quiet c.world.mem c'.world.mem) := by
  intro c
  have hsingle := callGateway.single_flight (Machine.idle_single GwWorld.init) steps
  have hgood := Machine.Good.run bare_rules steps (c := Config.idle GwWorld.init)
    (.idle ⟨Controller.wf_init, fun hl => absurd hl id⟩) (callGateway.allSteps_true _ steps)
  refine ⟨?_, fun hrun calls => ?_⟩
  · have hlen : c.stack.length = if c.running then 1 else 0 := hsingle
    rw [Config.inFlight, List.length_map, hlen]
    split
    · exact Nat.le_refl 1
    · exact Nat.zero_le 1
  · have hc : Machine.Good callGateway bareRegime.interference bareRegime.Inv c := hgood
    generalize c = d at hc hrun ⊢
    cases hc with
    | idle hw => exact absurd hrun (by simp [Config.idle])
    | @waiting w₀ w f hd hn =>
      obtain ⟨-, hstack, hquiet⟩ := calls_quiet calls (c := ⟨w, true, [f], false⟩) hd.2.1 rfl rfl
      refine ⟨?_, hquiet⟩
      rw [Config.inFlight, hstack]
      rfl
    | crashed hcrash =>
      rw [calls_crashed calls hcrash]
      exact ⟨rfl, .refl _⟩

end WifiGateway
