import WifiGateway.Controller.Isolation

/-!
# Every command succeeds

Without failures a call does to a host what its record alone decides, and `tick` is a
function of the record (`Host.ticked`, `Host.tick_success`). `execute_succeeds` gives the
moments of such a history; the results about timers are about these.
-/

namespace WifiGateway

open Waiting (Code Oracle)

namespace Host

variable {a : String} {s s' s₀ : Session} {h : Host} {c : Call}

/-- What a tick makes of a record; `none` when it removes it. -/
def ticked (s : Session) : Option Session :=
  match s.state with
  | .started => some { countStarted s with state := stateAfter (countStarted s) }
  | .exhausted =>
    some { countExhausted s with
      state := if (countExhausted s).updateTimeRemaining = 0 ∨
          (countExhausted s).activityTimeRemaining = 0 then .ended else .exhausted }
  | .paused =>
    if (countPaused s).pauseTimeRemaining ≠ 0 then some (countPaused s)
    else if isExhausted s = false then some (startedRecord (rearmPause (countPaused s)))
    else some (rearmPause (countPaused s))
  | .ended => if (countEnded s).endTimeRemaining = 0 then none else some (countEnded s)
  | .uninitialized => some s

/-- A command that succeeds is recorded as such. -/
theorem Turn.success {r : Result} (ht : Turn a 0 h r) : RemovalsSucceed r.issued := by
  intro e he _
  cases ht with
  | stayed => exact absurd he List.not_mem_nil
  | refused _ h0 _ => exact absurd rfl h0
  | granted =>
    obtain rfl := List.mem_singleton.mp he
    rfl
  | revoked =>
    obtain rfl := List.mem_singleton.mp he
    rfl

theorem RemovalsSucceed.append {l l' : List (Command × Int)} (hl : RemovalsSucceed l)
    (hl' : RemovalsSucceed l') : RemovalsSucceed (l ++ l') := by
  intro e he hrem
  rcases List.mem_append.mp he with he | he
  · exact hl e he hrem
  · exact hl' e he hrem

theorem tick_removals (a : String) (h : Host) : RemovalsSucceed (tick a .success h).issued := by
  have hnone : RemovalsSucceed [] := fun e he => absurd he List.not_mem_nil
  unfold tick
  cases hr : h.record with
  | none => exact hnone
  | some s =>
    unfold tickRecord
    dsimp only
    cases hst : s.state with
    | started =>
      exact (finishAt_turn.success.append finishAt_turn.success).append exhaustIf_turn.success
    | exhausted => exact finishAt_turn.success.append finishAt_turn.success
    | paused =>
      dsimp only
      split
      · exact play_turn.success
      · exact hnone
    | ended =>
      dsimp only
      split
      · exact hnone
      · exact hnone
    | uninitialized => exact hnone

/-- A PAUSED session is played unless its limits have run out. -/
theorem play_success (hr : h.record = some s) (hst : s.state = .paused) :
    (play a 0 h).host.record = some (if isExhausted s = false then startedRecord s else s) := by
  have hne : ¬ s.state = .started := by
    rw [hst]
    decide
  unfold play
  rw [withRecord_some hr, if_neg hne, if_pos hst]
  unfold startRecord
  rw [if_neg hne]
  split
  · simp only [letIn, if_pos]
  · rfl

theorem tick_success (a : String) (h : Host) :
    (tick a .success h).host.record = h.record.bind ticked := by
  have hok := tick_removals a h
  cases hr : h.record with
  | none => simp only [tick, hr, stay, Option.bind_none]
  | some s =>
    rw [Option.bind_some]
    unfold ticked
    cases hst : s.state with
    | started => exact tick_started hr hst hok
    | exhausted => exact tick_exhausted hr hst hok
    | paused =>
      simp only [tick, hr, tickRecord, hst]
      by_cases h0 : (countPaused s).pauseTimeRemaining = 0
      · rw [if_pos h0, if_neg (fun hne => hne h0)]
        have hplay := @play_success a (rearmPause (countPaused s))
          ⟨some (rearmPause (countPaused s)), h.rule⟩ rfl hst
        have hx : isExhausted (rearmPause (countPaused s)) = isExhausted s := rfl
        rw [hx] at hplay
        refine hplay.trans ?_
        split
        · rfl
        · rfl
      · rw [if_neg h0, if_pos h0]
        rfl
    | ended =>
      simp only [tick, hr, tickRecord, hst]
      split
      · rfl
      · rfl
    | uninitialized =>
      simp only [tick, hr, tickRecord, hst]
      exact hr

end Host

/-! ## Histories -/

/-- The calls, with every command succeeding. -/
def Schedule.succeeding (calls : List Call) : Schedule :=
  calls.map fun c => (c, WifiGateway.succeeding)

/-- A moment whose commands all succeed. -/
structure Moment.Succeeds (m : Moment) : Prop where
  acts : m.Acts
  host : ∀ a, m.after.host a =
    (Host.step a (m.before.mem.initSession a) .success (m.before.host a) m.call).host

/-- Calls whose commands all succeed leave a chain of such moments. -/
theorem execute_succeeds {w : GwWorld} (hw : w.mem.WF) (calls : List Call) :
    ∃ ms, execute w (Schedule.succeeding calls) = some ms ∧ ms.map Moment.call = calls ∧
      Linked w ms ∧ ∀ m ∈ ms, m.Succeeds := by
  induction calls generalizing w with
  | nil => exact ⟨[], rfl, rfl, trivial, fun m hm => absurd hm List.not_mem_nil⟩
  | cons i rest ih =>
    obtain ⟨reply, w', issued, hrun, hacts⟩ := slot_acts (o := succeeding) (t := []) hw i
    rw [List.append_nil] at hrun
    obtain ⟨ms, hms, hcalls, hlinked, hall⟩ := ih hacts.wf
    have hm : Moment.Succeeds ⟨w, i, issued, w'⟩ := by
      refine ⟨⟨hw, succeeding, hacts⟩, fun a => ?_⟩
      obtain ⟨x, hx, hhost, -⟩ := hacts.hosts a
      obtain rfl := allDrawn_succeeding hx
      exact hhost
    refine ⟨⟨w, i, issued, w'⟩ :: ms, ?_, ?_, ⟨rfl, hm.acts, hlinked⟩, fun m hmem => ?_⟩
    · have hms' : execute w' (rest.map fun c => (c, succeeding)) = some ms := hms
      simp only [Schedule.succeeding, List.map_cons, execute, hrun, hms', Option.map_some]
    · simp only [List.map_cons, hcalls]
    · rcases List.mem_cons.mp hmem with rfl | hmem
      · exact hm
      · exact hall m hmem

namespace Moment

variable {a : String} {m : Moment}

/-- What a tick makes of a record, every command succeeding. -/
theorem Succeeds.ticked (hm : m.Succeeds) (hc : m.call = .tick) (a : String) :
    m.after.mem.record a = (m.before.mem.record a).bind Host.ticked := by
  have hhost := congrArg Host.record (hm.host a)
  rw [hc] at hhost
  exact hhost.trans (Host.tick_success a (m.before.host a))

end Moment

end WifiGateway
