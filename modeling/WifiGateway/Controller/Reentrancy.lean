import WifiGateway.Controller.Waits

/-!
# The Controller as a re-entrant machine

The remaining slots under interference, `tick` and the clean-up among them, and
the machine of nested event loops over all of them (`gateway`). `slot_wp` and
`cleanup_wp` are the result for what the main loop calls; `nested_call` and
`nested_cleanup` are the result for what is called while a command runs.
-/

namespace WifiGateway

open Waiting (Code Oracle Interference Machine Config Frame Step)

variable {R : Regime} {w w' : GwWorld} {ps : List Ptr} {a : String}

/-! ## The tick -/

/-- The end of a pass over a STARTED or EXHAUSTED record. -/
theorem Regime.keeps_finishAt {b : Session → Prop} [DecidablePred b] {p : Ptr} (hp : p ∈ ps)
    {f : Session → Slot Unit} (hf : ∀ s, R.Keeps ps (f s)) :
    R.Keeps ps ((deref p).bind fun s =>
      (Code.when (b s) ((endSession s.IP).bind fun _ => .ret ())).bind fun _ => f s) :=
  (R.keeps_deref hp).bind fun s =>
    (R.keeps_when (R.keeps_endSession.bind fun _ => R.keeps_ret ())).bind fun _ => hf s

theorem Regime.Held.tail {p : Ptr} {rest : List Ptr} (hh : R.Held (p :: rest) w) :
    R.Held rest w := fun hsafe q hq => hh hsafe q (List.mem_cons_of_mem p hq)

/-- A pass over an ENDED record issues no command, and may remove the record. -/
theorem Regime.tickEnded_wp {p : Ptr} {rest : List Ptr} {s : Session} (hi : R.Inv w)
    (hh : R.Held (p :: rest) w) (hp : p ∉ rest) (hs : w.mem.heap p = some s)
    (hended : s.state = .ended) :
    R.wp ((tickSession p).holding (p :: rest)) (fun _ w' => R.Inv w' ∧ R.Held rest w') w := by
  have hptr := hi.wf.owned p s hs
  obtain ⟨x, -, w', hrun, he⟩ := tickSession_ended (o := refusing) (t := []) hi.wf hptr hs hended
  have hrec : (w.host s.IP).record = some s := (Controller.record_some hptr).trans hs
  have hissued : (Host.tickRecord s.IP x s (w.host s.IP)).issued = [] := by
    simp only [Host.tickRecord, hended, Host.stay]
    split <;> rfl
  rw [hissued] at hrun
  refine R.wp_of_run (o := refusing) (v := w') ((Code.run_holding ..).trans hrun) ⟨?_, ?_⟩
  · apply hi.of_effect he
    intro hl
    have htick := (w.mem.lockstep_kept s.IP).tick (o := x) (hi.lockstep hl s.IP)
    simp only [Host.tick, hrec] at htick
    exact htick
  · refine hh.tail.of_effect hi.wf he (.inr fun q hq hptr' => hp ?_)
    rw [Option.some.inj (hptr.symm.trans hptr')]
    exact hq

/-- One pass of the loop: the pointers that are still to be visited stay. -/
theorem Regime.tickSession_wp {p : Ptr} {rest : List Ptr} (hi : R.Inv w)
    (hh : R.Held (p :: rest) w) (hp : p ∉ rest) :
    R.wp ((tickSession p).holding (p :: rest)) (fun _ w' => R.Inv w' ∧ R.Held rest w') w := by
  have hmem : p ∈ p :: rest := List.mem_cons_self
  have hdone : ∀ {q : Slot Unit}, R.Keeps (p :: rest) q →
      R.wp (q.holding (p :: rest)) (fun _ w' => R.Inv w' ∧ R.Held rest w') w := fun hq =>
    Code.wp_mono (fun _ _ h => ⟨h.1, h.2.tail⟩) (hq w hi hh)
  cases hs : w.mem.heap p with
  | none =>
    -- a deleted record: the slot crashes, which a safe regime rules out
    simp only [tickSession, Code.bind_eq, Code.holding_bind, deref_holding]
    exact R.wp_bind _ _ (R.deref_wp (hh.not_safe hmem) fun s hs' =>
      absurd (hs.symm.trans hs') (by simp))
  | some s =>
    by_cases hended : s.state = .ended
    · exact R.tickEnded_wp hi hh hp hs hended
    · simp only [tickSession, Code.bind_eq, Code.holding_bind, deref_holding]
      refine R.wp_bind _ _ (R.deref_wp (hh.not_safe hmem) fun s' hs' => ?_)
      obtain rfl := Option.some.inj (hs.symm.trans hs')
      cases hst : s.state with
      | started =>
        -- the countdown, three attempts, three warnings
        refine hdone ((R.keeps_assign (f := countStarted) hmem (fun _ => rfl) (fun _ => rfl)
          fun _ => rfl).bind fun _ => ?_)
        apply (R.keeps_deref hmem).bind
        intro _
        refine (R.keeps_when ((R.keeps_exhaustSession hmem).bind fun _ => R.keeps_ret ())).bind
          fun _ => ?_
        apply R.keeps_finishAt hmem
        intro _
        apply R.keeps_finishAt hmem
        intro _
        apply (R.keeps_deref hmem).bind
        intro _
        apply (R.keeps_when (R.keeps_emitSignal _)).bind
        intro _
        exact (R.keeps_when (R.keeps_emitSignal _)).bind fun _ =>
          R.keeps_when (R.keeps_emitSignal _)
      | exhausted =>
        refine hdone ((R.keeps_assign (f := countExhausted) hmem (fun _ => rfl) (fun _ => rfl)
          fun _ => rfl).bind fun _ => ?_)
        apply R.keeps_finishAt hmem
        intro _
        apply (R.keeps_deref hmem).bind
        intro _
        exact R.keeps_when (R.keeps_endSession.bind fun _ => R.keeps_ret ())
      | paused =>
        refine hdone ((R.keeps_assign (f := countPaused) hmem (fun _ => rfl) (fun _ => rfl)
          fun _ => rfl).bind fun _ => ?_)
        apply (R.keeps_deref hmem).bind
        intro _
        refine (R.keeps_when ((R.keeps_assign (f := rearmPause) hmem (fun _ => rfl) (fun _ => rfl)
          fun _ => rfl).bind fun _ => R.keeps_playSession.bind fun _ => R.keeps_ret ())).bind
          fun _ => ?_
        apply (R.keeps_deref hmem).bind
        intro _
        exact R.keeps_when (R.keeps_emitSignal _)
      | ended => exact absurd hst hended
      | uninitialized => exact hdone (R.keeps_ret ())

/-- The loop over pointers that are all different. -/
theorem Regime.tickOver_wp {l : List Ptr} (hi : R.Inv w) (hh : R.Held l w) (hnd : l.Nodup) :
    R.wp (tickOver l) (fun _ w' => R.Inv w') w := by
  induction l generalizing w with
  | nil => exact hi
  | cons p rest ih =>
    obtain ⟨hp, hrest⟩ := List.nodup_cons.mp hnd
    exact R.wp_bind _ _ (Code.wp_mono (fun _ w' h => ih h.1 h.2 hrest) (R.tickSession_wp hi hh hp))

/-- The pointers of the map, when the loop starts. -/
theorem Regime.Inv.held_values (hi : R.Inv w) : R.Held w.mem.sessions.values w := by
  intro _ p hp
  obtain ⟨b, hb⟩ := QMap.mem_values.mp hp
  obtain ⟨s, hs, -⟩ := hi.wf.stored b p hb
  simp [hs]

/-! ## The slots that the main loop calls -/

/-- A slot called from the main loop keeps the invariant. -/
def Regime.Opens {α : Type} (R : Regime) (q : Slot α) : Prop :=
  ∀ w, R.Inv w → R.wp q (fun _ w' => R.Inv w') w

theorem Regime.Keeps.opens {α : Type} {q : Slot α} (hq : R.Keeps [] q) : R.Opens q := by
  intro w hi
  have hwp := hq w hi fun _ p hp => absurd hp List.not_mem_nil
  rw [Code.holding_nil] at hwp
  exact Code.wp_mono (fun _ w' h => h.1) hwp

theorem Regime.Opens.bind {α β : Type} {p : Slot α} {f : α → Slot β} (hp : R.Opens p)
    (hf : ∀ x, R.Opens (f x)) : R.Opens (p.bind f) := fun w hi =>
  R.wp_bind _ _ (Code.wp_mono (fun x w' h => hf x w' h) (hp w hi))

theorem Regime.opens_ret {α : Type} (x : α) : R.Opens (Code.ret x) := fun _ hi => hi

/-- A slot that only changes fields. -/
theorem Regime.opens_amendSession {f : Session → Session} (hIP : ∀ s, (f s).IP = s.IP)
    (hst : ∀ s, (f s).state = s.state)
    (hend : ∀ s, (f s).endTimeRemaining = s.endTimeRemaining) : R.Opens (amendSession a f) := by
  intro w hi
  apply R.withSession_wp hi (fun _ => hi)
  intro p s _ hs _
  refine R.wp_bind _ _ ?_
  refine R.assign_wp (fun h => absurd (h.symm.trans hs) (by simp)) ?_
  intro s' hs'
  exact (hi.assigned R.held_nil hs' (hIP s') (hst s')
    (hend s')).1

theorem Regime.opens_setLimit {f : Session → Session} (hIP : ∀ s, (f s).IP = s.IP)
    (hst : ∀ s, (f s).state = s.state)
    (hend : ∀ s, (f s).endTimeRemaining = s.endTimeRemaining) : R.Opens (setLimit a f) := by
  intro w hi
  apply R.withSession_wp hi (fun _ => hi)
  intro p s _ hs _
  refine R.wp_bind _ _ ?_
  refine R.assign_wp (fun h => absurd (h.symm.trans hs) (by simp)) ?_
  intro s' hs'
  have hi' := (hi.assigned R.held_nil hs' (hIP s')
    (hst s') (hend s')).1
  exact (R.keeps_pauseSession.opens.bind fun _ =>
    R.keeps_playSession.opens.bind fun _ => R.opens_ret 0) _ hi'

/-- A value that is not in the map has no key. -/
theorem QMap.key_eq_empty {m : QMap Ptr} {p : Ptr} (h : ∀ b : String, m[b]? ≠ some p) :
    m.key p = "" := by
  unfold QMap.key
  cases hf : m.toList.find? fun e => e.2 == p with
  | none => rfl
  | some e =>
    have he : e.2 = p := by simpa using List.find?_some hf
    have hmem : (e.1, e.2) ∈ m.toList := List.mem_of_find?_eq_some hf
    rw [he] at hmem
    exact absurd (QMap.mem_toList.mp hmem) (h e.1)

/-- Removing a session that is not STARTED, if it is still in the map. -/
theorem Regime.removeSession_wp {p : Ptr} (hi : R.Inv w)
    (hst : ∀ s, w.mem.heap p = some s → s.state = .ended) :
    R.wp (removeSession p) (fun _ w' => R.Inv w') w := by
  cases hs : w.mem.heap p with
  | none =>
    -- deleted while the command ran, and so no longer in the map
    have hkey : w.mem.sessions.key p = "" := QMap.key_eq_empty fun b hb => by
      obtain ⟨s, hs', -⟩ := hi.wf.stored b p hb
      exact absurd (hs.symm.trans hs') (by simp)
    refine R.wp_of_run (o := refusing) (v := w) (x := ()) ?_ hi
    simp [removeSession, Code.run_when, hkey]
  | some s =>
    have hptr := hi.wf.owned p s hs
    by_cases hIP : s.IP = ""
    · rw [hIP] at hptr
      exact R.wp_of_run (o := refusing) (removeSession_run_empty hi.wf hptr) hi
    · refine R.wp_of_run (o := refusing) (removeSession_run hi.wf hptr hIP) ?_
      apply hi.of_effect (Effect.remove hi.wf hptr)
      intro hl
      have hrec : (w.host s.IP).record = some s := (Controller.record_some hptr).trans hs
      exact (hi.lockstep hl s.IP).removed hrec (by simp [hst s hs])

theorem Regime.opens_deleteSession : R.Opens (deleteSession a) := by
  intro w hi
  apply R.withSession_wp hi (fun _ => hi)
  intro p s hp hs hIP
  refine R.wp_bind _ _ ?_
  have hend := R.endSession_wp (a := a) hi R.held_nil
  rw [Code.holding_nil] at hend
  refine Code.wp_mono (fun r w' h => R.wp_bind _ _ ?_) hend
  obtain ⟨hi', -, hended⟩ := h
  by_cases h0 : r = 0
  · simp only [Code.when, h0, if_true]
    exact R.removeSession_wp hi' fun s' hs' => (hended h0 p s' hp hs').1
  · simp only [Code.when, if_neg h0]
    exact hi'

theorem Regime.opens_tick : R.Opens tick := fun _ hi =>
  R.tickOver_wp hi hi.held_values (values_nodup hi.wf)

/-- Slots that change nothing a host is about. -/
theorem Regime.opens_modify {f : Controller → Controller}
    (hsessions : ∀ c, (f c).sessions = c.sessions) (hheap : ∀ c, (f c).heap = c.heap)
    (hfresh : ∀ c, (f c).fresh = c.fresh) :
    R.Opens ((Code.modify f : Slot Unit).bind fun _ => .ret (0 : Int)) := by
  intro w hi
  refine ⟨⟨?_, ?_, ?_⟩, fun hl b => ?_⟩
  · rw [hsessions, hheap]
    exact hi.wf.stored
  · rw [hsessions, hheap]
    exact hi.wf.owned
  · rw [hfresh, hheap]
    exact hi.wf.unused
  · have hhost : GwWorld.host { w with mem := f w.mem } b = w.host b := by
      simp only [GwWorld.host, Controller.record, hsessions, hheap]
    rw [hhost]
    exact hi.lockstep hl b

theorem Regime.opens_getSession : R.Opens (getSession a) := by
  intro w hi
  cases hp : w.mem.sessions[a]? with
  | none =>
    exact R.wp_of_run (o := refusing) (v := w) (by simp [getSession, hp]; rfl) hi
  | some p =>
    obtain ⟨s, hs, -⟩ := hi.wf.stored a p hp
    exact R.wp_of_run (o := refusing) (v := w) (by simp [getSession, hp, run_deref hs]; rfl) hi

theorem Regime.opens_getAllSessions : R.Opens getAllSessions := by
  intro w hi
  obtain ⟨ss, hss⟩ := derefAll_run (o := refusing) (t := []) w.mem.sessions.values fun p hp => by
    obtain ⟨b, hb⟩ := QMap.mem_values.mp hp
    obtain ⟨s, hs, -⟩ := hi.wf.stored b p hb
    exact ⟨s, hs⟩
  exact R.wp_of_run (o := refusing) (v := w) (by simpa [getAllSessions] using hss) hi

/-- Every call made from the main loop keeps the invariant. -/
theorem Regime.opens_slot (i : Call) : R.Opens i.slot := by
  have hstatus : ∀ {q : Slot Int}, R.Opens q → R.Opens (q.bind fun r => .ret (Reply.status r)) :=
    fun hq => hq.bind fun r => R.opens_ret _
  cases i with
  | newSession IP => exact hstatus R.keeps_newSession.opens
  | startSession IP => exact hstatus R.keeps_startSession.opens
  | pauseSession IP => exact hstatus R.keeps_pauseSession.opens
  | playSession IP => exact hstatus R.keeps_playSession.opens
  | endSession IP => exact hstatus R.keeps_endSession.opens
  | deleteSession IP => exact hstatus R.opens_deleteSession
  | updateSession IP | setTime IP | updateQuotaRemaining IP =>
    exact hstatus (R.opens_amendSession (fun _ => rfl) (fun _ => rfl) fun _ => rfl)
  | setBandwidth IP | setQuota IP =>
    exact hstatus (R.opens_setLimit (fun _ => rfl) (fun _ => rfl) fun _ => rfl)
  | setDefaultBandWidth | setDefaultQuota | setDefaultTime | setDefaultSession =>
    exact hstatus (R.opens_modify (fun _ => rfl) (fun _ => rfl) fun _ => rfl)
  | getDefaultSession => exact fun _ hi => hi
  | getIPs => exact fun _ hi => hi
  | getSession IP => exact R.opens_getSession.bind fun s => R.opens_ret _
  | getAllSessions => exact R.opens_getAllSessions.bind fun ss => R.opens_ret _
  | tick => exact R.opens_tick.bind fun _ => R.opens_ret _

/-! ## The clean-up -/

theorem deleteAll_run {o : Oracle Command} {t : List (Command × Int)} (l : List Ptr)
    (hnd : l.Nodup) (hl : ∀ p ∈ l, w.mem.heap p ≠ none) :
    ∃ w' : GwWorld, (deleteAll l).run Command.effect o w t = some ((), w', t) ∧
      w'.env = w.env ∧ w'.mem.fresh = w.mem.fresh ∧
      ∀ q, w'.mem.heap q = if q ∈ l then none else w.mem.heap q := by
  induction l generalizing w with
  | nil => exact ⟨w, rfl, rfl, rfl, fun q => by simp⟩
  | cons p rest ih =>
    obtain ⟨hp, hrest⟩ := List.nodup_cons.mp hnd
    obtain ⟨s, hs⟩ := Option.ne_none_iff_exists'.mp (hl p List.mem_cons_self)
    have hl' : ∀ q ∈ rest, (w.mem.free p).heap q ≠ none := by
      intro q hq
      have hne : q ≠ p := by
        intro heq
        subst heq
        exact hp hq
      rw [Controller.heap_free, if_neg hne]
      exact hl q (List.mem_cons_of_mem p hq)
    obtain ⟨w', hrun, henv, hfresh, hheap⟩ := ih (w := { w with mem := w.mem.free p }) hrest hl'
    refine ⟨w', by simp [deleteAll, run_delete hs, hrun], henv, hfresh, fun q => ?_⟩
    rw [hheap, Controller.heap_free]
    by_cases hq : q = p
    · simp [hq]
    · simp [hq]

/-- `clearSessions` leaves no record behind. -/
theorem clearSessions_run {o : Oracle Command} {t : List (Command × Int)} (hw : w.mem.WF) :
    ∃ w' : GwWorld, clearSessions.run Command.effect o w t = some ((), w', t) ∧
      w'.env = w.env ∧ w'.mem.fresh = w.mem.fresh ∧ (∀ a : String, w'.mem.sessions[a]? = none) ∧
      ∀ p, w'.mem.heap p = none := by
  obtain ⟨w₁, hrun, henv, hfresh, hheap⟩ := deleteAll_run (w := w) (o := o) (t := t)
    w.mem.sessions.values (values_nodup hw) fun p hp => by
      obtain ⟨b, hb⟩ := QMap.mem_values.mp hp
      obtain ⟨s, hs, -⟩ := hw.stored b p hb
      simp [hs]
  refine ⟨{ w₁ with mem := { w₁.mem with sessions := ∅ } }, by simp [clearSessions, hrun], henv,
    hfresh, fun a => by simp, fun p => ?_⟩
  show w₁.mem.heap p = none
  rw [hheap]
  split
  · rfl
  · next hp =>
    -- every record is in the map, so what was not deleted was not there
    cases hs : w.mem.heap p with
    | none => rfl
    | some s => exact absurd (QMap.mem_values.mpr ⟨s.IP, hw.owned p s hs⟩) hp

/-- Without records, memory is well-formed and tame. -/
theorem empty_tame {c c' : Controller} (hfresh : c'.fresh = c.fresh)
    (hsessions : ∀ a : String, c'.sessions[a]? = none) (hheap : ∀ p, c'.heap p = none) :
    c'.WF ∧ Tame c c' := by
  refine ⟨⟨fun b p hp => ?_, fun p s hs => ?_, fun p _ => hheap p⟩, ⟨Nat.le_of_eq hfresh.symm,
    fun p _ _ => hheap p, fun p s s' _ hs' => ?_⟩⟩
  · exact absurd ((hsessions b).symm.trans hp) (by simp)
  · exact absurd ((hheap p).symm.trans hs) (by simp)
  · exact absurd ((hheap p).symm.trans hs') (by simp)

/-- No records and no allowed host. -/
theorem empty_lockstep (hsessions : ∀ a : String, w.mem.sessions[a]? = none)
    (henv : ∀ a, w.env a = none) : w.Lockstep := fun a => by
  have hhost : w.host a = ⟨none, none⟩ := by
    simp only [GwWorld.host, henv, Controller.record_none (hsessions a)]
  rw [hhost]
  exact Host.lockstep_empty

theorem Regime.opens_cleanup : R.Opens cleanup := by
  intro w hi
  refine R.wp_bind _ _ ⟨⟨hi.wf, hi.wf, rfl, fun hc => absurd rfl hc, fun _ _ p hp =>
    absurd hp List.not_mem_nil⟩, fun w' status hd he => ?_⟩
  show R.wp clearSessions _ _
  obtain ⟨w'', hrun, henv, hfresh, hsessions, hheap⟩ := clearSessions_run (o := refusing) (t := [])
    (w := { w' with env := Command.cleanUp.effect status w'.env }) hd.2.1
  refine R.wp_of_run (o := refusing) hrun ⟨(empty_tame hfresh hsessions hheap).1, fun hl => ?_⟩
  apply empty_lockstep hsessions
  intro a
  rw [henv]
  show (if status = 0 then fun _ => none else w'.env) a = none
  split
  · rfl
  · next h0 => exact (he.2 hl rfl).resolve_left h0 a

/-! ## The machine -/

/-- What can happen to the Controller. -/
inductive Event
  | call (i : Call)
  | cleanup
  deriving DecidableEq

/-- The slot behind an event; what it returns does not matter here. -/
def Event.slot : Event → Slot Unit
  | .call i => do let _ ← i.slot
  | .cleanup => WifiGateway.cleanup

/-- The Controller with nested event loops: `opens` are the events of the main
loop, and `admits waiter` those delivered while `waiter` waits. -/
def gateway (opens : Event → Bool) (admits : Event → Event → Bool) :
    Machine Event Controller Firewall Command Ptr where
  effect := Command.effect
  refused := refusedStatus
  slot := Event.slot
  opens := opens
  admits := admits

/-- A command that fails has no effect. -/
theorem effect_failed {c : Command} {status : Int} {fw : Firewall} (h : status ≠ 0) :
    c.effect status fw = fw := by
  cases c with
  | addHost | removeHost | cleanUp => exact if_neg h

theorem effect_refused (c : Command) (fw : Firewall) : c.effect refusedStatus fw = fw :=
  effect_failed (by decide)

theorem Regime.opens_event (e : Event) : R.Opens e.slot := by
  cases e with
  | call i => exact (R.opens_slot i).bind fun _ => R.opens_ret ()
  | cleanup => exact R.opens_cleanup

/-- A call made while a command runs. -/
theorem nested_call (hw : w.mem.WF) (i : Call) :
    ∃ (w' : GwWorld) (issued : List (Command × Int)),
      (Event.call i).slot.run Command.effect refusing w [] = some ((), w', issued) ∧
        ActsOnAll refusing w w' issued fun a x h => Host.step a (w.mem.initSession a) x h i := by
  obtain ⟨reply, w', issued, hrun, h⟩ := slot_acts (o := refusing) (t := []) hw i
  rw [List.append_nil] at hrun
  exact ⟨w', issued, by simp [Event.slot, hrun], h⟩

/-- The clean-up, requested while a command runs: its own command is refused,
and the records go all the same. -/
theorem nested_cleanup (hw : w.mem.WF) :
    ∃ (w' : GwWorld) (issued : List (Command × Int)),
      Event.cleanup.slot.run Command.effect refusing w [] = some ((), w', issued) ∧
        w'.env = w.env ∧ w'.mem.fresh = w.mem.fresh ∧
        (∀ a : String, w'.mem.sessions[a]? = none) ∧ ∀ p, w'.mem.heap p = none := by
  obtain ⟨w', hrun, henv, hrest⟩ := clearSessions_run (o := refusing)
    (t := [(.cleanUp, refusedStatus)]) hw
  refine ⟨w', [(.cleanUp, refusedStatus)], ?_, henv, hrest⟩
  have hwait : cleanup.run Command.effect refusing w []
      = clearSessions.run Command.effect refusing w [(.cleanUp, refusedStatus)] := rfl
  exact hwait.trans hrun

end WifiGateway
