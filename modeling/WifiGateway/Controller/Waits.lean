import WifiGateway.Controller.Nested
import WifiGateway.Waiting.Machine

/-!
# The slots under interference

Each slot is proved once to keep the Controller's invariant when other calls run
at its waits. What is assumed of these calls, and what is kept, depends on a
`Regime`: whether memory errors are excluded (`safe`), whether the records a
waiting slot still uses are guarded from removal (`guarded`), and whether the
firewall is tracked (`lockstep`).

`Keeps R ps q` is the triple the slots that `tick` calls are proved with: under
the regime `R`, with the pointers `ps` in the hands of its caller, `q` keeps the
invariant and the records behind `ps`.
-/

namespace WifiGateway

open Waiting (Code Oracle Interference)

/-- What the interference promises. -/
structure Regime where
  safe : Prop
  guarded : Prop
  lockstep : Prop
  safe_of_guarded : guarded → safe

/-- The records behind the pointers are there. -/
def Stored (ps : List Ptr) (w : GwWorld) : Prop := ∀ p ∈ ps, w.mem.heap p ≠ none

instance (ps : List Ptr) (w : GwWorld) : Decidable (Stored ps w) :=
  inferInstanceAs (Decidable (∀ p ∈ ps, w.mem.heap p ≠ none))

namespace Regime

variable (R : Regime)

/-- What every slot keeps. -/
structure Inv (w : GwWorld) : Prop where
  wf : w.mem.WF
  lockstep : R.lockstep → w.Lockstep

/-- The caller's records, as far as they are tracked. -/
def Held (ps : List Ptr) (w : GwWorld) : Prop := R.safe → Stored ps w

/-- While a host command runs, memory stays tame and the firewall as it is;
while `gw_clean_up` runs, records may go. A command that completes finds the
records that its slot goes on to use, and `gw_clean_up` does not fail with a
host allowed. -/
def interference : Interference Controller Firewall Command Ptr where
  during c held w w' :=
    w.mem.WF ∧ w'.mem.WF ∧ w'.env = w.env ∧
      (c ≠ .cleanUp → (R.lockstep → GwWorld.Lockstep w') ∧ Tame w.mem w'.mem) ∧
      (R.guarded → ∀ status, Stored (held status) w')
  ends c held status w' :=
    (R.safe → Stored (held status) w') ∧
      (R.lockstep → c = .cleanUp → status = 0 ∨ ∀ a, w'.env a = none)
  crashes := ¬ R.safe

/-- Weakest preconditions under a regime. -/
abbrev wp {α : Type} (p : Slot α) (Q : α → GwWorld → Prop) (w : GwWorld) : Prop :=
  p.wp Command.effect R.interference Q w

/-- `q` keeps the invariant and the records in the hands of its caller. -/
def Keeps {α : Type} (ps : List Ptr) (q : Slot α) : Prop :=
  ∀ w, R.Inv w → R.Held ps w → R.wp (q.holding ps) (fun _ w' => R.Inv w' ∧ R.Held ps w') w

end Regime

variable {R : Regime} {w w' : GwWorld} {ps : List Ptr} {a : String} {α β : Type}

theorem Regime.Inv.of_effect {h : Host} (hi : R.Inv w) (he : Effect a h w w')
    (hl : R.lockstep → h.Lockstep) : R.Inv w' := by
  refine ⟨he.wf, fun hlock b => ?_⟩
  by_cases hb : b = a
  · rw [hb, he.host]
    exact hl hlock
  · rw [he.others b hb]
    exact hi.lockstep hlock b

/-- A slot that goes on to use nothing. -/
theorem Regime.held_nil : R.Held [] w := fun _ _ hq => absurd hq List.not_mem_nil

/-- Records stay when one host's record is changed, or another one's removed. -/
theorem Regime.Held.of_effect {h : Host} (hw : w.mem.WF) (hh : R.Held ps w) (he : Effect a h w w')
    (hkeep : h.record ≠ none ∨ ∀ p ∈ ps, w.mem.sessions[a]? ≠ some p) : R.Held ps w' := by
  intro hsafe p hp
  obtain ⟨s, hs⟩ := Option.ne_none_iff_exists'.mp (hh hsafe p hp)
  have hptr := hw.owned p s hs
  have hptr' : w'.mem.sessions[s.IP]? = some p := by
    by_cases hb : s.IP = a
    · rw [hb] at hptr ⊢
      rcases hkeep with hr | hr
      · exact he.keeps_ptr hr hptr
      · exact absurd hptr (hr p hp)
    · rw [he.otherPtr _ hb]
      exact hptr
  obtain ⟨s', hs', -⟩ := he.wf.stored _ p hptr'
  rw [hs']
  simp

/-! ## Rules -/

theorem Regime.wp_bind (p : Slot α) (f : α → Slot β) {Q : β → GwWorld → Prop}
    (h : R.wp p (fun a w' => R.wp (f a) Q w') w) : R.wp (p.bind f) Q w :=
  (Code.wp_bind p f Q w).mpr h

theorem Regime.Keeps.bind {p : Slot α} {f : α → Slot β} (hp : R.Keeps ps p)
    (hf : ∀ a, R.Keeps ps (f a)) : R.Keeps ps (p.bind f) := by
  intro w hi hh
  rw [Code.holding_bind]
  exact R.wp_bind _ _ (Code.wp_mono (fun a w' h => hf a w' h.1 h.2) (hp w hi hh))

theorem Regime.keeps_ret (a : α) : R.Keeps ps (Code.ret a) := fun _ hi hh => ⟨hi, hh⟩

theorem Regime.keeps_when {b : Prop} [Decidable b] {p : Slot Unit} (hp : R.Keeps ps p) :
    R.Keeps ps (Code.when b p) := by
  unfold Code.when
  split
  · exact hp
  · exact R.keeps_ret ()

/-- A slot that issues no command ends where it ends alone. -/
theorem Regime.wp_of_run {o : Oracle Command} {p : Slot α} {Q : α → GwWorld → Prop} {x : α}
    {v : GwWorld} (h : p.run Command.effect o w [] = some (x, v, [])) (hQ : Q x v) : R.wp p Q w :=
  Code.wp_of_run h hQ

theorem deref_holding (p : Ptr) : (deref p).holding ps = deref p := by
  unfold deref
  simp only [Code.bind_eq, Code.holding_bind, Code.holding_get]
  congr 1
  funext c
  split <;> rfl

theorem assign_holding (p : Ptr) (f : Session → Session) :
    (assign p f).holding ps = assign p f := by
  simp only [assign, Code.bind_eq, Code.holding_bind, deref_holding, Code.holding_modify]

/-- Reading a record. -/
theorem Regime.deref_wp {p : Ptr} {Q : Session → GwWorld → Prop}
    (hcrash : w.mem.heap p = none → ¬ R.safe) (hQ : ∀ s, w.mem.heap p = some s → Q s w) :
    R.wp (deref p) Q w := by
  cases hp : w.mem.heap p with
  | none =>
    simp only [Regime.wp, deref, Code.bind_eq, Code.wp_bind, Code.wp_get, hp, Code.wp_crash]
    exact hcrash hp
  | some s => exact R.wp_of_run (o := refusing) (run_deref hp) (hQ s hp)

/-- Writing fields of a record. -/
theorem Regime.assign_wp {p : Ptr} {f : Session → Session} {Q : Unit → GwWorld → Prop}
    (hcrash : w.mem.heap p = none → ¬ R.safe)
    (hQ : ∀ s, w.mem.heap p = some s → Q () { w with mem := w.mem.store p (f s) }) :
    R.wp (assign p f) Q w := by
  cases hp : w.mem.heap p with
  | none =>
    simp only [Regime.wp, assign, deref, Code.bind_eq, Code.wp_bind, Code.wp_get, hp, Code.wp_crash]
    exact hcrash hp
  | some s => exact R.wp_of_run (o := refusing) (run_assign hp f) (hQ s hp)

theorem Regime.Held.not_safe {p : Ptr} (hh : R.Held ps w) (hp : p ∈ ps)
    (hnone : w.mem.heap p = none) : ¬ R.safe := fun hsafe => hh hsafe p hp hnone

theorem Regime.keeps_deref {p : Ptr} (hp : p ∈ ps) : R.Keeps ps (deref p) := by
  intro w hi hh
  rw [deref_holding]
  exact R.deref_wp (hh.not_safe hp) fun s _ => ⟨hi, hh⟩

/-- Changing fields other than the IP, the state and the end timer. -/
theorem Regime.Inv.assigned {p : Ptr} {s s' : Session} (hi : R.Inv w) (hh : R.Held ps w)
    (hs : w.mem.heap p = some s) (hIP : s'.IP = s.IP) (hst : s'.state = s.state)
    (hend : s'.endTimeRemaining = s.endTimeRemaining) :
    R.Inv { w with mem := w.mem.store p s' } ∧ R.Held ps { w with mem := w.mem.store p s' } := by
  have hp := hi.wf.owned p s hs
  have he := Effect.store hi.wf hp hIP
  have hrec : (w.host s.IP).record = some s := (Controller.record_some hp).trans hs
  exact ⟨hi.of_effect he fun hl => (hi.lockstep hl s.IP).fields hrec hst hend,
    hh.of_effect hi.wf he (.inl (by simp))⟩

theorem Regime.keeps_assign {p : Ptr} (hp : p ∈ ps) {f : Session → Session}
    (hIP : ∀ s, (f s).IP = s.IP) (hst : ∀ s, (f s).state = s.state)
    (hend : ∀ s, (f s).endTimeRemaining = s.endTimeRemaining) : R.Keeps ps (assign p f) := by
  intro w hi hh
  rw [assign_holding]
  exact R.assign_wp (hh.not_safe hp) fun s hs => hi.assigned hh hs (hIP s) (hst s) (hend s)

theorem Regime.keeps_emitSignal (x : Signal) : R.Keeps ps (emitSignal x) := by
  intro w hi hh
  refine ⟨⟨⟨hi.wf.stored, hi.wf.owned, hi.wf.unused⟩, fun hl a => ?_⟩, fun hsafe => hh hsafe⟩
  exact hi.lockstep hl a

/-- Waiting for a host command. -/
theorem Regime.runCommandExec_wp {c : Command} {held : Int → List Ptr} {Q : Int → GwWorld → Prop}
    (hc : c ≠ .cleanUp) (hi : R.Inv w) (hh : ∀ status, R.Held (held status) w)
    (hQ : ∀ (w' : GwWorld) status, R.Inv w' → Tame w.mem w'.mem → R.Held (held status) w' →
      Q status { w' with env := c.effect status w'.env }) :
    R.wp (runCommandExec c held) Q w := by
  refine ⟨⟨hi.wf, hi.wf, rfl, fun _ => ⟨hi.lockstep, .refl _⟩,
    fun hg status => hh status (R.safe_of_guarded hg)⟩, fun w' status hd he => ?_⟩
  obtain ⟨-, hwf, -, htame, -⟩ := hd
  obtain ⟨hlock, htame⟩ := htame hc
  exact hQ w' status ⟨hwf, hlock⟩ htame he.1

theorem held_ifSuccess {p : Ptr} (hh : R.Held ps w) (hp : w.mem.heap p ≠ none) (status : Int) :
    R.Held (ps ++ ifSuccess p status) w := by
  intro hsafe q hq
  rcases List.mem_append.mp hq with hq | hq
  · exact hh hsafe q hq
  · unfold ifSuccess at hq
    split at hq
    · rw [List.mem_singleton.mp hq]
      exact hp
    · exact absurd hq List.not_mem_nil

theorem Regime.Held.append {qs : List Ptr} (hh : R.Held (ps ++ qs) w) :
    R.Held ps w ∧ R.Held qs w :=
  ⟨fun hsafe p hp => hh hsafe p (List.mem_append_left qs hp),
    fun hsafe p hp => hh hsafe p (List.mem_append_right ps hp)⟩

/-! ## Commands -/

/-- A command about host `a`, and the assignment of `f` to its record once it succeeds;
`rule` is what the firewall has for the host then. -/
theorem Regime.access_wp (c : Command) (f : Session → Session)
    (rule : Firewall → Option HostRule) {p : Ptr} {s : Session} (hi : R.Inv w)
    (hh : R.Held ps w) (hs : w.mem.heap p = some s) (hIP : s.IP = a) (hc : c ≠ .cleanUp)
    (hdone : ∀ env, c.effect 0 env = Function.update env a (rule env))
    (hfailed : ∀ status env, status ≠ 0 → c.effect status env = env)
    (hf : ∀ s, (f s).IP = s.IP)
    (hlock : ∀ {h : Host} {s : Session} (env : Firewall), h.record = some s → h.Lockstep →
      Host.Lockstep ⟨some (f s), rule env⟩) :
    R.wp (((runCommandExec c (ifSuccess p)).bind fun success =>
        (Code.when (success = 0) (assign p f)).bind fun _ => .ret success).holding ps)
      (fun r w' => R.Inv w' ∧ R.Held ps w' ∧
        (r = 0 → ∃ s', w'.mem.heap p = some (f s') ∧ s'.IP = a)) w := by
  simp only [runCommandExec, Code.holding_bind, Code.holding_command, Code.holding_when,
    assign_holding, Code.holding_ret]
  refine R.wp_bind _ _ (R.runCommandExec_wp hc hi
    (held_ifSuccess hh (by simp [hs])) fun w' status hi' htame hh' => ?_)
  obtain ⟨hps, hp⟩ := hh'.append
  refine R.wp_bind _ _ ?_
  by_cases h0 : status = 0
  · -- the command succeeded: the slot writes to its record
    subst h0
    simp only [Code.when, if_true, hdone]
    refine R.assign_wp (fun hnone hsafe => hp hsafe p (by simp [ifSuccess]) hnone) ?_
    intro s' hs'
    have hIP' : s'.IP = a := (htame.kept p s s' hs hs').2.trans hIP
    have hptr := hi'.wf.owned p s' hs'
    rw [hIP'] at hptr
    have he := Effect.both hi'.wf hptr (s := f s') ((hf s').trans hIP') (rule w'.env)
    have hrec : (w'.host a).record = some s' := (Controller.record_some hptr).trans hs'
    refine ⟨hi'.of_effect he fun hl => hlock _ hrec (hi'.lockstep hl a),
      hps.of_effect hi'.wf he (.inl (by simp)), fun _ => ⟨s', ?_, hIP'⟩⟩
    exact he.heap_eq rfl hptr
  · simp only [Code.when, hfailed status _ h0, if_neg h0]
    exact ⟨hi', hps, fun hx => absurd hx h0⟩

/-- `gw_remove_host`, and the state `st` once it succeeds. -/
theorem Regime.revokeAccess_wp {p : Ptr} {s : Session} {st : SessionState} (hi : R.Inv w)
    (hh : R.Held ps w) (hs : w.mem.heap p = some s) (hIP : s.IP = a) (hst : st ≠ .started) :
    R.wp ((revokeAccess a p st).holding ps)
      (fun r w' => R.Inv w' ∧ R.Held ps w' ∧
        (r = 0 → ∀ s', w'.mem.heap p = some s' → s'.state = st ∧ s'.IP = a)) w := by
  have haccess := R.access_wp (.removeHost a) (fun s => { s with state := st }) (fun _ => none)
    hi hh hs hIP (by simp) (fun _ => rfl) (fun _ _ h0 => if_neg h0) (fun _ => rfl)
    (fun _ hr hl => hl.revoked hr hst)
  refine Code.wp_mono (fun r w' h => ⟨h.1, h.2.1, fun h0 s' hs' => ?_⟩) haccess
  obtain ⟨s₀, hs₀, hIP₀⟩ := h.2.2 h0
  rw [hs'] at hs₀
  rw [Option.some.inj hs₀]
  exact ⟨rfl, hIP₀⟩

/-- `gw_add_host`, and STARTED once it succeeds. -/
theorem Regime.grantAccess_wp {p : Ptr} {s : Session} (hi : R.Inv w) (hh : R.Held ps w)
    (hs : w.mem.heap p = some s) (hIP : s.IP = a) :
    R.wp ((grantAccess a p s).holding ps) (fun _ w' => R.Inv w' ∧ R.Held ps w') w := by
  have haccess := R.access_wp (.addHost a s.bandwidth s.quotaRemaining) Host.startedRecord
    (fun env => some ((env a).getD ⟨s.bandwidth, s.quotaRemaining⟩)) hi hh hs hIP (by simp)
    (fun _ => rfl) (fun _ _ h0 => if_neg h0) (fun _ => rfl) (fun _ hr hl => hl.granted hr _)
  exact Code.wp_mono (fun _ _ h => ⟨h.1, h.2.1⟩) haccess

/-! ## The session slots -/

theorem withSession_holding (IP : String) (f : Ptr → Slot Int) :
    (withSession IP f).holding ps = withSession IP fun p => (f p).holding ps := by
  simp only [withSession, Code.bind_eq, Code.holding_bind, Code.holding_get]
  congr 1
  funext c
  split <;> rfl

/-- Looking a session up. -/
theorem Regime.withSession_wp {f : Ptr → Slot Int} {Q : Int → GwWorld → Prop} (hi : R.Inv w)
    (hnone : w.mem.sessions[a]? = none → Q (-1) w)
    (hsome : ∀ p s, w.mem.sessions[a]? = some p → w.mem.heap p = some s → s.IP = a →
      R.wp (f p) Q w) : R.wp (withSession a f) Q w := by
  refine R.wp_bind _ _ (?_ : R.wp _ Q w)
  split
  · next hp => exact hnone hp
  · next p hp =>
    obtain ⟨s, hs, hIP⟩ := hi.wf.stored a p hp
    exact hsome p s hp hs hIP

/-- Looking a session up and reading its record. -/
theorem Regime.withRecord_wp {f : Ptr → Session → Slot Int} {Q : Int → GwWorld → Prop}
    (hi : R.Inv w) (hnone : w.mem.sessions[a]? = none → Q (-1) w)
    (hsome : ∀ p s, w.mem.sessions[a]? = some p → w.mem.heap p = some s → s.IP = a →
      R.wp (f p s) Q w) :
    R.wp (withSession a fun p => (deref p).bind fun s => f p s) Q w :=
  R.withSession_wp hi hnone fun p s hp hs hIP =>
    R.wp_bind _ _ (R.deref_wp (fun h => absurd (h.symm.trans hs) (by simp)) fun s' hs' => by
      obtain rfl := Option.some.inj (hs.symm.trans hs')
      exact hsome p s hp hs hIP)

theorem Regime.keeps_pauseSession : R.Keeps ps (pauseSession a) := by
  intro w hi hh
  simp only [pauseSession, withSession_holding, Code.bind_eq, Code.holding_bind, deref_holding]
  refine R.withRecord_wp hi (fun _ => ⟨hi, hh⟩) fun p s _ hs hIP => ?_
  split
  · exact ⟨hi, hh⟩
  · split
    · exact Code.wp_mono (fun r w' h => ⟨h.1, h.2.1⟩)
        (R.revokeAccess_wp hi hh hs hIP (by decide))
    · exact ⟨hi, hh⟩

/-- When `endSession` returns 0, the record it was called for is ENDED, if it is
still there. -/
theorem Regime.endSession_wp (hi : R.Inv w) (hh : R.Held ps w) :
    R.wp ((endSession a).holding ps)
      (fun r w' => R.Inv w' ∧ R.Held ps w' ∧
        (r = 0 → ∀ p s', w.mem.sessions[a]? = some p → w'.mem.heap p = some s' →
          s'.state = .ended ∧ s'.IP = a)) w := by
  simp only [endSession, withSession_holding, Code.bind_eq, Code.holding_bind, deref_holding]
  refine R.withRecord_wp hi (fun _ => ⟨hi, hh, by simp⟩) fun p s hp hs hIP => ?_
  split
  · next hst =>
    refine ⟨hi, hh, fun _ q s' hq hs' => ?_⟩
    obtain rfl := Option.some.inj (hp.symm.trans hq)
    obtain rfl := Option.some.inj (hs.symm.trans hs')
    exact ⟨hst, hIP⟩
  · refine Code.wp_mono (fun r w' h => ⟨h.1, h.2.1, fun h0 q s' hq hs' => ?_⟩)
      (R.revokeAccess_wp hi hh hs hIP (by decide))
    obtain rfl := Option.some.inj (hp.symm.trans hq)
    exact h.2.2 h0 s' hs'

theorem Regime.keeps_endSession : R.Keeps ps (endSession a) := fun _ hi hh =>
  Code.wp_mono (fun _ _ h => ⟨h.1, h.2.1⟩) (R.endSession_wp hi hh)

theorem Regime.keeps_exhaustSession {p : Ptr} (hp : p ∈ ps) :
    R.Keeps ps (exhaustSession (some p)) := by
  intro w hi hh
  simp only [exhaustSession, Code.bind_eq, Code.holding_bind, deref_holding]
  refine R.wp_bind _ _ (R.deref_wp (hh.not_safe hp) fun s hs => ?_)
  split
  · exact ⟨hi, hh⟩
  · exact Code.wp_mono (fun r w' h => ⟨h.1, h.2.1⟩) (R.revokeAccess_wp hi hh hs rfl (by decide))

theorem Regime.keeps_newSession : R.Keeps ps (newSession a) := by
  intro w hi hh
  obtain ⟨w', hrun, he⟩ := newSession_acts (o := refusing) (t := []) (a := a) hi.wf
  refine R.wp_of_run (o := refusing) (v := w') ((Code.run_holding ..).trans hrun) ⟨?_, ?_⟩
  · exact hi.of_effect he fun hl => (w.mem.lockstep_kept a).create (hi.lockstep hl a)
  · exact hh.of_effect hi.wf he (.inl (by simp [Host.stay, Host.create]))

theorem Regime.keeps_startSession : R.Keeps ps (startSession a) := by
  unfold startSession
  apply R.keeps_newSession.bind
  intro _ w hi hh
  simp only [withSession_holding, Code.bind_eq, Code.holding_bind, deref_holding]
  refine R.withRecord_wp hi (fun _ => ⟨hi, hh⟩) fun p s _ hs hIP => ?_
  split
  · exact ⟨hi, hh⟩
  · split
    · exact R.grantAccess_wp hi hh hs hIP
    · exact ⟨hi, hh⟩

theorem Regime.keeps_playSession : R.Keeps ps (playSession a) := by
  intro w hi hh
  simp only [playSession, withSession_holding, Code.bind_eq, Code.holding_bind, deref_holding]
  refine R.withRecord_wp hi (fun _ => ⟨hi, hh⟩) fun p s _ hs hIP => ?_
  split
  · exact ⟨hi, hh⟩
  · split
    · exact R.keeps_startSession w hi hh
    · exact ⟨hi, hh⟩

end WifiGateway
