import WifiGateway.Controller.Interleaving
import WifiGateway.Controller.Writes
import WifiGateway.QuotaBeacon

/-!
# The quota of a session as a register

A slot that waits for its command has read the record before, and goes on to write to it
afterwards; calls that set the quota and quota events that use it up are delivered in between. The
quota is a register all the same: over any run, with calls nested in one another in any way and
whatever becomes of their commands, it is what these calls and events make of it one after the
other, each where it was delivered (`quota_register`). None is undone and none counts twice.
-/

namespace WifiGateway

open QuotaBeacon (charge mapRecords)
open Waiting (Code Machine Config Step Linear)

/-- What an event makes of the quota of `a`. -/
def quotaStep (a : String) (quota : Int32) : Event → Int32
  | .call (.setQuota IP new) => if IP = a then new else quota
  | .call (.updateQuotaRemaining IP) =>
    if IP = a then (if quota > 0 then quota - 1 else quota) else quota
  | .call _ | .cleanup => quota

/-- A record that is at `p` was there before, unless its pointer was not yet in use; and if it is
the one of `a`, its quota is what the events made of it. -/
structure Register (p : Ptr) (a : String) (es : List Event) (c c' : Controller) : Prop where
  fresh : c.fresh ≤ c'.fresh
  record : ∀ s', c'.heap p = some s' → p < c.fresh → ∃ s, c.heap p = some s ∧ s'.IP = s.IP ∧
    (s.IP = a → s'.quotaRemaining = es.foldl (quotaStep a) s.quotaRemaining)

variable {p : Ptr} {a : String} {c c' : Controller} {e : Event}

theorem register_linear (p : Ptr) (a : String) : Linear (Register p a) where
  refl c := ⟨Nat.le_refl _, fun s hs _ => ⟨s, hs, rfl, fun _ => rfl⟩⟩
  trans h₁ h₂ := by
    refine ⟨h₁.fresh.trans h₂.fresh, fun s₃ hs₃ hp => ?_⟩
    obtain ⟨s₂, hs₂, hIP₂, hquota₂⟩ := h₂.record s₃ hs₃ (Nat.lt_of_lt_of_le hp h₁.fresh)
    obtain ⟨s₁, hs₁, hIP₁, hquota₁⟩ := h₁.record s₂ hs₂ hp
    refine ⟨s₁, hs₁, hIP₂.trans hIP₁, fun ha => ?_⟩
    rw [hquota₂ (hIP₁.trans ha), hquota₁ ha, List.foldl_append]

theorem register_ordinary (p : Ptr) (a : String) : Ordinary (Register p a []) where
  edit {c q s s'} hs hIP hquota := by
    refine ⟨Nat.le_refl _, fun s₁ hs₁ _ => ?_⟩
    rw [Controller.heap_store] at hs₁
    split at hs₁
    · next hpq =>
      obtain rfl := Option.some.inj hs₁
      exact ⟨s, hpq ▸ hs, hIP, fun _ => hquota⟩
    · exact ⟨s₁, hs₁, rfl, fun _ => rfl⟩
  insertNew c b := by
    refine ⟨Nat.le_succ _, fun s' hs' hp => ?_⟩
    rw [Controller.heap_insertNew, if_neg (Nat.ne_of_lt hp)] at hs'
    exact ⟨s', hs', rfl, fun _ => rfl⟩
  free c q := by
    refine ⟨Nat.le_refl _, fun s' hs' _ => ?_⟩
    rw [Controller.heap_free] at hs'
    split at hs'
    · exact absurd hs' (by simp)
    · exact ⟨s', hs', rfl, fun _ => rfl⟩
  same hheap hfresh := by
    refine ⟨Nat.le_of_eq hfresh.symm, fun s' hs' _ => ?_⟩
    rw [hheap] at hs'
    exact ⟨s', hs', rfl, fun _ => rfl⟩

/-- An event that makes no change to the records, and none to the quota of any. -/
theorem Register.quiet (he : ∀ s, c.heap p = some s → s.IP = a →
    quotaStep a s.quotaRemaining e = s.quotaRemaining) : Register p a [e] c c :=
  ⟨Nat.le_refl _, fun s hs _ => ⟨s, hs, rfl, fun ha => (he s hs ha).symm⟩⟩

/-- The record of the IP gets its quota from the event, and no other record does. -/
theorem Register.store (hw : c.WF) {IP : String} {q : Ptr} {s s' : Session}
    (hq : c.sessions[IP]? = some q) (hs : c.heap q = some s) (hIP : s'.IP = s.IP)
    (hquota : s.IP = a → s'.quotaRemaining = quotaStep a s.quotaRemaining e)
    (hothers : IP ≠ a → ∀ quota, quotaStep a quota e = quota) :
    Register p a [e] c (c.store q s') := by
  refine ⟨Nat.le_refl _, fun s₁ hs₁ _ => ?_⟩
  rw [Controller.heap_store] at hs₁
  split at hs₁
  · next hpq =>
    obtain rfl := Option.some.inj hs₁
    exact ⟨s, hpq ▸ hs, hIP, hquota⟩
  · next hpq =>
    refine ⟨s₁, hs₁, rfl, fun ha => ?_⟩
    -- the IP has one record, and it is behind another pointer
    have hne : IP ≠ a := by
      rintro rfl
      have hp := hw.owned p s₁ hs₁
      rw [ha, hq] at hp
      exact hpq (Option.some.inj hp).symm
    exact (hothers hne _).symm

/-! ## What is known of every run -/

/-- Whatever is delivered, and whatever becomes of the commands. -/
theorem full_rules :
    Machine.Rules fullGateway bareRegime.interference bareRegime.Inv fun _ _ => True where
  refused := effect_refused
  opened e w _ hi := bareRegime.opens_event e w hi
  nested f e w₀ w _ hd _ := by
    obtain ⟨hw₀, hw, henv₀, htame, -⟩ := hd
    cases e with
    | call i =>
      obtain ⟨w', issued, hrun, hacts⟩ := nested_call hw i
      obtain ⟨hquiet, henv⟩ := hacts.quiet hw
      exact ⟨_, hrun, hw₀, hacts.wf, henv.trans henv₀,
        fun hc => ⟨fun hl => absurd hl id, (htame hc).2.trans hquiet.toTame hw₀⟩,
        fun hg => absurd hg id⟩
    | cleanup =>
      obtain ⟨w', issued, hrun, henv, hfresh, hsessions, hheap⟩ := nested_cleanup hw
      obtain ⟨hwf, htame'⟩ := empty_tame (c := w.mem) hfresh hsessions hheap
      exact ⟨_, hrun, hw₀, hwf, henv.trans henv₀,
        fun hc => ⟨fun hl => absurd hl id, (htame hc).2.trans htame' hw₀⟩,
        fun hg => absurd hg id⟩
  completed f status w₀ w hd _ := ⟨fun hsafe => absurd hsafe id, fun hl => absurd hl id⟩

/-- What every run of the gateway keeps. -/
abbrev Sound (c : Config Event Controller Firewall Command Ptr) : Prop :=
  Machine.Good fullGateway bareRegime.interference bareRegime.Inv c

theorem sound_start : Sound (Config.idle GwWorld.init) :=
  .idle ⟨Controller.wf_init, fun hl => absurd hl id⟩

theorem Sound.wf {c : Config Event Controller Firewall Command Ptr} (h : Sound c)
    (hcrash : c.crashed = false) : c.world.mem.WF := by
  cases h with
  | idle hi => exact hi.wf
  | waiting hd => exact hd.2.1
  | crashed hc => exact absurd (hc.symm.trans hcrash) (by simp)

/-- Only a tick is ever turned away. -/
theorem eq_tick_of_refused {c : Config Event Controller Firewall Command Ptr}
    (hcrash : c.crashed = false) (he : fullGateway.accepts c e = false) : e = .call .tick := by
  by_contra hne
  have hadmits : ∀ waiter, fullGateway.admits waiter e = true := fun waiter => by
    simp [fullGateway, gateway, hne]
  have haccepts : fullGateway.accepts c e = true := by
    unfold Machine.accepts
    rw [hcrash]
    split
    · rfl
    · simp [hadmits]
  exact absurd (haccepts.symm.trans he) (by simp)

/-! ## One event -/

variable {d : Config Event Controller Firewall Command Ptr}

/-- The slots that set or use up a quota assign it first, and go on with something else. -/
theorem enter_assigns (hw : d.world.mem.WF) (hwaits : Machine.Waits (Register p a []) d)
    {IP : String} {f : Session → Session} {rest : Slot Int} {k : Int → Slot Unit}
    (hrest : rest.Writes (Register p a [])) (hk : ∀ status, (k status).Writes (Register p a []))
    (hIP : ∀ s, (f s).IP = s.IP)
    (hquota : ∀ s, IP = a → (f s).quotaRemaining = quotaStep a s.quotaRemaining e)
    (hothers : IP ≠ a → ∀ quota, quotaStep a quota e = quota) :
    let d' := fullGateway.enter e
      ((withSession IP fun session => (assign session f).bind fun _ => rest).bind k) d
    Register p a [e] d.world.mem d'.world.mem ∧ Machine.Waits (Register p a []) d' := by
  have hlinear := register_linear p a
  intro d'
  cases hq : d.world.mem.sessions[IP]? with
  | none =>
    have hrun : (withSession IP fun session => (assign session f).bind fun _ => rest).run
        Command.effect (fun _ _ => 0) d.world [] = some (-1, d.world, []) := by
      simp [withSession, hq]
    have hd' : d' = fullGateway.enter e (k (-1)) d := Machine.enter_bind_of_run e hrun
    obtain ⟨hreg, hend⟩ := Machine.enter_writes hlinear e hwaits (hk (-1) d.world.mem)
    rw [hd']
    refine ⟨hlinear.trans (.quiet fun s hs ha => hothers ?_ _) hreg, hend⟩
    rintro rfl
    have hp := hw.owned p s hs
    rw [ha, hq] at hp
    exact absurd hp (by simp)
  | some q =>
    obtain ⟨s, hs, hsIP⟩ := hw.stored IP q hq
    have hbody : d' = fullGateway.enter e ((assign q f).bind fun _ => rest.bind k) d := by
      simp only [d', withSession, Code.bind_eq, Code.get, Code.bind, Machine.enter]
      rw [hq]
      exact congrArg (fullGateway.enter e · d) (Code.bind_assoc ..)
    have hrun : (assign q f).run Command.effect (fun _ _ => 0) d.world [] =
        some ((), { d.world with mem := d.world.mem.store q (f s) }, []) := run_assign hs f
    have hd' := hbody.trans (Machine.enter_bind_of_run e hrun)
    have hstore : Register p a [e] d.world.mem (d.world.mem.store q (f s)) :=
      .store hw hq hs (hIP s) (fun ha => hquota s (hsIP.symm.trans ha)) hothers
    obtain ⟨hreg, hend⟩ := Machine.enter_writes (M := fullGateway) hlinear e
      (c := { d with world := { d.world with mem := d.world.mem.store q (f s) } }) hwaits
      ((hrest.bind hk) _)
    rw [hd']
    exact ⟨hlinear.trans hstore hreg, hend⟩

/-- What an event does until its slot waits is what it makes of the quota, and it makes nothing of
it afterwards. -/
theorem Sound.event (h : Sound d) (hcrash : d.crashed = false)
    (hwaits : Machine.Waits (Register p a []) d) (e : Event) :
    Register p a [e] d.world.mem (fullGateway.enter e (fullGateway.slot e) d).world.mem ∧
      Machine.Waits (Register p a []) (fullGateway.enter e (fullGateway.slot e) d) := by
  have hlinear := register_linear p a
  have hordinary := register_ordinary p a
  have hreply : ∀ x, (((Code.ret (Reply.status x) : Slot Reply).bind fun _ => .ret ()) :
      Slot Unit).Writes (Register p a []) := fun _ => Code.writes_ret ()
  -- an event that makes nothing of any quota
  have hother : (∀ quota, quotaStep a quota e = quota) →
      (fullGateway.slot e).Writes (Register p a []) →
      Register p a [e] d.world.mem (fullGateway.enter e (fullGateway.slot e) d).world.mem ∧
        Machine.Waits (Register p a []) (fullGateway.enter e (fullGateway.slot e) d) := by
    intro hquiet hwrites
    obtain ⟨hreg, hend⟩ := Machine.enter_writes hlinear e hwaits (hwrites d.world.mem)
    exact ⟨hlinear.trans (.quiet fun s _ _ => hquiet s.quotaRemaining) hreg, hend⟩
  cases e with
  | cleanup => exact hother (fun _ => rfl) hordinary.cleanup
  | call i =>
    by_cases hi : i.setsQuota = true
    · cases i with
      | updateQuotaRemaining IP =>
        have hslot : fullGateway.slot (.call (.updateQuotaRemaining IP)) =
            (updateQuotaRemaining IP).bind fun x => (Code.ret (Reply.status x)).bind fun _ =>
              .ret () := Code.bind_assoc ..
        rw [hslot]
        exact enter_assigns (h.wf hcrash) hwaits (Code.writes_ret 0) hreply (fun _ => rfl)
          (fun s ha => (if_pos ha).symm) fun hne _ => if_neg hne
      | setQuota IP quota =>
        have hslot : fullGateway.slot (.call (.setQuota IP quota)) =
            (setQuota IP quota).bind fun x => (Code.ret (Reply.status x)).bind fun _ =>
              .ret () := Code.bind_assoc ..
        rw [hslot]
        exact enter_assigns (h.wf hcrash) hwaits (hordinary.pauseSession.bind fun _ =>
          hordinary.playSession.bind fun _ => Code.writes_ret 0) hreply (fun _ => rfl)
          (fun s ha => (if_pos ha).symm) fun hne _ => if_neg hne
      | _ => exact absurd hi (by simp [Call.setsQuota])
    · have hquiet : ∀ quota, quotaStep a quota (.call i) = quota := by
        intro quota
        cases i with
        | setQuota | updateQuotaRemaining => exact absurd rfl hi
        | _ => rfl
      exact hother hquiet
        ((Call.writes hordinary (Bool.eq_false_iff.mpr hi)).bind fun _ => Code.writes_ret ())

/-! ## Runs -/

/-- From a configuration that a run leads to. -/
theorem Sound.register (h : Sound d) (hwaits : Machine.Waits (Register p a []) d)
    {steps : List (Step Event)} (hcrash : (fullGateway.run d steps).crashed = false) :
    Register p a (Step.calls steps) d.world.mem (fullGateway.run d steps).world.mem ∧
      Machine.Waits (Register p a []) (fullGateway.run d steps) := by
  refine Machine.run_linear (register_linear p a) (I := Sound)
    (fun c s hc => hc.step full_rules trivial)
    (fun c e hc hnow hw => hc.event hnow hw e) (fun c e hnow hrefused => ?_) h hwaits hcrash
  rw [eq_tick_of_refused hnow hrefused]
  exact .quiet fun _ _ _ => rfl

/-- A record that is there before and after. -/
theorem Sound.quota (h : Sound d) (hwaits : ∀ p a, Machine.Waits (Register p a []) d)
    {steps : List (Step Event)} {s s' : Session} (hs : d.world.mem.heap p = some s)
    (hs' : (fullGateway.run d steps).world.mem.heap p = some s')
    (hcrash : (fullGateway.run d steps).crashed = false) :
    s'.IP = s.IP ∧
      s'.quotaRemaining = (Step.calls steps).foldl (quotaStep s.IP) s.quotaRemaining := by
  obtain ⟨hreg, -⟩ := h.register (hwaits p s.IP) hcrash
  have hlt : p < d.world.mem.fresh := by
    by_contra hge
    have hunused := (h.wf (Machine.not_crashed hcrash)).unused p (Nat.le_of_not_lt hge)
    exact absurd (hs.symm.trans hunused) (by simp)
  obtain ⟨s₀, hs₀, hIP, hquota⟩ := hreg.record s' hs' hlt
  obtain rfl := Option.some.inj (hs.symm.trans hs₀)
  exact ⟨hIP, hquota rfl⟩

/-- Where a run leads to. -/
theorem sound_run {steps : List (Step Event)}
    (hcrash : (fullGateway.run (Config.idle GwWorld.init) steps).crashed = false) :
    Sound (fullGateway.run (Config.idle GwWorld.init) steps) ∧
      ∀ p a, Machine.Waits (Register p a []) (fullGateway.run (Config.idle GwWorld.init) steps) :=
  ⟨sound_start.run full_rules steps (fullGateway.allSteps_true _ steps), fun _ _ =>
    (sound_start.register (fun _ hf => absurd hf List.not_mem_nil) hcrash).2⟩

/-- In every run that uses no deleted record, from any point of it on, with calls nested in one
another in any way and whatever their commands return: a record that is still there at the end is
about the same IP, and its quota is what the calls and events that were delivered made of it, one
after the other. -/
theorem quota_register {pre post : List (Step Event)} {s s' : Session}
    (hs : (fullGateway.run (Config.idle GwWorld.init) pre).world.mem.heap p = some s)
    (hs' : (fullGateway.run (Config.idle GwWorld.init) (pre ++ post)).world.mem.heap p = some s')
    (hcrash : (fullGateway.run (Config.idle GwWorld.init) (pre ++ post)).crashed = false) :
    s'.IP = s.IP ∧
      s'.quotaRemaining = (Step.calls post).foldl (quotaStep s.IP) s.quotaRemaining := by
  have hsplit : fullGateway.run (Config.idle GwWorld.init) (pre ++ post) =
      fullGateway.run (fullGateway.run (Config.idle GwWorld.init) pre) post := List.foldl_append ..
  rw [hsplit] at hs' hcrash
  obtain ⟨hsound, hwaits⟩ := sound_run (Machine.not_crashed hcrash)
  exact hsound.quota hwaits hs hs' hcrash

/-- A session waits for its first command. -/
def waitingSteps : List (Step Event) :=
  [.call (.call (.setDefaultQuota 5)), .call (.call (.startSession "10.0.0.7"))]

/-- It is charged a unit meanwhile, its quota is set, and it is charged a unit while the command
for that runs. -/
def chargingSteps : List (Step Event) :=
  [.call (.call (.updateQuotaRemaining "10.0.0.7")), .complete 0,
    .call (.call (.setQuota "10.0.0.7" 9)), .call (.call (.updateQuotaRemaining "10.0.0.7")),
    .complete 0, .complete 0]

theorem quota_register_chargingSteps :
    let s := ((fullGateway.run (Config.idle GwWorld.init) waitingSteps).world.mem.heap 0).getD
      noSession
    let s' := ((fullGateway.run (Config.idle GwWorld.init)
      (waitingSteps ++ chargingSteps)).world.mem.heap 0).getD noSession
    s'.IP = s.IP ∧
      s'.quotaRemaining = (Step.calls chargingSteps).foldl (quotaStep s.IP) s.quotaRemaining :=
  @quota_register 0 waitingSteps chargingSteps _ _ (by decide) (by decide) (by decide)

end WifiGateway
