import WifiGateway.Controller.Host

/-!
# What a command can do to a host

Every operation that may issue a command does one of four things to a host with
the record `s`: nothing, an attempt that is refused, granting access, or revoking
it (`Host.Turn`). The `*_turn` lemmas say this of each operation once; the
invariants below are then case analyses over `Turn` instead of over the
operations.

A call is made of turns and of edits of fields (`Host.Edit`); with the creation and
the removal of records that is everything, and what is preserved by all of them is
preserved by every call (`Kept.step`).

`exhaustIf_record_eq` and `finishAt_record_eq` are what remains of `tick`'s three
attempts in a row when no removal is refused: the state that the record ends in.
-/

namespace WifiGateway

namespace Host

variable {a : String} {s s₀ : Session} {h : Host} {r : Result} {o : Outcomes} {status : Int}

/-- What an operation whose command returns `status` can do to a host. -/
inductive Turn (a : String) (status : Int) (h : Host) : Result → Prop
  | stayed (i : Int) : Turn a status h (stay i h)
  | refused (c : Command) (h0 : status ≠ 0) (hc : c.host = some a) :
      Turn a status h ⟨status, h, [(c, status)]⟩
  | granted (s : Session) (h0 : status = 0) (hr : h.record = some s) (hs : s.state ≠ .started)
      (hx : isExhausted s = false) :
      Turn a status h
        ⟨0, ⟨some (startedRecord s), some (h.rule.getD ⟨s.bandwidth, s.quotaRemaining⟩)⟩,
          [(.addHost a s.bandwidth s.quotaRemaining, 0)]⟩
  | revoked (s : Session) (st : SessionState) (h0 : status = 0) (hr : h.record = some s)
      (hst : st ≠ .started) (hne : s.state ≠ st) :
      Turn a status h ⟨0, ⟨some { s with state := st }, none⟩, [(.removeHost a, 0)]⟩

theorem revoke_turn {st : SessionState} (hr : h.record = some s) (hst : st ≠ .started)
    (hne : s.state ≠ st) : Turn a status h (revoke a st status s h) := by
  unfold revoke
  by_cases h0 : status = 0
  · subst h0
    rw [if_pos rfl]
    exact .revoked s st rfl hr hst hne
  · rw [if_neg h0]
    exact .refused _ h0 rfl

theorem withRecord_turn {f : Session → Result}
    (hf : ∀ s, h.record = some s → Turn a status h (f s)) : Turn a status h (h.withRecord f) := by
  cases hr : h.record with
  | none =>
    rw [withRecord_none hr]
    exact .stayed (-1)
  | some s =>
    rw [withRecord_some hr]
    exact hf s hr

theorem startRecord_turn (hr : h.record = some s) : Turn a status h (startRecord a status s h) := by
  have hsame : { h with record := some s } = h := by rw [← hr]
  unfold startRecord
  rw [hsame]
  split
  · exact .stayed 0
  · next hs =>
    split
    · next hx =>
      unfold letIn
      rw [hsame]
      by_cases h0 : status = 0
      · subst h0
        rw [if_pos rfl]
        exact .granted s rfl hr hs hx
      · rw [if_neg h0]
        exact .refused _ h0 rfl
    · exact .stayed (-1)

theorem pause_turn : Turn a status h (pause a status h) :=
  withRecord_turn fun s hr => by
    split
    · exact .stayed 0
    · next hne =>
      split
      · exact revoke_turn hr (by decide) hne
      · exact .stayed (-1)

theorem play_turn : Turn a status h (play a status h) :=
  withRecord_turn fun s hr => by
    split
    · exact .stayed 0
    · split
      · exact startRecord_turn hr
      · exact .stayed (-1)

theorem finish_turn : Turn a status h (finish a status h) :=
  withRecord_turn fun s hr => by
    split
    · exact .stayed 0
    · next hne => exact revoke_turn hr (by decide) hne

theorem exhaust_turn : Turn a status h (exhaust a status h) :=
  withRecord_turn fun s hr => by
    split
    · exact .stayed 0
    · next hne => exact revoke_turn hr (by decide) hne

theorem finishAt_turn {timer : UInt32} : Turn a status h (finishAt a timer status h) := by
  unfold finishAt
  split
  · exact finish_turn
  · exact .stayed 0

theorem exhaustIf_turn : Turn a status h (exhaustIf a s status h) := by
  unfold exhaustIf
  split
  · exact exhaust_turn
  · exact .stayed 0

/-- A turn keeps a record, if there is one. -/
theorem Turn.record (ht : Turn a status h r) (hr : h.record = some s) :
    ∃ s', r.host.record = some s' := by
  cases ht with
  | stayed => exact ⟨s, hr⟩
  | refused => exact ⟨s, hr⟩
  | granted => exact ⟨_, rfl⟩
  | revoked => exact ⟨_, rfl⟩

/-- A refused command leaves the host as it was. -/
theorem Turn.host_eq (ht : Turn a status h r) (h0 : status ≠ 0) : r.host = h := by
  cases ht with
  | stayed => rfl
  | refused => rfl
  | granted _ h0' => exact absurd h0' h0
  | revoked _ _ h0' => exact absurd h0' h0

/-- The one command it may issue is about the host. -/
theorem Turn.about (ht : Turn a status h r) : ∀ e ∈ r.issued, e.1.host = some a := by
  intro e he
  cases ht with
  | stayed => exact absurd he List.not_mem_nil
  | refused c _ hc =>
    obtain rfl := List.mem_singleton.mp he
    exact hc
  | granted =>
    obtain rfl := List.mem_singleton.mp he
    rfl
  | revoked =>
    obtain rfl := List.mem_singleton.mp he
    rfl

/-- `startSession` is `newSession`, then the start of the record that is there. -/
theorem start_eq :
    start a s₀ status h = startRecord a status (h.record.getD s₀) (create s₀ h) := rfl

theorem amend_record {f : Session → Session} {s' : Session} (hr : h.record = some s)
    (hr' : (amend f h).host.record = some s') : s' = f s := by
  unfold amend at hr'
  rw [withRecord_some hr] at hr'
  exact (Option.some.inj hr').symm

/-- `deleteSession` leaves a record only as `endSession` leaves it. -/
theorem discard_record {s' : Session}
    (hr' : (discard a status h).host.record = some s') :
    (finish a status h).host.record = some s' := by
  unfold discard at hr'
  dsimp only at hr'
  split at hr'
  · exact absurd hr' (by simp)
  · exact hr'

/-! ## Removals that succeed -/

/-- No removal of a host was refused. -/
def RemovalsSucceed (issued : List (Command × Int)) : Prop :=
  ∀ e ∈ issued, e.1.isRemoval = true → e.2 = 0

instance (issued : List (Command × Int)) : Decidable (RemovalsSucceed issued) :=
  inferInstanceAs (Decidable (∀ e ∈ issued, e.1.isRemoval = true → e.2 = 0))

theorem RemovalsSucceed.subset {l l' : List (Command × Int)} (hl : RemovalsSucceed l')
    (hsub : l ⊆ l') : RemovalsSucceed l := fun e hm => hl e (hsub hm)

theorem RemovalsSucceed.left {l l' : List (Command × Int)} (hl : RemovalsSucceed (l ++ l')) :
    RemovalsSucceed l := hl.subset (List.subset_append_left _ _)

theorem RemovalsSucceed.right {l l' : List (Command × Int)} (hl : RemovalsSucceed (l ++ l')) :
    RemovalsSucceed l' := hl.subset (List.subset_append_right _ _)

theorem revoke_of_removals {st : SessionState}
    (hok : RemovalsSucceed (revoke a st status s h).issued) :
    (revoke a st status s h).host = ⟨some { s with state := st }, none⟩ := by
  have h0 : status = 0 := hok (.removeHost a, status) List.mem_cons_self rfl
  simp only [revoke, if_pos h0]

/-- `endSession` returns 0 on a record only when it leaves the record ENDED. -/
theorem finish_state {s' : Session} (hr : (finish a status h).host.record = some s')
    (h0 : (finish a status h).status = 0) : s'.state = .ended := by
  unfold finish at hr h0
  cases hrec : h.record with
  | none =>
    rw [withRecord_none hrec] at h0
    exact absurd h0 (by simp [stay])
  | some s =>
    rw [withRecord_some hrec] at hr h0
    split at hr
    · next hst =>
      rw [← Option.some.inj (hrec.symm.trans hr)]
      exact hst
    · next hst =>
      rw [if_neg hst] at h0
      have h0' : status = 0 := h0
      simp only [revoke, if_pos h0', Option.some.injEq] at hr
      rw [← hr]

theorem finish_record_eq (hr : h.record = some s)
    (hok : RemovalsSucceed (finish a status h).issued) :
    (finish a status h).host.record = some { s with state := .ended } := by
  unfold finish at hok ⊢
  rw [withRecord_some hr] at hok ⊢
  split at hok
  · next hst =>
    rw [if_pos hst, ← hst]
    exact hr
  · next hst => rw [if_neg hst, revoke_of_removals hok]

theorem exhaust_record_eq (hr : h.record = some s)
    (hok : RemovalsSucceed (exhaust a status h).issued) :
    (exhaust a status h).host.record = some { s with state := .exhausted } := by
  unfold exhaust at hok ⊢
  rw [withRecord_some hr] at hok ⊢
  split at hok
  · next hst =>
    rw [if_pos hst, ← hst]
    exact hr
  · next hst => rw [if_neg hst, revoke_of_removals hok]

/-- A record whose timer has run out is ENDED, another is as it was. -/
theorem finishAt_record_eq {timer : UInt32} (hr : h.record = some s)
    (hok : RemovalsSucceed (finishAt a timer status h).issued) :
    (finishAt a timer status h).host.record
      = some { s with state := if timer = 0 then .ended else s.state } := by
  unfold finishAt at hok ⊢
  by_cases h0 : timer = 0
  · rw [if_pos h0] at hok ⊢
    rw [if_pos h0]
    exact finish_record_eq hr hok
  · rw [if_neg h0]
    rw [if_neg h0]
    exact hr

/-- A record without time or quota left is EXHAUSTED, another is as it was. -/
theorem exhaustIf_record_eq {s₁ : Session} (hr : h.record = some s)
    (hok : RemovalsSucceed (exhaustIf a s₁ status h).issued) :
    (exhaustIf a s₁ status h).host.record
      = some { s with state := if isExhausted s₁ then .exhausted else s.state } := by
  unfold exhaustIf at hok ⊢
  by_cases h0 : isExhausted s₁ = true
  · rw [if_pos h0] at hok ⊢
    rw [if_pos h0]
    exact exhaust_record_eq hr hok
  · rw [if_neg h0]
    rw [if_neg h0]
    exact hr

/-- The state in which a pass over a STARTED record leaves it. -/
def stateAfter (s₁ : Session) : SessionState :=
  if s₁.updateTimeRemaining = 0 ∨ s₁.activityTimeRemaining = 0 then .ended
  else if isExhausted s₁ then .exhausted else s₁.state

/-- A tick of a STARTED record, no removal refused. -/
theorem tick_started (hr : h.record = some s) (hst : s.state = .started)
    (hok : RemovalsSucceed (tick a o h).issued) :
    (tick a o h).host.record
      = some { countStarted s with state := stateAfter (countStarted s) } := by
  simp only [tick, hr, tickRecord, hst] at hok ⊢
  have h₁ := exhaustIf_record_eq (h := ⟨some (countStarted s), h.rule⟩) rfl hok.right
  have h₂ := finishAt_record_eq h₁ hok.left.right
  have h₃ := finishAt_record_eq h₂ hok.left.left
  rw [h₃]
  unfold stateAfter
  simp only [Option.some.injEq, Session.mk.injEq, true_and, and_true]
  by_cases hu : (countStarted s).updateTimeRemaining = 0
  · simp [hu]
  · by_cases ha : (countStarted s).activityTimeRemaining = 0
    · simp [ha]
    · simp [hu, ha]

/-- A tick of an EXHAUSTED record, no removal refused. -/
theorem tick_exhausted (hr : h.record = some s) (hst : s.state = .exhausted)
    (hok : RemovalsSucceed (tick a o h).issued) :
    (tick a o h).host.record
      = some { countExhausted s with
          state := if (countExhausted s).updateTimeRemaining = 0 ∨
              (countExhausted s).activityTimeRemaining = 0 then .ended else .exhausted } := by
  simp only [tick, hr, tickRecord, hst] at hok ⊢
  have h₁ := finishAt_record_eq (h := ⟨some (countExhausted s), h.rule⟩) rfl hok.right
  have h₂ := finishAt_record_eq h₁ hok.left
  rw [h₂]
  have hst' : (countExhausted s).state = .exhausted := hst
  simp only [Option.some.injEq, Session.mk.injEq, true_and, and_true, hst']
  by_cases hu : (countExhausted s).updateTimeRemaining = 0
  · simp [hu]
  · by_cases ha : (countExhausted s).activityTimeRemaining = 0
    · simp [ha]
    · simp [hu, ha]

/-- What a tick makes of a record that it does not remove, no removal of a rule refused. -/
inductive Passed (s : Session) : Session → Prop
  | started (hst : s.state = .started) :
      Passed s { countStarted s with state := stateAfter (countStarted s) }
  | exhausted (hst : s.state = .exhausted) :
      Passed s { countExhausted s with
        state := if (countExhausted s).updateTimeRemaining = 0 ∨
            (countExhausted s).activityTimeRemaining = 0 then .ended else .exhausted }
  | paused (hst : s.state = .paused) (h0 : (countPaused s).pauseTimeRemaining ≠ 0) :
      Passed s (countPaused s)
  | rearmed (hst : s.state = .paused) (h0 : (countPaused s).pauseTimeRemaining = 0) :
      Passed s (rearmPause (countPaused s))
  | resumed (hst : s.state = .paused) (h0 : (countPaused s).pauseTimeRemaining = 0)
      (hx : isExhausted (rearmPause (countPaused s)) = false) :
      Passed s (startedRecord (rearmPause (countPaused s)))
  | ended (hst : s.state = .ended) (h0 : (countEnded s).endTimeRemaining ≠ 0) :
      Passed s (countEnded s)
  | uninitialized (hst : s.state = .uninitialized) : Passed s s

theorem tick_passed (hok : RemovalsSucceed (tick a o h).issued) (hr : h.record = some s)
    {s' : Session} (hr' : (tick a o h).host.record = some s') : Passed s s' := by
  cases hst : s.state with
  | started =>
    rw [tick_started hr hst hok] at hr'
    obtain rfl := Option.some.inj hr'
    exact .started hst
  | exhausted =>
    rw [tick_exhausted hr hst hok] at hr'
    obtain rfl := Option.some.inj hr'
    exact .exhausted hst
  | paused =>
    simp only [tick, hr, tickRecord, hst] at hr'
    split at hr'
    · next h0 =>
      -- the pause is over; the record is played unless its limits have run out
      rcases play_record a o.add
        (h := ⟨some (rearmPause (countPaused s)), h.rule⟩) rfl with hp | ⟨hp, hx⟩
      · rw [hp] at hr'
        obtain rfl := Option.some.inj hr'
        exact .rearmed hst h0
      · rw [hp] at hr'
        obtain rfl := Option.some.inj hr'
        exact .resumed hst h0 hx
    · next h0 =>
      obtain rfl := Option.some.inj hr'
      exact .paused hst h0
  | ended =>
    simp only [tick, hr, tickRecord, hst] at hr'
    split at hr'
    · exact absurd hr' (by simp [stay])
    · next h0 =>
      obtain rfl := Option.some.inj hr'
      exact .ended hst h0
  | uninitialized =>
    simp only [tick, hr, tickRecord, hst, stay] at hr'
    obtain rfl := Option.some.inj hr'
    exact .uninitialized hst

/-- A record that a call creates is the one the defaults give, or that one with an attempt
to start it. -/
theorem step_created {s₁ : Session} {c : Call} (hr : h.record = none)
    (hr' : (step a s₀ o h c).host.record = some s₁) :
    s₁ = s₀ ∨ (startRecord a o.add s₀ (create s₀ h)).host.record = some s₁ := by
  have hnone : ∀ f : Session → Result, h.withRecord f = stay (-1) h := withRecord_none hr
  rcases step_cases a s₀ o h c with ⟨he, -⟩ | ⟨he, -⟩
  · rw [he] at hr'
    cases c with
    | newSession =>
      have hrec : (create s₀ h).record = some s₁ := hr'
      simp only [create, hr, Option.getD_none, Option.some.injEq] at hrec
      exact .inl hrec.symm
    | startSession =>
      have hrec : (start a s₀ o.add h).host.record = some s₁ := hr'
      rw [start_eq, hr, Option.getD_none] at hrec
      exact .inr hrec
    | tick =>
      simp only [serve, tick, hr, stay] at hr'
      exact absurd hr' (by simp)
    | deleteSession =>
      have hfinish := discard_record hr'
      simp only [finish, hnone, stay, hr] at hfinish
      exact absurd hfinish (by simp)
    | pauseSession | playSession | endSession | updateSession | updateQuotaRemaining | setTime
    | setBandwidth | setQuota | setDefaultBandWidth | setDefaultQuota | setDefaultTime
    | setDefaultSession | getDefaultSession | getSession | getAllSessions | getIPs =>
      simp only [serve, pause, play, finish, amend, relimit, hnone, stay, hr] at hr'
      exact absurd hr' (by simp)
  · rw [he] at hr'
    exact absurd (hr.symm.trans hr') (by simp)

/-! ## What a call is made of -/

/-- What calls and ticks do to the fields of a record without a command. -/
inductive Edit (s : Session) : Session → Prop
  | updated : Edit s { s with updateTimeRemaining := UPDATE_TIME }
  | bandwidth (bw : UInt32) : Edit s { s with bandwidth := bw }
  | quota (quota : Int32) : Edit s { s with quotaRemaining := quota }
  | time (time : Int32) : Edit s { s with timeRemaining := time }
  | used : Edit s { s with quotaRemaining := if s.quotaRemaining > 0 then s.quotaRemaining - 1
                                             else s.quotaRemaining }
  | started (hst : s.state = .started) : Edit s (countStarted s)
  | exhausted (hst : s.state = .exhausted) : Edit s (countExhausted s)
  | paused (hst : s.state = .paused) : Edit s (countPaused s)
  | rearmed (hst : s.state = .paused) : Edit s (rearmPause (countPaused s))
  | ended (hst : s.state = .ended) (h0 : (countEnded s).endTimeRemaining ≠ 0) :
      Edit s (countEnded s)

/-- A property of hosts that everything a call is made of preserves; `s₀` is the record
that a new host gets. -/
structure Kept (a : String) (s₀ : Session) (I : Host → Prop) : Prop where
  turn : ∀ {status : Int} {h : Host} {r : Result}, Turn a status h r → I h → I r.host
  edit : ∀ {h : Host} {s s' : Session}, h.record = some s → Edit s s' → I h →
    I { h with record := some s' }
  created : ∀ {h : Host}, h.record = none → I h → I { h with record := some s₀ }
  removed : ∀ {h : Host} {s : Session}, h.record = some s → s.state = .ended → I h →
    I { h with record := none }

namespace Kept

variable {I : Host → Prop}

theorem create (hk : Kept a s₀ I) (hi : I h) : I (create s₀ h) := by
  unfold Host.create
  cases hr : h.record with
  | none => exact hk.created hr hi
  | some s =>
    have hsame : ({ h with record := some s } : Host) = h := by rw [← hr]
    rw [Option.getD_some, hsame]
    exact hi

theorem play (hk : Kept a s₀ I) (hi : I h) : I (play a status h).host := hk.turn play_turn hi

theorem finishAt (hk : Kept a s₀ I) {timer : UInt32} (hi : I h) :
    I (finishAt a timer status h).host := hk.turn finishAt_turn hi

theorem amend (hk : Kept a s₀ I) {f : Session → Session} (hf : ∀ s, Edit s (f s)) (hi : I h) :
    I (amend f h).host := by
  unfold Host.amend
  cases hr : h.record with
  | none =>
    rw [withRecord_none hr]
    exact hi
  | some s =>
    rw [withRecord_some hr]
    exact hk.edit hr (hf s) hi

theorem relimit (hk : Kept a s₀ I) {f : Session → Session} (hf : ∀ s, Edit s (f s)) (hi : I h) :
    I (relimit a f o h).host := by
  unfold Host.relimit
  cases hr : h.record with
  | none =>
    rw [withRecord_none hr]
    exact hi
  | some s =>
    rw [withRecord_some hr]
    exact hk.play (hk.turn (@pause_turn a _ o.remove) (hk.edit hr (hf s) hi))

/-- `deleteSession` ends the session before its record goes. -/
theorem discard (hk : Kept a s₀ I) (hi : I h) : I (discard a status h).host := by
  have hfinish : I (finish a status h).host := hk.turn finish_turn hi
  unfold Host.discard
  dsimp only
  split
  · next h0 =>
    cases hr : (finish a status h).host.record with
    | none =>
      rw [← hr]
      exact hfinish
    | some s => exact hk.removed hr (finish_state hr h0.1) hfinish
  · exact hfinish

theorem tick (hk : Kept a s₀ I) (hi : I h) : I (tick a o h).host := by
  unfold Host.tick
  cases hr : h.record with
  | none => exact hi
  | some s =>
    unfold tickRecord
    dsimp only
    cases hst : s.state with
    | started =>
      -- three attempts in a row, whatever comes of them
      have h₁ := hk.turn (@exhaustIf_turn a (countStarted s) _ o.remove)
        (hk.edit hr (.started hst) hi)
      exact hk.finishAt (hk.finishAt h₁)
    | exhausted =>
      exact hk.finishAt (hk.finishAt (hk.edit hr (.exhausted hst) hi))
    | paused =>
      dsimp only
      split
      · exact hk.play (hk.edit hr (.rearmed hst) hi)
      · exact hk.edit hr (.paused hst) hi
    | ended =>
      dsimp only
      split
      · exact hk.removed hr hst hi
      · next h0 => exact hk.edit hr (.ended hst h0) hi
    | uninitialized => exact hi

/-- Such a property is preserved by every call. -/
theorem step (hk : Kept a s₀ I) (hi : I h) (c : Call) : I (step a s₀ o h c).host := by
  rcases step_cases a s₀ o h c with ⟨he, -⟩ | ⟨he, -⟩
  · rw [he]
    cases c with
    | newSession => exact hk.create hi
    | startSession =>
      show I (start a s₀ o.add h).host
      rw [start_eq]
      exact hk.turn (startRecord_turn rfl) (hk.create hi)
    | pauseSession => exact hk.turn pause_turn hi
    | playSession => exact hk.play hi
    | endSession => exact hk.turn finish_turn hi
    | deleteSession => exact hk.discard hi
    | updateSession => exact hk.amend (fun _ => .updated) hi
    | setTime IP time => exact hk.amend (fun _ => .time time) hi
    | updateQuotaRemaining => exact hk.amend (fun _ => .used) hi
    | setBandwidth IP bw => exact hk.relimit (fun _ => .bandwidth bw) hi
    | setQuota IP quota => exact hk.relimit (fun _ => .quota quota) hi
    | tick => exact hk.tick hi
    | setDefaultBandWidth | setDefaultQuota | setDefaultTime | setDefaultSession
    | getDefaultSession | getSession | getAllSessions | getIPs => exact hi
  · rw [he]
    exact hi

end Kept

/-- A property of records that starting, a change of the state and every edit preserve, as
a property of hosts. -/
theorem kept_of_record {P : Session → Prop} (hs₀ : P s₀)
    (hstarted : ∀ s, P s → P (startedRecord s)) (hstate : ∀ s st, P s → P { s with state := st })
    (hedit : ∀ s s', Edit s s' → P s → P s') :
    Kept a s₀ fun h => ∀ s, h.record = some s → P s where
  turn ht hi := by
    cases ht with
    | stayed => exact hi
    | refused => exact hi
    | granted s _ hr =>
      intro s' hs'
      obtain rfl := Option.some.inj hs'
      exact hstarted s (hi s hr)
    | revoked s st _ hr =>
      intro s' hs'
      obtain rfl := Option.some.inj hs'
      exact hstate s st (hi s hr)
  edit hr he hi := by
    intro s' hs'
    obtain rfl := Option.some.inj hs'
    exact hedit _ _ he (hi _ hr)
  created _ _ := by
    intro s' hs'
    obtain rfl := Option.some.inj hs'
    exact hs₀
  removed _ _ _ := fun _ hs' => absurd hs' (by simp)

end Host

end WifiGateway
