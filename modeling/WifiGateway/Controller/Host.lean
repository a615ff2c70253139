import WifiGateway.Controller.Slots

/-!
# One host

What the Controller is for, seen from a single host: a session record that
moves between five states, and a firewall entry that should follow it. This is
the abstract level. There are no pointers, no map and no other hosts here, and
every operation is a function of the host and of the exit status that each
command would return. `Simulation.lean` proves that the slots of `Slots.lean`,
executed one at a time, act on every host exactly like these functions.

`issued` lists the commands an operation really issues, the latest first; a
status of `Outcomes` for a command that is not issued is not used.
-/

namespace WifiGateway

/-- A host as the Controller and the firewall see it. -/
structure Host where
  record : Option Session
  rule : Option HostRule
  deriving DecidableEq

/-- What an operation does to a host. -/
structure Result where
  status : Int
  host : Host
  issued : List (Command × Int)

/-- The status of each command that one call can issue for a host. -/
structure Outcomes where
  /-- `gw_add_host`, from `startSession`. -/
  add : Int
  /-- `gw_remove_host`, from `pauseSession`, `endSession` or `exhaustSession`. -/
  remove : Int
  /-- `gw_remove_host` once more, when `tick` finds the update timer at 0. -/
  removeUpdate : Int
  /-- `gw_remove_host` once more, when `tick` finds the activity timer at 0. -/
  removeActivity : Int

namespace Host

/-- The host has a record in state `st`. -/
def inState (h : Host) (st : SessionState) : Prop := h.record.map Session.state = some st

instance (h : Host) (st : SessionState) : Decidable (h.inState st) :=
  inferInstanceAs (Decidable (_ = _))

/-- Nothing changes and nothing is issued. -/
def stay (status : Int) (h : Host) : Result := ⟨status, h, []⟩

/-- `gw_remove_host` for a record that moves to `st` when it succeeds. -/
def revoke (a : String) (st : SessionState) (status : Int) (s : Session) (h : Host) : Result :=
  ⟨status, if status = 0 then ⟨some { s with state := st }, none⟩ else h,
    [(.removeHost a, status)]⟩

/-- A record that has just been started. -/
def startedRecord (s : Session) : Session :=
  { s with
    state := .started
    activityTimeRemaining := ACTIVITY_TIME
    updateTimeRemaining := UPDATE_TIME }

/-- `gw_add_host` for the record `s` of a host. -/
def letIn (a : String) (status : Int) (s : Session) (h : Host) : Result :=
  ⟨status,
    if status = 0 then
      ⟨some (startedRecord s), some (h.rule.getD ⟨s.bandwidth, s.quotaRemaining⟩)⟩
    else { h with record := some s },
    [(.addHost a s.bandwidth s.quotaRemaining, status)]⟩

/-- `newSession`, with the record `s₀` that the current defaults give. -/
def create (s₀ : Session) (h : Host) : Host := { h with record := some (h.record.getD s₀) }

/-- `startSession` on the record `s`. -/
def startRecord (a : String) (status : Int) (s : Session) (h : Host) : Result :=
  if s.state = .started then stay 0 { h with record := some s }
  else if isExhausted s = false then letIn a status s h
  else stay (-1) { h with record := some s }

/-- `startSession`. -/
def start (a : String) (s₀ : Session) (status : Int) (h : Host) : Result :=
  startRecord a status (h.record.getD s₀) h

/-- An operation that fails on a host without a record. -/
def withRecord (h : Host) (f : Session → Result) : Result :=
  match h.record with
  | none => stay (-1) h
  | some s => f s

/-- `pauseSession`. -/
def pause (a : String) (status : Int) (h : Host) : Result :=
  h.withRecord fun s =>
    if s.state = .paused then stay 0 h
    else if s.state = .started then revoke a .paused status s h
    else stay (-1) h

/-- `playSession`. -/
def play (a : String) (status : Int) (h : Host) : Result :=
  h.withRecord fun s =>
    if s.state = .started then stay 0 h
    else if s.state = .paused then startRecord a status s h
    else stay (-1) h

/-- `endSession`. -/
def finish (a : String) (status : Int) (h : Host) : Result :=
  h.withRecord fun s => if s.state = .ended then stay 0 h else revoke a .ended status s h

/-- `exhaustSession`. -/
def exhaust (a : String) (status : Int) (h : Host) : Result :=
  h.withRecord fun s => if s.state = .exhausted then stay 0 h else revoke a .exhausted status s h

/-- `deleteSession`. A record stored under the empty IP is ended but not removed. -/
def discard (a : String) (status : Int) (h : Host) : Result :=
  let r := finish a status h
  { r with host := if r.status = 0 ∧ a ≠ "" then { r.host with record := none } else r.host }

/-- An operation that only changes fields of the record. -/
def amend (f : Session → Session) (h : Host) : Result :=
  h.withRecord fun s => stay 0 { h with record := some (f s) }

/-- `setBandwidth`, `setQuota`: change a limit, then pause and play. -/
def relimit (a : String) (f : Session → Session) (o : Outcomes) (h : Host) : Result :=
  h.withRecord fun s =>
    let r₁ := pause a o.remove { h with record := some (f s) }
    let r₂ := play a o.add r₁.host
    ⟨0, r₂.host, r₂.issued ++ r₁.issued⟩

/-! ## What stays of the record -/

theorem withRecord_some {h : Host} {s : Session} (hr : h.record = some s) (f : Session → Result) :
    h.withRecord f = f s := by
  simp only [withRecord, hr]

theorem withRecord_none {h : Host} (hr : h.record = none) (f : Session → Result) :
    h.withRecord f = stay (-1) h := by
  simp only [withRecord, hr]

/-- Revoking access changes at most the state of the record. -/
theorem revoke_record {a : String} {st : SessionState} {status : Int} {s : Session} {h : Host}
    (hr : h.record = some s) :
    ∃ st', (revoke a st status s h).host.record = some { s with state := st' } := by
  unfold revoke
  by_cases h0 : status = 0
  · exact ⟨st, by rw [if_pos h0]⟩
  · exact ⟨s.state, by rw [if_neg h0]; exact hr⟩

theorem pause_record (a : String) (status : Int) {s : Session} {h : Host}
    (hr : h.record = some s) :
    ∃ st', (pause a status h).host.record = some { s with state := st' } := by
  unfold pause
  rw [withRecord_some hr]
  split
  · exact ⟨s.state, hr⟩
  · split
    · exact revoke_record hr
    · exact ⟨s.state, hr⟩

/-- Starting leaves the record as it is, or starts one that is not exhausted. -/
theorem startRecord_record (a : String) (status : Int) (s : Session) (h : Host) :
    (startRecord a status s h).host.record = some s ∨
      (startRecord a status s h).host.record = some (startedRecord s) ∧ isExhausted s = false := by
  unfold startRecord
  split
  · exact .inl rfl
  · split
    · next hx =>
      unfold letIn
      by_cases h0 : status = 0
      · exact .inr ⟨by rw [if_pos h0], hx⟩
      · exact .inl (by rw [if_neg h0])
    · exact .inl rfl

theorem play_record (a : String) (status : Int) {s : Session} {h : Host}
    (hr : h.record = some s) :
    (play a status h).host.record = some s ∨
      (play a status h).host.record = some (startedRecord s) ∧ isExhausted s = false := by
  unfold play
  rw [withRecord_some hr]
  split
  · exact .inl hr
  · split
    · exact startRecord_record ..
    · exact .inl hr

theorem play_isSome (a : String) (status : Int) {s : Session} {h : Host}
    (hr : h.record = some s) : ∃ s', (play a status h).host.record = some s' := by
  rcases play_record a status hr with hp | ⟨hp, -⟩
  · exact ⟨_, hp⟩
  · exact ⟨_, hp⟩

theorem finish_record (a : String) (status : Int) {s : Session} {h : Host}
    (hr : h.record = some s) :
    ∃ st', (finish a status h).host.record = some { s with state := st' } := by
  unfold finish
  rw [withRecord_some hr]
  split
  · exact ⟨s.state, hr⟩
  · exact revoke_record hr

theorem exhaust_record (a : String) (status : Int) {s : Session} {h : Host}
    (hr : h.record = some s) :
    ∃ st', (exhaust a status h).host.record = some { s with state := st' } := by
  unfold exhaust
  rw [withRecord_some hr]
  split
  · exact ⟨s.state, hr⟩
  · exact revoke_record hr

/-! ## The tick of one record -/

/-- `endSession`, if a timer of the record has run out. -/
def finishAt (a : String) (timer : UInt32) (status : Int) (h : Host) : Result :=
  if timer = 0 then finish a status h else stay 0 h

/-- `exhaustSession`, if the limits of the record `s` say so. -/
def exhaustIf (a : String) (s : Session) (status : Int) (h : Host) : Result :=
  if isExhausted s then exhaust a status h else stay 0 h

/-- One pass of `tick` over the record `s` of a host. -/
def tickRecord (a : String) (o : Outcomes) (s : Session) (h : Host) : Result :=
  match s.state with
  | .started =>
    let s₁ := countStarted s
    let r₁ := exhaustIf a s₁ o.remove { h with record := some s₁ }
    let r₂ := finishAt a s₁.updateTimeRemaining o.removeUpdate r₁.host
    let r₃ := finishAt a s₁.activityTimeRemaining o.removeActivity r₂.host
    ⟨0, r₃.host, r₃.issued ++ r₂.issued ++ r₁.issued⟩
  | .exhausted =>
    let s₁ := countExhausted s
    let r₂ := finishAt a s₁.updateTimeRemaining o.removeUpdate { h with record := some s₁ }
    let r₃ := finishAt a s₁.activityTimeRemaining o.removeActivity r₂.host
    ⟨0, r₃.host, r₃.issued ++ r₂.issued⟩
  | .paused =>
    let s₁ := countPaused s
    if s₁.pauseTimeRemaining = 0 then
      let r := play a o.add { h with record := some (rearmPause s₁) }
      ⟨0, r.host, r.issued⟩
    else stay 0 { h with record := some s₁ }
  | .ended =>
    let s₁ := countEnded s
    if s₁.endTimeRemaining = 0 then stay 0 { h with record := none }
    else stay 0 { h with record := some s₁ }
  | .uninitialized => stay 0 h

/-- `tick`. -/
def tick (a : String) (o : Outcomes) (h : Host) : Result :=
  match h.record with
  | none => stay 0 h
  | some s => tickRecord a o s h

/-! ## Calls -/

/-- What a call that is about host `a` does to it; `s₀` is the record that the
current defaults give it. -/
def serve (a : String) (s₀ : Session) (o : Outcomes) (h : Host) : Call → Result
  | .newSession _ => stay 0 (create s₀ h)
  | .startSession _ => start a s₀ o.add h
  | .pauseSession _ => pause a o.remove h
  | .playSession _ => play a o.add h
  | .updateSession _ => amend (fun s => { s with updateTimeRemaining := UPDATE_TIME }) h
  | .endSession _ => finish a o.remove h
  | .deleteSession _ => discard a o.remove h
  | .setBandwidth _ bw => relimit a (fun s => { s with bandwidth := bw }) o h
  | .setQuota _ quota => relimit a (fun s => { s with quotaRemaining := quota }) o h
  | .setTime _ time => amend (fun s => { s with timeRemaining := time }) h
  | .updateQuotaRemaining _ =>
    amend (fun s =>
      { s with quotaRemaining := if s.quotaRemaining > 0 then s.quotaRemaining - 1
                                 else s.quotaRemaining }) h
  | .tick => tick a o h
  | .setDefaultBandWidth _ | .setDefaultQuota _ | .setDefaultTime _ | .setDefaultSession _
  | .getDefaultSession | .getSession _ | .getAllSessions | .getIPs => stay 0 h

/-- What a call that is about host `a` answers. -/
def reply (a : String) (s₀ : Session) (o : Outcomes) (h : Host) : Call → Reply
  | .getSession _ => .session (h.record.elim noSession fun s => { s with IP := a })
  | c => .status (serve a s₀ o h c).status

/-- What a call does to host `a`. A call that names another host does nothing to it. -/
def step (a : String) (s₀ : Session) (o : Outcomes) (h : Host) (c : Call) : Result :=
  match c.names with
  | some IP => if IP = a then serve a s₀ o h c else stay 0 h
  | none => serve a s₀ o h c

theorem step_cases (a : String) (s₀ : Session) (o : Outcomes) (h : Host) (c : Call) :
    (step a s₀ o h c = serve a s₀ o h c ∧ ∀ IP, c.names = some IP → IP = a) ∨
      (step a s₀ o h c = stay 0 h ∧ ∃ IP, c.names = some IP ∧ IP ≠ a) := by
  unfold step
  split
  · next IP hc =>
    split
    · next ha => exact .inl ⟨rfl, fun IP' hc' => (Option.some.inj (hc'.symm.trans hc)).trans ha⟩
    · next ha => exact .inr ⟨rfl, IP, hc, ha⟩
  · next hc => exact .inl ⟨rfl, fun IP hc' => absurd (hc.symm.trans hc') (by simp)⟩

end Host

end WifiGateway
