import WifiGateway.Controller.Calls

/-!
# The defaults

The only data that the hosts share is what a new record is made of: `initSession`, which
reads the three defaults. Only the default setters write them; every other slot leaves
them alone, whatever it does to the sessions (`slot_template`).
-/

namespace WifiGateway

open Waiting (Code Oracle)

variable {a : String}

/-- The slot leaves alone what a new record of `a` is made of. -/
abbrev KeepsTemplate {α : Type} (a : String) (p : Slot α) : Prop :=
  p.Leaves fun c => c.initSession a

theorem deref_template (session : Ptr) : KeepsTemplate a (deref session) := by
  apply Code.leaves_get.bind
  intro c
  split
  · exact Code.leaves_ret _
  · exact Code.leaves_crash

theorem assign_template (session : Ptr) (f : Session → Session) :
    KeepsTemplate a (assign session f) :=
  (deref_template session).bind fun _ => Code.leaves_modify fun _ => rfl

theorem delete_template (session : Ptr) : KeepsTemplate a (delete session) :=
  (deref_template session).bind fun _ => Code.leaves_modify fun _ => rfl

theorem emitSignal_template (s : Signal) : KeepsTemplate a (emitSignal s) :=
  Code.leaves_modify fun _ => rfl

theorem withSession_template {IP : String} {f : Ptr → Slot Int}
    (hf : ∀ session, KeepsTemplate a (f session)) : KeepsTemplate a (withSession IP f) := by
  apply Code.leaves_get.bind
  intro c
  split
  · exact Code.leaves_ret _
  · exact hf _

/-! ## The session slots -/

theorem newSession_template (IP : String) : KeepsTemplate a (newSession IP) := by
  have hinsert : KeepsTemplate a (Code.modify fun c => c.insertNew IP) :=
    Code.leaves_modify fun _ => rfl
  apply Code.leaves_get.bind
  intro c
  exact hinsert.when.bind fun _ => Code.leaves_ret 0

theorem grantAccess_template (IP : String) (session : Ptr) (s : Session) :
    KeepsTemplate a (grantAccess IP session s) := by
  apply (Code.leaves_command _ _).bind
  intro success
  exact (assign_template session _).when.bind fun _ => Code.leaves_ret success

theorem revokeAccess_template (IP : String) (session : Ptr) (st : SessionState) :
    KeepsTemplate a (revokeAccess IP session st) := by
  apply (Code.leaves_command _ _).bind
  intro success
  exact (assign_template session _).when.bind fun _ => Code.leaves_ret success

theorem startSession_template (IP : String) : KeepsTemplate a (startSession IP) := by
  apply (newSession_template IP).bind
  intro _
  apply withSession_template
  intro session
  apply (deref_template session).bind
  intro s
  split
  · exact Code.leaves_ret 0
  · split
    · exact grantAccess_template IP session s
    · exact Code.leaves_ret (-1)

theorem pauseSession_template (IP : String) : KeepsTemplate a (pauseSession IP) := by
  apply withSession_template
  intro session
  apply (deref_template session).bind
  intro s
  split
  · exact Code.leaves_ret 0
  · split
    · exact revokeAccess_template IP session .paused
    · exact Code.leaves_ret (-1)

theorem playSession_template (IP : String) : KeepsTemplate a (playSession IP) := by
  apply withSession_template
  intro session
  apply (deref_template session).bind
  intro s
  split
  · exact Code.leaves_ret 0
  · split
    · exact startSession_template IP
    · exact Code.leaves_ret (-1)

theorem endSession_template (IP : String) : KeepsTemplate a (endSession IP) := by
  apply withSession_template
  intro session
  apply (deref_template session).bind
  intro s
  split
  · exact Code.leaves_ret 0
  · exact revokeAccess_template IP session .ended

theorem exhaustSession_template (session : Ptr) :
    KeepsTemplate a (exhaustSession (some session)) := by
  apply (deref_template session).bind
  intro s
  split
  · exact Code.leaves_ret 0
  · exact revokeAccess_template s.IP session .exhausted

/-- The removal of a record from the map, and of the record. -/
theorem remove_template (IP : String) (session : Ptr) :
    KeepsTemplate a (Code.modify (fun c => c.remove IP) >>= fun _ => delete session) := by
  have hremove : KeepsTemplate a (Code.modify fun c => c.remove IP) :=
    Code.leaves_modify fun _ => rfl
  exact hremove.bind fun _ => delete_template session

theorem removeSessionByIP_template (IP : String) : KeepsTemplate a (removeSessionByIP IP) := by
  apply Code.leaves_get.bind
  intro c
  split
  · exact Code.leaves_ret ()
  · exact remove_template IP _

theorem removeSession_template (session : Ptr) : KeepsTemplate a (removeSession session) := by
  apply Code.leaves_get.bind
  intro c
  exact (remove_template _ session).when

theorem deleteSession_template (IP : String) : KeepsTemplate a (deleteSession IP) := by
  apply withSession_template
  intro session
  apply (endSession_template IP).bind
  intro success
  exact (removeSession_template session).when.bind fun _ => Code.leaves_ret success

theorem amendSession_template (IP : String) (f : Session → Session) :
    KeepsTemplate a (amendSession IP f) :=
  withSession_template fun session =>
    (assign_template session f).bind fun _ => Code.leaves_ret 0

theorem setLimit_template (IP : String) (f : Session → Session) :
    KeepsTemplate a (setLimit IP f) := by
  apply withSession_template
  intro session
  apply (assign_template session f).bind
  intro _
  apply (pauseSession_template IP).bind
  intro _
  exact (playSession_template IP).bind fun _ => Code.leaves_ret 0

/-! ## The tick -/

/-- `endSession`, if a timer has run out. -/
theorem finishWhen_template (b : Prop) [Decidable b] (IP : String) :
    KeepsTemplate a (Code.when b do let _ ← endSession IP) :=
  ((endSession_template IP).bind fun _ => Code.leaves_ret ()).when

theorem tickSession_template (session : Ptr) : KeepsTemplate a (tickSession session) := by
  apply (deref_template session).bind
  intro s
  split
  · apply (assign_template session _).bind
    intro _
    apply (deref_template session).bind
    intro _
    apply ((exhaustSession_template session).bind fun _ => Code.leaves_ret ()).when.bind
    intro _
    apply (deref_template session).bind
    intro _
    apply (finishWhen_template _ _).bind
    intro _
    apply (deref_template session).bind
    intro _
    apply (finishWhen_template _ _).bind
    intro _
    apply (deref_template session).bind
    intro _
    apply (emitSignal_template _).when.bind
    intro _
    apply (emitSignal_template _).when.bind
    intro _
    exact (emitSignal_template _).when
  · apply (assign_template session _).bind
    intro _
    apply (deref_template session).bind
    intro _
    apply (finishWhen_template _ _).bind
    intro _
    apply (deref_template session).bind
    intro _
    exact finishWhen_template _ _
  · apply (assign_template session _).bind
    intro _
    apply (deref_template session).bind
    intro s
    have hplay : KeepsTemplate a (playSession s.IP >>= fun _ => pure ()) :=
      (playSession_template s.IP).bind fun _ => Code.leaves_ret ()
    apply ((assign_template session _).bind fun _ => hplay).when.bind
    intro _
    apply (deref_template session).bind
    intro _
    exact (emitSignal_template _).when
  · apply (assign_template session _).bind
    intro _
    apply (deref_template session).bind
    intro s
    exact (removeSessionByIP_template s.IP).when
  · exact Code.leaves_ret ()

theorem tickOver_template (l : List Ptr) : KeepsTemplate a (tickOver l) := by
  induction l with
  | nil => exact Code.leaves_ret ()
  | cons session rest ih => exact (tickSession_template session).holding.bind fun _ => ih

/-! ## All calls -/

/-- What a call makes of the record that the defaults give. -/
def Call.template (s₀ : Session) : Call → Session
  | .setDefaultBandWidth bw => { s₀ with bandwidth := bw }
  | .setDefaultQuota quota => { s₀ with quotaRemaining := quota.toUInt32.toInt32 }
  | .setDefaultTime time => { s₀ with timeRemaining := time.toUInt32.toInt32 }
  | .setDefaultSession s =>
    { s₀ with
      bandwidth := s.bandwidth
      quotaRemaining := s.quotaRemaining.toUInt32.toInt32
      timeRemaining := s.timeRemaining.toUInt32.toInt32 }
  | _ => s₀

/-- A slot that leaves the defaults alone, whatever it returns. -/
theorem reply_template {α : Type} {p : Slot α} {f : α → Reply} (hp : KeepsTemplate a p) :
    KeepsTemplate a (p >>= fun x => pure (f x)) :=
  hp.bind fun x => Code.leaves_ret (f x)

theorem derefAll_template (l : List Ptr) : KeepsTemplate a (derefAll l) := by
  induction l with
  | nil => exact Code.leaves_ret []
  | cons session rest ih =>
    exact (deref_template session).bind fun s => ih.bind fun ss => Code.leaves_ret (s :: ss)

theorem getSession_template (IP : String) : KeepsTemplate a (getSession IP) := by
  apply Code.leaves_get.bind
  intro c
  split
  · exact Code.leaves_ret _
  · exact (deref_template _).bind fun _ => Code.leaves_ret _

/-- Only the default setters change what a new record is made of. -/
theorem slot_template {o : Oracle Command} {w : GwWorld} {t : List (Command × Int)}
    {r : Reply × GwWorld × List (Command × Int)} {i : Call}
    (h : i.slot.run Command.effect o w t = some r) :
    r.2.1.mem.initSession a = i.template (w.mem.initSession a) := by
  cases i with
  | setDefaultBandWidth | setDefaultQuota | setDefaultTime | setDefaultSession =>
    obtain rfl := Option.some.inj h
    rfl
  | newSession IP => exact (reply_template (newSession_template IP)).run h
  | startSession IP => exact (reply_template (startSession_template IP)).run h
  | pauseSession IP => exact (reply_template (pauseSession_template IP)).run h
  | playSession IP => exact (reply_template (playSession_template IP)).run h
  | endSession IP => exact (reply_template (endSession_template IP)).run h
  | deleteSession IP => exact (reply_template (deleteSession_template IP)).run h
  | updateSession IP => exact (reply_template (amendSession_template IP _)).run h
  | setTime IP time => exact (reply_template (amendSession_template IP _)).run h
  | updateQuotaRemaining IP => exact (reply_template (amendSession_template IP _)).run h
  | setBandwidth IP bw => exact (reply_template (setLimit_template IP _)).run h
  | setQuota IP quota => exact (reply_template (setLimit_template IP _)).run h
  | getSession IP => exact (reply_template (getSession_template IP)).run h
  | getDefaultSession =>
    obtain rfl := Option.some.inj h
    rfl
  | getIPs =>
    obtain rfl := Option.some.inj h
    rfl
  | getAllSessions =>
    exact (reply_template (Code.leaves_get.bind fun c => derefAll_template c.sessions.values)).run h
  | tick =>
    exact (reply_template (Code.leaves_get.bind fun c => tickOver_template c.sessions.values)).run h

end WifiGateway
