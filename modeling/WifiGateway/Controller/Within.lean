import WifiGateway.Controller.Effect
import WifiGateway.Waiting.Deployed

/-!
# The hosts that commands are about

A command of the Controller names the IP that the call gives, or that of a record. So as long as
no call names another, its commands are about some given hosts only, however calls are nested in
one another (`Call.within`). The clean-up is the one command that is about no host.
-/

namespace WifiGateway

open Waiting (Code)

/-- Every record is that of one of these hosts. -/
structure Controller.Knows (hosts : String → Prop) (c : Controller) : Prop where
  record : ∀ p s, c.heap p = some s → hosts s.IP

/-- A command about one of these hosts. -/
def Command.About (hosts : String → Prop) (c : Command) : Prop := ∃ a, c.host = some a ∧ hosts a

/-- The slot knows these hosts only, and returns what `Q` holds of. -/
abbrev WithinHosts {α : Type} (hosts : String → Prop) (p : Slot α) (Q : α → Prop) : Prop :=
  p.Stays (Controller.Knows hosts) (Command.About hosts) Q

variable {α : Type} {hosts : String → Prop} {c : Controller} {a : String} {p : Ptr} {s : Session}

namespace Controller.Knows

theorem store (h : c.Knows hosts) (hs : hosts s.IP) : (c.store p s).Knows hosts := by
  refine ⟨fun q s' hq => ?_⟩
  rw [Controller.heap_store] at hq
  split at hq
  · exact Option.some.inj hq ▸ hs
  · exact h.record q s' hq

theorem free (h : c.Knows hosts) : (c.free p).Knows hosts := by
  refine ⟨fun q s' hq => ?_⟩
  rw [Controller.heap_free] at hq
  split at hq
  · exact absurd hq (by simp)
  · exact h.record q s' hq

theorem insertNew (h : c.Knows hosts) (ha : hosts a) : (c.insertNew a).Knows hosts := by
  have hstore : (c.store c.fresh (c.initSession a)).Knows hosts := h.store ha
  exact ⟨hstore.record⟩

theorem init : Controller.init.Knows hosts := ⟨fun _ _ hs => absurd hs (by simp [Controller.init])⟩

end Controller.Knows

/-! ## Records -/

theorem within_deref (p : Ptr) : WithinHosts hosts (deref p) fun s => hosts s.IP := by
  refine Code.stays_get.bind fun c hc => ?_
  cases hs : c.heap p with
  | none => exact Code.stays_crash
  | some s => exact Code.stays_ret (hc.record p s hs)

theorem within_assign (p : Ptr) {f : Session → Session} (hf : ∀ s, (f s).IP = s.IP) :
    WithinHosts hosts (assign p f) fun _ => True := by
  refine (within_deref p).bind fun s hs => Code.stays_modify fun c hc => hc.store ?_
  rw [hf]
  exact hs

theorem within_delete (p : Ptr) : WithinHosts hosts (delete p) fun _ => True :=
  (within_deref p).bind fun _ _ => Code.stays_modify fun _ hc => hc.free

theorem within_emitSignal (x : Signal) : WithinHosts hosts (emitSignal x) fun _ => True :=
  Code.stays_modify fun _ hc => ⟨hc.record⟩

theorem within_runCommandExec {cmd : Command} {held : Int → List Ptr} (h : cmd.About hosts) :
    WithinHosts hosts (runCommandExec cmd held) fun _ => True := Code.stays_command h

theorem within_withSession {f : Ptr → Slot Int} (hf : ∀ p, WithinHosts hosts (f p) fun _ => True) :
    WithinHosts hosts (withSession a f) fun _ => True := by
  refine Code.stays_get.bind fun c _ => ?_
  cases c.sessions[a]? with
  | none => exact Code.stays_ret trivial
  | some p => exact hf p

/-- A slot for the record of an IP reads it first. -/
theorem within_withRecord {f : Ptr → Session → Slot Int}
    (hf : ∀ p s, hosts s.IP → WithinHosts hosts (f p s) fun _ => True) :
    WithinHosts hosts (withSession a fun p => (deref p).bind (f p)) fun _ => True :=
  within_withSession fun p => (within_deref p).bind (hf p)

/-! ## The session slots -/

section Slots

variable (ha : hosts a)
include ha

theorem within_newSession : WithinHosts hosts (newSession a) fun _ => True :=
  Code.stays_get.bind fun _ _ =>
    (Code.Stays.when (Code.stays_modify fun _ hc => hc.insertNew ha)).andThen fun _ =>
      Code.stays_ret trivial

theorem within_revokeAccess (p : Ptr) (st : SessionState) :
    WithinHosts hosts (revokeAccess a p st) fun _ => True := by
  refine (within_runCommandExec ⟨a, rfl, ha⟩).andThen fun status => ?_
  refine (Code.Stays.when ?_).andThen fun _ => Code.stays_ret trivial
  exact within_assign p fun _ => rfl

theorem within_grantAccess (p : Ptr) (s : Session) :
    WithinHosts hosts (grantAccess a p s) fun _ => True := by
  refine (within_runCommandExec ⟨a, rfl, ha⟩).andThen fun status => ?_
  refine (Code.Stays.when ?_).andThen fun _ => Code.stays_ret trivial
  exact within_assign p fun _ => rfl

theorem within_startSession : WithinHosts hosts (startSession a) fun _ => True := by
  refine (within_newSession ha).andThen fun _ => within_withRecord fun p s _ => ?_
  split
  · exact Code.stays_ret trivial
  · split
    · exact within_grantAccess ha p s
    · exact Code.stays_ret trivial

theorem within_pauseSession : WithinHosts hosts (pauseSession a) fun _ => True := by
  refine within_withRecord fun p s _ => ?_
  split
  · exact Code.stays_ret trivial
  · split
    · exact within_revokeAccess ha p .paused
    · exact Code.stays_ret trivial

theorem within_playSession : WithinHosts hosts (playSession a) fun _ => True := by
  refine within_withRecord fun p s _ => ?_
  split
  · exact Code.stays_ret trivial
  · split
    · exact within_startSession ha
    · exact Code.stays_ret trivial

theorem within_endSession : WithinHosts hosts (endSession a) fun _ => True := by
  refine within_withRecord fun p s _ => ?_
  split
  · exact Code.stays_ret trivial
  · exact within_revokeAccess ha p .ended

theorem within_setLimit {f : Session → Session} (hf : ∀ s, (f s).IP = s.IP) :
    WithinHosts hosts (setLimit a f) fun _ => True :=
  within_withSession fun p => (within_assign p hf).andThen fun _ =>
    (within_pauseSession ha).andThen fun _ => (within_playSession ha).andThen fun _ =>
      Code.stays_ret trivial

end Slots

theorem within_removeSessionByIP : WithinHosts hosts (removeSessionByIP a) fun _ => True := by
  refine Code.stays_get.bind fun c _ => ?_
  cases c.sessions[a]? with
  | none => exact Code.stays_ret trivial
  | some p => exact (Code.stays_modify fun _ hc => ⟨hc.record⟩).andThen fun _ => within_delete p

theorem within_removeSession (p : Ptr) : WithinHosts hosts (removeSession p) fun _ => True :=
  Code.stays_get.bind fun _ _ => Code.Stays.when
    ((Code.stays_modify fun _ hc => ⟨hc.record⟩).andThen fun _ => within_delete p)

theorem within_deleteSession (ha : hosts a) : WithinHosts hosts (deleteSession a) fun _ => True :=
  within_withSession fun p => (within_endSession ha).andThen fun _ =>
    (Code.Stays.when (within_removeSession p)).andThen fun _ => Code.stays_ret trivial

theorem within_exhaustSession (p : Ptr) :
    WithinHosts hosts (exhaustSession (some p)) fun _ => True := by
  refine (within_deref p).bind fun s hs => ?_
  split
  · exact Code.stays_ret trivial
  · exact within_revokeAccess hs p .exhausted

theorem within_amendSession {f : Session → Session} (hf : ∀ s, (f s).IP = s.IP) :
    WithinHosts hosts (amendSession a f) fun _ => True :=
  within_withSession fun p => (within_assign p hf).andThen fun _ => Code.stays_ret trivial

/-! ## The tick -/

/-- A part of the tick that does something with the record if a test holds of it. -/
theorem within_finishAt {b : Session → Prop} [DecidablePred b] {f : Session → Slot Unit}
    (hf : ∀ s, hosts s.IP → WithinHosts hosts (f s) fun _ => True) (p : Ptr) :
    WithinHosts hosts ((deref p).bind fun s =>
      (Code.when (b s) ((endSession s.IP).bind fun _ => .ret ())).bind fun _ => f s)
      fun _ => True :=
  (within_deref p).bind fun s hs =>
    (Code.Stays.when ((within_endSession hs).andThen fun _ => Code.stays_ret trivial)).andThen
      fun _ => hf s hs

/-- One pass of the loop. -/
theorem within_tickSession (p : Ptr) : WithinHosts hosts (tickSession p) fun _ => True := by
  have hpart : ∀ {q : Slot Int}, WithinHosts hosts q (fun _ => True) →
      WithinHosts hosts (q.bind fun _ => .ret ()) fun _ => True :=
    fun hq => hq.andThen fun _ => Code.stays_ret trivial
  refine (within_deref p).bind fun s _ => ?_
  cases s.state with
  | started =>
    refine (within_assign (f := countStarted) p fun _ => rfl).andThen fun _ => ?_
    refine (within_deref p).bind fun s _ => ?_
    refine (Code.Stays.when (hpart (within_exhaustSession p))).andThen fun _ => ?_
    refine within_finishAt (fun s _ => ?_) p
    refine within_finishAt (fun s _ => ?_) p
    refine (within_deref p).bind fun s _ => ?_
    refine (Code.Stays.when (within_emitSignal _)).andThen fun _ => ?_
    refine (Code.Stays.when (within_emitSignal _)).andThen fun _ => ?_
    exact Code.Stays.when (within_emitSignal _)
  | exhausted =>
    refine (within_assign (f := countExhausted) p fun _ => rfl).andThen fun _ => ?_
    refine within_finishAt (fun s _ => ?_) p
    exact (within_deref p).bind fun s hs => Code.Stays.when (hpart (within_endSession hs))
  | paused =>
    refine (within_assign (f := countPaused) p fun _ => rfl).andThen fun _ => ?_
    refine (within_deref p).bind fun s hs => ?_
    refine (Code.Stays.when ?_).andThen fun _ => ?_
    · refine (within_assign (f := rearmPause) p fun _ => rfl).andThen fun _ => ?_
      exact hpart (within_playSession hs)
    · exact (within_deref p).bind fun s _ => Code.Stays.when (within_emitSignal _)
  | ended =>
    refine (within_assign (f := countEnded) p fun _ => rfl).andThen fun _ => ?_
    exact (within_deref p).bind fun s _ => Code.Stays.when within_removeSessionByIP
  | uninitialized => exact Code.stays_ret trivial

theorem within_tickOver (l : List Ptr) : WithinHosts hosts (tickOver l) fun _ => True := by
  induction l with
  | nil => exact Code.stays_ret trivial
  | cons p rest ih => exact (within_tickSession p).holding.andThen fun _ => ih

theorem within_tick : WithinHosts hosts tick fun _ => True :=
  Code.stays_get.bind fun c _ => within_tickOver c.sessions.values

/-! ## Calls -/

theorem within_derefAll (l : List Ptr) : WithinHosts hosts (derefAll l) fun _ => True := by
  induction l with
  | nil => exact Code.stays_ret trivial
  | cons p rest ih =>
    exact (within_deref p).bind fun _ _ => ih.andThen fun _ => Code.stays_ret trivial

theorem within_getSession : WithinHosts hosts (getSession a) fun _ => True := by
  refine Code.stays_get.bind fun c _ => ?_
  cases c.sessions[a]? with
  | none => exact Code.stays_ret trivial
  | some p => exact (within_deref p).bind fun _ _ => Code.stays_ret trivial

theorem within_deleteAll (l : List Ptr) : WithinHosts hosts (deleteAll l) fun _ => True := by
  induction l with
  | nil => exact Code.stays_ret trivial
  | cons p rest ih => exact (within_delete p).andThen fun _ => ih

theorem within_clearSessions : WithinHosts hosts clearSessions fun _ => True :=
  Code.stays_get.bind fun c _ => (within_deleteAll c.sessions.values).andThen fun _ =>
    Code.stays_modify fun _ hc => ⟨hc.record⟩

/-- A call that names no other host. -/
theorem Call.within (i : Call) (hi : ∀ a, i.names = some a → hosts a) :
    WithinHosts hosts i.slot fun _ => True := by
  have hreply : ∀ {β : Type} {q : Slot β} (f : β → Reply), WithinHosts hosts q (fun _ => True) →
      WithinHosts hosts (q.bind fun x => .ret (f x)) fun _ => True :=
    fun f hq => hq.andThen fun _ => Code.stays_ret trivial
  have hdefault : ∀ {f : Controller → Controller}, (∀ c, (f c).heap = c.heap) →
      WithinHosts hosts ((Code.modify f).bind fun _ => .ret (0 : Int)) fun _ => True := by
    intro f hf
    refine (Code.stays_modify fun c hc => ⟨fun p s hs => ?_⟩).andThen fun _ =>
      Code.stays_ret trivial
    rw [hf] at hs
    exact hc.record p s hs
  cases i with
  | newSession IP => exact hreply _ (within_newSession (hi IP rfl))
  | startSession IP => exact hreply _ (within_startSession (hi IP rfl))
  | pauseSession IP => exact hreply _ (within_pauseSession (hi IP rfl))
  | playSession IP => exact hreply _ (within_playSession (hi IP rfl))
  | updateSession IP => exact hreply _ (within_amendSession fun _ => rfl)
  | endSession IP => exact hreply _ (within_endSession (hi IP rfl))
  | deleteSession IP => exact hreply _ (within_deleteSession (hi IP rfl))
  | setBandwidth IP bw => exact hreply _ (within_setLimit (hi IP rfl) fun _ => rfl)
  | setQuota IP quota => exact hreply _ (within_setLimit (hi IP rfl) fun _ => rfl)
  | setTime IP time => exact hreply _ (within_amendSession fun _ => rfl)
  | setDefaultBandWidth bw => exact hreply _ (hdefault fun _ => rfl)
  | setDefaultQuota quota => exact hreply _ (hdefault fun _ => rfl)
  | setDefaultTime time => exact hreply _ (hdefault fun _ => rfl)
  | setDefaultSession s => exact hreply _ (hdefault fun _ => rfl)
  | getDefaultSession =>
    exact hreply _ (Code.stays_get.bind fun _ _ => Code.stays_ret trivial)
  | getSession IP => exact hreply _ within_getSession
  | getAllSessions =>
    exact hreply _ (Code.stays_get.bind fun c _ => within_derefAll c.sessions.values)
  | getIPs => exact hreply _ (Code.stays_get.bind fun _ _ => Code.stays_ret trivial)
  | updateQuotaRemaining IP => exact hreply _ (within_amendSession fun _ => rfl)
  | tick => exact within_tick.andThen fun _ => Code.stays_ret trivial

end WifiGateway
