import WifiGateway.Controller.Slots
import WifiGateway.Waiting.Writes

/-!
# What the slots write

All slots but the three that set limits write to a record only what says neither whom it is about
nor what is left of its quota; that a slot reads the record again after a wait, and assigns single
fields of it, is what makes this so. The other writes make records, take them away, and set what is
not in a record. A relation that allows such writes is `Ordinary`, and these slots write steps of
every ordinary relation (`Call.writes`).
-/

namespace WifiGateway

open Waiting (Code)

/-- A relation that allows every write but those that set limits. -/
structure Ordinary (R : Controller → Controller → Prop) : Prop where
  edit : ∀ {c : Controller} {p : Ptr} {s s' : Session}, c.heap p = some s → s'.IP = s.IP →
    s'.quotaRemaining = s.quotaRemaining → R c (c.store p s')
  insertNew : ∀ c a, R c (c.insertNew a)
  free : ∀ c p, R c (c.free p)
  same : ∀ {c c' : Controller}, c'.heap = c.heap → c'.fresh = c.fresh → R c c'

variable {R : Controller → Controller → Prop} {c : Controller} {a : String}

/-! ## Records -/

theorem writes_deref (p : Ptr) : (deref p).Writes R := by
  refine Code.writes_get.bind fun c => ?_
  cases c.heap p with
  | none => exact Code.writes_crash
  | some s => exact Code.writes_ret s

/-- An assignment writes to the record as it is then. -/
theorem writesFrom_assign {p : Ptr} {f : Session → Session}
    (hf : ∀ s, c.heap p = some s → R c (c.store p (f s))) : (assign p f).writesFrom R c := by
  simp only [WifiGateway.assign, deref, Code.bind_eq, Code.get, Code.bind, Code.writesFrom]
  cases hs : c.heap p with
  | none => trivial
  | some s => exact ⟨hf s hs, trivial⟩

theorem writesFrom_withSession {f : Ptr → Slot Int}
    (hf : ∀ p, c.sessions[a]? = some p → (f p).writesFrom R c) :
    (withSession a f).writesFrom R c := by
  simp only [withSession, Code.bind_eq, Code.get, Code.bind, Code.writesFrom]
  cases hp : c.sessions[a]? with
  | none => trivial
  | some p => exact hf p hp

theorem writes_withSession {f : Ptr → Slot Int} (hf : ∀ p, (f p).Writes R) :
    (withSession a f).Writes R := fun c => writesFrom_withSession fun p _ => hf p c

/-- A slot for the record of an IP reads it first. -/
theorem writes_withRecord {f : Ptr → Session → Slot Int} (hf : ∀ p s, (f p s).Writes R) :
    (withSession a fun p => (deref p).bind (f p)).Writes R :=
  writes_withSession fun p => (writes_deref p).bind (hf p)

namespace Ordinary

variable (h : Ordinary R)
include h

theorem assign (p : Ptr) {f : Session → Session} (hIP : ∀ s, (f s).IP = s.IP)
    (hquota : ∀ s, (f s).quotaRemaining = s.quotaRemaining) :
    (WifiGateway.assign p f).Writes R :=
  fun _ => writesFrom_assign fun s hs => h.edit hs (hIP s) (hquota s)

theorem delete (p : Ptr) : (WifiGateway.delete p).Writes R :=
  (writes_deref p).bind fun _ => Code.writes_modify fun c => h.free c p

/-- To take a session out of the map writes to no record. -/
theorem remove (a : String) : (Code.modify fun c => c.remove a : Slot Unit).Writes R :=
  Code.writes_modify fun _ => h.same rfl rfl

theorem emitSignal (x : Signal) : (WifiGateway.emitSignal x).Writes R :=
  Code.writes_modify fun _ => h.same rfl rfl

/-! ## The session slots -/

theorem newSession : (WifiGateway.newSession a).Writes R :=
  Code.writes_get.bind fun _ => (Code.Writes.when (Code.writes_modify fun c =>
    h.insertNew c a)).bind fun _ => Code.writes_ret 0

theorem revokeAccess (p : Ptr) (st : SessionState) :
    (WifiGateway.revokeAccess a p st).Writes R := by
  refine (Code.writes_command _ _).bind fun status => ?_
  refine (Code.Writes.when ?_).bind fun _ => Code.writes_ret status
  exact h.assign p (fun _ => rfl) fun _ => rfl

theorem grantAccess (p : Ptr) (s : Session) : (WifiGateway.grantAccess a p s).Writes R := by
  refine (Code.writes_command _ _).bind fun status => ?_
  refine (Code.Writes.when ?_).bind fun _ => Code.writes_ret status
  exact h.assign p (fun _ => rfl) fun _ => rfl

theorem startSession : (WifiGateway.startSession a).Writes R := by
  refine h.newSession.bind fun _ => writes_withRecord fun p s => ?_
  split
  · exact Code.writes_ret 0
  · split
    · exact h.grantAccess p s
    · exact Code.writes_ret (-1)

theorem pauseSession : (WifiGateway.pauseSession a).Writes R := by
  refine writes_withRecord fun p s => ?_
  split
  · exact Code.writes_ret 0
  · split
    · exact h.revokeAccess p .paused
    · exact Code.writes_ret (-1)

theorem playSession : (WifiGateway.playSession a).Writes R := by
  refine writes_withRecord fun p s => ?_
  split
  · exact Code.writes_ret 0
  · split
    · exact h.startSession
    · exact Code.writes_ret (-1)

theorem endSession : (WifiGateway.endSession a).Writes R := by
  refine writes_withRecord fun p s => ?_
  split
  · exact Code.writes_ret 0
  · exact h.revokeAccess p .ended

theorem removeSessionByIP : (WifiGateway.removeSessionByIP a).Writes R := by
  refine Code.writes_get.bind fun c => ?_
  cases c.sessions[a]? with
  | none => exact Code.writes_ret ()
  | some p => exact (h.remove a).bind fun _ => h.delete p

theorem removeSession (p : Ptr) : (WifiGateway.removeSession p).Writes R :=
  Code.writes_get.bind fun c => Code.Writes.when
    ((h.remove (c.sessions.key p)).bind fun _ => h.delete p)

theorem deleteSession : (WifiGateway.deleteSession a).Writes R :=
  writes_withSession fun p => h.endSession.bind fun status =>
    (Code.Writes.when (h.removeSession p)).bind fun _ => Code.writes_ret status

theorem exhaustSession (p : Ptr) : (WifiGateway.exhaustSession (some p)).Writes R := by
  refine (writes_deref p).bind fun s => ?_
  split
  · exact Code.writes_ret 0
  · exact h.revokeAccess p .exhausted

theorem amendSession {f : Session → Session} (hIP : ∀ s, (f s).IP = s.IP)
    (hquota : ∀ s, (f s).quotaRemaining = s.quotaRemaining) :
    (WifiGateway.amendSession a f).Writes R :=
  writes_withSession fun p => (h.assign p hIP hquota).bind fun _ => Code.writes_ret 0

/-- A limit is set at once, and not again after a wait. -/
theorem setLimitFrom {f : Session → Session}
    (hf : ∀ p s, c.sessions[a]? = some p → c.heap p = some s → R c (c.store p (f s))) :
    (WifiGateway.setLimit a f).writesFrom R c :=
  writesFrom_withSession fun p hp =>
    Code.writesFrom_bind (writesFrom_assign fun s hs => hf p s hp hs) fun _ =>
      h.pauseSession.bind fun _ => h.playSession.bind fun _ => Code.writes_ret 0

/-! ## The tick -/

/-- A part of the tick that ends the session if a test holds of its record. -/
theorem finishAt {b : Session → Prop} [DecidablePred b] {f : Session → Slot Unit}
    (hf : ∀ s, (f s).Writes R) (p : Ptr) :
    ((deref p).bind fun s =>
      (Code.when (b s) ((WifiGateway.endSession s.IP).bind fun _ => .ret ())).bind fun _ =>
        f s).Writes R :=
  (writes_deref p).bind fun s =>
    (Code.Writes.when (h.endSession.bind fun _ => Code.writes_ret ())).bind fun _ => hf s

/-- One pass of the loop. -/
theorem tickSession (p : Ptr) : (WifiGateway.tickSession p).Writes R := by
  have hpart : ∀ {q : Slot Int}, q.Writes R → (q.bind fun _ => .ret ()).Writes R :=
    fun hq => hq.bind fun _ => Code.writes_ret ()
  refine (writes_deref p).bind fun s => ?_
  cases s.state with
  | started =>
    refine (h.assign (f := countStarted) p (fun _ => rfl) fun _ => rfl).bind fun _ => ?_
    refine (writes_deref p).bind fun s => ?_
    refine (Code.Writes.when (hpart (h.exhaustSession p))).bind fun _ => ?_
    refine h.finishAt (fun s => ?_) p
    refine h.finishAt (fun s => ?_) p
    refine (writes_deref p).bind fun s => ?_
    refine (Code.Writes.when (h.emitSignal _)).bind fun _ => ?_
    refine (Code.Writes.when (h.emitSignal _)).bind fun _ => ?_
    exact Code.Writes.when (h.emitSignal _)
  | exhausted =>
    refine (h.assign (f := countExhausted) p (fun _ => rfl) fun _ => rfl).bind fun _ => ?_
    refine h.finishAt (fun s => ?_) p
    exact (writes_deref p).bind fun s => Code.Writes.when (hpart h.endSession)
  | paused =>
    refine (h.assign (f := countPaused) p (fun _ => rfl) fun _ => rfl).bind fun _ => ?_
    refine (writes_deref p).bind fun s => ?_
    refine (Code.Writes.when ?_).bind fun _ => ?_
    · refine (h.assign (f := rearmPause) p (fun _ => rfl) fun _ => rfl).bind fun _ => ?_
      exact hpart h.playSession
    · exact (writes_deref p).bind fun s => Code.Writes.when (h.emitSignal _)
  | ended =>
    refine (h.assign (f := countEnded) p (fun _ => rfl) fun _ => rfl).bind fun _ => ?_
    exact (writes_deref p).bind fun s => Code.Writes.when h.removeSessionByIP
  | uninitialized => exact Code.writes_ret ()

theorem tickOver (l : List Ptr) : (WifiGateway.tickOver l).Writes R := by
  induction l with
  | nil => exact Code.writes_ret ()
  | cons p rest ih => exact (h.tickSession p).holding.bind fun _ => ih

theorem tick : WifiGateway.tick.Writes R :=
  Code.writes_get.bind fun c => h.tickOver c.sessions.values

/-! ## The clean-up -/

theorem deleteAll (l : List Ptr) : (WifiGateway.deleteAll l).Writes R := by
  induction l with
  | nil => exact Code.writes_ret ()
  | cons p rest ih => exact (h.delete p).bind fun _ => ih

theorem cleanup : WifiGateway.cleanup.Writes R :=
  (Code.writes_command _ _).bind fun _ => Code.writes_get.bind fun c =>
    (h.deleteAll c.sessions.values).bind fun _ => Code.writes_modify fun _ => h.same rfl rfl

end Ordinary

/-! ## Calls -/

theorem writes_derefAll (l : List Ptr) : (derefAll l).Writes R := by
  induction l with
  | nil => exact Code.writes_ret []
  | cons p rest ih =>
    exact (writes_deref p).bind fun s => ih.bind fun ss => Code.writes_ret (s :: ss)

theorem writes_getSession : (getSession a).Writes R := by
  refine Code.writes_get.bind fun c => ?_
  cases c.sessions[a]? with
  | none => exact Code.writes_ret noSession
  | some p => exact (writes_deref p).bind fun s => Code.writes_ret _

/-- The calls that set or use up a quota. -/
def Call.setsQuota : Call → Bool
  | .setQuota _ _ | .updateQuotaRemaining _ => true
  | _ => false

/-- All other calls write steps of an ordinary relation. -/
theorem Call.writes (h : Ordinary R) {i : Call} (hi : i.setsQuota = false) : i.slot.Writes R := by
  have hreply : ∀ {β : Type} {q : Slot β} (f : β → Reply), q.Writes R →
      (q.bind fun x => .ret (f x)).Writes R :=
    fun f hq => hq.bind fun x => Code.writes_ret (f x)
  have hdefault : ∀ {f : Controller → Controller}, (∀ c, (f c).heap = c.heap) →
      (∀ c, (f c).fresh = c.fresh) →
      ((Code.modify f : Slot Unit).bind fun _ => .ret (0 : Int)).Writes R := fun hheap hfresh =>
    (Code.writes_modify fun c => h.same (hheap c) (hfresh c)).bind fun _ => Code.writes_ret 0
  cases i with
  | newSession IP => exact hreply _ h.newSession
  | startSession IP => exact hreply _ h.startSession
  | pauseSession IP => exact hreply _ h.pauseSession
  | playSession IP => exact hreply _ h.playSession
  | updateSession IP => exact hreply _ (h.amendSession (fun _ => rfl) fun _ => rfl)
  | endSession IP => exact hreply _ h.endSession
  | deleteSession IP => exact hreply _ h.deleteSession
  | setBandwidth IP bw =>
    exact hreply _ fun c => h.setLimitFrom fun _ _ _ hs => h.edit hs rfl rfl
  | setTime IP time => exact hreply _ (h.amendSession (fun _ => rfl) fun _ => rfl)
  | setDefaultBandWidth bw => exact hreply _ (hdefault (fun _ => rfl) fun _ => rfl)
  | setDefaultQuota quota => exact hreply _ (hdefault (fun _ => rfl) fun _ => rfl)
  | setDefaultTime time => exact hreply _ (hdefault (fun _ => rfl) fun _ => rfl)
  | setDefaultSession s => exact hreply _ (hdefault (fun _ => rfl) fun _ => rfl)
  | getDefaultSession => exact hreply _ (Code.writes_get.bind fun c => Code.writes_ret _)
  | getSession IP => exact hreply _ writes_getSession
  | getAllSessions =>
    exact hreply _ (Code.writes_get.bind fun c => writes_derefAll c.sessions.values)
  | getIPs => exact hreply _ (Code.writes_get.bind fun c => Code.writes_ret _)
  | tick => exact h.tick.bind fun _ => Code.writes_ret _
  | setQuota | updateQuotaRemaining => exact absurd hi (by simp [Call.setsQuota])

end WifiGateway
