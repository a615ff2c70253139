import WifiGateway.Api.Adaptor
import WifiGateway.Controller.Calls
import WifiGateway.Controller.History

/-!
# The layers do what the Controller does

A method is faithful in a world if, whatever the commands return, it runs like the slot it
is named after: the same result, the same commands and the same world (`SameRun`; for
`Gateway.php` the result is that of `get_session_stats` only).

`fidelity` says of every method when it is. Most always are. `setTime` and `set_time` call
`setQuota`, which is the same thing only if nothing would change anyway (`Harmless`);
`getDefaultSession` returns fields that it does not assign; and the three methods
that skip an empty host are faithful to the Controller when it would do nothing.
-/

namespace WifiGateway.Api

open Waiting (Code Oracle)

variable {w : GwWorld} {IP : String} {time : Int32} {locals : Locals}

/-- The two run alike from `w`, as far as `f` and `g` show of their results. -/
def SameRun {α β γ : Type} (p : Slot α) (f : α → γ) (q : Slot β) (g : β → γ) (w : GwWorld) :
    Prop :=
  ∀ (o : Oracle Command) (t : List (Command × Int)),
    (p.run Command.effect o w t).map (fun r => (f r.1, r.2)) =
      (q.run Command.effect o w t).map fun r => (g r.1, r.2)

/-- The fields of a session under their names. -/
def fieldsOf (s : Session) : List (String × BusValue) :=
  [("IP", .str s.IP), ("MAC", .str s.MAC), ("state", .int (stateNumber s.state)),
    ("bandwidth", .uint s.bandwidth), ("timeRemaining", .int s.timeRemaining),
    ("quotaRemaining", .int s.quotaRemaining),
    ("activityTimeRemaining", .uint s.activityTimeRemaining),
    ("updateTimeRemaining", .uint s.updateTimeRemaining),
    ("pauseTimeRemaining", .uint s.pauseTimeRemaining),
    ("endTimeRemaining", .uint s.endTimeRemaining), ("sessionTime", .uint s.sessionTime)]

/-- The fields of a session that the web side gets. -/
def Outcome.fields : Outcome → Option (List (String × BusValue))
  | .stats l => some l
  | .ok | .fail | .ips _ | .exception _ _ => none

/-- The fields of the session that a slot returns. -/
def replyFields : Reply → Option (List (String × BusValue))
  | .session s => some (fieldsOf s)
  | .status _ | .sessions _ | .IPs _ | .nothing => none

/-- The method of the adaptor has exactly the effect and the result of the slot. -/
def Request.Faithful (locals : Locals) (w : GwWorld) (r : Request) : Prop :=
  SameRun (r.serve locals) id r.meant.slot exportReply w

/-- The method of `Gateway` has exactly the effect of the slot; a session has every field
under its own name. -/
def GatewayCall.Faithful (locals : Locals) (w : GwWorld) (g : GatewayCall) : Prop :=
  SameRun (g.serve locals) Outcome.fields g.meant.slot replyFields w

/-! ## Methods that pass a call on -/

/-- A status is passed on as it is. -/
theorem same_status (p : Slot Int) :
    SameRun (do return Answer.status (← p)) id (do return Reply.status (← p)) exportReply w := by
  intro o t
  cases hp : p.run Command.effect o w t with
  | none => simp [hp]
  | some r => simp [hp, exportReply]

theorem same_orThrow {r : Request} {message : String} {p : Slot Int}
    (hserve : r.serve locals = do return .status (← p)) :
    SameRun (orThrow locals r message) Outcome.fields (do return Reply.status (← p))
      replyFields w := by
  intro o t
  unfold orThrow
  rw [hserve]
  cases hp : p.run Command.effect o w t with
  | none => simp [hp]
  | some x =>
    by_cases h0 : x.1 = 0
    · simp [hp, h0, Outcome.fields, replyFields]
    · simp [hp, h0, Outcome.fields, replyFields]

theorem same_orFail {r : Request} {p : Slot Int}
    (hserve : r.serve locals = do return .status (← p)) :
    SameRun (orFail locals r) Outcome.fields (do return Reply.status (← p)) replyFields w := by
  intro o t
  unfold orFail
  rw [hserve]
  cases hp : p.run Command.effect o w t with
  | none => simp [hp]
  | some x =>
    by_cases h0 : x.1 = 0
    · simp [hp, h0, Outcome.fields, replyFields]
    · simp [hp, h0, Outcome.fields, replyFields]

/-! ## `setTime` -/

/-- Setting the quota instead of the time makes no difference: there is no record, or one
that has both already and that would be neither paused nor played. -/
def Harmless (w : GwWorld) (IP : String) (time : Int32) : Prop :=
  ∀ s, w.mem.record IP = some s →
    s.timeRemaining = time ∧ s.quotaRemaining = time ∧ s.state ≠ .started ∧
      (s.state = .paused → time = 0)

/-- What `setLimit` does with the record of a host. -/
theorem run_setLimit {p : Ptr} {s : Session} {f : Session → Session}
    (hp : w.mem.sessions[IP]? = some p) (hs : w.mem.heap p = some s) (o : Oracle Command)
    (t : List (Command × Int)) :
    (setLimit IP f).run Command.effect o w t =
      (do let _ ← pauseSession IP
          let _ ← playSession IP
          return 0 : Slot Int).run Command.effect o { w with mem := w.mem.store p (f s) } t := by
  simp [setLimit, withSession, hp, run_assign hs]

/-- A pause and a play that find an exhausted record, or one that has no access, do nothing. -/
theorem run_pause_play {p : Ptr} {s : Session} (hp : w.mem.sessions[IP]? = some p)
    (hs : w.mem.heap p = some s) (hst : s.state ≠ .started)
    (hpaused : s.state = .paused → isExhausted s = true) (o : Oracle Command)
    (t : List (Command × Int)) :
    (do let _ ← pauseSession IP
        let _ ← playSession IP
        return 0 : Slot Int).run Command.effect o w t = some (0, w, t) := by
  by_cases hst' : s.state = .paused
  · have hcontains : w.mem.sessions.contains IP = true := by
      rw [QMap.contains_eq, hp]
      rfl
    simp [pauseSession, playSession, startSession, newSession, withSession, Code.run_when, hp,
      hcontains, run_deref hs, hst', hpaused hst']
  · simp [pauseSession, playSession, withSession, hp, run_deref hs, hst, hst']

/-- Then the two slots run alike. -/
theorem Harmless.run_eq (h : Harmless w IP time) (hw : w.mem.WF) (o : Oracle Command)
    (t : List (Command × Int)) :
    (setQuota IP time).run Command.effect o w t = (setTime IP time).run Command.effect o w t := by
  unfold setQuota setTime
  cases hp : w.mem.sessions[IP]? with
  | none => simp [setLimit, amendSession, withSession, hp]
  | some p =>
    obtain ⟨s, hs, -⟩ := hw.stored IP p hp
    obtain ⟨htime, hquota, hst, hpaused⟩ := h s ((Controller.record_some hp).trans hs)
    have hsame : { s with quotaRemaining := time } = s := by rw [← hquota]
    have hsame' : { s with timeRemaining := time } = s := by rw [← htime]
    have hheap : (w.mem.store p s).heap p = some s := by rw [Controller.heap_store, if_pos rfl]
    have hx : s.state = .paused → isExhausted s = true := by
      intro hst'
      simp [isExhausted, htime, hpaused hst']
    rw [run_setLimit hp hs, hsame,
      run_pause_play (w := ⟨w.mem.store p s, w.env⟩) hp hheap hst hx]
    simp [amendSession, withSession, hp, run_assign hs, hsame']

/-- A pause that issues no command finds a record that is not started, and leaves it. -/
theorem pause_idle {status : Int} {h : Host} {s : Session} (hr : h.record = some s)
    (hissued : (Host.pause IP status h).issued = []) :
    s.state ≠ .started ∧ (Host.pause IP status h).host = h := by
  unfold Host.pause at *
  rw [Host.withRecord_some hr] at *
  cases hst : s.state with
  | started => simp [hst, Host.revoke] at hissued
  | paused | uninitialized | exhausted | ended => simp [Host.stay]

/-- A play that issues no command does not find a paused record with limits left. -/
theorem play_idle {status : Int} {h : Host} {s : Session} (hr : h.record = some s)
    (hissued : (Host.play IP status h).issued = []) :
    (s.state = .paused → isExhausted s = true) ∧ (Host.play IP status h).host = h := by
  have hsame : { h with record := some s } = h := by rw [← hr]
  unfold Host.play Host.startRecord at *
  rw [Host.withRecord_some hr] at *
  cases hst : s.state with
  | paused =>
    cases hx : isExhausted s with
    | false => simp [hst, Host.letIn, hx] at hissued
    | true => simp [Host.stay, hsame]
  | started | uninitialized | exhausted | ended => simp [Host.stay]

/-- A limit is changed without a command only if there is nothing to pause or to play. -/
theorem relimit_idle {f : Session → Session} {x : Outcomes} {h : Host} {s : Session}
    (hr : h.record = some s) (hissued : (Host.relimit IP f x h).issued = []) :
    (f s).state ≠ .started ∧ ((f s).state = .paused → isExhausted (f s) = true) ∧
      (Host.relimit IP f x h).host = { h with record := some (f s) } := by
  unfold Host.relimit at *
  rw [Host.withRecord_some hr] at *
  obtain ⟨hplay, hpause⟩ := List.append_eq_nil_iff.mp hissued
  obtain ⟨hst, hhost⟩ := pause_idle rfl hpause
  rw [hhost] at hplay
  obtain ⟨hpaused, hhost'⟩ := play_idle rfl hplay
  refine ⟨hst, hpaused, ?_⟩
  simp only [hhost, hhost']

/-- Calls that serve one host alike, with every command succeeding, do the same to it. -/
theorem serve_eq {i j : Call} (hw : w.mem.WF) (hi : i.names = some IP) (hj : j.names = some IP)
    (h : (i.slot.run Command.effect (fun _ _ => 0) w []).map Prod.snd =
      (j.slot.run Command.effect (fun _ _ => 0) w []).map Prod.snd) :
    ∃ x y : Outcomes,
      (Host.serve IP (w.mem.initSession IP) x (w.host IP) i).host =
          (Host.serve IP (w.mem.initSession IP) y (w.host IP) j).host ∧
        (Host.serve IP (w.mem.initSession IP) x (w.host IP) i).issued =
          (Host.serve IP (w.mem.initSession IP) y (w.host IP) j).issued := by
  obtain ⟨x, -, wi, hruni, hei⟩ := slot_serves (o := fun _ _ => 0) (t := []) hw i hi
  obtain ⟨y, -, wj, hrunj, hej⟩ := slot_serves (o := fun _ _ => 0) (t := []) hw j hj
  rw [hruni, hrunj] at h
  simp only [Option.map_some, Option.some.injEq, Prod.mk.injEq, List.append_nil] at h
  obtain ⟨hworld, hissued⟩ := h
  refine ⟨x, y, ?_, hissued⟩
  rw [← hei.host, ← hej.host, hworld]

/-- The slots have the same effect only if it makes no difference. -/
theorem harmless_of_effect (hw : w.mem.WF)
    (h : ((Call.setQuota IP time).slot.run Command.effect (fun _ _ => 0) w []).map Prod.snd =
      ((Call.setTime IP time).slot.run Command.effect (fun _ _ => 0) w []).map Prod.snd) :
    Harmless w IP time := by
  intro s hs
  obtain ⟨x, y, hhost, hissued⟩ := serve_eq hw rfl rfl h
  have hr : (w.host IP).record = some s := hs
  simp only [Host.serve] at hhost hissued
  unfold Host.amend at hhost hissued
  rw [Host.withRecord_some hr] at hhost hissued
  obtain ⟨hst, hpaused, hlimit⟩ := relimit_idle hr hissued
  rw [hlimit] at hhost
  have hfields : { s with quotaRemaining := time } = { s with timeRemaining := time } :=
    Option.some.inj (congrArg Host.record hhost)
  have hquota : time = s.quotaRemaining := congrArg Session.quotaRemaining hfields
  have htime : s.timeRemaining = time := congrArg Session.timeRemaining hfields
  refine ⟨htime, hquota.symm, hst, ?_⟩
  intro hst'
  simpa [isExhausted, htime] using hpaused hst'

/-! ## Methods that skip a call -/

/-- Doing nothing is what the slot does. -/
def Skips (p : Slot Int) (w : GwWorld) : Prop :=
  ∀ (o : Oracle Command) (t : List (Command × Int)),
    ∃ status, p.run Command.effect o w t = some (status, w, t)

theorem same_skip {p : Slot Int} :
    SameRun (return .ok : Slot Outcome) Outcome.fields (do return Reply.status (← p)) replyFields w
      ↔ Skips p w := by
  constructor
  · intro h o t
    cases hp : p.run Command.effect o w t with
    | none => simpa [hp] using h o t
    | some x =>
      obtain ⟨status, w', t'⟩ := x
      have hsame : w = w' ∧ t = t' := by
        simpa [hp, Outcome.fields, replyFields] using h o t
      exact ⟨status, by rw [hsame.1, hsame.2]⟩
  · intro h o t
    obtain ⟨status, hp⟩ := h o t
    simp [hp, Outcome.fields, replyFields]

/-- A call that is skipped does nothing to its host. -/
theorem Skips.serve {p : Slot Int} {i : Call} (h : Skips p w) (hw : w.mem.WF)
    (hslot : i.slot = do return .status (← p)) (hi : i.names = some IP) :
    ∃ x : Outcomes,
      (Host.serve IP (w.mem.initSession IP) x (w.host IP) i).host = w.host IP ∧
        (Host.serve IP (w.mem.initSession IP) x (w.host IP) i).issued = [] := by
  obtain ⟨status, hp⟩ := h (fun _ _ => 0) []
  obtain ⟨x, -, w', hrun, he⟩ := slot_serves (o := fun _ _ => 0) (t := []) hw i hi
  rw [hslot] at hrun
  simp [hp] at hrun
  obtain ⟨-, hworld, hissued⟩ := hrun
  refine ⟨x, ?_, hissued⟩
  rw [← he.host, hworld]

/-- `startSession` finds nothing to do. -/
def StartIdle (w : GwWorld) (IP : String) : Prop :=
  ∃ s, w.mem.record IP = some s ∧ (s.state = .started ∨ isExhausted s = true)

/-- `pauseSession` finds nothing to do. -/
def PauseIdle (w : GwWorld) (IP : String) : Prop :=
  ∀ s, w.mem.record IP = some s → s.state ≠ .started

/-- `playSession` finds nothing to do. -/
def PlayIdle (w : GwWorld) (IP : String) : Prop :=
  ∀ s, w.mem.record IP = some s → s.state = .paused → isExhausted s = true

theorem skips_startSession (hw : w.mem.WF) : Skips (startSession IP) w ↔ StartIdle w IP := by
  constructor
  · intro h
    obtain ⟨x, hhost, hissued⟩ := h.serve hw (i := .startSession IP) rfl rfl
    simp only [Host.serve, Host.start] at hhost hissued
    have hrec : (w.host IP).record = some ((w.host IP).record.getD (w.mem.initSession IP)) := by
      rcases Host.startRecord_record IP x.add ((w.host IP).record.getD (w.mem.initSession IP))
        (w.host IP) with hr | ⟨hr, -⟩
      · rwa [hhost] at hr
      · rw [hhost] at hr
        rw [hr]
        rfl
    refine ⟨_, hrec, ?_⟩
    unfold Host.startRecord at hissued
    split at hissued
    · next hst => exact .inl hst
    · split at hissued
      · exact absurd hissued (by simp [Host.letIn])
      · next hx => exact .inr (by simpa using hx)
  · intro h o t
    obtain ⟨s, hs, hidle⟩ := h
    cases hp : w.mem.sessions[IP]? with
    | none =>
      rw [Controller.record_none hp] at hs
      exact absurd hs (by simp)
    | some p =>
      have hheap : w.mem.heap p = some s := (Controller.record_some hp).symm.trans hs
      have hcontains : w.mem.sessions.contains IP = true := by
        rw [QMap.contains_eq, hp]
        rfl
      rcases hidle with hst | hx
      · exact ⟨0, by simp [startSession, newSession, withSession, Code.run_when, hp, hcontains,
          run_deref hheap, hst]⟩
      · by_cases hst : s.state = .started
        · exact ⟨0, by simp [startSession, newSession, withSession, Code.run_when, hp, hcontains,
            run_deref hheap, hst]⟩
        · exact ⟨-1, by simp [startSession, newSession, withSession, Code.run_when, hp, hcontains,
            run_deref hheap, hst, hx]⟩

theorem skips_pauseSession (hw : w.mem.WF) : Skips (pauseSession IP) w ↔ PauseIdle w IP := by
  constructor
  · intro h s hs
    obtain ⟨x, -, hissued⟩ := h.serve hw (i := .pauseSession IP) rfl rfl
    exact (pause_idle (h := w.host IP) hs hissued).1
  · intro h o t
    cases hp : w.mem.sessions[IP]? with
    | none => exact ⟨-1, by simp [pauseSession, withSession, hp]⟩
    | some p =>
      obtain ⟨s, hs, -⟩ := hw.stored IP p hp
      have hst : s.state ≠ .started := h s ((Controller.record_some hp).trans hs)
      by_cases hst' : s.state = .paused
      · exact ⟨0, by simp [pauseSession, withSession, hp, run_deref hs, hst']⟩
      · exact ⟨-1, by simp [pauseSession, withSession, hp, run_deref hs, hst, hst']⟩

theorem skips_playSession (hw : w.mem.WF) : Skips (playSession IP) w ↔ PlayIdle w IP := by
  constructor
  · intro h s hs
    obtain ⟨x, -, hissued⟩ := h.serve hw (i := .playSession IP) rfl rfl
    exact (play_idle (h := w.host IP) hs hissued).1
  · intro h o t
    cases hp : w.mem.sessions[IP]? with
    | none => exact ⟨-1, by simp [playSession, withSession, hp]⟩
    | some p =>
      obtain ⟨s, hs, -⟩ := hw.stored IP p hp
      have hrec : w.mem.record IP = some s := (Controller.record_some hp).trans hs
      by_cases hst : s.state = .paused
      · obtain ⟨status, hrun⟩ :=
          (skips_startSession hw).mpr ⟨s, hrec, .inr (h s hrec hst)⟩ o t
        exact ⟨status, by simp [playSession, withSession, hp, run_deref hs, hst, hrun]⟩
      · by_cases hst' : s.state = .started
        · exact ⟨0, by simp [playSession, withSession, hp, run_deref hs, hst']⟩
        · exact ⟨-1, by simp [playSession, withSession, hp, run_deref hs, hst, hst']⟩

/-! ## When the methods are faithful -/

/-- The adaptor keeps to the Controller: whether it does is a matter of two methods. -/
def Request.Keeps (locals : Locals) (w : GwWorld) : Request → Prop
  | .setTime IP time => Harmless w IP time
  -- what the fields it does not assign happen to hold
  | .getDefaultSession =>
    locals.retval.state = 0 ∧ locals.retval.activityTimeRemaining = ACTIVITY_TIME ∧
      locals.retval.updateTimeRemaining = UPDATE_TIME ∧
      locals.retval.pauseTimeRemaining = PAUSE_TIME ∧
      locals.retval.endTimeRemaining = END_TIME ∧ locals.retval.sessionTime = 0
  | _ => True

/-- `Gateway.php` keeps to the Controller. -/
def GatewayCall.Keeps (w : GwWorld) : GatewayCall → Prop
  | .startSession host_ip => truthy host_ip = true ∨ StartIdle w host_ip
  | .pauseSession host_ip => truthy host_ip = true ∨ PauseIdle w host_ip
  | .playSession host_ip => truthy host_ip = true ∨ PlayIdle w host_ip
  | .setTime ip qa => Harmless w ip qa
  | _ => True

/-- Two slots that return a status and run alike. -/
theorem same_of_eq {p q : Slot Int}
    (h : ∀ (o : Oracle Command) t, p.run Command.effect o w t = q.run Command.effect o w t) :
    SameRun (do return Answer.status (← p)) id (do return Reply.status (← q)) exportReply w := by
  intro o t
  rw [← same_status (p := q) o t]
  simp [h]

/-- What is seen of two runs that are the same is the same effect. -/
theorem SameRun.effect {α β γ : Type} {p : Slot α} {f : α → γ} {q : Slot β} {g : β → γ}
    (h : SameRun p f q g w) (o : Oracle Command) (t : List (Command × Int)) :
    (p.run Command.effect o w t).map Prod.snd = (q.run Command.effect o w t).map Prod.snd := by
  have hsnd := congrArg (Option.map Prod.snd) (h o t)
  simpa [Option.map_map, Function.comp_def] using hsnd

/-- What becomes of a result afterwards is no part of the effect. -/
theorem effect_ret {α β : Type} (p : Slot α) (f : α → β) (o : Oracle Command)
    (t : List (Command × Int)) :
    ((p.bind fun a => .ret (f a)).run Command.effect o w t).map Prod.snd =
      (p.run Command.effect o w t).map Prod.snd := by
  cases hp : p.run Command.effect o w t with
  | none => simp [hp]
  | some r => simp [hp]

theorem Request.faithful_setTime (hw : w.mem.WF) :
    (Request.setTime IP time).Faithful locals w ↔ Harmless w IP time := by
  constructor
  · intro h
    have heffect := h.effect (fun _ _ => 0) []
    apply harmless_of_effect hw
    simpa only [Request.serve, Request.meant, Call.slot, Code.bind_eq, Code.pure_eq, effect_ret]
      using heffect
  · intro h
    exact same_of_eq fun o t => h.run_eq hw o t

theorem GatewayCall.faithful_setTime (hw : w.mem.WF) :
    (GatewayCall.setTime IP time).Faithful locals w ↔ Harmless w IP time := by
  have hquota : SameRun ((GatewayCall.setTime IP time).serve locals) Outcome.fields
      (Call.setQuota IP time).slot replyFields w :=
    same_orFail rfl
  constructor
  · intro h
    have heffect : _ = _ :=
      (hquota.effect (fun _ _ => 0) []).symm.trans (h.effect (fun _ _ => 0) [])
    apply harmless_of_effect hw
    exact heffect
  · intro h o t
    rw [hquota o t]
    show _ = Option.map _ ((Call.setTime IP time).slot.run Command.effect o w t)
    simp only [Call.slot, Code.bind_eq, Code.run_bind, h.run_eq hw]

/-- `getDefaultSession`: the fields it leaves are the ones of a new session if they hold just
those values. -/
theorem Request.faithful_getDefaultSession :
    Request.getDefaultSession.Faithful locals w ↔ Request.getDefaultSession.Keeps locals w := by
  unfold Request.Faithful SameRun Request.Keeps
  simp [Request.serve, Request.meant, Call.slot, WifiGateway.getDefaultSession, exportReply,
    exportSession, Controller.initSession, stateNumber, locals.retval_IP, locals.retval_MAC]

/-- Every method of the adaptor, in every world. -/
theorem Request.faithful_iff (hw : w.mem.WF) (r : Request) :
    r.Faithful locals w ↔ r.Keeps locals w := by
  cases r with
  | setTime IP time => exact Request.faithful_setTime hw
  | getDefaultSession => exact Request.faithful_getDefaultSession
  | newSession | startSession | pauseSession | playSession | endSession | deleteSession
  | updateSession | setBandwidth | setQuota | setDefaultBandWidth | setDefaultQuota
  | setDefaultTime =>
    exact iff_of_true (same_status _) trivial
  | setDefaultSession s =>
    -- only the limits of the session are used
    exact iff_of_true (fun o t => by simp [Request.serve, Request.meant, Call.slot, exportReply,
      WifiGateway.setDefaultSession, limitsOf]) trivial
  | getSession IP =>
    apply iff_of_true _ trivial
    intro o t
    cases hp : (WifiGateway.getSession IP).run Command.effect o w t with
    | none => simp [Request.serve, Request.meant, Call.slot, hp]
    | some x => simp [Request.serve, Request.meant, Call.slot, hp, exportReply]
  | getIPs =>
    exact iff_of_true (fun o t => by simp [Request.serve, Request.meant, Call.slot,
      WifiGateway.getIPs, exportReply]) trivial

/-- A method that skips its call for an empty host. -/
theorem faithful_guarded {r : Request} {message : String} {p : Slot Int} {idle : Prop}
    (hserve : r.serve locals = do return .status (← p)) (hidle : Skips p w ↔ idle) (host : String) :
    SameRun (if truthy host then orThrow locals r message else return .ok) Outcome.fields
        (do return Reply.status (← p)) replyFields w ↔ truthy host = true ∨ idle := by
  cases hh : truthy host with
  | true => exact iff_of_true (same_orThrow hserve) (.inl rfl)
  | false =>
    simp only [Bool.false_eq_true, if_false, false_or]
    exact same_skip.trans hidle

/-- Every method of `Gateway.php`, in every world. -/
theorem GatewayCall.faithful_iff (hw : w.mem.WF) (g : GatewayCall) :
    g.Faithful locals w ↔ g.Keeps w := by
  cases g with
  | startSession host => exact faithful_guarded rfl (skips_startSession hw) host
  | pauseSession host => exact faithful_guarded rfl (skips_pauseSession hw) host
  | playSession host => exact faithful_guarded rfl (skips_playSession hw) host
  | setTime ip qa => exact GatewayCall.faithful_setTime hw
  | endSession | updateSession => exact iff_of_true (same_orThrow rfl) trivial
  | setBandwidth | setQuota => exact iff_of_true (same_orFail rfl) trivial
  | getSessionStats host =>
    apply iff_of_true _ trivial
    intro o t
    cases hp : (WifiGateway.getSession host).run Command.effect o w t with
    | none => simp [GatewayCall.serve, GatewayCall.meant, Request.serve, Call.slot, hp]
    | some x =>
      simp [GatewayCall.serve, GatewayCall.meant, Request.serve, Call.slot, hp, replyFields,
        Outcome.fields, statNames, SessionExport.marshal, exportSession, fieldsOf]
  | getIps =>
    exact iff_of_true (fun o t => by simp [GatewayCall.serve, GatewayCall.meant, Request.serve,
      Call.slot, WifiGateway.getIPs, Outcome.fields, replyFields]) trivial

/-- In every reachable world the two layers do what the Controller does, except where `Keeps`
says otherwise. -/
theorem fidelity (hw : Reachable w) (locals : Locals) :
    (∀ r : Request, r.Faithful locals w ↔ r.Keeps locals w) ∧
      ∀ g : GatewayCall, g.Faithful locals w ↔ g.Keeps w :=
  ⟨fun r => r.faithful_iff hw.wf, fun g => g.faithful_iff hw.wf⟩

/-- Local variables that hold nothing. -/
def emptyLocals : Locals := ⟨exportSession noSession, noSession, rfl, rfl⟩

/-- The world after `newSession` of 10.0.0.7. -/
def oneSession : GwWorld :=
  { GwWorld.init with mem := GwWorld.init.mem.insertNew "10.0.0.7" }

theorem reachable_oneSession : Reachable oneSession := by
  refine ⟨[(.newSession "10.0.0.7", fun _ _ => 0)],
    [⟨GwWorld.init, .newSession "10.0.0.7", [], oneSession⟩], ?_, rfl⟩
  simp [execute, Call.slot, newSession, Code.run_when, GwWorld.init, Controller.init, oneSession]

theorem fidelity_oneSession :
    (∀ r : Request, r.Faithful emptyLocals oneSession ↔ r.Keeps emptyLocals oneSession) ∧
      ∀ g : GatewayCall, g.Faithful emptyLocals oneSession ↔ g.Keeps oneSession :=
  fidelity reachable_oneSession emptyLocals

/-- `setTime("10.0.0.7", 5)` sets the quota of a new session instead of its time. -/
theorem time_not_set :
    ¬ ∀ w, Reachable w → ∀ locals : Locals,
      (∀ r : Request, r.Faithful locals w) ∧ ∀ g : GatewayCall, g.Faithful locals w := by
  intro h
  have hset := (h oneSession reachable_oneSession emptyLocals).1 (.setTime "10.0.0.7" 5)
  have hrec : oneSession.mem.record "10.0.0.7" =
      some (GwWorld.init.mem.initSession "10.0.0.7") := by
    have hinit : GwWorld.init.mem.WF := Controller.wf_init
    show (GwWorld.init.mem.insertNew "10.0.0.7").record "10.0.0.7" = _
    rw [Controller.record_insertNew hinit, if_pos rfl]
  have htime : (GwWorld.init.mem.initSession "10.0.0.7").timeRemaining = 5 :=
    ((Request.faithful_setTime reachable_oneSession.wf).mp hset _ hrec).1
  exact absurd htime (by decide)

end WifiGateway.Api
