import WifiGateway.Controller.Effect

/-!
# Slots act on hosts like the host functions

The simulation between the two levels, for slots executed one at a time. For
each slot on IP `a` there is one lemma: from any well-formed world the slot
runs to its end without a memory error, returns and issues what the host
function of `Host.lean` says, and has the host function's `Effect` on `a`. The
statuses that the host function uses are ones the oracle gave (`Drawn`), so
that the same lemmas serve for any choice of outcomes, and in particular for
the choice "every command is refused".

The main result is `slot_step`: a call acts on every host `a` as `Host.step a`.
-/

namespace WifiGateway

open Waiting (Code World Oracle)

variable {o : Oracle Command} {w : GwWorld} {t : List (Command × Int)} {a : String}

/-- A status the oracle can give. -/
def Drawn (o : Oracle Command) (status : Int) : Prop := ∃ t c, o t c = status

/-- Outcomes the oracle can give. -/
structure Outcomes.AllDrawn (o : Oracle Command) (x : Outcomes) : Prop where
  add : Drawn o x.add
  remove : Drawn o x.remove
  removeUpdate : Drawn o x.removeUpdate
  removeActivity : Drawn o x.removeActivity

theorem drawn (o : Oracle Command) (t : List (Command × Int)) (c : Command) :
    Drawn o (o t c) := ⟨t, c, rfl⟩

/-- The execution of `p` from `w`, with the commands issued so far in `t`,
returns `r.status`, issues `r.issued` and turns host `a` into `r.host`. -/
def ActsAs (o : Oracle Command) (w : GwWorld) (t : List (Command × Int)) (a : String)
    (p : Slot Int) (r : Result) : Prop :=
  ∃ w' : GwWorld,
    p.run Command.effect o w t = some (r.status, w', r.issued ++ t) ∧ Effect a r.host w w'

/-! ## Records behind pointers -/

theorem run_deref {p : Ptr} {s : Session} (hp : w.mem.heap p = some s) :
    (deref p).run Command.effect o w t = some (s, w, t) := by
  simp [deref, hp]

theorem run_assign {p : Ptr} {s : Session} (hp : w.mem.heap p = some s) (f : Session → Session) :
    (assign p f).run Command.effect o w t
      = some ((), { w with mem := w.mem.store p (f s) }, t) := by
  simp [assign, run_deref hp]

theorem run_delete {p : Ptr} {s : Session} (hp : w.mem.heap p = some s) :
    (delete p).run Command.effect o w t = some ((), { w with mem := w.mem.free p }, t) := by
  simp [delete, run_deref hp]

theorem run_runCommandExec (c : Command) (held : Int → List Ptr) :
    (runCommandExec c held).run Command.effect o w t
      = some (o t c, { w with env := c.effect (o t c) w.env }, (c, o t c) :: t) := rfl

/-- The pointer of a record. -/
theorem exists_ptr {s : Session} (hr : w.mem.record a = some s) :
    ∃ p, w.mem.sessions[a]? = some p ∧ w.mem.heap p = some s := by
  cases hp : w.mem.sessions[a]? with
  | none => rw [Controller.record_none hp] at hr; exact absurd hr (by simp)
  | some p => exact ⟨p, rfl, Controller.record_some hp ▸ hr⟩

theorem acts_stay (hw : w.mem.WF) {p : Slot Int} {status : Int}
    (h : p.run Command.effect o w t = some (status, w, t)) :
    ActsAs o w t a p (Host.stay status (w.host a)) :=
  ⟨w, h, Effect.refl hw⟩

/-- Some status exists for the host functions that end up not using theirs. -/
theorem acts_unused {p : Slot Int} {r : Result} (h : ActsAs o w t a p r) :
    ∃ status, Drawn o status ∧ ActsAs o w t a p r :=
  ⟨o [] .cleanUp, drawn .., h⟩

/-- A slot that looks the record up acts like a host function that does; `D`
is what is known of the outcomes `x` that the host function uses. -/
theorem withSession_acts {τ : Type} {D : τ → Prop} (hD : ∃ x, D x) (hw : w.mem.WF)
    {f : Ptr → Slot Int} {F : τ → Session → Result}
    (h : ∀ p s, w.mem.sessions[a]? = some p → w.mem.heap p = some s →
      ∃ x, D x ∧ ActsAs o w t a (f p) (F x s)) :
    ∃ x, D x ∧ ActsAs o w t a (withSession a f) ((w.host a).withRecord (F x)) := by
  cases hp : w.mem.sessions[a]? with
  | none =>
    obtain ⟨x, hx⟩ := hD
    refine ⟨x, hx, ?_⟩
    rw [Host.withRecord_none (Controller.record_none hp)]
    exact acts_stay hw (by simp [withSession, hp])
  | some p =>
    obtain ⟨s, hs, -⟩ := hw.stored a p hp
    obtain ⟨x, hx, w', hrun, he⟩ := h p s hp hs
    refine ⟨x, hx, ?_⟩
    rw [Host.withRecord_some ((Controller.record_some hp).trans hs)]
    exact ⟨w', by simpa [withSession, hp] using hrun, he⟩

theorem exists_drawn (o : Oracle Command) : ∃ status, Drawn o status := ⟨_, drawn o [] .cleanUp⟩

/-! ## The session slots -/

/-- `gw_remove_host` and the move to `st` that follows it. -/
theorem revokeAccess_acts (hw : w.mem.WF) {p : Ptr} {s : Session}
    (hp : w.mem.sessions[a]? = some p) (hs : w.mem.heap p = some s) (st : SessionState) :
    ∃ status, Drawn o status ∧
      ActsAs o w t a (revokeAccess a p st) (Host.revoke a st status s (w.host a)) := by
  refine ⟨o t (.removeHost a), drawn .., ?_⟩
  have hIP : s.IP = a := hw.heap_IP hp hs
  unfold revokeAccess Host.revoke
  by_cases h0 : o t (.removeHost a) = 0
  · rw [if_pos h0]
    refine ⟨_, ?_, Effect.both hw hp (s := { s with state := st }) hIP none⟩
    simp [run_runCommandExec, Code.run_when, h0, Command.effect, run_assign (s := s), hs]
  · rw [if_neg h0]
    refine ⟨w, ?_, Effect.refl hw⟩
    simp [run_runCommandExec, Code.run_when, h0, Command.effect]

theorem pauseSession_acts (hw : w.mem.WF) :
    ∃ status, Drawn o status ∧
      ActsAs o w t a (pauseSession a) (Host.pause a status (w.host a)) := by
  apply withSession_acts (exists_drawn o) hw
  intro p s hp hs
  by_cases h₁ : s.state = .paused
  · simp only [h₁, if_true]
    exact acts_unused (acts_stay hw (by simp [run_deref hs, h₁]))
  · by_cases h₂ : s.state = .started
    · obtain ⟨status, hd, w', hrun, he⟩ := revokeAccess_acts (o := o) (t := t) hw hp hs .paused
      refine ⟨status, hd, w', ?_, ?_⟩
      · simpa [run_deref hs, h₂] using hrun
      · simpa [h₂] using he
    · simp only [h₁, h₂, if_false]
      exact acts_unused (acts_stay hw (by simp [run_deref hs, h₁, h₂]))

theorem endSession_acts (hw : w.mem.WF) :
    ∃ status, Drawn o status ∧
      ActsAs o w t a (endSession a) (Host.finish a status (w.host a)) := by
  apply withSession_acts (exists_drawn o) hw
  intro p s hp hs
  by_cases h₁ : s.state = .ended
  · simp only [h₁, if_true]
    exact acts_unused (acts_stay hw (by simp [run_deref hs, h₁]))
  · obtain ⟨status, hd, w', hrun, he⟩ := revokeAccess_acts (o := o) (t := t) hw hp hs .ended
    refine ⟨status, hd, w', ?_, ?_⟩
    · simpa [run_deref hs, h₁] using hrun
    · simpa [h₁] using he

theorem exhaustSession_acts (hw : w.mem.WF) {p : Ptr} (hp : w.mem.sessions[a]? = some p) :
    ∃ status, Drawn o status ∧
      ActsAs o w t a (exhaustSession (some p)) (Host.exhaust a status (w.host a)) := by
  obtain ⟨s, hs, hIP⟩ := hw.stored a p hp
  have hrec : (w.host a).record = some s := (Controller.record_some hp).trans hs
  unfold Host.exhaust
  simp only [Host.withRecord, hrec]
  by_cases h₁ : s.state = .exhausted
  · simp only [h₁, if_true]
    exact acts_unused (acts_stay hw (by simp [exhaustSession, run_deref hs, h₁]))
  · obtain ⟨status, hd, w', hrun, he⟩ := revokeAccess_acts (o := o) (t := t) hw hp hs .exhausted
    refine ⟨status, hd, w', ?_, ?_⟩
    · simpa [exhaustSession, run_deref hs, h₁, hIP] using hrun
    · simpa [h₁] using he

theorem newSession_acts (hw : w.mem.WF) :
    ActsAs o w t a (newSession a)
      (Host.stay 0 (Host.create (w.mem.initSession a) (w.host a))) := by
  cases hp : w.mem.sessions[a]? with
  | none =>
    have hrec : (w.host a).record = none := Controller.record_none hp
    have hc : w.mem.sessions.contains a = false := by rw [QMap.contains_eq, hp]; rfl
    refine ⟨{ w with mem := w.mem.insertNew a },
      by simp [newSession, Code.run_when, hc, Host.stay], ?_⟩
    simp only [Host.stay, Host.create, hrec, Option.getD_none]
    exact Effect.insertNew hw hp
  | some p =>
    obtain ⟨s, hs, -⟩ := hw.stored a p hp
    have hrec : (w.host a).record = some s := (Controller.record_some hp).trans hs
    have hc : w.mem.sessions.contains a = true := by rw [QMap.contains_eq, hp]; rfl
    refine ⟨w, by simp [newSession, Code.run_when, hc, Host.stay], ?_⟩
    simp only [Host.stay, Host.create, hrec, Option.getD_some]
    rw [← hrec]
    exact Effect.refl hw

/-- `gw_add_host` and the STARTED state that follows it. -/
theorem grantAccess_acts (hw : w.mem.WF) {p : Ptr} {s : Session}
    (hp : w.mem.sessions[a]? = some p) (hs : w.mem.heap p = some s) :
    ∃ status, Drawn o status ∧
      ActsAs o w t a (grantAccess a p s) (Host.letIn a status s (w.host a)) := by
  refine ⟨o t (.addHost a s.bandwidth s.quotaRemaining), drawn .., ?_⟩
  have hIP : s.IP = a := hw.heap_IP hp hs
  unfold grantAccess Host.letIn
  by_cases h0 : o t (.addHost a s.bandwidth s.quotaRemaining) = 0
  · rw [if_pos h0]
    refine ⟨_, ?_, Effect.both hw hp (s := Host.startedRecord s) hIP _⟩
    simp [run_runCommandExec, Code.run_when, h0, Command.effect, run_assign (s := s), hs,
      Host.startedRecord, GwWorld.host]
  · rw [if_neg h0]
    have hrec : (w.host a).record = some s := (Controller.record_some hp).trans hs
    refine ⟨w, ?_, ?_⟩
    · simp [run_runCommandExec, Code.run_when, h0, Command.effect]
    · rw [← hrec]
      exact Effect.refl hw

theorem newSession_run_of_mem {p : Ptr} (hp : w.mem.sessions[a]? = some p) :
    (newSession a).run Command.effect o w t = some (0, w, t) := by
  have hc : w.mem.sessions.contains a = true := by rw [QMap.contains_eq, hp]; rfl
  simp [newSession, Code.run_when, hc]

/-- `startSession` once the record exists. -/
theorem startRecord_acts (hw : w.mem.WF) {p : Ptr} {s : Session}
    (hp : w.mem.sessions[a]? = some p) (hs : w.mem.heap p = some s) :
    ∃ status, Drawn o status ∧
      ActsAs o w t a (startSession a) (Host.startRecord a status s (w.host a)) := by
  have hrec : (w.host a).record = some s := (Controller.record_some hp).trans hs
  have hsame : (⟨some s, (w.host a).rule⟩ : Host) = w.host a := by rw [← hrec]
  have hnew := newSession_run_of_mem (o := o) (t := t) hp
  unfold Host.startRecord
  rw [hsame]
  by_cases h₁ : s.state = .started
  · simp only [h₁, if_true]
    exact acts_unused (acts_stay hw
      (by simp [startSession, hnew, withSession, hp, run_deref hs, h₁]))
  · by_cases h₂ : isExhausted s = false
    · obtain ⟨status, hd, w', hrun, he⟩ := grantAccess_acts (o := o) (t := t) hw hp hs
      simp only [h₁, h₂, if_true, if_false]
      refine ⟨status, hd, w', ?_, he⟩
      simpa [startSession, hnew, withSession, hp, run_deref hs, h₁, h₂] using hrun
    · simp only [h₁, h₂, if_false]
      exact acts_unused (acts_stay hw
        (by simp [startSession, hnew, withSession, hp, run_deref hs, h₁, h₂]))

theorem startSession_acts (hw : w.mem.WF) :
    ∃ status, Drawn o status ∧
      ActsAs o w t a (startSession a)
        (Host.start a (w.mem.initSession a) status (w.host a)) := by
  obtain ⟨w₁, hrun₁, he₁⟩ := newSession_acts (o := o) (t := t) (a := a) hw
  have hrun₁' : (newSession a).run Command.effect o w t = some (0, w₁, t) := hrun₁
  have hhost : w₁.host a = Host.create (w.mem.initSession a) (w.host a) := he₁.host
  obtain ⟨p, hp, hs⟩ := exists_ptr (congrArg Host.record hhost)
  -- from `w₁` on the slot runs as if the record had always been there
  have hsame : (startSession a).run Command.effect o w t
      = (startSession a).run Command.effect o w₁ t := by
    simp [startSession, hrun₁', newSession_run_of_mem hp]
  obtain ⟨status, hd, w', hrun, he⟩ := startRecord_acts (o := o) (t := t) he₁.wf hp hs
  have hstart : Host.startRecord a status ((w.host a).record.getD (w.mem.initSession a)) (w₁.host a)
      = Host.start a (w.mem.initSession a) status (w.host a) := by
    rw [hhost]
    rfl
  rw [hstart] at hrun he
  exact ⟨status, hd, w', hsame.trans hrun, he₁.trans he (.inl (by simp [Host.stay, Host.create]))⟩

theorem playSession_acts (hw : w.mem.WF) :
    ∃ status, Drawn o status ∧
      ActsAs o w t a (playSession a) (Host.play a status (w.host a)) := by
  apply withSession_acts (exists_drawn o) hw
  intro p s hp hs
  by_cases h₁ : s.state = .started
  · simp only [h₁, if_true]
    exact acts_unused (acts_stay hw (by simp [run_deref hs, h₁]))
  · by_cases h₂ : s.state = .paused
    · obtain ⟨status, hd, w', hrun, he⟩ := startRecord_acts (o := o) (t := t) hw hp hs
      refine ⟨status, hd, w', ?_, ?_⟩
      · simpa [run_deref hs, h₂] using hrun
      · simpa [h₂] using he
    · simp only [h₁, h₂, if_false]
      exact acts_unused (acts_stay hw (by simp [run_deref hs, h₁, h₂]))

/-! ## Removal -/

theorem removeSession_run (hw : w.mem.WF) {p : Ptr} (hp : w.mem.sessions[a]? = some p)
    (ha : a ≠ "") :
    (removeSession p).run Command.effect o w t
      = some ((), { w with mem := (w.mem.remove a).free p }, t) := by
  obtain ⟨s, hs, -⟩ := hw.stored a p hp
  have hkey : w.mem.sessions.key p = a := QMap.key_eq hp fun b hb => hw.key_unique hp hb
  have hs' : (w.mem.remove a).heap p = some s := hs
  simp [removeSession, Code.run_when, hkey, ha, run_delete (s := s), hs']

theorem removeSession_run_empty (hw : w.mem.WF) {p : Ptr} (hp : w.mem.sessions[""]? = some p) :
    (removeSession p).run Command.effect o w t = some ((), w, t) := by
  have hkey : w.mem.sessions.key p = "" := QMap.key_eq hp fun b hb => hw.key_unique hp hb
  simp [removeSession, Code.run_when, hkey]

theorem removeSessionByIP_run (hw : w.mem.WF) {p : Ptr} (hp : w.mem.sessions[a]? = some p) :
    (removeSessionByIP a).run Command.effect o w t
      = some ((), { w with mem := (w.mem.remove a).free p }, t) := by
  obtain ⟨s, hs, -⟩ := hw.stored a p hp
  have hs' : (w.mem.remove a).heap p = some s := hs
  simp [removeSessionByIP, hp, run_delete (s := s), hs']

theorem deleteSession_acts (hw : w.mem.WF) :
    ∃ status, Drawn o status ∧
      ActsAs o w t a (deleteSession a) (Host.discard a status (w.host a)) := by
  obtain ⟨status, hd, w₁, hrun₁, he₁⟩ := endSession_acts (o := o) (t := t) (a := a) hw
  refine ⟨status, hd, ?_⟩
  cases hp : w.mem.sessions[a]? with
  | none =>
    have hrec : (w.host a).record = none := Controller.record_none hp
    have hstay : Host.discard a status (w.host a) = Host.stay (-1) (w.host a) := by
      simp [Host.discard, Host.finish, Host.withRecord, hrec, Host.stay]
    rw [hstay]
    exact acts_stay hw (by simp [deleteSession, withSession, hp])
  | some p =>
    obtain ⟨s, hs, -⟩ := hw.stored a p hp
    obtain ⟨st, hrec⟩ := Host.finish_record a status (h := w.host a)
      ((Controller.record_some hp).trans hs)
    -- the pointer found before `endSession` is still the one of the IP after it
    have hp₁ := he₁.keeps_ptr (by simp [hrec]) hp
    unfold Host.discard
    by_cases h0 : (Host.finish a status (w.host a)).status = 0
    · by_cases ha : a = ""
      · -- `sessions.key` cannot tell this key from none, and the record stays
        subst ha
        refine ⟨w₁, ?_, ?_⟩
        · simp [deleteSession, withSession, hp, hrun₁, Code.run_when, h0,
            removeSession_run_empty he₁.wf hp₁]
        · simpa using he₁
      · refine ⟨{ w₁ with mem := (w₁.mem.remove a).free p }, ?_, ?_⟩
        · simp [deleteSession, withSession, hp, hrun₁, Code.run_when, h0,
            removeSession_run he₁.wf hp₁ ha]
        · simp only [h0, ha, ne_eq, not_false_eq_true, and_self, if_true]
          have hrem := Effect.remove he₁.wf hp₁
          have hrule : w₁.env a = (Host.finish a status (w.host a)).host.rule :=
            congrArg Host.rule he₁.host
          rw [hrule] at hrem
          exact he₁.trans hrem (.inl (by simp [hrec]))
    · refine ⟨w₁, ?_, ?_⟩
      · simp [deleteSession, withSession, hp, hrun₁, Code.run_when, h0]
      · simpa [h0] using he₁

/-! ## Slots that change fields -/

theorem amendSession_acts (hw : w.mem.WF) {f : Session → Session} (hf : ∀ s, (f s).IP = s.IP) :
    ActsAs o w t a (amendSession a f) (Host.amend f (w.host a)) := by
  obtain ⟨-, -, h⟩ := withSession_acts (o := o) (t := t) (a := a) (exists_drawn o) hw
    (f := fun session => do assign session f; pure 0)
    (F := fun _ s => Host.stay 0 { w.host a with record := some (f s) }) fun p s hp hs =>
      acts_unused ⟨_, by simp [run_assign hs, Host.stay],
        Effect.store hw hp ((hf s).trans (hw.heap_IP hp hs))⟩
  exact h

theorem setLimit_acts (hw : w.mem.WF) {f : Session → Session} (hf : ∀ s, (f s).IP = s.IP) :
    ∃ x : Outcomes, x.AllDrawn o ∧
      ActsAs o w t a (setLimit a f) (Host.relimit a f x (w.host a)) := by
  obtain ⟨status, hst⟩ := exists_drawn o
  refine withSession_acts ⟨⟨_, _, _, _⟩, hst, hst, hst, hst⟩ hw fun p s hp hs => ?_
  have he₀ := Effect.store hw hp ((hf s).trans (hw.heap_IP hp hs))
  obtain ⟨remove, hd₁, w₁, hrun₁, he₁⟩ := pauseSession_acts (o := o) (t := t) (a := a) he₀.wf
  rw [he₀.host] at hrun₁ he₁
  obtain ⟨add, hd₂, w₂, hrun₂, he₂⟩ := playSession_acts (o := o) (a := a)
    (t := (Host.pause a remove ⟨some (f s), w.env a⟩).issued ++ t) he₁.wf
  rw [he₁.host] at hrun₂ he₂
  obtain ⟨st, hpause⟩ :=
    Host.pause_record a remove (h := ⟨some (f s), w.env a⟩) rfl
  refine ⟨⟨add, remove, status, status⟩, ⟨hd₂, hd₁, hst, hst⟩, w₂, ?_, ?_⟩
  · simp [run_assign hs, hrun₁, hrun₂, GwWorld.host]
  · exact (he₀.trans he₁ (.inl (by simp))).trans he₂ (.inl (by simp [hpause]))

end WifiGateway
