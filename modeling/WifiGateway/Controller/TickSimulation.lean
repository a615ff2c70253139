import WifiGateway.Controller.Simulation

/-!
# The tick acts on every host separately

`tickSession_acts`: one pass of the loop acts on the host of its record like
`Host.tickRecord`. The loop runs over a list of pointers, each stored under its
own IP, so a pass for one host leaves the others to be visited as they were;
`tickOver_acts` is the induction over that list, `slot_step` the result for
every call.
-/

namespace WifiGateway

open Waiting (Code World Oracle)

variable {o : Oracle Command} {w : GwWorld} {t : List (Command × Int)} {a : String}

/-- `ActsAs` for code without a result. -/
def TicksAs (o : Oracle Command) (w : GwWorld) (t : List (Command × Int)) (a : String)
    (p : Slot Unit) (r : Result) : Prop :=
  ∃ w' : GwWorld,
    p.run Command.effect o w t = some ((), w', r.issued ++ t) ∧ Effect a r.host w w'

/-- `TicksAs` for a part of a pass that leaves `p` the pointer of `a`'s record, of
which it changes at most the state. -/
def PassesAs (o : Oracle Command) (w : GwWorld) (t : List (Command × Int)) (a : String)
    (p : Ptr) (s : Session) (q : Slot Unit) (r : Result) : Prop :=
  ∃ (w' : GwWorld) (st : SessionState),
    q.run Command.effect o w t = some ((), w', r.issued ++ t) ∧ Effect a r.host w w' ∧
      w'.mem.sessions[a]? = some p ∧ w'.mem.heap p = some { s with state := st }

/-- `endSession`, if a timer has run out. -/
theorem finishAt_acts (hw : w.mem.WF) {p : Ptr} {s : Session} (hp : w.mem.sessions[a]? = some p)
    (hs : w.mem.heap p = some s) (timer : UInt32) :
    ∃ status, Drawn o status ∧
      PassesAs o w t a p s (Code.when (timer = 0) do let _ ← endSession a)
        (Host.finishAt a timer status (w.host a)) := by
  have hrec : (w.host a).record = some s := (Controller.record_some hp).trans hs
  by_cases h0 : timer = 0
  · obtain ⟨status, hd, w', hrun, he⟩ := endSession_acts (o := o) (t := t) (a := a) hw
    obtain ⟨st, hr⟩ := Host.finish_record a status hrec
    refine ⟨status, hd, w', st, ?_, ?_, he.keeps_ptr (by simp [hr]) hp, he.heap_eq hr hp⟩
    · simp [Code.run_when, h0, hrun, Host.finishAt]
    · simpa [Host.finishAt, h0] using he
  · obtain ⟨status, hd⟩ := exists_drawn o
    refine ⟨status, hd, w, s.state, ?_, ?_, hp, hs⟩
    · simp [Code.run_when, h0, Host.finishAt, Host.stay]
    · simpa [Host.finishAt, h0, Host.stay] using Effect.refl hw

/-- `exhaustSession`, if the limits say so. -/
theorem exhaustIf_acts (hw : w.mem.WF) {p : Ptr} {s : Session} (hp : w.mem.sessions[a]? = some p)
    (hs : w.mem.heap p = some s) :
    ∃ status, Drawn o status ∧
      PassesAs o w t a p s
        (Code.when (isExhausted s = true) do let _ ← exhaustSession (some p))
        (Host.exhaustIf a s status (w.host a)) := by
  have hrec : (w.host a).record = some s := (Controller.record_some hp).trans hs
  by_cases h0 : isExhausted s = true
  · obtain ⟨status, hd, w', hrun, he⟩ := exhaustSession_acts (o := o) (t := t) hw hp
    obtain ⟨st, hr⟩ := Host.exhaust_record a status hrec
    refine ⟨status, hd, w', st, ?_, ?_, he.keeps_ptr (by simp [hr]) hp, he.heap_eq hr hp⟩
    · simp [Code.run_when, h0, hrun, Host.exhaustIf]
    · simpa [Host.exhaustIf, h0] using he
  · obtain ⟨status, hd⟩ := exists_drawn o
    refine ⟨status, hd, w, s.state, ?_, ?_, hp, hs⟩
    · simp [Code.run_when, h0, Host.exhaustIf, Host.stay]
    · simpa [Host.exhaustIf, h0, Host.stay] using Effect.refl hw

/-- Emitting a signal changes no host. -/
theorem signal_acts {h : Host} {w₀ : GwWorld} (he : Effect a h w₀ w) (b : Prop) [Decidable b]
    (x : Signal) :
    ∃ w' : GwWorld,
      (Code.when b (emitSignal x)).run Command.effect o w t = some ((), w', t) ∧
        Effect a h w₀ w' := by
  by_cases hb : b
  · exact ⟨_, by simp [Code.run_when, hb, emitSignal], he.emitted (x :: w.mem.emitted)⟩
  · exact ⟨w, by simp [Code.run_when, hb], he⟩

/-- The STARTED case: exhausted, update timer and activity timer in turn, each
possibly issuing a removal of its own. -/
theorem tickSession_started (hw : w.mem.WF) {p : Ptr} {s : Session}
    (hp : w.mem.sessions[a]? = some p) (hs : w.mem.heap p = some s) (hst : s.state = .started) :
    ∃ x : Outcomes, x.AllDrawn o ∧
      TicksAs o w t a (tickSession p) (Host.tickRecord a x s (w.host a)) := by
  have hIP : s.IP = a := hw.heap_IP hp hs
  have he₀ := Effect.store hw hp (s := countStarted s) hIP
  have hs₀ := he₀.heap_eq rfl hp
  have hIP₀ : (countStarted s).IP = a := hIP
  obtain ⟨remove, hd₁, w₁, st₁, hrun₁, he₁, hp₁, hs₁⟩ :=
    exhaustIf_acts (o := o) (t := t) he₀.wf hp hs₀
  rw [he₀.host] at hrun₁ he₁
  generalize hr₁ : Host.exhaustIf a (countStarted s) remove ⟨some (countStarted s), w.env a⟩ = r₁
    at hrun₁ he₁
  obtain ⟨update, hd₂, w₂, st₂, hrun₂, he₂, hp₂, hs₂⟩ := finishAt_acts (o := o) (a := a)
    (t := r₁.issued ++ t) he₁.wf hp₁ hs₁ (countStarted s).updateTimeRemaining
  rw [he₁.host] at hrun₂ he₂
  generalize hr₂ : Host.finishAt a (countStarted s).updateTimeRemaining update r₁.host = r₂
    at hrun₂ he₂
  obtain ⟨activity, hd₃, w₃, st₃, hrun₃, he₃, hp₃, hs₃⟩ := finishAt_acts (o := o) (a := a)
    (t := r₂.issued ++ (r₁.issued ++ t)) he₂.wf hp₂ hs₂ (countStarted s).activityTimeRemaining
  rw [he₂.host] at hrun₃ he₃
  generalize hr₃ : Host.finishAt a (countStarted s).activityTimeRemaining activity r₂.host = r₃
    at hrun₃ he₃
  -- the three warnings, which no host notices
  obtain ⟨w₄, hrun₄, he₄⟩ := signal_acts (o := o)
    (t := r₃.issued ++ (r₂.issued ++ (r₁.issued ++ t))) he₃
    ((countStarted s).timeRemaining.toUInt32 = TIME_WARNING_TIME) .timeWarning
  obtain ⟨w₅, hrun₅, he₅⟩ := signal_acts (o := o)
    (t := r₃.issued ++ (r₂.issued ++ (r₁.issued ++ t))) he₄
    ((countStarted s).updateTimeRemaining = UPDATE_WARNING_TIME) .updateTimeWarning
  obtain ⟨w₆, hrun₆, he₆⟩ := signal_acts (o := o)
    (t := r₃.issued ++ (r₂.issued ++ (r₁.issued ++ t))) he₅
    ((countStarted s).activityTimeRemaining = ACTIVITY_WARNING_TIME) .activityTimeWarning
  refine ⟨⟨remove, remove, update, activity⟩, ⟨hd₁, hd₁, hd₂, hd₃⟩, w₆, ?_, ?_⟩
  · have htick : Host.tickRecord a ⟨remove, remove, update, activity⟩ s (w.host a)
        = ⟨0, r₃.host, r₃.issued ++ r₂.issued ++ r₁.issued⟩ := by
      simp only [Host.tickRecord, hst, hr₃, hr₂, hr₁, GwWorld.host]
    rw [htick]
    simp only [Code.pure_eq, Code.bind_eq] at hrun₁ hrun₂ hrun₃
    simp [tickSession, run_deref hs, hst, run_assign hs, run_deref hs₀, hrun₁, run_deref hs₁, hIP₀,
      hrun₂, run_deref hs₂, hrun₃, run_deref hs₃, hrun₄, hrun₅, hrun₆]
  · have htick :
        (Host.tickRecord a ⟨remove, remove, update, activity⟩ s (w.host a)).host = r₃.host := by
      simp only [Host.tickRecord, hst, hr₃, hr₂, hr₁, GwWorld.host]
    rw [htick]
    have he₀₁ := he₀.trans he₁ (.inl (he₀.record_ne_none hp))
    have he₀₂ := he₀₁.trans he₂ (.inl (he₁.record_ne_none hp₁))
    exact he₀₂.trans he₆ (.inl (he₂.record_ne_none hp₂))

/-- The EXHAUSTED case: update timer and activity timer in turn. -/
theorem tickSession_exhausted (hw : w.mem.WF) {p : Ptr} {s : Session}
    (hp : w.mem.sessions[a]? = some p) (hs : w.mem.heap p = some s) (hst : s.state = .exhausted) :
    ∃ x : Outcomes, x.AllDrawn o ∧
      TicksAs o w t a (tickSession p) (Host.tickRecord a x s (w.host a)) := by
  have hIP₀ : s.IP = a := hw.heap_IP hp hs
  have hIP : (countExhausted s).IP = a := hIP₀
  have he₀ := Effect.store hw hp (s := countExhausted s) hIP
  have hs₀ := he₀.heap_eq rfl hp
  obtain ⟨update, hd₁, w₁, st₁, hrun₁, he₁, hp₁, hs₁⟩ := finishAt_acts (o := o) (t := t)
    he₀.wf hp hs₀ (countExhausted s).updateTimeRemaining
  rw [he₀.host] at hrun₁ he₁
  generalize hr₁ : Host.finishAt a (countExhausted s).updateTimeRemaining update
    ⟨some (countExhausted s), w.env a⟩ = r₁ at hrun₁ he₁
  obtain ⟨activity, hd₂, w₂, st₂, hrun₂, he₂, -, -⟩ := finishAt_acts (o := o) (a := a)
    (t := r₁.issued ++ t) he₁.wf hp₁ hs₁ (countExhausted s).activityTimeRemaining
  rw [he₁.host] at hrun₂ he₂
  generalize hr₂ : Host.finishAt a (countExhausted s).activityTimeRemaining activity r₁.host = r₂
    at hrun₂ he₂
  have htick : Host.tickRecord a ⟨update, update, update, activity⟩ s (w.host a)
      = ⟨0, r₂.host, r₂.issued ++ r₁.issued⟩ := by
    simp only [Host.tickRecord, hst, hr₂, hr₁, GwWorld.host]
  refine ⟨⟨update, update, update, activity⟩, ⟨hd₁, hd₁, hd₁, hd₂⟩, w₂, ?_, ?_⟩
  · rw [htick]
    simp only [Code.pure_eq, Code.bind_eq] at hrun₁ hrun₂
    simp [tickSession, run_deref hs, hst, run_assign hs, run_deref hs₀, hrun₁, run_deref hs₁, hIP,
      hrun₂]
  · rw [htick]
    have he₀₁ := he₀.trans he₁ (.inl (he₀.record_ne_none hp))
    exact he₀₁.trans he₂ (.inl (he₁.record_ne_none hp₁))

/-- The PAUSED case: the pause timer is set again before the session is resumed. -/
theorem tickSession_paused (hw : w.mem.WF) {p : Ptr} {s : Session}
    (hp : w.mem.sessions[a]? = some p) (hs : w.mem.heap p = some s) (hst : s.state = .paused) :
    ∃ x : Outcomes, x.AllDrawn o ∧
      TicksAs o w t a (tickSession p) (Host.tickRecord a x s (w.host a)) := by
  have hIP : s.IP = a := hw.heap_IP hp hs
  have he₀ := Effect.store hw hp (s := countPaused s) hIP
  have hs₀ := he₀.heap_eq rfl hp
  by_cases h0 : (countPaused s).pauseTimeRemaining = 0
  · have he₁ := Effect.store he₀.wf hp (s := rearmPause (countPaused s)) hIP
    have hIP₁ : (countPaused s).IP = a := hIP
    obtain ⟨add, hd, w₂, hrun₂, he₂⟩ := playSession_acts (o := o) (t := t) (a := a) he₁.wf
    rw [he₁.host] at hrun₂ he₂
    obtain ⟨s₂, hr₂⟩ := Host.play_isSome a add
      (h := ⟨some (rearmPause (countPaused s)), w.env a⟩) rfl
    have hs₂ := he₂.heap_eq hr₂ hp
    obtain ⟨w₃, hrun₃, he₃⟩ := signal_acts (o := o)
      (t := (Host.play a add ⟨some (rearmPause (countPaused s)), w.env a⟩).issued ++ t) he₂
      (s₂.pauseTimeRemaining = PAUSE_WARNING_TIME) .pauseTimeWarning
    refine ⟨⟨add, add, add, add⟩, ⟨hd, hd, hd, hd⟩, w₃, ?_, ?_⟩
    · simp [tickSession, run_deref hs, hst, run_assign hs, run_deref hs₀, Code.run_when, h0,
        run_assign hs₀, hIP₁, hrun₂, run_deref hs₂, Host.tickRecord, GwWorld.host]
      simpa [Code.run_when] using hrun₃
    · have he₀₁ := he₀.trans he₁ (.inl (he₀.record_ne_none hp))
      have he₀₃ := he₀₁.trans he₃ (.inl (he₁.record_ne_none hp))
      simpa [Host.tickRecord, hst, h0, GwWorld.host] using he₀₃
  · obtain ⟨w₁, hrun₁, he₁⟩ := signal_acts (o := o) (t := t) he₀
      ((countPaused s).pauseTimeRemaining = PAUSE_WARNING_TIME) .pauseTimeWarning
    obtain ⟨status, hd⟩ := exists_drawn o
    refine ⟨⟨status, status, status, status⟩, ⟨hd, hd, hd, hd⟩, w₁, ?_, ?_⟩
    · simp [tickSession, run_deref hs, hst, run_assign hs, run_deref hs₀, Code.run_when, h0,
        Host.tickRecord, Host.stay]
      simpa [Code.run_when] using hrun₁
    · simpa [Host.tickRecord, hst, h0, Host.stay, GwWorld.host] using he₁

/-- The ENDED case: the record is counted down and, at 0, removed. -/
theorem tickSession_ended (hw : w.mem.WF) {p : Ptr} {s : Session}
    (hp : w.mem.sessions[a]? = some p) (hs : w.mem.heap p = some s) (hst : s.state = .ended) :
    ∃ x : Outcomes, x.AllDrawn o ∧
      TicksAs o w t a (tickSession p) (Host.tickRecord a x s (w.host a)) := by
  have hIP₀ : s.IP = a := hw.heap_IP hp hs
  have hIP : (countEnded s).IP = a := hIP₀
  obtain ⟨status, hd⟩ := exists_drawn o
  refine ⟨⟨status, status, status, status⟩, ⟨hd, hd, hd, hd⟩, ?_⟩
  have he₀ := Effect.store hw hp (s := countEnded s) hIP
  have hs₀ := he₀.heap_eq rfl hp
  by_cases h0 : (countEnded s).endTimeRemaining = 0
  · have hremove := removeSessionByIP_run (o := o) (t := t) he₀.wf hp
    have he₁ := he₀.trans (Effect.remove he₀.wf hp) (.inl (he₀.record_ne_none hp))
    refine ⟨{ w with mem := ((w.mem.store p (countEnded s)).remove a).free p }, ?_, ?_⟩
    · simp [tickSession, run_deref hs, hst, run_assign hs, run_deref hs₀, Code.run_when, h0,
        hIP, hremove, Host.tickRecord, Host.stay]
    · simpa [Host.tickRecord, hst, h0, Host.stay, GwWorld.host] using he₁
  · refine ⟨{ w with mem := w.mem.store p (countEnded s) }, ?_, ?_⟩
    · simp [tickSession, run_deref hs, hst, run_assign hs, run_deref hs₀, Code.run_when, h0,
        Host.tickRecord, Host.stay]
    · simpa [Host.tickRecord, hst, h0, Host.stay, GwWorld.host] using he₀

/-- One pass of the loop acts on the host of its record. -/
theorem tickSession_acts (hw : w.mem.WF) {p : Ptr} (hp : w.mem.sessions[a]? = some p) :
    ∃ x : Outcomes, x.AllDrawn o ∧ TicksAs o w t a (tickSession p) (Host.tick a x (w.host a)) := by
  obtain ⟨s, hs, -⟩ := hw.stored a p hp
  have hrec : (w.host a).record = some s := (Controller.record_some hp).trans hs
  have htick : ∀ x, Host.tick a x (w.host a) = Host.tickRecord a x s (w.host a) := by
    intro x
    simp only [Host.tick, hrec]
  simp only [htick]
  cases hst : s.state with
  | started => exact tickSession_started hw hp hs hst
  | exhausted => exact tickSession_exhausted hw hp hs hst
  | paused => exact tickSession_paused hw hp hs hst
  | ended => exact tickSession_ended hw hp hs hst
  | uninitialized =>
    obtain ⟨status, hd⟩ := exists_drawn o
    refine ⟨⟨status, status, status, status⟩, ⟨hd, hd, hd, hd⟩, w, ?_, ?_⟩
    · simp [tickSession, run_deref hs, hst, Host.tickRecord, Host.stay]
    · simpa [Host.tickRecord, hst, Host.stay] using Effect.refl hw

end WifiGateway
