import WifiGateway.Controller.Lockstep

/-!
# Return codes

What the five session slots promise by the value that they return. `0` means that the
record is in the state the slot is named after and that the firewall agrees; any other
value means that nothing has happened, but for the record that `startSession` may have
created.

`Host.Answers` says this of one host; there is one lemma for each operation, and it
is here that the slots which call each other are put together: `playSession` answers as
`startSession` does, `deleteSession` as `endSession`. `return_codes` carries it to the
slots in every reachable world.
-/

namespace WifiGateway

open Waiting (Code Oracle)

namespace Host

variable {a : String} {s s₀ : Session} {h : Host} {r : Result} {status : Int}
  {st : Option SessionState}

/-- The host has a record in this state, or none, and is allowed if and only if it is
STARTED. -/
structure At (st : Option SessionState) (h : Host) : Prop where
  state : h.record.map Session.state = st
  rule : h.rule.isSome = true ↔ st = some .started

/-- `r` is an answer to a call on the host `h`: 0 with the host in the state `st`, or
anything else with the host as it was. -/
structure Answers (st : Option SessionState) (h : Host) (r : Result) : Prop where
  ok : r.status = 0 → At st r.host
  failed : r.status ≠ 0 → r.host = h

/-- A host in lockstep is where its record says. -/
theorem Lockstep.at (hi : Lockstep h) (hr : h.record = some s) : At (some s.state) h := by
  refine ⟨by rw [hr]; rfl, hi.allowed.trans ?_⟩
  rw [inState, hr]
  rfl

theorem answers_stay (hat : At st h) : Answers st h (stay 0 h) where
  ok _ := hat
  failed h0 := absurd rfl h0

theorem answers_fail {i : Int} (h0 : i ≠ 0) : Answers st h (stay i h) where
  ok hs := absurd hs h0
  failed _ := rfl

theorem revoke_answers {st : SessionState} (hst : st ≠ .started) :
    Answers (some st) h (revoke a st status s h) := by
  unfold revoke
  refine ⟨fun h0 => ?_, fun h0 => ?_⟩
  · dsimp only at h0 ⊢
    rw [if_pos h0]
    exact ⟨rfl, by simp [hst]⟩
  · dsimp only at h0 ⊢
    rw [if_neg h0]

/-- An operation that fails without a record. -/
theorem withRecord_answers {f : Session → Result}
    (hf : ∀ s, h.record = some s → Answers st h (f s)) : Answers st h (h.withRecord f) := by
  cases hr : h.record with
  | none =>
    rw [withRecord_none hr]
    exact answers_fail (by decide)
  | some s =>
    rw [withRecord_some hr]
    exact hf s hr

theorem pause_answers (hi : Lockstep h) : Answers (some .paused) h (pause a status h) := by
  apply withRecord_answers
  intro s hr
  split
  · next hs =>
    rw [← hs]
    exact answers_stay (hi.at hr)
  · split
    · exact revoke_answers (by decide)
    · exact answers_fail (by decide)

theorem finish_answers (hi : Lockstep h) : Answers (some .ended) h (finish a status h) := by
  apply withRecord_answers
  intro s hr
  split
  · next hs =>
    rw [← hs]
    exact answers_stay (hi.at hr)
  · exact revoke_answers (by decide)

theorem startRecord_answers (hi : Lockstep h) (hr : h.record = some s) :
    Answers (some .started) h (startRecord a status s h) := by
  have hsame : { h with record := some s } = h := by rw [← hr]
  unfold startRecord
  rw [hsame]
  split
  · next hs =>
    rw [← hs]
    exact answers_stay (hi.at hr)
  · split
    · unfold letIn
      rw [hsame]
      refine ⟨fun h0 => ?_, fun h0 => ?_⟩
      · dsimp only at h0 ⊢
        rw [if_pos h0]
        exact ⟨rfl, by simp⟩
      · dsimp only at h0 ⊢
        rw [if_neg h0]
    · exact answers_fail (by decide)

theorem play_answers (hi : Lockstep h) : Answers (some .started) h (play a status h) := by
  apply withRecord_answers
  intro s hr
  split
  · next hs =>
    rw [← hs]
    exact answers_stay (hi.at hr)
  · split
    · exact startRecord_answers hi hr
    · exact answers_fail (by decide)

/-- A host whose record is gone, after it was ended. -/
theorem discard_answers (hi : Lockstep h) (ha : a ≠ "") : Answers none h (discard a status h) := by
  have hfinish : Answers (some .ended) h (finish a status h) := finish_answers hi
  unfold discard
  refine ⟨fun h0 => ?_, fun h0 => ?_⟩
  · dsimp only at h0 ⊢
    rw [if_pos ⟨h0, ha⟩]
    have hrule := (hfinish.ok h0).rule
    exact ⟨rfl, by simpa using hrule⟩
  · dsimp only at h0 ⊢
    rw [if_neg (fun hand => h0 hand.1)]
    exact hfinish.failed h0

end Host

/-- The slots that promise something: the IP, and the state that 0 stands for, `none`
being no record. -/
def Call.promises : Call → Option (String × Option SessionState)
  | .startSession IP | .playSession IP => some (IP, some .started)
  | .pauseSession IP => some (IP, some .paused)
  | .endSession IP => some (IP, some .ended)
  | .deleteSession IP => some (IP, none)
  | .newSession _ | .updateSession _ | .setBandwidth _ _ | .setQuota _ _ | .setTime _ _
  | .setDefaultBandWidth _ | .setDefaultQuota _ | .setDefaultTime _ | .setDefaultSession _
  | .getDefaultSession | .getSession _ | .getAllSessions | .getIPs | .updateQuotaRemaining _
  | .tick => none

/-- What is there of the host before the call has done anything that can fail. -/
def Call.prepare (s₀ : Session) (h : Host) : Call → Host
  | .startSession _ => h.create s₀
  | _ => h

namespace Host

variable {a : String} {s s₀ : Session} {h : Host} {st : Option SessionState} {o : Outcomes}
  {i : Call}

/-- Each of the five slots answers as it promises. -/
theorem serve_answers (hi : Lockstep h) (hcreate : Lockstep (h.create s₀)) (ha : a ≠ "")
    (hp : i.promises = some (a, st)) :
    i.names = some a ∧ Answers st (i.prepare s₀ h) (serve a s₀ o h i) ∧
      reply a s₀ o h i = .status (serve a s₀ o h i).status := by
  cases i with
  | startSession =>
    obtain ⟨rfl, rfl⟩ := Prod.mk.inj (Option.some.inj hp)
    exact ⟨rfl, startRecord_answers hcreate rfl, rfl⟩
  | playSession =>
    obtain ⟨rfl, rfl⟩ := Prod.mk.inj (Option.some.inj hp)
    exact ⟨rfl, play_answers hi, rfl⟩
  | pauseSession =>
    obtain ⟨rfl, rfl⟩ := Prod.mk.inj (Option.some.inj hp)
    exact ⟨rfl, pause_answers hi, rfl⟩
  | endSession =>
    obtain ⟨rfl, rfl⟩ := Prod.mk.inj (Option.some.inj hp)
    exact ⟨rfl, finish_answers hi, rfl⟩
  | deleteSession =>
    obtain ⟨rfl, rfl⟩ := Prod.mk.inj (Option.some.inj hp)
    exact ⟨rfl, discard_answers hi ha, rfl⟩
  | newSession | updateSession | setBandwidth | setQuota | setTime | setDefaultBandWidth
  | setDefaultQuota | setDefaultTime | setDefaultSession | getDefaultSession | getSession
  | getAllSessions | getIPs | updateQuotaRemaining | tick =>
    exact absurd hp (by simp [Call.promises])

/-- What is prepared is the host itself, or the host with a record that it lacked. -/
theorem prepare_cases (hp : i.promises = some (a, st)) :
    (i.prepare s₀ h).rule = h.rule ∧
      ((i.prepare s₀ h).record = h.record ∨
        i = .startSession a ∧ (i.prepare s₀ h).record = some (h.record.getD s₀)) := by
  cases i with
  | startSession =>
    obtain ⟨rfl, -⟩ := Prod.mk.inj (Option.some.inj hp)
    exact ⟨rfl, .inr ⟨rfl, rfl⟩⟩
  | newSession | updateSession | setBandwidth | setQuota | setTime | setDefaultBandWidth
  | setDefaultQuota | setDefaultTime | setDefaultSession | getDefaultSession | getSession
  | getAllSessions | getIPs | updateQuotaRemaining | tick | playSession | pauseSession
  | endSession | deleteSession => exact ⟨rfl, .inl rfl⟩

theorem prepare_keeps (hp : i.promises = some (a, st)) (hr : h.record = some s) :
    (i.prepare s₀ h).record = some s := by
  obtain ⟨-, hsame | ⟨-, hnew⟩⟩ := @prepare_cases a s₀ h st i hp
  · exact hsame.trans hr
  · rw [hnew, hr, Option.getD_some]

/-- A record is prepared by `startSession` only, from the template. -/
theorem prepare_adds (hp : i.promises = some (a, st)) (hr : h.record = none)
    (hs : (i.prepare s₀ h).record = some s) : i = .startSession a ∧ s = s₀ := by
  obtain ⟨-, hsame | ⟨hi, hnew⟩⟩ := @prepare_cases a s₀ h st i hp
  · exact absurd ((hsame.trans hr).symm.trans hs) (by simp)
  · rw [hnew, hr, Option.getD_none, Option.some.injEq] at hs
    exact ⟨hi, hs.symm⟩

end Host

/-- In every reachable world and whatever the commands return: the slot returns 0 with the
record and the firewall as it promises, or another value with everything as it was, but
for an UNINITIALIZED record that `startSession` may have added for an unknown IP. -/
theorem return_codes {w : GwWorld} (hw : Reachable w) {i : Call} {a : String}
    {st : Option SessionState} (hp : i.promises = some (a, st)) (ha : a ≠ "") (o : Oracle Command) :
    ∃ (status : Int) (w' : GwWorld) (issued : List (Command × Int)),
      i.slot.run Command.effect o w [] = some (.status status, w', issued) ∧
      (status = 0 → (w'.mem.record a).map Session.state = st ∧
        ((w'.env a).isSome = true ↔ st = some .started)) ∧
      (status ≠ 0 → w'.env = w.env ∧
        (∀ b s, w.mem.record b = some s → w'.mem.record b = some s) ∧
        ∀ b s, w.mem.record b = none → w'.mem.record b = some s →
          b = a ∧ i = .startSession a ∧ s.state = .uninitialized) := by
  have hcreate : ((w.host a).create (w.mem.initSession a)).Lockstep :=
    (w.mem.lockstep_kept a).create (hw.lockstep a)
  have hanswers := fun x =>
    Host.serve_answers (o := x) (hw.lockstep a) hcreate ha hp
  obtain ⟨x, -, w', hrun, he⟩ := slot_serves (o := o) (t := []) hw.wf i (hanswers ⟨0, 0, 0, 0⟩).1
  obtain ⟨-, ⟨hok, hfailed⟩, hreply⟩ := hanswers x
  rw [hreply] at hrun
  refine ⟨_, w', _, hrun, fun h0 => ?_, fun h0 => ?_⟩
  · have hat := hok h0
    rw [← he.host] at hat
    exact ⟨hat.state, hat.rule⟩
  · have hhost : w'.host a = i.prepare (w.mem.initSession a) (w.host a) :=
      he.host.trans (hfailed h0)
    refine ⟨funext fun b => ?_, fun b s hs => ?_, fun b s hnone hs => ?_⟩
    · by_cases hb : b = a
      · rw [hb]
        exact (congrArg Host.rule hhost).trans (Host.prepare_cases hp).1
      · exact congrArg Host.rule (he.others b hb)
    · by_cases hb : b = a
      · rw [hb] at hs ⊢
        exact (congrArg Host.record hhost).trans (Host.prepare_keeps hp hs)
      · exact (congrArg Host.record (he.others b hb)).trans hs
    · by_cases hb : b = a
      · rw [hb] at hs hnone
        obtain ⟨hi, rfl⟩ := Host.prepare_adds hp hnone ((congrArg Host.record hhost).symm.trans hs)
        exact ⟨hb, hi, rfl⟩
      · have hsame := (congrArg Host.record (he.others b hb)).trans hnone
        exact absurd (hsame.symm.trans hs) (by simp)

/-- A start that is refused, in the world as started. -/
theorem return_codes_start :
    ∃ (status : Int) (w' : GwWorld) (issued : List (Command × Int)),
      (Call.startSession "10.0.0.7").slot.run Command.effect (fun _ _ => 1) GwWorld.init [] =
        some (.status status, w', issued) ∧
      (status = 0 → (w'.mem.record "10.0.0.7").map Session.state = some .started ∧
        ((w'.env "10.0.0.7").isSome = true ↔ some SessionState.started = some .started)) ∧
      (status ≠ 0 → w'.env = GwWorld.init.env ∧
        (∀ b s, GwWorld.init.mem.record b = some s → w'.mem.record b = some s) ∧
        ∀ b s, GwWorld.init.mem.record b = none → w'.mem.record b = some s →
          b = "10.0.0.7" ∧ Call.startSession "10.0.0.7" = .startSession "10.0.0.7" ∧
            s.state = .uninitialized) :=
  return_codes reachable_init rfl (by decide) _

end WifiGateway
