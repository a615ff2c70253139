import Mathlib.Logic.Function.Basic
import WifiGateway.Runs.Guards

/-!
# `RunCommand`: one process, one timer, one event loop

`runcommand.cpp`, the part the Controller uses: `runCommandExec` and the slots
`finishedInternalExec` and `finishedInternalExecTimeout`. All callers share the
object: the `QProcess` it is, its timer and its event loop `el`. The state is
what these three remember, with the call that is inside `el.exec()`; commands
are numbered in the order they are started.

What the model takes from Qt 4: `exec` on a loop that is already inside `exec`
returns -1 at once; after `exit` the loop goes on with the events of the current
pass before `exec` returns, so a call may come in between; a process that fails
to start is back to `NotRunning` without `finished`.

Each caller gets the result of its own command as long as the steps are `Calm`:
no call is made while an earlier caller is still inside `exec` and no process is
running. `own_iff_calm` says that this is also necessary.
-/

namespace WifiGateway.RunCommand

/-- `QProcess::state`, with the command that the process runs. -/
inductive Process
  | notRunning
  | starting (id : Nat)
  | running (id : Nat)
  deriving DecidableEq, Repr

/-- The command of the process. -/
def Process.command : Process → Option Nat
  | .notRunning => none
  | .starting id | .running id => some id

/-- A return of `runCommandExec`: the command that the call started, if it
started one, and the value. -/
structure Return where
  command : Option Nat
  value : Int
  deriving DecidableEq, Repr

/-- The object, and what has happened so far. -/
structure State where
  process : Process
  /-- `timer` is active. -/
  timer : Bool
  /-- `finished` and `timeout` are connected to the internal slots. -/
  connected : Bool
  /-- The caller inside `el.exec()`, by the command it started. -/
  waiting : Option Nat
  /-- `el.exit(r)` was called and `exec` has not returned yet. -/
  exiting : Option Int
  /-- The number of the next command. -/
  next : Nat
  returned : List Return
  exited : List (Nat × Int)
  failed : List Nat
  timedOut : List Nat
  deriving DecidableEq, Repr

/-- The object as constructed. -/
def init : State where
  process := .notRunning
  timer := false
  connected := false
  waiting := none
  exiting := none
  next := 0
  returned := []
  exited := []
  failed := []
  timedOut := []

/-- What can happen next. -/
inductive Event
  /-- `runCommandExec` is called. -/
  | call
  /-- The process has started. -/
  | started
  /-- The process could not be started. -/
  | failedToStart
  /-- The process exits. -/
  | processExits (code : Int)
  /-- The timer runs out. -/
  | timeout
  /-- `el.exec()` returns to its caller. -/
  | execReturns
  deriving DecidableEq, Repr

/-- `finishedInternalExec`: disconnect, stop the timer, kill what still runs and
`el.exit(result)`, which is of no consequence outside `exec`. -/
def finishedInternalExec (result : Int) (s : State) : State :=
  { s with
    connected := false
    timer := false
    process := .notRunning
    exiting := if s.waiting.isSome then some result else none }

/-- The signals reach the internal slot if it is connected. -/
def signal (result : Int) (s : State) : State :=
  if s.connected then finishedInternalExec result s else s

/-- `runCommandExec` up to where it returns or waits in `exec`. -/
def runCommandExec (s : State) : State :=
  match s.process with
  | .notRunning =>
    let s' := { s with
      process := .starting s.next, timer := true, connected := true, next := s.next + 1 }
    -- `exec` of a loop that is already inside `exec` returns -1 at once
    if s.waiting.isSome then { s' with returned := ⟨some s.next, -1⟩ :: s.returned }
    else { s' with waiting := some s.next, exiting := none }
  | .starting _ | .running _ => { s with returned := ⟨none, -1⟩ :: s.returned }

/-- One step; an event that cannot happen now changes nothing. -/
def step (s : State) : Event → State
  | .call => runCommandExec s
  | .started =>
    match s.process with
    | .starting id => { s with process := .running id }
    | _ => s
  | .failedToStart =>
    match s.process with
    -- nothing is emitted, so the caller waits on for the timer
    | .starting id => { s with process := .notRunning, failed := id :: s.failed }
    | _ => s
  | .processExits code =>
    match s.process with
    | .running id =>
      signal code { s with process := .notRunning, exited := (id, code) :: s.exited }
    | _ => s
  | .timeout =>
    if s.timer then
      signal (-1) { s with timer := false, timedOut := s.process.command.toList ++ s.timedOut }
    else s
  | .execReturns =>
    match s.waiting, s.exiting with
    | some id, some r =>
      { s with waiting := none, exiting := none, returned := ⟨some id, r⟩ :: s.returned }
    | _, _ => s

/-- A run. -/
def run (s : State) (events : List Event) : State := events.foldl step s

/-! ## What callers are entitled to -/

/-- The value is the exit code of the caller's own command, or -1 and its
command was not started or timed out. -/
def Entitled (s : State) (r : Return) : Prop :=
  (∃ e ∈ s.exited, r.command = some e.1 ∧ r.value = e.2) ∨
    r.value = -1 ∧ ∀ id ∈ r.command, id ∈ s.failed ∨ id ∈ s.timedOut

instance (s : State) (r : Return) : Decidable (Entitled s r) :=
  inferInstanceAs (Decidable (_ ∨ _))

/-- Every return so far was the result of the caller's own command, and none that
returned -1 without a timeout has left its command running. -/
structure Own (s : State) : Prop where
  entitled : ∀ r ∈ s.returned, Entitled s r
  noneLeft : ∀ r ∈ s.returned, r.value = -1 → ∀ id ∈ r.command, id ∉ s.timedOut →
    s.process.command ≠ some id

/-- No call is made while an earlier caller is inside `exec` without a running process. -/
def Calm (s : State) (e : Event) : Prop :=
  e = .call → s.waiting.isSome = true → s.process ≠ .notRunning

instance (s : State) (e : Event) : Decidable (Calm s e) :=
  inferInstanceAs (Decidable (_ → _ → _))

/-- Every step of a run is calm. -/
def AllCalm : State → List Event → Prop
  | _, [] => True
  | s, e :: events => Calm s e ∧ AllCalm (step s e) events

/-! ## The invariant -/

/-- Where the caller inside `exec` stands. -/
inductive Phase (s : State) : Prop
  | idle (hw : s.waiting = none) (hp : s.process = .notRunning) (ht : s.timer = false)
      (hc : s.connected = false) (he : s.exiting = none)
  | active (id : Nat) (hw : s.waiting = some id) (hp : s.process.command = some id)
      (ht : s.timer = true) (hc : s.connected = true) (he : s.exiting = none)
  | stranded (id : Nat) (hw : s.waiting = some id) (hp : s.process = .notRunning)
      (hf : id ∈ s.failed) (ht : s.timer = true) (hc : s.connected = true) (he : s.exiting = none)
  | leaving (id : Nat) (r : Int) (hw : s.waiting = some id) (hp : s.process = .notRunning)
      (ht : s.timer = false) (hc : s.connected = false) (he : s.exiting = some r)
      (hr : Entitled s ⟨some id, r⟩)

/-- What calm runs keep. -/
structure Inv (s : State) : Prop where
  phase : Phase s
  entitled : ∀ r ∈ s.returned, Entitled s r
  /-- A returned caller is not the one inside `exec`. -/
  others : ∀ r ∈ s.returned, ∀ id ∈ r.command, id < s.next ∧ s.waiting ≠ some id
  waiting : ∀ id ∈ s.waiting, id < s.next
  past : ∀ id, (∃ code, (id, code) ∈ s.exited) ∨ id ∈ s.failed ∨ id ∈ s.timedOut → id < s.next

theorem inv_init : Inv init where
  phase := .idle rfl rfl rfl rfl rfl
  entitled r hr := absurd hr List.not_mem_nil
  others r hr := absurd hr List.not_mem_nil
  waiting id hid := absurd hid (by simp [init])
  past id hid := absurd hid (by simp [init])

variable {s s' : State} {e : Event}

/-- Entitlements last: what has happened stays. -/
theorem Entitled.mono {r : Return} (h : Entitled s r) (hexited : s.exited ⊆ s'.exited)
    (hfailed : s.failed ⊆ s'.failed) (htimed : s.timedOut ⊆ s'.timedOut) : Entitled s' r := by
  rcases h with ⟨e, he, hr⟩ | ⟨hv, hid⟩
  · exact .inl ⟨e, hexited he, hr⟩
  · exact .inr ⟨hv, fun id h => (hid id h).imp (fun h => hfailed h) fun h => htimed h⟩

/-- The command of the process is the one of the caller inside `exec`. -/
theorem Phase.command_waiting (h : Phase s) {id : Nat} (hc : s.process.command = some id) :
    s.waiting = some id := by
  cases h with
  | idle hw hp => exact absurd hc (by simp [hp, Process.command])
  | active id' hw hp => rw [hw, ← hp, hc]
  | stranded id' hw hp => exact absurd hc (by simp [hp, Process.command])
  | leaving id' r hw hp => exact absurd hc (by simp [hp, Process.command])

theorem Inv.own (h : Inv s) : Own s where
  entitled := h.entitled
  noneLeft r hr _ id hid _ hc := (h.others r hr id hid).2 (h.phase.command_waiting hc)

/-- A running command is that of the caller inside `exec`, with the timer and the
signals set up for it. -/
theorem Phase.of_command (h : Phase s) {id : Nat} (hc : s.process.command = some id) :
    s.waiting = some id ∧ s.timer = true ∧ s.connected = true ∧ s.exiting = none := by
  have hw := h.command_waiting hc
  cases h with
  | idle _ hp => exact absurd hc (by simp [hp, Process.command])
  | active _ _ _ ht hcon he => exact ⟨hw, ht, hcon, he⟩
  | stranded _ _ hp => exact absurd hc (by simp [hp, Process.command])
  | leaving _ _ _ hp => exact absurd hc (by simp [hp, Process.command])

/-- A busy object: the call returns -1 and changes nothing else. -/
theorem call_busy {id : Nat} (hc : s.process.command = some id) :
    runCommandExec s = { s with returned := ⟨none, -1⟩ :: s.returned } := by
  unfold runCommandExec
  cases hp : s.process with
  | notRunning => exact absurd hc (by simp [hp, Process.command])
  | starting => rfl
  | running => rfl

/-- A call that is turned away keeps the invariant. -/
theorem Inv.turnedAway (h : Inv s) :
    Inv { s with returned := ⟨none, -1⟩ :: s.returned } where
  phase := by
    cases h.phase with
    | idle hw hp ht hc he => exact .idle hw hp ht hc he
    | active id hw hp ht hc he => exact .active id hw hp ht hc he
    | stranded id hw hp hf ht hc he => exact .stranded id hw hp hf ht hc he
    | leaving id r hw hp ht hc he hr => exact .leaving id r hw hp ht hc he hr
  entitled := by
    intro r hr
    rcases hr with _ | ⟨_, hr⟩
    · exact .inr ⟨rfl, fun id hid => absurd hid (by simp)⟩
    · exact h.entitled r hr
  others := by
    intro r hr id hid
    rcases hr with _ | ⟨_, hr⟩
    · exact absurd hid (by simp)
    · exact h.others r hr id hid
  waiting := h.waiting
  past := h.past

/-- A call that finds nobody inside `exec` starts its command. -/
theorem Inv.begins (h : Inv s) :
    Inv { s with
      process := .starting s.next, timer := true, connected := true, next := s.next + 1
      waiting := some s.next, exiting := none } where
  phase := .active s.next rfl rfl rfl rfl rfl
  entitled := h.entitled
  others r hr id hid := by
    have hlt := (h.others r hr id hid).1
    refine ⟨Nat.lt_succ_of_lt hlt, fun heq => ?_⟩
    exact Nat.lt_irrefl _ ((Option.some.inj heq) ▸ hlt)
  waiting id hid := by
    obtain rfl := Option.some.inj hid
    exact Nat.lt_succ_self _
  past id hid := Nat.lt_succ_of_lt (h.past id hid)

theorem call_inv (h : Inv s) (hc : Calm s .call) : Inv (runCommandExec s) := by
  cases hp : s.process.command with
  | some id =>
    rw [call_busy hp]
    exact h.turnedAway
  | none =>
    have hidle : s.process = .notRunning := by
      cases hs : s.process with
      | notRunning => rfl
      | starting id => exact absurd hp (by simp [hs, Process.command])
      | running id => exact absurd hp (by simp [hs, Process.command])
    -- the process is idle, and a calm call then finds nobody inside `exec`
    have hw : s.waiting.isSome = false := by
      cases hw : s.waiting.isSome with
      | false => rfl
      | true => exact absurd hidle (hc rfl hw)
    simp only [runCommandExec, hidle, hw]
    exact h.begins

theorem started_inv (h : Inv s) : Inv (step s .started) := by
  unfold step
  dsimp only
  split
  · next id hp =>
    obtain ⟨hw, ht, hc, he⟩ := h.phase.of_command (by rw [hp]; rfl : s.process.command = some id)
    exact ⟨.active id hw rfl ht hc he, h.entitled, h.others, h.waiting, h.past⟩
  · exact h

theorem failedToStart_inv (h : Inv s) : Inv (step s .failedToStart) := by
  unfold step
  dsimp only
  split
  · next id hp =>
    obtain ⟨hw, ht, hc, he⟩ := h.phase.of_command (by rw [hp]; rfl : s.process.command = some id)
    refine ⟨.stranded id hw rfl List.mem_cons_self ht hc he, fun r hr => ?_, h.others, h.waiting,
      fun id' hid => ?_⟩
    · exact (h.entitled r hr).mono (List.Subset.refl _) (List.subset_cons_self _ _)
        (List.Subset.refl _)
    · rcases hid with hid | hid | hid
      · exact h.past id' (.inl hid)
      · rcases List.mem_cons.mp hid with rfl | hid
        · exact h.waiting _ hw
        · exact h.past id' (.inr (.inl hid))
      · exact h.past id' (.inr (.inr hid))
  · exact h

theorem processExits_inv (h : Inv s) (code : Int) : Inv (step s (.processExits code)) := by
  unfold step
  dsimp only
  split
  · next id hp =>
    obtain ⟨hw, ht, hc, he⟩ := h.phase.of_command (by rw [hp]; rfl : s.process.command = some id)
    simp only [signal, hc, if_true]
    have hexited : s.exited ⊆ (id, code) :: s.exited := List.subset_cons_self _ _
    refine ⟨.leaving id code hw rfl rfl rfl (by simp [finishedInternalExec, hw])
      (.inl ⟨(id, code), List.mem_cons_self, rfl, rfl⟩), fun r hr => ?_, h.others, h.waiting,
      fun id' hid => ?_⟩
    · exact (h.entitled r hr).mono hexited (List.Subset.refl _) (List.Subset.refl _)
    · rcases hid with ⟨code', hid⟩ | hid
      · rcases List.mem_cons.mp hid with heq | hid
        · obtain ⟨rfl, -⟩ := Prod.mk.inj heq
          exact h.waiting _ hw
        · exact h.past id' (.inl ⟨code', hid⟩)
      · exact h.past id' (.inr hid)
  · exact h

theorem timeout_inv (h : Inv s) : Inv (step s .timeout) := by
  unfold step
  dsimp only
  split
  · next ht =>
    have htimed : s.timedOut ⊆ s.process.command.toList ++ s.timedOut :=
      List.subset_append_right _ _
    -- who waits with the timer set, and why it is entitled to -1
    obtain ⟨id, hw, hc, hwhy⟩ : ∃ id, s.waiting = some id ∧ s.connected = true ∧
        (s.process.command = some id ∨ id ∈ s.failed) := by
      cases h.phase with
      | idle _ _ ht' => exact absurd (ht.symm.trans ht') (by simp)
      | active id hw hp _ hc => exact ⟨id, hw, hc, .inl hp⟩
      | stranded id hw _ hf _ hc => exact ⟨id, hw, hc, .inr hf⟩
      | leaving _ _ _ _ ht' => exact absurd (ht.symm.trans ht') (by simp)
    simp only [signal, hc, if_true]
    refine ⟨.leaving id (-1) hw rfl rfl rfl (by simp [finishedInternalExec, hw])
      (.inr ⟨rfl, fun id' hid => ?_⟩), fun r hr => ?_, h.others, h.waiting, fun id' hid => ?_⟩
    · obtain rfl := Option.some.inj hid
      rcases hwhy with hp | hf
      · exact .inr (List.mem_append_left _ (by simp [hp]))
      · exact .inl hf
    · exact (h.entitled r hr).mono (List.Subset.refl _) (List.Subset.refl _) htimed
    · rcases hid with hid | hid | hid
      · exact h.past id' (.inl hid)
      · exact h.past id' (.inr (.inl hid))
      · rcases List.mem_append.mp hid with hid | hid
        · have hcommand : s.process.command = some id' := by simpa using hid
          exact h.waiting _ (h.phase.command_waiting hcommand)
        · exact h.past id' (.inr (.inr hid))
  · exact h

theorem execReturns_inv (h : Inv s) : Inv (step s .execReturns) := by
  unfold step
  dsimp only
  split
  · next id r hw he =>
    -- only a caller that is leaving has a value to return
    cases h.phase with
    | idle hw' => exact absurd (hw.symm.trans hw') (by simp)
    | active _ _ _ _ _ he' => exact absurd (he.symm.trans he') (by simp)
    | stranded _ _ _ _ _ _ he' => exact absurd (he.symm.trans he') (by simp)
    | leaving id' r' hw' hp ht hc he' hr =>
      obtain rfl := Option.some.inj (hw.symm.trans hw')
      obtain rfl := Option.some.inj (he.symm.trans he')
      refine ⟨.idle rfl hp ht hc rfl, ?_, ?_, fun id' hid => absurd hid (by simp), h.past⟩
      · intro r' hr'
        rcases hr' with _ | ⟨_, hr'⟩
        · exact hr
        · exact h.entitled r' hr'
      · intro r' hr' id' hid
        rcases hr' with _ | ⟨_, hr'⟩
        · obtain rfl := Option.some.inj hid
          exact ⟨h.waiting _ hw, by simp⟩
        · exact ⟨(h.others r' hr' id' hid).1, by simp⟩
  · exact h

/-- A calm step keeps the invariant. -/
theorem step_inv (h : Inv s) (hc : Calm s e) : Inv (step s e) := by
  cases e with
  | call => exact call_inv h hc
  | started => exact started_inv h
  | failedToStart => exact failedToStart_inv h
  | processExits code => exact processExits_inv h code
  | timeout => exact timeout_inv h
  | execReturns => exact execReturns_inv h

/-- A call that is not calm gets -1 at once, its command left running. -/
theorem not_own_of_not_calm (h : Inv s) (hc : ¬ Calm s e) : ¬ Own (step s e) := by
  have hcall : e = .call ∧ s.waiting.isSome = true ∧ s.process = .notRunning := by
    simpa [Calm] using hc
  obtain ⟨rfl, hw, hp⟩ := hcall
  intro hown
  have hstep : step s .call = { s with
      process := .starting s.next, timer := true, connected := true, next := s.next + 1
      returned := ⟨some s.next, -1⟩ :: s.returned } := by
    simp only [step, runCommandExec, hp, hw, if_true]
  rw [hstep] at hown
  -- the number of the new command is not that of any command of the past
  rcases hown.entitled ⟨some s.next, -1⟩ List.mem_cons_self with ⟨e, he, hid, -⟩ | ⟨-, hid⟩
  · have hlt := h.past e.1 (.inl ⟨e.2, he⟩)
    rw [← Option.some.inj hid] at hlt
    exact Nat.lt_irrefl _ hlt
  · exact Nat.lt_irrefl _ (h.past s.next (.inr (hid s.next rfl)))

/-! ## Runs -/

/-- Calm steps are what the callers need. -/
theorem guards : Runs.Guards step Calm Inv Own where
  good := fun _ => Inv.own
  keeps := fun _ _ => step_inv
  breaks := fun _ _ => not_own_of_not_calm

theorem allCalm_iff (s : State) (events : List Event) :
    AllCalm s events ↔ Runs.Guarded step Calm s events := by
  induction events generalizing s with
  | nil => exact Iff.rfl
  | cons e events ih => exact and_congr_right fun _ => ih (step s e)

theorem run_own_iff (h : Inv s) (events : List Event) :
    (∀ n, Own (run s (events.take n))) ↔ AllCalm s events := by
  rw [allCalm_iff]
  exact guards.iff h events

/-- Throughout a run every caller gets the result of its own command, if and only
if all its steps are calm. -/
theorem own_iff_calm (events : List Event) :
    (∀ n, Own (run init (events.take n))) ↔ AllCalm init events :=
  run_own_iff inv_init events

/-- A command exits, and before `exec` has returned to its caller the next call
is made: it returns -1 at once with its command starting. -/
theorem call_before_return :
    ¬ ∀ events : List Event, ∀ n, Own (run init (events.take n)) := by
  intro h
  have hown := (h [.call, .started, .processExits 0, .call] 4).entitled
  exact absurd hown (by decide)

/-- A command fails to start, and a call made before the timer runs out starts
another one: its exit code goes to the first caller. -/
example : (run init [.call, .failedToStart, .call, .started, .processExits 5,
    .execReturns]).returned = [⟨some 0, 5⟩, ⟨some 1, -1⟩] := by decide

end WifiGateway.RunCommand
