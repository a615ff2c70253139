import Mathlib.Data.List.Range
import WifiGateway.RunCommand
import WifiGateway.Runs.Guards

/-!
# `RunCommand` without waiting

`runcommand.cpp`, the asynchronous part: `runCommand`, which returns as soon as the process is
started, and the slots `finishedInternal` and `finishedInternalTimeout`, which emit
`finished(int,QString)`. Calls that return 0 are numbered; the timer and the signals are recorded
with the call they belong to, which the code does not know.

A call from a slot that is connected to `finished(int,QString)` comes right after the signal, which
is the last thing that `finishedInternal` does; what it connects is not reached by the signal that
is being emitted. `kill` and `waitForFinished` come after the slots are disconnected, so an exit
that is noticed there reaches nobody.

Each call has a signal of its own as long as none is made while an earlier one, whose process
failed to start, waits for its timer (`completes_iff_calm`).
-/

namespace WifiGateway.RunCommandAsync

open RunCommand (Process)

/-- A `finished(int,QString)` signal: the call that it is for, and the `int`. -/
structure Signal where
  call : Nat
  value : Int
  deriving DecidableEq, Repr

/-- The object, and what has happened so far. -/
structure State where
  process : Process
  /-- `timer` is active, started by this call. -/
  timer : Option Nat
  /-- How often `finished` and `timeout` are connected to the internal slots. -/
  connections : Nat
  /-- The number of the next call that returns 0. -/
  next : Nat
  signals : List Signal
  exited : List (Nat × Int)
  /-- The calls whose timer ran out. -/
  expired : List Nat
  deriving DecidableEq, Repr

/-- The object as constructed. -/
def init : State where
  process := .notRunning
  timer := none
  connections := 0
  next := 0
  signals := []
  exited := []
  expired := []

/-- What can happen next. -/
inductive Event
  /-- `runCommand` is called. -/
  | call
  /-- The process has started. -/
  | started
  /-- The process could not be started. -/
  | failedToStart
  /-- The process exits. -/
  | processExits (code : Int)
  /-- The timer runs out. -/
  | timeout
  deriving DecidableEq

/-- `runCommand`: what it returns, and the object after it. -/
def runCommand (s : State) : Int × State :=
  match s.process with
  | .notRunning =>
    (0, { s with
      process := .starting s.next, timer := some s.next, connections := s.connections + 1
      next := s.next + 1 })
  | .starting _ | .running _ => (-1, s)

/-- `finishedInternal`: disconnect, which takes all connections away, stop the timer, kill what
still runs, and emit the signal. -/
def finishedInternal (call : Nat) (result : Int) (s : State) : State :=
  { s with
    connections := 0
    timer := none
    process := .notRunning
    signals := s.signals ++ [⟨call, result⟩] }

/-- The signals reach the internal slot if it is connected, and once only, however often it is. -/
def signal (call : Nat) (result : Int) (s : State) : State :=
  if s.connections = 0 then s else finishedInternal call result s

/-- One step; an event that cannot happen now changes nothing. -/
def step (s : State) : Event → State
  | .call => (runCommand s).2
  | .started =>
    match s.process with
    | .starting id => { s with process := .running id }
    | _ => s
  | .failedToStart =>
    match s.process with
    -- nothing is emitted, so the call waits on for the timer
    | .starting _ => { s with process := .notRunning }
    | _ => s
  | .processExits code =>
    match s.process with
    | .running id =>
      signal id code { s with process := .notRunning, exited := s.exited ++ [(id, code)] }
    | _ => s
  | .timeout =>
    match s.timer with
    | some id => signal id (-1) { s with expired := s.expired ++ [id] }
    | none => s

/-- A run. -/
def run (s : State) (events : List Event) : State := events.foldl step s

/-! ## What callers are entitled to -/

/-- The calls that have had their signal. -/
def State.signalled (s : State) : List Nat := s.signals.map Signal.call

/-- The value is the exit status of the call's own command, or -1 and its timer ran out first. -/
def Own (s : State) (f : Signal) : Prop :=
  ((f.call, f.value) ∈ s.exited ∧ f.call ∉ s.expired) ∨
    f.value = -1 ∧ f.call ∈ s.expired ∧ ∀ code, (f.call, code) ∉ s.exited

/-- What is expected of the object at any time. -/
structure Exact (s : State) : Prop where
  own : ∀ f ∈ s.signals, f.call < s.next ∧ Own s f
  once : s.signalled.Nodup
  /-- A call without a signal has the timer and the slots to itself. -/
  pending : ∀ id < s.next, id ∉ s.signalled → s.timer = some id ∧ s.connections = 1
  /-- When every call has had its signal, nothing is left of them. -/
  quiet : (∀ id < s.next, id ∈ s.signalled) → s.timer = none ∧ s.connections = 0
  rejected : (runCommand s).1 = -1 → (runCommand s).2 = s

/-- What is expected of a run: the object is as it should be all along, and once a timer has run
out there is no call that waits for its signal. -/
structure Completes (events : List Event) : Prop where
  exact : ∀ n, Exact (run init (events.take n))
  followed : ∀ pre post, events = pre ++ .timeout :: post →
    ∀ id < (run init pre).next, id ∈ (run init (pre ++ [.timeout])).signalled

/-- No call is made while an earlier one waits for its timer and no process is running. -/
def Calm (s : State) (e : Event) : Prop :=
  e = .call → s.process = .notRunning → s.timer = none

instance (s : State) (e : Event) : Decidable (Calm s e) :=
  inferInstanceAs (Decidable (_ → _ → _))

/-- Every step of a run is calm. -/
def AllCalm : State → List Event → Prop := Runs.Guarded step Calm

/-! ## The invariant -/

/-- Whether a call waits for its signal: the last one, with its process or without. -/
inductive Phase (s : State) : Prop
  | idle (hp : s.process = .notRunning) (ht : s.timer = none) (hc : s.connections = 0)
      (hs : s.signalled = List.range s.next)
  | waiting (id : Nat) (hnext : s.next = id + 1)
      (hp : s.process = .notRunning ∨ s.process.command = some id) (ht : s.timer = some id)
      (hc : s.connections = 1) (hs : s.signalled = List.range id)

/-- What calm runs keep. -/
structure Inv (s : State) : Prop where
  phase : Phase s
  own : ∀ f ∈ s.signals, Own s f
  exited : ∀ e ∈ s.exited, e.1 ∈ s.signalled
  expired : ∀ id ∈ s.expired, id ∈ s.signalled

theorem inv_init : Inv init where
  phase := .idle rfl rfl rfl rfl
  own := fun _ hf => absurd hf List.not_mem_nil
  exited := fun _ he => absurd he List.not_mem_nil
  expired := fun _ hid => absurd hid List.not_mem_nil

variable {s : State} {e : Event}

/-- A call that is turned away has no effect. -/
theorem runCommand_rejected (h : (runCommand s).1 = -1) : (runCommand s).2 = s := by
  unfold runCommand at h ⊢
  split
  · next hp =>
    rw [hp] at h
    have hzero : (0 : Int) = -1 := h
    omega
  · rfl
  · rfl

theorem Inv.exact (h : Inv s) : Exact s where
  own f hf := by
    refine ⟨?_, h.own f hf⟩
    have hmem : f.call ∈ s.signalled := List.mem_map_of_mem hf
    cases h.phase with
    | idle _ _ _ hs =>
      rw [hs] at hmem
      exact List.mem_range.mp hmem
    | waiting id hnext _ _ _ hs =>
      rw [hs] at hmem
      have hlt := List.mem_range.mp hmem
      omega
  once := by
    cases h.phase with
    | idle _ _ _ hs => exact hs ▸ List.nodup_range
    | waiting id _ _ _ _ hs => exact hs ▸ List.nodup_range
  pending := by
    intro id hid hnot
    cases h.phase with
    | idle _ _ _ hs =>
      rw [hs] at hnot
      exact absurd (List.mem_range.mpr hid) hnot
    | waiting id' hnext _ ht hc hs =>
      rw [hs, List.mem_range] at hnot
      have hlast : id = id' := by omega
      rw [hlast]
      exact ⟨ht, hc⟩
  quiet := by
    intro hall
    cases h.phase with
    | idle _ ht hc _ => exact ⟨ht, hc⟩
    | waiting id hnext _ _ _ hs =>
      have hmem := hall id (by omega)
      rw [hs, List.mem_range] at hmem
      omega
  rejected := runCommand_rejected

/-! ## One step -/

theorem signalled_finishedInternal (call : Nat) (result : Int) (s : State) :
    (finishedInternal call result s).signalled = s.signalled ++ [call] := List.map_append

/-- The call that waits gets its signal. -/
theorem Inv.finishes (h : Inv s) {id : Nat} {result : Int} (hnext : s.next = id + 1)
    (hs : s.signalled = List.range id) {exited : List (Nat × Int)} {expired : List Nat}
    (hown : Own { s with exited := exited, expired := expired } ⟨id, result⟩)
    (hexited : ∀ e ∈ exited, e ∈ s.exited ∨ e.1 = id)
    (hexpired : ∀ i ∈ expired, i ∈ s.expired ∨ i = id)
    (hmore : s.exited ⊆ exited) (hmore' : s.expired ⊆ expired) {process : Process} :
    Inv (finishedInternal id result
      { s with process := process, exited := exited, expired := expired }) := by
  have hsignalled : (finishedInternal id result
      { s with process := process, exited := exited, expired := expired }).signalled =
        s.signalled ++ [id] := signalled_finishedInternal ..
  refine ⟨.idle rfl rfl rfl ?_, ?_, ?_, ?_⟩
  · rw [hsignalled, hs]
    show List.range id ++ [id] = List.range s.next
    rw [hnext, List.range_succ]
  · intro f hf
    rcases List.mem_append.mp hf with hf | hf
    · -- what is new is about another call
      have hne : f.call ≠ id := by
        have hmem : f.call ∈ s.signalled := List.mem_map_of_mem hf
        rw [hs, List.mem_range] at hmem
        omega
      rcases h.own f hf with ⟨hin, hout⟩ | ⟨hv, hin, hout⟩
      · refine .inl ⟨hmore hin, fun hexp => ?_⟩
        rcases hexpired _ hexp with hold | heq
        · exact hout hold
        · exact hne heq
      · refine .inr ⟨hv, hmore' hin, fun code hcode => ?_⟩
        rcases hexited _ hcode with hold | heq
        · exact hout code hold
        · exact hne heq
    · obtain rfl := List.mem_singleton.mp hf
      exact hown
  · intro e he
    rw [hsignalled, List.mem_append]
    rcases hexited e he with hold | heq
    · exact .inl (h.exited e hold)
    · exact .inr (List.mem_singleton.mpr heq)
  · intro i hi
    rw [hsignalled, List.mem_append]
    rcases hexpired i hi with hold | heq
    · exact .inl (h.expired i hold)
    · exact .inr (List.mem_singleton.mpr heq)

/-- The call that waits has neither exited nor expired. -/
theorem Inv.fresh (h : Inv s) {id : Nat} (hs : s.signalled = List.range id) :
    (∀ code, (id, code) ∉ s.exited) ∧ id ∉ s.expired := by
  have hnot : id ∉ s.signalled := by
    rw [hs, List.mem_range]
    omega
  exact ⟨fun code hcode => hnot (h.exited _ hcode), fun hexp => hnot (h.expired id hexp)⟩

theorem call_inv (h : Inv s) (hc : Calm s .call) : Inv (step s .call) := by
  show Inv (runCommand s).2
  unfold runCommand
  split
  · next hp =>
    cases h.phase with
    | idle _ _ hcon hs =>
      refine ⟨.waiting s.next rfl (.inr rfl) rfl ?_ hs, h.own, h.exited, h.expired⟩
      show s.connections + 1 = 1
      omega
    | waiting id _ _ ht _ _ => exact absurd ((hc rfl hp).symm.trans ht) (by simp)
  · exact h
  · exact h

/-- While a process is there, its call waits. -/
theorem Phase.of_command (h : Phase s) {id : Nat} (hp : s.process.command = some id) :
    s.next = id + 1 ∧ s.timer = some id ∧ s.connections = 1 ∧ s.signalled = List.range id := by
  cases h with
  | idle hp' => exact absurd hp (by simp [hp', Process.command])
  | waiting id' hnext hp' ht hc hs =>
    rcases hp' with hnone | hsome
    · exact absurd hp (by simp [hnone, Process.command])
    · obtain rfl := Option.some.inj (hp.symm.trans hsome)
      exact ⟨hnext, ht, hc, hs⟩

theorem started_inv (h : Inv s) : Inv (step s .started) := by
  unfold step
  dsimp only
  split
  · next id hp =>
    obtain ⟨hnext, ht, hc, hs⟩ := h.phase.of_command (by rw [hp]; rfl : s.process.command = some id)
    exact ⟨.waiting id hnext (.inr rfl) ht hc hs, h.own, h.exited, h.expired⟩
  · exact h

theorem failedToStart_inv (h : Inv s) : Inv (step s .failedToStart) := by
  unfold step
  dsimp only
  split
  · next id hp =>
    obtain ⟨hnext, ht, hc, hs⟩ := h.phase.of_command (by rw [hp]; rfl : s.process.command = some id)
    exact ⟨.waiting id hnext (.inl rfl) ht hc hs, h.own, h.exited, h.expired⟩
  · exact h

theorem processExits_inv (h : Inv s) (code : Int) : Inv (step s (.processExits code)) := by
  unfold step
  dsimp only
  split
  · next id hp =>
    obtain ⟨hnext, ht, hc, hs⟩ := h.phase.of_command (by rw [hp]; rfl : s.process.command = some id)
    obtain ⟨-, hunexpired⟩ := h.fresh hs
    have hcon : ¬ s.connections = 0 := by omega
    rw [signal, if_neg hcon]
    apply h.finishes hnext hs
    · exact .inl ⟨List.mem_append_right _ (List.mem_singleton.mpr rfl), hunexpired⟩
    · intro e he
      rcases List.mem_append.mp he with hold | hnew
      · exact .inl hold
      · exact .inr (by rw [List.mem_singleton.mp hnew])
    · exact fun i hi => .inl hi
    · exact List.subset_append_left ..
    · exact List.Subset.refl _
  · exact h

theorem timeout_inv (h : Inv s) :
    Inv (step s .timeout) ∧ ∀ id < s.next, id ∈ (step s .timeout).signalled := by
  have hstep : ∀ id, s.timer = some id →
      step s .timeout = signal id (-1) { s with expired := s.expired ++ [id] } := by
    intro id ht
    simp only [step, ht]
  cases hphase : h.phase with
  | idle hp ht hc hs =>
    have hsame : step s .timeout = s := by simp only [step, ht]
    rw [hsame]
    refine ⟨h, fun id hid => ?_⟩
    rw [hs]
    exact List.mem_range.mpr hid
  | waiting id hnext hp ht hc hs =>
    obtain ⟨hrunning, -⟩ := h.fresh hs
    have hcon : ¬ s.connections = 0 := by omega
    rw [hstep id ht, signal, if_neg hcon]
    refine ⟨?_, fun i hi => ?_⟩
    · apply h.finishes hnext hs
      · exact .inr ⟨rfl, List.mem_append_right _ (List.mem_singleton.mpr rfl), hrunning⟩
      · exact fun e he => .inl he
      · intro i hi
        rcases List.mem_append.mp hi with hold | hnew
        · exact .inl hold
        · exact .inr (List.mem_singleton.mp hnew)
      · exact List.Subset.refl _
      · exact List.subset_append_left ..
    · have hsignalled : State.signalled { s with expired := s.expired ++ [id] } =
          List.range id := hs
      rw [signalled_finishedInternal, hsignalled, List.mem_append, List.mem_range,
        List.mem_singleton]
      omega

/-- A calm step keeps the invariant. -/
theorem step_inv (h : Inv s) (hc : Calm s e) : Inv (step s e) := by
  cases e with
  | call => exact call_inv h hc
  | started => exact started_inv h
  | failedToStart => exact failedToStart_inv h
  | processExits code => exact processExits_inv h code
  | timeout => exact (timeout_inv h).1

/-- A call that is not calm takes the timer of the one that waits. -/
theorem not_exact_of_not_calm (h : Inv s) (hc : ¬ Calm s e) : ¬ Exact (step s e) := by
  have hcall : e = .call ∧ s.process = .notRunning ∧ s.timer ≠ none := by
    simpa [Calm] using hc
  obtain ⟨rfl, hp, ht⟩ := hcall
  intro hexact
  have hstep : step s .call = { s with
      process := .starting s.next, timer := some s.next, connections := s.connections + 1
      next := s.next + 1 } := by
    simp only [step, runCommand, hp]
  cases h.phase with
  | idle _ ht' => exact ht ht'
  | waiting id hnext _ _ _ hs =>
    rw [hstep] at hexact
    have hnot : id ∉ s.signalled := by
      rw [hs, List.mem_range]
      omega
    have hlt : id < s.next + 1 := by omega
    have htimer : some s.next = some id := (hexact.pending id hlt hnot).1
    have heq := Option.some.inj htimer
    omega

/-! ## Runs -/

/-- Calm steps are what the object needs. -/
theorem guards : Runs.Guards step Calm Inv Exact where
  good := fun _ => Inv.exact
  keeps := fun _ _ => step_inv
  breaks := fun _ _ => not_exact_of_not_calm

theorem run_exact_iff (events : List Event) :
    (∀ n, Exact (run init (events.take n))) ↔ AllCalm init events :=
  guards.iff inv_init events

/-- Every call that returns 0 has exactly one signal of its own, with its exit status or after its
timer, and the others have none, if and only if no call is made while an earlier one waits for its
timer without a process. -/
theorem completes_iff_calm (events : List Event) : Completes events ↔ AllCalm init events := by
  constructor
  · intro h
    exact (run_exact_iff events).mp h.exact
  · intro hcalm
    refine ⟨(run_exact_iff events).mpr hcalm, ?_⟩
    intro pre post hevents id hid
    rw [hevents] at hcalm
    have hpre : Inv (run init pre) := (Runs.Guarded.left hcalm).inv guards.keeps inv_init
    have hrun : run init (pre ++ [.timeout]) = step (run init pre) .timeout := List.foldl_append ..
    rw [hrun]
    exact (timeout_inv hpre).2 id hid

/-- A process fails to start, and the next call is made before the timer runs out: the first call
never has a signal. -/
theorem first_call_lost :
    ¬ Completes [.call, .failedToStart, .call, .started, .processExits 5, .timeout] := by
  intro h
  have hmem := h.followed [.call, .failedToStart, .call, .started, .processExits 5] [] rfl 0
    (by decide)
  exact absurd hmem (by decide)

end WifiGateway.RunCommandAsync
