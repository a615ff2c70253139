import WifiGateway.Waiting.Code

/-!
# Nested event loops: procedures called while a command runs

The second reading of `Code`. The program has one command runner, busy or
not. A call runs until it returns or waits; while it waits, further calls may
be made, on top of it, and a command they try to issue is refused with a
fixed status because the runner is busy. When the command in flight
completes, the call that waits for it goes on. The completion of a command
and the return to the call that waits for it are one step here; a runner for
which they are two, with calls made in between, is a state machine of its own.

* `Machine.step` / `Machine.run` — the transition function on configurations
  and its runs; a step that is not possible changes nothing.
* `single_flight` — the busy test alone keeps at most one command in flight,
  whatever the procedures do.
* `Code.wp` — a weakest precondition under interference: at every wait the
  procedure gives up the world, and gets back some world that `during` relates
  to the one it left. This is rely–guarantee with the command as the only
  point where others run.
* `Good.run` — if every procedure satisfies its `wp` from an idle world and
  every nested call stays within `during`, then every run does: idle
  configurations satisfy the invariant and a crash is excluded.
-/

namespace Waiting

variable {ι σ ε κ ρ α β : Type}

/-- A call that waits for its command: what it still holds and how it goes on. -/
structure Frame (ι σ κ ρ : Type) where
  call : ι
  cmd : κ
  held : Int → List ρ
  next : Int → Code σ κ ρ Unit

/-- The state of the program between two steps. -/
structure Config (ι σ ε κ ρ : Type) where
  world : World σ ε
  /-- A command is running. -/
  running : Bool
  /-- The calls that wait, the innermost first. -/
  stack : List (Frame ι σ κ ρ)
  crashed : Bool

/-- Nothing waits and nothing runs. -/
def Config.idle (w : World σ ε) : Config ι σ ε κ ρ := ⟨w, false, [], false⟩

/-- The commands in flight. -/
def Config.inFlight (c : Config ι σ ε κ ρ) : List κ := c.stack.map Frame.cmd

/-- A program: the effect of its commands, the status of a refused one, the
procedure behind each call, and which calls can be made when. -/
structure Machine (ι σ ε κ ρ : Type) where
  effect : κ → Int → ε → ε
  refused : Int
  slot : ι → Code σ κ ρ Unit
  /-- Calls that can be made when nothing waits. -/
  opens : ι → Bool
  /-- `admits waiter i`: call `i` can be made while `waiter` waits. -/
  admits : ι → ι → Bool

/-- What happens next: a call is made, or the command in flight completes. -/
inductive Step (ι : Type) : Type
  | call (i : ι)
  | complete (status : Int)

namespace Machine

variable (M : Machine ι σ ε κ ρ)

/-- Execute code on behalf of call `i` until it returns, crashes or waits. -/
def enter (i : ι) : Code σ κ ρ Unit → Config ι σ ε κ ρ → Config ι σ ε κ ρ
  | .ret _, c => c
  | .read next, c => enter i (next c.world.mem) c
  | .write s next, c => enter i next { c with world := { c.world with mem := s } }
  | .wait cmd held next, c =>
    -- a command that is refused does not make its call wait
    if c.running then enter i (next M.refused) c
    else { c with running := true, stack := ⟨i, cmd, held, next⟩ :: c.stack }
  | .crash, c => { c with crashed := true }

/-- Whether call `i` can be made now. -/
def accepts (c : Config ι σ ε κ ρ) (i : ι) : Bool :=
  !c.crashed && (if c.stack.isEmpty then M.opens i else c.stack.all fun f => M.admits f.call i)

/-- One step. A completed command has its effect and the call that waited for
it goes on; the runner is free again. -/
def step (c : Config ι σ ε κ ρ) : Step ι → Config ι σ ε κ ρ
  | .call i => if M.accepts c i then M.enter i (M.slot i) c else c
  | .complete status =>
    match c.crashed, c.stack with
    | false, f :: rest =>
      M.enter f.call (f.next status)
        { c with
          world := { c.world with env := M.effect f.cmd status c.world.env }
          running := false
          stack := rest }
    | _, _ => c

/-- A run. -/
def run (c : Config ι σ ε κ ρ) (steps : List (Step ι)) : Config ι σ ε κ ρ := steps.foldl M.step c

theorem run_cons (c : Config ι σ ε κ ρ) (s : Step ι) (steps : List (Step ι)) :
    M.run c (s :: steps) = M.run (M.step c s) steps := rfl

/-- Every step of a run satisfies `P`, a condition on the configuration in
which the step is taken. -/
def AllSteps (P : Config ι σ ε κ ρ → Step ι → Prop) : Config ι σ ε κ ρ → List (Step ι) → Prop
  | _, [] => True
  | c, s :: steps => P c s ∧ AllSteps P (M.step c s) steps

theorem allSteps_true (c : Config ι σ ε κ ρ) (steps : List (Step ι)) :
    M.AllSteps (fun _ _ => True) c steps := by
  induction steps generalizing c with
  | nil => trivial
  | cons s steps ih => exact ⟨trivial, ih _⟩

/-! ## The busy test -/

/-- A command is in flight exactly when the runner is busy, and it is the only one. -/
def Single (c : Config ι σ ε κ ρ) : Prop :=
  c.stack.length = if c.running then 1 else 0

theorem enter_single (i : ι) (p : Code σ κ ρ Unit) {c : Config ι σ ε κ ρ} (h : Single c) :
    Single (M.enter i p c) := by
  induction p generalizing c with
  | ret a => exact h
  | read next ih => exact ih c.world.mem h
  | write s next ih => exact ih (c := { c with world := { c.world with mem := s } }) h
  | wait cmd held next ih =>
    unfold enter
    split
    · exact ih M.refused h
    · next hrun =>
      have h0 : c.stack.length = 0 := by simpa [Single, hrun] using h
      simp [Single, h0]
  | crash => exact h

theorem step_single {c : Config ι σ ε κ ρ} (h : Single c) (s : Step ι) : Single (M.step c s) := by
  cases s with
  | call i =>
    unfold step
    dsimp only
    split
    · exact M.enter_single i _ h
    · exact h
  | complete status =>
    unfold step
    dsimp only
    split
    · next f rest _ hs =>
      refine M.enter_single _ _ ?_
      -- the frame taken off was the only one
      have hlen : (f :: rest).length = if c.running then 1 else 0 := hs ▸ h
      show rest.length = 0
      rw [List.length_cons] at hlen
      split at hlen <;> omega
    · exact h

/-- At most one command is ever in flight. -/
theorem single_flight {c : Config ι σ ε κ ρ} (h : Single c) (steps : List (Step ι)) :
    Single (M.run c steps) := by
  induction steps generalizing c with
  | nil => exact h
  | cons s steps ih => exact ih (M.step_single h s)

theorem idle_single (w : World σ ε) : Single (Config.idle w : Config ι σ ε κ ρ) := rfl

/-- A call made while a command runs is the procedure executed alone with
every command refused. -/
theorem enter_running (hr : ∀ c e, M.effect c M.refused e = e) (i : ι) (p : Code σ κ ρ Unit)
    {c : Config ι σ ε κ ρ} (hc : c.running = true) {t : List (κ × Int)}
    {r : Unit × World σ ε × List (κ × Int)}
    (h : p.run M.effect (fun _ _ => M.refused) c.world t = some r) :
    M.enter i p c = { c with world := r.2.1 } := by
  induction p generalizing c t with
  | ret a =>
    rw [Code.run_ret] at h
    rw [← Option.some.inj h]
    rfl
  | read next ih => exact ih c.world.mem hc h
  | write s next ih =>
    exact ih (c := { c with world := { c.world with mem := s } }) hc h
  | wait cmd held next ih =>
    unfold enter
    rw [if_pos hc]
    refine ih M.refused hc (t := (cmd, M.refused) :: t) ?_
    rw [← h]
    show _ = (next M.refused).run M.effect _
      { c.world with env := M.effect cmd M.refused c.world.env } _
    rw [hr]
  | crash => exact absurd h (by simp)

end Machine

/-! ## Weakest preconditions under interference -/

/-- What the other calls may do while a command runs. -/
structure Interference (σ ε κ ρ : Type) where
  /-- `during c held w w'`: from `w`, where `c` was issued, the calls made
  while it runs may lead to `w'`. -/
  during : κ → (Int → List ρ) → World σ ε → World σ ε → Prop
  /-- What is known of the world when `c` completes with a status. -/
  ends : κ → (Int → List ρ) → Int → World σ ε → Prop
  /-- Whether a crash is tolerated. -/
  crashes : Prop

namespace Code

/-- From `w`, every way in which `p` can go on under the interference `I` ends
in a result and a world satisfying `Q`. -/
def wp (effect : κ → Int → ε → ε) (I : Interference σ ε κ ρ) :
    Code σ κ ρ α → (α → World σ ε → Prop) → World σ ε → Prop
  | .ret a, Q, w => Q a w
  | .read next, Q, w => (next w.mem).wp effect I Q w
  | .write s next, Q, w => next.wp effect I Q { w with mem := s }
  | .wait c held next, Q, w =>
    I.during c held w w ∧
      ∀ w' status, I.during c held w w' → I.ends c held status w' →
        (next status).wp effect I Q { w' with env := effect c status w'.env }
  | .crash, _, _ => I.crashes

variable {effect : κ → Int → ε → ε} {I : Interference σ ε κ ρ}

@[simp] theorem wp_get (Q : σ → World σ ε → Prop) (w : World σ ε) :
    (get : Code σ κ ρ σ).wp effect I Q w ↔ Q w.mem w := Iff.rfl

@[simp] theorem wp_crash (Q : α → World σ ε → Prop) (w : World σ ε) :
    (Code.crash : Code σ κ ρ α).wp effect I Q w ↔ I.crashes := Iff.rfl

/-- The rule of consequence. -/
theorem wp_mono {Q R : α → World σ ε → Prop} (hQR : ∀ a w, Q a w → R a w) {p : Code σ κ ρ α}
    {w : World σ ε} (h : p.wp effect I Q w) : p.wp effect I R w := by
  induction p generalizing w with
  | ret a => exact hQR a w h
  | read next ih => exact ih w.mem h
  | write s next ih => exact ih h
  | wait c held next ih =>
    exact ⟨h.1, fun w' status hd he => ih status (h.2 w' status hd he)⟩
  | crash => exact h

/-- The rule of sequence. -/
@[simp] theorem wp_bind (p : Code σ κ ρ α) (f : α → Code σ κ ρ β) (Q : β → World σ ε → Prop)
    (w : World σ ε) :
    (p.bind f).wp effect I Q w ↔ p.wp effect I (fun a w' => (f a).wp effect I Q w') w := by
  induction p generalizing w with
  | ret a => exact Iff.rfl
  | read next ih => exact ih w.mem w
  | write s next ih => exact ih { w with mem := s }
  | wait c held next ih =>
    constructor
    · intro h
      exact ⟨h.1, fun w' status hd he => (ih status _).mp (h.2 w' status hd he)⟩
    · intro h
      exact ⟨h.1, fun w' status hd he => (ih status _).mpr (h.2 w' status hd he)⟩
  | crash => exact Iff.rfl

/-- A procedure that issued no command ends where it ends alone, whatever the
interference. -/
theorem wp_of_run {o : Oracle κ} {Q : α → World σ ε → Prop} {p : Code σ κ ρ α} {w v : World σ ε}
    {t : List (κ × Int)} {a : α} (h : p.run effect o w t = some (a, v, t)) (hQ : Q a v) :
    p.wp effect I Q w := by
  induction p generalizing w with
  | ret b =>
    rw [run_ret] at h
    obtain ⟨rfl, rfl, -⟩ := by simpa using h
    exact hQ
  | read next ih => exact ih w.mem h
  | write s next ih => exact ih (w := { w with mem := s }) h
  | wait c held next ih =>
    -- the trace would be longer
    obtain ⟨issued, hi⟩ := run_trace effect o _ ((c, o t c) :: t) (next (o t c)) h
    have hlen := congrArg List.length hi
    simp only [List.length_append, List.length_cons] at hlen
    omega
  | crash => exact absurd h (by simp)

end Code

namespace Machine

/-- What a run keeps: an idle configuration satisfies the invariant `Idle`; in
a waiting one, whatever the interference allows, the waiting call can go on;
a crash only if the interference tolerates it. -/
inductive Good (M : Machine ι σ ε κ ρ) (I : Interference σ ε κ ρ) (Idle : World σ ε → Prop) :
    Config ι σ ε κ ρ → Prop
  | idle {w : World σ ε} (h : Idle w) : Good M I Idle (Config.idle w)
  | waiting {w₀ w : World σ ε} {f : Frame ι σ κ ρ} (hd : I.during f.cmd f.held w₀ w)
      (hn : ∀ w' status, I.during f.cmd f.held w₀ w' → I.ends f.cmd f.held status w' →
        (f.next status).wp M.effect I (fun _ => Idle)
          { w' with env := M.effect f.cmd status w'.env }) :
      Good M I Idle ⟨w, true, [f], false⟩
  | crashed {c : Config ι σ ε κ ρ} (hc : c.crashed = true) (h : I.crashes) : Good M I Idle c

variable {M : Machine ι σ ε κ ρ} {I : Interference σ ε κ ρ} {Idle : World σ ε → Prop}

/-- Code that satisfies its precondition leads to a good configuration. -/
theorem good_enter (i : ι) {p : Code σ κ ρ Unit} {w : World σ ε}
    (h : p.wp M.effect I (fun _ => Idle) w) : Good M I Idle (M.enter i p (Config.idle w)) := by
  induction p generalizing w with
  | ret a => exact .idle h
  | read next ih => exact ih w.mem h
  | write s next ih => exact ih (w := { w with mem := s }) h
  | wait cmd held next ih => exact .waiting (f := ⟨i, cmd, held, next⟩) h.1 h.2
  | crash => exact .crashed rfl h

/-- The obligations under which runs whose steps satisfy `P` stay good: calls
from an idle world satisfy their precondition; a nested call, its commands
refused, does not crash and stays within `during`; and `P` gives what
`ends` promises when a command completes. -/
structure Rules (M : Machine ι σ ε κ ρ) (I : Interference σ ε κ ρ) (Idle : World σ ε → Prop)
    (P : Config ι σ ε κ ρ → Step ι → Prop) : Prop where
  refused : ∀ c e, M.effect c M.refused e = e
  opened : ∀ i w, M.opens i = true → Idle w → (M.slot i).wp M.effect I (fun _ => Idle) w
  nested : ∀ (f : Frame ι σ κ ρ) i w₀ w, M.admits f.call i = true →
    I.during f.cmd f.held w₀ w → P ⟨w, true, [f], false⟩ (.call i) →
    ∃ r, (M.slot i).run M.effect (fun _ _ => M.refused) w [] = some r ∧
      I.during f.cmd f.held w₀ r.2.1
  completed : ∀ (f : Frame ι σ κ ρ) status w₀ w, I.during f.cmd f.held w₀ w →
    P ⟨w, true, [f], false⟩ (.complete status) → I.ends f.cmd f.held status w

theorem Good.step {P : Config ι σ ε κ ρ → Step ι → Prop} (R : Rules M I Idle P)
    {c : Config ι σ ε κ ρ} (h : Good M I Idle c) {s : Step ι} (hs : P c s) :
    Good M I Idle (M.step c s) := by
  cases h with
  | idle hw =>
    cases s with
    | call i =>
      unfold Machine.step
      dsimp only
      split
      · next ha =>
        have ho : M.opens i = true := by simpa [accepts, Config.idle] using ha
        exact good_enter i (R.opened i _ ho hw)
      · exact .idle hw
    | complete status => exact .idle hw
  | @waiting w₀ w f hd hn =>
    cases s with
    | call i =>
      unfold Machine.step
      dsimp only
      split
      · next ha =>
        have hadm : M.admits f.call i = true := by simpa [accepts] using ha
        -- a nested call runs to its end, its commands being refused
        obtain ⟨r, hr, hd'⟩ := R.nested f i w₀ w hadm hd hs
        rw [M.enter_running R.refused i _ (c := ⟨w, true, [f], false⟩) rfl hr]
        exact .waiting hd' hn
      · exact .waiting hd hn
    | complete status =>
      exact good_enter f.call (hn w status hd (R.completed f status w₀ w hd hs))
  | crashed hc hcr =>
    -- nothing happens after a crash
    have hsame : M.step c s = c := by
      cases s with
      | call i => simp [Machine.step, accepts, hc]
      | complete status => simp [Machine.step, hc]
    rw [hsame]
    exact .crashed hc hcr

/-- A run from a good configuration, all of whose steps satisfy the condition,
ends in a good configuration. -/
theorem Good.run {P : Config ι σ ε κ ρ → Step ι → Prop} (R : Rules M I Idle P)
    (steps : List (Step ι)) {c : Config ι σ ε κ ρ} (h : Good M I Idle c)
    (hs : M.AllSteps P c steps) : Good M I Idle (M.run c steps) := by
  induction steps generalizing c with
  | nil => exact h
  | cons s steps ih => exact ih (h.step R hs.1) hs.2

end Machine

end Waiting
