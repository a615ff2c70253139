/-!
# Code that waits for commands

A single-threaded program whose procedures may start an external command and
wait for it in a nested event loop. `Code σ κ ρ α` is such a procedure as
syntax: it reads and writes a shared memory `σ`, waits for commands `κ`, and
returns an `α`. A memory error (a reference that is no longer valid) is
`crash`. While it waits, a procedure keeps references `ρ` into the memory in
its local variables; which of them it still uses depends on the exit status,
so `wait` carries them as a function of the status.

One text of a procedure has two readings, and this file gives the first:
`Code.run` executes it alone, an oracle choosing the exit status of each
command from the commands issued so far. `Machine.lean` gives the second, in
which other procedures are called while a command runs.

Nothing here depends on what the memory, the commands or the references are.
-/

namespace Waiting

/-- A procedure over the memory `σ` that issues commands `κ`, holds references
`ρ` and returns an `α`. `wait c held next` starts `c`, waits, and goes on with
`next status`, still using the references `held status`. -/
inductive Code (σ κ ρ α : Type) : Type
  | ret (a : α)
  | read (next : σ → Code σ κ ρ α)
  | write (s : σ) (next : Code σ κ ρ α)
  | wait (c : κ) (held : Int → List ρ) (next : Int → Code σ κ ρ α)
  | crash

/-- The memory of the program and the environment its commands act on. -/
structure World (σ ε : Type) where
  mem : σ
  env : ε

/-- The exit status of a command, given the commands issued before it by the
same call (the latest first) and their statuses. -/
abbrev Oracle (κ : Type) := List (κ × Int) → κ → Int

namespace Code

variable {σ κ ρ ε α β : Type}

/-- Run `p`, then `f` on its result. -/
def bind : Code σ κ ρ α → (α → Code σ κ ρ β) → Code σ κ ρ β
  | .ret a, f => f a
  | .read next, f => .read fun s => (next s).bind f
  | .write s next, f => .write s (next.bind f)
  | .wait c held next, f => .wait c held fun status => (next status).bind f
  | .crash, _ => .crash

instance : Monad (Code σ κ ρ) where
  pure := .ret
  bind := .bind

/-- The current memory. -/
def get : Code σ κ ρ σ := .read .ret

/-- Change the memory. -/
def modify (f : σ → σ) : Code σ κ ρ Unit := .read fun s => .write (f s) (.ret ())

/-- Issue a command and wait for its exit status. -/
def command (c : κ) (held : Int → List ρ) : Code σ κ ρ Int := .wait c held .ret

/-- Run `p` only under a condition. -/
def when (b : Prop) [Decidable b] (p : Code σ κ ρ Unit) : Code σ κ ρ Unit :=
  if b then p else .ret ()

/-- The caller keeps the references `refs` while `p` runs. -/
def holding (refs : List ρ) : Code σ κ ρ α → Code σ κ ρ α
  | .ret a => .ret a
  | .read next => .read fun s => (next s).holding refs
  | .write s next => .write s (next.holding refs)
  | .wait c held next =>
    .wait c (fun status => refs ++ held status) fun status => (next status).holding refs
  | .crash => .crash

/-! ## The monad, and what the caller holds -/

@[simp] theorem pure_eq (a : α) : (pure a : Code σ κ ρ α) = .ret a := rfl

@[simp] theorem bind_eq (p : Code σ κ ρ α) (f : α → Code σ κ ρ β) : p >>= f = p.bind f := rfl

@[simp] theorem holding_ret (refs : List ρ) (a : α) :
    (Code.ret a : Code σ κ ρ α).holding refs = .ret a := rfl

theorem bind_assoc {γ : Type} (p : Code σ κ ρ α) (f : α → Code σ κ ρ β) (g : β → Code σ κ ρ γ) :
    (p.bind f).bind g = p.bind fun a => (f a).bind g := by
  induction p with
  | ret a => rfl
  | read next ih => exact congrArg Code.read (funext fun s => ih s)
  | write s next ih => exact congrArg (Code.write s) ih
  | wait c held next ih => exact congrArg (Code.wait c held) (funext fun status => ih status)
  | crash => rfl

/-- Holding nothing. -/
theorem holding_nil (p : Code σ κ ρ α) : p.holding [] = p := by
  induction p with
  | ret a => rfl
  | read next ih => exact congrArg Code.read (funext fun s => ih s)
  | write s next ih => exact congrArg (Code.write s) ih
  | wait c held next ih => exact congrArg (Code.wait c held) (funext fun status => ih status)
  | crash => rfl

@[simp] theorem holding_get (refs : List ρ) : (get : Code σ κ ρ σ).holding refs = get := rfl

@[simp] theorem holding_modify (refs : List ρ) (f : σ → σ) :
    (modify f : Code σ κ ρ Unit).holding refs = modify f := rfl

@[simp] theorem holding_command (refs : List ρ) (c : κ) (held : Int → List ρ) :
    (command c held : Code σ κ ρ Int).holding refs
      = command c fun status => refs ++ held status := rfl

@[simp] theorem holding_when (refs : List ρ) (b : Prop) [Decidable b] (p : Code σ κ ρ Unit) :
    (when b p).holding refs = when b (p.holding refs) := by
  unfold when
  split
  · rfl
  · rfl

/-- A caller holds its references through every part of a sequence. -/
@[simp] theorem holding_bind (refs : List ρ) (p : Code σ κ ρ α) (f : α → Code σ κ ρ β) :
    (p.bind f).holding refs = (p.holding refs).bind fun a => (f a).holding refs := by
  induction p with
  | ret a => rfl
  | read next ih => exact congrArg Code.read (funext fun s => ih s)
  | write s next ih => exact congrArg (Code.write s) ih
  | wait c held next ih =>
    exact congrArg (Code.wait c fun status => refs ++ held status) (funext fun status => ih status)
  | crash => rfl

/-! ## One at a time -/

/-- Execute a procedure alone: each command completes, with the status the
oracle gives it and its `effect` on the environment, before anything else
happens. The result is the value, the world and the commands issued so far
(the latest first); `none` is a crash. -/
def run (effect : κ → Int → ε → ε) (o : Oracle κ) :
    Code σ κ ρ α → World σ ε → List (κ × Int) → Option (α × World σ ε × List (κ × Int))
  | .ret a, w, t => some (a, w, t)
  | .read next, w, t => (next w.mem).run effect o w t
  | .write s next, w, t => next.run effect o { w with mem := s } t
  | .wait c _ next, w, t =>
    (next (o t c)).run effect o { w with env := effect c (o t c) w.env } ((c, o t c) :: t)
  | .crash, _, _ => none

section Run

variable (effect : κ → Int → ε → ε) (o : Oracle κ) (w : World σ ε) (t : List (κ × Int))

@[simp] theorem run_ret (a : α) :
    (Code.ret a : Code σ κ ρ α).run effect o w t = some (a, w, t) := rfl

@[simp] theorem run_crash : (Code.crash : Code σ κ ρ α).run effect o w t = none := rfl

@[simp] theorem run_get :
    (get : Code σ κ ρ σ).run effect o w t = some (w.mem, w, t) := rfl

@[simp] theorem run_modify (f : σ → σ) :
    (modify f : Code σ κ ρ Unit).run effect o w t = some ((), { w with mem := f w.mem }, t) := rfl

theorem run_when {b : Prop} [Decidable b] (p : Code σ κ ρ Unit) :
    (when b p).run effect o w t = if b then p.run effect o w t else some ((), w, t) := by
  unfold when
  split
  · rfl
  · rfl

/-- A sequence runs its first part, then its second from where the first ended. -/
@[simp] theorem run_bind (p : Code σ κ ρ α) (f : α → Code σ κ ρ β) :
    (p.bind f).run effect o w t
      = (p.run effect o w t).bind fun r => (f r.1).run effect o r.2.1 r.2.2 := by
  induction p generalizing w t with
  | ret a => rfl
  | read next ih => exact ih w.mem w t
  | write s next ih => exact ih { w with mem := s } t
  | wait c held next ih => exact ih (o t c) _ _
  | crash => rfl

/-- What a caller holds does not change what runs. -/
@[simp] theorem run_holding (refs : List ρ) (p : Code σ κ ρ α) :
    (p.holding refs).run effect o w t = p.run effect o w t := by
  induction p generalizing w t with
  | ret a => rfl
  | read next ih => exact ih w.mem w t
  | write s next ih => exact ih { w with mem := s } t
  | wait c held next ih => exact ih (o t c) _ _
  | crash => rfl

/-- The commands issued are added in front of those already issued. -/
theorem run_trace (p : Code σ κ ρ α) {r : α × World σ ε × List (κ × Int)}
    (h : p.run effect o w t = some r) : ∃ issued, r.2.2 = issued ++ t := by
  induction p generalizing w t with
  | ret a =>
    rw [run_ret] at h
    exact ⟨[], by rw [← Option.some.inj h]; rfl⟩
  | read next ih => exact ih w.mem w t h
  | write s next ih => exact ih { w with mem := s } t h
  | wait c held next ih =>
    obtain ⟨issued, hi⟩ := ih (o t c) _ _ h
    exact ⟨issued ++ [(c, o t c)], by rw [hi, List.append_assoc]; rfl⟩
  | crash => exact absurd h (by simp)

/-- Every command of a trace (the latest first) got the status that the oracle gives it
there. -/
def Answered (o : Oracle κ) : List (κ × Int) → Prop
  | [] => True
  | (c, status) :: t => status = o t c ∧ Answered o t

theorem run_answered (p : Code σ κ ρ α) {r : α × World σ ε × List (κ × Int)}
    (ht : Answered o t) (h : p.run effect o w t = some r) : Answered o r.2.2 := by
  induction p generalizing w t with
  | ret a =>
    rw [run_ret] at h
    rw [← Option.some.inj h]
    exact ht
  | read next ih => exact ih w.mem w t ht h
  | write s next ih => exact ih { w with mem := s } t ht h
  | wait c held next ih =>
    have ht' : Answered o ((c, o t c) :: t) := ⟨rfl, ht⟩
    exact ih (o t c) _ _ ht' h
  | crash => exact absurd h (by simp)

end Run

/-! ## What a procedure leaves alone -/

/-- From the memory `s`, no write of the procedure changes what `f` reads; after a wait the
memory may be any. -/
def leavesFrom {τ : Type} (f : σ → τ) : Code σ κ ρ α → σ → Prop
  | .ret _, _ => True
  | .read next, s => (next s).leavesFrom f s
  | .write s' next, s => f s' = f s ∧ next.leavesFrom f s'
  | .wait _ _ next, _ => ∀ status s', (next status).leavesFrom f s'
  | .crash, _ => True

/-- The procedure leaves what `f` reads of the memory alone. -/
def Leaves {τ : Type} (f : σ → τ) (p : Code σ κ ρ α) : Prop := ∀ s, p.leavesFrom f s

section Leaves

variable {τ : Type} {f : σ → τ}

theorem leaves_ret (a : α) : (Code.ret a : Code σ κ ρ α).Leaves f := fun _ => trivial

theorem leaves_get : (get : Code σ κ ρ σ).Leaves f := fun _ => trivial

theorem leaves_crash : (Code.crash : Code σ κ ρ α).Leaves f := fun _ => trivial

theorem leaves_modify {g : σ → σ} (h : ∀ s, f (g s) = f s) :
    (modify g : Code σ κ ρ Unit).Leaves f := fun s => ⟨h s, trivial⟩

theorem leaves_command (c : κ) (held : Int → List ρ) :
    (command c held : Code σ κ ρ Int).Leaves f := fun _ _ _ => trivial

theorem Leaves.bind {p : Code σ κ ρ α} {q : α → Code σ κ ρ β} (hp : p.Leaves f)
    (hq : ∀ a, (q a).Leaves f) : (p.bind q).Leaves f := by
  intro s
  have hfrom := hp s
  clear hp
  induction p generalizing s with
  | ret a => exact hq a s
  | read next ih => exact ih s s hfrom
  | write s' next ih => exact ⟨hfrom.1, ih s' hfrom.2⟩
  | wait c held next ih => exact fun status s' => ih status s' (hfrom status s')
  | crash => trivial

theorem Leaves.when {b : Prop} [Decidable b] {p : Code σ κ ρ Unit} (hp : p.Leaves f) :
    (when b p).Leaves f := by
  unfold Code.when
  split
  · exact hp
  · exact leaves_ret ()

theorem Leaves.holding {refs : List ρ} {p : Code σ κ ρ α} (hp : p.Leaves f) :
    (p.holding refs).Leaves f := by
  intro s
  have hfrom := hp s
  clear hp
  induction p generalizing s with
  | ret a => trivial
  | read next ih => exact ih s s hfrom
  | write s' next ih => exact ⟨hfrom.1, ih s' hfrom.2⟩
  | wait c held next ih => exact fun status s' => ih status s' (hfrom status s')
  | crash => trivial

/-- Executed alone, it ends with what `f` reads as it was. -/
theorem Leaves.run {p : Code σ κ ρ α} (hp : p.Leaves f) {effect : κ → Int → ε → ε}
    {o : Oracle κ} {w : World σ ε} {t : List (κ × Int)} {r : α × World σ ε × List (κ × Int)}
    (h : p.run effect o w t = some r) : f r.2.1.mem = f w.mem := by
  have hfrom := hp w.mem
  clear hp
  induction p generalizing w t with
  | ret a =>
    rw [run_ret] at h
    rw [← Option.some.inj h]
  | read next ih => exact ih w.mem h hfrom
  | write s next ih => exact (ih (w := { w with mem := s }) h hfrom.2).trans hfrom.1
  | wait c held next ih =>
    exact ih (o t c) (w := { w with env := effect c (o t c) w.env }) h (hfrom (o t c) w.mem)
  | crash => exact absurd h (by simp)

end Leaves

end Code

end Waiting
