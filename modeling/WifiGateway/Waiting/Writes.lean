import WifiGateway.Waiting.Deployed

/-!
# What procedures write

Other procedures run at the waits of a procedure, so what the memory is at its end says nothing
about what it did itself. `Code.Writes R` does: each of its writes is a step of the relation `R`,
whatever the memory is after a wait.

If what a call does until it waits is the change of that call (`R [i]`), and whatever waits goes on
with changes of no call (`R []`), then a run changes the memory as its calls do one after the
other in the order in which they are made, however they are nested (`Machine.run_linear`): no
change is lost, and none is made twice.
-/

namespace Waiting

variable {ι σ ε κ ρ α β : Type}

namespace Code

/-- From the memory `s`: every write is a step of `R`; after a wait the memory may be any. -/
def writesFrom (R : σ → σ → Prop) : Code σ κ ρ α → σ → Prop
  | .ret _, _ => True
  | .read next, s => (next s).writesFrom R s
  | .write s' next, s => R s s' ∧ next.writesFrom R s'
  | .wait _ _ next, _ => ∀ status s', (next status).writesFrom R s'
  | .crash, _ => True

/-- Every write of the procedure is a step of `R`. -/
def Writes (R : σ → σ → Prop) (p : Code σ κ ρ α) : Prop := ∀ s, p.writesFrom R s

variable {R : σ → σ → Prop} {p : Code σ κ ρ α}

theorem writes_ret (a : α) : (Code.ret a : Code σ κ ρ α).Writes R := fun _ => trivial

theorem writes_crash : (Code.crash : Code σ κ ρ α).Writes R := fun _ => trivial

theorem writes_get : (get : Code σ κ ρ σ).Writes R := fun _ => trivial

theorem writes_modify {f : σ → σ} (h : ∀ s, R s (f s)) :
    (modify f : Code σ κ ρ Unit).Writes R := fun s => ⟨h s, trivial⟩

theorem writes_command (c : κ) (held : Int → List ρ) :
    (command c held : Code σ κ ρ Int).Writes R := fun _ _ _ => trivial

theorem writesFrom_bind {f : α → Code σ κ ρ β} {s : σ} (hp : p.writesFrom R s)
    (hf : ∀ a, (f a).Writes R) : (p.bind f).writesFrom R s := by
  induction p generalizing s with
  | ret a => exact hf a s
  | read next ih => exact ih s hp
  | write s' next ih => exact ⟨hp.1, ih hp.2⟩
  | wait c held next ih => exact fun status s' => ih status (hp status s')
  | crash => trivial

theorem Writes.bind {f : α → Code σ κ ρ β} (hp : p.Writes R) (hf : ∀ a, (f a).Writes R) :
    (p.bind f).Writes R := fun s => writesFrom_bind (hp s) hf

theorem Writes.when {b : Prop} [Decidable b] {p : Code σ κ ρ Unit} (hp : p.Writes R) :
    (when b p).Writes R := by
  unfold Code.when
  split
  · exact hp
  · exact writes_ret ()

theorem Writes.holding {refs : List ρ} (hp : p.Writes R) : (p.holding refs).Writes R := by
  intro s
  have hfrom := hp s
  clear hp
  induction p generalizing s with
  | ret a => trivial
  | read next ih => exact ih s s hfrom
  | write s' next ih => exact ⟨hfrom.1, ih s' hfrom.2⟩
  | wait c held next ih => exact fun status s' => ih status s' (hfrom status s')
  | crash => trivial

end Code

/-- Changes that calls make, one after the other: no call makes no change, and changes add up. -/
structure Linear (R : List ι → σ → σ → Prop) : Prop where
  refl : ∀ s, R [] s s
  trans : ∀ {xs ys : List ι} {s₁ s₂ s₃ : σ}, R xs s₁ s₂ → R ys s₂ s₃ → R (xs ++ ys) s₁ s₃

/-- The calls that steps make, in order. -/
def Step.calls : List (Step ι) → List ι
  | [] => []
  | .call i :: steps => i :: calls steps
  | .complete _ :: steps => calls steps

namespace Machine

/-- Whatever waits goes on with steps of `R`. -/
def Waits (R : σ → σ → Prop) (c : Config ι σ ε κ ρ) : Prop :=
  ∀ f ∈ c.stack, ∀ status, (f.next status).Writes R

variable {M : Machine ι σ ε κ ρ} {R : List ι → σ → σ → Prop} {c : Config ι σ ε κ ρ}

/-- A procedure that writes steps of no call makes such a change until it waits. -/
theorem enter_writes (hR : Linear R) (i : ι) {p : Code σ κ ρ Unit} (hc : Waits (R []) c)
    (hp : p.writesFrom (R []) c.world.mem) :
    R [] c.world.mem (M.enter i p c).world.mem ∧ Waits (R []) (M.enter i p c) := by
  induction p generalizing c with
  | ret a => exact ⟨hR.refl _, hc⟩
  | read next ih => exact ih c.world.mem hc hp
  | write s next ih =>
    obtain ⟨hs, hnext⟩ := hp
    obtain ⟨hrest, hwaits⟩ := ih (c := { c with world := { c.world with mem := s } }) hc hnext
    exact ⟨hR.trans hs hrest, hwaits⟩
  | wait cmd held next ih =>
    unfold enter
    split
    · exact ih M.refused hc (hp M.refused c.world.mem)
    · exact ⟨hR.refl _, List.forall_mem_cons.mpr ⟨fun status s' => hp status s', hc⟩⟩
  | crash => exact ⟨hR.refl _, hc⟩

/-- A first part that, executed alone, issues no command does the same when it is called, whatever
else waits. -/
theorem enter_bind_of_run {effect : κ → Int → ε → ε} {o : Oracle κ} (i : ι) {p : Code σ κ ρ α}
    {f : α → Code σ κ ρ Unit} {a : α} {w : World σ ε} {t : List (κ × Int)}
    (h : p.run effect o c.world t = some (a, w, t)) :
    M.enter i (p.bind f) c = M.enter i (f a) { c with world := w } := by
  induction p generalizing c with
  | ret b =>
    obtain ⟨rfl, rfl, -⟩ := by simpa using h
    rfl
  | read next ih => exact ih c.world.mem h
  | write s next ih => exact ih (c := { c with world := { c.world with mem := s } }) h
  | wait cmd held next ih =>
    -- the trace would be longer
    obtain ⟨issued, hi⟩ := Code.run_trace effect o _ ((cmd, o t cmd) :: t) (next (o t cmd)) h
    have hlen := congrArg List.length hi
    simp only [List.length_append, List.length_cons] at hlen
    omega
  | crash => exact absurd h (by simp)

/-- What a step changes is what the call in it changes. -/
theorem step_linear (hR : Linear R) (hc : Waits (R []) c) {s : Step ι}
    (hcall : ∀ i, s = .call i → M.accepts c i = true →
      R [i] c.world.mem (M.enter i (M.slot i) c).world.mem ∧
        Waits (R []) (M.enter i (M.slot i) c))
    (hrefused : ∀ i, s = .call i → M.accepts c i = false → R [i] c.world.mem c.world.mem) :
    R (Step.calls [s]) c.world.mem (M.step c s).world.mem ∧ Waits (R []) (M.step c s) := by
  cases s with
  | call i =>
    unfold Machine.step
    dsimp only
    split
    · next ha => exact hcall i rfl ha
    · next ha => exact ⟨hrefused i rfl (Bool.eq_false_iff.mpr ha), hc⟩
  | complete status =>
    simp only [Machine.step]
    split
    · next f rest hcrash hstack =>
      have hwaits : Waits (R []) { c with
          world := { c.world with env := M.effect f.cmd status c.world.env }
          running := false
          stack := rest } := fun g hg => hc g (hstack ▸ List.mem_cons_of_mem f hg)
      exact enter_writes hR f.call hwaits
        (hc f (hstack ▸ List.mem_cons_self) status c.world.mem)
    · exact ⟨hR.refl _, hc⟩

theorem calls_cons (s : Step ι) (steps : List (Step ι)) :
    Step.calls (s :: steps) = Step.calls [s] ++ Step.calls steps := by
  cases s with
  | call i => rfl
  | complete status => rfl

/-- Nothing happens after a crash. -/
theorem run_crashed (hc : c.crashed = true) (steps : List (Step ι)) : M.run c steps = c := by
  induction steps with
  | nil => rfl
  | cons s steps ih =>
    have hsame : M.step c s = c := by
      cases s with
      | call i => simp [Machine.step, accepts, hc]
      | complete status => simp [Machine.step, hc]
    rw [run_cons, hsame, ih]

/-- A run that does not crash has not crashed before. -/
theorem not_crashed {steps : List (Step ι)} (h : (M.run c steps).crashed = false) :
    c.crashed = false := by
  cases hc : c.crashed with
  | false => rfl
  | true =>
    rw [run_crashed hc] at h
    exact absurd (hc.symm.trans h) (by simp)

/-- In every run that does not crash, the memory changes by what its calls change, one after the
other in the order in which they are made; `I` is what is known of the configurations. -/
theorem run_linear (hR : Linear R) {I : Config ι σ ε κ ρ → Prop}
    (hI : ∀ c s, I c → I (M.step c s))
    (hcall : ∀ c i, I c → c.crashed = false → Waits (R []) c →
      R [i] c.world.mem (M.enter i (M.slot i) c).world.mem ∧
        Waits (R []) (M.enter i (M.slot i) c))
    (hrefused : ∀ c i, c.crashed = false → M.accepts c i = false →
      R [i] c.world.mem c.world.mem)
    {steps : List (Step ι)} (hc : I c) (hwaits : Waits (R []) c)
    (hcrash : (M.run c steps).crashed = false) :
    R (Step.calls steps) c.world.mem (M.run c steps).world.mem ∧
      Waits (R []) (M.run c steps) := by
  induction steps generalizing c with
  | nil => exact ⟨hR.refl _, hwaits⟩
  | cons s steps ih =>
    have hnow : c.crashed = false := not_crashed hcrash
    obtain ⟨hstep, hwaits'⟩ := step_linear hR hwaits
      (fun i _ _ => hcall c i hc hnow hwaits) fun i (_ : s = .call i) => hrefused c i hnow
    obtain ⟨hrest, hend⟩ := ih (hI c s hc) hwaits' hcrash
    rw [calls_cons]
    exact ⟨hR.trans hstep hrest, hend⟩

end Machine

end Waiting
