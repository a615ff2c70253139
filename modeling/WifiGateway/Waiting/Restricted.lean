import WifiGateway.Waiting.Deployed

/-!
# The same program with fewer calls

What is known of runs in which only some calls are made is often proved from rules that have to
hold of these calls only. `Machine.restrict` is the program that takes no others, and a run that
makes none is a run of it (`Machine.run_restrict`).
-/

namespace Waiting

variable {ι σ ε κ ρ : Type}

namespace Machine

variable {M : Machine ι σ ε κ ρ} {ok : ι → Bool} {c : Config ι σ ε κ ρ}

/-- The program that takes no calls but these. -/
def restrict (M : Machine ι σ ε κ ρ) (ok : ι → Bool) : Machine ι σ ε κ ρ where
  effect := M.effect
  refused := M.refused
  slot := M.slot
  opens i := M.opens i && ok i
  admits waiter i := M.admits waiter i && ok i

theorem enter_restrict (i : ι) (p : Code σ κ ρ Unit) :
    (M.restrict ok).enter i p c = M.enter i p c := by
  induction p generalizing c with
  | ret a => rfl
  | read next ih => exact ih c.world.mem
  | write s next ih => exact ih
  | wait cmd held next ih =>
    unfold enter
    split
    · exact ih M.refused
    · rfl
  | crash => rfl

theorem accepts_restrict {i : ι} (hi : ok i = true) :
    (M.restrict ok).accepts c i = M.accepts c i := by
  unfold accepts restrict
  simp only [hi, Bool.and_true]

/-- A run that makes only these calls. -/
theorem run_restrict {steps : List (Step ι)} (h : ∀ s ∈ steps, s.Only fun i => ok i = true) :
    (M.restrict ok).run c steps = M.run c steps := by
  induction steps generalizing c with
  | nil => rfl
  | cons s steps ih =>
    obtain ⟨hs, hrest⟩ := List.forall_mem_cons.mp h
    have hstep : (M.restrict ok).step c s = M.step c s := by
      cases s with
      | call i =>
        unfold step
        dsimp only
        rw [accepts_restrict hs, enter_restrict]
        rfl
      | complete status =>
        unfold step
        dsimp only
        split
        · exact enter_restrict ..
        · rfl
    rw [run_cons, run_cons, hstep, ih hrest]

end Machine

end Waiting
