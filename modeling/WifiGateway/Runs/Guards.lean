/-!
# Runs whose steps meet a guard

A machine takes steps from a list. A run is `Guarded` if a guard holds of every step, in the state
in which it is taken. What guarded steps keep holds after a guarded run (`Guarded.inv`), and where
a step that does not meet the guard spoils what is wanted of the states, what is wanted holds all
along just if the run is guarded (`Guards.iff`).
-/

namespace Runs

variable {σ ε : Type} {step : σ → ε → σ} {guard : σ → ε → Prop} {Inv Good : σ → Prop} {s : σ}
  {es xs ys : List ε}

/-- The guard holds of every step of the run. -/
def Guarded (step : σ → ε → σ) (guard : σ → ε → Prop) : σ → List ε → Prop
  | _, [] => True
  | s, e :: es => guard s e ∧ Guarded step guard (step s e) es

/-- The beginning of a guarded run is guarded. -/
theorem Guarded.left (h : Guarded step guard s (xs ++ ys)) : Guarded step guard s xs := by
  induction xs generalizing s with
  | nil => trivial
  | cons x xs ih => exact ⟨h.1, ih h.2⟩

theorem Guarded.inv (h : Guarded step guard s es)
    (hkeeps : ∀ s e, Inv s → guard s e → Inv (step s e)) (hs : Inv s) :
    Inv (es.foldl step s) := by
  induction es generalizing s with
  | nil => exact hs
  | cons e es ih => exact ih h.2 (hkeeps s e hs h.1)

/-- The guard is what keeps the states good. -/
structure Guards (step : σ → ε → σ) (guard : σ → ε → Prop) (Inv Good : σ → Prop) : Prop where
  good : ∀ s, Inv s → Good s
  keeps : ∀ s e, Inv s → guard s e → Inv (step s e)
  breaks : ∀ s e, Inv s → ¬ guard s e → ¬ Good (step s e)

/-- Every state of the run is good just if the run is guarded. -/
theorem Guards.iff (h : Guards step guard Inv Good) (hs : Inv s) (es : List ε) :
    (∀ n, Good ((es.take n).foldl step s)) ↔ Guarded step guard s es := by
  induction es generalizing s with
  | nil => exact iff_of_true (fun n => by simpa using h.good s hs) trivial
  | cons e es ih =>
    constructor
    · intro hgood
      have he : guard s e := Classical.byContradiction fun he => h.breaks s e hs he (hgood 1)
      exact ⟨he, (ih (h.keeps s e hs he)).mp fun n => hgood (n + 1)⟩
    · rintro ⟨he, hrest⟩ n
      cases n with
      | zero => exact h.good s hs
      | succ n => exact (ih (h.keeps s e hs he)).mpr hrest n

end Runs
