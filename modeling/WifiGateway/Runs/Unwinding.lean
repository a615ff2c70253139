/-!
# What an observer of a machine depends on

A machine takes inputs one at a time and gives an output for each. An observer has a
`view` of its states, `sees` some of its inputs, and hears the outputs of some that it sees.

`Unwinds` is the condition on single steps: an input that is not seen leaves the view as
it is, and one that is seen changes it as `vstep` says, from the view alone, and so does the
output. From it, by induction over the inputs, the view after a run and everything heard
during it are those of `vstep` on the inputs that are seen (`Unwinds.run`); two
runs that agree on these are the same to the observer (`Unwinds.agree`).
-/

namespace Runs

variable {σ τ ι ρ : Type}

/-- Take inputs one at a time: each with its output, and the state at the end. `none` is a
step that could not be taken. -/
def run (step : σ → ι → Option (ρ × σ)) : σ → List ι → Option (List (ι × ρ) × σ)
  | s, [] => some ([], s)
  | s, i :: rest =>
    match step s i with
    | none => none
    | some (r, s') => (run step s' rest).map fun out => ((i, r) :: out.1, out.2)

/-- The same for a machine that can take every step. -/
def vrun (vstep : τ → ι → ρ × τ) : τ → List ι → List (ι × ρ) × τ
  | v, [] => ([], v)
  | v, i :: rest =>
    let out := vrun vstep (vstep v i).2 rest
    ((i, (vstep v i).1) :: out.1, out.2)

/-- The machine, from states that satisfy `Inv`, is to the observer what `vstep` says. -/
structure Unwinds (Inv : σ → Prop) (step : σ → ι → Option (ρ × σ)) (view : σ → τ)
    (vstep : τ → ι → ρ × τ) (sees hears : ι → Bool) : Prop where
  next : ∀ s i, Inv s → ∃ r s', step s i = some (r, s') ∧ Inv s' ∧
    (sees i = true → view s' = (vstep (view s) i).2) ∧
    (sees i = false → view s' = view s) ∧ (hears i = true → r = (vstep (view s) i).1)
  sees_of_hears : ∀ i, hears i = true → sees i = true

namespace Unwinds

variable {Inv : σ → Prop} {step : σ → ι → Option (ρ × σ)} {view : σ → τ}
  {vstep : τ → ι → ρ × τ} {sees hears : ι → Bool}

/-- A run is, to the observer, the run of `vstep` on what is seen of its inputs. -/
theorem run (h : Unwinds Inv step view vstep sees hears) {s : σ} (hs : Inv s) (is : List ι) :
    ∃ out s', Runs.run step s is = some (out, s') ∧ Inv s' ∧
      view s' = (vrun vstep (view s) (is.filter sees)).2 ∧
      out.filter (fun e => hears e.1) =
        (vrun vstep (view s) (is.filter sees)).1.filter fun e => hears e.1 := by
  induction is generalizing s with
  | nil => exact ⟨[], s, rfl, hs, rfl, rfl⟩
  | cons i rest ih =>
    obtain ⟨r, s₁, hstep, hs₁, hseen, hunseen, hheard⟩ := h.next s i hs
    obtain ⟨out, s', hrun, hs', hview, hout⟩ := ih hs₁
    refine ⟨(i, r) :: out, s', by simp [Runs.run, hstep, hrun], hs', ?_, ?_⟩
    · cases hi : sees i with
      | true => rw [hview, hseen hi, List.filter_cons_of_pos hi, vrun]
      | false => rw [hview, hunseen hi, List.filter_cons_of_neg (by simp [hi])]
    · cases hi : sees i with
      | true =>
        rw [List.filter_cons_of_pos (p := sees) hi, vrun, List.filter_cons, List.filter_cons, hout,
          hseen hi]
        -- a heard output is that of the view
        split
        · next hh => rw [hheard hh]
        · rfl
      | false =>
        have hh : hears i = false := by
          cases hh : hears i with
          | false => rfl
          | true => exact absurd (h.sees_of_hears i hh) (by simp [hi])
        rw [List.filter_cons_of_neg (p := sees) (by simp [hi]),
          List.filter_cons_of_neg (by simp [hh]), hout, hunseen hi]

/-- Runs that agree on what is seen of their inputs are the same to the observer. -/
theorem agree (h : Unwinds Inv step view vstep sees hears) {s : σ} (hs : Inv s) {is js : List ι}
    (hsame : is.filter sees = js.filter sees) :
    ∃ out out' s₁ s₂, Runs.run step s is = some (out, s₁) ∧ Runs.run step s js = some (out', s₂) ∧
      view s₁ = view s₂ ∧
      out.filter (fun e => hears e.1) = out'.filter fun e => hears e.1 := by
  obtain ⟨out, s₁, hrun₁, -, hview₁, hout₁⟩ := h.run hs is
  obtain ⟨out', s₂, hrun₂, -, hview₂, hout₂⟩ := h.run hs js
  refine ⟨out, out', s₁, s₂, hrun₁, hrun₂, ?_, ?_⟩
  · rw [hview₁, hview₂, hsame]
  · rw [hout₁, hout₂, hsame]

end Unwinds

end Runs
