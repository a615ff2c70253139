import WifiGateway.Waiting.Machine

/-!
# The same program in another environment

A program knows its environment only by the statuses of its commands. `Machine.on` is the
program of a machine with commands that act on another environment, a more detailed one. There a
command reports its status itself: `perform` gives what it reports and what it leaves, for each way
in which it may fare. A run of moves (`Machine.runMoves`) is seen by the program as a run of steps
(`Machine.stepsOf`).

If every command that fares well takes related environments to related ones, then the run and what
the program sees of it go hand in hand (`Machine.runMoves_related`); and if no other one does, then
they do just as long as every command fares well (`Machine.allEnds_iff`).

A command need only do so if it is one that the program really issues. Which these are follows
from what the program keeps in its memory: `Code.Stays` says that a procedure keeps `J` of the
memory and issues only commands of which `P` holds, even if others that keep `J` run at its
waits.
-/

namespace Waiting

variable {ι σ ε η κ ρ φ α β : Type} {J : σ → Prop} {P : κ → Prop}

namespace Code

/-- From the memory `s`: `J` holds of it at every wait and at the end, `P` of every command,
and `Q` of the result; after a wait the memory is any of which `J` holds. -/
def staysFrom (J : σ → Prop) (P : κ → Prop) (Q : α → Prop) : Code σ κ ρ α → σ → Prop
  | .ret a, s => J s ∧ Q a
  | .read next, s => (next s).staysFrom J P Q s
  | .write s' next, _ => next.staysFrom J P Q s'
  | .wait c _ next, s => J s ∧ P c ∧ ∀ status s', J s' → (next status).staysFrom J P Q s'
  | .crash, _ => True

/-- The procedure keeps `J`, issues commands of which `P` holds, and returns what `Q` holds of. -/
def Stays (J : σ → Prop) (P : κ → Prop) (p : Code σ κ ρ α) (Q : α → Prop) : Prop :=
  ∀ s, J s → p.staysFrom J P Q s

variable {p : Code σ κ ρ α} {Q : α → Prop}

theorem stays_ret {a : α} (h : Q a) : (Code.ret a : Code σ κ ρ α).Stays J P Q := fun _ hs => ⟨hs, h⟩

theorem stays_crash : (Code.crash : Code σ κ ρ α).Stays J P Q := fun _ _ => trivial

/-- The memory that a procedure reads is one of which `J` holds. -/
theorem stays_get : (get : Code σ κ ρ σ).Stays J P J := fun _ hs => ⟨hs, hs⟩

theorem stays_modify {f : σ → σ} (h : ∀ s, J s → J (f s)) :
    (modify f : Code σ κ ρ Unit).Stays J P fun _ => True := fun s hs => ⟨h s hs, trivial⟩

theorem stays_command {c : κ} {held : Int → List ρ} (h : P c) :
    (command c held : Code σ κ ρ Int).Stays J P fun _ => True :=
  fun _ hs => ⟨hs, h, fun _ _ hs' => ⟨hs', trivial⟩⟩

/-- The same, of more commands. -/
theorem Stays.weaken {P' : κ → Prop} (h : p.Stays J P Q) (hP : ∀ c, P c → P' c) :
    p.Stays J P' Q := by
  intro s hs
  have hfrom := h s hs
  clear h hs
  induction p generalizing s with
  | ret a => exact hfrom
  | read next ih => exact ih s s hfrom
  | write s' next ih => exact ih s' hfrom
  | wait c held next ih =>
    exact ⟨hfrom.1, hP c hfrom.2.1, fun status s' hs' => ih status s' (hfrom.2.2 status s' hs')⟩
  | crash => trivial

theorem Stays.bind {f : α → Code σ κ ρ β} {Q' : β → Prop} (hp : p.Stays J P Q)
    (hf : ∀ a, Q a → (f a).Stays J P Q') : (p.bind f).Stays J P Q' := by
  intro s hs
  have hfrom := hp s hs
  clear hp hs
  induction p generalizing s with
  | ret a => exact hf a hfrom.2 s hfrom.1
  | read next ih => exact ih s s hfrom
  | write s' next ih => exact ih s' hfrom
  | wait c held next ih =>
    exact ⟨hfrom.1, hfrom.2.1, fun status s' hs' => ih status s' (hfrom.2.2 status s' hs')⟩
  | crash => trivial

/-- One after the other, the second whatever the first returns. -/
theorem Stays.andThen {f : α → Code σ κ ρ β} {Q' : β → Prop} (hp : p.Stays J P fun _ => True)
    (hf : ∀ a, (f a).Stays J P Q') : (p.bind f).Stays J P Q' := hp.bind fun a _ => hf a

theorem Stays.when {b : Prop} [Decidable b] {p : Code σ κ ρ Unit}
    (hp : p.Stays J P fun _ => True) : (when b p).Stays J P fun _ => True := by
  unfold Code.when
  split
  · exact hp
  · exact stays_ret trivial

theorem Stays.holding {refs : List ρ} (hp : p.Stays J P Q) : (p.holding refs).Stays J P Q := by
  intro s hs
  have hfrom := hp s hs
  clear hp hs
  induction p generalizing s with
  | ret a => exact hfrom
  | read next ih => exact ih s s hfrom
  | write s' next ih => exact ih s' hfrom
  | wait c held next ih =>
    exact ⟨hfrom.1, hfrom.2.1, fun status s' hs' => ih status s' (hfrom.2.2 status s' hs')⟩
  | crash => trivial

/-- A procedure that is run alone: it keeps `J`, and its commands act one after the other. -/
theorem Stays.run_issued {effect : κ → Int → ε → ε} {o : Oracle κ} {w : World σ ε}
    {t : List (κ × Int)} {r : α × World σ ε × List (κ × Int)} (h : p.Stays J P Q) (hmem : J w.mem)
    (hrun : p.run effect o w t = some r) :
    ∃ issued, r.2.2 = issued ++ t ∧ J r.2.1.mem ∧ (∀ c ∈ issued, P c.1) ∧
      r.2.1.env = issued.foldr (fun c e => effect c.1 c.2 e) w.env := by
  have hfrom := h w.mem hmem
  clear h hmem
  induction p generalizing w t with
  | ret a =>
    obtain rfl := Option.some.inj hrun
    exact ⟨[], rfl, hfrom.1, fun c hc => absurd hc List.not_mem_nil, rfl⟩
  | read next ih => exact ih w.mem hrun hfrom
  | write s next ih => exact ih (w := { w with mem := s }) hrun hfrom
  | wait c held next ih =>
    obtain ⟨hmem, hc, hnext⟩ := hfrom
    obtain ⟨issued, htrace, hmem', hissued, henv⟩ :=
      ih (o t c) hrun (hnext (o t c) w.mem hmem)
    refine ⟨issued ++ [(c, o t c)], ?_, hmem', ?_, ?_⟩
    · rw [htrace, List.append_assoc]
      rfl
    · intro x hx
      rcases List.mem_append.mp hx with hx | hx
      · exact hissued x hx
      · obtain rfl := List.mem_singleton.mp hx
        exact hc
    · rw [henv, List.foldr_append]
      rfl
  | crash => exact absurd hrun (by simp)

end Code

/-- A step that makes no call but those that `ok` allows. -/
def Step.Only (ok : ι → Prop) : Step ι → Prop
  | .call i => ok i
  | .complete _ => True

/-- What happens next to a program whose commands report how they end: a call is made, or the
command in flight ends, having fared in some way. -/
inductive Move (ι φ : Type) : Type
  | call (i : ι)
  | ends (fate : φ)

/-- A move that makes no call but those that `ok` allows. -/
def Move.Only (ok : ι → Prop) : Move ι φ → Prop
  | .call i => ok i
  | .ends _ => True

/-- A call that waits for a command of which `P` holds, and keeps `J` from there on. -/
def Frame.Stays (J : σ → Prop) (P : κ → Prop) (f : Frame ι σ κ ρ) : Prop :=
  P f.cmd ∧ ∀ status, (f.next status).Stays J P fun _ => True

namespace Machine

/-- `J` holds of the memory and all calls that wait keep it. -/
structure Orderly (J : σ → Prop) (P : κ → Prop) (c : Config ι σ ε κ ρ) : Prop where
  memory : c.crashed = false → J c.world.mem
  waiting : ∀ f ∈ c.stack, f.Stays J P

/-- The calls that `ok` allows keep `J` and issue commands of which `P` holds. -/
def Issues (M : Machine ι σ ε κ ρ) (J : σ → Prop) (P : κ → Prop) (ok : ι → Prop) : Prop :=
  ∀ i, ok i → (M.slot i).Stays J P fun _ => True

/-- The program of a machine, with commands that act on another environment. -/
def on (M : Machine ι σ ε κ ρ) (effect : κ → Int → η → η) : Machine ι σ η κ ρ where
  effect := effect
  refused := M.refused
  slot := M.slot
  opens := M.opens
  admits := M.admits

/-- The same in memory and in flight, and environments that are related. -/
structure Related (R : ε → η → Prop) (c : Config ι σ ε κ ρ) (d : Config ι σ η κ ρ) : Prop where
  mem : d.world.mem = c.world.mem
  env : R c.world.env d.world.env
  running : d.running = c.running
  stack : d.stack = c.stack
  crashed : d.crashed = c.crashed

variable {M : Machine ι σ ε κ ρ} {effect : κ → Int → η → η} {R : ε → η → Prop} {ok : ι → Prop}
  {c : Config ι σ ε κ ρ} {d : Config ι σ η κ ρ}

theorem enter_orderly (i : ι) {p : Code σ κ ρ Unit} (hstack : ∀ f ∈ c.stack, f.Stays J P)
    (hp : p.staysFrom J P (fun _ => True) c.world.mem) : Orderly J P (M.enter i p c) := by
  induction p generalizing c with
  | ret a => exact ⟨fun _ => hp.1, hstack⟩
  | read next ih => exact ih c.world.mem hstack hp
  | write s next ih => exact ih (c := { c with world := { c.world with mem := s } }) hstack hp
  | wait cmd held next ih =>
    obtain ⟨hmem, hcmd, hnext⟩ := hp
    unfold enter
    split
    · exact ih M.refused hstack (hnext M.refused c.world.mem hmem)
    · refine ⟨fun _ => hmem, fun f hf => ?_⟩
      rcases List.mem_cons.mp hf with rfl | hf
      · exact ⟨hcmd, fun status s' hs' => hnext status s' hs'⟩
      · exact hstack f hf
  | crash => exact ⟨fun hcrash => absurd hcrash (by simp [enter]), hstack⟩

/-- A step keeps what the procedures keep. -/
theorem Orderly.step (hM : M.Issues J P ok) (h : Orderly J P c) {s : Step ι} (hs : s.Only ok) :
    Orderly J P (M.step c s) := by
  cases s with
  | call i =>
    unfold Machine.step
    dsimp only
    split
    · next ha =>
      have hcrash : c.crashed = false := by
        simp only [accepts, Bool.and_eq_true, Bool.not_eq_true'] at ha
        exact ha.1
      exact enter_orderly i h.waiting (hM i hs _ (h.memory hcrash))
    · exact h
  | complete status =>
    simp only [Machine.step]
    split
    · next f rest hcrash hstack =>
      have hwaiting := h.waiting
      rw [hstack] at hwaiting
      obtain ⟨hf, hrest⟩ := List.forall_mem_cons.mp hwaiting
      exact enter_orderly f.call hrest (hf.2 status _ (h.memory hcrash))
    · exact h

/-! ## Two environments -/

/-- Only the end of a command changes the environment. -/
theorem enter_env (i : ι) (p : Code σ κ ρ Unit) : (M.enter i p c).world.env = c.world.env := by
  induction p generalizing c with
  | ret a => rfl
  | read next ih => exact ih c.world.mem
  | write s next ih => exact ih (c := { c with world := { c.world with mem := s } })
  | wait cmd held next ih =>
    unfold enter
    split
    · exact ih M.refused
    · rfl
  | crash => rfl

theorem enter_related (i : ι) (p : Code σ κ ρ Unit) (h : Related R c d) :
    Related R (M.enter i p c) ((M.on effect).enter i p d) := by
  induction p generalizing c d with
  | ret a => exact h
  | read next ih =>
    unfold enter
    rw [h.mem]
    exact ih c.world.mem h
  | write s next ih => exact ih ⟨rfl, h.env, h.running, h.stack, h.crashed⟩
  | wait cmd held next ih =>
    unfold enter
    rw [h.running]
    split
    · exact ih M.refused h
    · exact ⟨h.mem, h.env, rfl, congrArg _ h.stack, h.crashed⟩
  | crash => exact ⟨h.mem, h.env, h.running, h.stack, rfl⟩

/-- A step of the one machine and the same step of the other. -/
theorem step_related (h : Related R c d) {s : Step ι}
    (hR : ∀ f rest status, s = .complete status → d.crashed = false → d.stack = f :: rest →
      R (M.effect f.cmd status c.world.env) (effect f.cmd status d.world.env)) :
    Related R (M.step c s) ((M.on effect).step d s) := by
  cases s with
  | call i =>
    have haccepts : (M.on effect).accepts d i = M.accepts c i := by
      unfold accepts
      rw [h.crashed, h.stack]
      rfl
    unfold Machine.step
    dsimp only
    rw [haccepts]
    split
    · exact enter_related i (M.slot i) h
    · exact h
  | complete status =>
    simp only [Machine.step, h.crashed, h.stack]
    cases hcrash : c.crashed with
    | true => exact h
    | false =>
      cases hstack : c.stack with
      | nil => exact h
      | cons f rest =>
        have henv := hR f rest status rfl (h.crashed.trans hcrash) (h.stack.trans hstack)
        exact enter_related f.call (f.next status) ⟨h.mem, henv, rfl, rfl, rfl⟩

/-! ## Commands that report -/

/-- The step that the program sees: a command that ends completes with the status it reports. -/
def seen (perform : κ → φ → η → Int × η) (d : Config ι σ η κ ρ) : Move ι φ → Step ι
  | .call i => .call i
  | .ends fate =>
    match d.stack with
    | [] => .complete 0
    | f :: _ => .complete (perform f.cmd fate d.world.env).1

/-- One move. A command that ends leaves what it has made of the environment, and the call that
waited for it goes on with what it reports. -/
def move (M : Machine ι σ ε κ ρ) (perform : κ → φ → η → Int × η) (d : Config ι σ η κ ρ)
    (m : Move ι φ) : Config ι σ η κ ρ :=
  let effect : κ → Int → η → η := fun cmd _ n =>
    match m with
    | .call _ => n
    | .ends fate => (perform cmd fate n).2
  (M.on effect).step d (seen perform d m)

/-- A run of moves. -/
def runMoves (M : Machine ι σ ε κ ρ) (perform : κ → φ → η → Int × η) (d : Config ι σ η κ ρ)
    (moves : List (Move ι φ)) : Config ι σ η κ ρ := moves.foldl (M.move perform) d

/-- The run that the program sees. -/
def stepsOf (M : Machine ι σ ε κ ρ) (perform : κ → φ → η → Int × η) :
    Config ι σ η κ ρ → List (Move ι φ) → List (Step ι)
  | _, [] => []
  | d, m :: moves => seen perform d m :: stepsOf M perform (M.move perform d m) moves

/-- If a command ends with this move, it is one that fares as `Q` says. -/
def EndsAs (Q : κ → φ → η → Prop) (d : Config ι σ η κ ρ) : Move ι φ → Prop
  | .call _ => True
  | .ends fate => d.crashed = false → ∀ f rest, d.stack = f :: rest → Q f.cmd fate d.world.env

/-- Every command that ends in the run fares as `Q` says. -/
def AllEnds (M : Machine ι σ ε κ ρ) (perform : κ → φ → η → Int × η) (Q : κ → φ → η → Prop) :
    Config ι σ η κ ρ → List (Move ι φ) → Prop
  | _, [] => True
  | d, m :: moves => EndsAs Q d m ∧ AllEnds M perform Q (M.move perform d m) moves

variable {perform : κ → φ → η → Int × η} {Q : κ → φ → η → Prop} {S : ε → η → Prop}
  {m : Move ι φ} {moves : List (Move ι φ)}

theorem stepsOf_append (d : Config ι σ η κ ρ) (moves moves' : List (Move ι φ)) :
    M.stepsOf perform d (moves ++ moves') =
      M.stepsOf perform d moves ++ M.stepsOf perform (M.runMoves perform d moves) moves' := by
  induction moves generalizing d with
  | nil => rfl
  | cons m moves ih => exact congrArg (seen perform d m :: ·) (ih _)

theorem allEnds_append {moves' : List (Move ι φ)} :
    M.AllEnds perform Q d (moves ++ moves') ↔
      M.AllEnds perform Q d moves ∧ M.AllEnds perform Q (M.runMoves perform d moves) moves' := by
  induction moves generalizing d with
  | nil => exact (true_and (M.AllEnds perform Q d moves')).to_iff.symm
  | cons m moves ih => exact (and_congr_right fun _ => ih).trans and_assoc.symm

theorem allEnds_true (d : Config ι σ η κ ρ) (moves : List (Move ι φ)) :
    M.AllEnds perform (fun _ _ _ => True) d moves := by
  induction moves generalizing d with
  | nil => trivial
  | cons m moves ih =>
    refine ⟨?_, ih _⟩
    cases m with
    | call i => trivial
    | ends fate => exact fun _ _ _ _ => trivial

theorem seen_only (h : m.Only ok) : (seen perform d m).Only ok := by
  cases m with
  | call i => exact h
  | ends fate =>
    unfold Machine.seen
    dsimp only
    split
    · trivial
    · trivial

theorem stepsOf_only (h : ∀ m ∈ moves, m.Only ok) :
    ∀ s ∈ M.stepsOf perform d moves, s.Only ok := by
  induction moves generalizing d with
  | nil => exact fun s hs => absurd hs List.not_mem_nil
  | cons m moves ih =>
    obtain ⟨hm, hrest⟩ := List.forall_mem_cons.mp h
    exact List.forall_mem_cons.mpr ⟨seen_only hm, ih hrest⟩

/-- What the program sees of the end of a command is related to what it was. -/
theorem move_related (h : Related R c d)
    (hR : ∀ f rest fate, m = .ends fate → d.crashed = false → d.stack = f :: rest →
      R (M.effect f.cmd (perform f.cmd fate d.world.env).1 c.world.env)
        (perform f.cmd fate d.world.env).2) :
    Related R (M.step c (seen perform d m)) (M.move perform d m) := by
  refine step_related h fun f rest status hs hcrash hstack => ?_
  cases m with
  | call i => exact absurd hs (by simp [seen])
  | ends fate =>
    simp only [seen, hstack, Step.complete.injEq] at hs
    rw [← hs]
    exact hR f rest fate rfl hcrash hstack

/-- The environment after a command has ended. -/
theorem move_ends_env {f : Frame ι σ κ ρ} {rest : List (Frame ι σ κ ρ)} (fate : φ)
    (hcrash : d.crashed = false) (hstack : d.stack = f :: rest) :
    (M.move perform d (.ends fate)).world.env = (perform f.cmd fate d.world.env).2 := by
  unfold move seen
  simp only [hstack, Machine.step, hcrash, enter_env]
  rfl

section Runs

variable (hM : M.Issues J P ok)
  (hR : ∀ cmd fate e n, P cmd → R e n → Q cmd fate n →
    R (M.effect cmd (perform cmd fate n).1 e) (perform cmd fate n).2)

include hR in
theorem move_allowed (ho : Orderly J P c) (h : Related R c d) (hm : EndsAs Q d m) :
    Related R (M.step c (seen perform d m)) (M.move perform d m) := by
  refine move_related h fun f rest fate hends hcrash hstack => ?_
  subst hends
  have hf := ho.waiting f (by rw [← h.stack, hstack]; exact List.mem_cons_self)
  exact hR f.cmd fate _ _ hf.1 h.env (hm hcrash f rest hstack)

include hM hR in
/-- A run of moves and the run that the program sees, its calls being allowed and its commands
faring well. -/
theorem runMoves_related (ho : Orderly J P c) (h : Related R c d)
    (hok : ∀ m ∈ moves, m.Only ok) (hall : M.AllEnds perform Q d moves) :
    Orderly J P (M.run c (M.stepsOf perform d moves)) ∧
      Related R (M.run c (M.stepsOf perform d moves)) (M.runMoves perform d moves) := by
  induction moves generalizing c d with
  | nil => exact ⟨ho, h⟩
  | cons m moves ih =>
    obtain ⟨hm, hrest⟩ := List.forall_mem_cons.mp hok
    exact ih (ho.step hM (seen_only hm)) (move_allowed hR ho h hall.1) hrest hall.2

include hM hR in
/-- If what is related shows, and a command shows what it has done only if it fared well: then the
environments show in every state of the run if and only if every command fares well. -/
theorem allEnds_iff (hshow : ∀ e n, R e n → S e n)
    (hwell : ∀ cmd fate e n, P cmd → R e n →
      S (M.effect cmd (perform cmd fate n).1 e) (perform cmd fate n).2 → Q cmd fate n)
    (ho : Orderly J P c) (h : Related R c d) (hok : ∀ m ∈ moves, m.Only ok) :
    (∀ pre, pre <+: moves →
        S (M.run c (M.stepsOf perform d pre)).world.env (M.runMoves perform d pre).world.env) ↔
      M.AllEnds perform Q d moves := by
  induction moves generalizing c d with
  | nil =>
    refine iff_of_true (fun pre hpre => ?_) trivial
    rw [List.prefix_nil.mp hpre]
    exact hshow _ _ h.env
  | cons m moves ih =>
    obtain ⟨hm, hrest⟩ := List.forall_mem_cons.mp hok
    constructor
    · intro hall
      have hends : EndsAs Q d m := by
        cases m with
        | call i => trivial
        | ends fate =>
          intro hcrash f rest hstack
          have hf := ho.waiting f (by rw [← h.stack, hstack]; exact List.mem_cons_self)
          have hfirst := hall [.ends fate] ⟨moves, rfl⟩
          refine hwell f.cmd fate _ _ hf.1 h.env ?_
          have hseen : seen perform d (.ends fate) =
              .complete (perform f.cmd fate d.world.env).1 := by
            simp only [seen, hstack]
          have henv : (M.step c (seen perform d (.ends fate))).world.env =
              M.effect f.cmd (perform f.cmd fate d.world.env).1 c.world.env := by
            rw [hseen]
            simp only [Machine.step, h.crashed.symm.trans hcrash, h.stack.symm.trans hstack,
              enter_env]
          rw [← henv, ← move_ends_env (M := M) fate hcrash hstack]
          exact hfirst
      have hmove := move_allowed hR ho h hends
      refine ⟨hends, (ih (ho.step hM (seen_only hm)) hmove hrest).mp fun pre hpre => ?_⟩
      exact hall (m :: pre) (List.cons_prefix_cons.mpr ⟨rfl, hpre⟩)
    · rintro ⟨hends, hall⟩ pre hpre
      have hmove := move_allowed hR ho h hends
      cases pre with
      | nil => exact hshow _ _ h.env
      | cons m' pre =>
        obtain ⟨rfl, hrun⟩ := List.cons_prefix_cons.mp hpre
        exact (ih (ho.step hM (seen_only hm)) hmove hrest).mpr hall pre hrun

end Runs

end Machine

end Waiting
