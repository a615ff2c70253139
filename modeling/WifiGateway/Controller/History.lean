import WifiGateway.Controller.Calls
import WifiGateway.Controller.Turns

/-!
# Histories: calls executed one at a time

`execute` runs the Controller over a schedule, each call with an oracle for the
statuses of its own commands, and records a `Moment` for every call: the world
before and after it and the commands it issued. `none` is a memory error.

`execute_linked` is the one place where runs meet `slot_acts`: a schedule never
ends in a memory error, and what it leaves behind is a chain of moments each of
which acts on every host like `Host.step` (`Linked`). `Linked.invariant` is the
induction that everything about a single host is proved with.
-/

namespace WifiGateway

open Waiting (Code Oracle)

/-- One call of a history. -/
structure Moment where
  before : GwWorld
  call : Call
  issued : List (Command × Int)
  after : GwWorld

/-- The calls to make, each with what its commands will return. -/
abbrev Schedule := List (Call × Oracle Command)

/-- Execute a schedule, one call after the other. -/
def execute : GwWorld → Schedule → Option (List Moment)
  | _, [] => some []
  | w, (i, o) :: rest =>
    match i.slot.run Command.effect o w [] with
    | none => none
    | some (_, w', issued) => (execute w' rest).map (⟨w, i, issued, w'⟩ :: ·)

namespace Moment

/-- The record of `a` is STARTED when the call is made, and the call is a tick. -/
def isStartedTick (a : String) (m : Moment) : Bool :=
  m.call == .tick && (m.before.mem.record a).any fun s => s.state == .started

/-- A moment acts on every host like `Host.step`. -/
structure Acts (m : Moment) : Prop where
  wf : m.before.mem.WF
  acts : ∃ o, ActsOnAll o m.before m.after m.issued
    fun a x h => Host.step a (m.before.mem.initSession a) x h m.call

theorem Acts.after_wf {m : Moment} (h : m.Acts) : m.after.mem.WF := by
  obtain ⟨o, ho⟩ := h.acts
  exact ho.wf

/-- What a moment does to one host. -/
theorem Acts.host {m : Moment} (h : m.Acts) (a : String) :
    ∃ x : Outcomes,
      m.after.host a = (Host.step a (m.before.mem.initSession a) x (m.before.host a) m.call).host ∧
      (Host.step a (m.before.mem.initSession a) x (m.before.host a) m.call).issued ⊆ m.issued := by
  obtain ⟨o, ho⟩ := h.acts
  obtain ⟨x, -, hx⟩ := ho.hosts a
  exact ⟨x, hx⟩

end Moment

/-- A chain of moments from `w` on, each of which acts on the hosts. -/
def Linked : GwWorld → List Moment → Prop
  | _, [] => True
  | w, m :: ms => m.before = w ∧ m.Acts ∧ Linked m.after ms

/-- Every schedule can be executed, and leaves a chain of moments. -/
theorem execute_linked {w : GwWorld} (hw : w.mem.WF) (sched : Schedule) :
    ∃ ms, execute w sched = some ms ∧ ms.map Moment.call = sched.map Prod.fst ∧ Linked w ms := by
  induction sched generalizing w with
  | nil => exact ⟨[], rfl, rfl, trivial⟩
  | cons c rest ih =>
    obtain ⟨i, o⟩ := c
    obtain ⟨reply, w', issued, hrun, hacts⟩ := slot_acts (o := o) (t := []) hw i
    rw [List.append_nil] at hrun
    obtain ⟨ms, hms, hcalls, hlinked⟩ := ih hacts.wf
    refine ⟨⟨w, i, issued, w'⟩ :: ms, ?_, ?_, rfl, ⟨hw, o, hacts⟩, hlinked⟩
    · simp only [execute, hrun, hms, Option.map_some]
    · simp only [List.map_cons, hcalls]

theorem linked_of_execute {w : GwWorld} (hw : w.mem.WF) {sched : Schedule} {ms : List Moment}
    (h : execute w sched = some ms) : Linked w ms := by
  obtain ⟨ms', hms', -, hlinked⟩ := execute_linked hw sched
  rw [h] at hms'
  exact Option.some.inj hms' ▸ hlinked

/-- The world in which a chain of moments ends. -/
def lastWorld : GwWorld → List Moment → GwWorld
  | w, [] => w
  | _, m :: ms => lastWorld m.after ms

theorem lastWorld_append (w : GwWorld) (xs ys : List Moment) :
    lastWorld w (xs ++ ys) = lastWorld (lastWorld w xs) ys := by
  induction xs generalizing w with
  | nil => rfl
  | cons x xs ih => exact ih x.after

/-- A schedule that goes on. -/
theorem execute_append {w : GwWorld} {xs ys : Schedule} {ms : List Moment}
    (h : execute w xs = some ms) :
    execute w (xs ++ ys) = (execute (lastWorld w ms) ys).map (ms ++ ·) := by
  induction xs generalizing w ms with
  | nil =>
    obtain rfl := Option.some.inj h
    simp [lastWorld]
  | cons c rest ih =>
    obtain ⟨i, o⟩ := c
    simp only [List.cons_append, execute] at h ⊢
    cases hrun : i.slot.run Command.effect o w [] with
    | none => simp [hrun] at h
    | some r =>
      simp only [hrun, Option.map_eq_some_iff] at h ⊢
      obtain ⟨ms', hms', rfl⟩ := h
      rw [ih hms', Option.map_map]
      rfl

/-- A world that some history leads to. -/
def Reachable (w : GwWorld) : Prop :=
  ∃ sched ms, execute GwWorld.init sched = some ms ∧ lastWorld GwWorld.init ms = w

theorem Linked.append {w : GwWorld} {xs ys : List Moment} (h : Linked w (xs ++ ys)) :
    Linked w xs ∧ Linked (lastWorld w xs) ys := by
  induction xs generalizing w with
  | nil => exact ⟨trivial, h⟩
  | cons m xs ih =>
    obtain ⟨hb, ha, hl⟩ := h
    exact ⟨⟨hb, ha, (ih hl).1⟩, (ih hl).2⟩

theorem Linked.mem_acts {w : GwWorld} {ms : List Moment} (h : Linked w ms) :
    ∀ m ∈ ms, m.Acts := by
  induction ms generalizing w with
  | nil => exact fun m hm => absurd hm (List.not_mem_nil)
  | cons m ms ih =>
    obtain ⟨-, ha, hl⟩ := h
    intro m' hm'
    rcases hm' with _ | ⟨_, hm'⟩
    · exact ha
    · exact ih hl m' hm'

/-- An invariant of the hosts that every moment of a chain preserves. -/
theorem Linked.invariant {w : GwWorld} {ms : List Moment} (h : Linked w ms)
    {I : GwWorld → Prop} (hw : I w) (hstep : ∀ m ∈ ms, m.Acts → I m.before → I m.after) :
    (∀ m ∈ ms, I m.before ∧ I m.after) ∧ I (lastWorld w ms) := by
  induction ms generalizing w with
  | nil => exact ⟨fun m hm => absurd hm (List.not_mem_nil), hw⟩
  | cons m ms ih =>
    obtain ⟨rfl, ha, hl⟩ := h
    have hafter : I m.after := hstep m List.mem_cons_self ha hw
    obtain ⟨hall, hlast⟩ := ih hl hafter fun m' hm' => hstep m' (List.mem_cons_of_mem m hm')
    refine ⟨?_, hlast⟩
    intro m' hm'
    rcases hm' with _ | ⟨_, hm'⟩
    · exact ⟨hw, hafter⟩
    · exact hall m' hm'

/-- What holds at the start and is preserved by every moment holds of every reachable world. -/
theorem Reachable.invariant {w : GwWorld} (h : Reachable w) {I : GwWorld → Prop}
    (hinit : I GwWorld.init) (hstep : ∀ m : Moment, m.Acts → I m.before → I m.after) : I w := by
  obtain ⟨sched, ms, hms, rfl⟩ := h
  have hlinked := linked_of_execute (w := GwWorld.init) Controller.wf_init hms
  exact (hlinked.invariant hinit fun m _ => hstep m).2

theorem Reachable.wf {w : GwWorld} (h : Reachable w) : w.mem.WF :=
  h.invariant (I := fun w => w.mem.WF) Controller.wf_init fun _ hm _ => hm.after_wf

theorem init_host (a : String) : GwWorld.init.host a = ⟨none, none⟩ := by
  simp [GwWorld.host, GwWorld.init, Controller.init, Controller.record]

/-- What every call preserves of a host, a moment preserves of all hosts. -/
theorem Moment.Acts.kept {m : Moment} (hm : m.Acts) {I : Host → Prop}
    (hk : ∀ (c : Controller) (a : String), Host.Kept a (c.initSession a) I)
    (hi : ∀ a, I (m.before.host a)) (a : String) : I (m.after.host a) := by
  obtain ⟨x, hhost, -⟩ := hm.host a
  rw [hhost]
  exact (hk m.before.mem a).step (hi a) m.call

/-- What holds without a record and a rule, too, holds of the hosts after every history. -/
theorem Linked.kept {ms : List Moment} (h : Linked GwWorld.init ms) {I : Host → Prop}
    (hempty : I ⟨none, none⟩)
    (hk : ∀ (c : Controller) (a : String), Host.Kept a (c.initSession a) I) (a : String) :
    I ((lastWorld GwWorld.init ms).host a) := by
  refine (h.invariant (I := fun w => ∀ a, I (w.host a)) (fun b => ?_) fun m _ hm => hm.kept hk).2 a
  rw [init_host]
  exact hempty

theorem Reachable.kept {w : GwWorld} (h : Reachable w) {I : Host → Prop} (hempty : I ⟨none, none⟩)
    (hk : ∀ (c : Controller) (a : String), Host.Kept a (c.initSession a) I) (a : String) :
    I (w.host a) := by
  obtain ⟨sched, ms, hms, rfl⟩ := h
  exact (linked_of_execute (w := GwWorld.init) Controller.wf_init hms).kept hempty hk a

theorem reachable_init : Reachable GwWorld.init := ⟨[], [], rfl, rfl⟩

end WifiGateway
