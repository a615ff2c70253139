import WifiGateway.Gateway.OpenWindow
import WifiGateway.Gateway.Packets

/-!
# From the page to the packets

What a page that is kept open is good for: the packets of its visitor are forwarded
(`open_window_online`). Between the page and the rules that decide this there are the calls of the
page, `gw_endpoint.php`, `Gateway`, the Controller, its commands and the scripts.

The rules are those that the scripts have made of the commands which the Controller has issued one
after the other, each of them whole and reporting what the Controller was told
(`Deployment.CarriedOut`). A window keeps a record of its own commands, so that the rules at its end
are known too (`Window.past`). As in `OpenWindow.lean`, calls and ticks run one at a time and no
button is clicked.
-/

namespace WifiGateway

open Script
open Api (Locals)
open Waiting (Oracle)
open Web (RemoteAddr PanelCall)

variable {D : Deployment} {w : GwWorld} {fw : Firewall} {rs rs' rs'' : Iptables.Ruleset}
  {env : Iptables.Env} {issued issued' : List (Command × Int)}

/-! ## Histories of the deployed gateway -/

namespace Deployment

/-- The scripts of these commands, the latest of them first, lead from the one ruleset to the other:
each is whole, and reports the status that goes with it. -/
inductive CarriedOut (D : Deployment) :
    List (Command × Int) → Iptables.Ruleset → Iptables.Ruleset → Prop
  | nil {rs : Iptables.Ruleset} : D.CarriedOut [] rs rs
  | cons {issued : List (Command × Int)} {rs rs' : Iptables.Ruleset} {c : Command} {fate : Fate}
      {status : Int} (h : D.CarriedOut issued rs rs') (hwhole : D.Whole c fate rs')
      (hstatus : (runScript D.dir D.special c fate rs').1 = status) :
      D.CarriedOut ((c, status) :: issued) rs (runScript D.dir D.special c fate rs').2

theorem carriedOut_append :
    D.CarriedOut (issued' ++ issued) rs rs'' ↔
      ∃ rs', D.CarriedOut issued rs rs' ∧ D.CarriedOut issued' rs' rs'' := by
  induction issued' generalizing rs'' with
  | nil =>
    constructor
    · exact fun h => ⟨rs'', h, .nil⟩
    · rintro ⟨rs', h, hnone⟩
      cases hnone
      exact h
  | cons c issued' ih =>
    constructor
    · intro h
      cases h with
      | cons h hwhole hstatus =>
        obtain ⟨rs', hfirst, hrest⟩ := ih.mp h
        exact ⟨rs', hfirst, .cons hrest hwhole hstatus⟩
    · rintro ⟨rs', hfirst, hrest⟩
      cases hrest with
      | cons h hwhole hstatus => exact .cons (ih.mpr ⟨rs', hfirst, h⟩) hwhole hstatus

/-- They do to the rules what the model says that they do to the firewall. -/
theorem CarriedOut.refined (h : D.CarriedOut issued rs rs')
    (habout : ∀ c ∈ issued, c.1.About D.IsHost) (hrefined : Refined D fw rs) :
    Refined D (issued.foldr (fun c fw => c.1.effect c.2 fw) fw) rs' := by
  induction h with
  | nil => exact hrefined
  | @cons issued rs rs' c fate status h hwhole hstatus ih =>
    obtain ⟨hc, hrest⟩ := List.forall_mem_cons.mp habout
    have hscript : Refined D (c.effect (runScript D.dir D.special c fate rs').1 _) _ :=
      (ih hrest hrefined).script hc hwhole
    rw [hstatus] at hscript
    exact hscript

/-- Calls that name no hosts but those that there are, one after the other, have led to this world
and to these rules. -/
inductive Past (D : Deployment) : GwWorld → Iptables.Ruleset → Prop
  | start : D.Past GwWorld.init D.initRules
  | call {w w' : GwWorld} {rs rs' : Iptables.Ruleset} {i : Call} {o : Oracle Command}
      {reply : Reply} {issued : List (Command × Int)} (h : D.Past w rs)
      (hnames : ∀ a, i.names = some a → D.IsHost a)
      (hrun : i.slot.run Command.effect o w [] = some (reply, w', issued))
      (hcarried : D.CarriedOut issued rs rs') : D.Past w' rs'

theorem Past.reachable (h : D.Past w rs) : Reachable w := by
  induction h with
  | start => exact reachable_init
  | @call w w' rs rs' i o reply issued h hnames hrun hcarried ih =>
    obtain ⟨sched, ms, hms, rfl⟩ := ih
    refine ⟨sched ++ [(i, o)], ms ++ [⟨lastWorld GwWorld.init ms, i, issued, w'⟩], ?_,
      lastWorld_append ..⟩
    rw [execute_append hms]
    simp [execute, hrun]

/-- The rules have the entries of the hosts that the Controller's firewall allows. -/
theorem Past.refined (h : D.Past w rs) : w.mem.Knows D.IsHost ∧ Refined D w.env rs := by
  induction h with
  | start => exact ⟨.init, D.refined⟩
  | @call w w' rs rs' i o reply issued h hnames hrun hcarried ih =>
    obtain ⟨issued', htrace, hknows, habout, henv⟩ :=
      (Call.within i hnames).run_issued ih.1 hrun
    obtain rfl : issued = issued' := htrace.trans (List.append_nil _)
    have hfold := hcarried.refined habout ih.2
    rw [← henv] at hfold
    exact ⟨hknows, hfold⟩

/-- A host is allowed if and only if its session is STARTED. -/
theorem Past.allowed_iff (h : D.Past w rs) (a : String) :
    (w.env a).isSome = true ↔ (w.mem.record a).map Session.state = some .started :=
  (h.reachable.lockstep a).allowed

end Deployment

/-! ## The window -/

/-- The calls of others name no hosts but those that there are. -/
def WindowEvent.Names (D : Deployment) : WindowEvent → Prop
  | .other i _ => ∀ a, i.names = some a → D.IsHost a
  | .serve _ _ | .lose _ | .drop _ | .receive _ | .interval | .clickPause | .clickEnd | .leave
  | .close => True

namespace Window

variable {remote : RemoteAddr} {locals : Locals} {events : List WindowEvent} {c c' : Window}
  {e : WindowEvent} {a : String} {k d : Nat}

/-- The commands of a window are those of a history. -/
theorem Stepped.past (hs : Stepped a c e c') (ha : D.IsHost a) (he : e.Names D)
    (h : ∀ rs', D.CarriedOut c.issued rs rs' → D.Past c.world rs')
    (hcarried : D.CarriedOut c'.issued rs rs') : D.Past c'.world rs' := by
  cases hs with
  | @other i o reply issued w' hrun hacts =>
    obtain ⟨rs₁, hfirst, hrest⟩ := Deployment.carriedOut_append.mp hcarried
    exact (h rs₁ hfirst).call he hrun hrest
  | @serve n t p o ans w' issued hn hresponds =>
    obtain ⟨reply, hrun⟩ := hresponds.runs
    have hnames : ∀ b, (p.gateway a).meant.names = some b → D.IsHost b := by
      intro b hb
      obtain rfl : a = b := by
        cases p with
        | startSession | updateSession | playSession | pauseSession | endSession
        | getSessionStats => exact Option.some.inj hb
      exact ha
    obtain ⟨rs₁, hfirst, hrest⟩ := Deployment.carriedOut_append.mp hcarried
    exact (h rs₁ hfirst).call hnames hrun hrest
  | lose | drop | receive | ignore | interval | clickPause | clickEnd | leave | close =>
    exact h rs' hcarried

theorem past (hw : D.Past w rs) (hhost : D.IsHost remote.text) (hnames : ∀ e ∈ events, e.Names D)
    (hrun : run remote locals (load w) events = some c) (hcarried : D.CarriedOut c.issued rs rs') :
    D.Past c.world rs' := by
  have hload : ∀ rs', D.CarriedOut (load w).issued rs rs' → D.Past (load w).world rs' := by
    intro rs' hnone
    cases hnone
    exact hw
  have hall : ∀ rs', D.CarriedOut c.issued rs rs' → D.Past c.world rs' := by
    refine run_induct (I := fun xs c => xs <+: events →
        c.world.mem.WF ∧ ∀ rs', D.CarriedOut c.issued rs rs' → D.Past c.world rs')
      (fun _ => ⟨hw.reachable.wf, hload⟩) (fun xs b e b' hxs hb he hinit => ?_) hrun
      (List.prefix_refl events) |>.2
    obtain ⟨hwf, hpast⟩ := hb ((List.prefix_append xs [e]).trans hinit)
    have hstepped := step_cases hwf he
    exact ⟨hstepped.wf hwf, fun rs' =>
      hstepped.past hhost (hnames e (hinit.subset (by simp))) hpast⟩
  exact hall rs' hcarried

end Window

end WifiGateway
