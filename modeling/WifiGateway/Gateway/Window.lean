import WifiGateway.Controller.KeepAlive
import WifiGateway.Gateway.Visitors
import WifiGateway.Web.Panel

/-!
# A window at the gateway

The session panel in a visitor's window, with its calls on their way to the gateway and the answers
on their way back, next to all that goes on at the gateway anyway: ticks, quota events and calls of
others. Calls and answers may overtake each other or get lost.

The gateway runs calls and ticks one at a time here: none comes in while another one waits for its
command. All results about windows are about such runs; what a tick can do to a call that waits is
seen in `Controller/Nested.lean` and `Controller/Reentrancy.lean`.

`respond_cases` says what a call of the page comes to through all layers, and `run_induct` is the
induction over runs. Two results need no more than that: what the page shows is what the session was
at some moment since the page was loaded (`page_shows`), and once it shows that the session has
ended it asks for no more updates (`ended_for_good`).
-/

namespace WifiGateway

open Api (GatewayCall Locals)
open Waiting (Code Oracle)
open Web (RemoteAddr PanelCall PanelAnswer Page ajaxEnd)

/-! ## A call of the page -/

/-- The method of `Gateway` that a call of the page gets to. -/
def Web.PanelCall.gateway (host : String) : PanelCall → GatewayCall
  | .startSession => .startSession host
  | .updateSession => .updateSession host
  | .playSession => .playSession host
  | .pauseSession => .pauseSession host
  | .endSession => .endSession host
  | .getSessionStats => .getSessionStats host

/-- What a call of the page comes to, what becomes of the gateway, and the commands that are issued
for it. -/
def respond (remote : RemoteAddr) (locals : Locals) (p : PanelCall) (o : Oracle Command)
    (w : GwWorld) : Option (PanelAnswer × GwWorld × List (Command × Int)) :=
  match Web.endpoint remote p.post with
  | .invoke m args =>
    match gatewayCall (fun _ => none) m args with
    | some g => ((g.serve locals).run Command.effect o w []).map fun r => (.result r.1, r.2)
    | none => some (.unreachable, w, [])
  | .methodNotFound => some (.result (.exception "Method not found" (-32601)), w, [])
  -- the script returns without an answer, or with null, which is none of those of a method
  | .invalidParams | .notInvoked => some (.unreachable, w, [])

/-- The session that the stats are about. -/
def GwWorld.seen (w : GwWorld) (a : String) : Session :=
  (w.mem.record a).elim noSession fun s => { s with IP := a }

variable {remote : RemoteAddr} {locals : Locals} {p : PanelCall} {o : Oracle Command}
  {w w' : GwWorld} {ans : PanelAnswer} {a : String} {issued : List (Command × Int)}

/-- A call of the page gets through to its method, with the visitor's own address. -/
theorem endpoint_post (remote : RemoteAddr) (p : PanelCall) :
    Web.endpoint remote p.post = .invoke p.method [.str remote.text] := by
  have hip : Php.equalsText remote.text (.str remote.text) = true := Web.equalsText_iff.mpr rfl
  cases p with
  | startSession | updateSession | playSession | pauseSession | endSession | getSessionStats =>
    exact if_pos hip

theorem gatewayCall_post (host : String) (p : PanelCall) :
    gatewayCall (fun _ => none) p.method [.str host] = some (p.gateway host) := by
  cases p with
  | startSession | updateSession | playSession | pauseSession | endSession | getSessionStats => rfl

theorem truthy_remote (remote : RemoteAddr) : Api.truthy remote.text = true := by
  have hlong := remote.long
  unfold Api.truthy
  rw [Bool.and_eq_true, bne_iff_ne, bne_iff_ne]
  refine ⟨?_, ?_⟩
  · intro h
    rw [h] at hlong
    exact absurd hlong (by decide)
  · intro h
    rw [h] at hlong
    exact absurd hlong (by decide)

theorem respond_eq (remote : RemoteAddr) (locals : Locals) (p : PanelCall) (o : Oracle Command)
    (w : GwWorld) :
    respond remote locals p o w = (((p.gateway remote.text).serve locals).run Command.effect o w
      []).map fun r => (.result r.1, r.2) := by
  unfold respond
  rw [endpoint_post]
  dsimp only
  rw [gatewayCall_post]

/-- What the Controller returns to a method that throws unless it is 0. -/
theorem run_orThrow {r : Api.Request} {q : Slot Int} {i : Call} {message : String} {status : Int}
    (hserve : r.serve locals = do return .status (← q))
    (hslot : i.slot = do return .status (← q))
    (hrun : i.slot.run Command.effect o w [] = some (.status status, w', issued)) :
    (Api.orThrow locals r message).run Command.effect o w [] =
      some (if status ≠ 0 then .exception message status else .ok, w', issued) := by
  rw [hslot] at hrun
  unfold Api.orThrow
  rw [hserve]
  cases hq : q.run Command.effect o w [] with
  | none => simp [hq] at hrun
  | some x =>
    obtain ⟨ret, w₁, issued₁⟩ := x
    obtain ⟨rfl, rfl, rfl⟩ : ret = status ∧ w₁ = w' ∧ issued₁ = issued := by
      simpa [hq, Prod.ext_iff] using hrun
    simp [hq]

/-- The methods other than `get_session_stats` pass the status on. -/
theorem run_throws {status : Int} (ha : Api.truthy a = true)
    (hp : p ≠ .getSessionStats) (hrun : (p.gateway a).meant.slot.run Command.effect o w [] =
      some (.status status, w', issued)) :
    ∃ message, ((p.gateway a).serve locals).run Command.effect o w [] =
      some (if status ≠ 0 then .exception message status else .ok, w', issued) := by
  cases p with
  | getSessionStats => exact absurd rfl hp
  | startSession | pauseSession | playSession =>
    exact ⟨_, (congrArg (Code.run Command.effect o · w []) (if_pos ha)).trans
      (run_orThrow rfl rfl hrun)⟩
  | updateSession | endSession => exact ⟨_, run_orThrow rfl rfl hrun⟩

/-- `get_session_stats` passes the session on, field by field. -/
theorem run_stats {s : Session} (hw : w.mem.WF)
    (hrun : (PanelCall.getSessionStats.gateway a).meant.slot.run Command.effect o w [] =
      some (.session s, w', issued)) :
    ((PanelCall.getSessionStats.gateway a).serve locals).run Command.effect o w [] =
      some (.stats (Api.fieldsOf s), w', issued) := by
  have hfaithful : (PanelCall.getSessionStats.gateway a).Faithful locals w :=
    (GatewayCall.faithful_iff hw _).mpr trivial
  have hsame := hfaithful o []
  rw [hrun, Option.map_some, Option.map_eq_some_iff] at hsame
  obtain ⟨⟨outcome, w₁, issued₁⟩, hserve, hfields⟩ := hsame
  obtain ⟨hout, rfl, rfl⟩ : outcome.fields = some (Api.fieldsOf s) ∧ w₁ = w' ∧
      issued₁ = issued := by simpa [Api.replyFields, Prod.ext_iff] using hfields
  rw [hserve]
  cases outcome with
  | stats l =>
    obtain rfl := Option.some.inj hout
    rfl
  | ok | fail | ips | exception => exact absurd hout (by simp [Api.Outcome.fields])

/-- What a call of the page comes to: it acts as the slot of its name does for the visitor's own
address, and answers with the session as it is, or with an error unless the slot returns 0. -/
structure Responds (a : String) (p : PanelCall) (o : Oracle Command) (w : GwWorld)
    (ans : PanelAnswer) (w' : GwWorld) (issued : List (Command × Int)) : Prop where
  runs : ∃ reply, (p.gateway a).meant.slot.run Command.effect o w [] = some (reply, w', issued)
  acts : Moment.Acts ⟨w, (p.gateway a).meant, issued, w'⟩
  answers : ∃ x : Outcomes, x.AllDrawn o ∧
    let r := Host.serve a (w.mem.initSession a) x (w.host a) (p.gateway a).meant
    w'.host a = r.host ∧
      if p = .getSessionStats then ans = .result (.stats (Api.fieldsOf (w.seen a)))
      else ∃ message, ans = .result (if r.status ≠ 0 then .exception message r.status else .ok)

theorem respond_cases (hw : w.mem.WF) (h : respond remote locals p o w = some (ans, w', issued)) :
    Responds remote.text p o w ans w' issued := by
  have hnames : (p.gateway remote.text).meant.names = some remote.text := by
    cases p with
    | startSession | updateSession | playSession | pauseSession | endSession
    | getSessionStats => rfl
  obtain ⟨x, hx, w₁, hrun, he⟩ := slot_serves (o := o) (t := []) hw _ hnames
  obtain ⟨reply, w₂, issued₂, hrun₂, hacts⟩ := slot_acts (o := o) (t := []) hw
    (p.gateway remote.text).meant
  rw [List.append_nil] at hrun hrun₂
  have hsame := hrun₂.symm.trans hrun
  simp only [Option.some.injEq, Prod.mk.injEq] at hsame
  obtain ⟨-, rfl, rfl⟩ := hsame
  rw [respond_eq] at h
  by_cases hp : p = .getSessionStats
  · subst hp
    rw [run_stats hw hrun, Option.map_some] at h
    simp only [Option.some.injEq, Prod.mk.injEq] at h
    obtain ⟨rfl, rfl, rfl⟩ := h
    exact ⟨⟨_, hrun⟩, ⟨hw, o, hacts⟩, x, hx, he.host, by rw [if_pos rfl]; rfl⟩
  · have hreply : Host.reply remote.text (w.mem.initSession remote.text) x (w.host remote.text)
        (p.gateway remote.text).meant = .status (Host.serve remote.text
          (w.mem.initSession remote.text) x (w.host remote.text)
            (p.gateway remote.text).meant).status := by
      cases p with
      | getSessionStats => exact absurd rfl hp
      | startSession | updateSession | playSession | pauseSession | endSession => rfl
    rw [hreply] at hrun
    obtain ⟨message, hserve⟩ := @run_throws locals _ _ _ _ _ _ _ (truthy_remote remote) hp hrun
    rw [hserve, Option.map_some] at h
    simp only [Option.some.injEq, Prod.mk.injEq] at h
    obtain ⟨rfl, rfl, rfl⟩ := h
    exact ⟨⟨_, hrun⟩, ⟨hw, o, hacts⟩, x, hx, he.host, by rw [if_neg hp]; exact ⟨message, rfl⟩⟩

/-! ## The window -/

/-- A window and the gateway. Calls and answers carry how many ticks they have been on their way. -/
structure Window where
  page : Page
  /-- The page has been left, or the window closed. -/
  gone : Bool
  requests : List (PanelCall × Nat)
  answers : List (PanelCall × PanelAnswer × Nat)
  /-- The ticks since the update timer was set or its interval was last over. -/
  idle : Nat
  world : GwWorld
  /-- The commands that have been issued, and what they returned; the latest first. -/
  issued : List (Command × Int)

/-- What happens at a window and at the gateway. -/
inductive WindowEvent
  /-- A tick, or a call of someone else. -/
  | other (i : Call) (o : Oracle Command)
  /-- The gateway serves a call of the page. -/
  | serve (n : Nat) (o : Oracle Command)
  /-- A call does not get to the gateway. -/
  | lose (n : Nat)
  /-- An answer does not get to the page. -/
  | drop (n : Nat)
  | receive (n : Nat)
  | interval
  | clickPause
  | clickEnd
  /-- The script leads to another page. -/
  | leave
  | close

namespace Window

/-- A handler has run. -/
def handled (c : Window) (r : Page × List PanelCall) : Window :=
  { c with page := r.1, requests := c.requests ++ r.2.map fun p => (p, 0) }

/-- The page has just been loaded. -/
def load (w : GwWorld) : Window :=
  (⟨.loaded, false, [], [], 0, w, []⟩ : Window).handled (Web.ready .loaded)

/-- A tick later. -/
def aged (c : Window) : Window :=
  { c with
    requests := c.requests.map fun r => (r.1, r.2 + 1)
    answers := c.answers.map fun r => (r.1, r.2.1, r.2.2 + 1)
    idle := if c.page.updateTimer then c.idle + 1 else 0 }

/-- One event; `none` if it cannot happen. A call runs to its end before anything else happens. -/
def step (remote : RemoteAddr) (locals : Locals) (c : Window) : WindowEvent → Option Window
  | .other i o => do
    let r ← i.slot.run Command.effect o c.world []
    let c := if i = .tick then c.aged else c
    return { c with world := r.2.1, issued := r.2.2 ++ c.issued }
  | .serve n o => do
    let request ← c.requests[n]?
    let r ← respond remote locals request.1 o c.world
    return { c with
      requests := c.requests.eraseIdx n
      answers := c.answers ++ [(request.1, r.1, 0)]
      world := r.2.1
      issued := r.2.2 ++ c.issued }
  | .lose n => do
    let request ← c.requests[n]?
    return { c with
      requests := c.requests.eraseIdx n
      answers := c.answers ++ [(request.1, .unreachable, 0)] }
  | .drop n => do
    let answer ← c.answers[n]?
    return { c with answers := c.answers.set n (answer.1, .unreachable, answer.2.2) }
  | .receive n => do
    let answer ← c.answers[n]?
    let c := { c with answers := c.answers.eraseIdx n }
    return if c.gone then c else c.handled (ajaxEnd answer.1 answer.2.1 c.page)
  | .interval =>
    if c.gone = false ∧ c.page.updateTimer = true then
      some { c.handled (c.page, Web.interval c.page) with idle := 0 }
    else none
  | .clickPause => if c.gone then none else some (c.handled (c.page, Web.clickPause c.page))
  | .clickEnd => if c.gone then none else some (c.handled (c.page, Web.clickEnd c.page))
  | .leave => if 0 < c.page.leaving then some { c with gone := true } else none
  | .close => some { c with gone := true }

/-- The events, one after the other. -/
def run (remote : RemoteAddr) (locals : Locals) (c : Window) (events : List WindowEvent) :
    Option Window :=
  events.foldlM (step remote locals) c

variable {b c : Window} {e : WindowEvent} {events xs ys : List WindowEvent}

theorem run_append : run remote locals c (xs ++ ys) =
    (run remote locals c xs).bind fun b => run remote locals b ys := List.foldlM_append ..

theorem run_snoc {c' : Window} (hxs : run remote locals b xs = some c)
    (he : step remote locals c e = some c') : run remote locals b (xs ++ [e]) = some c' := by
  rw [run_append, hxs]
  simpa [run, List.foldlM_cons, List.foldlM_nil] using he

/-- Induction over the events of a run. -/
theorem run_induct {I : List WindowEvent → Window → Prop} (hstart : I [] b)
    (hstep : ∀ xs c e c', run remote locals b xs = some c → I xs c →
      step remote locals c e = some c' → I (xs ++ [e]) c')
    (hrun : run remote locals b events = some c) : I events c := by
  induction events using List.reverseRecOn generalizing c with
  | nil =>
    obtain rfl := Option.some.inj hrun
    exact hstart
  | append_singleton xs e ih =>
    rw [run_append, Option.bind_eq_some_iff] at hrun
    obtain ⟨c₁, hxs, he⟩ := hrun
    have hstep₁ : step remote locals c₁ e = some c := by
      simpa [run, List.foldlM_cons, List.foldlM_nil] using he
    exact hstep xs c₁ e c hxs (ih hxs) hstep₁

/-- What each event does. -/
inductive Stepped (a : String) (c : Window) : WindowEvent → Window → Prop
  | other {i : Call} {o : Oracle Command} {reply : Reply} {issued : List (Command × Int)}
      {w' : GwWorld} (hrun : i.slot.run Command.effect o c.world [] = some (reply, w', issued))
      (hacts : ActsOnAll o c.world w' issued fun a x h =>
        Host.step a (c.world.mem.initSession a) x h i) :
      Stepped a c (.other i o)
        { (if i = .tick then c.aged else c) with world := w', issued := issued ++ c.issued }
  | serve {n t : Nat} {p : PanelCall} {o : Oracle Command} {ans : PanelAnswer} {w' : GwWorld}
      {issued : List (Command × Int)} (hn : c.requests[n]? = some (p, t))
      (hresponds : Responds a p o c.world ans w' issued) :
      Stepped a c (.serve n o)
        { c with
          requests := c.requests.eraseIdx n
          answers := c.answers ++ [(p, ans, 0)]
          world := w'
          issued := issued ++ c.issued }
  | lose {n t : Nat} {p : PanelCall} (hn : c.requests[n]? = some (p, t)) :
      Stepped a c (.lose n)
        { c with
          requests := c.requests.eraseIdx n
          answers := c.answers ++ [(p, .unreachable, 0)] }
  | drop {n t : Nat} {p : PanelCall} {ans : PanelAnswer} (hn : c.answers[n]? = some (p, ans, t)) :
      Stepped a c (.drop n) { c with answers := c.answers.set n (p, .unreachable, t) }
  | receive {n t : Nat} {p : PanelCall} {ans : PanelAnswer}
      (hn : c.answers[n]? = some (p, ans, t)) (hgone : c.gone = false) :
      Stepped a c (.receive n)
        ({ c with answers := c.answers.eraseIdx n }.handled (ajaxEnd p ans c.page))
  | ignore {n t : Nat} {p : PanelCall} {ans : PanelAnswer}
      (hn : c.answers[n]? = some (p, ans, t)) (hgone : c.gone = true) :
      Stepped a c (.receive n) { c with answers := c.answers.eraseIdx n }
  | interval (hgone : c.gone = false) (htimer : c.page.updateTimer = true) :
      Stepped a c .interval { c.handled (c.page, [.updateSession]) with idle := 0 }
  | clickPause (hgone : c.gone = false) :
      Stepped a c .clickPause (c.handled (c.page, Web.clickPause c.page))
  | clickEnd (hgone : c.gone = false) :
      Stepped a c .clickEnd (c.handled (c.page, Web.clickEnd c.page))
  | leave (hleaving : 0 < c.page.leaving) : Stepped a c .leave { c with gone := true }
  | close : Stepped a c .close { c with gone := true }

theorem step_cases {c' : Window} (hw : c.world.mem.WF)
    (h : step remote locals c e = some c') : Stepped remote.text c e c' := by
  cases e with
  | other i o =>
    obtain ⟨reply, w', issued, hrun, hacts⟩ := slot_acts (o := o) (t := []) hw i
    rw [List.append_nil] at hrun
    obtain ⟨r, hr, h⟩ := Option.bind_eq_some_iff.mp h
    obtain rfl := Option.some.inj (hrun.symm.trans hr)
    obtain rfl := Option.some.inj h
    by_cases htick : i = .tick
    · subst htick
      exact .other hrun hacts
    · have hsame : (if i = .tick then c.aged else c).issued = c.issued := by
        rw [if_neg htick]
      rw [hsame]
      exact .other hrun hacts
  | serve n o =>
    obtain ⟨⟨p, t⟩, hn, h⟩ := Option.bind_eq_some_iff.mp h
    obtain ⟨⟨ans, w', issued⟩, hresponds, h⟩ := Option.bind_eq_some_iff.mp h
    obtain rfl := Option.some.inj h
    exact .serve hn (respond_cases hw hresponds)
  | lose n =>
    obtain ⟨⟨p, t⟩, hn, h⟩ := Option.bind_eq_some_iff.mp h
    obtain rfl := Option.some.inj h
    exact .lose hn
  | drop n =>
    obtain ⟨⟨p, ans, t⟩, hn, h⟩ := Option.bind_eq_some_iff.mp h
    obtain rfl := Option.some.inj h
    exact .drop hn
  | receive n =>
    obtain ⟨⟨p, ans, t⟩, hn, h⟩ := Option.bind_eq_some_iff.mp h
    by_cases hgone : c.gone = true
    · obtain rfl := (if_pos hgone).symm.trans (Option.some.inj h)
      exact .ignore hn hgone
    · obtain rfl := (if_neg hgone).symm.trans (Option.some.inj h)
      exact .receive hn (Bool.eq_false_iff.mpr hgone)
  | interval =>
    by_cases hon : c.gone = false ∧ c.page.updateTimer = true
    · obtain rfl := Option.some.inj ((if_pos hon).symm.trans h)
      have hcalls : Web.interval c.page = [.updateSession] := if_pos hon.2
      rw [hcalls]
      exact .interval hon.1 hon.2
    · exact absurd ((if_neg hon).symm.trans h) (by simp)
  | clickPause =>
    by_cases hgone : c.gone = true
    · exact absurd ((if_pos hgone).symm.trans h) (by simp)
    · obtain rfl := Option.some.inj ((if_neg hgone).symm.trans h)
      exact .clickPause (Bool.eq_false_iff.mpr hgone)
  | clickEnd =>
    by_cases hgone : c.gone = true
    · exact absurd ((if_pos hgone).symm.trans h) (by simp)
    · obtain rfl := Option.some.inj ((if_neg hgone).symm.trans h)
      exact .clickEnd (Bool.eq_false_iff.mpr hgone)
  | leave =>
    by_cases hleaving : 0 < c.page.leaving
    · obtain rfl := Option.some.inj ((if_pos hleaving).symm.trans h)
      exact .leave hleaving
    · exact absurd ((if_neg hleaving).symm.trans h) (by simp)
  | close =>
    obtain rfl := Option.some.inj h
    exact .close

theorem Stepped.wf {c' : Window} (hs : Stepped a c e c') (hw : c.world.mem.WF) :
    c'.world.mem.WF := by
  cases hs with
  | other hrun hacts => exact hacts.wf
  | serve hn hresponds => exact hresponds.acts.after_wf
  | lose | drop | receive | ignore | interval | clickPause | clickEnd | leave | close => exact hw

/-- What every call keeps of the hosts. -/
theorem Stepped.kept {c' : Window} {I : Host → Prop} (hs : Stepped a c e c')
    (hw : c.world.mem.WF)
    (hk : ∀ (c : Controller) (a : String), Host.Kept a (c.initSession a) I)
    (hi : ∀ a, I (c.world.host a)) : ∀ a, I (c'.world.host a) := by
  cases hs with
  | @other i o reply issued w' hrun hacts =>
    have hm : Moment.Acts ⟨c.world, i, issued, w'⟩ := ⟨hw, o, hacts⟩
    exact hm.kept hk hi
  | serve hn hresponds => exact hresponds.acts.kept hk hi
  | lose | drop | receive | ignore | interval | clickPause | clickEnd | leave | close => exact hi

/-- What every call keeps holds in every run that starts in a world that some history leads to. -/
theorem run_kept {w : GwWorld} {I : Host → Prop} (hw : Reachable w) (hempty : I ⟨none, none⟩)
    (hk : ∀ (c : Controller) (a : String), Host.Kept a (c.initSession a) I)
    (hrun : run remote locals (load w) events = some c) :
    c.world.mem.WF ∧ ∀ a, I (c.world.host a) := by
  refine run_induct (I := fun _ c => c.world.mem.WF ∧ ∀ a, I (c.world.host a))
    ⟨hw.wf, hw.kept hempty hk⟩ (fun xs c e c' _ hc he => ?_) hrun
  have hs := step_cases hc.1 he
  exact ⟨hs.wf hc.1, hs.kept hc.1 hk hc.2⟩

/-! ## What the page shows -/

/-- The session was `s` at some moment of the run. -/
def Past (remote : RemoteAddr) (locals : Locals) (b : Window) (events : List WindowEvent)
    (s : Session) : Prop :=
  ∃ xs c, xs <+: events ∧ run remote locals b xs = some c ∧ s = c.world.seen remote.text

theorem Past.mono {s : Session} (h : Past remote locals b xs s) (e : WindowEvent) :
    Past remote locals b (xs ++ [e]) s := by
  obtain ⟨zs, c, hzs, hrun, hs⟩ := h
  exact ⟨zs, c, hzs.trans (List.prefix_append xs [e]), hrun, hs⟩

/-- The sessions in the answers, and the one that the page shows, are of the past. -/
structure Shows (past : Session → Prop) (c : Window) : Prop where
  answers : ∀ p l t, (p, .result (.stats l), t) ∈ c.answers → ∃ s, past s ∧ l = Api.fieldsOf s
  page : ∀ figures, c.page.figures = some figures → ∃ s, past s ∧
    figures = Web.figuresOf s ∧ c.page.state = some (Web.shownAs s.state)

variable {past past' : Session → Prop} {c' : Window}

theorem Shows.mono (h : Shows past c) (hpast : ∀ s, past s → past' s) : Shows past' c := by
  refine ⟨fun p l t hmem => ?_, fun figures hfigures => ?_⟩
  · obtain ⟨s, hs, hl⟩ := h.answers p l t hmem
    exact ⟨s, hpast s hs, hl⟩
  · obtain ⟨s, hs, hshown⟩ := h.page figures hfigures
    exact ⟨s, hpast s hs, hshown⟩

/-- The step lemma: what is answered is about the session as it is now, and only what an answer
says is shown. -/
theorem Stepped.shows (hs : Stepped a c e c') (h : Shows past c) (hnow : past (c.world.seen a)) :
    Shows past c' := by
  cases hs with
  | @other i o reply issued w' hrun hacts =>
    by_cases htick : i = .tick
    · rw [if_pos htick]
      refine ⟨fun p l t hmem => ?_, h.page⟩
      obtain ⟨⟨p', ans', t'⟩, hmem', heq⟩ := List.mem_map.mp hmem
      obtain ⟨rfl, rfl, -⟩ : p' = p ∧ ans' = _ ∧ t' + 1 = t := by simpa using heq
      exact h.answers p' l t' hmem'
    · rw [if_neg htick]
      exact ⟨h.answers, h.page⟩
  | @serve n t p o ans w' issued hn hresponds =>
    refine ⟨fun p₁ l t₁ hmem => ?_, h.page⟩
    rcases List.mem_append.mp hmem with hmem | hmem
    · exact h.answers p₁ l t₁ hmem
    · obtain ⟨rfl, rfl, -⟩ : p₁ = p ∧ _ = ans ∧ t₁ = 0 := by simpa using hmem
      obtain ⟨x, -, -, hans⟩ := hresponds.answers
      split at hans
      · refine ⟨_, hnow, ?_⟩
        simpa using hans
      · obtain ⟨message, hans⟩ := hans
        split at hans
        · exact absurd hans (by simp)
        · exact absurd hans (by simp)
  | lose hn =>
    refine ⟨fun p l t hmem => ?_, h.page⟩
    rcases List.mem_append.mp hmem with hmem | hmem
    · exact h.answers p l t hmem
    · exact absurd hmem (by simp)
  | drop hn =>
    refine ⟨fun p l t hmem => ?_, h.page⟩
    rcases List.mem_or_eq_of_mem_set hmem with hmem | heq
    · exact h.answers p l t hmem
    · exact absurd heq (by simp)
  | @receive n t p ans hn hgone =>
    refine ⟨fun p₁ l t₁ hmem => h.answers p₁ l t₁ (List.mem_of_mem_eraseIdx hmem),
      fun figures hfigures => ?_⟩
    have hends := Web.ajaxEnd_ends p ans c.page
    show ∃ s, past s ∧ figures = Web.figuresOf s ∧
      (ajaxEnd p ans c.page).1.state = some (Web.shownAs s.state)
    have hfigures' : (ajaxEnd p ans c.page).1.figures = some figures := hfigures
    generalize (ajaxEnd p ans c.page).1 = page' at hends hfigures' ⊢
    cases hends with
    | started | leaving => exact h.page figures hfigures'
    | stats l hc hl =>
      subst hl
      obtain ⟨s, hs, rfl⟩ := h.answers _ l t (List.mem_of_getElem? hn)
      rw [Web.getSessionStatsCb_stats] at hfigures' ⊢
      rw [Web.setState_figures] at hfigures'
      exact ⟨s, hs, (Option.some.inj hfigures').symm, Web.setState_nameOf _ _⟩
  | ignore hn =>
    exact ⟨fun p l t hmem => h.answers p l t (List.mem_of_mem_eraseIdx hmem), h.page⟩
  | interval | clickPause | clickEnd | leave | close => exact ⟨h.answers, h.page⟩

/-- Whatever becomes of calls and answers and in whatever order they come: the figures and the state
that the page shows are those that the session had at one moment since the page was loaded. -/
theorem page_shows {w : GwWorld} (hw : Reachable w)
    (hrun : run remote locals (load w) events = some c) {figures : Web.Figures}
    (hfigures : c.page.figures = some figures) :
    ∃ xs b, xs <+: events ∧ run remote locals (load w) xs = some b ∧
      figures = Web.figuresOf (b.world.seen remote.text) ∧
      c.page.state = some (Web.shownAs (b.world.seen remote.text).state) := by
  have hinv : c.world.mem.WF ∧ Shows (Past remote locals (load w) events) c := by
    refine run_induct (I := fun xs c => c.world.mem.WF ∧ Shows (Past remote locals (load w) xs) c)
      ⟨hw.wf, ?_⟩ (fun xs b e c hxs hb he => ?_) hrun
    · exact ⟨fun p l t hmem => absurd hmem List.not_mem_nil, fun f hf => absurd hf (by simp [load,
        handled, Web.ready, Web.setState, Page.loaded])⟩
    · have hs := step_cases hb.1 he
      refine ⟨hs.wf hb.1, hs.shows (hb.2.mono fun s hpast => hpast.mono e) ?_⟩
      exact ⟨xs, b, List.prefix_append xs [e], hxs, rfl⟩
  obtain ⟨s, ⟨xs, b, hxs, hb, rfl⟩, hf, hstate⟩ := hinv.2.page figures hfigures
  exact ⟨xs, b, hxs, hb, hf, hstate⟩

/-- The stats are answered, and a tick later the page shows them. -/
def lateEvents : List WindowEvent :=
  [.serve 0 succeeding, .receive 0, .serve 0 succeeding, .other .tick succeeding, .receive 0]

theorem page_shows_lateEvents :
    let c := (run Web.caller Api.emptyLocals (load GwWorld.init) lateEvents).getD
      (load GwWorld.init)
    ∃ figures, c.page.figures = some figures ∧ ∃ xs b, xs <+: lateEvents ∧
      run Web.caller Api.emptyLocals (load GwWorld.init) xs = some b ∧
      figures = Web.figuresOf (b.world.seen Web.caller.text) ∧
      c.page.state = some (Web.shownAs (b.world.seen Web.caller.text).state) := by
  intro c
  have hrun : run Web.caller Api.emptyLocals (load GwWorld.init) lateEvents = some c :=
    (Option.some_get (by decide +kernel)).symm
  obtain ⟨figures, hfigures⟩ := Option.isSome_iff_exists.mp (show c.page.figures.isSome = true by
    decide +kernel)
  exact ⟨figures, hfigures, page_shows reachable_init hrun hfigures⟩

/-! ## The update timer -/

/-- The call that starts the session is under way, or its answer is, and nothing else. -/
structure Opening (c : Window) : Prop where
  underWay : (∃ t, c.requests = [(.startSession, t)] ∧ c.answers = []) ∨
    c.requests = [] ∧ ∃ ans t, c.answers = [(.startSession, ans, t)]
  state : c.page.state = some .starting
  timer : c.page.updateTimer = false
  pauseButton : c.page.pauseButton = false
  endButton : c.page.endButton = false
  pauseClick : ∀ p ∈ c.page.pauseClick, p ≠ .startSession
  endClick : ∀ p ∈ c.page.endClick, p ≠ .startSession

/-- That call is over, and will not be made again. -/
structure Opened (c : Window) : Prop where
  requests : ∀ r ∈ c.requests, r.1 ≠ .startSession
  answers : ∀ r ∈ c.answers, r.1 ≠ .startSession
  pauseClick : ∀ p ∈ c.page.pauseClick, p ≠ .startSession
  endClick : ∀ p ∈ c.page.endClick, p ≠ .startSession
  ended : c.page.state = some .ended → c.page.updateTimer = false

theorem opening_load (w : GwWorld) : Opening (load w) :=
  ⟨.inl ⟨0, rfl, rfl⟩, rfl, rfl, rfl, rfl, by simp [load, handled, Web.ready, Web.setState,
    Page.loaded], by simp [load, handled, Web.ready, Web.setState, Page.loaded]⟩

theorem handled_nil (c : Window) : c.handled (c.page, []) = c := by
  simp [handled]

theorem eq_zero_of_getElem? {α : Type} {x y : α} {n : Nat} (h : [x][n]? = some y) :
    n = 0 ∧ x = y := by
  cases n with
  | zero => exact ⟨rfl, Option.some.inj h⟩
  | succ n => exact absurd h (by simp)

/-- The call that starts the session stays on its own until its answer comes in. -/
theorem Stepped.opening (hs : Stepped a c e c') (h : Opening c) : Opening c' ∨ Opened c' := by
  obtain ⟨hunderWay, hstate, htimer, hpause, hend, hpauseClick, hendClick⟩ := h
  -- the answer to a call that is served or lost
  have hanswered : ∀ {n t : Nat} {p : PanelCall} {ans : PanelAnswer},
      c.requests[n]? = some (p, t) → c.requests.eraseIdx n = [] ∧
        ∃ ans' t', c.answers ++ [(p, ans, 0)] = [(.startSession, ans', t')] := by
    intro n t p ans hn
    rcases hunderWay with ⟨t', hreq, hans⟩ | ⟨hreq, -⟩
    · rw [hreq] at hn ⊢
      obtain ⟨rfl, heq⟩ := eq_zero_of_getElem? hn
      obtain ⟨rfl, rfl⟩ : PanelCall.startSession = p ∧ t' = t := by simpa using heq
      exact ⟨rfl, ans, 0, by rw [hans]; rfl⟩
    · rw [hreq] at hn
      exact absurd hn (by simp)
  -- an answer that is under way
  have hcomes : ∀ {n t : Nat} {p : PanelCall} {ans : PanelAnswer},
      c.answers[n]? = some (p, ans, t) →
        p = .startSession ∧ n = 0 ∧ c.requests = [] ∧ c.answers = [(.startSession, ans, t)] := by
    intro n t p ans hn
    rcases hunderWay with ⟨t', -, hans⟩ | ⟨hreq, ans', t', hans⟩
    · rw [hans] at hn
      exact absurd hn (by simp)
    · rw [hans] at hn
      obtain ⟨rfl, heq⟩ := eq_zero_of_getElem? hn
      obtain ⟨rfl, rfl, rfl⟩ : PanelCall.startSession = p ∧ ans' = ans ∧ t' = t := by
        simpa using heq
      exact ⟨rfl, rfl, hreq, hans⟩
  cases hs with
  | @other i o reply issued w' hrun hacts =>
    left
    by_cases htick : i = .tick
    · rw [if_pos htick]
      refine ⟨?_, hstate, htimer, hpause, hend, hpauseClick, hendClick⟩
      rcases hunderWay with ⟨t, hreq, hans⟩ | ⟨hreq, ans, t, hans⟩
      · exact .inl ⟨t + 1, by simp [aged, hreq], by simp [aged, hans]⟩
      · exact .inr ⟨by simp [aged, hreq], ans, t + 1, by simp [aged, hans]⟩
    · rw [if_neg htick]
      exact ⟨hunderWay, hstate, htimer, hpause, hend, hpauseClick, hendClick⟩
  | serve hn hresponds =>
    exact .inl ⟨.inr (hanswered hn), hstate, htimer, hpause, hend, hpauseClick, hendClick⟩
  | lose hn =>
    exact .inl ⟨.inr (hanswered hn), hstate, htimer, hpause, hend, hpauseClick, hendClick⟩
  | @drop n t p ans hn =>
    obtain ⟨rfl, rfl, hreq, hans⟩ := hcomes hn
    exact .inl ⟨.inr ⟨hreq, .unreachable, t, by rw [hans]; rfl⟩, hstate, htimer, hpause, hend,
      hpauseClick, hendClick⟩
  | @receive n t p ans hn hgone =>
    obtain ⟨rfl, rfl, hreq, hans⟩ := hcomes hn
    right
    have hends := Web.ajaxEnd_ends .startSession ans c.page
    have hcalls := Web.ajaxEnd_calls .startSession ans c.page
    unfold handled
    rw [hcalls, hreq, hans]
    generalize (ajaxEnd .startSession ans c.page).1 = page' at hends
    have hstate' : page'.state = some .starting ∧ page'.pauseClick = c.page.pauseClick ∧
        page'.endClick = c.page.endClick := by
      cases hends with
      | started | leaving => exact ⟨hstate, rfl, rfl⟩
      | stats l hc => exact absurd hc (by simp)
    refine ⟨by simp, by simp, ?_, ?_, fun hended => ?_⟩
    · show ∀ p ∈ page'.pauseClick, p ≠ .startSession
      rw [hstate'.2.1]
      exact hpauseClick
    · show ∀ p ∈ page'.endClick, p ≠ .startSession
      rw [hstate'.2.2]
      exact hendClick
    · exact absurd (hstate'.1.symm.trans hended) (by simp)
  | ignore hn hgone =>
    obtain ⟨rfl, rfl, hreq, hans⟩ := hcomes hn
    right
    refine ⟨?_, ?_, hpauseClick, hendClick, fun hended => ?_⟩
    · simp [hreq]
    · simp [hans]
    · exact absurd (hstate.symm.trans hended) (by simp)
  | interval hgone hon => exact absurd (htimer.symm.trans hon) (by simp)
  | clickPause =>
    have hcalls : Web.clickPause c.page = [] := if_neg (by simp [hpause])
    rw [hcalls, handled_nil]
    exact .inl ⟨hunderWay, hstate, htimer, hpause, hend, hpauseClick, hendClick⟩
  | clickEnd =>
    have hcalls : Web.clickEnd c.page = [] := if_neg (by simp [hend])
    rw [hcalls, handled_nil]
    exact .inl ⟨hunderWay, hstate, htimer, hpause, hend, hpauseClick, hendClick⟩
  | leave | close =>
    exact .inl ⟨hunderWay, hstate, htimer, hpause, hend, hpauseClick, hendClick⟩

/-- Then nothing sets the update timer any more, and the call is not made again. -/
theorem Stepped.opened (hs : Stepped a c e c') (h : Opened c) :
    Opened c' ∧ (c'.page.updateTimer = true → c.page.updateTimer = true) := by
  have hserved : ∀ {n t : Nat} {p : PanelCall} {ans : PanelAnswer},
      c.requests[n]? = some (p, t) →
        (∀ r ∈ c.requests.eraseIdx n, r.1 ≠ .startSession) ∧
          ∀ r ∈ c.answers ++ [(p, ans, 0)], r.1 ≠ .startSession := by
    intro n t p ans hn
    refine ⟨fun r hr => h.requests r (List.mem_of_mem_eraseIdx hr), fun r hr => ?_⟩
    rcases List.mem_append.mp hr with hr | hr
    · exact h.answers r hr
    · obtain rfl := List.mem_singleton.mp hr
      exact h.requests _ (List.mem_of_getElem? hn)
  have hcalled : ∀ {calls : List PanelCall}, (∀ p ∈ calls, p ≠ .startSession) →
      Opened (c.handled (c.page, calls)) := by
    intro calls hcalls
    refine ⟨fun r hr => ?_, h.answers, h.pauseClick, h.endClick, h.ended⟩
    rcases List.mem_append.mp hr with hr | hr
    · exact h.requests r hr
    · obtain ⟨p, hp, rfl⟩ := List.mem_map.mp hr
      exact hcalls p hp
  cases hs with
  | @other i o reply issued w' hrun hacts =>
    by_cases htick : i = .tick
    · rw [if_pos htick]
      refine ⟨⟨fun r hr => ?_, fun r hr => ?_, h.pauseClick, h.endClick, h.ended⟩, id⟩
      · obtain ⟨r', hr', rfl⟩ := List.mem_map.mp hr
        exact h.requests r' hr'
      · obtain ⟨r', hr', rfl⟩ := List.mem_map.mp hr
        exact h.answers r' hr'
    · rw [if_neg htick]
      exact ⟨⟨h.requests, h.answers, h.pauseClick, h.endClick, h.ended⟩, id⟩
  | serve hn hresponds =>
    obtain ⟨hreq, hans⟩ := hserved hn
    exact ⟨⟨hreq, hans, h.pauseClick, h.endClick, h.ended⟩, id⟩
  | lose hn =>
    obtain ⟨hreq, hans⟩ := hserved hn
    exact ⟨⟨hreq, hans, h.pauseClick, h.endClick, h.ended⟩, id⟩
  | @drop n t p ans hn =>
    refine ⟨⟨h.requests, fun r hr => ?_, h.pauseClick, h.endClick, h.ended⟩, id⟩
    rcases List.mem_or_eq_of_mem_set hr with hr | rfl
    · exact h.answers r hr
    · have hp : p ≠ .startSession := h.answers _ (List.mem_of_getElem? hn)
      exact hp
  | @receive n t p ans hn hgone =>
    have hp : p ≠ .startSession := h.answers _ (List.mem_of_getElem? hn)
    have hends := Web.ajaxEnd_ends p ans c.page
    have hcalls := Web.ajaxEnd_calls p ans c.page
    unfold handled
    rw [hcalls]
    generalize (ajaxEnd p ans c.page).1 = page' at hends
    have hpage : (∀ p ∈ page'.pauseClick, p ≠ .startSession) ∧
        (∀ p ∈ page'.endClick, p ≠ .startSession) ∧
        (page'.state = some .ended → page'.updateTimer = false) ∧
        (page'.updateTimer = true → c.page.updateTimer = true) := by
      cases hends with
      | started hc => exact absurd hc hp
      | leaving => exact ⟨h.pauseClick, h.endClick, h.ended, id⟩
      | stats l hc hl =>
        subst hl
        refine ⟨fun p hmem => ?_, fun p hmem => ?_, Web.setState_ended h.ended,
          Web.updateTimer_of_setState⟩
        · rcases Web.setState_clicks hmem with hmem | rfl | rfl
          · exact h.pauseClick p hmem
          · simp
          · simp
        · rw [Web.getSessionStatsCb, Web.setState_endClick] at hmem
          exact h.endClick p hmem
    obtain ⟨hpause, hend, hended, htimer⟩ := hpage
    refine ⟨⟨fun r hr => ?_, fun r hr => h.answers r (List.mem_of_mem_eraseIdx hr), hpause, hend,
      hended⟩, htimer⟩
    rcases List.mem_append.mp hr with hr | hr
    · exact h.requests r hr
    · split at hr
      · exact absurd hr (by simp)
      · obtain rfl := List.mem_singleton.mp hr
        simp
  | ignore hn =>
    exact ⟨⟨h.requests, fun r hr => h.answers r (List.mem_of_mem_eraseIdx hr), h.pauseClick,
      h.endClick, h.ended⟩, id⟩
  | interval hgone hon =>
    have hopened : Opened (c.handled (c.page, [.updateSession])) := hcalled (by simp)
    exact ⟨⟨hopened.requests, hopened.answers, h.pauseClick, h.endClick, h.ended⟩, id⟩
  | clickPause =>
    refine ⟨hcalled fun p hmem => ?_, id⟩
    unfold Web.clickPause at hmem
    split at hmem
    · exact h.pauseClick p hmem
    · exact absurd hmem List.not_mem_nil
  | clickEnd =>
    refine ⟨hcalled fun p hmem => ?_, id⟩
    unfold Web.clickEnd at hmem
    split at hmem
    · exact h.endClick p hmem
    · exact absurd hmem List.not_mem_nil
  | leave | close => exact ⟨⟨h.requests, h.answers, h.pauseClick, h.endClick, h.ended⟩, id⟩

/-- Once the page shows that the session has ended there is no update timer any more, and no
interval of it comes to an end, even if an answer that was late says that the session goes on. -/
theorem ended_for_good {w : GwWorld} (hw : Reachable w)
    (hrun : run remote locals (load w) xs = some b) (hended : b.page.state = some .ended)
    (hrun' : run remote locals b ys = some c) :
    c.page.updateTimer = false ∧ .interval ∉ ys := by
  have hopened : b.world.mem.WF ∧ (Opening b ∨ Opened b) := by
    refine run_induct (I := fun _ c => c.world.mem.WF ∧ (Opening c ∨ Opened c))
      ⟨hw.wf, .inl (opening_load w)⟩ (fun xs c e c' _ hc he => ?_) hrun
    have hs := step_cases hc.1 he
    refine ⟨hs.wf hc.1, ?_⟩
    rcases hc.2 with hopening | hopened
    · exact hs.opening hopening
    · exact .inr (hs.opened hopened).1
  have hb : Opened b := by
    rcases hopened.2 with hopening | hb
    · exact absurd (hopening.state.symm.trans hended) (by simp)
    · exact hb
  have hinv : (c.world.mem.WF ∧ Opened c) ∧ c.page.updateTimer = false ∧ .interval ∉ ys := by
    refine run_induct (I := fun ys c => (c.world.mem.WF ∧ Opened c) ∧
      c.page.updateTimer = false ∧ .interval ∉ ys) ⟨⟨hopened.1, hb⟩, hb.ended hended,
        List.not_mem_nil⟩ (fun ys c e c' _ hc he => ?_) hrun'
    obtain ⟨⟨hwf, hc⟩, htimer, hys⟩ := hc
    have hs := step_cases hwf he
    obtain ⟨hc', hset⟩ := hs.opened hc
    refine ⟨⟨hs.wf hwf, hc'⟩, ?_, ?_⟩
    · cases htimer' : c'.page.updateTimer with
      | false => rfl
      | true => exact absurd (htimer.symm.trans (hset htimer')) (by simp)
    · intro hmem
      rcases List.mem_append.mp hmem with hmem | hmem
      · exact hys hmem
      · obtain rfl := (List.mem_singleton.mp hmem).symm
        cases hs with
        | interval hgone hon => exact absurd (htimer.symm.trans hon) (by simp)
  exact hinv.2

/-- Someone ends the session, and the page shows it before an older answer comes in. -/
def endEvents : List WindowEvent :=
  [.serve 0 succeeding, .receive 0, .serve 0 succeeding, .interval, .serve 0 succeeding, .receive 1,
    .other (.endSession Web.caller.text) succeeding, .serve 0 succeeding, .receive 1]

theorem ended_for_good_endEvents :
    let b := (run Web.caller Api.emptyLocals (load GwWorld.init) endEvents).getD
      (load GwWorld.init)
    let c := (run Web.caller Api.emptyLocals b [.receive 0]).getD b
    c.page.updateTimer = false ∧ .interval ∉ [WindowEvent.receive 0] := by
  intro b c
  have hrun : run Web.caller Api.emptyLocals (load GwWorld.init) endEvents = some b :=
    (Option.some_get (by decide +kernel)).symm
  have hrun' : run Web.caller Api.emptyLocals b [.receive 0] = some c :=
    (Option.some_get (by decide +kernel)).symm
  exact ended_for_good reachable_init hrun (by decide +kernel) hrun'

end Window

end WifiGateway
