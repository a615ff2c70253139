import WifiGateway.Controller.Defaults
import WifiGateway.Controller.History
import WifiGateway.Runs.Unwinding

/-!
# Hosts do not see each other

With every command succeeding, what a host sees of a run is its own record and firewall
entry, what its calls return, and what the defaults would give it (`hostView`). These are
determined by the calls that name it, the default setters and the ticks, in their order:
`Controller` machine and `hostStep` are an instance of `Runs.Unwinds`. `isolation` is the
two-run statement, and with it that a tick does the same to every host in whatever order it
visits the sessions.
-/

namespace WifiGateway

open Waiting (Code Oracle)

/-- Every command succeeds. -/
def succeeding : Oracle Command := fun _ _ => 0

/-- The outcomes when every command succeeds. -/
def Outcomes.success : Outcomes := ⟨0, 0, 0, 0⟩

theorem allDrawn_succeeding {x : Outcomes} (hx : x.AllDrawn succeeding) : x = .success := by
  obtain ⟨⟨_, _, hadd⟩, ⟨_, _, hremove⟩, ⟨_, _, hupdate⟩, ⟨_, _, hactivity⟩⟩ := hx
  cases x
  simp only [succeeding] at hadd hremove hupdate hactivity
  rw [← hadd, ← hremove, ← hupdate, ← hactivity]
  rfl

/-- One call, executed alone with every command succeeding. -/
def served (w : GwWorld) (i : Call) : Option (Reply × GwWorld) :=
  (i.slot.run Command.effect succeeding w []).map fun r => (r.1, r.2.1)

/-- Calls one at a time: each with what it returned, and the world after them. -/
def serveAll (w : GwWorld) (calls : List Call) : Option (List (Call × Reply) × GwWorld) :=
  Runs.run served w calls

/-- The call is a default setter or a tick. -/
def Call.isShared : Call → Bool
  | .setDefaultBandWidth _ | .setDefaultQuota _ | .setDefaultTime _ | .setDefaultSession _
  | .tick => true
  | .newSession _ | .startSession _ | .pauseSession _ | .playSession _ | .updateSession _
  | .endSession _ | .deleteSession _ | .setBandwidth _ _ | .setQuota _ _ | .setTime _ _
  | .getDefaultSession | .getSession _ | .getAllSessions | .getIPs
  | .updateQuotaRemaining _ => false

/-- The call names host `a`. -/
def Call.isOn (a : String) (i : Call) : Bool := i.names == some a

/-- The call names host `a`, or is a default setter or a tick. -/
def Call.concerns (a : String) (i : Call) : Bool := i.isOn a || i.isShared

/-- What host `a` sees of the world: itself, and the record that the defaults give it. -/
def hostView (a : String) (w : GwWorld) : Host × Session := (w.host a, w.mem.initSession a)

/-- What a call does to that, and what it returns to a caller that names the host. -/
def hostStep (a : String) (v : Host × Session) (i : Call) : Reply × (Host × Session) :=
  (Host.reply a v.2 .success v.1 i, ((Host.step a v.2 .success v.1 i).host, i.template v.2))

variable {a : String} {w : GwWorld} {i : Call}

/-- A call that does not concern a host leaves it, and what it would be given. -/
theorem step_of_not_concerns {s₀ : Session} {x : Outcomes} {h : Host}
    (hi : i.concerns a = false) :
    (Host.step a s₀ x h i).host = h ∧ i.template s₀ = s₀ := by
  obtain ⟨hon, hshared⟩ := Bool.or_eq_false_iff.mp hi
  rcases Host.step_cases a s₀ x h i with ⟨hserve, hnames⟩ | ⟨hstay, IP, hIP, -⟩
  · -- a call without a name that is not shared only reads
    rw [hserve]
    cases i with
    | setDefaultBandWidth | setDefaultQuota | setDefaultTime | setDefaultSession | tick =>
      exact absurd hshared (by simp [Call.isShared])
    | getDefaultSession | getAllSessions | getIPs => exact ⟨rfl, rfl⟩
    | newSession IP | startSession IP | pauseSession IP | playSession IP | updateSession IP
    | endSession IP | deleteSession IP | setBandwidth IP | setQuota IP | setTime IP
    | getSession IP | updateQuotaRemaining IP =>
      have hIP : IP = a := hnames IP rfl
      exact absurd hon (by simp [Call.isOn, Call.names, hIP])
  · rw [hstay]
    refine ⟨rfl, ?_⟩
    cases i with
    | setDefaultBandWidth | setDefaultQuota | setDefaultTime | setDefaultSession =>
      exact absurd hIP (by simp [Call.names])
    | newSession | startSession | pauseSession | playSession | updateSession | endSession
    | deleteSession | setBandwidth | setQuota | setTime | getDefaultSession | getSession
    | getAllSessions | getIPs | updateQuotaRemaining | tick => rfl

/-- The Controller is to host `a` what `hostStep` says. -/
theorem host_unwinds (a : String) :
    Runs.Unwinds (fun w : GwWorld => w.mem.WF) served (hostView a) (hostStep a)
      (Call.concerns a) (Call.isOn a) where
  sees_of_hears i hi := by rw [Call.concerns, hi, Bool.true_or]
  next w i hw := by
    have hreply : ∃ (r : Reply) (w' : GwWorld) (issued : List (Command × Int)),
        i.slot.run Command.effect succeeding w [] = some (r, w', issued) ∧ w'.mem.WF ∧
        w'.host a = (Host.step a (w.mem.initSession a) .success (w.host a) i).host ∧
        (i.isOn a = true → r = Host.reply a (w.mem.initSession a) .success (w.host a) i) := by
      cases hon : i.isOn a with
      | true =>
        have hnames : i.names = some a := by simpa [Call.isOn] using hon
        obtain ⟨x, hx, w', hrun, he⟩ := slot_serves (o := succeeding) (t := []) hw i hnames
        obtain rfl := allDrawn_succeeding hx
        have hstep : Host.step a (w.mem.initSession a) .success (w.host a) i =
            Host.serve a (w.mem.initSession a) .success (w.host a) i := by
          simp [Host.step, hnames]
        exact ⟨_, w', _, hrun, he.wf, by rw [hstep]; exact he.host, fun _ => rfl⟩
      | false =>
        obtain ⟨r, w', issued, hrun, hacts⟩ := slot_acts (o := succeeding) (t := []) hw i
        obtain ⟨x, hx, hhost, -⟩ := hacts.hosts a
        obtain rfl := allDrawn_succeeding hx
        exact ⟨r, w', _, hrun, hacts.wf, hhost, fun h => absurd h (by simp)⟩
    obtain ⟨r, w', issued, hrun, hw', hhost, hr⟩ := hreply
    have htemplate : w'.mem.initSession a = i.template (w.mem.initSession a) :=
      slot_template (a := a) hrun
    refine ⟨r, w', by simp [served, hrun], hw', fun _ => ?_, fun hi => ?_, hr⟩
    · exact Prod.ext hhost htemplate
    · obtain ⟨hkeep, hsame⟩ : (Host.step a (w.mem.initSession a) .success (w.host a) i).host =
          w.host a ∧ i.template (w.mem.initSession a) = w.mem.initSession a :=
        step_of_not_concerns hi
      exact Prod.ext (hhost.trans hkeep) (htemplate.trans hsame)

/-- Two runs that agree on the calls that name host `a`, the default setters and the ticks
leave it with the same record and the same firewall entry, and return the same to every
call that names it; and from every reachable world, in whatever order a tick visits the
sessions, it does the same to every host. -/
theorem isolation (a : String) :
    (∀ calls calls' : List Call,
      calls.filter (Call.concerns a) = calls'.filter (Call.concerns a) →
      ∃ (out out' : List (Call × Reply)) (w w' : GwWorld),
        serveAll GwWorld.init calls = some (out, w) ∧
        serveAll GwWorld.init calls' = some (out', w') ∧ w.host a = w'.host a ∧
        out.filter (fun e => e.1.isOn a) = out'.filter fun e => e.1.isOn a) ∧
    ∀ w, Reachable w → ∀ order : List Ptr, order.Perm w.mem.sessions.values →
      ∃ (w₁ w₂ : GwWorld) (t₁ t₂ : List (Command × Int)),
        (tickOver order).run Command.effect succeeding w [] = some ((), w₁, t₁) ∧
        tick.run Command.effect succeeding w [] = some ((), w₂, t₂) ∧
        ∀ b, w₁.host b = w₂.host b := by
  refine ⟨fun calls calls' hsame => ?_, fun w hw order horder => ?_⟩
  · obtain ⟨out, out', w, w', hrun, hrun', hview, hout⟩ :=
      (host_unwinds a).agree (s := GwWorld.init) Controller.wf_init hsame
    exact ⟨out, out', w, w', hrun, hrun', congrArg Prod.fst hview, hout⟩
  · obtain ⟨w₁, t₁, hrun₁, h₁⟩ := tickOver_perm_acts (o := succeeding) (t := []) hw.wf horder
    obtain ⟨w₂, t₂, hrun₂, h₂⟩ := tick_acts (o := succeeding) (t := []) hw.wf
    refine ⟨w₁, w₂, _, _, hrun₁, hrun₂, fun b => ?_⟩
    obtain ⟨x₁, hx₁, hhost₁, -⟩ := h₁.hosts b
    obtain ⟨x₂, hx₂, hhost₂, -⟩ := h₂.hosts b
    rw [hhost₁, hhost₂, allDrawn_succeeding hx₁, allDrawn_succeeding hx₂]

end WifiGateway
