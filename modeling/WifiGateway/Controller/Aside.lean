import WifiGateway.Controller.Register
import WifiGateway.Controller.Within
import WifiGateway.Waiting.Restricted

/-!
# A host that others leave alone

Calls about other hosts run in any order and inside one another, and each of them goes on with a
pointer that it looked up before it waited. None of them touches the record or the rule of a host
that no call is about (`aside_run`): a pointer that was not the host's when it was looked up never
becomes the host's, because the host keeps its own.

A tick is about every host, and so is the clean-up; neither is among these calls.
-/

namespace WifiGateway

open Waiting (Code Interference Machine Config Frame Step)

/-- A call that is not about host `a`: it names another one, or none and does not act on hosts. -/
def Call.aside (a : String) (i : Call) : Bool := i.names != some a && i != .tick

def Event.aside (a : String) : Event → Bool
  | .call i => i.aside a
  | .cleanup => false

/-- Host `a` is `h`, its record behind the pointer `pa`, if it has one. -/
structure Untroubled (a : String) (h : Host) (pa : Option Ptr) (w : GwWorld) : Prop where
  wf : w.mem.WF
  host : w.host a = h
  ptr : w.mem.sessions[a]? = pa

/-- While a command about another host runs. -/
def asideOf (a : String) (h : Host) (pa : Option Ptr) :
    Interference Controller Firewall Command Ptr where
  during c _ w w' := c.About (· ≠ a) ∧ Untroubled a h pa w ∧ Untroubled a h pa w'
  ends _ _ _ _ := True
  crashes := True

/-- The slot leaves host `a` as it is, whatever else that does is called at its waits. -/
def Leaves {α : Type} (a : String) (h : Host) (pa : Option Ptr) (q : Slot α) : Prop :=
  ∀ w, Untroubled a h pa w →
    q.wp Command.effect (asideOf a h pa) (fun _ w' => Untroubled a h pa w') w

variable {α β : Type} {a b : String} {h : Host} {pa : Option Ptr} {p : Ptr} {w : GwWorld}

namespace Untroubled

/-- What is done to another host. -/
theorem of_effect {h' : Host} {w' : GwWorld} (hu : Untroubled a h pa w) (hb : b ≠ a)
    (he : Effect b h' w w') : Untroubled a h pa w' :=
  ⟨he.wf, (he.others a hb.symm).trans hu.host, (he.otherPtr a hb.symm).trans hu.ptr⟩

/-- A record behind another pointer is that of another host. -/
theorem other (hu : Untroubled a h pa w) (hp : pa ≠ some p) {s : Session}
    (hs : w.mem.heap p = some s) : s.IP ≠ a := by
  rintro rfl
  exact hp (hu.ptr.symm.trans (hu.wf.owned p s hs))

/-- Another host is found behind another pointer. -/
theorem ptr_ne (hu : Untroubled a h pa w) (hb : b ≠ a) (hp : w.mem.sessions[b]? = some p) :
    pa ≠ some p := by
  intro hpa
  exact hb (hu.wf.key_unique (hu.ptr.trans hpa) hp)

theorem effect (hu : Untroubled a h pa w) {c : Command} (hc : c.About (· ≠ a)) (status : Int) :
    Untroubled a h pa { w with env := c.effect status w.env } := by
  refine ⟨hu.wf, ?_, hu.ptr⟩
  have henv : c.effect status w.env a = w.env a := by
    obtain ⟨b, hhost, hb⟩ := hc
    cases c with
    | addHost IP bw quota | removeHost IP =>
      obtain rfl := Option.some.inj hhost
      by_cases h0 : status = 0
      · simp [Command.effect, h0, hb.symm]
      · simp [Command.effect, h0]
    | cleanUp => exact absurd hhost (by simp [Command.host])
  rw [← hu.host]
  simp only [GwWorld.host, henv]

end Untroubled

/-! ## Rules -/

theorem leaves_ret (x : α) : Leaves a h pa (Code.ret x) := fun _ hu => hu

theorem Leaves.bind {q : Slot α} {f : α → Slot β} (hq : Leaves a h pa q)
    (hf : ∀ x, Leaves a h pa (f x)) : Leaves a h pa (q.bind f) := fun w hu =>
  (Code.wp_bind q f _ w).mpr (Code.wp_mono (fun x w' hu' => hf x w' hu') (hq w hu))

theorem Leaves.when {b : Prop} [Decidable b] {q : Slot Unit} (hq : Leaves a h pa q) :
    Leaves a h pa (Code.when b q) := by
  unfold Code.when
  split
  · exact hq
  · exact leaves_ret ()

/-- What is read does not matter. -/
theorem leaves_get_bind {f : Controller → Slot α}
    (hf : ∀ w, Untroubled a h pa w →
      (f w.mem).wp Command.effect (asideOf a h pa) (fun _ w' => Untroubled a h pa w') w) :
    Leaves a h pa (Code.get.bind f) := fun w hu => hf w hu

theorem leaves_deref (p : Ptr) : Leaves a h pa (deref p) := by
  refine leaves_get_bind fun w hu => ?_
  cases w.mem.heap p with
  | none => exact trivial
  | some s => exact hu

theorem leaves_assign (hp : pa ≠ some p) {f : Session → Session} (hf : ∀ s, (f s).IP = s.IP) :
    Leaves a h pa (assign p f) := by
  intro w hu
  cases hs : w.mem.heap p with
  | none =>
    simp only [assign, deref, Code.bind_eq, Code.wp_bind, Code.wp_get, hs, Code.wp_crash]
    trivial
  | some s =>
    refine Code.wp_of_run (o := refusing) (t := []) (run_assign hs f) ?_
    exact hu.of_effect (hu.other hp hs) (Effect.store hu.wf (hu.wf.owned p s hs) (hf s))

theorem leaves_runCommandExec {c : Command} (hc : c.About (· ≠ a)) (held : Int → List Ptr) :
    Leaves a h pa (runCommandExec c held) := fun _ hu =>
  ⟨⟨hc, hu, hu⟩, fun _ status hd _ => hd.2.2.effect hc status⟩

/-- Looking another host up. -/
theorem leaves_withSession (hb : b ≠ a) {f : Ptr → Slot Int}
    (hf : ∀ p, pa ≠ some p → Leaves a h pa (f p)) : Leaves a h pa (withSession b f) := by
  refine leaves_get_bind fun w hu => ?_
  split
  · exact hu
  · next p hp => exact hf p (hu.ptr_ne hb hp) w hu

theorem leaves_withRecord (hb : b ≠ a) {f : Ptr → Session → Slot Int}
    (hf : ∀ p s, pa ≠ some p → Leaves a h pa (f p s)) :
    Leaves a h pa (withSession b fun p => (deref p).bind (f p)) :=
  leaves_withSession hb fun p hp => (leaves_deref p).bind fun s => hf p s hp

/-! ## The slots for another host -/

section Slots

variable (hb : b ≠ a)
include hb

theorem leaves_newSession : Leaves a h pa (newSession b) := by
  intro w hu
  obtain ⟨w', hrun, he⟩ := newSession_acts (o := refusing) (t := []) (a := b) hu.wf
  exact Code.wp_of_run (o := refusing) hrun (hu.of_effect hb he)

theorem leaves_revokeAccess (hp : pa ≠ some p) (st : SessionState) :
    Leaves a h pa (revokeAccess b p st) := by
  refine (leaves_runCommandExec ⟨b, rfl, hb⟩ _).bind fun _ => ?_
  refine (Leaves.when ?_).bind fun _ => leaves_ret _
  exact leaves_assign hp fun _ => rfl

theorem leaves_grantAccess (hp : pa ≠ some p) (s : Session) :
    Leaves a h pa (grantAccess b p s) := by
  refine (leaves_runCommandExec ⟨b, rfl, hb⟩ _).bind fun _ => ?_
  refine (Leaves.when ?_).bind fun _ => leaves_ret _
  exact leaves_assign hp fun _ => rfl

theorem leaves_startSession : Leaves a h pa (startSession b) := by
  refine (leaves_newSession hb).bind fun _ => leaves_withRecord hb fun p s hp => ?_
  split
  · exact leaves_ret 0
  · split
    · exact leaves_grantAccess hb hp s
    · exact leaves_ret (-1)

theorem leaves_pauseSession : Leaves a h pa (pauseSession b) := by
  refine leaves_withRecord hb fun p s hp => ?_
  split
  · exact leaves_ret 0
  · split
    · exact leaves_revokeAccess hb hp .paused
    · exact leaves_ret (-1)

theorem leaves_playSession : Leaves a h pa (playSession b) := by
  refine leaves_withRecord hb fun p s _ => ?_
  split
  · exact leaves_ret 0
  · split
    · exact leaves_startSession hb
    · exact leaves_ret (-1)

theorem leaves_endSession : Leaves a h pa (endSession b) := by
  refine leaves_withRecord hb fun p s hp => ?_
  split
  · exact leaves_ret 0
  · exact leaves_revokeAccess hb hp .ended

omit hb in
/-- A session that was not the host's when it was looked up is not removed as the host's. -/
theorem leaves_removeSession (hp : pa ≠ some p) : Leaves a h pa (removeSession p) := by
  intro w hu
  cases hs : w.mem.heap p with
  | none =>
    have hkey : w.mem.sessions.key p = "" := QMap.key_eq_empty fun b hb => by
      obtain ⟨s, hs', -⟩ := hu.wf.stored b p hb
      exact absurd (hs.symm.trans hs') (by simp)
    refine Code.wp_of_run (o := refusing) (t := []) (a := ()) (v := w) ?_ hu
    simp [removeSession, Code.run_when, hkey]
  | some s =>
    have hptr := hu.wf.owned p s hs
    by_cases hIP : s.IP = ""
    · rw [hIP] at hptr
      exact Code.wp_of_run (o := refusing) (t := []) (removeSession_run_empty hu.wf hptr) hu
    · refine Code.wp_of_run (o := refusing) (t := []) (removeSession_run hu.wf hptr hIP) ?_
      exact hu.of_effect (hu.other hp hs) (Effect.remove hu.wf hptr)

theorem leaves_deleteSession : Leaves a h pa (deleteSession b) :=
  leaves_withSession hb fun _ hp => (leaves_endSession hb).bind fun _ =>
    (leaves_removeSession hp).when.bind fun _ => leaves_ret _

theorem leaves_amendSession {f : Session → Session} (hf : ∀ s, (f s).IP = s.IP) :
    Leaves a h pa (amendSession b f) :=
  leaves_withSession hb fun _ hp => (leaves_assign hp hf).bind fun _ => leaves_ret 0

theorem leaves_setLimit {f : Session → Session} (hf : ∀ s, (f s).IP = s.IP) :
    Leaves a h pa (setLimit b f) :=
  leaves_withSession hb fun _ hp => (leaves_assign hp hf).bind fun _ =>
    (leaves_pauseSession hb).bind fun _ => (leaves_playSession hb).bind fun _ => leaves_ret 0

end Slots

/-! ## The slots for no host -/

theorem leaves_modify {f : Controller → Controller}
    (hsessions : ∀ c, (f c).sessions = c.sessions) (hheap : ∀ c, (f c).heap = c.heap)
    (hfresh : ∀ c, (f c).fresh = c.fresh) : Leaves a h pa (Code.modify f) := by
  intro w hu
  refine ⟨⟨?_, ?_, ?_⟩, ?_, ?_⟩
  · rw [hsessions, hheap]
    exact hu.wf.stored
  · rw [hsessions, hheap]
    exact hu.wf.owned
  · rw [hfresh, hheap]
    exact hu.wf.unused
  · rw [← hu.host]
    simp only [GwWorld.host, Controller.record, hsessions, hheap]
  · rw [← hu.ptr]
    exact congrArg (·[a]?) (hsessions w.mem)

theorem leaves_getSession (b : String) : Leaves a h pa (getSession b) := by
  refine leaves_get_bind fun w hu => ?_
  split
  · exact hu
  · next p _ => exact ((leaves_deref p).bind fun s => leaves_ret _) w hu

theorem leaves_derefAll (l : List Ptr) : Leaves a h pa (derefAll l) := by
  induction l with
  | nil => exact leaves_ret []
  | cons p rest ih => exact (leaves_deref p).bind fun s => ih.bind fun ss => leaves_ret (s :: ss)

/-- Every call that is not about the host leaves it as it is. -/
theorem leaves_slot {i : Call} (hi : i.aside a = true) : Leaves a h pa i.slot := by
  have hstatus : ∀ {q : Slot Int}, Leaves a h pa q →
      Leaves a h pa (q.bind fun x => .ret (Reply.status x)) :=
    fun hq => hq.bind fun _ => leaves_ret _
  have hdefault : ∀ {f : Controller → Controller}, (∀ c, (f c).sessions = c.sessions) →
      (∀ c, (f c).heap = c.heap) → (∀ c, (f c).fresh = c.fresh) →
      Leaves a h pa (((Code.modify f : Slot Unit).bind fun _ => .ret (0 : Int)).bind fun x =>
        .ret (Reply.status x)) := fun hsessions hheap hfresh =>
    hstatus ((leaves_modify hsessions hheap hfresh).bind fun _ => leaves_ret 0)
  obtain ⟨hnames, htick⟩ : i.names ≠ some a ∧ i ≠ .tick := by simpa [Call.aside] using hi
  have hname : ∀ {IP : String}, i.names = some IP → IP ≠ a := by
    rintro IP hIP rfl
    exact hnames hIP
  cases i with
  | newSession IP => exact hstatus (leaves_newSession (hname rfl))
  | startSession IP => exact hstatus (leaves_startSession (hname rfl))
  | pauseSession IP => exact hstatus (leaves_pauseSession (hname rfl))
  | playSession IP => exact hstatus (leaves_playSession (hname rfl))
  | endSession IP => exact hstatus (leaves_endSession (hname rfl))
  | deleteSession IP => exact hstatus (leaves_deleteSession (hname rfl))
  | updateSession IP | setTime IP | updateQuotaRemaining IP =>
    exact hstatus (leaves_amendSession (hname rfl) fun _ => rfl)
  | setBandwidth IP | setQuota IP => exact hstatus (leaves_setLimit (hname rfl) fun _ => rfl)
  | setDefaultBandWidth | setDefaultQuota | setDefaultTime | setDefaultSession =>
    exact hdefault (fun _ => rfl) (fun _ => rfl) fun _ => rfl
  | getDefaultSession =>
    exact Leaves.bind (leaves_get_bind (f := fun c => .ret (c.initSession "")) fun _ hu => hu)
      fun _ => leaves_ret _
  | getIPs =>
    exact Leaves.bind (leaves_get_bind (f := fun c => .ret c.sessions.keys) fun _ hu => hu)
      fun _ => leaves_ret _
  | getSession IP => exact (leaves_getSession IP).bind fun _ => leaves_ret _
  | getAllSessions =>
    exact Leaves.bind (leaves_get_bind fun w hu => leaves_derefAll _ w hu) fun _ => leaves_ret _
  | tick => exact absurd rfl htick

/-! ## Runs -/

/-- A nested call, its commands being refused. -/
theorem Untroubled.nested (hu : Untroubled a h pa w) {i : Call} (hi : i.aside a = true) :
    ∃ r, (Event.call i).slot.run Command.effect refusing w [] = some r ∧
      Untroubled a h pa r.2.1 := by
  obtain ⟨hnames, htick⟩ : i.names ≠ some a ∧ i ≠ .tick := by simpa [Call.aside] using hi
  obtain ⟨w', issued, hrun, hacts⟩ := nested_call hu.wf i
  obtain ⟨x, -, hhost, -⟩ := hacts.hosts a
  have hstay : (Host.step a (w.mem.initSession a) x (w.host a) i).host = w.host a := by
    rcases Host.step_cases a (w.mem.initSession a) x (w.host a) i with ⟨hserve, hIP⟩ | ⟨he, -⟩
    · cases hn : i.names with
      | some IP => exact absurd hn (hIP IP hn ▸ hnames)
      | none =>
        rw [hserve]
        cases i with
        | tick => exact absurd rfl htick
        | setDefaultBandWidth | setDefaultQuota | setDefaultTime | setDefaultSession
        | getDefaultSession | getAllSessions | getIPs => rfl
        | _ => exact absurd hn (by simp [Call.names])
    · rw [he]
      rfl
  have hsame : w'.host a = w.host a := hhost.trans hstay
  refine ⟨_, hrun, hacts.wf, hsame.trans hu.host, ?_⟩
  show w'.mem.sessions[a]? = pa
  rw [← hu.ptr]
  -- the record is there before and after, or it is not
  have hrecord : w'.mem.record a = w.mem.record a := congrArg Host.record hsame
  cases hq : w'.mem.sessions[a]? with
  | none =>
    rw [Controller.record_none hq] at hrecord
    exact (hu.wf.record_eq_none.mp hrecord.symm).symm
  | some q =>
    cases hp : w.mem.sessions[a]? with
    | none =>
      rw [Controller.record_none hp] at hrecord
      exact absurd (hacts.wf.record_eq_none.mp hrecord) (by simp [hq])
    | some p => rw [hacts.ptr a p q hp hq]

theorem aside_rules :
    Machine.Rules (fullGateway.restrict (Event.aside a)) (asideOf a h pa) (Untroubled a h pa)
      fun _ _ => True where
  refused := effect_refused
  opened e w ho hu := by
    have hi : Event.aside a e = true := by
      simpa [Machine.restrict, fullGateway, gateway] using ho
    cases e with
    | call i => exact ((leaves_slot hi).bind fun _ => leaves_ret ()) w hu
    | cleanup => exact absurd hi (by simp [Event.aside])
  nested f e w₀ w hadm hd _ := by
    obtain ⟨hc, hu₀, hu⟩ := hd
    have hi : Event.aside a e = true := by
      simp only [Machine.restrict, Bool.and_eq_true] at hadm
      exact hadm.2
    cases e with
    | call i =>
      obtain ⟨r, hr, hu'⟩ := hu.nested hi
      exact ⟨r, hr, hc, hu₀, hu'⟩
    | cleanup => exact absurd hi (by simp [Event.aside])
  completed _ _ _ _ _ _ := trivial

/-- From an idle gateway, a run in which no call is about host `a`, the calls nested in one another
in any way: the host has the record and the rule that it had, and no command is about it. -/
theorem aside_run (hw : w.mem.WF) {steps : List (Step Event)}
    (hsteps : ∀ s ∈ steps, s.Only fun e => Event.aside a e = true) :
    let c := fullGateway.run (Config.idle w) steps
    c.crashed = false →
      GwWorld.host c.world a = w.host a ∧ ∀ f ∈ c.stack, f.cmd.host ≠ some a := by
  intro c hcrash
  have hstart : Untroubled a (w.host a) w.mem.sessions[a]? w := ⟨hw, rfl, rfl⟩
  have hgood := Machine.Good.run aside_rules steps (.idle hstart)
    (Machine.allSteps_true _ _ steps)
  rw [Machine.run_restrict hsteps] at hgood
  change Machine.Good _ _ _ c at hgood
  generalize c = d at hgood hcrash ⊢
  cases hgood with
  | idle hu => exact ⟨hu.host, fun f hf => absurd hf List.not_mem_nil⟩
  | waiting hd hn =>
    obtain ⟨⟨b, hhost, hb⟩, -, hu⟩ := hd
    refine ⟨hu.host, fun f hf => ?_⟩
    obtain rfl := List.mem_singleton.mp hf
    rw [hhost]
    exact fun heq => hb (Option.some.inj heq)
  | crashed hc => exact absurd (hc.symm.trans hcrash) (by simp)

end WifiGateway
