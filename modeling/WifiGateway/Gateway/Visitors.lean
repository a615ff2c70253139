import WifiGateway.Api.Fidelity
import WifiGateway.Controller.Aside
import WifiGateway.Gateway.Deployed
import WifiGateway.Web.Endpoint

/-!
# Visitors

A visitor sends requests to `gw_endpoint.php`; the method of `Gateway` that a request invokes makes
a call of the bus (`gatewayCall`), and the Controller gets at most one call out of it
(`GatewayCall.issued`). The call comes in whenever it does, also while a command for another visitor
runs.

As long as requests put the caller first, whatever visitors ask for, in any order and nested in any
way, does nothing to the session of a host that is none of them, nor to its rules if every script is
whole (`visitors_apart`). It can make the commands of that host fail, since only one runs at a time.
A tick is no request, and is not among what comes in here.
-/

namespace WifiGateway

open Script
open Api (GatewayCall Locals)
open Php (Value Entries)
open Waiting (Oracle Machine Config Move Step)
open Web (Method RemoteAddr CallerFirst)

/-! ## From a request to a call -/

/-- The call that a method of `Gateway` makes, given its arguments. A host that is not a string, or
an argument that is not there, does not get through to the bus; `toInt` is what a value is there as
an integer, if it is one. -/
def gatewayCall (toInt : Value → Option Int32) : Method → List Value → Option GatewayCall
  | .startSession, .str host_ip :: _ => some (.startSession host_ip)
  | .pauseSession, .str host_ip :: _ => some (.pauseSession host_ip)
  | .playSession, .str host_ip :: _ => some (.playSession host_ip)
  | .endSession, .str host_ip :: _ => some (.endSession host_ip)
  | .updateSession, .str host_ip :: _ => some (.updateSession host_ip)
  | .getSessionStats, .str host_ip :: _ => some (.getSessionStats host_ip)
  | .getIps, _ => some .getIps
  | .setBandwidth, .str ip :: bw :: _ => (toInt bw).map (.setBandwidth ip)
  | .setQuota, .str ip :: qa :: _ => (toInt qa).map (.setQuota ip)
  | .setTime, .str ip :: qa :: _ => (toInt qa).map (.setTime ip)
  -- `__construct` makes a proxy
  | _, _ => none

/-- The call that the Controller gets. -/
def Api.GatewayCall.issued : GatewayCall → Option Call
  | .startSession host_ip => if Api.truthy host_ip then some (.startSession host_ip) else none
  | .pauseSession host_ip => if Api.truthy host_ip then some (.pauseSession host_ip) else none
  | .playSession host_ip => if Api.truthy host_ip then some (.playSession host_ip) else none
  | .endSession host_ip => some (.endSession host_ip)
  | .updateSession host_ip => some (.updateSession host_ip)
  | .getSessionStats host_ip => some (.getSession host_ip)
  | .getIps => some .getIPs
  | .setBandwidth ip bw => some (.setBandwidth ip bw.toUInt32)
  | .setQuota ip qa | .setTime ip qa => some (.setQuota ip qa)

/-- The call that the Controller gets out of a request. -/
def requestCall (toInt : Value → Option Int32) (remote : RemoteAddr) (post : Entries) :
    Option Call :=
  match Web.endpoint remote post with
  | .invoke m args => (gatewayCall toInt m args).bind GatewayCall.issued
  | .invalidParams | .methodNotFound | .notInvoked => none

variable {toInt : Value → Option Int32} {remote : RemoteAddr} {post : Entries} {m : Method}
  {args : List Value} {a : String} {D : Deployment}

/-! ## Requests that put the caller first -/

/-- They pass the caller's address as the first argument. -/
theorem head_of_callerFirst (h : Web.endpoint remote post = .invoke m args)
    (hfirst : CallerFirst remote post) : args.head? = some (.str remote.text) := by
  obtain ⟨params, hfill, hip, rfl⟩ := Web.endpoint_invoke h
  unfold CallerFirst at hfirst
  cases hp : Php.get post (.str "params") with
  | none =>
    rw [hp] at hfill
    obtain rfl := Value.arr.inj hfill
    rfl
  | some v =>
    rw [hp] at hfill hfirst
    cases v with
    | null =>
      obtain rfl := Value.arr.inj hfill
      rfl
    | str s =>
      unfold Web.fillIp at hfill
      dsimp only at hfill
      split at hfill
      · obtain rfl := Value.arr.inj hfill
        rfl
      · exact absurd hfill (by simp)
    | arr entries =>
      obtain rfl := Value.arr.inj hfill
      cases entries with
      | nil => rfl
      | cons e rest =>
        obtain ⟨k, v⟩ := e
        rw [Php.values_set_head]
        by_cases hk : k = .str "ip"
        · rw [Php.get_set] at hip
          rw [if_pos hk]
          exact hip
        · rw [if_neg hk, hfirst.resolve_left hk]

/-- A method that is called with a host first is about that host, or about none. -/
theorem issued_names {g : GatewayCall} {i : Call} {host : String}
    (h : gatewayCall toInt m args = some g) (hi : g.issued = some i)
    (hhost : args.head? = some (.str host)) : i.names = some host ∨ i = .getIPs := by
  cases args with
  | nil => exact absurd hhost (by simp)
  | cons v rest =>
    obtain rfl : v = .str host := by simpa using hhost
    cases m with
    | construct => exact absurd h (by simp [gatewayCall])
    | getIps =>
      obtain rfl := Option.some.inj h
      exact .inr (Option.some.inj hi).symm
    | startSession | pauseSession | playSession =>
      obtain rfl := Option.some.inj h
      unfold GatewayCall.issued at hi
      dsimp only at hi
      split at hi
      · obtain rfl := Option.some.inj hi
        exact .inl rfl
      · exact absurd hi (by simp)
    | endSession | updateSession | getSessionStats =>
      obtain rfl := Option.some.inj h
      obtain rfl := Option.some.inj hi
      exact .inl rfl
    | setBandwidth | setQuota | setTime =>
      cases rest with
      | nil => exact absurd h (by simp [gatewayCall])
      | cons x rest =>
        obtain ⟨n, -, rfl⟩ := Option.map_eq_some_iff.mp h
        obtain rfl := Option.some.inj hi
        exact .inl rfl

/-- The call out of a request that puts the caller first names the caller, or is about none. -/
theorem requestCall_names (hfirst : CallerFirst remote post) {i : Call}
    (h : requestCall toInt remote post = some i) : i.names = some remote.text ∨ i = .getIPs := by
  unfold requestCall at h
  split at h
  · next m args hinvoke =>
    obtain ⟨g, hg, hi⟩ := Option.bind_eq_some_iff.mp h
    exact issued_names hg hi (head_of_callerFirst hinvoke hfirst)
  · exact absurd h (by simp)
  · exact absurd h (by simp)
  · exact absurd h (by simp)

/-! ## Traffic -/

/-- What comes in: a request, a line of the log that charges a host, the end of a command. -/
inductive Traffic
  | request (remote : RemoteAddr) (post : Entries)
  | charge (IP : String)
  | ends (fate : Fate)

/-- What it is for the Controller. -/
def Traffic.move (toInt : Value → Option Int32) : Traffic → Option (Move Event Fate)
  | .request remote post => (requestCall toInt remote post).map fun i => .call (.call i)
  | .charge IP => some (.call (.call (.updateQuotaRemaining IP)))
  | .ends fate => some (.ends fate)

/-- It comes from hosts that there are, but not from host `a`, and is not about it: a request puts
its caller first. -/
def Traffic.Apart (D : Deployment) (a : String) : Traffic → Prop
  | .request remote post => D.IsHost remote.text ∧ remote.text ≠ a ∧ CallerFirst remote post
  | .charge IP => D.IsHost IP ∧ IP ≠ a
  | .ends _ => True

/-- It names another host that there is, or none. -/
theorem Traffic.Apart.only {t : Traffic} (h : t.Apart D a) {m : Move Event Fate}
    (hm : t.move toInt = some m) :
    m.Only D.Names ∧ m.Only fun e => Event.aside a e = true := by
  cases t with
  | request remote post =>
    obtain ⟨hhost, hne, hfirst⟩ := h
    obtain ⟨i, hi, rfl⟩ := Option.map_eq_some_iff.mp hm
    rcases requestCall_names hfirst hi with hnames | rfl
    · have htick : i ≠ .tick := by
        rintro rfl
        exact absurd hnames (by simp [Call.names])
      refine ⟨fun b hb => ?_, ?_⟩
      · obtain rfl := Option.some.inj (hnames.symm.trans hb)
        exact hhost
      · simp [Move.Only, Event.aside, Call.aside, hnames, hne, htick]
    · exact ⟨fun b hb => absurd hb (by simp [Call.names]), rfl⟩
  | charge IP =>
    obtain ⟨hhost, hne⟩ := h
    obtain rfl := Option.some.inj hm
    refine ⟨fun b hb => ?_, ?_⟩
    · obtain rfl := Option.some.inj hb
      exact hhost
    · simp [Move.Only, Event.aside, Call.aside, Call.names, hne]
  | ends fate =>
    obtain rfl := Option.some.inj hm
    exact ⟨trivial, trivial⟩

/-- Where nothing waits and nothing went wrong, nothing runs. -/
theorem Sound.eq_idle {c : Config Event Controller Firewall Command Ptr} (h : Sound c)
    (hstack : c.stack = []) (hcrash : c.crashed = false) : c = Config.idle c.world := by
  cases h with
  | idle hi => rfl
  | waiting hd => exact absurd hstack (by simp)
  | crashed hc => exact absurd (hc.symm.trans hcrash) (by simp)

/-- In the model, from any point on where no command is in flight: calls that leave host `a` aside
leave it as it is. -/
theorem aside_after {pre steps : List (Step Event)}
    (hidle : (fullGateway.run (Config.idle GwWorld.init) pre).stack = [])
    (hsteps : ∀ s ∈ steps, s.Only fun e => Event.aside a e = true)
    (hcrash : (fullGateway.run (Config.idle GwWorld.init) (pre ++ steps)).crashed = false) :
    let c := fullGateway.run (Config.idle GwWorld.init) pre
    let d := fullGateway.run (Config.idle GwWorld.init) (pre ++ steps)
    GwWorld.host d.world a = GwWorld.host c.world a ∧ ∀ f ∈ d.stack, f.cmd.host ≠ some a := by
  intro c d
  have hsplit : d = fullGateway.run c steps := List.foldl_append ..
  have hnow : c.crashed = false := by
    have hend : d.crashed = false := hcrash
    rw [hsplit] at hend
    exact Machine.not_crashed hend
  have hsound : Sound c := (sound_run hnow).1
  have hstart : c = Config.idle c.world := hsound.eq_idle hidle hnow
  have hrun := aside_run (hsound.wf hnow) hsteps
  rw [← hstart, ← hsplit] at hrun
  exact hrun hcrash

/-- In every run of the deployed gateway in which every script is whole, from any point of it on
where no command is in flight: whatever comes in from other visitors, as long as their requests put
the caller first, and however it is nested, the session of a host and its rules in each of the three
chains stay as they are, and no command is about it, unless the program has used a record that it
has deleted. -/
theorem visitors_apart (D : Deployment) (toInt : Value → Option Int32)
    {pre : List (Move Event Fate)} {ip : Ipv4} {traffic : List Traffic}
    (hpre : ∀ m ∈ pre, m.Only D.Names) (hidle : (D.run pre).stack = [])
    (hapart : ∀ t ∈ traffic, t.Apart D ip.text)
    (hwhole : D.AllWhole (pre ++ traffic.filterMap (Traffic.move toInt)))
    (hcrash : (D.run (pre ++ traffic.filterMap (Traffic.move toInt))).crashed = false) :
    let c := D.run pre
    let d := D.run (pre ++ traffic.filterMap (Traffic.move toInt))
    d.world.mem.record ip.text = c.world.mem.record ip.text ∧
      (∀ k, rulesFor ip d.world.env k = rulesFor ip c.world.env k) ∧
      ∀ f ∈ d.stack, f.cmd.host ≠ some ip.text := by
  intro c d
  have honly : ∀ m ∈ traffic.filterMap (Traffic.move toInt),
      m.Only D.Names ∧ m.Only fun e => Event.aside ip.text e = true := by
    intro m hm
    obtain ⟨t, ht, hmove⟩ := List.mem_filterMap.mp hm
    exact (hapart t ht).only hmove
  have hmoves : ∀ m ∈ pre ++ traffic.filterMap (Traffic.move toInt), m.Only D.Names := by
    intro m hm
    rcases List.mem_append.mp hm with hm | hm
    · exact hpre m hm
    · exact (honly m hm).1
  have hc := D.related hpre (Waiting.Machine.allEnds_append.mp hwhole).1
  have hd := D.related hmoves hwhole
  -- the model, after the steps that the program has seen
  have hsteps : D.steps (pre ++ traffic.filterMap (Traffic.move toInt)) = D.steps pre ++
      fullGateway.stepsOf (runScript D.dir D.special) c (traffic.filterMap (Traffic.move toInt)) :=
    Waiting.Machine.stepsOf_append ..
  have hcrashed : (D.seen (pre ++ traffic.filterMap (Traffic.move toInt))).crashed = false :=
    hd.crashed.symm.trans hcrash
  have hseen : D.seen (pre ++ traffic.filterMap (Traffic.move toInt)) =
      fullGateway.run (Config.idle GwWorld.init) (D.steps pre ++ _) :=
    congrArg (fullGateway.run (Config.idle GwWorld.init)) hsteps
  have hstack : (fullGateway.run (Config.idle GwWorld.init) (D.steps pre)).stack = [] :=
    hc.stack.symm.trans hidle
  obtain ⟨hhost, habout⟩ := aside_after hstack
    (Waiting.Machine.stepsOf_only fun m hm => (honly m hm).2) (hseen ▸ hcrashed)
  rw [← hseen] at hhost habout
  have henv : (D.seen (pre ++ traffic.filterMap (Traffic.move toInt))).world.env ip.text =
      (D.seen pre).world.env ip.text := congrArg Host.rule hhost
  refine ⟨?_, fun k => ?_, fun f hf => habout f (hd.stack ▸ hf)⟩
  · rw [show d.world.mem = _ from hd.mem, show c.world.mem = _ from hc.mem]
    exact congrArg Host.record hhost
  · rw [hd.env.shows.rules k ip, hc.env.shows.rules k ip, henv]

/-- A visitor at 10.1.5.27. -/
def otherVisitor : RemoteAddr := ⟨"10.1.5.27", by decide⟩

/-- It starts a session, sets a quota while it waits for that, and ends it, which is refused. -/
def otherTraffic : List Traffic :=
  [.request otherVisitor [(.str "method", .str "start_session")],
    .request otherVisitor [(.str "method", .str "set_quota"),
      (.str "params", .arr [(.str "ip", .str "10.1.5.27"), (.str "qa", .str "5")])],
    .charge "10.1.5.27", .ends Fate.clear,
    .request otherVisitor [(.str "method", .str "end_session"), (.str "params", .str "")],
    .ends ⟨fun _ => true, none⟩]

theorem visitors_apart_otherTraffic :
    let c := leaseGateway.run startedMoves
    let d := leaseGateway.run
      (startedMoves ++ otherTraffic.filterMap (Traffic.move fun _ => some 5))
    d.world.mem.record (Ipv4.text ⟨10, 1, 5, 26⟩) = c.world.mem.record (Ipv4.text ⟨10, 1, 5, 26⟩) ∧
      (∀ k, rulesFor ⟨10, 1, 5, 26⟩ d.world.env k = rulesFor ⟨10, 1, 5, 26⟩ c.world.env k) ∧
      ∀ f ∈ d.stack, f.cmd.host ≠ some (Ipv4.text ⟨10, 1, 5, 26⟩) := by
  have hhost : leaseGateway.IsHost "10.1.5.27" :=
    ⟨⟨10, 1, 5, 27⟩, ⟨⟨rfl, rfl, rfl, by decide, by decide⟩, by decide⟩, by decide⟩
  have hne : "10.1.5.27" ≠ Ipv4.text ⟨10, 1, 5, 26⟩ := by decide
  refine visitors_apart leaseGateway _ startedMoves_names (by decide +kernel) ?_ ?_
    (by decide +kernel)
  · intro t ht
    simp only [otherTraffic, List.mem_cons, List.not_mem_nil, or_false] at ht
    rcases ht with rfl | rfl | rfl | rfl | rfl | rfl
    · exact ⟨hhost, hne, trivial⟩
    · exact ⟨hhost, hne, .inl rfl⟩
    · exact ⟨hhost, hne⟩
    · trivial
    · exact ⟨hhost, hne, trivial⟩
    · trivial
  · refine Waiting.Machine.allEnds_append.mpr ⟨startedMoves_whole, ?_⟩
    exact ⟨trivial, trivial, trivial, fun _ _ _ _ => Fate.clear_whole _, trivial,
      fun _ _ _ _ => .inr fun _ _ => rfl, trivial⟩

end WifiGateway
