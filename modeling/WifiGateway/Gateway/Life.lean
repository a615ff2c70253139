import WifiGateway.Gateway.Deployed

/-!
# What a life of the gateway leaves behind

Whatever happens between `gw_init` and a last `gw_clean_up` that is carried out, the rules
are those of before (`life_undone`): calls nested in calls, clean-ups in the middle, texts
that are no address, commands that `iptables` refuses one by one, scripts that are killed. This
is for texts that the shell does nothing to but splitting them (`Event.Splits`); others are command
lines of their own.
-/

namespace WifiGateway

open Script
open Iptables (Footprint)
open Waiting (Code Machine Config Move)
open Waiting.Machine (Related Orderly Issues)

variable {dir : ScriptDir} {special : Special} {c : Command} {env : Settings}
  {base rs : Iptables.Ruleset} {fate : Fate}

/-! ## Texts that the shell only splits -/

/-- The text of the host, if there is one, is one that the shell only splits. -/
def Command.Splits (c : Command) : Prop := ∀ a, c.host = some a → Shell.plain a = true

/-- A call that gives the Controller no other text. -/
def Event.Splits : Event → Prop
  | .call i => ∀ a, i.names = some a → Shell.plain a = true
  | .cleanup => True

/-- The shell makes words of such a command line. -/
theorem Command.Splits.arguments (hc : c.Splits) : ∃ args, arguments dir c = some args := by
  cases hhost : c.host with
  | some a => exact ⟨_, arguments_eq hhost (hc a hhost)⟩
  | none =>
    cases c with
    | addHost | removeHost => exact absurd hhost (by simp [Command.host])
    | cleanUp =>
      have hscript : IsArgument (dir.path ++ "/wifigateway-script/gw_clean_up.sh") :=
        isArgument_script dir (by decide) (by decide) (by decide)
      have hsplit : ∃ ws, Shell.split (commandLine dir .cleanUp) = some ws :=
        ⟨_, if_pos hscript.plain⟩
      obtain ⟨ws, hws⟩ := hsplit
      exact ⟨_, congrArg _ hws⟩

/-- All events issue such commands only, as long as they are given such texts only. -/
theorem Event.issues_splits :
    Issues fullGateway (Controller.Knows fun a => Shell.plain a = true) Command.Splits
      Event.Splits := by
  have habout : ∀ c : Command, c.About (fun a => Shell.plain a = true) → c.Splits := by
    rintro c ⟨a, hhost, ha⟩ a' ha'
    obtain rfl := Option.some.inj (hhost.symm.trans ha')
    exact ha
  intro e he
  cases e with
  | call i =>
    exact ((Call.within i he).weaken habout).andThen fun _ => Code.stays_ret trivial
  | cleanup =>
    have hclean : Command.cleanUp.Splits := fun a ha => absurd ha (by simp [Command.host])
    exact (Code.stays_command hclean).andThen fun _ => within_clearSessions.weaken habout

/-! ## What a script leaves -/

/-- A script for a host leaves nothing more, whatever is refused of it and wherever it is killed. -/
theorem Covers.report {fp : Footprint} (hempty : fp.empty = []) (h : fp.Covers isGateway base rs)
    (call : HostCall) : fp.Covers isGateway base (call.report fate.refuses fate.killed rs).2 := by
  unfold HostCall.report
  cases fate.killed with
  | none =>
    cases call with
    | add ip bw => exact Covers.hostCall hempty h (.add ip bw)
    | remove ip => exact Covers.hostCall hempty h (.remove ip)
  | some n => exact Covers.commands hempty (fun _ hc => List.mem_of_mem_take hc) h

/-- A clean-up takes away only. -/
theorem Covers.cleanUp {fp : Footprint} (hbase : Clean base) (h : fp.Covers isGateway base rs) :
    fp.Covers isGateway base (cleanUpReport fate rs).2 := by
  have htakes : ∀ c ∈ cleanUpCommands, Footprint.takes isGateway c = true := by decide
  unfold cleanUpReport
  cases fate.killed with
  | none => exact h.takesAll hbase htakes
  | some n => exact h.takesAll hbase fun c hc => htakes c (List.mem_of_mem_take hc)

/-- A clean-up that is carried out leaves nothing. -/
theorem Covers.undone (hbase : Clean base) (h : (initFootprint env).Covers isGateway base rs) :
    (gwCleanUp Iptables.refusesNone rs).2 = base := by
  obtain ⟨fp, hrun, hchains, hhooks⟩ := cleanUp_footprint env
  simp only [gwCleanUp]
  exact (h.shrinkAll hbase hrun).eq_base hbase hchains hhooks

/-- A script leaves no more than `gw_init` does, however it fares. -/
theorem Covers.script (hbase : Clean base) (h : (initFootprint env).Covers isGateway base rs)
    (hc : c.Splits) : (initFootprint env).Covers isGateway base
      (runScript dir special c fate rs).2 := by
  obtain ⟨args, hargs⟩ : ∃ args, arguments dir c = some args := hc.arguments
  unfold runScript
  rw [hargs]
  cases c with
  | addHost => exact Covers.report rfl h (.add (argument args 1) (argument args 2))
  | removeHost => exact Covers.report rfl h (.remove (argument args 1))
  | cleanUp => exact Covers.cleanUp hbase h

/-- What runs of the gateway leave is no more than what `gw_init` does: in every order of calls and
clean-ups, nested or not, with any texts that the shell only splits, and however every script
fares. -/
theorem Covers.gatewayRun (hbase : Clean base)
    (h : (initFootprint env).Covers isGateway base rs) (dir : ScriptDir) (special : Special)
    {moves : List (Move Event Fate)} (hmoves : ∀ m ∈ moves, m.Only Event.Splits) :
    let d := fullGateway.runMoves (runScript dir special) (Config.idle ⟨Controller.init, rs⟩) moves
    (initFootprint env).Covers isGateway base d.world.env := by
  intro d
  -- next to the model, whose firewall does not matter here
  let R : Firewall → Iptables.Ruleset → Prop := fun _ rs =>
    (initFootprint env).Covers isGateway base rs
  have hR : ∀ c fate fw rs, c.Splits → R fw rs → True →
      R (fullGateway.effect c (runScript dir special c fate rs).1 fw)
        (runScript dir special c fate rs).2 :=
    fun c fate fw rs hc h _ => Covers.script hbase h hc
  have hstart : Related R (Config.idle GwWorld.init : Config Event Controller Firewall Command Ptr)
      (Config.idle ⟨Controller.init, rs⟩) := ⟨rfl, h, rfl, rfl, rfl⟩
  have horderly : Orderly (Controller.Knows fun a => Shell.plain a = true) Command.Splits
      (Config.idle GwWorld.init : Config Event Controller Firewall Command Ptr) :=
    ⟨fun _ => .init, fun f hf => absurd hf List.not_mem_nil⟩
  exact (Machine.runMoves_related Event.issues_splits hR horderly hstart hmoves
    (Machine.allEnds_true _ moves)).2.env

/-- After `gw_init`, any run of the gateway and a clean-up that is carried out, the rules are those
of before: in every order of calls and clean-ups, nested or not, with any texts that the shell only
splits, and whatever is refused until then of `gw_init` and of every script, and wherever these are
killed. -/
theorem life_undone (hbase : Clean base) (hreset : env.resetIptables ≠ "yes") (dir : ScriptDir)
    (special : Special) (refusesInit : Iptables.Command → Bool) {moves : List (Move Event Fate)}
    (hmoves : ∀ m ∈ moves, m.Only Event.Splits) :
    let d := fullGateway.runMoves (runScript dir special)
      (Config.idle ⟨Controller.init, (gwInit refusesInit env base).2⟩) moves
    (gwCleanUp Iptables.refusesNone d.world.env).2 = base := by
  intro d
  have hinit : (initFootprint env).Covers isGateway base (gwInit refusesInit env base).2 :=
    hbase.gwInit hreset
  exact Covers.undone hbase (Covers.gatewayRun hbase hinit dir special hmoves)

/-- A session is started and one of the commands refused, the clean-up is requested in between and
once more, and that is killed after ten of its commands. -/
def cleanedMoves : List (Move Event Fate) :=
  [.call (.call (.startSession "10.0.0.7")), .call .cleanup, .ends ⟨refusesLimit0, none⟩,
    .call .cleanup, .ends ⟨Iptables.refusesNone, some 10⟩]

theorem life_undone_cleanedMoves :
    let env : Settings := ⟨"eth0", "wlan0", "yes", ""⟩
    let d := fullGateway.runMoves (runScript installed fun _ _ rs => (-1, rs))
      (Config.idle ⟨Controller.init, (gwInit Iptables.refusesNone env systemRules).2⟩) cleanedMoves
    (gwCleanUp Iptables.refusesNone d.world.env).2 = systemRules := by
  have hmoves : ∀ m ∈ cleanedMoves, m.Only Event.Splits := by
    intro m hm
    simp only [cleanedMoves, List.mem_cons, List.not_mem_nil, or_false] at hm
    rcases hm with rfl | rfl | rfl | rfl | rfl
    · intro a ha
      obtain rfl := Option.some.inj ha
      decide
    all_goals trivial
  exact life_undone systemRules_clean (by decide) installed (fun _ _ rs => (-1, rs))
    Iptables.refusesNone hmoves

end WifiGateway
