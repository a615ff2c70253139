import WifiGateway.Controller.Interleaving
import WifiGateway.Controller.Within
import WifiGateway.Script.Enforcement
import WifiGateway.Script.Leases
import WifiGateway.Script.Report

/-!
# The Controller and the scripts together

The Controller's model has a firewall that is told per host what it allows
(`Command.effect`). What a command really does is run a script, which edits chains of
rules, finds a host's rules by looking for its address in printed ones, and may be carried out in
part (`runScript`). The deployed gateway is the Controller's program with these commands, on the
rules that `gw_init` made; it is told of a script what `RunCommand` reports of it.

Its memory is that of the model which is told the same, in every run however calls are nested in one
another. Its chains have the rules of the hosts that the model's firewall allows, with their
bandwidths, and no others, just as long as every script is whole (`run_shows`). This needs that no
host is found in the rule of another (`Deployment.apart`): the search is not exact.
-/

namespace WifiGateway

open Script
open Waiting (Code Machine Config Move Step)
open Waiting.Machine (Related Orderly Issues)

/-- A rule goes on to the next one and leaves the mark as it is, or ends the traversal. -/
def leavesMark (r : Iptables.Rule) : Bool :=
  match r.target with
  | .mark _ _ | .jump _ | .other _ => false
  | .log _ _ | .accept | .drop | .redirect | .masquerade | .none => true

/-- A gateway that is set up: where the scripts are, the shell that runs them, what `gw_init`
was told, the rules there were before it, and the hosts that there are. -/
structure Deployment where
  dir : ScriptDir
  special : Special
  settings : Settings
  base : Iptables.Ruleset
  pool : Ipv4 → Prop
  extif : settings.extif ≠ ""
  intif : settings.intif ≠ ""
  kept : settings.resetIptables ≠ "yes"
  clean : Clean base
  /-- `gw_init` went well. -/
  initialized : Iptables.Succeeds (initCommands settings) base
  /-- The system's own rules in front of everything do not touch marks. -/
  unmarked : ∀ l, base.rules .mangle "PREROUTING" = some l → ∀ r ∈ l, leavesMark r = true
  apart : Apart pool

namespace Deployment

variable (D : Deployment)

/-- The text of a host. -/
def IsHost (a : String) : Prop := ∃ ip, D.pool ip ∧ a = ip.text

/-- A call that names no host but those that there are; the clean-up comes at the end. -/
def Names : Event → Prop
  | .call i => ∀ a, i.names = some a → D.IsHost a
  | .cleanup => False

/-- The rules after `gw_init`. -/
def initRules : Iptables.Ruleset := (gwInit Iptables.refusesNone D.settings D.base).2

/-- The deployed gateway before the first call. -/
def start : Config Event Controller Iptables.Ruleset Command Ptr :=
  Config.idle ⟨Controller.init, D.initRules⟩

/-- The deployed gateway after these moves: the Controller's program, with the scripts. -/
def run (moves : List (Move Event Fate)) : Config Event Controller Iptables.Ruleset Command Ptr :=
  fullGateway.runMoves (runScript D.dir D.special) D.start moves

/-- The steps that the program has seen then. -/
def steps (moves : List (Move Event Fate)) : List (Step Event) :=
  fullGateway.stepsOf (runScript D.dir D.special) D.start moves

/-- The model after these steps. -/
def seen (moves : List (Move Event Fate)) : Config Event Controller Firewall Command Ptr :=
  fullGateway.run (Config.idle GwWorld.init) (D.steps moves)

/-- The script of a command is carried out as a whole, or not at all and reports so. -/
def Whole (c : Command) (fate : Fate) (rs : Iptables.Ruleset) : Prop :=
  fate.Whole (scriptCommands D.dir c rs)

/-- Every script that ends during these moves is whole. -/
def AllWhole (moves : List (Move Event Fate)) : Prop :=
  fullGateway.AllEnds (runScript D.dir D.special) D.Whole D.start moves

end Deployment

/-- The rule of a host that is allowed, in one of the chains. -/
def ruleIn (k : HostChain) (ip : Ipv4) (r : HostRule) : Iptables.Rule :=
  k.rule ⟨ip, numberUnsigned r.bandwidth⟩

/-- The chains of hosts show the firewall: an address that is allowed has one rule in each,
with its bandwidth, one that is not has none, and there is no other rule. -/
structure Shows (fw : Firewall) (rs : Iptables.Ruleset) : Prop where
  rules : ∀ k ip, rulesFor ip rs k = ((fw ip.text).map (ruleIn k ip)).toList
  sources : ∀ k, ∀ a ∈ sources rs k, fw a ≠ none

/-! ## Entries and allowed hosts -/

/-- The entries are those of the hosts that are allowed. -/
structure Carries (pool : Ipv4 → Prop) (fw : Firewall) (es : List Entry) : Prop where
  pool : ∀ e ∈ es, pool e.ip
  entry : ∀ ip, (es.filter fun e => e.ip = ip) =
    ((fw ip.text).map fun r => ⟨ip, numberUnsigned r.bandwidth⟩).toList

namespace Carries

variable {pool : Ipv4 → Prop} {fw : Firewall} {es : List Entry} {ip : Ipv4} {x : HostRule}

theorem nil : Carries pool (fun _ => none) [] := ⟨fun _ he => absurd he List.not_mem_nil,
  fun _ => rfl⟩

/-- A host is allowed if and only if it has an entry. -/
theorem allowed_iff (h : Carries pool fw es) : fw ip.text ≠ none ↔ ip ∈ es.map Entry.ip := by
  have hentry := h.entry ip
  cases hfw : fw ip.text with
  | none =>
    rw [hfw, Option.map_none, Option.toList_none, List.filter_eq_nil_iff] at hentry
    simpa using hentry
  | some r =>
    have hmem : (⟨ip, numberUnsigned r.bandwidth⟩ : Entry) ∈ es.filter fun e => e.ip = ip := by
      rw [hentry, hfw]
      exact List.mem_cons_self
    exact iff_of_true (by simp) (List.mem_map_of_mem (List.mem_filter.mp hmem).1)

/-- An addition allows the host, with the rule it has or else the new one. -/
theorem add (h : Carries pool fw es) (hapart : Apart pool) (hip : pool ip) : Carries pool
      (Function.update fw ip.text (some ((fw ip.text).getD x)))
      (placeEntry ip (numberUnsigned x.bandwidth) es) := by
  have hnew : newEntry ip (numberUnsigned x.bandwidth) = ⟨ip, numberUnsigned x.bandwidth⟩ := by
    unfold newEntry
    rw [if_neg (show numberUnsigned x.bandwidth ≠ "" from Nat.repr_ne_empty)]
  refine ⟨Call.entries_pool (c := .add ip (numberUnsigned x.bandwidth)) h.pool hip, fun ip' => ?_⟩
  by_cases hsame : ip' = ip
  · subst hsame
    rw [Function.update_self, Option.map_some, Option.toList_some]
    have hentry := h.entry ip'
    cases hfw : fw ip'.text with
    | some r =>
      -- it has an entry and keeps it
      have hmem : ip' ∈ es.map Entry.ip := h.allowed_iff.mp (by simp [hfw])
      obtain ⟨e, he, rfl⟩ := List.mem_map.mp hmem
      have hplace : placeEntry e.ip (numberUnsigned x.bandwidth) es = es :=
        FirstMatch.place_of_found ⟨e, he, finds_self e.ip⟩
      rw [hplace, hentry, hfw]
      rfl
    | none =>
      have hnot : ip' ∉ es.map Entry.ip := fun hmem => h.allowed_iff.mpr hmem hfw
      have hplace : placeEntry ip' (numberUnsigned x.bandwidth) es = es ++ [newEntry ip' _] :=
        FirstMatch.place_of_not_found ((hapart.clear h.pool hip).resolve_left hnot)
      rw [hplace, List.filter_append, hentry, hfw, hnew]
      simp
  · have htext : ip'.text ≠ ip.text := fun htext => hsame (Ipv4.text_injective htext)
    have hne : (newEntry ip (numberUnsigned x.bandwidth)).ip ≠ ip' := Ne.symm hsame
    rw [Function.update_of_ne htext, ← h.entry ip']
    exact FirstMatch.filter_place (decide_eq_false hne)

/-- A removal disallows the host. -/
theorem remove (h : Carries pool fw es) (hordered : FirstMatch.Ordered finds Entry.ip es)
    (hapart : Apart pool) (hip : pool ip) :
    Carries pool (Function.update fw ip.text none) (removeEntry ip es) := by
  refine ⟨Call.entries_pool (c := .remove ip) h.pool hip, fun ip' => ?_⟩
  by_cases hsame : ip' = ip
  · subst hsame
    have hgone : ip' ∉ (removeEntry ip' es).map Entry.ip :=
      FirstMatch.not_mem_remove finds_self hordered
    rw [Function.update_self, Option.map_none, Option.toList_none, List.filter_eq_nil_iff]
    simpa using hgone
  · have htext : ip'.text ≠ ip.text := fun htext => hsame (Ipv4.text_injective htext)
    rw [Function.update_of_ne htext, ← h.entry ip']
    refine FirstMatch.filter_remove finds_self hordered (hapart.clear h.pool hip) fun e he => ?_
    exact decide_eq_false (by rw [he]; exact Ne.symm hsame)

end Carries

/-! ## Commands about hosts -/

/-- The rules are those of a run, and have the entries of the hosts that are allowed. -/
structure Refined (D : Deployment) (fw : Firewall) (rs : Iptables.Ruleset) : Prop where
  reached : Reached D.settings rs
  entries : ∃ es, Invariant es rs ∧ Carries D.pool fw es
  hosts : ∀ a, fw a ≠ none → D.IsHost a
  /-- The system's rules in front of everything are as `gw_init` left them. -/
  front : rs.rules .mangle "PREROUTING" = D.initRules.rules .mangle "PREROUTING"

variable {D : Deployment} {fw : Firewall} {rs : Iptables.Ruleset}

theorem Refined.shows (h : Refined D fw rs) : Shows fw rs := by
  obtain ⟨es, hes, hcarries⟩ := h.entries
  constructor
  · intro k ip
    rw [hes.toInStep.rulesFor_eq, hcarries.entry]
    cases fw ip.text with
    | none => rfl
    | some r => rfl
  · intro k a ha
    rw [hes.toInStep.sources_eq] at ha
    obtain ⟨ip, hip, rfl⟩ := List.mem_map.mp ha
    exact hcarries.allowed_iff.mpr hip

/-- An addition that is carried out allows the host. -/
theorem Refined.addHost (h : Refined D fw rs) {ip : Ipv4} (hip : D.pool ip) (x : HostRule) :
    Refined D (Function.update fw ip.text (some ((fw ip.text).getD x)))
      ((Script.Call.add ip (numberUnsigned x.bandwidth)).run rs) := by
  obtain ⟨es, hes, hcarries⟩ := h.entries
  refine ⟨h.reached.call (.add ip.text (numberUnsigned x.bandwidth)),
    ⟨_, hes.run _, hcarries.add D.apart hip⟩, fun a ha => ?_, ?_⟩
  · by_cases hsame : a = ip.text
    · exact ⟨ip, hip, hsame⟩
    · rw [Function.update_of_ne hsame] at ha
      exact h.hosts a ha
  · exact (hostCall_other (.add ip.text (numberUnsigned x.bandwidth))
      (by intro k; cases k <;> decide)).trans h.front

/-- A removal that is carried out disallows it. -/
theorem Refined.removeHost (h : Refined D fw rs) {ip : Ipv4} (hip : D.pool ip) :
    Refined D (Function.update fw ip.text none) ((Script.Call.remove ip).run rs) := by
  obtain ⟨es, hes, hcarries⟩ := h.entries
  refine ⟨h.reached.call (.remove ip.text),
    ⟨_, hes.run _, hcarries.remove hes.ordered D.apart hip⟩, fun a ha => ?_, ?_⟩
  · by_cases hsame : a = ip.text
    · exact ⟨ip, hip, hsame⟩
    · rw [Function.update_of_ne hsame] at ha
      exact h.hosts a ha
  · exact (hostCall_other (.remove ip.text) (by intro k; cases k <;> decide)).trans h.front

/-- The call that the script of a command about a host gets. -/
structure CallOf (D : Deployment) (c : Command) (call : Script.Call) : Prop where
  run : ∀ fate rs, runScript D.dir D.special c fate rs =
    call.args.report fate.refuses fate.killed rs
  commands : ∀ {es rs}, InStep es rs → scriptCommands D.dir c rs = call.issued es
  refined : ∀ {fw rs}, Refined D fw rs → Refined D (c.effect 0 fw) (call.run rs)

theorem Command.About.callOf {c : Command} (hc : c.About D.IsHost) :
    ∃ call, CallOf D c call := by
  obtain ⟨a, hhost, ip, hip, rfl⟩ := hc
  cases c with
  | addHost IP bandwidth quotaRemaining =>
    obtain rfl : IP = ip.text := Option.some.inj hhost
    refine ⟨.add ip (numberUnsigned bandwidth), fun _ _ => runScript_addHost _ _,
      fun h => scriptCommands_addHost h _ _, fun h => ?_⟩
    exact h.addHost hip ⟨bandwidth, quotaRemaining⟩
  | removeHost IP =>
    obtain rfl : IP = ip.text := Option.some.inj hhost
    exact ⟨.remove ip, fun _ _ => runScript_removeHost, scriptCommands_removeHost,
      fun h => h.removeHost hip⟩
  | cleanUp => exact absurd hhost (by simp [Command.host])

/-- A script for a host that is whole does to the rules what the model says that it does to the
firewall. -/
theorem Refined.script (h : Refined D fw rs) {c : Command} (hc : c.About D.IsHost) {fate : Fate}
    (hwhole : D.Whole c fate rs) :
    let r := runScript D.dir D.special c fate rs
    Refined D (c.effect r.1 fw) r.2 := by
  obtain ⟨call, hcall⟩ := hc.callOf
  obtain ⟨es, hes, -⟩ := h.entries
  unfold Deployment.Whole at hwhole
  rw [hcall.commands hes.toInStep] at hwhole
  dsimp only
  rw [hcall.run]
  rcases call.report_whole hes.toInStep hwhole with ⟨h0, hrs⟩ | ⟨hne, hrs⟩
  · rw [h0, hrs]
    exact hcall.refined h
  · rw [effect_failed hne, hrs]
    exact h

/-- A script with which nothing goes wrong reports 0. -/
theorem Refined.clear (h : Refined D fw rs) {c : Command} (hc : c.About D.IsHost) :
    (runScript D.dir D.special c Fate.clear rs).1 = 0 := by
  obtain ⟨call, hcall⟩ := hc.callOf
  obtain ⟨es, hes, -⟩ := h.entries
  rw [hcall.run]
  exact call.report_clear hes.toInStep

/-! ## Scripts that are not whole -/

/-- A chain with the rules of these entries has one of an address just if it is allowed. -/
theorem Carries.rulesFor_ne_nil {pool : Ipv4 → Prop} {es : List Entry} {k : HostChain}
    (h : Carries pool fw es) (hrules : rs.rules k.table k.name = some (es.map k.rule))
    (ip : Ipv4) : rulesFor ip rs k ≠ [] ↔ fw ip.text ≠ none := by
  rw [rulesFor_of_rules hrules, h.entry]
  cases fw ip.text with
  | none => exact iff_of_false (by simp) (by simp)
  | some r => exact iff_of_true (by simp) (by simp)

theorem Shows.rulesFor_ne_nil (h : Shows fw rs) (ip : Ipv4) (k : HostChain) :
    rulesFor ip rs k ≠ [] ↔ fw ip.text ≠ none := by
  rw [h.rules]
  cases fw ip.text with
  | none => exact iff_of_false (by simp) (by simp)
  | some r => exact iff_of_true (by simp) (by simp)

/-- If the chains show a firewall that a call has changed if and only if it reports 0, then the call
was whole: a chain where it is carried out gives another answer than one where it is not. -/
theorem whole_of_shows {es : List Entry} (hes : Invariant es rs)
    (hcarries : Carries D.pool fw es) {call : Script.Call} {fate : Fate} {fw' : Firewall}
    (hcarries' : Carries D.pool fw' (call.entries es))
    (hturns : call.issued es ≠ [] → (fw' call.host.text ≠ none ↔ fw call.host.text = none))
    (hshows : let r := call.args.report fate.refuses fate.killed rs
      Shows (if r.1 = 0 then fw' else fw) r.2) : fate.Whole (call.issued es) := by
  by_cases hnil : call.issued es = []
  · rw [hnil]
    exact Fate.whole_nil
  · obtain ⟨ran, hchains, hwhole⟩ := (Script.Call.ran hes.toInStep call fate).resolve_left hnil
    refine hwhole fun k => ?_
    have hthere := Shows.rulesFor_ne_nil hshows call.host k
    have hturn := hturns hnil
    rcases hchains k with ⟨hran, hrules⟩ | ⟨hnot, hrules⟩
    · rw [hcarries'.rulesFor_ne_nil hrules] at hthere
      refine iff_of_true hran ?_
      by_contra hne
      rw [if_neg hne] at hthere
      exact absurd (hthere.symm.trans hturn) (by tauto)
    · rw [hcarries.rulesFor_ne_nil hrules] at hthere
      refine iff_of_false hnot fun h0 => ?_
      rw [if_pos h0] at hthere
      exact absurd (hthere.trans hturn) (by tauto)

/-- A script for a host that shows what it reports was whole. -/
theorem Refined.whole (h : Refined D fw rs) {c : Command} (hc : c.About D.IsHost) {fate : Fate}
    (hshows : let r := runScript D.dir D.special c fate rs
      Shows (c.effect r.1 fw) r.2) : D.Whole c fate rs := by
  obtain ⟨a, hhost, ip, hip, rfl⟩ := hc
  obtain ⟨es, hes, hcarries⟩ := h.entries
  unfold Deployment.Whole
  cases c with
  | addHost IP bandwidth quotaRemaining =>
    obtain rfl : IP = ip.text := Option.some.inj hhost
    rw [scriptCommands_addHost hes.toInStep]
    rw [runScript_addHost] at hshows
    refine whole_of_shows hes hcarries
      (hcarries.add (x := ⟨bandwidth, quotaRemaining⟩) D.apart hip) (fun hissued => ?_) hshows
    -- a host that is allowed is found, and nothing is issued
    refine iff_of_true (by simp [Script.Call.host]) ?_
    by_contra hsome
    obtain ⟨e, he, hsame⟩ := List.mem_map.mp (hcarries.allowed_iff.mp hsome)
    have hany : (es.any fun e => finds ip e.ip) = true :=
      List.any_eq_true.mpr ⟨e, he, by rw [show e.ip = ip from hsame]; exact finds_self ip⟩
    exact hissued (if_pos hany)
  | removeHost IP =>
    obtain rfl : IP = ip.text := Option.some.inj hhost
    rw [scriptCommands_removeHost hes.toInStep]
    rw [runScript_removeHost] at hshows
    refine whole_of_shows hes hcarries (hcarries.remove hes.ordered D.apart hip)
      (fun hissued => ?_) hshows
    -- what is found is the host itself
    refine iff_of_false (by simp [Script.Call.host]) fun hnone => hissued ?_
    have hnot : ip ∉ es.map Entry.ip := fun hmem => hcarries.allowed_iff.mpr hmem hnone
    have hclear := (D.apart.clear hcarries.pool hip).resolve_left hnot
    have hfind : (es.findIdx? fun e => finds ip e.ip) = none :=
      List.findIdx?_eq_none_iff.mpr hclear
    simp only [Script.Call.issued, hfind]
  | cleanUp => exact absurd hhost (by simp [Command.host])

/-! ## Runs -/

/-- A chain named like `gw_hosts_allowed` is one of the gateway's. -/
theorem isGateway_of_hosts {name : String}
    (h : hostsAllowed.toList.isPrefixOf name.toList = true) : isGateway name = true := by
  have hgw : "gw_".toList <+: hostsAllowed.toList := by decide
  exact List.isPrefixOf_iff_prefix.mpr (hgw.trans (List.isPrefixOf_iff_prefix.mp h))

theorem Deployment.enforces (D : Deployment) : Enforces D.settings [] D.initRules :=
  Succeeds.enforces D.extif D.intif D.initialized

theorem Deployment.covers (D : Deployment) :
    (initFootprint D.settings).Covers isGateway D.base D.initRules := D.clean.gwInit D.kept

/-- After `gw_init` no host is allowed. -/
theorem Deployment.noHosts (D : Deployment) : NoHosts D.initRules := by
  have hrules : ∀ k : HostChain, D.initRules.rules k.table k.name = some [] := D.enforces.hosts
  refine ⟨hrules, Iptables.filter_eq_singleton D.covers.distinct (hrules .allowed)
    (p := fun name => hostsAllowed.toList.isPrefixOf name.toList) (by decide) ?_⟩
  -- a chain with such a name is made by `gw_init`, which makes one in this table
  intro name hname hprefix
  have hsome : D.initRules.rules .mangle name ≠ none := fun hnone =>
    Iptables.find_none_iff.mp hnone hname
  have hmade := D.covers.made .mangle name (isGateway_of_hosts hprefix) hsome
  unfold initFootprint gatewayChains at hmade
  split at hmade
  · simpa [HostChain.name] using hmade
  · simpa [HostChain.name] using hmade

theorem Deployment.refined (D : Deployment) : Refined D (fun _ => none) D.initRules :=
  ⟨.init D.extif D.intif D.initialized, ⟨[], D.noHosts.invariant, .nil⟩,
    fun _ ha => absurd rfl ha, rfl⟩

/-- What the Controller issues is about hosts that there are. -/
theorem Deployment.issues (D : Deployment) :
    Issues fullGateway (Controller.Knows D.IsHost) (Command.About D.IsHost) D.Names := by
  intro e he
  cases e with
  | call i => exact (Call.within i he).andThen fun _ => Code.stays_ret trivial
  | cleanup => exact absurd he id

theorem Deployment.orderly (D : Deployment) :
    Orderly (Controller.Knows D.IsHost) (Command.About D.IsHost)
      (Config.idle GwWorld.init : Config Event Controller Firewall Command Ptr) :=
  ⟨fun _ => .init, fun _ hf => absurd hf List.not_mem_nil⟩

/-- The deployed gateway and the model, as long as every script is whole. -/
theorem Deployment.related (D : Deployment) {moves : List (Move Event Fate)}
    (hmoves : ∀ m ∈ moves, m.Only D.Names) (hwhole : D.AllWhole moves) :
    Related (Refined D) (D.seen moves) (D.run moves) := by
  have hstart : Related (Refined D) (Config.idle GwWorld.init) D.start :=
    ⟨rfl, D.refined, rfl, rfl, rfl⟩
  exact (Waiting.Machine.runMoves_related D.issues
    (fun c fate fw rs hc h hwhole => h.script hc hwhole) D.orderly hstart hmoves hwhole).2

/-- In every run of the deployed gateway, however calls are nested in one another and however
scripts fare, its memory is that of the model, which is told the same. Its chains show the model's
firewall throughout if and only if every script is whole. -/
theorem run_shows (D : Deployment) {moves : List (Move Event Fate)}
    (hmoves : ∀ m ∈ moves, m.Only D.Names) :
    ((D.run moves).world.mem = (D.seen moves).world.mem ∧
        (D.run moves).running = (D.seen moves).running ∧
        (D.run moves).crashed = (D.seen moves).crashed) ∧
      ((∀ pre, pre <+: moves → Shows (D.seen pre).world.env (D.run pre).world.env) ↔
        D.AllWhole moves) := by
  have hstart : Related (fun _ _ => True) (Config.idle GwWorld.init) D.start :=
    ⟨rfl, trivial, rfl, rfl, rfl⟩
  have hall : fullGateway.AllEnds (runScript D.dir D.special) (fun _ _ _ => True) D.start moves :=
    Waiting.Machine.allEnds_true D.start moves
  have hsame := (Waiting.Machine.runMoves_related D.issues (fun _ _ _ _ _ _ _ => trivial) D.orderly
    hstart hmoves hall).2
  refine ⟨⟨hsame.mem, hsame.running, hsame.crashed⟩, ?_⟩
  have hrefined : Related (Refined D) (Config.idle GwWorld.init) D.start :=
    ⟨rfl, D.refined, rfl, rfl, rfl⟩
  exact Waiting.Machine.allEnds_iff D.issues (fun c fate fw rs hc h hwhole => h.script hc hwhole)
    (fun fw rs h => h.shows) (fun c fate fw rs hc h hshows => h.whole hc hshows) D.orderly hrefined
    hmoves

/-- A gateway for the addresses that are leased, but for the first ten. -/
def leaseGateway : Deployment where
  dir := installed
  special := fun _ _ rs => (-1, rs)
  settings := ⟨"eth0", "wlan0", "yes", ""⟩
  base := systemRules
  pool := fun ip => leased ip ∧ 26 ≤ ip.d.val
  extif := by decide
  intif := by decide
  kept := by decide
  clean := systemRules_clean
  initialized := by decide +kernel
  unmarked := by
    intro l hl r hr
    have hrules : systemRules.rules .mangle "PREROUTING" = some [⟨[.state [.invalid]], .drop⟩] := by
      decide
    obtain rfl := Option.some.inj (hrules.symm.trans hl)
    obtain rfl := List.mem_singleton.mp hr
    rfl
  apart := by
    rintro a b ⟨ha, hlow⟩ ⟨hb, -⟩ hfinds
    refine ((finds_leased_iff ha hb).mp hfinds).resolve_right fun hten => ?_
    have hhigh := hb.2.2.2.2
    omega

/-- A session is started, and its bandwidth is set while the command runs. -/
def startedMoves : List (Move Event Fate) :=
  [.call (.call (.startSession "10.1.5.26")), .call (.call (.setBandwidth "10.1.5.26" 500)),
    .ends Fate.clear]

theorem startedMoves_names : ∀ m ∈ startedMoves, m.Only leaseGateway.Names := by
  have hhost : leaseGateway.IsHost "10.1.5.26" :=
    ⟨⟨10, 1, 5, 26⟩, ⟨⟨rfl, rfl, rfl, by decide, by decide⟩, Nat.le_refl 26⟩, by decide⟩
  intro m hm
  simp only [startedMoves, List.mem_cons, List.not_mem_nil, or_false] at hm
  rcases hm with rfl | rfl | rfl
  · exact fun a ha => Option.some.inj ha ▸ hhost
  · exact fun a ha => Option.some.inj ha ▸ hhost
  · trivial

theorem startedMoves_whole : leaseGateway.AllWhole startedMoves :=
  ⟨trivial, trivial, fun _ _ _ _ => Fate.clear_whole _, trivial⟩

theorem run_shows_startedMoves :
    ((leaseGateway.run startedMoves).world.mem = (leaseGateway.seen startedMoves).world.mem ∧
        (leaseGateway.run startedMoves).running = (leaseGateway.seen startedMoves).running ∧
        (leaseGateway.run startedMoves).crashed = (leaseGateway.seen startedMoves).crashed) ∧
      ((∀ pre, pre <+: startedMoves →
          Shows (leaseGateway.seen pre).world.env (leaseGateway.run pre).world.env) ↔
        leaseGateway.AllWhole startedMoves) :=
  run_shows leaseGateway startedMoves_names

end WifiGateway
