import WifiGateway.Iptables.Footprint
import WifiGateway.Script.Setup

/-!
# Cleaning up

What `gw_init` leaves of its own is the six chains, the jumps to them from the chains of
the system, and the jumps from `gw_filter_forward` to two of the others
(`initFootprint`); the calls for hosts leave nothing more. `gw_clean_up` takes it all
away: every chain is empty and not referenced when it comes to be deleted, which is
computed from the commands (`cleanUp_footprint`).
-/

namespace WifiGateway.Script

open Iptables

/-- The name starts with `gw_`. -/
def isGateway (name : String) : Bool := "gw_".toList.isPrefixOf name.toList

/-- A ruleset that has no chain whose name starts with `gw_`, and no rule that jumps to
one. -/
abbrev Clean (base : Ruleset) : Prop := Untouched isGateway base

/-- What `gw_init` may leave, with the firewall for the machine itself or without. -/
def initFootprint (env : Settings) : Footprint where
  chains := gatewayChains.reverse ++
    if env.setDefaultFirewall = "yes" then [(.filter, firewall)] else []
  empty := []
  links := [(.filter, filterForward, hostsQuota), (.filter, filterForward, hostsBandwidth)]
  hooks := [(.nat, "POSTROUTING", natPostrouting), (.filter, "FORWARD", filterForward),
      (.nat, "PREROUTING", natPrerouting), (.mangle, "PREROUTING", hostsAllowed)] ++
    if env.setDefaultFirewall = "yes" then [(.filter, "INPUT", firewall)] else []

variable {base rs : Ruleset} {env : Settings} {refuses : Command → Bool}

theorem initCommands_footprint (hreset : env.resetIptables ≠ "yes") :
    (initCommands env).foldlM (Footprint.grow isGateway) Footprint.nothing =
      some (initFootprint env) := by
  unfold initCommands initFootprint
  rw [if_neg hreset]
  by_cases hfw : env.setDefaultFirewall = "yes"
  · rw [if_pos hfw, if_pos hfw, if_pos hfw]
    rfl
  · rw [if_neg hfw, if_neg hfw, if_neg hfw]
    rfl

/-- Nothing is left of the chains and the jumps to them. -/
theorem cleanUp_footprint (env : Settings) :
    ∃ fp, cleanUpCommands.foldlM (Footprint.shrink isGateway) (initFootprint env) = some fp ∧
      fp.chains = [] ∧ fp.hooks = [] := by
  unfold initFootprint
  by_cases hfw : env.setDefaultFirewall = "yes"
  · rw [if_pos hfw, if_pos hfw]
    exact ⟨_, rfl, rfl, rfl⟩
  · rw [if_neg hfw, if_neg hfw]
    exact ⟨_, rfl, rfl, rfl⟩

/-! ## Setting up -/

theorem Clean.gwInit (h : Clean base) (hreset : env.resetIptables ≠ "yes") :
    (initFootprint env).Covers isGateway base (gwInit refuses env base).2 := by
  have hnone : (initFootprint env).Covers isGateway base base :=
    h.covers.mono (List.nil_subset _) (List.nil_subset _) (List.nil_subset _) (List.nil_subset _)
  unfold Script.gwInit
  split
  · exact hnone
  · split
    · exact hnone
    · exact h.covers.growAll (initCommands_footprint hreset)

/-! ## Hosts in between -/

theorem HostCall.isGateway_name (k : HostChain) : isGateway k.name = true := by
  cases k with
  | allowed => decide
  | bandwidth => decide
  | quota => decide

/-- The commands of a call add nothing to a footprint that has no empty chains. -/
theorem HostCall.grow {fp : Footprint} (hempty : fp.empty = []) {call : HostCall} {c : Command}
    (hc : c ∈ call.commands rs) : fp.grow isGateway c = some fp := by
  obtain ⟨⟨k, habout⟩, hedit, hadds⟩ := HostCall.mem_commands hc
  have hown := HostCall.isGateway_name k
  have hrule : ∀ t r, (∀ m, r.target ≠ .jump m) → fp.addRule isGateway t k.name r = some fp := by
    intro t r hjump
    have hlink : r.link isGateway = none := by
      cases hl : r.link isGateway with
      | none => rfl
      | some m => exact absurd (link_eq_some hl).1 (hjump m)
    obtain ⟨chains, empty, links, hooks⟩ := fp
    obtain rfl : empty = [] := hempty
    unfold Footprint.addRule
    rw [if_pos hown, hlink]
    rfl
  cases c with
  | append t name r =>
    obtain ⟨rfl, rfl⟩ := Prod.mk.inj (Option.some.inj habout)
    exact hrule _ r hadds
  | insert t name r =>
    obtain ⟨rfl, rfl⟩ := Prod.mk.inj (Option.some.inj habout)
    exact hrule _ r hadds
  | deleteNum t name | delete t name | flush t name =>
    obtain ⟨rfl, rfl⟩ := Prod.mk.inj (Option.some.inj habout)
    exact if_pos hown
  | newChain | deleteChain | flushAll | deleteChains | policy | zero =>
    exact absurd hedit (by simp [Command.isEdit])

/-- Some of the commands of a call, in any order. -/
theorem Covers.commands {fp : Footprint} (hempty : fp.empty = []) {call : HostCall}
    {cs : List Command} (hcs : ∀ c ∈ cs, c ∈ call.commands rs) {rs' : Ruleset}
    (h : fp.Covers isGateway base rs') :
    fp.Covers isGateway base (runCommands refuses cs rs').2 := by
  apply h.growAll
  have hgrow : ∀ c ∈ cs, fp.grow isGateway c = some fp :=
    fun c hc => HostCall.grow hempty (hcs c hc)
  clear hcs
  induction cs with
  | nil => rfl
  | cons c cs ih =>
    obtain ⟨hstep, hrest⟩ := List.forall_mem_cons.mp hgrow
    rw [List.foldlM_cons, hstep]
    exact ih hrest

theorem Covers.hostCall {fp : Footprint} (hempty : fp.empty = [])
    (h : fp.Covers isGateway base rs) (call : HostCall) :
    fp.Covers isGateway base (call.run refuses rs) := by
  rw [HostCall.run_eq]
  exact Covers.commands hempty (fun _ hc => hc) h

theorem Covers.hostCalls {fp : Footprint} (hempty : fp.empty = [])
    (h : fp.Covers isGateway base rs) (calls : List ((Command → Bool) × HostCall)) :
    fp.Covers isGateway base (runHostCalls calls rs) := by
  induction calls generalizing rs with
  | nil => exact h
  | cons c calls ih => exact ih (Covers.hostCall hempty h c.2)

/-! ## And cleaning up -/

/-- After `gw_init`, any calls for hosts and `gw_clean_up` the ruleset is the one before,
whatever was refused until the clean-up. -/
theorem clean_up_undoes_init (h : Clean base) (hreset : env.resetIptables ≠ "yes")
    (refuses : Command → Bool) (calls : List ((Command → Bool) × HostCall)) :
    (gwCleanUp refusesNone (runHostCalls calls (gwInit refuses env base).2)).2 = base := by
  have hinit : (initFootprint env).Covers isGateway base (gwInit refuses env base).2 :=
    h.gwInit hreset
  have hcalls := Covers.hostCalls rfl hinit calls
  obtain ⟨fp, hrun, hchains, hhooks⟩ := cleanUp_footprint env
  simp only [gwCleanUp]
  exact (hcalls.shrinkAll h hrun).eq_base h hchains hhooks

theorem systemRules_clean : Clean systemRules where
  distinct t := by cases t <;> decide
  names t := by cases t <;> decide
  links := by
    apply EveryRule.of_forall
    intro t
    cases t <;> decide

theorem clean_up_undoes_init_systemRules :
    let env : Settings := ⟨"eth0", "wlan0", "yes", ""⟩
    let calls := [(refusesNone, HostCall.add "10.0.0.7" ""), (refusesNone, .remove "10.0.0.9")]
    (gwCleanUp refusesNone (runHostCalls calls (gwInit refusesNone env systemRules).2)).2 =
      systemRules :=
  clean_up_undoes_init systemRules_clean (by decide) _ _

end WifiGateway.Script
