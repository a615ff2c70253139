import WifiGateway.Iptables.Frame
import WifiGateway.Script.HostChains

/-!
# Setting up and cleaning up

`gw_init` makes six chains, sends packets through four of them with a jump from a chain
of the system each, and writes the rules that do not depend on hosts; `gw_clean_up`
takes it all away again. If it is asked to, `gw_init` also sets up a firewall for the
machine itself, in a chain of its own, and before that throws away all rules there are.
-/

namespace WifiGateway.Script

open Iptables

/-- What `gw_init` is told. -/
structure Settings where
  extif : String
  intif : String
  setDefaultFirewall : String
  resetIptables : String
  deriving DecidableEq, Repr

def natPrerouting : String := "gw_nat_prerouting"

def filterForward : String := "gw_filter_forward"

def natPostrouting : String := "gw_nat_postrouting"

def firewall : String := "gw_firewall"

/-- The chains of the gateway, in the order in which they are made and deleted. -/
def gatewayChains : List (Table × String) :=
  [(.nat, natPrerouting), (.filter, filterForward), (.nat, natPostrouting),
    (.mangle, hostsAllowed), (.filter, hostsBandwidth), (.filter, hostsQuota)]

/-! ## The functions -/

def gwRestore : List Command :=
  [.flushAll .mangle, .deleteChains .mangle, .flushAll .nat, .deleteChains .nat,
    .flushAll .filter, .deleteChains .filter, .flushAll .raw, .deleteChains .raw]

def gwSetIptablesDefaultPolicy : List Command :=
  [.policy "INPUT" .accept, .flush .filter "INPUT", .policy "OUTPUT" .accept,
    .flush .filter "OUTPUT", .policy "FORWARD" .drop, .flush .filter "FORWARD",
    .flushAll .mangle, .deleteChains .mangle, .flushAll .nat, .deleteChains .nat,
    .flushAll .filter, .deleteChains .filter, .flushAll .raw, .deleteChains .raw, .zero]

def gwResetIptables : List Command := gwRestore ++ gwSetIptablesDefaultPolicy

/-- `INBOUND_TCP_ALLOW`: ssh,http,https,5900,5901,domain,111,2049. -/
def inboundTcpAllow : List Nat := [22, 80, 443, 5900, 5901, 53, 111, 2049]

/-- `INBOUND_UDP_ALLOW`: domain,111,2049,bootpc,bootps. -/
def inboundUdpAllow : List Nat := [53, 111, 2049, 68, 67]

/-- The rules of the firewall for the machine itself. -/
def firewallRules : List Rule :=
  [⟨[.comment "gw firewall"], .none⟩,
    ⟨[.inInterface "lo"], .accept⟩,
    ⟨[.protocol .icmp], .accept⟩,
    ⟨[.state [.related, .established]], .accept⟩,
    ⟨[.protocol .tcp, .dports inboundTcpAllow], .accept⟩,
    ⟨[.protocol .udp, .dports inboundUdpAllow], .accept⟩,
    ⟨[], .drop⟩]

def gwSetIptablesInputFirewall : List Command :=
  .newChain .filter firewall ::
    (firewallRules.map (.append .filter firewall) ++ [.append .filter "INPUT" (jumpTo firewall)])

/-- The rules of `gw_nat_prerouting`: names are looked up and pages fetched here unless the
packet is marked. -/
def natPreroutingRules : List Rule :=
  [⟨[.protocol .udp, .dport .udp 53, .mark true 1 1], .log "" 4⟩,
    ⟨[.protocol .udp, .dport .udp 53, .mark true 1 1], .redirect⟩,
    ⟨[.protocol .tcp, .dports [80, 443], .mark true 1 1], .redirect⟩]

/-- The rules of `gw_filter_forward`. -/
def filterForwardRules (env : Settings) : List Rule :=
  [jumpTo hostsBandwidth,
    jumpTo hostsQuota,
    ⟨[.mark false 3 0xffffffff], .accept⟩,
    ⟨[.inInterface env.extif, .outInterface env.intif, .state [.related, .established]], .accept⟩]

/-- `-o EXTIF -j MASQUERADE`. -/
def masqueradeRule (env : Settings) : Rule := ⟨[.outInterface env.extif], .masquerade⟩

/-- The commands of `gw_init` that do not make a chain. -/
def wireCommands (env : Settings) : List Command :=
  [.insert .mangle "PREROUTING" (jumpTo hostsAllowed),
    .insert .nat "PREROUTING" (jumpTo natPrerouting)] ++
  natPreroutingRules.map (.append .nat natPrerouting) ++
  [.insert .filter "FORWARD" (jumpTo filterForward)] ++
  (filterForwardRules env).map (.append .filter filterForward) ++
  [.insert .nat "POSTROUTING" (jumpTo natPostrouting),
    .append .nat natPostrouting (masqueradeRule env)]

/-- The commands of `gw_init`. -/
def initCommands (env : Settings) : List Command :=
  (if env.resetIptables = "yes" then gwResetIptables else []) ++
  (if env.setDefaultFirewall = "yes" then gwSetIptablesInputFirewall else []) ++
  newChains gatewayChains ++
  wireCommands env

/-- `gw_init`. -/
def gwInit (refuses : Command → Bool) (env : Settings) (rs : Ruleset) : Exit × Ruleset :=
  if env.extif = "" then (.error "No external interface defined", rs)
  else if env.intif = "" then (.error "No internal interface defined", rs)
  else
    let r := runCommands refuses (initCommands env) rs
    (.ok r.1, r.2)

/-- The jumps to the chains of the gateway are deleted, and the chains are emptied. -/
def unwireCommands : List Command :=
  [.delete .mangle "PREROUTING" (jumpTo hostsAllowed),
    .delete .nat "PREROUTING" (jumpTo natPrerouting),
    .delete .filter "FORWARD" (jumpTo filterForward),
    .delete .nat "POSTROUTING" (jumpTo natPostrouting)] ++
  gatewayChains.map fun n => .flush n.1 n.2

/-- The commands of `gw_clean_up`. -/
def cleanUpCommands : List Command :=
  unwireCommands ++
  deleteChains gatewayChains ++
  [.delete .filter "INPUT" (jumpTo firewall), .flush .filter firewall] ++
  deleteChains [(.filter, firewall)]

/-- `gw_clean_up`. -/
def gwCleanUp (refuses : Command → Bool) (rs : Ruleset) : Exit × Ruleset :=
  let r := runCommands refuses cleanUpCommands rs
  (.ok r.1, r.2)

variable {rs : Ruleset} {refuses : Command → Bool} {env : Settings}

/-- The chains that the rules of `gw_init` jump to are there once the chains are made. -/
theorem wireCommands_targets {c : Command} (hc : c ∈ wireCommands env) :
    c.isEdit = true ∧
      c.targetThere (runCommands refusesNone (newChains gatewayChains) rs).2 = true := by
  have hjump : ∀ t m, (t, m) ∈ gatewayChains →
      (runCommands refusesNone (newChains gatewayChains) rs).2.hasTarget t (jumpTo m) = true := by
    intro t m hm
    show ((runCommands refusesNone (newChains gatewayChains) rs).2.rules t m).isSome = true
    rw [rules_newChains, if_pos hm]
    rfl
  simp only [wireCommands, natPreroutingRules, filterForwardRules, List.map_cons, List.map_nil,
    List.cons_append, List.nil_append, List.mem_cons, List.not_mem_nil, or_false] at hc
  rcases hc with rfl | rfl | rfl | rfl | rfl | rfl | rfl | rfl | rfl | rfl | rfl | rfl
  · exact ⟨rfl, hjump .mangle hostsAllowed (by decide)⟩
  · exact ⟨rfl, hjump .nat natPrerouting (by decide)⟩
  · exact ⟨rfl, rfl⟩
  · exact ⟨rfl, rfl⟩
  · exact ⟨rfl, rfl⟩
  · exact ⟨rfl, hjump .filter filterForward (by decide)⟩
  · exact ⟨rfl, hjump .filter hostsBandwidth (by decide)⟩
  · exact ⟨rfl, hjump .filter hostsQuota (by decide)⟩
  · exact ⟨rfl, rfl⟩
  · exact ⟨rfl, rfl⟩
  · exact ⟨rfl, hjump .nat natPostrouting (by decide)⟩
  · exact ⟨rfl, rfl⟩

/-- What `gw_init` makes of one chain, the rules before being there already or not. -/
theorem rules_wired (t : Table) (name : String) :
    (runCommands refusesNone (newChains gatewayChains ++ wireCommands env) rs).2.rules t name =
      (if (t, name) ∈ gatewayChains then some ((rs.rules t name).getD [])
        else rs.rules t name).map fun l =>
          (wireCommands env).foldl (fun l c => c.onRules t name l) l := by
  rw [runCommands_append, rules_edits fun c hc => wireCommands_targets hc, rules_newChains]

/-- The system's chains with some rules of others, and a chain of another. -/
def systemRules : Ruleset
  | .mangle => [⟨"PREROUTING", [⟨[.state [.invalid]], .drop⟩]⟩, ⟨"POSTROUTING", []⟩]
  | .nat => [⟨"PREROUTING", [⟨[], .jump "accounting"⟩]⟩, ⟨"POSTROUTING", []⟩, ⟨"accounting", []⟩]
  | .filter => [⟨"INPUT", [⟨[.inInterface "lo"], .accept⟩]⟩, ⟨"FORWARD", []⟩, ⟨"OUTPUT", []⟩]
  | .raw => [⟨"PREROUTING", []⟩]

/-! ## Hosts in between -/

/-- A call of `gw_add_host` or `gw_remove_host`, with whatever arguments. -/
inductive HostCall
  | add (ip bw : String)
  | remove (ip : String)
  deriving DecidableEq, Repr

/-- The rules after a call. -/
def HostCall.run (refuses : Command → Bool) : HostCall → Ruleset → Ruleset
  | .add ip bw, rs => (gwAddHost refuses ip bw rs).2
  | .remove ip, rs => (gwRemoveHost refuses ip rs).2

/-- The rules after calls, each with the commands that are refused in it. -/
def runHostCalls (calls : List ((Command → Bool) × HostCall)) (rs : Ruleset) : Ruleset :=
  calls.foldl (fun rs c => c.2.run c.1 rs) rs

/-- The `iptables` commands that a call issues. -/
def HostCall.commands : HostCall → Ruleset → List Command
  | .add ip bw, rs =>
    if ip ≠ "" ∧ Ipv4.looksLikeAddress ip = true ∧ gwGetHostEntry ip rs = none then
      addCommands ip (if bw = "" then defaultBandwidth else bw)
    else []
  | .remove ip, rs =>
    if ip ≠ "" ∧ Ipv4.looksLikeAddress ip = true then
      match gwGetHostEntryNum ip rs with
      | none => []
      | some index => removeCommands index
    else []

theorem HostCall.run_eq (call : HostCall) :
    call.run refuses rs = (runCommands refuses (call.commands rs) rs).2 := by
  cases call with
  | add ip bw =>
    unfold HostCall.run HostCall.commands gwAddHost
    by_cases hempty : ip = ""
    · simp [hempty, runCommands_snd]
    · by_cases hlooks : Ipv4.looksLikeAddress ip = true
      · cases hentry : gwGetHostEntry ip rs with
        | some i => simp [hempty, hlooks, hentry, runCommands_snd]
        | none => simp [hempty, hlooks, hentry]
      · simp [hempty, hlooks, runCommands_snd]
  | remove ip =>
    unfold HostCall.run HostCall.commands gwRemoveHost
    by_cases hempty : ip = ""
    · simp [hempty, runCommands_snd]
    · by_cases hlooks : Ipv4.looksLikeAddress ip = true
      · cases hentry : gwGetHostEntryNum ip rs with
        | some i => simp [hempty, hlooks, hentry]
        | none => simp [hempty, hlooks, hentry, runCommands_snd]
      · simp [hempty, hlooks, runCommands_snd]

/-- The command edits a chain of hosts, and adds no rule that jumps. -/
structure EditsHosts (c : Command) : Prop where
  about : ∃ k : HostChain, c.about = some (k.table, k.name)
  edit : c.isEdit = true
  adds : c.Adds fun _ _ r => ∀ m, r.target ≠ .jump m

theorem mem_addCommands {ip bw : String} {c : Command} (hc : c ∈ addCommands ip bw) :
    EditsHosts c := by
  simp only [addCommands, List.mem_cons, List.not_mem_nil, or_false] at hc
  rcases hc with rfl | rfl | rfl
  · exact ⟨⟨.allowed, rfl⟩, rfl, by simp [Command.Adds, allowedRule]⟩
  · exact ⟨⟨.bandwidth, rfl⟩, rfl, by simp [Command.Adds, bandwidthRule]⟩
  · exact ⟨⟨.quota, rfl⟩, rfl, by simp [Command.Adds, quotaRule]⟩

theorem mem_removeCommands {index : Nat} {c : Command} (hc : c ∈ removeCommands index) :
    EditsHosts c := by
  simp only [removeCommands, List.mem_cons, List.not_mem_nil, or_false] at hc
  rcases hc with rfl | rfl | rfl
  · exact ⟨⟨.allowed, rfl⟩, rfl, trivial⟩
  · exact ⟨⟨.bandwidth, rfl⟩, rfl, trivial⟩
  · exact ⟨⟨.quota, rfl⟩, rfl, trivial⟩

theorem HostCall.mem_commands {call : HostCall} {c : Command} (hc : c ∈ call.commands rs) :
    EditsHosts c := by
  cases call with
  | add ip bw =>
    rw [HostCall.commands] at hc
    split at hc
    · exact mem_addCommands hc
    · exact absurd hc List.not_mem_nil
  | remove ip =>
    rw [HostCall.commands] at hc
    split at hc
    · split at hc
      · exact absurd hc List.not_mem_nil
      · exact mem_removeCommands hc
    · exact absurd hc List.not_mem_nil

/-- A chain is there for the rule that the command adds to jump to. -/
theorem EditsHosts.targetThere {c : Command} (h : EditsHosts c) : c.targetThere rs = true := by
  cases c with
  | append t name r | insert t name r =>
    have hjump : ∀ m, r.target ≠ .jump m := h.adds
    show rs.hasTarget t r = true
    unfold Ruleset.hasTarget
    split
    · next m htarget => exact absurd htarget (hjump m)
    · rfl
  | _ => rfl

/-- What a call makes of one chain. -/
theorem rules_hostCall (call : HostCall) (t : Table) (name : String) :
    (call.run refusesNone rs).rules t name =
      (rs.rules t name).map fun l =>
        (call.commands rs).foldl (fun l c => c.onRules t name l) l := by
  rw [HostCall.run_eq, rules_edits]
  intro c hc
  have hedits := HostCall.mem_commands hc
  exact ⟨hedits.edit, hedits.targetThere⟩

end WifiGateway.Script
