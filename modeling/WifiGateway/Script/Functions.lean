import WifiGateway.Iptables.Ruleset
import WifiGateway.Text.Ipv4

/-!
# `gw_functions.sh`

The functions that allow and disallow a host. A host has one rule in each of three
chains: `gw_hosts_allowed` marks its packets, `gw_hosts_bandwidth` and
`gw_hosts_quota` limit and count them. Which rules are a host's is decided by looking
for its address in the printed rules of `gw_hosts_allowed`; what comes out is a
number, and the rule of that number is deleted from all three.
-/

namespace WifiGateway.Script

open Iptables

/-- `DEFAULT_BANDWIDTH`. -/
def defaultBandwidth : String := "100"

/-- `QUOTA_LOG_PREFIX`. -/
def quotaLogPrefix : String := "GW_SESSION_1MB_HACK"

def hostsAllowed : String := "gw_hosts_allowed"

def hostsBandwidth : String := "gw_hosts_bandwidth"

def hostsQuota : String := "gw_hosts_quota"

/-- `-s ip -j MARK --set-mark 1/1`. -/
def allowedRule (ip : String) : Rule := ⟨[.source ip], .mark 1 1⟩

/-- `-s ip -m limit --limit bw --limit-burst 10 -j MARK --set-mark 2/2`. -/
def bandwidthRule (ip bw : String) : Rule := ⟨[.source ip, .limit bw 10], .mark 2 2⟩

/-- `-s ip -m statistic --mode nth --every 670 --packet 0 -j LOG --log-prefix
"GW_SESSION_1MB_HACK " --log-level info`. -/
def quotaRule (ip : String) : Rule :=
  ⟨[.source ip, .nth 670 0], .log (quotaLogPrefix ++ " ") 6⟩

/-- `iptables-save -t mangle | grep "^\-A gw_hosts_allowed"`. -/
def gwDumpHostsAllowed (rs : Ruleset) : List String :=
  (save rs .mangle).filter fun l =>
    Grep.matchesAt (Grep.literal ("-A " ++ hostsAllowed).toList) l.toList

/-- The number of a host's entry, if there is one. -/
def gwGetHostEntry (ip : String) (rs : Ruleset) : Option Nat :=
  Grep.firstLine (Grep.basic ip.toList) (gwDumpHostsAllowed rs)

/-- The number of a host's entry, if there is one. -/
def gwGetHostEntryNum (ip : String) (rs : Ruleset) : Option Nat :=
  Grep.firstLine (Grep.basic ip.toList) (gwDumpHostsAllowed rs)

/-- What a function ends with: an exit status, or the message of `error`, which exits
with status 1. -/
abbrev Exit := Except String Nat

/-- The exit status. -/
def status : Exit → Nat
  | .error _ => 1
  | .ok n => n

/-- The commands that add the rules of a host. -/
def addCommands (ip bw : String) : List Command :=
  [.append .mangle hostsAllowed (allowedRule ip),
    .append .filter hostsBandwidth (bandwidthRule ip bw),
    .append .filter hostsQuota (quotaRule ip)]

/-- The commands that remove the rules with a number. -/
def removeCommands (index : Nat) : List Command :=
  [.deleteNum .mangle hostsAllowed index,
    .deleteNum .filter hostsBandwidth index,
    .deleteNum .filter hostsQuota index]

/-- `gw_add_host ip bw qo`, an argument that is not given being empty; the third is not
used. -/
def gwAddHost (refuses : Command → Bool) (ip bw : String) (rs : Ruleset) : Exit × Ruleset :=
  if ip = "" then (.error "Invalid parameters", rs)
  else if !Ipv4.looksLikeAddress ip then (.error "Invalid address", rs)
  else
    let bw := if bw = "" then defaultBandwidth else bw
    match gwGetHostEntry ip rs with
    | some _ => (.ok 0, rs)
    | none =>
      let r := runCommands refuses (addCommands ip bw) rs
      (.ok r.1, r.2)

/-- `gw_remove_host ip`. -/
def gwRemoveHost (refuses : Command → Bool) (ip : String) (rs : Ruleset) : Exit × Ruleset :=
  if ip = "" then (.error "Invalid parameters", rs)
  else if !Ipv4.looksLikeAddress ip then (.error "Invalid address", rs)
  else
    match gwGetHostEntryNum ip rs with
    | none => (.ok 0, rs)
    | some index =>
      let r := runCommands refuses (removeCommands index) rs
      (.ok r.1, r.2)

end WifiGateway.Script
