import Mathlib.Data.List.InsertIdx
import WifiGateway.Lists.FirstMatch
import WifiGateway.Script.Functions

/-!
# The three chains in step

`gw_add_host` and `gw_remove_host` keep the rules of hosts in three chains and find
them in one. The chains are in step (`InStep`): there is one list of entries, an
address and a bandwidth each, and the rules of every chain are those of the entries in
order. On the entries, the two functions are `FirstMatch.place` and
`FirstMatch.remove` for the test `finds`, the search for an address, as an
expression, in the printed rule of another.

That test goes wrong in one direction only. Every address is found in its own rule,
so an address is never added next to another that it finds, and what a later address
finds is never before its own entry: the first match of an address that is there is
the address itself. `revocation` puts this together over all runs of the two
functions.
-/

namespace WifiGateway.Script

open Iptables

/-- An address is found, as an expression, in the printed rule of another. -/
def finds (ip b : Ipv4) : Bool :=
  Grep.search (Grep.basic ip.chars)
    ("-A " ++ hostsAllowed ++ " " ++ (allowedRule b.text).text).toList

/-- A host that is allowed: its address, and its bandwidth as text. -/
structure Entry where
  ip : Ipv4
  bw : String
  deriving DecidableEq, Repr

/-- The chains that have the rules of hosts. -/
inductive HostChain
  | allowed
  | bandwidth
  | quota
  deriving DecidableEq, Repr

namespace HostChain

def table : HostChain → Table
  | allowed => .mangle
  | bandwidth | quota => .filter

def name : HostChain → String
  | allowed => hostsAllowed
  | bandwidth => hostsBandwidth
  | quota => hostsQuota

/-- The rule of an entry. -/
def rule : HostChain → Entry → Rule
  | allowed, e => allowedRule e.ip.text
  | bandwidth, e => bandwidthRule e.ip.text e.bw
  | quota, e => quotaRule e.ip.text

theorem source_rule (k : HostChain) (e : Entry) : (k.rule e).source = some e.ip.text := by
  cases k <;> rfl

/-- The chain of another table or of another name. -/
theorem apart {k k' : HostChain} (h : k ≠ k') : k.table ≠ k'.table ∨ k.name ≠ k'.name := by
  revert h
  cases k <;> cases k' <;> decide

end HostChain

/-- The chains have the rules of these entries, and no other chain of the table is
printed among the lines of `gw_hosts_allowed`. -/
structure InStep (es : List Entry) (rs : Ruleset) : Prop where
  rules : ∀ k : HostChain, rs.rules k.table k.name = some (es.map k.rule)
  only : ((rs .mangle).filter fun ch => hostsAllowed.toList.isPrefixOf ch.name.toList) =
    [⟨hostsAllowed, es.map HostChain.allowed.rule⟩]

/-- The rules of an address in a chain. -/
def rulesFor (ip : Ipv4) (rs : Ruleset) (k : HostChain) : List Rule :=
  ((rs.rules k.table k.name).getD []).filter fun r => r.source = some ip.text

/-- The source addresses of a chain. -/
def sources (rs : Ruleset) (k : HostChain) : List String :=
  ((rs.rules k.table k.name).getD []).filterMap Rule.source

variable {es : List Entry} {rs : Ruleset} {ip : Ipv4} {k : HostChain}

/-- A text is found in every line that has it in the middle. -/
theorem search_line (a b c s : String) :
    Grep.search (Grep.basic s.toList) (a ++ (b ++ s ++ c)).toList = true := by
  simp only [String.toList_append, List.append_assoc]
  rw [← List.append_assoc]
  exact Grep.search_basic

/-- The printed rule of an address has the address in it. -/
theorem allowedRule_text (ip : Ipv4) :
    (allowedRule ip.text).text =
      "-s " ++ ip.text ++ ("/32" ++ (" " ++ ("-j " ++ (Target.mark 1 1).text))) := by
  have htext : (allowedRule ip.text).text =
      "-s " ++ (ip.text ++ "/32") ++ " " ++ ("-j " ++ (Target.mark 1 1).text) :=
    text_source ip [] (.mark 1 1)
  rw [htext]
  simp only [String.append_assoc]

theorem finds_self (ip : Ipv4) : finds ip ip = true := by
  unfold finds
  rw [allowedRule_text, ← Ipv4.toList_text]
  exact search_line _ _ _ _

/-! ## Looking for a host -/

theorem InStep.dump (h : InStep es rs) :
    gwDumpHostsAllowed rs =
      es.map fun e => "-A " ++ hostsAllowed ++ " " ++ (allowedRule e.ip.text).text := by
  unfold gwDumpHostsAllowed
  rw [filter_save (by decide), h.only]
  simp [Chain.lines, HostChain.rule]

theorem InStep.entryNum (h : InStep es rs) (ip : Ipv4) :
    gwGetHostEntryNum ip.text rs = (es.findIdx? fun e => finds ip e.ip).map (· + 1) := by
  unfold gwGetHostEntryNum Grep.firstLine
  rw [h.dump, List.findIdx?_map, Ipv4.toList_text]
  simp only [finds, Function.comp_def]

/-! ## Changing the rules of a host -/

theorem rules_edit (rs : Ruleset) (k k' : HostChain) (f : List Rule → List Rule) :
    (rs.edit k.table k.name f).rules k'.table k'.name =
      if k' = k then (rs.rules k.table k.name).map f else rs.rules k'.table k'.name := by
  split
  · next hk => rw [hk, rules_edit_same]
  · next hk =>
    rcases HostChain.apart hk with htable | hname
    · exact rules_edit_other htable
    · exact rules_edit_ne hname

/-- A command for each of the chains, which makes the rules of one list of entries those
of another. -/
theorem InStep.runCommands (h : InStep es rs) (es' : List Entry) (cmd : HostChain → Command)
    (f : HostChain → List Rule → List Rule)
    (hcmd : ∀ k (rs : Ruleset), rs.rules k.table k.name = some (es.map k.rule) →
      run refusesNone rs (cmd k) = (0, rs.edit k.table k.name (f k)))
    (hf : ∀ k : HostChain, f k (es.map k.rule) = es'.map k.rule) :
    ∃ rs', runCommands refusesNone [cmd .allowed, cmd .bandwidth, cmd .quota] rs = (0, rs') ∧
      InStep es' rs' := by
  -- the chains that are still to be changed are as they were
  have hallowed := h.rules .allowed
  generalize hrs₁ : rs.edit HostChain.allowed.table HostChain.allowed.name (f .allowed) = rs₁
  have hbandwidth : rs₁.rules HostChain.bandwidth.table HostChain.bandwidth.name =
      some (es.map HostChain.bandwidth.rule) := by
    rw [← hrs₁, rules_edit, if_neg (by decide), h.rules]
  generalize hrs₂ : rs₁.edit HostChain.bandwidth.table HostChain.bandwidth.name (f .bandwidth) = rs₂
  have hquota : rs₂.rules HostChain.quota.table HostChain.quota.name =
      some (es.map HostChain.quota.rule) := by
    rw [← hrs₂, rules_edit, if_neg (by decide), ← hrs₁, rules_edit, if_neg (by decide), h.rules]
  refine ⟨rs₂.edit HostChain.quota.table HostChain.quota.name (f .quota), ?_, ?_, ?_⟩
  · unfold Iptables.runCommands
    simp only [List.foldl_cons, List.foldl_nil]
    rw [hcmd .allowed rs hallowed, hrs₁, hcmd .bandwidth rs₁ hbandwidth, hrs₂,
      hcmd .quota rs₂ hquota]
  · intro k
    cases k with
    | allowed =>
      rw [rules_edit, if_neg (by decide), ← hrs₂, rules_edit, if_neg (by decide), ← hrs₁,
        rules_edit, if_pos rfl, hallowed, Option.map_some, hf]
    | bandwidth =>
      rw [rules_edit, if_neg (by decide), ← hrs₂, rules_edit, if_pos rfl, hbandwidth,
        Option.map_some, hf]
    | quota => rw [rules_edit, if_pos rfl, hquota, Option.map_some, hf]
  · rw [edit_other (by decide), ← hrs₂, edit_other (by decide), ← hrs₁]
    rw [show Table.mangle = HostChain.allowed.table from rfl, edit_same]
    rw [filter_edit (p := fun name => hostsAllowed.toList.isPrefixOf name.toList) (by decide)]
    rw [show HostChain.allowed.table = Table.mangle from rfl, h.only, ← hf]
    rfl

/-- A command for each of the chains, which makes the rules of some entries those of more or of
fewer. -/
structure Turns (cmd : HostChain → Command) (f : HostChain → List Rule → List Rule)
    (es es' : List Entry) : Prop where
  run : ∀ (k : HostChain) (rs : Ruleset), rs.rules k.table k.name = some (es.map k.rule) →
    run refusesNone rs (cmd k) = (0, rs.edit k.table k.name (f k))
  rules : ∀ k : HostChain, f k (es.map k.rule) = es'.map k.rule
  length : es'.length ≠ es.length

theorem turns_append (es : List Entry) (e : Entry) :
    Turns (fun k => .append k.table k.name (k.rule e)) (fun k => (· ++ [k.rule e])) es
      (es ++ [e]) where
  run k _ hrules := run_append hrules (by cases k <;> rfl)
  rules k := by simp
  length := by
    rw [List.length_append, List.length_singleton]
    omega

theorem turns_erase {i : Nat} (hi : i < es.length) :
    Turns (fun k => .deleteNum k.table k.name (i + 1)) (fun _ => (·.eraseIdx i)) es
      (es.eraseIdx i) where
  run k _ hrules := run_deleteNum hrules (by simpa using hi)
  rules k := List.eraseIdx_map ..
  length := by
    rw [List.length_eraseIdx_of_lt hi]
    omega

theorem Turns.runs {es' : List Entry} {cmd : HostChain → Command}
    {f : HostChain → List Rule → List Rule} (ht : Turns cmd f es es') (h : InStep es rs) :
    ∃ rs', Iptables.runCommands refusesNone [cmd .allowed, cmd .bandwidth, cmd .quota] rs =
        (0, rs') ∧ InStep es' rs' :=
  h.runCommands es' cmd f ht.run ht.rules

/-- The entry of an added host. -/
def newEntry (ip : Ipv4) (bw : String) : Entry := ⟨ip, if bw = "" then defaultBandwidth else bw⟩

/-- What a successful addition makes of the entries. -/
def placeEntry (ip : Ipv4) (bw : String) (es : List Entry) : List Entry :=
  FirstMatch.place finds Entry.ip (newEntry ip bw) es

/-- What a successful removal makes of the entries. -/
def removeEntry (ip : Ipv4) (es : List Entry) : List Entry :=
  FirstMatch.remove finds Entry.ip ip es

theorem removeEntry_eq {i : Nat} (hi : (es.findIdx? fun e => finds ip e.ip) = some i) :
    removeEntry ip es = es.eraseIdx i := by
  unfold removeEntry FirstMatch.remove
  rw [List.eraseP_eq_eraseIdx, hi]

theorem InStep.addHost (h : InStep es rs) (ip : Ipv4) (bw : String) :
    ∃ rs', gwAddHost refusesNone ip.text bw rs = (.ok 0, rs') ∧
      InStep (placeEntry ip bw es) rs' := by
  unfold gwAddHost
  rw [if_neg ip.text_ne_empty, Ipv4.looksLikeAddress_text]
  have hnum : gwGetHostEntry ip.text rs = _ := h.entryNum ip
  rw [hnum]
  dsimp only
  cases hi : es.findIdx? fun e => finds ip e.ip with
  | some i =>
    obtain ⟨hlt, hf, _⟩ := List.findIdx?_eq_some_iff_getElem.mp hi
    have hsame : placeEntry ip bw es = es :=
      FirstMatch.place_of_found ⟨es[i], List.getElem_mem hlt, hf⟩
    rw [hsame]
    exact ⟨rs, rfl, h⟩
  | none =>
    have hnone : placeEntry ip bw es = es ++ [newEntry ip bw] :=
      FirstMatch.place_of_not_found (List.findIdx?_eq_none_iff.mp hi)
    rw [hnone]
    unfold newEntry
    generalize (if bw = "" then defaultBandwidth else bw) = bw'
    obtain ⟨rs', hrun, hrs'⟩ := (turns_append es ⟨ip, bw'⟩).runs h
    exact ⟨rs', congrArg (fun r => (Except.ok r.1, r.2)) hrun, hrs'⟩

theorem InStep.removeHost (h : InStep es rs) (ip : Ipv4) :
    ∃ rs', gwRemoveHost refusesNone ip.text rs = (.ok 0, rs') ∧ InStep (removeEntry ip es) rs' := by
  unfold gwRemoveHost
  rw [if_neg ip.text_ne_empty, Ipv4.looksLikeAddress_text, h.entryNum]
  cases hi : es.findIdx? fun e => finds ip e.ip with
  | none =>
    have hsame : removeEntry ip es = es :=
      FirstMatch.remove_of_not_found (List.findIdx?_eq_none_iff.mp hi)
    rw [hsame]
    exact ⟨rs, rfl, h⟩
  | some i =>
    obtain ⟨hlt, _, _⟩ := List.findIdx?_eq_some_iff_getElem.mp hi
    rw [removeEntry_eq hi]
    obtain ⟨rs', hrun, hrs'⟩ := (turns_erase hlt).runs h
    exact ⟨rs', congrArg (fun r => (Except.ok r.1, r.2)) hrun, hrs'⟩

/-! ## Runs -/

/-- A call of one of the two functions. -/
inductive Call
  | add (ip : Ipv4) (bw : String)
  | remove (ip : Ipv4)

/-- The host that a call is about. -/
def Call.host : Call → Ipv4
  | .add ip _ | .remove ip => ip

/-- The rules after a call, no command being refused. -/
def Call.run : Call → Ruleset → Ruleset
  | .add ip bw, rs => (gwAddHost refusesNone ip.text bw rs).2
  | .remove ip, rs => (gwRemoveHost refusesNone ip.text rs).2

/-- The rules after calls. -/
def runCalls (cs : List Call) (rs : Ruleset) : Ruleset := cs.foldl (fun rs c => c.run rs) rs

/-- The entries after a call. -/
def Call.entries : Call → List Entry → List Entry
  | .add ip bw, es => placeEntry ip bw es
  | .remove ip, es => removeEntry ip es

/-- The chains are in step on entries that are ordered. -/
structure Invariant (es : List Entry) (rs : Ruleset) : Prop extends InStep es rs where
  ordered : FirstMatch.Ordered finds Entry.ip es

/-- The chains are there and empty. -/
def NoHosts (rs : Ruleset) : Prop := InStep [] rs

/-- Chains as they are set up, next to a chain of the system. -/
def freshRules : Ruleset
  | .mangle => [⟨"PREROUTING", []⟩, ⟨hostsAllowed, []⟩]
  | .filter => [⟨"FORWARD", []⟩, ⟨hostsBandwidth, []⟩, ⟨hostsQuota, []⟩]
  | .raw | .nat => []

theorem freshRules_noHosts : NoHosts freshRules :=
  ⟨fun k => by cases k <;> rfl, rfl⟩

theorem InStep.run (h : InStep es rs) (c : Call) : InStep (c.entries es) (c.run rs) := by
  cases c with
  | add ip bw =>
    obtain ⟨rs', hrun, hrs'⟩ := h.addHost ip bw
    show InStep _ (gwAddHost refusesNone ip.text bw rs).2
    rw [hrun]
    exact hrs'
  | remove ip =>
    obtain ⟨rs', hrun, hrs'⟩ := h.removeHost ip
    show InStep _ (gwRemoveHost refusesNone ip.text rs).2
    rw [hrun]
    exact hrs'

theorem Invariant.run (h : Invariant es rs) (c : Call) : Invariant (c.entries es) (c.run rs) := by
  refine ⟨h.toInStep.run c, ?_⟩
  cases c with
  | add ip bw => exact h.ordered.place _
  | remove ip => exact h.ordered.remove _

theorem NoHosts.invariant (h : NoHosts rs) : Invariant [] rs := ⟨h, .nil⟩

theorem Invariant.runCalls (h : Invariant es rs) (cs : List Call) :
    ∃ es', Invariant es' (runCalls cs rs) := by
  induction cs generalizing es rs with
  | nil => exact ⟨es, h⟩
  | cons c cs ih => exact ih (h.run c)

/-! ## What is left of a host -/

theorem InStep.sources_eq (h : InStep es rs) (k : HostChain) :
    sources rs k = (es.map Entry.ip).map Ipv4.text := by
  unfold sources
  rw [h.rules, Option.getD_some, List.filterMap_map, List.map_map, ← List.filterMap_eq_map]
  congr 1
  funext e
  exact k.source_rule e

/-- The rules of an address in a chain with the rules of these entries. -/
theorem rulesFor_of_rules (h : rs.rules k.table k.name = some (es.map k.rule)) (ip : Ipv4) :
    rulesFor ip rs k = (es.filter fun e => e.ip = ip).map k.rule := by
  unfold rulesFor
  rw [h, Option.getD_some, List.filter_map]
  congr 2
  funext e
  show decide ((k.rule e).source = some ip.text) = decide (e.ip = ip)
  rw [decide_eq_decide, k.source_rule, Option.some.injEq]
  exact ⟨Ipv4.text_injective, fun hip => by rw [hip]⟩

theorem InStep.rulesFor_eq (h : InStep es rs) (ip : Ipv4) (k : HostChain) :
    rulesFor ip rs k = (es.filter fun e => e.ip = ip).map k.rule := rulesFor_of_rules (h.rules k) ip

theorem InStep.rulesFor_ne_nil (h : InStep es rs) (ip : Ipv4) (k : HostChain) :
    rulesFor ip rs k ≠ [] ↔ ip ∈ es.map Entry.ip := by
  rw [h.rulesFor_eq, Ne, List.map_eq_nil_iff, List.filter_eq_nil_iff, List.mem_map]
  simp

/-- After every run of the two functions the three chains list the same addresses in the
same order, none of them twice, and a removal leaves no rule of its host. -/
theorem revocation (h : NoHosts rs) (cs : List Call) :
    (∀ k, sources (runCalls cs rs) k = sources (runCalls cs rs) .allowed) ∧
      (sources (runCalls cs rs) .allowed).Nodup ∧
      ∀ ip k, rulesFor ip ((Call.remove ip).run (runCalls cs rs)) k = [] := by
  obtain ⟨es, hes⟩ := h.invariant.runCalls cs
  refine ⟨fun k => ?_, ?_, fun ip k => ?_⟩
  · rw [hes.sources_eq, hes.sources_eq]
  · rw [hes.sources_eq]
    exact (hes.ordered.nodup finds_self).map fun _ _ => Ipv4.text_injective
  · have hgone : ip ∉ (removeEntry ip es).map Entry.ip :=
      FirstMatch.not_mem_remove finds_self hes.ordered
    by_contra hne
    exact hgone (((hes.run (.remove ip)).rulesFor_ne_nil ip k).mp hne)

theorem revocation_freshRules :
    let rs := runCalls [.add ⟨10, 0, 0, 10⟩ "", .add ⟨10, 0, 0, 20⟩ "50"] freshRules
    (∀ k, sources rs k = sources rs .allowed) ∧ (sources rs .allowed).Nodup ∧
      ∀ ip k, rulesFor ip ((Call.remove ip).run rs) k = [] :=
  revocation freshRules_noHosts _

end WifiGateway.Script
