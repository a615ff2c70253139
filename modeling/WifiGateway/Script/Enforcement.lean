import WifiGateway.Iptables.Traversal
import WifiGateway.Script.Setup

/-!
# What happens to a packet

A host is let through by rules in three tables that tell one another what they found in
two bits of the mark: `gw_hosts_allowed` sets the first for a host that has an entry,
`gw_hosts_bandwidth` the second within the limit, and `gw_filter_forward` accepts a packet
that has both. The three chains of hosts have the same entries in the same order,
whatever is called with whatever arguments (`Enforces.run`), so the bits are those of the
packet's own rules (`enforcement`).
-/

namespace WifiGateway.Script

open Iptables

/-- What `gw_init` and calls for hosts come to, every command being carried out. -/
inductive Reached (s : Settings) : Ruleset → Prop
  | init {base : Ruleset} (hext : s.extif ≠ "") (hint : s.intif ≠ "")
      (h : Succeeds (initCommands s) base) : Reached s (gwInit refusesNone s base).2
  | call {rs : Ruleset} (h : Reached s rs) (call : HostCall) : Reached s (call.run refusesNone rs)

/-- The rule that is for a source. -/
def ruleOf (env : Env) (src : Ipv4) (r : Rule) : Prop :=
  ∃ addr, r.source = some addr ∧ env.covers addr src = true

/-- A source has an entry in `gw_hosts_allowed`. -/
def HasEntry (env : Env) (rs : Ruleset) (src : Ipv4) : Prop :=
  ∃ r ∈ (rs.rules .mangle hostsAllowed).getD [], ruleOf env src r

/-- The test is a limit. -/
def isLimit : Match → Bool
  | .limit _ _ => true
  | _ => false

/-- The limit in a source's rule in `gw_hosts_bandwidth` admits the packet. -/
def WithinLimit (env : Env) (rs : Ruleset) (src : Ipv4) : Prop :=
  ∃ r ∈ (rs.rules .filter hostsBandwidth).getD [], ruleOf env src r ∧
    ∀ m ∈ r.tests, isLimit m = true → env.admits r m = true

/-- A packet that comes back from outside. -/
def ComesBack (s : Settings) (p : Packet) : Prop :=
  interfaceMatches s.extif p.inInterface = true ∧ interfaceMatches s.intif p.outInterface = true ∧
    (p.state = .established ∨ p.state = .related)

instance (s : Settings) (p : Packet) : Decidable (ComesBack s p) :=
  inferInstanceAs (Decidable (_ ∧ _ ∧ (_ ∨ _)))

/-- A packet that looks up a name or fetches a page. -/
def IsRedirectable (p : Packet) : Prop :=
  (p.protocol = .udp ∧ p.dport = 53) ∨ (p.protocol = .tcp ∧ (p.dport = 80 ∨ p.dport = 443))

/-! ## The chains -/

/-- The rule of an entry, an address and a bandwidth as text. -/
def HostChain.ruleFor : HostChain → String × String → Rule
  | allowed, e => allowedRule e.1
  | bandwidth, e => bandwidthRule e.1 e.2
  | quota, e => quotaRule e.1

/-- The chains of the gateway, with these entries. -/
structure Enforces (s : Settings) (es : List (String × String)) (rs : Ruleset) : Prop where
  hosts : ∀ k : HostChain, rs.rules k.table k.name = some (es.map k.ruleFor)
  prerouting : ∃ l, rs.rules .mangle "PREROUTING" = some (jumpTo hostsAllowed :: l)
  forward : rs.rules .filter filterForward = some (filterForwardRules s)
  redirects : rs.rules .nat natPrerouting = some natPreroutingRules

variable {s : Settings} {es : List (String × String)} {rs : Ruleset} {env : Env} {p : Packet}

theorem Succeeds.enforces {base : Ruleset} (hext : s.extif ≠ "") (hint : s.intif ≠ "")
    (h : Succeeds (initCommands s) base) : Enforces s [] (gwInit refusesNone s base).2 := by
  unfold gwInit
  rw [if_neg hext, if_neg hint]
  show Enforces s [] (runCommands refusesNone (initCommands s) base).2
  unfold initCommands at h ⊢
  rw [List.append_assoc] at h ⊢
  generalize (if s.resetIptables = "yes" then gwResetIptables else []) ++
    (if s.setDefaultFirewall = "yes" then gwSetIptablesInputFirewall else []) = cs at h ⊢
  rw [runCommands_append]
  replace h := (Succeeds.append h).2
  generalize (runCommands refusesNone cs base).2 = rs at h ⊢
  obtain ⟨hmake, hwire⟩ := Succeeds.append h
  -- the chains are made here, and the first rule goes to one that is there
  have hmade := hmake.newChains
  have hthere : ∃ l, rs.rules .mangle "PREROUTING" = some l := by
    have hfirst := hwire.1
    have hsame : (runCommands refusesNone (newChains gatewayChains) rs).2.rules .mangle
        "PREROUTING" = rs.rules .mangle "PREROUTING" := by
      rw [rules_newChains, if_neg (by decide)]
    rw [← hsame]
    cases hl : (runCommands refusesNone (newChains gatewayChains) rs).2.rules .mangle
        "PREROUTING" with
    | some l => exact ⟨l, rfl⟩
    | none => exact absurd hfirst (by simp [run, refusesNone, Command.exec, hl])
  have hown : ∀ t name, (t, name) ∈ gatewayChains →
      (runCommands refusesNone (newChains gatewayChains ++ wireCommands s) rs).2.rules t name =
        some ((wireCommands s).foldl (fun l c => c.onRules t name l) []) := by
    intro t name hmem
    rw [rules_wired, if_pos hmem, hmade (t, name) hmem]
    rfl
  refine ⟨?_, ?_, ?_, ?_⟩
  · intro k
    cases k with
    | allowed => exact hown .mangle hostsAllowed (by decide)
    | bandwidth => exact hown .filter hostsBandwidth (by decide)
    | quota => exact hown .filter hostsQuota (by decide)
  · obtain ⟨l, hl⟩ := hthere
    refine ⟨l, ?_⟩
    rw [rules_wired, if_neg (by decide), hl]
    rfl
  · exact hown .filter filterForward (by decide)
  · exact hown .nat natPrerouting (by decide)

/-- The commands of a call leave the chains that are not for hosts as they were. -/
theorem hostCall_other {t : Table} {name : String} (call : HostCall)
    (h : ∀ k : HostChain, (k.table, k.name) ≠ (t, name)) :
    (call.run refusesNone rs).rules t name = rs.rules t name := by
  rw [HostCall.run_eq]
  apply rules_runCommands_other
  intro c hc
  obtain ⟨k, habout⟩ := (HostCall.mem_commands hc).about
  exact ⟨_, habout, h k⟩

/-- A call changes the entries of the three chains in the same way. -/
theorem Enforces.hostCall (h : Enforces s es rs) (call : HostCall) :
    ∃ es' : List (String × String), ∀ k : HostChain,
      (call.run refusesNone rs).rules k.table k.name = some (es'.map k.ruleFor) := by
  have hedits : ∀ k : HostChain, (call.run refusesNone rs).rules k.table k.name =
      some ((call.commands rs).foldl (fun l c => c.onRules k.table k.name l)
        (es.map k.ruleFor)) := by
    intro k
    rw [rules_hostCall, h.hosts]
    rfl
  have hnone : (call.commands rs = []) → ∃ es' : List (String × String), ∀ k : HostChain,
      (call.run refusesNone rs).rules k.table k.name = some (es'.map k.ruleFor) := by
    intro hnil
    refine ⟨es, fun k => ?_⟩
    rw [hedits, hnil]
    rfl
  cases call with
  | add ip bw =>
    by_cases hcmd : ip ≠ "" ∧ Ipv4.looksLikeAddress ip = true ∧ gwGetHostEntry ip rs = none
    · refine ⟨es ++ [(ip, if bw = "" then defaultBandwidth else bw)], fun k => ?_⟩
      rw [hedits, HostCall.commands, if_pos hcmd]
      cases k with
      | allowed | bandwidth | quota => rw [List.map_append]; rfl
    · exact hnone (if_neg hcmd)
  | remove ip =>
    by_cases hcmd : ip ≠ "" ∧ Ipv4.looksLikeAddress ip = true
    · cases hnum : gwGetHostEntryNum ip rs with
      | none => exact hnone (by rw [HostCall.commands, if_pos hcmd, hnum])
      | some index =>
        refine ⟨if 1 ≤ index ∧ index ≤ es.length then es.eraseIdx (index - 1) else es,
          fun k => ?_⟩
        rw [hedits, HostCall.commands, if_pos hcmd, hnum]
        have hdelete : (removeCommands index).foldl (fun l c => c.onRules k.table k.name l)
            (es.map k.ruleFor) = if 1 ≤ index ∧ index ≤ (es.map k.ruleFor).length then
              (es.map k.ruleFor).eraseIdx (index - 1) else es.map k.ruleFor := by
          cases k with
          | allowed | bandwidth | quota => rfl
        rw [hdelete, List.length_map, List.eraseIdx_map]
        split
        · rfl
        · rfl
    · exact hnone (if_neg hcmd)

theorem Enforces.run (h : Enforces s es rs) (call : HostCall) :
    ∃ es', Enforces s es' (call.run refusesNone rs) := by
  obtain ⟨es', hhosts⟩ := h.hostCall call
  obtain ⟨l, hl⟩ := h.prerouting
  refine ⟨es', hhosts, ⟨l, ?_⟩, ?_, ?_⟩
  · rw [hostCall_other call (by intro k; cases k <;> decide), hl]
  · rw [hostCall_other call (by intro k; cases k <;> decide), h.forward]
  · rw [hostCall_other call (by intro k; cases k <;> decide), h.redirects]

theorem Reached.enforces (h : Reached s rs) : ∃ es, Enforces s es rs := by
  induction h with
  | init hext hint h => exact ⟨[], Succeeds.enforces hext hint h⟩
  | call h call ih =>
    obtain ⟨es, hes⟩ := ih
    exact hes.run call

/-! ## The bits -/

theorem enter_hostsAllowed (h : Enforces s es rs) (depth : Nat) :
    enter env rs .mangle p (depth + 1) hostsAllowed 0 =
      (none, if es.any (fun e => env.covers e.1 p.source) then 1 else 0) := by
  have hrules : rs.rules .mangle hostsAllowed = some (es.map HostChain.allowed.ruleFor) :=
    h.hosts .allowed
  have hset : setMark 1 1 0 = 1 := by decide
  rw [enter_succ hrules]
  apply walk_setMark _ _ hset (by decide)
  · exact fun _ => rfl
  · intro e mark
    show (allowedRule e.1).passes env p mark = env.covers e.1 p.source
    simp [Rule.passes, allowedRule, Match.passes]

/-- The packet passes the tests of an entry's rule in `gw_hosts_bandwidth`. -/
def admitted (env : Env) (src : Ipv4) (e : String × String) : Bool :=
  env.covers e.1 src && env.admits (bandwidthRule e.1 e.2) (.limit e.2 10)

theorem enter_hostsBandwidth (h : Enforces s es rs) (depth : Nat) {mark mark' : UInt32}
    (hset : setMark 2 2 mark = mark') (hstay : setMark 2 2 mark' = mark') :
    enter env rs .filter p (depth + 1) hostsBandwidth mark =
      (none, if es.any (admitted env p.source) then mark' else mark) := by
  have hrules : rs.rules .filter hostsBandwidth = some (es.map HostChain.bandwidth.ruleFor) :=
    h.hosts .bandwidth
  rw [enter_succ hrules]
  apply walk_setMark _ _ hset hstay
  · exact fun _ => rfl
  · intro e mark
    show (bandwidthRule e.1 e.2).passes env p mark = admitted env p.source e
    simp [Rule.passes, bandwidthRule, Match.passes, admitted]

theorem enter_hostsQuota (h : Enforces s es rs) (depth : Nat) (mark : UInt32) :
    enter env rs .filter p (depth + 1) hostsQuota mark = (none, mark) := by
  have hrules : rs.rules .filter hostsQuota = some (es.map HostChain.quota.ruleFor) :=
    h.hosts .quota
  rw [enter_succ hrules]
  apply walk_logs
  intro r hr
  obtain ⟨e, _, rfl⟩ := List.mem_map.mp hr
  exact ⟨_, _, rfl⟩

/-- The mark after mangle `PREROUTING`. -/
theorem traverse_prerouting (h : Enforces s es rs)
    (hothers : ∀ others, rs.rules .mangle "PREROUTING" = some (jumpTo hostsAllowed :: others) →
      ∀ r ∈ others, r.KeepsMark env rs .mangle) :
    (traverseChain env rs .mangle p "PREROUTING" 0).2 =
      if es.any (fun e => env.covers e.1 p.source) then 1 else 0 := by
  obtain ⟨others, hrules⟩ := h.prerouting
  obtain ⟨depth, hdepth⟩ := Nat.exists_eq_add_of_le'
    (two_le_length hrules (h.hosts .allowed) (by decide))
  unfold traverseChain
  rw [hdepth, enter_succ hrules, walk_jumpTo (enter_hostsAllowed h depth)]
  exact walk_keepsMark (hothers others hrules)

/-- A packet in `gw_filter_forward` is accepted with both bits, or on its way back. -/
theorem traverse_forward (h : Enforces s es rs) {mark mark' : UInt32}
    (hset : setMark 2 2 mark = mark') (hstay : setMark 2 2 mark' = mark') :
    (traverseChain env rs .filter p filterForward mark).1 = some .accept ↔
      (if es.any (admitted env p.source) then mark' else mark) = 3 ∨ ComesBack s p := by
  obtain ⟨depth, hdepth⟩ := Nat.exists_eq_add_of_le'
    (two_le_length h.forward (h.hosts .bandwidth) (by decide))
  unfold traverseChain
  rw [hdepth, enter_succ h.forward]
  unfold filterForwardRules
  rw [walk_jumpTo (enter_hostsBandwidth h depth hset hstay),
    walk_jumpTo (enter_hostsQuota h depth _)]
  generalize (if es.any (admitted env p.source) then mark' else mark) = bits
  have hmark : (⟨[.mark false 3 0xffffffff], .accept⟩ : Rule).passes env p bits =
      decide (bits = 3) := by
    have hfull : bits &&& 0xffffffff = bits := UInt32.and_neg_one
    rw [Bool.eq_iff_iff, decide_eq_true_iff]
    simp [Rule.passes, Match.passes, hfull]
  have hback : (⟨[.inInterface s.extif, .outInterface s.intif, .state [.related, .established]],
      .accept⟩ : Rule).passes env p bits = decide (ComesBack s p) := by
    rw [Bool.eq_iff_iff, decide_eq_true_iff]
    simp [Rule.passes, Match.passes, ComesBack, or_comm]
  rw [walk_verdict rfl, walk_verdict rfl, hmark, hback]
  by_cases hbits : bits = 3
  · simp [hbits]
  · by_cases hcomes : ComesBack s p
    · simp [hbits, hcomes]
    · simp [hbits, hcomes, walk]

/-- A packet in `gw_nat_prerouting` is redirected without the first bit. -/
theorem traverse_redirects (h : Enforces s es rs) (hp : IsRedirectable p) (mark : UInt32) :
    (traverseChain env rs .nat p natPrerouting mark).1 = some .redirect ↔ mark &&& 1 ≠ 1 := by
  obtain ⟨depth, hdepth⟩ := Nat.exists_eq_add_of_le' (one_le_length h.redirects)
  unfold traverseChain
  rw [hdepth, enter_succ h.redirects]
  unfold natPreroutingRules
  generalize enter env rs .nat p depth = through
  have hdns : (⟨[.protocol .udp, .dport .udp 53, .mark true 1 1], .redirect⟩ : Rule).passes env p
      mark = decide ((p.protocol = .udp ∧ p.dport = 53) ∧ mark &&& 1 ≠ 1) := by
    rw [Bool.eq_iff_iff, decide_eq_true_iff]
    simp [Rule.passes, Match.passes, and_assoc]
  have hweb : (⟨[.protocol .tcp, .dports [80, 443], .mark true 1 1], .redirect⟩ : Rule).passes env
      p mark = decide ((p.protocol = .tcp ∧ (p.dport = 80 ∨ p.dport = 443)) ∧ mark &&& 1 ≠ 1) := by
    rw [Bool.eq_iff_iff, decide_eq_true_iff]
    simp [Rule.passes, Match.passes, and_assoc]
  rw [walk_log rfl, walk_verdict rfl, walk_verdict rfl, hdns, hweb]
  by_cases hbit : mark &&& 1 = 1
  · simp [hbit, walk]
  · rcases hp with hudp | htcp
    · simp [hudp, hbit]
    · simp [htcp, hbit]

/-! ## The decision -/

theorem hasEntry_iff (h : Enforces s es rs) (src : Ipv4) :
    HasEntry env rs src ↔ es.any (fun e => env.covers e.1 src) = true := by
  have hrules : rs.rules .mangle hostsAllowed = some (es.map HostChain.allowed.ruleFor) :=
    h.hosts .allowed
  have hsource : ∀ e : String × String, (HostChain.allowed.ruleFor e).source = some e.1 :=
    fun _ => rfl
  unfold HasEntry ruleOf
  rw [hrules]
  simp [hsource]

theorem withinLimit_iff (h : Enforces s es rs) (src : Ipv4) :
    WithinLimit env rs src ↔ es.any (admitted env src) = true := by
  have hrules : rs.rules .filter hostsBandwidth = some (es.map HostChain.bandwidth.ruleFor) :=
    h.hosts .bandwidth
  have hsource : ∀ e : String × String, (HostChain.bandwidth.ruleFor e).source = some e.1 :=
    fun _ => rfl
  have htests : ∀ e : String × String,
      (∀ m ∈ (HostChain.bandwidth.ruleFor e).tests, isLimit m = true →
        env.admits (HostChain.bandwidth.ruleFor e) m = true) ↔
      env.admits (bandwidthRule e.1 e.2) (.limit e.2 10) = true := by
    intro e
    simp [HostChain.ruleFor, bandwidthRule, isLimit]
  unfold WithinLimit ruleOf
  rw [hrules]
  simp [hsource, htests, admitted]

/-- For every packet that comes without a mark: it is accepted for forwarding if and only if
its source has an entry and its limit admits it, or it comes back from outside; and one that
looks up a name or fetches a page is redirected to the gateway if and only if its source has
no entry. -/
theorem enforcement (h : Reached s rs) (env : Env) (p : Packet)
    (hothers : ∀ others, rs.rules .mangle "PREROUTING" = some (jumpTo hostsAllowed :: others) →
      ∀ r ∈ others, r.KeepsMark env rs .mangle) :
    let mark := (traverseChain env rs .mangle p "PREROUTING" 0).2
    ((traverseChain env rs .filter p filterForward mark).1 = some .accept ↔
        (HasEntry env rs p.source ∧ WithinLimit env rs p.source) ∨ ComesBack s p) ∧
      (IsRedirectable p →
        ((traverseChain env rs .nat p natPrerouting mark).1 = some .redirect ↔
          ¬ HasEntry env rs p.source)) := by
  intro mark
  obtain ⟨es, hes⟩ := h.enforces
  have hmark : mark = if es.any (fun e => env.covers e.1 p.source) then 1 else 0 :=
    traverse_prerouting hes hothers
  rw [hasEntry_iff hes, withinLimit_iff hes, hmark]
  cases hentry : es.any fun e => env.covers e.1 p.source with
  | true =>
    constructor
    · have hset : setMark 2 2 1 = 3 := by decide
      rw [if_pos rfl, traverse_forward hes hset (by decide)]
      cases es.any (admitted env p.source) with
      | true => simp
      | false => simp
    · intro hp
      rw [if_pos rfl, traverse_redirects hes hp]
      simp
  | false =>
    constructor
    · have hset : setMark 2 2 0 = 2 := by decide
      rw [if_neg (by simp), traverse_forward hes hset (by decide)]
      cases es.any (admitted env p.source) with
      | true => simp
      | false => simp
    · intro hp
      rw [if_neg (by simp), traverse_redirects hes hp]
      simp

theorem enforcement_systemRules :
    let s : Settings := ⟨"eth0", "wlan0", "yes", ""⟩
    let rs := (HostCall.add "10.0.0.7" "").run refusesNone (gwInit refusesNone s systemRules).2
    let env : Env := ⟨fun addr src => addr == src.text, fun _ _ => true, fun _ => .next⟩
    let p : Packet := ⟨⟨10, 0, 0, 7⟩, .tcp, 80, "wlan0", "eth0", .new⟩
    let mark := (traverseChain env rs .mangle p "PREROUTING" 0).2
    ((traverseChain env rs .filter p filterForward mark).1 = some .accept ↔
        (HasEntry env rs p.source ∧ WithinLimit env rs p.source) ∨ ComesBack s p) ∧
      (IsRedirectable p →
        ((traverseChain env rs .nat p natPrerouting mark).1 = some .redirect ↔
          ¬ HasEntry env rs p.source)) := by
  intro s rs env p
  have hinit : Succeeds (initCommands s) systemRules := by decide +kernel
  apply enforcement ((Reached.init (by decide) (by decide) hinit).call _)
  intro others hrules r hr
  have hsame : rs.rules .mangle "PREROUTING" =
      some [jumpTo hostsAllowed, ⟨[.state [.invalid]], .drop⟩] := by decide +kernel
  obtain rfl : [⟨[.state [.invalid]], .drop⟩] = others := by simpa using hsame.symm.trans hrules
  obtain rfl := List.mem_singleton.mp hr
  intro p depth mark
  unfold Rule.step
  split
  · rfl
  · rfl

end WifiGateway.Script
