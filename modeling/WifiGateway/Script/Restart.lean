import WifiGateway.Script.CleanUp

/-!
# Starting again without cleaning up

A gateway that was killed leaves its chains, and `gw_init` runs again on them. The
commands that make chains fail, which goes unnoticed, and all the others add their rules
a second time: `gw_init` ends with status 0, and the hosts of before are still allowed.
So it is safe to start again only where `gw_init` does not get to its commands
(`restart_safe_iff`).
-/

namespace WifiGateway.Script

open Iptables

/-- If `gw_init` succeeds on what is left of an earlier run, it makes of it what it makes of
the ruleset before that run. -/
def RestartSafe (env : Settings) (base left : Ruleset) : Prop :=
  status (gwInit refusesNone env left).1 = 0 →
    (gwInit refusesNone env left).2 = (gwInit refusesNone env base).2

variable {base rs : Ruleset} {env : Settings}

/-- The last command of `gw_init` is the one that adds the rule for masquerading. -/
theorem initCommands_last (env : Settings) :
    ∃ cs, initCommands env = cs ++ [.append .nat natPostrouting (masqueradeRule env)] := by
  refine ⟨(if env.resetIptables = "yes" then gwResetIptables else []) ++
    (if env.setDefaultFirewall = "yes" then gwSetIptablesInputFirewall else []) ++
    newChains gatewayChains ++ (wireCommands env).dropLast, ?_⟩
  rw [List.append_assoc _ (wireCommands env).dropLast]
  rfl

theorem gwInit_eq (hext : env.extif ≠ "") (hint : env.intif ≠ "") :
    gwInit refusesNone env rs = (.ok (runCommands refusesNone (initCommands env) rs).1,
      (runCommands refusesNone (initCommands env) rs).2) := by
  unfold gwInit
  rw [if_neg hext, if_neg hint]

/-- Every run of `gw_init` adds a rule for masquerading, whatever there is. -/
theorem gwInit_natPostrouting (hext : env.extif ≠ "") (hint : env.intif ≠ "")
    (hreset : env.resetIptables ≠ "yes") :
    (gwInit refusesNone env rs).2.rules .nat natPostrouting =
      some ((rs.rules .nat natPostrouting).getD [] ++ [masqueradeRule env]) := by
  rw [gwInit_eq hext hint]
  unfold initCommands
  rw [if_neg hreset, List.nil_append, List.append_assoc, runCommands_append, rules_wired,
    if_pos (by decide)]
  generalize hfw : (if env.setDefaultFirewall = "yes" then gwSetIptablesInputFirewall else []) = cs
  have hother : (runCommands refusesNone cs rs).2.rules .nat natPostrouting =
      rs.rules .nat natPostrouting := by
    apply rules_runCommands_other
    intro c hc
    rw [← hfw] at hc
    split at hc
    · -- the firewall is in the filter table
      have hfilter : ∀ c ∈ gwSetIptablesInputFirewall, ∃ n, c.about = some n ∧ n.1 = .filter := by
        simp [gwSetIptablesInputFirewall, firewallRules, Command.about]
      obtain ⟨n, habout, htable⟩ := hfilter c hc
      refine ⟨n, habout, ?_⟩
      rintro rfl
      exact absurd htable (by decide)
    · exact absurd hc List.not_mem_nil
  rw [hother]
  rfl

theorem gwInit_status (hext : env.extif ≠ "") (hint : env.intif ≠ "")
    (hreset : env.resetIptables ≠ "yes") : status (gwInit refusesNone env rs).1 = 0 := by
  obtain ⟨cs, hcs⟩ := initCommands_last env
  have hthere : (gwInit refusesNone env rs).2.rules .nat natPostrouting =
      some ((rs.rules .nat natPostrouting).getD [] ++ [masqueradeRule env]) :=
    gwInit_natPostrouting hext hint hreset
  rw [gwInit_eq hext hint, hcs] at hthere ⊢
  show (runCommands refusesNone (cs ++ _) rs).1 = 0
  rw [runCommands_concat_fst]
  have hchain : ((runCommands refusesNone cs rs).2.rules .nat natPostrouting).isSome = true := by
    rw [← isSome_run_edit (c := .append .nat natPostrouting (masqueradeRule env)) rfl]
    rw [runCommands_append] at hthere
    simp only [runCommands_snd, List.foldl_cons, List.foldl_nil] at hthere ⊢
    rw [hthere]
    rfl
  obtain ⟨l, hl⟩ := Option.isSome_iff_exists.mp hchain
  rw [run_append hl rfl]

/-- The calls for hosts leave the chains of the nat table alone. -/
theorem hostCalls_nat (calls : List ((Command → Bool) × HostCall)) (name : String) :
    (runHostCalls calls rs).rules .nat name = rs.rules .nat name := by
  induction calls generalizing rs with
  | nil => rfl
  | cons c calls ih =>
    show (runHostCalls calls (c.2.run c.1 rs)).rules .nat name = _
    rw [ih, HostCall.run_eq]
    apply rules_runCommands_other
    intro c' hc'
    obtain ⟨k, habout⟩ := (HostCall.mem_commands hc').about
    refine ⟨_, habout, ?_⟩
    cases k with
    | allowed | bandwidth | quota => simp [HostChain.table]

/-- After `gw_init` and any calls for hosts it is safe to start again, with the firewall for
the machine itself or without, if and only if `gw_init` refuses to start. -/
theorem restart_safe_iff (h : Clean base) (hreset : env.resetIptables ≠ "yes") (fw : String)
    (calls : List ((Command → Bool) × HostCall)) :
    RestartSafe { env with setDefaultFirewall := fw } base
        (runHostCalls calls (gwInit refusesNone env base).2) ↔
      env.extif = "" ∨ env.intif = "" := by
  constructor
  · intro hsafe
    by_contra hne
    obtain ⟨hext, hint⟩ := not_or.mp hne
    have heq := hsafe (gwInit_status hext hint hreset)
    -- there are two rules for masquerading where there should be one
    have hrules := congrArg (fun rs => rs.rules .nat natPostrouting) heq
    have hnone : base.rules .nat natPostrouting = none := by
      apply find_none_iff.mpr
      intro hmem
      exact absurd (h.names .nat _ hmem) (by decide)
    have hinit : ∀ rs, (gwInit refusesNone { env with setDefaultFirewall := fw } rs).2.rules .nat
        natPostrouting = some ((rs.rules .nat natPostrouting).getD [] ++ [masqueradeRule env]) :=
      fun rs => gwInit_natPostrouting hext hint hreset
    simp only [hinit] at hrules
    rw [hostCalls_nat, gwInit_natPostrouting hext hint hreset, hnone] at hrules
    simp at hrules
  · intro hempty hstatus
    exfalso
    revert hstatus
    unfold gwInit
    rcases hempty with hext | hint
    · rw [if_pos hext]
      exact Nat.one_ne_zero
    · by_cases hext : env.extif = ""
      · rw [if_pos hext]
        exact Nat.one_ne_zero
      · rw [if_neg hext, if_pos hint]
        exact Nat.one_ne_zero

theorem restart_safe_iff_systemRules :
    let env : Settings := ⟨"eth0", "wlan0", "yes", ""⟩
    RestartSafe { env with setDefaultFirewall := "" } systemRules
        (runHostCalls [(refusesNone, .add "10.0.0.7" "")] (gwInit refusesNone env systemRules).2) ↔
      env.extif = "" ∨ env.intif = "" :=
  restart_safe_iff systemRules_clean (by decide) "" _

/-- A host that was allowed when the gateway was killed is allowed after the next start. -/
theorem host_left_allowed :
    ¬ ∀ (base : Ruleset) (env : Settings) (calls : List ((Command → Bool) × HostCall)),
      Clean base → env.resetIptables ≠ "yes" →
        RestartSafe env base (runHostCalls calls (gwInit refusesNone env base).2) := by
  intro h
  have hsafe := h systemRules ⟨"eth0", "wlan0", "", ""⟩ [(refusesNone, .add "10.0.0.7" "")]
    systemRules_clean (by decide)
  have heq := hsafe (gwInit_status (by decide) (by decide) (by decide))
  have hrules := congrArg (fun rs => rs.rules .mangle hostsAllowed) heq
  exact absurd hrules (by decide +kernel)

end WifiGateway.Script
