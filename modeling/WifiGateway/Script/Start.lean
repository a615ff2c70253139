import WifiGateway.Script.Lives
import WifiGateway.Script.Restart
import WifiGateway.Text.Words

/-!
# When `gw_init` fails

Any command of `gw_init` may be refused. Its status is that of the last one, which adds the rule for
masquerading; so a start is reported as a success if that command was carried out, whatever became
of the others (`gwInit_status_iff`). One that is reported as a failure has gone on to the end all
the same: it leaves nothing only if it made no chain (`gwInit_undone_iff`).

What it is told comes from the arguments of `gw_init.sh` and from the environment (`told`).
-/

namespace WifiGateway.Script

open Iptables

variable {base rs : Ruleset} {env : Settings} {refuses : Iptables.Command → Bool} {t : Table}
  {name : String}

/-! ## What it is told -/

/-- The value, if the argument assigns one to the variable. -/
def assigned (name arg : String) : Option String :=
  if (name ++ "=").toList.isPrefixOf arg.toList then
    some (String.ofList (arg.toList.drop (name ++ "=").toList.length))
  else none

/-- `export` of an argument, if it assigns to a variable that `gw_init` looks at. -/
def exportArg (env : Settings) (arg : String) : Option Settings :=
  ((assigned "EXTIF" arg).map fun v => { env with extif := v }) <|>
  ((assigned "INTIF" arg).map fun v => { env with intif := v }) <|>
  ((assigned "SET_DEFAULT_FIREWALL" arg).map fun v => { env with setDefaultFirewall := v }) <|>
  ((assigned "RESET_IPTABLES" arg).map fun v => { env with resetIptables := v })

/-- What `gw_init` is told, unless one of its arguments is something else than that.
`gw_functions.sh` empties two of the variables before. -/
def told (environment : String → String) (args : List String) : Option Settings :=
  (Shell.unquoted args).foldlM exportArg
    ⟨"", "", environment "SET_DEFAULT_FIREWALL", environment "RESET_IPTABLES"⟩

theorem assigned_self (name v : String) : assigned name (name ++ "=" ++ v) = some v := by
  have hlist : (name ++ "=" ++ v).toList = (name ++ "=").toList ++ v.toList := String.toList_append
  have hprefix : (name ++ "=").toList.isPrefixOf (name ++ "=" ++ v).toList = true := by
    rw [hlist]
    exact List.isPrefixOf_iff_prefix.mpr (List.prefix_append ..)
  unfold assigned
  rw [if_pos hprefix, hlist, List.drop_left, String.ofList_toList]

theorem exportArg_extif (v : String) :
    exportArg env ("EXTIF=" ++ v) = some { env with extif := v } := by
  have hself : assigned "EXTIF" ("EXTIF=" ++ v) = some v := assigned_self "EXTIF" v
  rw [exportArg, hself]
  rfl

theorem exportArg_intif (v : String) :
    exportArg env ("INTIF=" ++ v) = some { env with intif := v } := by
  have hself : assigned "INTIF" ("INTIF=" ++ v) = some v := assigned_self "INTIF" v
  have hother : assigned "EXTIF" ("INTIF=" ++ v) = none := by simp [assigned]
  rw [exportArg, hother, hself]
  rfl

theorem exportArg_setDefaultFirewall (v : String) : exportArg env ("SET_DEFAULT_FIREWALL=" ++ v) =
    some { env with setDefaultFirewall := v } := by
  have hself : assigned "SET_DEFAULT_FIREWALL" ("SET_DEFAULT_FIREWALL=" ++ v) = some v :=
    assigned_self "SET_DEFAULT_FIREWALL" v
  have hext : assigned "EXTIF" ("SET_DEFAULT_FIREWALL=" ++ v) = none := by simp [assigned]
  have hint : assigned "INTIF" ("SET_DEFAULT_FIREWALL=" ++ v) = none := by simp [assigned]
  rw [exportArg, hext, hint, hself]
  rfl

/-! ## What it makes -/

/-- The chains that `gw_init` makes. -/
def ownChains (env : Settings) : List (Table × String) :=
  (if env.setDefaultFirewall = "yes" then [(.filter, firewall)] else []) ++ gatewayChains

theorem initCommands_kept (hreset : env.resetIptables ≠ "yes") : initCommands env =
    (if env.setDefaultFirewall = "yes" then gwSetIptablesInputFirewall else []) ++
      (newChains gatewayChains ++ wireCommands env) := by
  unfold initCommands
  rw [if_neg hreset, List.nil_append, List.append_assoc]

theorem initCommands_sets (hreset : env.resetIptables ≠ "yes") :
    ∀ c ∈ initCommands env, c.sets = true := by
  rw [← List.all_eq_true, initCommands_kept hreset, List.all_append]
  split
  · rfl
  · rfl

theorem newChain_mem_initCommands (hreset : env.resetIptables ≠ "yes") :
    .newChain t name ∈ initCommands env ↔ (t, name) ∈ ownChains env := by
  have hwire : .newChain t name ∉ wireCommands env := by
    simp [wireCommands, natPreroutingRules, filterForwardRules]
  have hmade : .newChain t name ∈ newChains gatewayChains ↔ (t, name) ∈ gatewayChains := by
    simp [newChains]
  have hfirewall : .newChain t name ∈ gwSetIptablesInputFirewall ↔
      (t, name) ∈ [(Table.filter, firewall)] := by
    simp [gwSetIptablesInputFirewall, firewallRules]
  rw [initCommands_kept hreset, ownChains, List.mem_append, List.mem_append, List.mem_append]
  split
  · rw [hfirewall, hmade, or_iff_left hwire]
  · rw [hmade, or_iff_left hwire]
    simp

/-- A command of `gw_init` makes a chain, or adds a rule that needs one. -/
theorem initCommands_needs (hreset : env.resetIptables ≠ "yes") {c : Iptables.Command}
    (hc : c ∈ initCommands env) :
    (∃ n ∈ ownChains env, c = .newChain n.1 n.2) ∨ c.needs isGateway = true := by
  by_cases hnew : ∃ t name, c = .newChain t name
  · obtain ⟨t, name, rfl⟩ := hnew
    exact .inl ⟨(t, name), (newChain_mem_initCommands hreset).mp hc, rfl⟩
  · right
    have hall : ∀ c ∈ initCommands env,
        c.needs isGateway = true ∨ ∃ t name, c = .newChain t name := by
      intro c hc
      rw [initCommands_kept hreset, List.mem_append, List.mem_append] at hc
      have hwire : (wireCommands env).all (Command.needs isGateway) = true := rfl
      have hfirewall : gwSetIptablesInputFirewall.tail.all (Command.needs isGateway) = true := rfl
      rcases hc with hc | hc | hc
      · split at hc
        · rcases List.mem_cons.mp hc with rfl | hc
          · exact .inr ⟨_, _, rfl⟩
          · exact .inl (List.all_eq_true.mp hfirewall c hc)
        · exact absurd hc List.not_mem_nil
      · obtain ⟨n, -, rfl⟩ := List.mem_map.mp hc
        exact .inr ⟨_, _, rfl⟩
      · exact .inl (List.all_eq_true.mp hwire c hc)
    exact (hall c hc).resolve_right hnew

/-- A start is reported as a success if and only if the rule for masquerading was added: not
refused, and its chain made or there from before. -/
theorem gwInit_status_iff (hext : env.extif ≠ "") (hint : env.intif ≠ "")
    (hreset : env.resetIptables ≠ "yes") :
    status (gwInit refuses env rs).1 = 0 ↔
      refuses (.append .nat natPostrouting (masqueradeRule env)) = false ∧
        (rs.rules .nat natPostrouting ≠ none ∨
          refuses (.newChain .nat natPostrouting) = false) := by
  obtain ⟨cs, hcs⟩ := initCommands_last env
  have hsets := initCommands_sets hreset
  have hmem : .newChain .nat natPostrouting ∈ initCommands env := by
    rw [newChain_mem_initCommands hreset]
    exact List.mem_append_right _ (by decide)
  rw [hcs] at hsets hmem
  have hthere : ((runCommands refuses cs rs).2.rules .nat natPostrouting).isSome = true ↔ _ :=
    isSome_runCommands_sets fun c hc => hsets c (List.mem_append_left _ hc)
  have hmem' : .newChain .nat natPostrouting ∈ cs := by simpa using hmem
  have hstatus : status (gwInit refuses env rs).1 =
      (run refuses (runCommands refuses cs rs).2
        (.append .nat natPostrouting (masqueradeRule env))).1 := by
    rw [← runCommands_concat_fst, ← hcs]
    unfold gwInit
    rw [if_neg hext, if_neg hint]
    rfl
  rw [hstatus, ← Option.isSome_iff_ne_none]
  rw [and_iff_right hmem'] at hthere
  rw [← hthere]
  cases hrefused : refuses (.append .nat natPostrouting (masqueradeRule env)) with
  | true => simp [run, hrefused]
  | false =>
    cases hl : (runCommands refuses cs rs).2.rules .nat natPostrouting with
    | none => simp [run, hrefused, Command.exec, hl]
    | some l =>
      have htarget : (runCommands refuses cs rs).2.hasTarget .nat (masqueradeRule env) = true := rfl
      simp [run, hrefused, Command.exec, hl, htarget]

/-- On rules in which there is nothing of a gateway: `gw_init` leaves them as they were if and only
if it does not get to its commands or may make none of its chains. -/
theorem gwInit_undone_iff (hbase : Clean base) (hreset : env.resetIptables ≠ "yes") :
    (gwInit refuses env base).2 = base ↔ env.extif = "" ∨ env.intif = "" ∨
      ∀ n ∈ ownChains env, refuses (.newChain n.1 n.2) = true := by
  by_cases hext : env.extif = ""
  · simp [gwInit, hext]
  by_cases hint : env.intif = ""
  · simp [gwInit, hext, hint]
  have hcommands : (gwInit refuses env base).2 =
      (runCommands refuses (initCommands env) base).2 := by
    unfold gwInit
    rw [if_neg hext, if_neg hint]
  rw [hcommands, or_iff_right hext, or_iff_right hint]
  constructor
  · intro heq n hn
    by_contra hmade
    have hthere : ((runCommands refuses (initCommands env) base).2.rules n.1 n.2).isSome = true :=
      (isSome_runCommands_sets (initCommands_sets hreset)).mpr
        (.inr ⟨(newChain_mem_initCommands hreset).mpr hn, by simpa using hmade⟩)
    rw [heq] at hthere
    -- which is a chain of a gateway
    have hname : n.2 ∉ base.names n.1 := by
      intro hmem
      have hown : isGateway n.2 = true := by
        rcases List.mem_append.mp hn with hn | hn
        · split at hn
          · obtain rfl := List.mem_singleton.mp hn
            decide
          · exact absurd hn List.not_mem_nil
        · exact isGateway_of_mem hn
      exact absurd (hbase.names n.1 n.2 hmem) (by simp [hown])
    have hnone : base.rules n.1 n.2 = none := find_none_iff.mpr hname
    rw [hnone] at hthere
    exact absurd hthere (by simp)
  · intro hrefused
    have hsame : ∀ c ∈ initCommands env, (run refuses base c).2 = base := by
      intro c hc
      rcases initCommands_needs hreset hc with ⟨n, hn, rfl⟩ | hneeds
      · rw [run_snd, if_pos (hrefused n hn)]
      · exact run_needs hbase hneeds
    rw [runCommands_snd]
    generalize initCommands env = cs at hsame
    induction cs with
    | nil => rfl
    | cons c cs ih =>
      obtain ⟨hc, hrest⟩ := List.forall_mem_cons.mp hsame
      rw [List.foldl_cons, hc]
      exact ih hrest

end WifiGateway.Script
