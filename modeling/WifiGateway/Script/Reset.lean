import WifiGateway.Script.Lives

/-!
# Starting with a reset

With `RESET_IPTABLES=yes` a start throws away all rules and all chains but those of the system,
whosever they are (`gwResetIptables_snd`), and sets up on what is left (`gwInit_reset`). So it does
not matter any more what earlier lives have left, cleaned up or not: from the first reset on the
counters of `Lives.lean` tell what is there, and each reset sets them to zero
(`resets_undone_iff`). What others had is not among it.
-/

namespace WifiGateway.Script

open Iptables

/-- The chains of the system, all of them empty. -/
def bare (rs : Ruleset) : Ruleset := fun t =>
  ((rs.names t).filter fun name => (builtin t).contains name).map fun name => ⟨name, []⟩

/-- The same settings, with this for `RESET_IPTABLES`. -/
def Settings.withReset (env : Settings) (reset : String) : Settings :=
  { env with resetIptables := reset }

/-- The rules after lives, each with its `RESET_IPTABLES`. -/
def afterResets (env : Settings) (lives : List (String × Life)) (rs : Ruleset) : Ruleset :=
  lives.foldl (fun rs life => life.2.run (env.withReset life.1) rs) rs

/-- The jumps that are left after lives: a reset leaves none of those before. -/
def countResets (lives : List (String × Life)) : Nat × Nat :=
  lives.foldl (fun left life => life.2.count (if life.1 = "yes" then (0, 0) else left)) (0, 0)

variable {base rs : Ruleset} {env : Settings} {left : Nat × Nat} {t : Table} {name : String}
  {l : List Rule}

/-! ## A table -/

/-- The rules of an emptied table. -/
theorem find_emptied {chains : List Chain}
    (h : find name (chains.map fun ch => { ch with rules := [] }) = some l) : l = [] := by
  induction chains with
  | nil => exact absurd h (by simp [find])
  | cons ch rest ih =>
    rw [List.map_cons, find] at h
    split at h
    · exact (Option.some.inj h).symm
    · exact ih h

theorem find_map_self {chains : List Chain} {ch : Chain} (h : ch ∈ chains) :
    ∃ l, find ch.name chains = some l := by
  cases hfind : find ch.name chains with
  | some l => exact ⟨l, rfl⟩
  | none => exact absurd (List.mem_map_of_mem h) (find_none_iff.mp hfind)

/-- Every chain of an emptied table that is not the system's can be deleted. -/
theorem deletable_emptied {ch : Chain}
    (h : ch ∈ (rs.withTable t ((rs t).map fun ch => { ch with rules := [] })) t)
    (hname : (builtin t).contains ch.name = false) :
    (rs.withTable t ((rs t).map fun ch => { ch with rules := [] })).deletable t ch.name = true := by
  have htable : (rs.withTable t ((rs t).map fun ch => { ch with rules := [] })) t =
      (rs t).map fun ch => { ch with rules := [] } := if_pos rfl
  unfold Ruleset.deletable Ruleset.referenced Ruleset.rules
  rw [htable] at h ⊢
  obtain ⟨l, hl⟩ := find_map_self h
  obtain rfl := find_emptied hl
  rw [hname, hl]
  simp

/-- A table is emptied, and its chains are deleted. -/
theorem reset_table (t : Table) (rs : Ruleset) :
    (runCommands refusesNone [.flushAll t, .deleteChains t] rs).2 = rs.withTable t (bare rs t) := by
  have hflush : (run refusesNone rs (.flushAll t)).2 =
      rs.withTable t ((rs t).map fun ch => { ch with rules := [] }) := rfl
  rw [runCommands_cons, hflush, runCommands_snd, List.foldl_cons, List.foldl_nil, run_snd]
  generalize hemptied : rs.withTable t ((rs t).map fun ch => { ch with rules := [] }) = rs'
  have hall : ((rs' t).filter fun ch => !(builtin t).contains ch.name).all
      (fun ch => rs'.deletable t ch.name) = true := by
    rw [List.all_eq_true]
    intro ch hch
    obtain ⟨hmem, hname⟩ := List.mem_filter.mp hch
    rw [← hemptied] at hmem ⊢
    exact deletable_emptied hmem (by simpa using hname)
  have hexec : (Command.deleteChains t).exec rs' =
      some (rs'.withTable t ((rs' t).filter fun ch => (builtin t).contains ch.name)) := if_pos hall
  have htable : rs' t = (rs t).map fun ch => { ch with rules := [] } := by
    rw [← hemptied]
    exact if_pos rfl
  show ((Command.deleteChains t).exec rs').getD rs' = _
  rw [hexec, htable]
  funext t'
  show (if t' = t then _ else rs' t') = if t' = t then bare rs t else rs t'
  split
  · simp only [bare, Ruleset.names, List.filter_map, List.map_map]
    rfl
  · next ht =>
    rw [← hemptied]
    exact if_neg ht

/-! ## The reset -/

/-- `gw_restore` leaves the chains of the system, and no rule. -/
theorem gwRestore_snd (rs : Ruleset) : (runCommands refusesNone gwRestore rs).2 = bare rs := by
  have hcommands : gwRestore = [.flushAll .mangle, .deleteChains .mangle] ++
      ([.flushAll .nat, .deleteChains .nat] ++ ([.flushAll .filter, .deleteChains .filter] ++
        [.flushAll .raw, .deleteChains .raw])) := rfl
  rw [hcommands]
  simp only [runCommands_append, reset_table]
  funext t
  cases t with
  | raw | mangle | nat | filter => rfl

theorem names_bare (t : Table) :
    (bare rs).names t = (rs.names t).filter fun name => (builtin t).contains name := by
  unfold Ruleset.names bare
  rw [List.map_map]
  exact List.map_id _

theorem bare_bare (rs : Ruleset) : bare (bare rs) = bare rs := by
  funext t
  show List.map _ (((bare rs).names t).filter _) = _
  rw [names_bare, List.filter_filter]
  simp only [Bool.and_self]
  rfl

theorem rules_bare (h : (bare rs).rules t name = some l) : l = [] := by
  have hemptied : bare rs t = (bare rs t).map fun ch => { ch with rules := [] } := by
    unfold bare
    rw [List.map_map]
    rfl
  unfold Ruleset.rules at h
  rw [hemptied] at h
  exact find_emptied h

/-- There is nothing to flush. -/
theorem run_flush_bare (t : Table) (name : String) :
    (run refusesNone (bare rs) (.flush t name)).2 = bare rs := by
  have hedit : ∀ chains : List Chain, (∀ ch ∈ chains, ch.rules = []) →
      edit name (fun _ => []) chains = chains := by
    intro chains hempty
    induction chains with
    | nil => rfl
    | cons ch rest ih =>
      obtain ⟨hch, hrest⟩ := List.forall_mem_cons.mp hempty
      unfold edit
      split
      · rw [← hch]
      · rw [ih hrest]
  rw [run_snd]
  show ((Command.flush t name).exec (bare rs)).getD (bare rs) = _
  cases hl : (bare rs).rules t name with
  | none => simp only [Command.exec, hl, Option.getD_none]
  | some l =>
    simp only [Command.exec, hl, Option.getD_some]
    funext t'
    show (if t' = t then edit name (fun _ => []) (bare rs t) else bare rs t') = bare rs t'
    split
    · next ht =>
      subst ht
      apply hedit
      intro ch hch
      obtain ⟨n, -, rfl⟩ := List.mem_map.mp hch
      rfl
    · rfl

/-- Policies are not among the rules. -/
theorem run_policy (chain : String) (target : Target) :
    (run refusesNone rs (.policy chain target)).2 = rs := by
  rw [run_snd]
  show (if (rs.rules .filter chain).isSome = true then some rs else none).getD rs = rs
  split
  · rfl
  · rfl

theorem gwSetIptablesDefaultPolicy_snd (rs : Ruleset) :
    (runCommands refusesNone gwSetIptablesDefaultPolicy (bare rs)).2 = bare rs := by
  have hcommands : gwSetIptablesDefaultPolicy =
      [.policy "INPUT" .accept, .flush .filter "INPUT", .policy "OUTPUT" .accept,
        .flush .filter "OUTPUT", .policy "FORWARD" .drop, .flush .filter "FORWARD"] ++
      (gwRestore ++ [.zero]) := rfl
  have hflush : ∀ t name, (run refusesNone (bare rs) (.flush t name)).2 = bare rs :=
    run_flush_bare
  rw [hcommands, runCommands_append]
  simp only [runCommands_cons, run_policy, hflush]
  rw [runCommands_append, runCommands_snd refusesNone [], List.foldl_nil, gwRestore_snd, bare_bare]
  rfl

theorem gwResetIptables_snd (rs : Ruleset) :
    (runCommands refusesNone gwResetIptables rs).2 = bare rs := by
  unfold gwResetIptables
  rw [runCommands_append, gwRestore_snd, gwSetIptablesDefaultPolicy_snd]

/-- A start with a reset is a start on the chains of the system. -/
theorem gwInit_reset (hext : env.extif ≠ "") (hint : env.intif ≠ "") :
    (gwInit refusesNone (env.withReset "yes") rs).2 =
      (gwInit refusesNone (env.withReset "") (bare rs)).2 := by
  have hstart : ∀ reset rs, gwInit refusesNone (env.withReset reset) rs = _ :=
    fun _ _ => gwInit_eq hext hint
  rw [hstart, hstart]
  show (runCommands refusesNone (gwResetIptables ++ _ ++ _ ++ _) rs).2 = _
  rw [List.append_assoc, List.append_assoc, runCommands_append, gwResetIptables_snd,
    ← List.append_assoc]
  rfl

/-! ## Lives -/

/-- There is nothing of a gateway in what a reset leaves. -/
theorem bare_clean (h : rs.Distinct) : Clean (bare rs) where
  distinct t := by
    rw [names_bare]
    exact (h t).filter _
  names t name hname := by
    rw [names_bare] at hname
    exact isGateway_builtin (by simpa using (List.mem_filter.mp hname).2)
  links := by
    intro t name l hl r hr
    rw [rules_bare hl] at hr
    exact absurd hr List.not_mem_nil

/-- Lives of the gateway leave the chains of the system as they were. -/
theorem Left.bare_eq (h : Left base left rs) : bare rs = bare base := by
  funext t
  unfold bare
  rw [← h.inside.names t, List.filter_filter]
  congr 1
  apply List.filter_congr
  intro name _
  by_cases hname : name ∈ builtin t
  · simp [hname, isGateway_builtin hname]
  · simp [hname]

theorem Life.run_reset (hext : env.extif ≠ "") (hint : env.intif ≠ "") (life : Life) :
    life.run (env.withReset "yes") rs = life.run (env.withReset "") (bare rs) :=
  congrArg (fun rs => cleanUpTimes life.cleanUps (runHostCalls life.calls rs))
    (@gwInit_reset rs { env with setDefaultFirewall := life.setDefaultFirewall } hext hint)

theorem Left.lifeNoReset (h : Left (bare base) left rs) (hbase : base.Distinct)
    (hext : env.extif ≠ "") (hint : env.intif ≠ "") {reset : String} (hreset : reset ≠ "yes")
    (life : Life) : Left (bare base) (life.count left) (life.run (env.withReset reset) rs) :=
  @Left.life (bare base) rs (env.withReset reset) left (bare_clean hbase) h hext hint hreset life

/-- A life, with a reset or without, on what lives after a reset have left. -/
theorem Left.lifeReset (h : Left (bare base) left rs) (hbase : base.Distinct)
    (hext : env.extif ≠ "") (hint : env.intif ≠ "") (life : String × Life) :
    Left (bare base) (life.2.count (if life.1 = "yes" then (0, 0) else left))
      (life.2.run (env.withReset life.1) rs) := by
  by_cases hreset : life.1 = "yes"
  · rw [if_pos hreset, hreset, Life.run_reset hext hint, h.bare_eq, bare_bare]
    exact (bare_clean hbase).nothingLeft.lifeNoReset hbase hext hint (by decide) life.2
  · rw [if_neg hreset]
    exact h.lifeNoReset hbase hext hint hreset life.2

/-- With both interfaces set, and whatever there was before, rules of others and what gateways that
were killed have left: after a life that starts with a reset, and any lives after it with a reset or
without, only the empty chains of the system are there if and only if the counters are zero. -/
theorem resets_undone_iff (hd : rs.Distinct) (hext : env.extif ≠ "") (hint : env.intif ≠ "")
    (hfront : "PREROUTING" ∈ rs.names .mangle) (hinput : "INPUT" ∈ rs.names .filter) (life : Life)
    (lives : List (String × Life)) :
    afterResets env (("yes", life) :: lives) rs = bare rs ↔
      countResets (("yes", life) :: lives) = (0, 0) := by
  have hfirst : Left (bare rs) (life.count (0, 0)) (life.run (env.withReset "yes") rs) := by
    rw [Life.run_reset hext hint]
    exact (bare_clean hd).nothingLeft.lifeNoReset hd hext hint (by decide) life
  have hlives : ∀ left rs', Left (bare rs) left rs' →
      Left (bare rs) (lives.foldl (fun left life => life.2.count
          (if life.1 = "yes" then (0, 0) else left)) left) (afterResets env lives rs') := by
    induction lives with
    | nil => exact fun _ _ h => h
    | cons life lives ih => exact fun _ _ h => ih _ _ (h.lifeReset hd hext hint life)
  have hleft : Left (bare rs) (countResets (("yes", life) :: lives))
      (afterResets env (("yes", life) :: lives) rs) := hlives _ _ hfirst
  -- the chains of the system that get a jump are there
  have hthere : ∀ t name, name ∈ rs.names t → name ∈ builtin t → (bare rs).rules t name ≠ none := by
    intro t name hname hsystem hnone
    have hmem : name ∈ (bare rs).names t := by
      rw [names_bare]
      exact List.mem_filter.mpr ⟨hname, by simpa using hsystem⟩
    exact find_none_iff.mp hnone hmem
  constructor
  · intro heq
    rw [heq] at hleft
    exact hleft.eq_zero (hthere _ _ hfront (by decide)) (hthere _ _ hinput (by decide))
  · intro hzero
    rw [hzero] at hleft
    exact hleft.eq_base (bare_clean hd)

/-- A gateway was killed, the next one starts with a reset and is killed as well, and the one after
it cleans up twice. -/
theorem resets_undone_iff_killed :
    let env : Settings := ⟨"eth0", "wlan0", "", ""⟩
    let killed := Life.run env ⟨"yes", [(refusesNone, .add "10.0.0.7" "")], 0⟩ systemRules
    let first : Life := ⟨"yes", [(refusesNone, .add "10.0.0.9" "")], 0⟩
    let lives : List (String × Life) := [("", ⟨"", [], 2⟩)]
    afterResets env (("yes", first) :: lives) killed = bare killed ↔
      countResets (("yes", first) :: lives) = (0, 0) := by
  intro env killed first lives
  refine resets_undone_iff ?_ (by decide) (by decide) ?_ ?_ first lives
  · have hleft : Left systemRules _ killed :=
      systemRules_clean.nothingLeft.life systemRules_clean (by decide) (by decide) (by decide) _
    exact hleft.inside.distinct
  · decide +kernel
  · decide +kernel

end WifiGateway.Script
