import WifiGateway.Iptables.Lookup

/-!
# What a row of commands leaves as it was

Most commands are about one chain (`Command.about`) and leave the others as they were
(`rules_run_other`). A property of single rules that the added rules have stays true of
all (`EveryRule.run`), and a chain that is empty and not referenced can be deleted
(`rules_run_deleteChain`).
-/

namespace Iptables

variable {rs rs' : Ruleset} {t t' : Table} {name name' : String} {c : Command}
  {cs : List Command} {refuses : Command → Bool}

/-! ## The chain that a command is about -/

/-- The chain that a command is about, unless it is about more than one or about none. -/
def Command.about : Command → Option (Table × String)
  | .append t chain _ | .deleteNum t chain _ | .newChain t chain | .insert t chain _
  | .delete t chain _ | .flush t chain | .deleteChain t chain => some (t, chain)
  | .flushAll _ | .deleteChains _ | .policy _ _ | .zero => none

/-- The ruleset after a command that is about a chain: the chain edited, made or deleted. -/
theorem exec_about {rs' : Ruleset} (habout : c.about = some (t', name'))
    (hexec : c.exec rs = some rs') :
    (c.isEdit = true ∧ ∃ f, rs' = rs.edit t' name' f) ∨
      (c = .newChain t' name' ∧ rs.rules t' name' = none ∧
        rs' = rs.withTable t' (rs t' ++ [⟨name', []⟩])) ∨
      (c = .deleteChain t' name' ∧ rs.deletable t' name' = true ∧
        rs' = rs.withTable t' ((rs t').filter fun ch => ch.name ≠ name')) := by
  cases c with
  | newChain t chain =>
    obtain ⟨rfl, rfl⟩ := Prod.mk.inj (Option.some.inj habout)
    cases hl : rs.rules t chain with
    | none => exact .inr (.inl ⟨rfl, rfl, by simpa [Command.exec, hl] using hexec.symm⟩)
    | some l => exact absurd hexec (by simp [Command.exec, hl])
  | deleteChain t chain =>
    obtain ⟨rfl, rfl⟩ := Prod.mk.inj (Option.some.inj habout)
    cases hd : rs.deletable t chain with
    | true => exact .inr (.inr ⟨rfl, rfl, by simpa [Command.exec, hd] using hexec.symm⟩)
    | false => exact absurd hexec (by simp [Command.exec, hd])
  | append t chain rule | insert t chain rule | delete t chain rule | deleteNum t chain n
  | flush t chain =>
    obtain ⟨rfl, rfl⟩ := Prod.mk.inj (Option.some.inj habout)
    refine .inl ⟨rfl, ?_⟩
    cases hl : rs.rules t chain with
    | none => exact absurd hexec (by simp [Command.exec, hl])
    | some l =>
      simp only [Command.exec, hl] at hexec
      first
      | exact ⟨_, (Option.some.inj hexec).symm⟩
      | split at hexec
        · exact ⟨_, (Option.some.inj hexec).symm⟩
        · exact absurd hexec (by simp)
  | flushAll | deleteChains | policy | zero => exact absurd habout (by simp [Command.about])

/-- A command about one chain leaves the rules of another as they were. -/
theorem rules_run_other (habout : c.about = some (t', name')) (hne : (t', name') ≠ (t, name)) :
    (run refuses rs c).2.rules t name = rs.rules t name := by
  have hne' : ¬ (t' = t ∧ name' = name) := by
    rintro ⟨rfl, rfl⟩
    exact hne rfl
  rw [run_snd]
  split
  · rfl
  · cases hexec : c.exec rs with
    | none => rfl
    | some rs' =>
      show rs'.rules t name = rs.rules t name
      rcases exec_about habout hexec with ⟨_, f, rfl⟩ | ⟨_, _, rfl⟩ | ⟨_, _, rfl⟩
      · rw [rules_edit_eq]
        simp [hne']
      · rw [rules_withTable, find_append]
        split
        · next ht =>
          subst ht
          have hname : name' ≠ name := fun h => hne' ⟨rfl, h⟩
          simp [hname, Ruleset.rules]
        · rfl
      · rw [rules_withTable]
        split
        · next ht =>
          subst ht
          have hname : name ≠ name' := fun h => hne' ⟨rfl, h.symm⟩
          rw [find_filter fun n => decide (n ≠ name')]
          simp [hname, Ruleset.rules]
        · rfl

/-- A row of commands about other chains. -/
theorem rules_runCommands_other
    (h : ∀ c ∈ cs, ∃ n, c.about = some n ∧ n ≠ (t, name)) :
    (runCommands refuses cs rs).2.rules t name = rs.rules t name := by
  induction cs generalizing rs with
  | nil => rw [runCommands_snd, List.foldl_nil]
  | cons c cs ih =>
    obtain ⟨⟨n, habout, hne⟩, hrest⟩ := List.forall_mem_cons.mp h
    rw [runCommands_cons, ih hrest, rules_run_other habout hne]

/-! ## Names -/

/-- An edit, or a command about a chain of another name, leaves the names of a kind as they
were. -/
theorem names_run {p : String → Bool} (habout : c.about = some (t', name'))
    (hp : c.isEdit = true ∨ p name' = false) :
    ((run refuses rs c).2.names t).filter p = (rs.names t).filter p := by
  rw [run_snd]
  split
  · rfl
  · cases hexec : c.exec rs with
    | none => rfl
    | some rs' =>
      show (rs'.names t).filter p = _
      rcases exec_about habout hexec with ⟨_, f, rfl⟩ | ⟨rfl, _, rfl⟩ | ⟨rfl, _, rfl⟩
      · rw [names_edit]
      · have hname : p name' = false := hp.resolve_left (by simp [Command.isEdit])
        unfold Ruleset.names Ruleset.withTable
        split
        · next ht => simp [ht, hname]
        · rfl
      · have hname : p name' = false := hp.resolve_left (by simp [Command.isEdit])
        unfold Ruleset.names Ruleset.withTable
        split
        · next ht =>
          subst ht
          rw [List.filter_map, List.filter_map, List.filter_filter]
          congr 1
          apply List.filter_congr
          intro ch _
          by_cases hch : ch.name = name'
          · simp [hch, hname]
          · simp [hch]
        · rfl

theorem Ruleset.Distinct.run (h : rs.Distinct) (habout : c.about = some (t', name')) :
    (run refuses rs c).2.Distinct := by
  rw [run_snd]
  split
  · exact h
  · cases hexec : c.exec rs with
    | none => exact h
    | some rs' =>
      show rs'.Distinct
      intro t
      rcases exec_about habout hexec with ⟨_, f, rfl⟩ | ⟨_, hnone, rfl⟩ | ⟨_, _, rfl⟩
      · rw [names_edit]
        exact h t
      · unfold Ruleset.names Ruleset.withTable
        split
        · next ht =>
          subst ht
          rw [List.map_append, List.map_singleton, List.nodup_append]
          refine ⟨h t, List.nodup_singleton _, ?_⟩
          intro n hn n' hn' heq
          rw [heq, List.mem_singleton.mp hn'] at hn
          exact find_none_iff.mp hnone hn
        · exact h t
      · unfold Ruleset.names Ruleset.withTable
        split
        · next ht =>
          subst ht
          exact (h t).sublist (List.filter_sublist.map _)
        · exact h t

/-! ## Properties of rules -/

/-- Every rule of every chain has a property. -/
def EveryRule (P : Table → String → Rule → Prop) (rs : Ruleset) : Prop :=
  ∀ t name l, rs.rules t name = some l → ∀ r ∈ l, P t name r

/-- A rule that the command adds has the property. -/
def Command.Adds (P : Table → String → Rule → Prop) : Command → Prop
  | .append t chain rule | .insert t chain rule => P t chain rule
  | _ => True

variable {P : Table → String → Rule → Prop}

theorem EveryRule.of_forall (h : ∀ t, ∀ ch ∈ rs t, ∀ r ∈ ch.rules, P t ch.name r) :
    EveryRule P rs := by
  intro t name l hl
  exact h t ⟨name, l⟩ (mem_of_find hl)

theorem mem_onRules (hadds : c.Adds P) {l : List Rule} (hl : ∀ r ∈ l, P t name r) :
    ∀ r ∈ c.onRules t name l, P t name r := by
  intro r hr
  cases c with
  | append t' chain rule =>
    rw [Command.onRules] at hr
    split at hr
    · next hown =>
      obtain ⟨rfl, rfl⟩ := hown
      rcases List.mem_append.mp hr with h | h
      · exact hl r h
      · exact List.mem_singleton.mp h ▸ hadds
    · exact hl r hr
  | insert t' chain rule =>
    rw [Command.onRules] at hr
    split at hr
    · next hown =>
      obtain ⟨rfl, rfl⟩ := hown
      rcases List.mem_cons.mp hr with rfl | h
      · exact hadds
      · exact hl r h
    · exact hl r hr
  | delete t' chain rule =>
    rw [Command.onRules] at hr
    split at hr
    · exact hl r (List.mem_of_mem_erase hr)
    · exact hl r hr
  | deleteNum t' chain n =>
    rw [Command.onRules] at hr
    split at hr
    · split at hr
      · exact hl r (List.mem_of_mem_eraseIdx hr)
      · exact hl r hr
    · exact hl r hr
  | flush t' chain =>
    rw [Command.onRules] at hr
    split at hr
    · exact absurd hr List.not_mem_nil
    · exact hl r hr
  | newChain | deleteChain | flushAll | deleteChains | policy | zero => exact hl r hr

/-- A chain that is made is empty, and one that is deleted is gone. -/
theorem rules_run_noEdit (habout : c.about = some (t, name)) (hedit : c.isEdit = false) :
    (run refuses rs c).2.rules t name = rs.rules t name ∨
      ((run refuses rs c).2.rules t name).getD [] = [] := by
  rw [run_snd]
  split
  · exact .inl rfl
  · cases hexec : c.exec rs with
    | none => exact .inl rfl
    | some rs' =>
      right
      show (rs'.rules t name).getD [] = []
      rcases exec_about habout hexec with ⟨hedit', _⟩ | ⟨_, hnone, rfl⟩ | ⟨_, _, rfl⟩
      · exact absurd hedit' (by simp [hedit])
      · have hfind : find name (rs t) = none := hnone
        rw [rules_withTable, if_pos rfl, find_append, hfind]
        simp
      · rw [rules_withTable, if_pos rfl, find_filter fun n => decide (n ≠ name)]
        simp

theorem EveryRule.run (h : EveryRule P rs) (habout : c.about = some (t', name'))
    (hadds : c.Adds P) : EveryRule P (run refuses rs c).2 := by
  intro t name l hl
  by_cases hne : (t', name') = (t, name)
  · obtain ⟨rfl, rfl⟩ := Prod.mk.inj hne
    cases hedit : c.isEdit with
    | true =>
      rcases rules_run_cases (t := t') hedit with hsame | hchanged
      · exact h t' name' l (hsame.symm.trans hl)
      · rw [hchanged] at hl
        obtain ⟨l', hl', rfl⟩ := Option.map_eq_some_iff.mp hl
        exact mem_onRules hadds (h t' name' l' hl')
    | false =>
      rcases rules_run_noEdit habout hedit with hsame | hempty
      · exact h t' name' l (hsame.symm.trans hl)
      · rw [hl, Option.getD_some] at hempty
        rw [hempty]
        exact fun r hr => absurd hr List.not_mem_nil
  · rw [rules_run_other habout hne] at hl
    exact h t name l hl

/-! ## Deleting chains -/

/-- No rule of the table jumps to the chain. -/
def Unreferenced (rs : Ruleset) (t : Table) (name : String) : Prop :=
  ∀ n l, rs.rules t n = some l → ∀ r ∈ l, r.target ≠ .jump name

theorem referenced_eq_false (hd : rs.Distinct) (h : Unreferenced rs t name) :
    rs.referenced t name = false := by
  rw [Bool.eq_false_iff]
  intro href
  obtain ⟨ch, hch, hany⟩ := List.any_eq_true.mp href
  obtain ⟨r, hr, hjump⟩ := List.any_eq_true.mp hany
  exact h ch.name ch.rules (find_of_mem (hd t) hch) r hr (by simpa using hjump)

/-- The chain is not one of the system, it has no rules, and no rule jumps to it; it need not
be there. -/
structure Removable (rs : Ruleset) (t : Table) (name : String) : Prop where
  user : name ∉ builtin t
  empty : (rs.rules t name).getD [] = []
  unreferenced : Unreferenced rs t name

theorem rules_run_deleteChain (hd : rs.Distinct) (h : Removable rs t' name') :
    (run refusesNone rs (.deleteChain t' name')).2.rules t name =
      if (t', name') = (t, name) then none else rs.rules t name := by
  by_cases hown : (t', name') = (t, name)
  · obtain ⟨rfl, rfl⟩ := Prod.mk.inj hown
    rw [if_pos rfl]
    cases hl : rs.rules t' name' with
    | none =>
      have hdel : rs.deletable t' name' = false := by simp [Ruleset.deletable, hl]
      simp [run, refusesNone, Command.exec, hdel, hl]
    | some l =>
      have hempty := h.empty
      rw [hl, Option.getD_some] at hempty
      have hdel : rs.deletable t' name' = true := by
        simp [Ruleset.deletable, hl, hempty, h.user, referenced_eq_false hd h.unreferenced]
      have hrun : (run refusesNone rs (.deleteChain t' name')).2 =
          rs.withTable t' ((rs t').filter fun ch => ch.name ≠ name') := by
        simp [run, refusesNone, Command.exec, hdel]
      rw [hrun, rules_withTable, if_pos rfl, find_filter fun n => decide (n ≠ name')]
      simp
  · rw [if_neg hown]
    exact rules_run_other rfl hown

end Iptables
