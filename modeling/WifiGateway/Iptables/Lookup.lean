import Mathlib.Data.List.Nodup
import WifiGateway.Iptables.Ruleset

/-!
# Commands, chain by chain

What a command does is said here of one chain at a time: the rules that `Ruleset.rules`
finds under a name. Commands that change the rules of a chain (`isEdit`) leave every other
chain alone and no chain out, so a row of them acts on each chain by itself
(`rules_edits`).

A ruleset whose chains have different names (`Distinct`) is determined by what is found in
it and the order of the names (`Ruleset.ext_rules`).
-/

namespace Iptables

variable {rs rs' : Ruleset} {t t' : Table} {name name' : String} {c : Command}
  {cs : List Command} {refuses : Command → Bool}

/-! ## Rows of commands -/

theorem run_snd (refuses : Command → Bool) (rs : Ruleset) (c : Command) :
    (run refuses rs c).2 = if refuses c then rs else (c.exec rs).getD rs := by
  unfold run
  split
  · rfl
  · cases c.exec rs with
    | none => rfl
    | some rs' => rfl

theorem runCommands_snd (refuses : Command → Bool) (cs : List Command) (rs : Ruleset) :
    (runCommands refuses cs rs).2 = cs.foldl (fun rs c => (run refuses rs c).2) rs := by
  have hfold : ∀ r : Nat × Ruleset, (cs.foldl (fun r c => run refuses r.2 c) r).2 =
      cs.foldl (fun rs c => (run refuses rs c).2) r.2 := by
    induction cs with
    | nil => exact fun _ => rfl
    | cons c cs ih => exact fun r => ih (run refuses r.2 c)
  exact hfold (0, rs)

theorem runCommands_cons (refuses : Command → Bool) (c : Command) (cs : List Command)
    (rs : Ruleset) :
    (runCommands refuses (c :: cs) rs).2 = (runCommands refuses cs (run refuses rs c).2).2 := by
  rw [runCommands_snd, runCommands_snd, List.foldl_cons]

theorem runCommands_append (refuses : Command → Bool) (cs cs' : List Command) (rs : Ruleset) :
    (runCommands refuses (cs ++ cs') rs).2 =
      (runCommands refuses cs' (runCommands refuses cs rs).2).2 := by
  rw [runCommands_snd, runCommands_snd, runCommands_snd, List.foldl_append]

/-- The exit status of a row of commands is that of the last one. -/
theorem runCommands_concat_fst (refuses : Command → Bool) (cs : List Command) (c : Command)
    (rs : Ruleset) :
    (runCommands refuses (cs ++ [c]) rs).1 =
      (run refuses (runCommands refuses cs rs).2 c).1 := by
  unfold runCommands
  rw [List.foldl_append]
  rfl

/-- Every command of a row is carried out. -/
def Succeeds : List Command → Ruleset → Prop
  | [], _ => True
  | c :: cs, rs => (run refusesNone rs c).1 = 0 ∧ Succeeds cs (run refusesNone rs c).2

instance decidableSucceeds : (cs : List Command) → (rs : Ruleset) → Decidable (Succeeds cs rs)
  | [], _ => inferInstanceAs (Decidable True)
  | c :: cs, rs =>
    have := decidableSucceeds cs (run refusesNone rs c).2
    inferInstanceAs (Decidable (_ ∧ _))

theorem Succeeds.append {cs' : List Command} (h : Succeeds (cs ++ cs') rs) :
    Succeeds cs rs ∧ Succeeds cs' (runCommands refusesNone cs rs).2 := by
  induction cs generalizing rs with
  | nil => exact ⟨trivial, h⟩
  | cons c cs ih =>
    obtain ⟨hfirst, hrest⟩ := ih h.2
    rw [runCommands_cons]
    exact ⟨⟨h.1, hfirst⟩, hrest⟩

/-! ## Commands that change the rules of a chain -/

/-- What an edit makes of the rules of one chain. -/
def Command.onRules (t : Table) (name : String) (c : Command) (l : List Rule) : List Rule :=
  match c with
  | .append t' chain rule => if t' = t ∧ chain = name then l ++ [rule] else l
  | .insert t' chain rule => if t' = t ∧ chain = name then rule :: l else l
  | .delete t' chain rule => if t' = t ∧ chain = name then l.erase rule else l
  | .deleteNum t' chain n =>
    if t' = t ∧ chain = name then
      if 1 ≤ n ∧ n ≤ l.length then l.eraseIdx (n - 1) else l
    else l
  | .flush t' chain => if t' = t ∧ chain = name then [] else l
  | _ => l

/-- A command that changes the rules of one chain. -/
def Command.isEdit : Command → Bool
  | .append _ _ _ | .insert _ _ _ | .delete _ _ _ | .deleteNum _ _ _ | .flush _ _ => true
  | _ => false

/-- The chain that an added rule jumps to is there. -/
def Command.targetThere (rs : Ruleset) : Command → Bool
  | .append t _ rule | .insert t _ rule => rs.hasTarget t rule
  | _ => true

/-- An edit of one chain, found under any name. -/
theorem rules_edit_eq {chain : String} {f : List Rule → List Rule} :
    (rs.edit t' chain f).rules t name =
      (rs.rules t name).map fun l => if t' = t ∧ chain = name then f l else l := by
  by_cases ht : t' = t
  · by_cases hn : chain = name
    · subst ht hn
      simp
    · rw [rules_edit_ne (Ne.symm hn)]
      simp [hn]
  · rw [rules_edit_other (Ne.symm ht)]
    simp [ht]

/-- An edit that is made if the chain is there and its rules pass a test. -/
theorem rules_edit_if {chain : String} (f : List Rule → List Rule) (p : List Rule → Prop)
    [DecidablePred p] :
    ((match rs.rules t' chain with
      | none => none
      | some l => if p l then some (rs.edit t' chain f) else none).getD rs).rules t name =
      (rs.rules t name).map fun l =>
        if t' = t ∧ chain = name then if p l then f l else l else l := by
  by_cases hown : t' = t ∧ chain = name
  · obtain ⟨rfl, rfl⟩ := hown
    cases hl : rs.rules t' chain with
    | none => simp [hl]
    | some l =>
      by_cases hp : p l
      · simp [hp, hl]
      · simp [hp, hl]
  · have hsame : ∀ rs' : Ruleset, rs' = rs.edit t' chain f ∨ rs' = rs →
        rs'.rules t name = rs.rules t name := by
      rintro rs' (rfl | rfl)
      · rw [rules_edit_eq]
        simp [hown]
      · rfl
    simp only [if_neg hown, Option.map_id']
    apply hsame
    cases rs.rules t' chain with
    | none => exact .inr rfl
    | some l =>
      by_cases hp : p l
      · exact .inl (by simp [hp])
      · exact .inr (by simp [hp])

theorem exec_edit (hedit : c.isEdit = true) (htarget : c.targetThere rs = true) :
    ((c.exec rs).getD rs).rules t name = (rs.rules t name).map (c.onRules t name) := by
  cases c with
  | append t' chain rule =>
    have hj : rs.hasTarget t' rule = true := htarget
    rw [Command.exec, hj]
    exact rules_edit_if (· ++ [rule]) fun _ => true = true
  | insert t' chain rule =>
    have hj : rs.hasTarget t' rule = true := htarget
    rw [Command.exec, hj]
    exact rules_edit_if (rule :: ·) fun _ => true = true
  | delete t' chain rule =>
    rw [Command.exec]
    apply (rules_edit_if (·.erase rule) fun l => rule ∈ l).trans
    congr 1
    funext l
    by_cases hmem : rule ∈ l
    · simp [Command.onRules, hmem]
    · simp [Command.onRules, hmem, List.erase_of_not_mem hmem]
  | deleteNum t' chain n =>
    exact rules_edit_if (·.eraseIdx (n - 1)) fun l => 1 ≤ n ∧ n ≤ l.length
  | flush t' chain =>
    exact rules_edit_if (fun _ => []) fun _ => true = true
  | newChain | deleteChain | flushAll | deleteChains | policy | zero =>
    exact absurd hedit (by simp [Command.isEdit])

theorem rules_run_edit (hedit : c.isEdit = true) (htarget : c.targetThere rs = true) :
    (run refusesNone rs c).2.rules t name = (rs.rules t name).map (c.onRules t name) := by
  rw [run_snd]
  exact exec_edit hedit htarget

theorem exec_of_no_target (hedit : c.isEdit = true) (htarget : c.targetThere rs = false) :
    c.exec rs = none := by
  cases c with
  | append t chain rule | insert t chain rule =>
    have hj : rs.hasTarget t rule = false := htarget
    simp only [Command.exec, hj]
    split
    · rfl
    · rfl
  | delete | deleteNum | flush => exact absurd htarget (by simp [Command.targetThere])
  | newChain | deleteChain | flushAll | deleteChains | policy | zero =>
    exact absurd hedit (by simp [Command.isEdit])

/-- Whether or not it is refused, an edit changes the rules of a chain as it says or not at
all. -/
theorem rules_run_cases (hedit : c.isEdit = true) :
    (run refuses rs c).2.rules t name = rs.rules t name ∨
      (run refuses rs c).2.rules t name = (rs.rules t name).map (c.onRules t name) := by
  rw [run_snd]
  split
  · exact .inl rfl
  · cases htarget : c.targetThere rs with
    | true => exact .inr (exec_edit hedit htarget)
    | false =>
      rw [exec_of_no_target hedit htarget]
      exact .inl rfl

/-- Edits leave the chains there that are there. -/
theorem isSome_run_edit (hedit : c.isEdit = true) :
    ((run refuses rs c).2.rules t name).isSome = (rs.rules t name).isSome := by
  rcases rules_run_cases hedit with h | h
  · rw [h]
  · rw [h, Option.isSome_map]

theorem hasTarget_congr (h : ∀ t name, (rs'.rules t name).isSome = (rs.rules t name).isSome)
    (t : Table) (rule : Rule) : rs'.hasTarget t rule = rs.hasTarget t rule := by
  unfold Ruleset.hasTarget
  cases rule.target with
  | jump chain => exact h t chain
  | _ => rfl

theorem targetThere_congr (h : ∀ t name, (rs'.rules t name).isSome = (rs.rules t name).isSome)
    (c : Command) : c.targetThere rs' = c.targetThere rs := by
  cases c with
  | append t _ rule | insert t _ rule => exact hasTarget_congr h t rule
  | _ => rfl

/-- A row of edits acts on each chain by itself. -/
theorem rules_edits (hcs : ∀ c ∈ cs, c.isEdit = true ∧ c.targetThere rs = true) :
    (runCommands refusesNone cs rs).2.rules t name =
      (rs.rules t name).map fun l => cs.foldl (fun l c => c.onRules t name l) l := by
  induction cs generalizing rs with
  | nil => simp [runCommands_snd]
  | cons c cs ih =>
    obtain ⟨⟨hedit, htarget⟩, hrest⟩ := List.forall_mem_cons.mp hcs
    have hcs' : ∀ c' ∈ cs, c'.isEdit = true ∧ c'.targetThere (run refusesNone rs c).2 = true := by
      intro c' hc'
      rw [targetThere_congr fun t name => isSome_run_edit hedit]
      exact hrest c' hc'
    rw [runCommands_cons, ih hcs', rules_run_edit hedit htarget, Option.map_map]
    rfl

/-! ## Chains that are made and deleted -/

theorem find_append (chains : List Chain) (l : List Rule) :
    find name (chains ++ [⟨name', l⟩]) =
      (find name chains).orElse fun _ => if name' = name then some l else none := by
  induction chains with
  | nil => rfl
  | cons ch rest ih =>
    by_cases hch : ch.name = name
    · simp [find, hch]
    · simp [find, hch, ih]

theorem find_filter (p : String → Bool) (chains : List Chain) :
    find name (chains.filter fun ch => p ch.name) =
      if p name = true then find name chains else none := by
  induction chains with
  | nil => simp [find]
  | cons ch rest ih =>
    by_cases hch : ch.name = name
    · subst hch
      by_cases hp : p ch.name = true
      · simp [find, hp]
      · simp [hp, ih]
    · by_cases hp : p ch.name = true
      · simp [find, hp, hch, ih]
      · simp [find, hp, hch, ih]

theorem rules_withTable (chains : List Chain) :
    (rs.withTable t' chains).rules t name =
      if t = t' then find name chains else rs.rules t name := by
  unfold Ruleset.rules Ruleset.withTable
  split
  · rfl
  · rfl

theorem run_newChain_of_some {l : List Rule} (h : rs.rules t name = some l) :
    run refusesNone rs (.newChain t name) = (1, rs) := by
  simp [run, refusesNone, Command.exec, h]

theorem run_newChain_of_none (h : rs.rules t name = none) :
    run refusesNone rs (.newChain t name) =
      (0, rs.withTable t (rs t ++ [⟨name, []⟩])) := by
  simp [run, refusesNone, Command.exec, h]

theorem rules_run_newChain :
    (run refusesNone rs (.newChain t' name')).2.rules t name =
      if t' = t ∧ name' = name then some ((rs.rules t name).getD []) else rs.rules t name := by
  cases hl : rs.rules t' name' with
  | some l =>
    rw [run_newChain_of_some hl]
    by_cases hown : t' = t ∧ name' = name
    · obtain ⟨rfl, rfl⟩ := hown
      simp [hl]
    · rw [if_neg hown]
  | none =>
    have hfind : find name' (rs t') = none := hl
    rw [run_newChain_of_none hl, rules_withTable]
    by_cases ht : t = t'
    · subst ht
      rw [if_pos rfl, find_append]
      by_cases hn : name' = name
      · subst hn
        simp [hfind, hl]
      · simp [hn, Ruleset.rules]
    · simp [ht, Ne.symm ht]

/-- The commands that make chains. -/
def newChains (ns : List (Table × String)) : List Command := ns.map fun n => .newChain n.1 n.2

/-- The commands that delete chains. -/
def deleteChains (ns : List (Table × String)) : List Command :=
  ns.map fun n => .deleteChain n.1 n.2

theorem rules_newChains (ns : List (Table × String)) :
    (runCommands refusesNone (newChains ns) rs).2.rules t name =
      if (t, name) ∈ ns then some ((rs.rules t name).getD []) else rs.rules t name := by
  induction ns generalizing rs with
  | nil => simp [newChains, runCommands_snd]
  | cons n ns ih =>
    obtain ⟨t', name'⟩ := n
    have hcons : newChains ((t', name') :: ns) = .newChain t' name' :: newChains ns := rfl
    rw [hcons, runCommands_cons, ih, rules_run_newChain]
    by_cases hown : t' = t ∧ name' = name
    · obtain ⟨rfl, rfl⟩ := hown
      simp
    · have hne : (t, name) ≠ (t', name') := by
        intro h
        exact hown ⟨(Prod.mk.inj h).1.symm, (Prod.mk.inj h).2.symm⟩
      simp [hown, hne]

/-- Chains that are made were not there. -/
theorem Succeeds.newChains {ns : List (Table × String)} (h : Succeeds (newChains ns) rs) :
    ∀ n ∈ ns, rs.rules n.1 n.2 = none := by
  induction ns generalizing rs with
  | nil => exact fun n hn => absurd hn List.not_mem_nil
  | cons n ns ih =>
    obtain ⟨hfirst, hrest⟩ := h
    have hnone : rs.rules n.1 n.2 = none := by
      cases hl : rs.rules n.1 n.2 with
      | none => rfl
      | some l =>
        rw [run_newChain_of_some hl] at hfirst
        exact absurd hfirst Nat.one_ne_zero
    intro n' hn'
    rcases List.mem_cons.mp hn' with rfl | hn'
    · exact hnone
    · have hafter := ih hrest n' hn'
      rw [rules_run_newChain] at hafter
      split at hafter
      · exact absurd hafter (by simp)
      · exact hafter

/-! ## Names -/

/-- The names of the chains of a table. -/
def Ruleset.names (rs : Ruleset) (t : Table) : List String := (rs t).map Chain.name

/-- No two chains of a table have the same name. -/
def Ruleset.Distinct (rs : Ruleset) : Prop := ∀ t, (rs.names t).Nodup

theorem names_edit {chain : String} {f : List Rule → List Rule} :
    (rs.edit t' chain f).names t = rs.names t := by
  have hedit : ∀ chains : List Chain,
      (Iptables.edit chain f chains).map Chain.name = chains.map Chain.name := by
    intro chains
    induction chains with
    | nil => rfl
    | cons ch rest ih =>
      unfold Iptables.edit
      split
      · rfl
      · rw [List.map_cons, ih, List.map_cons]
  unfold Ruleset.names
  by_cases ht : t = t'
  · rw [ht, edit_same, hedit]
  · rw [edit_other ht]

theorem find_none_iff {chains : List Chain} :
    find name chains = none ↔ name ∉ chains.map Chain.name := by
  induction chains with
  | nil => simp [find]
  | cons ch rest ih =>
    by_cases hch : ch.name = name
    · simp [find, hch]
    · simp [find, hch, ih, Ne.symm hch]

/-- Chains of different names are found where they are. -/
theorem find_of_mem {chains : List Chain} (hd : (chains.map Chain.name).Nodup) {ch : Chain}
    (hch : ch ∈ chains) : find ch.name chains = some ch.rules := by
  induction chains with
  | nil => exact absurd hch List.not_mem_nil
  | cons ch' rest ih =>
    rw [List.map_cons, List.nodup_cons] at hd
    rcases List.mem_cons.mp hch with rfl | hrest
    · simp [find]
    · have hne : ch'.name ≠ ch.name := fun h => hd.1 (h ▸ List.mem_map_of_mem hrest)
      rw [find, if_neg hne, ih hd.2 hrest]

theorem mem_of_find {chains : List Chain} {l : List Rule} (h : find name chains = some l) :
    ⟨name, l⟩ ∈ chains := by
  induction chains with
  | nil => exact absurd h (by simp [find])
  | cons ch rest ih =>
    by_cases hch : ch.name = name
    · rw [find, if_pos hch] at h
      rw [← hch, ← Option.some.inj h]
      exact List.mem_cons_self
    · rw [find, if_neg hch] at h
      exact List.mem_cons_of_mem ch (ih h)

/-- What is found of chains of different names, and the order of the names, determine them. -/
theorem chains_ext {xs ys : List Chain} (hx : (xs.map Chain.name).Nodup)
    (hnames : xs.map Chain.name = ys.map Chain.name) (hfind : ∀ n, find n xs = find n ys) :
    xs = ys := by
  induction xs generalizing ys with
  | nil => simpa using hnames
  | cons x xs ih =>
    cases ys with
    | nil => exact absurd hnames (by simp)
    | cons y ys =>
      rw [List.map_cons, List.map_cons, List.cons.injEq] at hnames
      obtain ⟨hname, hrest⟩ := hnames
      rw [List.map_cons, List.nodup_cons] at hx
      have hrules : x.rules = y.rules := by
        have h := hfind x.name
        rw [find, if_pos rfl, find, if_pos hname.symm] at h
        exact Option.some.inj h
      have htail : ∀ n, find n xs = find n ys := by
        intro n
        by_cases hn : x.name = n
        · subst hn
          rw [find_none_iff.mpr hx.1, find_none_iff.mpr (hrest ▸ hx.1)]
        · have h := hfind n
          rwa [find, if_neg hn, find, if_neg (hname ▸ hn)] at h
      rw [ih hx.2 hrest htail]
      congr 1
      cases x
      cases y
      simp_all

/-- The chain that is picked by its name, when no other of the table is. -/
theorem filter_eq_singleton {p : String → Bool} {l : List Rule} (hd : rs.Distinct)
    (hl : rs.rules t name = some l) (hp : p name = true)
    (honly : ∀ n ∈ rs.names t, p n = true → n = name) :
    ((rs t).filter fun ch => p ch.name) = [⟨name, l⟩] := by
  obtain ⟨before, after, hchains⟩ := List.append_of_mem (mem_of_find hl)
  have hnodup : ((rs t).map Chain.name).Nodup := hd t
  rw [hchains, List.map_append, List.map_cons] at hnodup
  have hother := (List.nodup_middle.mp hnodup).notMem
  have hnone : ∀ ch ∈ before ++ after, p ch.name = false := by
    intro ch hch
    rw [Bool.eq_false_iff]
    intro hpch
    have hmem : ch ∈ rs t := by
      rw [hchains]
      exact List.mem_append.mpr ((List.mem_append.mp hch).imp_right (List.mem_cons_of_mem _))
    have hname : ch.name = name := honly ch.name (List.mem_map_of_mem hmem) hpch
    have hnames : name ∈ (before ++ after).map Chain.name := hname ▸ List.mem_map_of_mem hch
    rw [List.map_append] at hnames
    exact hother hnames
  have hown : (Chain.mk name l :: after).filter (fun ch => p ch.name) =
      ⟨name, l⟩ :: after.filter fun ch => p ch.name := List.filter_cons_of_pos hp
  rw [hchains, List.filter_append, hown,
    List.filter_eq_nil_iff.mpr fun ch hch => by simp [hnone ch (List.mem_append_left _ hch)],
    List.filter_eq_nil_iff.mpr fun ch hch => by simp [hnone ch (List.mem_append_right _ hch)]]
  rfl

theorem Ruleset.ext_rules (hd : rs.Distinct) (hnames : ∀ t, rs.names t = rs'.names t)
    (hrules : ∀ t name, rs.rules t name = rs'.rules t name) : rs = rs' := by
  funext t
  exact chains_ext (hd t) (hnames t) (hrules t)

end Iptables
