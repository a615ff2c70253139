import WifiGateway.Iptables.Footprint

/-!
# Commands that stay inside

A footprint allows one hook in a chain. A script that is run again and again piles them up, and
then the rules of the chains of others have to be counted. What can be said without that is
said here: commands that only edit chains, or make and delete chains of the script's own, and
that add no jumps between these but given ones (`Command.inside`), keep the names of the others'
chains and the jumps (`Inside.runCommands`). Commands that only add leave the chains there that are
there, and without an own chain most of them do nothing (`run_needs`). The chains that a script
deletes in the end are gone if they are empty and not referenced (`rules_deleteChains`).
-/

namespace Iptables

variable {own : String → Bool} {links : List (Table × String × String)} {rs : Ruleset}
  {t : Table} {name m : String} {l : List Rule} {c : Command} {cs : List Command}
  {refuses : Command → Bool}

/-- The added rule does not jump from one own chain to another, but for these links. -/
def Rule.linksIn (own : String → Bool) (links : List (Table × String × String)) (t : Table)
    (name : String) (r : Rule) : Bool :=
  !own name || (r.link own).all fun m => links.contains (t, name, m)

/-- An edit, or a command that makes or deletes an own chain. -/
def Command.inside (own : String → Bool) (links : List (Table × String × String)) : Command → Bool
  | .append t name r | .insert t name r => r.linksIn own links t name
  | .delete _ _ _ | .deleteNum _ _ _ | .flush _ _ => true
  | .newChain _ name | .deleteChain _ name => own name
  | .flushAll _ | .deleteChains _ | .policy _ _ | .zero => false

/-- The chains of others have these names, and there are no other links than these. -/
structure Inside (own : String → Bool) (links : List (Table × String × String))
    (names : Table → List String) (rs : Ruleset) : Prop where
  distinct : rs.Distinct
  names : ∀ t, (rs.names t).filter (fun n => !own n) = names t
  links : EveryRule (fun t name r => r.linksIn own links t name = true) rs

variable {names : Table → List String}

theorem Inside.run (h : Inside own links names rs) (hc : c.inside own links = true) :
    Inside own links names (run refuses rs c).2 := by
  have hstep : ∀ n : Table × String, c.about = some n →
      (c.isEdit = true ∨ (!own n.2) = false) →
      c.Adds (fun t name r => r.linksIn own links t name = true) →
      Inside own links names (Iptables.run refuses rs c).2 := by
    intro n habout hkeeps hadds
    refine ⟨h.distinct.run habout, fun t => ?_, h.links.run habout hadds⟩
    rw [names_run habout hkeeps]
    exact h.names t
  cases c with
  | append t name r | insert t name r => exact hstep _ rfl (.inl rfl) hc
  | delete | deleteNum | flush => exact hstep _ rfl (.inl rfl) trivial
  | newChain t name | deleteChain t name =>
    have hown : own name = true := hc
    exact hstep _ rfl (.inr (by simp [hown])) trivial
  | flushAll | deleteChains | policy | zero => exact absurd hc (by simp [Command.inside])

theorem Inside.runCommands (h : Inside own links names rs)
    (hcs : cs.all (Command.inside own links) = true) :
    Inside own links names (runCommands refuses cs rs).2 := by
  induction cs generalizing rs with
  | nil =>
    rw [runCommands_snd]
    exact h
  | cons c cs ih =>
    rw [List.all_cons, Bool.and_eq_true] at hcs
    rw [runCommands_cons]
    exact ih (h.run hcs.1) hcs.2

/-- A rule of an own chain that jumps to an own chain is a link. -/
theorem Inside.mem_links (h : Inside own links names rs) (hl : rs.rules t name = some l) {r : Rule}
    (hr : r ∈ l) (hown : own name = true) (htarget : r.target = .jump m) (hm : own m = true) :
    (t, name, m) ∈ links := by
  have hin : r.linksIn own links t name = true := h.links t name l hl r hr
  unfold Rule.linksIn at hin
  rw [hown, link_of_jump htarget hm] at hin
  simpa using hin

/-! ## Rules in a row -/

/-- Commands about other chains do nothing to the rules. -/
theorem foldl_onRules_other (h : ∀ c ∈ cs, c.about ≠ some (t, name)) :
    cs.foldl (fun l c => c.onRules t name l) l = l := by
  induction cs with
  | nil => rfl
  | cons c cs ih =>
    obtain ⟨hc, hrest⟩ := List.forall_mem_cons.mp h
    have hsame : c.onRules t name l = l := by
      cases c with
      | append t' chain | insert t' chain | delete t' chain | deleteNum t' chain
      | flush t' chain =>
        refine if_neg fun hown => hc ?_
        obtain ⟨rfl, rfl⟩ := hown
        rfl
      | newChain | deleteChain | flushAll | deleteChains | policy | zero => rfl
    rw [List.foldl_cons, hsame, ih hrest]

/-- Edits leave the chains there that are there. -/
theorem isSome_runCommands (hcs : ∀ c ∈ cs, c.isEdit = true) :
    ((runCommands refuses cs rs).2.rules t name).isSome = (rs.rules t name).isSome := by
  induction cs generalizing rs with
  | nil => rw [runCommands_snd]; rfl
  | cons c cs ih =>
    obtain ⟨hc, hrest⟩ := List.forall_mem_cons.mp hcs
    rw [runCommands_cons, ih hrest, isSome_run_edit hc]

/-- The rules of a chain that is there after chains are made. -/
theorem rules_made {ns : List (Table × String)}
    (hcs : ∀ c ∈ cs, c.isEdit = true ∧
      c.targetThere (runCommands refusesNone (newChains ns) rs).2 = true) :
    (runCommands refusesNone (newChains ns ++ cs) rs).2.rules t name =
      (if (t, name) ∈ ns then some ((rs.rules t name).getD []) else rs.rules t name).map fun l =>
        cs.foldl (fun l c => c.onRules t name l) l := by
  rw [runCommands_append, rules_edits hcs, rules_newChains]

/-! ## Rules and chains that are added -/

/-- The command adds a rule or makes a chain. -/
def Command.sets : Command → Bool
  | .append _ _ _ | .insert _ _ _ | .newChain _ _ => true
  | _ => false

/-- The command adds a rule to an own chain, or one that jumps to an own chain. -/
def Command.needs (own : String → Bool) : Command → Bool
  | .append _ chain r | .insert _ chain r => own chain || (r.link own).isSome
  | _ => false

/-- A chain is there after such a command if it was there or if the command makes it. -/
theorem isSome_run_sets (hc : c.sets = true) :
    ((run refuses rs c).2.rules t name).isSome = true ↔
      (rs.rules t name).isSome = true ∨ c = .newChain t name ∧ refuses c = false := by
  cases c with
  | append t' chain r | insert t' chain r =>
    rw [isSome_run_edit rfl]
    simp
  | newChain t' chain =>
    rw [run_snd]
    cases hrefused : refuses (.newChain t' chain) with
    | true => simp
    | false =>
      have hnone : (run refusesNone rs (.newChain t' chain)).2 =
          ((Command.newChain t' chain).exec rs).getD rs := run_snd ..
      rw [if_neg Bool.false_ne_true, ← hnone, rules_run_newChain]
      split
      · next hown =>
        obtain ⟨rfl, rfl⟩ := hown
        simp
      · next hown => simp [hown]
  | deleteNum | delete | flush | deleteChain | flushAll | deleteChains | policy | zero =>
    exact absurd hc (by simp [Command.sets])

theorem isSome_runCommands_sets (hcs : ∀ c ∈ cs, c.sets = true) :
    ((runCommands refuses cs rs).2.rules t name).isSome = true ↔
      (rs.rules t name).isSome = true ∨
        .newChain t name ∈ cs ∧ refuses (.newChain t name) = false := by
  induction cs generalizing rs with
  | nil => simp [runCommands_snd]
  | cons c cs ih =>
    obtain ⟨hc, hrest⟩ := List.forall_mem_cons.mp hcs
    rw [runCommands_cons, ih hrest, isSome_run_sets hc, List.mem_cons]
    constructor
    · rintro ((h | ⟨rfl, h⟩) | ⟨hmem, h⟩)
      · exact .inl h
      · exact .inr ⟨.inl rfl, h⟩
      · exact .inr ⟨.inr hmem, h⟩
    · rintro (h | ⟨rfl | hmem, h⟩)
      · exact .inl (.inl h)
      · exact .inl (.inr ⟨rfl, h⟩)
      · exact .inr ⟨hmem, h⟩

/-- Without an own chain there is nothing to add such a rule to, or to jump to. -/
theorem run_needs (hbase : Untouched own base) (hc : c.needs own = true) :
    (run refuses base c).2 = base := by
  have hnone : ∀ t name, own name = true → base.rules t name = none := by
    intro t name hown
    apply find_none_iff.mpr
    intro hmem
    exact absurd (hbase.names t name hmem) (by simp [hown])
  have hexec : c.exec base = none := by
    cases c with
    | append t chain r | insert t chain r =>
      rcases Bool.or_eq_true_iff.mp hc with hown | hlink
      · simp [Command.exec, hnone t chain hown]
      · -- the chain that the rule jumps to is not there
        obtain ⟨m, hm⟩ := Option.isSome_iff_exists.mp hlink
        obtain ⟨htarget, hown⟩ := link_eq_some hm
        apply exec_of_no_target rfl
        show base.hasTarget t r = false
        unfold Ruleset.hasTarget
        rw [htarget]
        simp [hnone t m hown]
    | newChain | deleteNum | delete | flush | deleteChain | flushAll | deleteChains | policy
    | zero => exact absurd hc (by simp [Command.needs])
  rw [run_snd, hexec]
  exact ite_self base

/-! ## Chains in a row -/

theorem Removable.mono {rs' : Ruleset} (h : Removable rs t name)
    (hrules : ∀ t n l, rs'.rules t n = some l → rs.rules t n = some l) : Removable rs' t name where
  user := h.user
  empty := by
    cases hl : rs'.rules t name with
    | none => rfl
    | some l =>
      have hempty := h.empty
      rwa [hrules t name l hl] at hempty
  unreferenced n l hl := h.unreferenced n l (hrules t n l hl)

/-- Chains that are empty and not referenced are deleted, whatever their order. -/
theorem rules_deleteChains {ns : List (Table × String)} (hd : rs.Distinct)
    (h : ∀ n ∈ ns, Removable rs n.1 n.2) :
    (runCommands refusesNone (deleteChains ns) rs).2.rules t name =
      if (t, name) ∈ ns then none else rs.rules t name := by
  induction ns generalizing rs with
  | nil => rfl
  | cons n ns ih =>
    obtain ⟨hn, hrest⟩ := List.forall_mem_cons.mp h
    have hrules : ∀ t name, (run refusesNone rs (.deleteChain n.1 n.2)).2.rules t name =
        if n = (t, name) then none else rs.rules t name := fun _ _ => rules_run_deleteChain hd hn
    have hfewer : ∀ t name l, (run refusesNone rs (.deleteChain n.1 n.2)).2.rules t name = some l →
        rs.rules t name = some l := by
      intro t name l hl
      rw [hrules] at hl
      split at hl
      · exact absurd hl (by simp)
      · exact hl
    have hcons : deleteChains (n :: ns) = .deleteChain n.1 n.2 :: deleteChains ns := rfl
    rw [hcons, runCommands_cons, ih (hd.run rfl) fun n' hn' => (hrest n' hn').mono hfewer, hrules]
    by_cases hmem : (t, name) ∈ ns
    · simp [hmem]
    · by_cases heq : n = (t, name)
      · simp [heq]
      · simp [hmem, heq, Ne.symm heq]

/-- A chain that is there after chains were deleted was there before. -/
theorem rules_deleteChains_some {ns : List (Table × String)}
    (h : (runCommands refuses (deleteChains ns) rs).2.rules t name ≠ none) :
    rs.rules t name ≠ none := by
  induction ns generalizing rs with
  | nil =>
    rw [runCommands_snd] at h
    exact h
  | cons n ns ih =>
    have hcons : deleteChains (n :: ns) = .deleteChain n.1 n.2 :: deleteChains ns := rfl
    rw [hcons, runCommands_cons] at h
    have hafter := ih h
    intro hnone
    apply hafter
    by_cases heq : n = (t, name)
    · subst heq
      have hdel : rs.deletable t name = false := by simp [Ruleset.deletable, hnone]
      simp [run_snd, Command.exec, hdel, hnone]
    · rw [rules_run_other rfl heq, hnone]

end Iptables
