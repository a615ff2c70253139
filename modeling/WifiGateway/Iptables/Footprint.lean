import WifiGateway.Iptables.Frame

/-!
# What a script has left behind

A script has chains of its own, known by their names, in a ruleset that is otherwise
another's. Its footprint says what it may have left there: which of its chains, what
jumps between them, and what jumps to them it has put at one end of chains of the
others (`Covers`). A command moves the footprint: `grow` by what it may add, whether
or not it is refused, and `shrink` by what it takes away if it is not.

When no chain and no hook is left, the ruleset is the one that there was before
(`Covers.eq_base`). So whether commands clean up after others, in the order they come
in, is a computation on footprints.
-/

namespace Iptables

/-- The chains of a script, those of them that are empty, the jumps from one to another
(table, chain, target), and the jumps to them from chains of others. -/
structure Footprint where
  chains : List (Table × String)
  empty : List (Table × String)
  links : List (Table × String × String)
  hooks : List (Table × String × String)
  deriving DecidableEq, Repr

variable (own : String → Bool)

/-- The own chain that a rule jumps to. -/
def Rule.link (r : Rule) : Option String :=
  match r.target with
  | .jump m => if own m then some m else none
  | _ => none

namespace Footprint

/-- A rule is added: to an own chain, or as a hook to a chain that has none yet. -/
def addRule (fp : Footprint) (t : Table) (name : String) (r : Rule) : Option Footprint :=
  if own name then
    some { fp with
      empty := fp.empty.filter (· ≠ (t, name))
      links := (r.link own).toList.map (fun m => (t, name, m)) ++ fp.links }
  else
    match r with
    | ⟨[], .jump m⟩ =>
      if own m = true ∧ ∀ h ∈ fp.hooks, (h.1, h.2.1) ≠ (t, name) then
        some { fp with hooks := (t, name, m) :: fp.hooks }
      else none
    | _ => none

/-- What a command may add. -/
def grow (fp : Footprint) : Command → Option Footprint
  | .newChain t name =>
    if own name then some { fp with chains := (t, name) :: fp.chains } else none
  | .append t name r | .insert t name r => fp.addRule own t name r
  | .deleteNum _ name _ | .delete _ name _ | .flush _ name => if own name then some fp else none
  | _ => none

/-- What a command that is not refused takes away: a hook, the rules of an own chain, or an
own chain that is empty and that no jump is left to. -/
def shrink (fp : Footprint) : Command → Option Footprint
  | .delete t name ⟨[], .jump m⟩ =>
    if own name = false ∧ own m = true then
      some { fp with hooks := fp.hooks.filter (· ≠ (t, name, m)) }
    else none
  | .flush t name =>
    if own name then
      some { fp with
        empty := (t, name) :: fp.empty
        links := fp.links.filter fun k => (k.1, k.2.1) ≠ (t, name) }
    else none
  | .deleteChain t name =>
    if own name = true ∧ name ∉ builtin t ∧ (t, name) ∈ fp.empty ∧
        ∀ k ∈ fp.links ++ fp.hooks, (k.1, k.2.2) ≠ (t, name) then
      some { fp with chains := fp.chains.filter (· ≠ (t, name)) }
    else none
  | _ => none

/-- No footprint. -/
def nothing : Footprint := ⟨[], [], [], []⟩

/-- The rules of a chain of others, as they were or with a hook at one end. -/
def Hooked (hooks : List (Table × String × String)) (t : Table) (name : String)
    (before after : Option (List Rule)) : Prop :=
  after = before ∨ ∃ m l, (t, name, m) ∈ hooks ∧ before = some l ∧
    (after = some (jumpTo m :: l) ∨ after = some (l ++ [jumpTo m]))

/-- The ruleset is the one before, but for what the footprint tells. -/
structure Covers (fp : Footprint) (base rs : Ruleset) : Prop where
  distinct : rs.Distinct
  names : ∀ t, (rs.names t).filter (fun n => !own n) = base.names t
  made : ∀ t name, own name = true → rs.rules t name ≠ none → (t, name) ∈ fp.chains
  empty : ∀ n ∈ fp.empty, own n.2 = true ∧ (rs.rules n.1 n.2).getD [] = []
  links : EveryRule (fun t name r => own name = true → ∀ m ∈ r.link own, (t, name, m) ∈ fp.links) rs
  others : ∀ t name, own name = false → Hooked fp.hooks t name (base.rules t name) (rs.rules t name)

end Footprint

/-- A ruleset in which there is nothing of a script: none of its chains, and no jump to one. -/
structure Untouched (base : Ruleset) : Prop where
  distinct : base.Distinct
  names : ∀ t, ∀ n ∈ base.names t, own n = false
  links : EveryRule (fun _ _ r => r.link own = none) base

variable {own} {fp fp' : Footprint} {base rs : Ruleset} {t : Table} {name m : String}
  {c : Command} {cs : List Command} {refuses : Command → Bool}

open Footprint

theorem link_eq_some {r : Rule} (h : r.link own = some m) : r.target = .jump m ∧ own m = true := by
  unfold Rule.link at h
  split at h
  · next m' htarget =>
    split at h
    · next hown =>
      obtain rfl := Option.some.inj h
      exact ⟨htarget, hown⟩
    · exact absurd h (by simp)
  · exact absurd h (by simp)

theorem link_of_jump {r : Rule} (htarget : r.target = .jump m) (hown : own m = true) :
    r.link own = some m := by
  unfold Rule.link
  rw [htarget]
  exact if_pos hown

theorem Untouched.covers (h : Untouched own base) : Footprint.nothing.Covers own base base where
  distinct := h.distinct
  names t := by
    apply List.filter_eq_self.mpr
    intro n hn
    simp [h.names t n hn]
  made t name hown hsome := by
    have hmem : name ∈ base.names t := by
      by_contra hmem
      exact hsome (find_none_iff.mpr hmem)
    exact absurd (h.names t name hmem) (by simp [hown])
  empty _ hn := absurd hn List.not_mem_nil
  links := by
    intro t name l hl r hr _ m hm
    exact absurd (h.links t name l hl r hr) (by simp [Option.mem_def.mp hm])
  others _ _ _ := .inl rfl

/-- The system's own rules have no hook among them. -/
theorem Untouched.jumpTo_notMem (h : Untouched own base) (hown : own m = true) {l : List Rule}
    (hl : base.rules t name = some l) : jumpTo m ∉ l := by
  intro hmem
  have hlink : (jumpTo m).link own = none := h.links t name l hl _ hmem
  rw [link_of_jump rfl hown] at hlink
  exact absurd hlink (by simp)

namespace Footprint

variable {hooks hooks' : List (Table × String × String)} {before after : Option (List Rule)}

theorem Hooked.mono (h : Hooked hooks t name before after)
    (hhooks : ∀ m, (t, name, m) ∈ hooks → (t, name, m) ∈ hooks') :
    Hooked hooks' t name before after := by
  rcases h with hsame | ⟨m, l, hm, hl⟩
  · exact .inl hsame
  · exact .inr ⟨m, l, hhooks m hm, hl⟩

/-- A chain as it was gets a hook. -/
theorem Hooked.add (hm : (t, name, m) ∈ hooks)
    (hc : c = .append t name (jumpTo m) ∨ c = .insert t name (jumpTo m)) :
    Hooked hooks t name before (before.map fun l => c.onRules t name l) := by
  cases before with
  | none => exact .inl rfl
  | some l =>
    refine .inr ⟨m, l, hm, rfl, ?_⟩
    rcases hc with rfl | rfl
    · exact .inr (by simp [Command.onRules])
    · exact .inl (by simp [Command.onRules])

/-- Deleting a jump takes it off the chain if it was the hook, and nothing if it was not. -/
theorem Hooked.erase (h : Hooked hooks t name before after)
    (hnot : ∀ l, before = some l → jumpTo m ∉ l) :
    Hooked (hooks.filter (· ≠ (t, name, m))) t name before
      (after.map fun l => l.erase (jumpTo m)) := by
  rcases h with rfl | ⟨m', l, hm', hl, hends⟩
  · -- there was no hook
    left
    cases hl : after with
    | none => rfl
    | some l => rw [Option.map_some, List.erase_of_not_mem (hnot l hl)]
  · by_cases hmm : m' = m
    · -- it was this hook
      subst hmm
      left
      rw [hl]
      rcases hends with hhead | hlast
      · rw [hhead, Option.map_some, List.erase_cons_head]
      · rw [hlast, Option.map_some, List.erase_append_right _ (hnot l hl), List.erase_cons_head,
          List.append_nil]
    · -- it was another
      right
      have hkeep : (t, name, m') ∈ hooks.filter (· ≠ (t, name, m)) :=
        List.mem_filter.mpr ⟨hm', by simp [hmm]⟩
      have hjump : jumpTo m ≠ jumpTo m' := by
        intro heq
        exact hmm (Target.jump.inj (congrArg Rule.target heq)).symm
      refine ⟨m', l, hkeep, hl, ?_⟩
      rcases hends with hhead | hlast
      · rw [hhead, Option.map_some, List.erase_of_not_mem (by simp [hjump, hnot l hl])]
        exact .inl rfl
      · rw [hlast, Option.map_some, List.erase_of_not_mem (by simp [hjump, hnot l hl])]
        exact .inr rfl

theorem Covers.mono (h : fp.Covers own base rs) (hchains : fp.chains ⊆ fp'.chains)
    (hempty : fp'.empty ⊆ fp.empty) (hlinks : fp.links ⊆ fp'.links)
    (hhooks : fp.hooks ⊆ fp'.hooks) : fp'.Covers own base rs where
  distinct := h.distinct
  names := h.names
  made t name hown hsome := hchains (h.made t name hown hsome)
  empty n hn := h.empty n (hempty hn)
  links t name l hl r hr hown m hm := hlinks (h.links t name l hl r hr hown m hm)
  others t name hown := (h.others t name hown).mono fun _ hm => hhooks hm

theorem Covers.made_edit (h : fp.Covers own base rs) (hown : own name = true)
    (hedit : c.isEdit = true) (hsome : (run refuses rs c).2.rules t name ≠ none) :
    (t, name) ∈ fp.chains := by
  rw [← Option.isSome_iff_ne_none, isSome_run_edit hedit, Option.isSome_iff_ne_none] at hsome
  exact h.made t name hown hsome

/-- A command about an own chain that adds no more than what the footprint tells. -/
theorem Covers.run_own (h : fp.Covers own base rs) (habout : c.about = some (t, name))
    (hown : own name = true)
    (hmade : (run refuses rs c).2.rules t name ≠ none → (t, name) ∈ fp.chains)
    (hempty : (t, name) ∈ fp.empty → c.onRules t name [] = [])
    (hadds : c.Adds fun t name r => own name = true → ∀ m ∈ r.link own, (t, name, m) ∈ fp.links) :
    fp.Covers own base (run refuses rs c).2 where
  distinct := h.distinct.run habout
  names t' := by
    rw [names_run habout (.inr (by simp [hown]))]
    exact h.names t'
  made t' name' hown' hsome := by
    by_cases hsame : (t, name) = (t', name')
    · obtain ⟨rfl, rfl⟩ := Prod.mk.inj hsame
      exact hmade hsome
    · rw [rules_run_other habout hsame] at hsome
      exact h.made t' name' hown' hsome
  empty n hn := by
    refine ⟨(h.empty n hn).1, ?_⟩
    have hbefore := (h.empty n hn).2
    by_cases hsame : (t, name) = n
    · subst hsame
      cases hedit : c.isEdit with
      | true =>
        rcases @rules_run_cases rs t name c refuses hedit with hrules | hrules
        · rw [hrules, hbefore]
        · rw [hrules]
          cases hl : rs.rules t name with
          | none => rfl
          | some l =>
            have hnil : l = [] := by simpa [hl] using hbefore
            rw [hnil]
            exact hempty hn
      | false =>
        rcases @rules_run_noEdit rs t name c refuses habout hedit with hrules | hrules
        · rw [hrules, hbefore]
        · exact hrules
    · rw [rules_run_other habout hsame, hbefore]
  links := h.links.run habout hadds
  others t' name' hown' := by
    have hne : (t, name) ≠ (t', name') := by
      rintro ⟨⟩
      exact absurd hown (by simp [hown'])
    rw [rules_run_other habout hne]
    exact h.others t' name' hown'

theorem adds_about {r : Rule} (hc : c = .append t name r ∨ c = .insert t name r) :
    c.about = some (t, name) ∧ c.isEdit = true := by
  rcases hc with rfl | rfl
  · exact ⟨rfl, rfl⟩
  · exact ⟨rfl, rfl⟩

/-- A rule that is added to an own chain. -/
theorem Covers.addRule_own {r : Rule} (h : fp.Covers own base rs) (hown : own name = true)
    (hc : c = .append t name r ∨ c = .insert t name r)
    (hstep : fp.addRule own t name r = some fp') :
    fp'.Covers own base (run refuses rs c).2 := by
  obtain ⟨habout, hedit⟩ := adds_about hc
  unfold addRule at hstep
  rw [if_pos hown] at hstep
  have hwide : fp'.Covers own base rs := by
    obtain rfl := Option.some.inj hstep
    exact h.mono (List.Subset.refl _) (fun _ hn => (List.mem_filter.mp hn).1)
      (List.subset_append_right _ _) (List.Subset.refl _)
  apply hwide.run_own habout hown (hwide.made_edit hown hedit)
  · intro hmem
    obtain rfl := Option.some.inj hstep
    exact absurd rfl (of_decide_eq_true (List.mem_filter.mp hmem).2)
  · have hlink : own name = true → ∀ m ∈ r.link own, (t, name, m) ∈
        fp'.links := by
      intro _ m hm
      obtain rfl := Option.some.inj hstep
      simp [Option.mem_def.mp hm]
    rcases hc with rfl | rfl
    · exact hlink
    · exact hlink

/-- A hook that is added to a chain that has none. -/
theorem Covers.addRule_hook {r : Rule} (h : fp.Covers own base rs) (hown : own name = false)
    (hc : c = .append t name r ∨ c = .insert t name r)
    (hstep : fp.addRule own t name r = some fp') :
    fp'.Covers own base (run refuses rs c).2 := by
  obtain ⟨habout, hedit⟩ := adds_about hc
  -- the rule is a jump to an own chain
  unfold addRule at hstep
  rw [if_neg (by simp [hown])] at hstep
  split at hstep
  · next m =>
    split at hstep
    · next hfree =>
      obtain ⟨hm, hfree⟩ := hfree
      obtain rfl := Option.some.inj hstep
      refine ⟨h.distinct.run habout, ?_, ?_, ?_, ?_, ?_⟩
      · intro t'
        rw [names_run habout (.inl hedit)]
        exact h.names t'
      · exact fun t' name' hown' => h.made_edit hown' hedit
      · intro n hn
        obtain ⟨hown', hempty⟩ := h.empty n hn
        have hne : (t, name) ≠ n := by
          rintro rfl
          exact absurd hown' (by simp [hown])
        rw [rules_run_other habout hne]
        exact ⟨hown', hempty⟩
      · apply h.links.run habout
        rcases hc with rfl | rfl
        · exact fun hown' => absurd hown' (by simp [hown])
        · exact fun hown' => absurd hown' (by simp [hown])
      · intro t' name' hown'
        by_cases hsame : (t, name) = (t', name')
        · obtain ⟨rfl, rfl⟩ := Prod.mk.inj hsame
          -- no hook is there yet
          have hbase : rs.rules t name = base.rules t name := by
            rcases h.others t name hown with hbase | ⟨m', l, hm', _⟩
            · exact hbase
            · exact absurd rfl (hfree _ hm')
          rcases rules_run_cases (t := t) hedit with hrules | hrules
          · rw [hrules]
            exact .inl hbase
          · rw [hrules, hbase]
            exact .add List.mem_cons_self hc
        · rw [rules_run_other habout hsame]
          exact (h.others t' name' hown').mono fun _ hm => List.mem_cons_of_mem _ hm
    · exact absurd hstep (by simp)
  · exact absurd hstep (by simp)

/-- The footprint grows with a command, whether or not it is refused. -/
theorem Covers.grow (h : fp.Covers own base rs) (hstep : fp.grow own c = some fp') :
    fp'.Covers own base (run refuses rs c).2 := by
  have hadd : ∀ t name r, (c = .append t name r ∨ c = .insert t name r) →
      fp.addRule own t name r = some fp' → fp'.Covers own base (run refuses rs c).2 := by
    intro t name r hc hadd
    cases hown : own name with
    | true => exact h.addRule_own hown hc hadd
    | false => exact h.addRule_hook hown hc hadd
  have hsame : ∀ t name, c.about = some (t, name) → c.isEdit = true →
      (∀ P, c.Adds P) → c.onRules t name [] = [] →
      (if own name then some fp else none) = some fp' →
      fp'.Covers own base (run refuses rs c).2 := by
    intro t name habout hedit hadds hnil hif
    split at hif
    · next hown =>
      obtain rfl := Option.some.inj hif
      exact h.run_own habout hown (h.made_edit hown hedit) (fun _ => hnil) (hadds _)
    · exact absurd hif (by simp)
  cases c with
  | newChain t name =>
    rw [Footprint.grow] at hstep
    split at hstep
    · next hown =>
      have hwide : fp'.Covers own base rs := by
        obtain rfl := Option.some.inj hstep
        exact h.mono (List.subset_cons_self _ _) (List.Subset.refl _) (List.Subset.refl _)
          (List.Subset.refl _)
      apply hwide.run_own (c := .newChain t name) rfl hown (fun _ => ?_) (fun _ => rfl) trivial
      obtain rfl := Option.some.inj hstep
      exact List.mem_cons_self
    · exact absurd hstep (by simp)
  | append t name r => exact hadd t name r (.inl rfl) hstep
  | insert t name r => exact hadd t name r (.inr rfl) hstep
  | delete t name r =>
    exact hsame t name rfl rfl (fun _ => trivial) (by simp [Command.onRules]) hstep
  | deleteNum t name n =>
    exact hsame t name rfl rfl (fun _ => trivial) (by simp [Command.onRules]) hstep
  | flush t name => exact hsame t name rfl rfl (fun _ => trivial) (by simp [Command.onRules]) hstep
  | deleteChain | flushAll | deleteChains | policy | zero =>
    exact absurd hstep (by simp [Footprint.grow])

theorem Covers.growAll (h : fp.Covers own base rs)
    (hrun : cs.foldlM (Footprint.grow own) fp = some fp') :
    fp'.Covers own base (runCommands refuses cs rs).2 := by
  induction cs generalizing fp rs with
  | nil =>
    obtain rfl := Option.some.inj hrun
    rwa [runCommands_snd, List.foldl_nil]
  | cons c cs ih =>
    rw [List.foldlM_cons] at hrun
    obtain ⟨fp₁, hstep, hrest⟩ := Option.bind_eq_some_iff.mp hrun
    rw [runCommands_cons]
    exact ih (h.grow hstep) hrest

/-! ## Taking away -/

/-- Deleting the jump takes a hook off the chain, and no rule of others. -/
theorem Covers.unhook (hbase : Untouched own base) (h : fp.Covers own base rs)
    (hown : own name = false) (hm : own m = true) :
    Covers own { fp with hooks := fp.hooks.filter (· ≠ (t, name, m)) } base
      (run refusesNone rs (.delete t name (jumpTo m))).2 where
  distinct := h.distinct.run rfl
  names t' := by
    rw [names_run rfl (.inl rfl)]
    exact h.names t'
  made t' name' hown' hsome := h.made_edit hown' rfl hsome
  empty n hn := by
    obtain ⟨hown', hempty⟩ := h.empty n hn
    have hne : (t, name) ≠ n := by
      rintro rfl
      exact absurd hown' (by simp [hown])
    rw [rules_run_other rfl hne]
    exact ⟨hown', hempty⟩
  links := h.links.run rfl trivial
  others t' name' hown' := by
    by_cases hsame : (t, name) = (t', name')
    · obtain ⟨rfl, rfl⟩ := Prod.mk.inj hsame
      have hrules : (run refusesNone rs (.delete t name (jumpTo m))).2.rules t name =
          (rs.rules t name).map (·.erase (jumpTo m)) := by
        rw [rules_run_edit rfl rfl]
        congr 1
        funext l
        exact if_pos ⟨rfl, rfl⟩
      rw [hrules]
      exact (h.others t name hown).erase fun l hl => hbase.jumpTo_notMem hm hl
    · rw [rules_run_other rfl hsame]
      apply (h.others t' name' hown').mono
      intro m' hm'
      apply List.mem_filter.mpr ⟨hm', _⟩
      rw [decide_eq_true_eq]
      rintro ⟨⟩
      exact hsame rfl

/-- An own chain is emptied. -/
theorem Covers.flush (h : fp.Covers own base rs) (hown : own name = true) :
    Covers own { fp with
        empty := (t, name) :: fp.empty
        links := fp.links.filter fun k => (k.1, k.2.1) ≠ (t, name) } base
      (run refusesNone rs (.flush t name)).2 := by
  have hrun : fp.Covers own base (run refusesNone rs (.flush t name)).2 :=
    h.run_own (c := .flush t name) rfl hown (h.made_edit hown rfl)
      (fun _ => by simp [Command.onRules]) trivial
  have hrules : (run refusesNone rs (.flush t name)).2.rules t name =
      (rs.rules t name).map fun _ => [] := by
    rw [rules_run_edit rfl rfl]
    congr 1
    funext l
    exact if_pos ⟨rfl, rfl⟩
  refine ⟨hrun.distinct, hrun.names, hrun.made, ?_, ?_, hrun.others⟩
  · intro n hn
    rcases List.mem_cons.mp hn with rfl | hn
    · rw [hrules]
      cases rs.rules t name with
      | none => exact ⟨hown, rfl⟩
      | some l => exact ⟨hown, rfl⟩
    · exact hrun.empty n hn
  · intro t' name' l hl r hr hown' m hm
    apply List.mem_filter.mpr ⟨hrun.links t' name' l hl r hr hown' m hm, _⟩
    rw [decide_eq_true_eq]
    rintro ⟨⟩
    -- the chain has no rules
    rw [hrules] at hl
    obtain ⟨_, _, rfl⟩ := Option.map_eq_some_iff.mp hl
    exact absurd hr List.not_mem_nil

/-- An own chain that is empty and that nothing is left to jump to. -/
theorem Covers.removable (hbase : Untouched own base) (h : fp.Covers own base rs)
    (hown : own name = true) (huser : name ∉ builtin t) (hempty : (t, name) ∈ fp.empty)
    (hlinks : ∀ k ∈ fp.links ++ fp.hooks, (k.1, k.2.2) ≠ (t, name)) : Removable rs t name where
  user := huser
  empty := (h.empty _ hempty).2
  unreferenced := by
    intro n l hl r hr htarget
    have hlink := link_of_jump htarget hown
    cases hn : own n with
    | true => exact hlinks _ (List.mem_append_left _ (h.links t n l hl r hr hn name hlink)) rfl
    | false =>
      have hforeign : ∀ l', base.rules t n = some l' → r ∉ l' := by
        intro l' hl' hr'
        have hnone : r.link own = none := hbase.links t n l' hl' r hr'
        exact absurd (hnone.symm.trans hlink) (by simp)
      rcases h.others t n hn with hsame | ⟨m, l', hm, hl', hends⟩
      · exact hforeign l (hsame.symm.trans hl) hr
      · have hr' : r = jumpTo m ∨ r ∈ l' := by
          rcases hends with hhead | hlast
          · rw [hhead, Option.some.injEq] at hl
            rw [← hl] at hr
            exact List.mem_cons.mp hr
          · rw [hlast, Option.some.injEq] at hl
            rw [← hl] at hr
            rcases List.mem_append.mp hr with hr | hr
            · exact .inr hr
            · exact .inl (List.mem_singleton.mp hr)
        rcases hr' with rfl | hr'
        · obtain rfl : m = name := Target.jump.inj htarget
          exact hlinks _ (List.mem_append_right _ hm) rfl
        · exact hforeign l' hl' hr'

theorem Covers.deleteChain (hbase : Untouched own base) (h : fp.Covers own base rs)
    (hown : own name = true) (huser : name ∉ builtin t) (hempty : (t, name) ∈ fp.empty)
    (hlinks : ∀ k ∈ fp.links ++ fp.hooks, (k.1, k.2.2) ≠ (t, name)) :
    Covers own { fp with chains := fp.chains.filter (· ≠ (t, name)) } base
      (run refusesNone rs (.deleteChain t name)).2 := by
  have hgone : (run refusesNone rs (.deleteChain t name)).2.rules t name = none := by
    rw [rules_run_deleteChain h.distinct (h.removable hbase hown huser hempty hlinks), if_pos rfl]
  have hrun : fp.Covers own base (run refusesNone rs (.deleteChain t name)).2 :=
    h.run_own (c := .deleteChain t name) rfl hown (absurd hgone) (fun _ => rfl) trivial
  refine ⟨hrun.distinct, hrun.names, ?_, hrun.empty, hrun.links, hrun.others⟩
  intro t' name' hown' hsome
  apply List.mem_filter.mpr ⟨hrun.made t' name' hown' hsome, _⟩
  rw [decide_eq_true_eq]
  rintro ⟨⟩
  exact hsome hgone

/-- The footprint shrinks with a command that is not refused. -/
theorem Covers.shrink (hbase : Untouched own base) (h : fp.Covers own base rs)
    (hstep : fp.shrink own c = some fp') : fp'.Covers own base (run refusesNone rs c).2 := by
  unfold Footprint.shrink at hstep
  split at hstep
  · next t name m =>
    split at hstep
    · next hhook =>
      obtain rfl := Option.some.inj hstep
      exact h.unhook hbase hhook.1 hhook.2
    · exact absurd hstep (by simp)
  · next t name =>
    split at hstep
    · next hown =>
      obtain rfl := Option.some.inj hstep
      exact h.flush hown
    · exact absurd hstep (by simp)
  · next t name =>
    split at hstep
    · next hdel =>
      obtain ⟨hown, huser, hempty, hlinks⟩ := hdel
      obtain rfl := Option.some.inj hstep
      exact h.deleteChain hbase hown huser hempty hlinks
    · exact absurd hstep (by simp)
  · exact absurd hstep (by simp)

theorem Covers.shrinkAll (hbase : Untouched own base) (h : fp.Covers own base rs)
    (hrun : cs.foldlM (Footprint.shrink own) fp = some fp') :
    fp'.Covers own base (runCommands refusesNone cs rs).2 := by
  induction cs generalizing fp rs with
  | nil =>
    obtain rfl := Option.some.inj hrun
    rwa [runCommands_snd, List.foldl_nil]
  | cons c cs ih =>
    rw [List.foldlM_cons] at hrun
    obtain ⟨fp₁, hstep, hrest⟩ := Option.bind_eq_some_iff.mp hrun
    rw [runCommands_cons]
    exact ih (h.shrink hbase hstep) hrest

/-- A command that takes away: it deletes a jump to an own chain from a chain of others, or
empties or deletes an own chain. -/
def takes (own : String → Bool) : Command → Bool
  | .delete _ name ⟨[], .jump m⟩ => !own name && own m
  | .flush _ name | .deleteChain _ name => own name
  | _ => false

/-- A command that takes away leaves no more than there was, whether or not it is refused. -/
theorem Covers.run_takes (hbase : Untouched own base) (h : fp.Covers own base rs)
    (hc : takes own c = true) : fp.Covers own base (run refuses rs c).2 := by
  by_cases hrefused : refuses c = true
  · have hsame : (run refuses rs c).2 = rs := by rw [run_snd, if_pos hrefused]
    rw [hsame]
    exact h
  · have hrun : (run refuses rs c).2 = (run refusesNone rs c).2 := by
      rw [run_snd, run_snd, if_neg hrefused]
      rfl
    rw [hrun]
    unfold takes at hc
    split at hc
    · next t name m =>
      simp only [Bool.and_eq_true, Bool.not_eq_true'] at hc
      exact (h.unhook hbase hc.1 hc.2).mono (List.Subset.refl _) (List.Subset.refl _)
        (List.Subset.refl _) (List.filter_subset_self _)
    · next t name =>
      exact (h.flush hc).mono (List.Subset.refl _) (List.subset_cons_self _ _)
        (List.filter_subset_self _) (List.Subset.refl _)
    · next t name =>
      apply h.run_own (c := .deleteChain t name) rfl hc _ (fun _ => rfl) trivial
      -- a chain that is there after it was there before
      intro hsome
      apply h.made t name hc
      intro hnone
      apply hsome
      have hdel : rs.deletable t name = false := by simp [Ruleset.deletable, hnone]
      simp [run, refusesNone, Command.exec, hdel, hnone]
    · exact absurd hc (by simp)

theorem Covers.takesAll (hbase : Untouched own base) (h : fp.Covers own base rs)
    (hcs : ∀ c ∈ cs, takes own c = true) : fp.Covers own base (runCommands refuses cs rs).2 := by
  induction cs generalizing rs with
  | nil =>
    rw [runCommands_snd]
    exact h
  | cons c cs ih =>
    obtain ⟨hc, hrest⟩ := List.forall_mem_cons.mp hcs
    rw [runCommands_cons]
    exact ih (h.run_takes hbase hc) hrest

/-- With no chain and no hook left, the ruleset is the one before. -/
theorem Covers.eq_base (hbase : Untouched own base) (h : fp.Covers own base rs)
    (hchains : fp.chains = []) (hhooks : fp.hooks = []) : rs = base := by
  have hgone : ∀ t name, own name = true → rs.rules t name = none := by
    intro t name hown
    by_contra hsome
    have hmem := h.made t name hown hsome
    rw [hchains] at hmem
    exact absurd hmem List.not_mem_nil
  apply Ruleset.ext_rules h.distinct
  · intro t
    rw [← h.names t]
    symm
    apply List.filter_eq_self.mpr
    intro n hn
    cases hown : own n with
    | false => rfl
    | true => exact absurd hn (find_none_iff.mp (hgone t n hown))
  · intro t name
    cases hown : own name with
    | true =>
      rw [hgone t name hown]
      have hnone : base.rules t name = none := by
        apply find_none_iff.mpr
        intro hmem
        exact absurd (hbase.names t name hmem) (by simp [hown])
      exact hnone.symm
    | false =>
      rcases h.others t name hown with hsame | ⟨m, l, hm, _⟩
      · exact hsame
      · rw [hhooks] at hm
        exact absurd hm List.not_mem_nil

end Footprint

end Iptables
