import WifiGateway.Iptables.Hooks
import WifiGateway.Script.Restart

/-!
# Life after life

A gateway that is killed leaves its jumps, and the next `gw_init` puts its own next to them;
`gw_clean_up` takes one of each, and the chains only with the last. So what is left after any
number of lives is told by two counters (`Left`), and the rules are those of before the first
life if and only if both are zero (`lives_undone_iff`). A gateway that is stopped in the
ordinary way cleans up twice, and makes up for one that was killed.
-/

namespace WifiGateway.Script

open Iptables

/-- A life: the firewall for the machine itself or not, calls for hosts with what is refused in
them, and how often the gateway cleans up at the end. -/
structure Life where
  setDefaultFirewall : String
  calls : List ((Command → Bool) × HostCall)
  cleanUps : Nat

/-- The rules after a number of clean-ups. -/
def cleanUpTimes : Nat → Ruleset → Ruleset
  | 0, rs => rs
  | n + 1, rs => cleanUpTimes n (gwCleanUp refusesNone rs).2

/-- The rules after a life. -/
def Life.run (env : Settings) (life : Life) (rs : Ruleset) : Ruleset :=
  cleanUpTimes life.cleanUps (runHostCalls life.calls
    (gwInit refusesNone { env with setDefaultFirewall := life.setDefaultFirewall } rs).2)

/-- The rules after lives. -/
def afterLives (env : Settings) (lives : List Life) (rs : Ruleset) : Ruleset :=
  lives.foldl (fun rs life => life.run env rs) rs

/-- The jumps that are left after a life: to the chains of the gateway, and to the firewall for
the machine itself. -/
def Life.count (life : Life) (left : Nat × Nat) : Nat × Nat :=
  (left.1 + 1 - life.cleanUps,
    left.2 + (if life.setDefaultFirewall = "yes" then 1 else 0) - life.cleanUps)

/-- The jumps that are left after lives. -/
def countLives (lives : List Life) : Nat × Nat :=
  lives.foldl (fun left life => life.count left) (0, 0)

/-! ## The jumps in a chain of the system -/

/-- The chain of the gateway that a chain of the system jumps to first. -/
def hookOf (t : Table) (name : String) : Option String :=
  if (t, name) = (.mangle, "PREROUTING") then some hostsAllowed
  else if (t, name) = (.nat, "PREROUTING") then some natPrerouting
  else if (t, name) = (.filter, "FORWARD") then some filterForward
  else if (t, name) = (.nat, "POSTROUTING") then some natPostrouting
  else none

/-- The chain that jumps to the firewall for the machine itself. -/
def isInput (t : Table) (name : String) : Bool := t == .filter && name == "INPUT"

/-- The rules of a chain of the system with so many jumps in front or at the end. -/
def withHooks (left : Nat × Nat) (t : Table) (name : String) (l : List Rule) : List Rule :=
  match hookOf t name with
  | some m => List.replicate left.1 (jumpTo m) ++ l
  | none => if isInput t name then l ++ List.replicate left.2 (jumpTo firewall) else l

/-- The jumps between chains of the gateway. -/
def innerLinks : List (Table × String × String) :=
  [(.filter, filterForward, hostsQuota), (.filter, filterForward, hostsBandwidth)]

/-- A chain that may be left, because something jumps to it. -/
def MayHave (left : Nat × Nat) (t : Table) (name : String) : Prop :=
  ((t, name) ∈ gatewayChains ∧ left.1 ≠ 0) ∨ ((t, name) = (.filter, firewall) ∧ left.2 ≠ 0)

/-- What lives leave: jumps in the chains of the system, and chains only with jumps. -/
structure Left (base : Ruleset) (left : Nat × Nat) (rs : Ruleset) : Prop where
  inside : Inside isGateway innerLinks base.names rs
  chains : ∀ t name, isGateway name = true → rs.rules t name ≠ none → MayHave left t name
  others : ∀ t name, isGateway name = false →
    rs.rules t name = (base.rules t name).map (withHooks left t name)

variable {base rs : Ruleset} {env : Settings} {left : Nat × Nat} {t : Table} {name : String}
  {l : List Rule}

theorem withHooks_zero (l : List Rule) : withHooks (0, 0) t name l = l := by
  unfold withHooks
  split
  · rfl
  · split
    · exact List.append_nil l
    · rfl

/-- A chain of the system is one of those that get a jump in front, or it gets none there. -/
theorem hookOf_cases (t : Table) (name : String) :
    (t, name) = (.mangle, "PREROUTING") ∨ (t, name) = (.nat, "PREROUTING") ∨
      (t, name) = (.filter, "FORWARD") ∨ (t, name) = (.nat, "POSTROUTING") ∨
      hookOf t name = none := by
  unfold hookOf
  by_cases h₁ : (t, name) = (.mangle, "PREROUTING")
  · exact .inl h₁
  · by_cases h₂ : (t, name) = (.nat, "PREROUTING")
    · exact .inr (.inl h₂)
    · by_cases h₃ : (t, name) = (.filter, "FORWARD")
      · exact .inr (.inr (.inl h₃))
      · by_cases h₄ : (t, name) = (.nat, "POSTROUTING")
        · exact .inr (.inr (.inr (.inl h₄)))
        · exact .inr (.inr (.inr (.inr (by simp [h₁, h₂, h₃, h₄]))))

theorem Clean.nothingLeft (h : Clean base) : Left base (0, 0) base where
  inside := by
    refine ⟨h.distinct, fun t => List.filter_eq_self.mpr fun n hn => ?_, fun t name l hl r hr => ?_⟩
    · rw [h.names t n hn]
      rfl
    · have hlink : r.link isGateway = none := h.links t name l hl r hr
      show r.linksIn isGateway innerLinks t name = true
      unfold Rule.linksIn
      rw [hlink]
      simp
  chains t name hown hsome := by
    have hmem : name ∈ base.names t := by
      by_contra hmem
      exact hsome (find_none_iff.mpr hmem)
    exact absurd hown (by simp [h.names t name hmem])
  others t name _ := by
    cases base.rules t name with
    | none => rfl
    | some l => rw [Option.map_some, withHooks_zero]

theorem isGateway_of_mem (h : (t, name) ∈ gatewayChains) : isGateway name = true := by
  have hall : ∀ n ∈ gatewayChains, isGateway n.2 = true := by decide
  exact hall _ h

/-! ## Setting up -/

/-- What the wiring does to the rules of a chain of the system. -/
theorem foldl_wire (hown : isGateway name = false) (l : List Rule) :
    (wireCommands env).foldl (fun l c => c.onRules t name l) l =
      match hookOf t name with
      | some m => jumpTo m :: l
      | none => l := by
  rcases hookOf_cases t name with h | h | h | h | h
  · obtain ⟨rfl, rfl⟩ := Prod.mk.inj h
    rfl
  · obtain ⟨rfl, rfl⟩ := Prod.mk.inj h
    rfl
  · obtain ⟨rfl, rfl⟩ := Prod.mk.inj h
    rfl
  · obtain ⟨rfl, rfl⟩ := Prod.mk.inj h
    rfl
  · rw [h]
    apply foldl_onRules_other
    intro c hc habout
    have hwhere : (t, name) ∈ gatewayChains ∨ hookOf t name ≠ none := by
      simp only [wireCommands, natPreroutingRules, filterForwardRules, List.map_cons, List.map_nil,
        List.cons_append, List.nil_append, List.mem_cons, List.not_mem_nil, or_false] at hc
      rcases hc with rfl | rfl | rfl | rfl | rfl | rfl | rfl | rfl | rfl | rfl | rfl | rfl
      all_goals
        obtain ⟨rfl, rfl⟩ := Prod.mk.inj (Option.some.inj habout)
        decide
    rcases hwhere with hmem | hsome
    · exact absurd hown (by simp [isGateway_of_mem hmem])
    · exact hsome h

/-- What the wiring makes of a chain of the system that lives left jumps in. -/
theorem withHooks_wire (hown : isGateway name = false) (l : List Rule) :
    (wireCommands env).foldl (fun l c => c.onRules t name l) (withHooks left t name l) =
      withHooks (left.1 + 1, left.2) t name l := by
  rw [foldl_wire hown]
  unfold withHooks
  cases hookOf t name with
  | none => rfl
  | some m => rfl

/-- The chains of the gateway are made, and wired to those of the system. -/
theorem Left.wired (h : Left base left rs) :
    Left base (left.1 + 1, left.2)
      (runCommands refusesNone (newChains gatewayChains ++ wireCommands env) rs).2 where
  inside := by
    have hinside : (newChains gatewayChains ++ wireCommands env).all
        (Command.inside isGateway innerLinks) = true := rfl
    exact h.inside.runCommands hinside
  chains t name hown hsome := by
    rw [rules_wired] at hsome
    split at hsome
    · next hmem => exact .inl ⟨hmem, Nat.succ_ne_zero _⟩
    · rcases h.chains t name hown (fun hnone => hsome (by rw [hnone]; rfl)) with hmem | hfw
      · exact .inl ⟨hmem.1, Nat.succ_ne_zero _⟩
      · exact .inr hfw
  others t name hown := by
    have hnot : (t, name) ∉ gatewayChains := fun hmem =>
      absurd hown (by simp [isGateway_of_mem hmem])
    rw [rules_wired, if_neg hnot, h.others t name hown]
    cases base.rules t name with
    | none => rfl
    | some l => simp only [Option.map_some, withHooks_wire hown]

/-- The edits of the firewall for the machine itself. -/
def firewallEdits : List Command :=
  firewallRules.map (.append .filter firewall) ++ [.append .filter "INPUT" (jumpTo firewall)]

theorem rules_firewall :
    (runCommands refusesNone gwSetIptablesInputFirewall rs).2.rules t name =
      (if (t, name) ∈ [(Table.filter, firewall)] then some ((rs.rules t name).getD [])
        else rs.rules t name).map fun l =>
          firewallEdits.foldl (fun l c => c.onRules t name l) l := by
  have htarget : (runCommands refusesNone (newChains [(.filter, firewall)]) rs).2.hasTarget .filter
      (jumpTo firewall) = true := by
    show ((runCommands refusesNone (newChains [(.filter, firewall)]) rs).2.rules .filter
      firewall).isSome = true
    rw [rules_newChains, if_pos (by decide)]
    rfl
  have hcommands : gwSetIptablesInputFirewall =
      newChains [(.filter, firewall)] ++ firewallEdits := rfl
  rw [hcommands]
  apply rules_made
  intro c hc
  simp only [firewallEdits, firewallRules, List.map_cons, List.map_nil, List.cons_append,
    List.nil_append, List.mem_cons, List.not_mem_nil, or_false] at hc
  rcases hc with rfl | rfl | rfl | rfl | rfl | rfl | rfl | rfl
  all_goals
    refine ⟨rfl, ?_⟩
    first
    | exact htarget
    | rfl

/-- What the edits do to the rules of a chain of the system. -/
theorem foldl_firewall (hown : isGateway name = false) (l : List Rule) :
    firewallEdits.foldl (fun l c => c.onRules t name l) l =
      if isInput t name then l ++ [jumpTo firewall] else l := by
  by_cases hinput : (t, name) = (.filter, "INPUT")
  · obtain ⟨rfl, rfl⟩ := Prod.mk.inj hinput
    rfl
  · have hnot : isInput t name = false := by
      unfold isInput
      rw [Bool.eq_false_iff]
      intro h
      simp only [Bool.and_eq_true, beq_iff_eq] at h
      exact hinput (by rw [h.1, h.2])
    rw [hnot]
    apply foldl_onRules_other
    intro c hc habout
    have hwhere : (t, name) = (.filter, firewall) ∨ (t, name) = (.filter, "INPUT") := by
      unfold firewallEdits at hc
      rcases List.mem_append.mp hc with hc | hc
      · obtain ⟨r, -, rfl⟩ := List.mem_map.mp hc
        exact .inl (Option.some.inj habout).symm
      · obtain rfl := List.mem_singleton.mp hc
        exact .inr (Option.some.inj habout).symm
    rcases hwhere with hfw | hin
    · obtain ⟨rfl, rfl⟩ := Prod.mk.inj hfw
      exact absurd hown (by decide)
    · exact hinput hin

/-- The chain that gets a jump at the end gets none in front. -/
theorem hookOf_input (h : isInput t name = true) : hookOf t name = none := by
  simp only [isInput, Bool.and_eq_true, beq_iff_eq] at h
  obtain ⟨rfl, rfl⟩ := h
  rfl

theorem withHooks_firewall (hown : isGateway name = false) (l : List Rule) :
    firewallEdits.foldl (fun l c => c.onRules t name l) (withHooks left t name l) =
      withHooks (left.1, left.2 + 1) t name l := by
  rw [foldl_firewall hown]
  unfold withHooks
  by_cases hinput : isInput t name = true
  · rw [hookOf_input hinput, if_pos hinput]
    simp only [hinput, if_true]
    rw [List.append_assoc, ← List.replicate_succ']
  · rw [if_neg hinput]
    cases hookOf t name with
    | none => simp only [hinput]; rfl
    | some m => rfl

/-- The firewall for the machine itself is set up. -/
theorem Left.firewalled (h : Left base left rs) :
    Left base (left.1, left.2 + 1) (runCommands refusesNone gwSetIptablesInputFirewall rs).2 where
  inside := by
    have hinside : gwSetIptablesInputFirewall.all (Command.inside isGateway innerLinks) = true := by
      decide
    exact h.inside.runCommands hinside
  chains t name hown hsome := by
    rw [rules_firewall] at hsome
    split at hsome
    · next hmem => exact .inr ⟨List.mem_singleton.mp hmem, Nat.succ_ne_zero _⟩
    · rcases h.chains t name hown (fun hnone => hsome (by rw [hnone]; rfl)) with hmem | hfw
      · exact .inl hmem
      · exact .inr ⟨hfw.1, Nat.succ_ne_zero _⟩
  others t name hown := by
    have hnot : (t, name) ∉ [(Table.filter, firewall)] := by
      intro hmem
      obtain ⟨rfl, rfl⟩ := Prod.mk.inj (List.mem_singleton.mp hmem)
      exact absurd hown (by decide)
    rw [rules_firewall, if_neg hnot, h.others t name hown]
    cases base.rules t name with
    | none => rfl
    | some l => simp only [Option.map_some, withHooks_firewall hown]

theorem Left.gwInit (h : Left base left rs) (hext : env.extif ≠ "") (hint : env.intif ≠ "")
    (hreset : env.resetIptables ≠ "yes") :
    Left base (left.1 + 1, left.2 + if env.setDefaultFirewall = "yes" then 1 else 0)
      (gwInit refusesNone env rs).2 := by
  rw [gwInit_eq hext hint]
  unfold initCommands
  rw [if_neg hreset, List.nil_append, List.append_assoc, runCommands_append]
  by_cases hfw : env.setDefaultFirewall = "yes"
  · rw [if_pos hfw, if_pos hfw]
    exact h.firewalled.wired
  · rw [if_neg hfw, if_neg hfw]
    exact h.wired

/-! ## Hosts in between -/

/-- The commands of a call stay inside. -/
theorem EditsHosts.inside {c : Command} (h : EditsHosts c) :
    c.inside isGateway innerLinks = true := by
  have hadd : ∀ (t : Table) (name : String) (r : Rule), (∀ m, r.target ≠ .jump m) →
      r.linksIn isGateway innerLinks t name = true := by
    intro t name r hjump
    have hlink : r.link isGateway = none := by
      cases hl : r.link isGateway with
      | none => rfl
      | some m => exact absurd (link_eq_some hl).1 (hjump m)
    unfold Rule.linksIn
    rw [hlink]
    simp
  have hedit := h.edit
  have hadds := h.adds
  cases c with
  | append t name r | insert t name r => exact hadd t name r hadds
  | delete | deleteNum | flush => rfl
  | newChain | deleteChain | flushAll | deleteChains | policy | zero =>
    exact absurd hedit (by simp [Command.isEdit])

theorem Left.hostCall (h : Left base left rs) (refuses : Command → Bool) (call : HostCall) :
    Left base left (call.run refuses rs) := by
  rw [HostCall.run_eq]
  have hedits : ∀ c ∈ call.commands rs, EditsHosts c := fun c hc => HostCall.mem_commands hc
  generalize call.commands rs = cs at hedits ⊢
  refine ⟨h.inside.runCommands (List.all_eq_true.mpr fun c hc => (hedits c hc).inside),
    fun t name hown hsome => ?_, fun t name hown => ?_⟩
  · apply h.chains t name hown
    rwa [← Option.isSome_iff_ne_none, isSome_runCommands fun c hc => (hedits c hc).edit,
      Option.isSome_iff_ne_none] at hsome
  · rw [← h.others t name hown]
    apply rules_runCommands_other
    intro c hc
    obtain ⟨k, habout⟩ := (hedits c hc).about
    refine ⟨_, habout, ?_⟩
    rintro ⟨⟩
    exact absurd hown (by simp [HostCall.isGateway_name])

theorem Left.hostCalls (h : Left base left rs) (calls : List ((Command → Bool) × HostCall)) :
    Left base left (runHostCalls calls rs) := by
  induction calls generalizing rs with
  | nil => exact h
  | cons c calls ih => exact ih (h.hostCall c.1 c.2)

/-! ## Cleaning up -/

/-- What is in a chain of the system with jumps. -/
theorem mem_withHooks {r : Rule} (hr : r ∈ withHooks left t name l) :
    r ∈ l ∨ (left.1 ≠ 0 ∧ ∃ m, hookOf t name = some m ∧ r = jumpTo m) ∨
      (left.2 ≠ 0 ∧ r = jumpTo firewall) := by
  unfold withHooks at hr
  split at hr
  · next m hm =>
    rcases List.mem_append.mp hr with hr | hr
    · obtain ⟨hne, rfl⟩ := List.mem_replicate.mp hr
      exact .inr (.inl ⟨hne, m, hm, rfl⟩)
    · exact .inl hr
  · split at hr
    · rcases List.mem_append.mp hr with hr | hr
      · exact .inl hr
      · obtain ⟨hne, rfl⟩ := List.mem_replicate.mp hr
        exact .inr (.inr ⟨hne, rfl⟩)
    · exact .inl hr

/-- The chains of the system are none of the gateway's. -/
theorem isGateway_builtin (h : name ∈ builtin t) : isGateway name = false := by
  have hall : ∀ n ∈ builtin t, isGateway n = false := by
    cases t with
    | raw | mangle | nat | filter => decide
  exact hall name h

/-- A chain of the gateway that is empty can be deleted when no jump from the system and none from
another of its chains is left. -/
theorem removable (hbase : Clean base) (hin : Inside isGateway innerLinks base.names rs)
    (hothers : ∀ t name, isGateway name = false →
      rs.rules t name = (base.rules t name).map (withHooks left t name))
    (hown : isGateway name = true) (hempty : (rs.rules t name).getD [] = [])
    (hinner : ∀ n, (t, n, name) ∈ innerLinks → (rs.rules t n).getD [] = [])
    (hhooks : ∀ n, hookOf t n = some name → left.1 = 0) (hfw : name = firewall → left.2 = 0) :
    Removable rs t name where
  user := by
    intro hmem
    exact absurd hown (by simp [isGateway_builtin hmem])
  empty := hempty
  unreferenced := by
    intro n l hl r hr htarget
    cases hn : isGateway n with
    | true =>
      have hnil := hinner n (hin.mem_links hl hr hn htarget hown)
      rw [hl, Option.getD_some] at hnil
      rw [hnil] at hr
      exact absurd hr List.not_mem_nil
    | false =>
      rw [hothers t n hn] at hl
      obtain ⟨l', hl', rfl⟩ := Option.map_eq_some_iff.mp hl
      rcases mem_withHooks hr with hr | ⟨hne, m, hm, rfl⟩ | ⟨hne, rfl⟩
      · have hnone : r.link isGateway = none := hbase.links t n l' hl' r hr
        rw [link_of_jump htarget hown] at hnone
        exact absurd hnone (by simp)
      · obtain rfl : m = name := Target.jump.inj htarget
        exact hne (hhooks n hm)
      · exact hne (hfw (Target.jump.inj htarget).symm)

/-- One jump is taken from the front. -/
theorem erase_front {m : String} (n : Nat) (h : jumpTo m ∉ l) :
    (List.replicate n (jumpTo m) ++ l).erase (jumpTo m) =
      List.replicate (n - 1) (jumpTo m) ++ l := by
  cases n with
  | zero => exact List.erase_of_not_mem h
  | succ n =>
    rw [List.replicate_succ, List.cons_append, List.erase_cons_head]
    rfl

/-- One jump is taken from the end. -/
theorem erase_back {m : String} (n : Nat) (h : jumpTo m ∉ l) :
    (l ++ List.replicate n (jumpTo m)).erase (jumpTo m) =
      l ++ List.replicate (n - 1) (jumpTo m) := by
  rw [List.erase_append_right _ h]
  cases n with
  | zero => rfl
  | succ n =>
    rw [List.replicate_succ, List.erase_cons_head]
    rfl

/-- What taking the wiring away does to the rules of a chain of the system. -/
theorem foldl_unwire (hown : isGateway name = false) (l : List Rule) :
    unwireCommands.foldl (fun l c => c.onRules t name l) l =
      match hookOf t name with
      | some m => l.erase (jumpTo m)
      | none => l := by
  rcases hookOf_cases t name with h | h | h | h | h
  · obtain ⟨rfl, rfl⟩ := Prod.mk.inj h
    rfl
  · obtain ⟨rfl, rfl⟩ := Prod.mk.inj h
    rfl
  · obtain ⟨rfl, rfl⟩ := Prod.mk.inj h
    rfl
  · obtain ⟨rfl, rfl⟩ := Prod.mk.inj h
    rfl
  · rw [h]
    apply foldl_onRules_other
    intro c hc habout
    have hwhere : (t, name) ∈ gatewayChains ∨ hookOf t name ≠ none := by
      simp only [unwireCommands, gatewayChains, List.map_cons, List.map_nil, List.cons_append,
        List.nil_append, List.mem_cons, List.not_mem_nil, or_false] at hc
      rcases hc with rfl | rfl | rfl | rfl | rfl | rfl | rfl | rfl | rfl | rfl
      all_goals
        obtain ⟨rfl, rfl⟩ := Prod.mk.inj (Option.some.inj habout)
        decide
    rcases hwhere with hmem | hsome
    · exact absurd hown (by simp [isGateway_of_mem hmem])
    · exact hsome h

/-- The chains of the gateway are emptied. -/
theorem foldl_unwire_own (h : (t, name) ∈ gatewayChains) (l : List Rule) :
    unwireCommands.foldl (fun l c => c.onRules t name l) l = [] := by
  simp only [gatewayChains, List.mem_cons, Prod.mk.injEq, List.not_mem_nil, or_false] at h
  rcases h with ⟨rfl, rfl⟩ | ⟨rfl, rfl⟩ | ⟨rfl, rfl⟩ | ⟨rfl, rfl⟩ | ⟨rfl, rfl⟩ | ⟨rfl, rfl⟩
  all_goals rfl

theorem withHooks_unwire (hbase : Clean base) (hown : isGateway name = false)
    (hl : base.rules t name = some l) :
    unwireCommands.foldl (fun l c => c.onRules t name l) (withHooks left t name l) =
      withHooks (left.1 - 1, left.2) t name l := by
  rw [foldl_unwire hown]
  unfold withHooks
  cases hhook : hookOf t name with
  | none => rfl
  | some m =>
    have hgateway : isGateway m = true := by
      rcases hookOf_cases t name with h | h | h | h | h
      all_goals
        first
        | obtain ⟨rfl, rfl⟩ := Prod.mk.inj h
          obtain rfl := Option.some.inj hhook
          decide
        | exact absurd (hhook.symm.trans h) (by simp)
    exact erase_front left.1 (hbase.jumpTo_notMem hgateway hl)

/-- Edits that take a jump from the chains of the system and empty chains of the gateway, and the
deletion of these: either more jumps are left to them, or they can be deleted. -/
theorem Left.taken (hbase : Clean base) (h : Left base left rs) {cs : List Command}
    {ns : List (Table × String)} {left' : Nat × Nat}
    (hcs : ∀ c ∈ cs, c.isEdit = true ∧ c.targetThere rs = true)
    (hinside : (cs ++ deleteChains ns).all (Command.inside isGateway innerLinks) = true)
    (hns : ∀ n ∈ ns, isGateway n.2 = true)
    (hempty : ∀ n ∈ ns, ∀ l, cs.foldl (fun l c => c.onRules n.1 n.2 l) l = [])
    (hsystem : ∀ t name l, isGateway name = false → base.rules t name = some l →
      cs.foldl (fun l c => c.onRules t name l) (withHooks left t name l) =
        withHooks left' t name l)
    (hother : ∀ t name, (t, name) ∉ ns → MayHave left t name → MayHave left' t name)
    (hlast : (∀ n ∈ ns, MayHave left' n.1 n.2) ∨ ∀ n ∈ ns,
      (∀ k, (n.1, k, n.2) ∈ innerLinks → (n.1, k) ∈ ns) ∧
        (∀ k, hookOf n.1 k = some n.2 → left'.1 = 0) ∧ (n.2 = firewall → left'.2 = 0)) :
    Left base left' (runCommands refusesNone (cs ++ deleteChains ns) rs).2 := by
  have hrules : ∀ t name, (runCommands refusesNone cs rs).2.rules t name =
      (rs.rules t name).map fun l => cs.foldl (fun l c => c.onRules t name l) l := fun _ _ =>
    rules_edits hcs
  have hmiddle : Inside isGateway innerLinks base.names (runCommands refusesNone cs rs).2 := by
    rw [List.all_append, Bool.and_eq_true] at hinside
    exact h.inside.runCommands hinside.1
  have hothers : ∀ t name, isGateway name = false →
      (runCommands refusesNone cs rs).2.rules t name =
        (base.rules t name).map (withHooks left' t name) := by
    intro t name hown
    rw [hrules, h.others t name hown]
    cases hl : base.rules t name with
    | none => rfl
    | some l => simp only [Option.map_some, hsystem t name l hown hl]
  have hnil : ∀ n ∈ ns, ((runCommands refusesNone cs rs).2.rules n.1 n.2).getD [] = [] := by
    intro n hn
    rw [hrules]
    cases rs.rules n.1 n.2 with
    | none => rfl
    | some l => simp only [Option.map_some, hempty n hn, Option.getD_some]
  refine ⟨h.inside.runCommands hinside, fun t name hown hsome => ?_, fun t name hown => ?_⟩
  · rw [runCommands_append] at hsome
    have hbefore : MayHave left t name := by
      apply h.chains t name hown
      intro hnone
      apply rules_deleteChains_some hsome
      rw [hrules, hnone]
      rfl
    by_cases hmem : (t, name) ∈ ns
    · refine hlast.elim (fun hmore => hmore _ hmem) fun hlast => ?_
      -- the chains are gone
      rw [rules_deleteChains hmiddle.distinct, if_pos hmem] at hsome
      · exact absurd rfl hsome
      · intro n hn
        obtain ⟨hinner, hhooks, hfw⟩ := hlast n hn
        exact removable hbase hmiddle hothers (hns n hn) (hnil n hn)
          (fun k hk => hnil _ (hinner k hk)) hhooks hfw
    · exact hother t name hmem hbefore
  · rw [runCommands_append, ← hothers t name hown]
    apply rules_runCommands_other
    intro c hc
    obtain ⟨n, hn, rfl⟩ := List.mem_map.mp hc
    refine ⟨n, rfl, ?_⟩
    rintro rfl
    exact absurd hown (by simp [hns _ hn])

/-- The wiring is taken away. -/
theorem Left.unwired (hbase : Clean base) (h : Left base left rs) :
    Left base (left.1 - 1, left.2)
      (runCommands refusesNone (unwireCommands ++ deleteChains gatewayChains) rs).2 := by
  have hedits : ∀ c ∈ unwireCommands, c.isEdit = true ∧ c.targetThere rs = true := by
    have hall : unwireCommands.all (fun c => c.isEdit && c.targetThere rs) = true := rfl
    intro c hc
    simpa using List.all_eq_true.mp hall c hc
  refine h.taken hbase hedits (by decide) (fun n hn => isGateway_of_mem hn)
    (fun n hn l => foldl_unwire_own hn l)
    (fun t name l hown hl => withHooks_unwire hbase hown hl) ?_ ?_
  · rintro t name hnot (hmem | hfw)
    · exact absurd hmem.1 hnot
    · exact .inr hfw
  · by_cases hleft : left.1 - 1 = 0
    · refine .inr fun n hn => ⟨fun k hk => ?_, fun _ _ => hleft, fun hfw => ?_⟩
      · have hforward : n.1 = .filter ∧ k = filterForward := by
          simp only [innerLinks, List.mem_cons, Prod.mk.injEq, List.not_mem_nil, or_false] at hk
          rcases hk with hk | hk
          · exact ⟨hk.1, hk.2.1⟩
          · exact ⟨hk.1, hk.2.1⟩
        rw [hforward.1, hforward.2]
        decide
      · have hnot : ∀ n ∈ gatewayChains, n.2 ≠ firewall := by decide
        exact absurd hfw (hnot n hn)
    · exact .inl fun n hn => .inl ⟨hn, hleft⟩

/-- The firewall for the machine itself is taken away. -/
theorem Left.unfirewalled (hbase : Clean base) (h : Left base left rs) :
    Left base (left.1, left.2 - 1)
      (runCommands refusesNone
        ([.delete .filter "INPUT" (jumpTo firewall), .flush .filter firewall] ++
          deleteChains [(.filter, firewall)]) rs).2 := by
  refine h.taken hbase ?_ (by decide) (by decide) ?_ ?_ ?_ ?_
  · intro c hc
    simp only [List.mem_cons, List.not_mem_nil, or_false] at hc
    rcases hc with rfl | rfl
    · exact ⟨rfl, rfl⟩
    · exact ⟨rfl, rfl⟩
  · intro n hn l
    obtain rfl := List.mem_singleton.mp hn
    rfl
  · intro t name l hown hl
    have hnot : ¬ (Table.filter = t ∧ firewall = name) := by
      rintro ⟨rfl, rfl⟩
      exact absurd hown (by decide)
    simp only [List.foldl_cons, List.foldl_nil, Command.onRules, if_neg hnot]
    unfold withHooks
    by_cases hinput : isInput t name = true
    · have hin : Table.filter = t ∧ "INPUT" = name := by
        simp only [isInput, Bool.and_eq_true, beq_iff_eq] at hinput
        exact ⟨hinput.1.symm, hinput.2.symm⟩
      rw [hookOf_input hinput, if_pos hin]
      simp only [hinput, if_true]
      exact erase_back left.2 (hbase.jumpTo_notMem (by decide) hl)
    · have hin : ¬ (Table.filter = t ∧ "INPUT" = name) := by
        rintro ⟨rfl, rfl⟩
        exact hinput rfl
      rw [if_neg hin]
      cases hookOf t name with
      | none => simp only [if_neg hinput]
      | some m => rfl
  · rintro t name hnot (hmem | hfw)
    · exact .inl hmem
    · exact absurd (List.mem_singleton.mpr hfw.1) hnot
  · by_cases hleft : left.2 - 1 = 0
    · refine .inr fun n hn => ?_
      obtain rfl := List.mem_singleton.mp hn
      refine ⟨fun k hk => ?_, fun k hk => ?_, fun _ => hleft⟩
      · have hnone : ∀ link ∈ innerLinks, link.2.2 ≠ firewall := by decide
        exact absurd rfl (hnone _ hk)
      · rcases hookOf_cases Table.filter k with h | h | h | h | h
        all_goals
          first
          | exact absurd (hk.symm.trans h) (by simp)
          | obtain ⟨h₁, rfl⟩ := Prod.mk.inj h
            exact absurd hk (by decide)
    · refine .inl fun n hn => ?_
      obtain rfl := List.mem_singleton.mp hn
      exact .inr ⟨rfl, hleft⟩

theorem Left.cleanUp (hbase : Clean base) (h : Left base left rs) :
    Left base (left.1 - 1, left.2 - 1) (gwCleanUp refusesNone rs).2 := by
  have hcommands : cleanUpCommands = (unwireCommands ++ deleteChains gatewayChains) ++
      ([.delete .filter "INPUT" (jumpTo firewall), .flush .filter firewall] ++
        deleteChains [(.filter, firewall)]) := by
    unfold cleanUpCommands
    rw [List.append_assoc _ _ (deleteChains [(.filter, firewall)])]
  simp only [gwCleanUp]
  rw [hcommands, runCommands_append]
  exact (h.unwired hbase).unfirewalled hbase

theorem Left.cleanUpTimes (hbase : Clean base) (h : Left base left rs) (n : Nat) :
    Left base (left.1 - n, left.2 - n) (cleanUpTimes n rs) := by
  induction n generalizing left rs with
  | zero => exact h
  | succ n ih =>
    have hrest := ih (h.cleanUp hbase)
    rw [Nat.sub_sub, Nat.sub_sub, Nat.add_comm 1 n] at hrest
    exact hrest

/-! ## Lives -/

theorem Left.life (hbase : Clean base) (h : Left base left rs) (hext : env.extif ≠ "")
    (hint : env.intif ≠ "") (hreset : env.resetIptables ≠ "yes") (life : Life) :
    Left base (life.count left) (life.run env rs) := by
  have hinit : Left base _ (Script.gwInit refusesNone
      { env with setDefaultFirewall := life.setDefaultFirewall } rs).2 :=
    h.gwInit hext hint hreset
  exact (hinit.hostCalls life.calls).cleanUpTimes hbase life.cleanUps

/-- What is left after lives is what the counters tell. -/
theorem left_afterLives (hbase : Clean base) (hext : env.extif ≠ "") (hint : env.intif ≠ "")
    (hreset : env.resetIptables ≠ "yes") (lives : List Life) :
    Left base (countLives lives) (afterLives env lives base) := by
  have hrun : ∀ left rs, Left base left rs →
      Left base (lives.foldl (fun left life => life.count left) left)
        (afterLives env lives rs) := by
    induction lives with
    | nil => exact fun _ _ h => h
    | cons life lives ih => exact fun _ _ h => ih _ _ (h.life hbase hext hint hreset life)
  exact hrun (0, 0) base hbase.nothingLeft

/-- Without jumps the rules are those of before. -/
theorem Left.eq_base (hbase : Clean base) (h : Left base (0, 0) rs) : rs = base := by
  have hgone : ∀ t name, isGateway name = true → rs.rules t name = none := by
    intro t name hown
    by_contra hsome
    rcases h.chains t name hown hsome with hmem | hfw
    · exact hmem.2 rfl
    · exact hfw.2 rfl
  apply Ruleset.ext_rules h.inside.distinct
  · intro t
    rw [← h.inside.names t]
    symm
    apply List.filter_eq_self.mpr
    intro n hn
    cases hown : isGateway n with
    | false => rfl
    | true => exact absurd hn (find_none_iff.mp (hgone t n hown))
  · intro t name
    cases hown : isGateway name with
    | true =>
      rw [hgone t name hown]
      have hnone : base.rules t name = none := by
        apply find_none_iff.mpr
        intro hmem
        exact absurd (hbase.names t name hmem) (by simp [hown])
      exact hnone.symm
    | false =>
      rw [h.others t name hown]
      cases base.rules t name with
      | none => rfl
      | some l => rw [Option.map_some, withHooks_zero]

/-- A jump more is a rule more. -/
theorem Left.eq_zero (h : Left base left base) (hfront : base.rules .mangle "PREROUTING" ≠ none)
    (hinput : base.rules .filter "INPUT" ≠ none) : left = (0, 0) := by
  have hcount : ∀ t name l, isGateway name = false → base.rules t name = some l →
      (withHooks left t name l).length = l.length := by
    intro t name l hown hl
    have hsame := h.others t name hown
    rw [hl, Option.map_some] at hsame
    rw [← Option.some.inj hsame]
  obtain ⟨l, hl⟩ := Option.ne_none_iff_exists'.mp hfront
  obtain ⟨l', hl'⟩ := Option.ne_none_iff_exists'.mp hinput
  have hjumps : (List.replicate left.1 (jumpTo hostsAllowed) ++ l).length = l.length :=
    hcount .mangle "PREROUTING" l (by decide) hl
  have hfirewalls : (l' ++ List.replicate left.2 (jumpTo firewall)).length = l'.length :=
    hcount .filter "INPUT" l' (by decide) hl'
  rw [List.length_append, List.length_replicate] at hjumps hfirewalls
  exact Prod.ext (by omega) (by omega)

/-- With both interfaces set and without a reset: after any lives, with any calls for hosts in them,
the rules are those of before the first one if and only if the counters are zero. Every life puts
one jump in front of each of four chains, and one at the end of `INPUT` if it is asked to, and every
clean-up takes one from each. -/
theorem lives_undone_iff (hbase : Clean base) (hext : env.extif ≠ "") (hint : env.intif ≠ "")
    (hreset : env.resetIptables ≠ "yes") (hfront : base.rules .mangle "PREROUTING" ≠ none)
    (hinput : base.rules .filter "INPUT" ≠ none) (lives : List Life) :
    afterLives env lives base = base ↔ countLives lives = (0, 0) := by
  have hleft := left_afterLives hbase hext hint hreset lives
  constructor
  · intro heq
    rw [heq] at hleft
    exact hleft.eq_zero hfront hinput
  · intro hzero
    rw [hzero] at hleft
    exact hleft.eq_base hbase

/-- One life ends without a clean-up, and the next one with two. -/
theorem lives_undone_iff_systemRules :
    let env : Settings := ⟨"eth0", "wlan0", "", ""⟩
    let lives : List Life := [⟨"yes", [(refusesNone, .add "10.0.0.7" "")], 0⟩, ⟨"", [], 2⟩]
    afterLives env lives systemRules = systemRules ↔ countLives lives = (0, 0) :=
  lives_undone_iff systemRules_clean (by decide) (by decide) (by decide) (by decide) (by decide) _

end WifiGateway.Script
