import WifiGateway.Script.Setup

/-!
# Commands that fail, and scripts that are killed

A call of `gw_add_host` or `gw_remove_host` issues one `iptables` command for each of the three
chains, or none. Whether a command fails is not looked at: the script goes on, and the exit status
is that of the last command. If the timer of `RunCommand` runs out, the script is killed after some
of its commands, and -1 is reported.

A command that fails leaves its chain with another number of rules than one that does not, so a
call that is carried out in part leaves the chains out of step (`Turns.inStep_iff`).
`all_or_nothing_iff` says for which calls all three chains go together, and with them what is
reported.
-/

namespace WifiGateway.Script

open Iptables

variable {es es' : List Entry} {rs : Ruleset} {refuses : Command → Bool} {killed : Option Nat}
  {cmd : HostChain → Command} {f : HostChain → List Rule → List Rule} {call : Call}

/-! ## What is reported of a call -/

/-- What the function ends with, and the rules after it. -/
def HostCall.exit (refuses : Command → Bool) : HostCall → Ruleset → Exit × Ruleset
  | .add ip bw, rs => gwAddHost refuses ip bw rs
  | .remove ip, rs => gwRemoveHost refuses ip rs

/-- What `RunCommand` reports of the script, and the rules after it. A script that is killed has
run the first of its commands, as many as `killed` says. -/
def HostCall.report (refuses : Command → Bool) (killed : Option Nat) (call : HostCall)
    (rs : Ruleset) : Int × Ruleset :=
  match killed with
  | none => (status (call.exit refuses rs).1, (call.exit refuses rs).2)
  | some n => (-1, (runCommands refuses ((call.commands rs).take n) rs).2)

/-- The arguments that the script gets. -/
def Call.args : Call → HostCall
  | .add ip bw => .add ip.text bw
  | .remove ip => .remove ip.text

/-- The chains are as the call is to make them. -/
def Call.Done (rs : Ruleset) : Call → Prop
  | .add ip _ => ∀ k, rulesFor ip rs k ≠ []
  | .remove ip => ∀ k, rulesFor ip rs k = []

/-- What is expected of a call: it is carried out, or reported and without effect. -/
structure AllOrNothing (call : Call) (rs : Ruleset) (r : Int × Ruleset) : Prop where
  done : r.1 = 0 → call.Done r.2
  unchanged : r.1 ≠ 0 → ∀ k : HostChain, r.2.rules k.table k.name = rs.rules k.table k.name
  inStep : ∃ es, InStep es r.2

/-! ## What it depends on -/

/-- The commands that a call issues when these are the entries. -/
def Call.issued (es : List Entry) : Call → List Command
  | .add ip bw =>
    if es.any fun e => finds ip e.ip then [] else addCommands ip.text (newEntry ip bw).bw
  | .remove ip =>
    match es.findIdx? fun e => finds ip e.ip with
    | none => []
    | some i => removeCommands (i + 1)

/-- An address is added only if it is there or not taken for another one, and is removed only if no
entry of it is there but the first one that is taken for it. -/
def Call.Exact (es : List Entry) : Call → Prop
  | .add ip _ => (∃ e ∈ es, finds ip e.ip = true) → ip ∈ es.map Entry.ip
  | .remove ip => ∀ i e, es[i]? = some e → e.ip = ip →
      (es.findIdx? fun e => finds ip e.ip) = some i

/-- The commands that are run are all refused, or none is and the script is not killed. -/
def Call.Whole (es : List Entry) (refuses : Command → Bool) (killed : Option Nat)
    (call : Call) : Prop :=
  match killed with
  | none =>
    (call.issued es ≠ [] ∧ ∀ c ∈ call.issued es, refuses c = true) ∨
      (∀ c ∈ call.issued es, refuses c = false) ∧ call.Exact es
  | some n => ∀ c ∈ (call.issued es).take n, refuses c = true

/-! ## A row of commands, one for each chain -/

/-- The chains in the order of the commands. -/
def HostChain.all : List HostChain := [.allowed, .bandwidth, .quota]

theorem HostChain.mem_all (k : HostChain) : k ∈ HostChain.all := by
  cases k <;> decide

theorem run_refused {c : Command} (h : refuses c = true) : run refuses rs c = (1, rs) := if_pos h

theorem run_allowed {c : Command} (h : refuses c = false) :
    run refuses rs c = run refusesNone rs c := by
  rw [Iptables.run, if_neg (Bool.eq_false_iff.mp h)]
  rfl

theorem runCommands_refused {cs : List Command} (h : ∀ c ∈ cs, refuses c = true) (hne : cs ≠ []) :
    runCommands refuses cs rs = (1, rs) := by
  have hfold : ∀ n, (cs.foldl (fun r c => Iptables.run refuses r.2 c) (n, rs)) =
      (if cs = [] then n else 1, rs) := by
    clear hne
    induction cs with
    | nil => exact fun _ => rfl
    | cons c cs ih =>
      obtain ⟨hc, hrest⟩ := List.forall_mem_cons.mp h
      intro n
      rw [List.foldl_cons, run_refused hc, ih hrest]
      split
      · rfl
      · rfl
  have hall := hfold 0
  rw [if_neg hne] at hall
  exact hall

theorem runCommands_allowed {cs : List Command} (h : ∀ c ∈ cs, refuses c = false) :
    runCommands refuses cs rs = runCommands refusesNone cs rs := by
  apply List.foldl_ext
  intro r c hc
  exact run_allowed (h c hc)

/-- What a row makes of each chain. -/
theorem Turns.rules_row (ht : Turns cmd f es es') {ks : List HostChain} (hks : ks.Nodup)
    (h : ∀ k ∈ ks, rs.rules k.table k.name = some (es.map k.rule)) (k : HostChain) :
    (runCommands refuses (ks.map cmd) rs).2.rules k.table k.name =
      if k ∈ ks ∧ refuses (cmd k) = false then some (es'.map k.rule)
      else rs.rules k.table k.name := by
  induction ks generalizing rs with
  | nil => simp [runCommands_snd]
  | cons k' ks ih =>
    obtain ⟨hk', hrest⟩ := List.forall_mem_cons.mp h
    obtain ⟨hnot, hnodup⟩ := List.nodup_cons.mp hks
    rw [List.map_cons, runCommands_cons]
    cases hr : refuses (cmd k') with
    | true =>
      rw [run_refused hr, ih hnodup hrest]
      by_cases hk : k = k'
      · subst hk
        simp [hnot, hr]
      · simp [hk]
    | false =>
      have hedit := ht.run k' rs hk'
      have hothers : ∀ k ∈ ks, (rs.edit k'.table k'.name (f k')).rules k.table k.name =
          some (es.map k.rule) := by
        intro k hk
        have hne : k ≠ k' := fun e => hnot (e ▸ hk)
        rw [rules_edit, if_neg hne]
        exact hrest k hk
      rw [run_allowed hr, hedit, ih hnodup hothers, rules_edit]
      by_cases hk : k = k'
      · subst hk
        simp [hnot, hr, hk', ht.rules]
      · simp [hk]

/-- The chains are as they were just if all commands were refused. -/
theorem Turns.unchanged_iff (ht : Turns cmd f es es') (h : InStep es rs) {ks : List HostChain}
    (hks : ks.Nodup) :
    (∀ k : HostChain, (runCommands refuses (ks.map cmd) rs).2.rules k.table k.name =
        rs.rules k.table k.name) ↔
      ∀ c ∈ ks.map cmd, refuses c = true := by
  have hrow := @Turns.rules_row es es' rs refuses cmd f ht ks hks fun k _ => h.rules k
  constructor
  · intro hsame c hc
    obtain ⟨k, hk, rfl⟩ := List.mem_map.mp hc
    by_contra hr
    have hlists := (hrow k).symm.trans (hsame k)
    rw [if_pos ⟨hk, Bool.eq_false_iff.mpr hr⟩, h.rules] at hlists
    have hlen := congrArg List.length (Option.some.inj hlists)
    rw [List.length_map, List.length_map] at hlen
    exact ht.length hlen
  · intro hrefused k
    rw [hrow, if_neg]
    rintro ⟨hk, hr⟩
    rw [hrefused (cmd k) (List.mem_map_of_mem hk)] at hr
    exact absurd hr (by simp)

/-- The chains are in step just if all commands were refused or none was. -/
theorem Turns.inStep_iff (ht : Turns cmd f es es') (h : InStep es rs) :
    (∃ es'', InStep es'' (runCommands refuses (HostChain.all.map cmd) rs).2) ↔
      (∀ c ∈ HostChain.all.map cmd, refuses c = true) ∨
        ∀ c ∈ HostChain.all.map cmd, refuses c = false := by
  have hrow := @Turns.rules_row es es' rs refuses cmd f ht HostChain.all (by decide)
    fun k _ => h.rules k
  constructor
  · rintro ⟨es'', hes''⟩
    -- the number of rules in a chain says whether its command was refused
    have hlen : ∀ k, refuses (cmd k) = true ↔ es''.length = es.length := by
      intro k
      have hk := (hes''.rules k).symm.trans (hrow k)
      cases hr : refuses (cmd k) with
      | true =>
        rw [if_neg (by simp [hr]), h.rules] at hk
        have hlists := congrArg List.length (Option.some.inj hk)
        rw [List.length_map, List.length_map] at hlists
        exact iff_of_true rfl hlists
      | false =>
        rw [if_pos ⟨k.mem_all, hr⟩] at hk
        have hlists := congrArg List.length (Option.some.inj hk)
        rw [List.length_map, List.length_map] at hlists
        exact iff_of_false (by simp) (hlists ▸ ht.length)
    by_cases hsame : es''.length = es.length
    · refine .inl fun c hc => ?_
      obtain ⟨k, -, rfl⟩ := List.mem_map.mp hc
      exact (hlen k).mpr hsame
    · refine .inr fun c hc => ?_
      obtain ⟨k, -, rfl⟩ := List.mem_map.mp hc
      exact Bool.eq_false_iff.mpr fun hr => hsame ((hlen k).mp hr)
  · rintro (hrefused | hallowed)
    · rw [runCommands_refused hrefused (by simp [HostChain.all])]
      exact ⟨es, h⟩
    · obtain ⟨rs', hrun, hrs'⟩ := ht.runs h
      rw [runCommands_allowed hallowed]
      exact ⟨es', (congrArg Prod.snd hrun) ▸ hrs'⟩

/-! ## The calls -/

theorem Call.issued_eq (h : InStep es rs) (call : Call) :
    call.args.commands rs = call.issued es := by
  cases call with
  | add ip bw =>
    have hnum : gwGetHostEntry ip.text rs = _ := h.entryNum ip
    have hnone : gwGetHostEntry ip.text rs = none ↔ (es.any fun e => finds ip e.ip) = false := by
      rw [hnum, Option.map_eq_none_iff, List.findIdx?_eq_none_iff, List.any_eq_false]
      simp
    rw [Call.args, HostCall.commands, Call.issued, newEntry]
    cases hany : es.any fun e => finds ip e.ip with
    | true => simp [hnone, hany]
    | false => simp [hnone, hany, ip.text_ne_empty, Ipv4.looksLikeAddress_text]
  | remove ip =>
    rw [Call.args, HostCall.commands, Call.issued,
      if_pos ⟨ip.text_ne_empty, Ipv4.looksLikeAddress_text ip⟩, h.entryNum]
    cases es.findIdx? fun e => finds ip e.ip with
    | none => rfl
    | some i => rfl

/-- The exit status of the script is that of the last of its commands. -/
theorem Call.report_ends (h : InStep es rs) (refuses : Command → Bool) (call : Call) :
    call.args.report refuses none rs =
      (((runCommands refuses (call.issued es) rs).1 : Int),
        (runCommands refuses (call.issued es) rs).2) := by
  cases call with
  | add ip bw =>
    have hnum : gwGetHostEntry ip.text rs = _ := h.entryNum ip
    rw [HostCall.report, Call.args, HostCall.exit, gwAddHost, Call.issued, newEntry]
    simp only [if_neg ip.text_ne_empty, Ipv4.looksLikeAddress_text, hnum]
    cases hi : es.findIdx? fun e => finds ip e.ip with
    | none =>
      have hany : (es.any fun e => finds ip e.ip) = false := by
        rw [List.any_eq_false]
        simpa using List.findIdx?_eq_none_iff.mp hi
      simp [hany, status]
    | some i =>
      obtain ⟨hlt, hf, -⟩ := List.findIdx?_eq_some_iff_getElem.mp hi
      have hany : (es.any fun e => finds ip e.ip) = true :=
        List.any_eq_true.mpr ⟨es[i], List.getElem_mem hlt, hf⟩
      simp [hany, status, runCommands]
  | remove ip =>
    rw [HostCall.report, Call.args, HostCall.exit, gwRemoveHost, Call.issued]
    simp only [if_neg ip.text_ne_empty, Ipv4.looksLikeAddress_text, h.entryNum]
    cases es.findIdx? fun e => finds ip e.ip with
    | none => simp [status, runCommands]
    | some i => simp [status]

/-- A call issues no command and is done with, or one for each chain. -/
theorem Call.issued_cases (es : List Entry) (call : Call) :
    (call.issued es = [] ∧ call.entries es = es) ∨
      ∃ cmd f, call.issued es = HostChain.all.map cmd ∧ Turns cmd f es (call.entries es) := by
  cases call with
  | add ip bw =>
    rw [Call.issued, Call.entries]
    split
    · next hany =>
      exact .inl ⟨rfl, FirstMatch.place_of_found (List.any_eq_true.mp hany)⟩
    · next hnone =>
      have hplace : placeEntry ip bw es = es ++ [newEntry ip bw] := if_neg hnone
      rw [hplace]
      exact .inr ⟨_, _, rfl, turns_append es (newEntry ip bw)⟩
  | remove ip =>
    rw [Call.issued, Call.entries]
    cases hi : es.findIdx? fun e => finds ip e.ip with
    | none =>
      exact .inl ⟨rfl, FirstMatch.remove_of_not_found (List.findIdx?_eq_none_iff.mp hi)⟩
    | some i =>
      obtain ⟨hlt, -, -⟩ := List.findIdx?_eq_some_iff_getElem.mp hi
      rw [removeEntry_eq hi]
      exact .inr ⟨_, _, rfl, turns_erase hlt⟩

/-- Removing the first entry that is found leaves no entry of the address just if there is no other
one. -/
theorem notMem_removeEntry_iff {ip : Ipv4} :
    ip ∉ (removeEntry ip es).map Entry.ip ↔ (Call.remove ip).Exact es := by
  unfold Call.Exact
  cases hi : es.findIdx? fun e => finds ip e.ip with
  | none =>
    -- an entry of the address would be found
    have hfree : ∀ e ∈ es, e.ip ≠ ip := by
      rintro e he rfl
      exact absurd (finds_self e.ip) (Bool.eq_false_iff.mp (List.findIdx?_eq_none_iff.mp hi e he))
    have hkept : removeEntry ip es = es :=
      FirstMatch.remove_of_not_found (List.findIdx?_eq_none_iff.mp hi)
    rw [hkept]
    refine iff_of_true (fun hin => ?_) fun i e he hip => ?_
    · obtain ⟨e, he, hip⟩ := List.mem_map.mp hin
      exact hfree e he hip
    · exact absurd hip (hfree e (List.mem_of_getElem? he))
  | some j =>
    rw [removeEntry_eq hi]
    constructor
    · intro hnot i e he hip
      by_contra hne
      refine hnot (List.mem_map.mpr ⟨e, List.mem_eraseIdx_iff_getElem?.mpr ⟨i, ?_, he⟩, hip⟩)
      rintro rfl
      exact hne hi
    · intro honly hin
      obtain ⟨e, he, hip⟩ := List.mem_map.mp hin
      obtain ⟨i, hne, he⟩ := List.mem_eraseIdx_iff_getElem?.mp he
      exact hne (Option.some.inj (hi.symm.trans (honly i e he hip))).symm

/-- What a call does when nothing goes wrong is what it is to do. -/
theorem Call.done_iff (h : InStep (call.entries es) rs) : call.Done rs ↔ call.Exact es := by
  cases call with
  | add ip bw =>
    have hmem : ip ∈ (placeEntry ip bw es).map Entry.ip ↔
        ((∃ e ∈ es, finds ip e.ip = true) → ip ∈ es.map Entry.ip) := by
      unfold placeEntry FirstMatch.place
      split
      · next hany =>
        have hfound : ∃ e ∈ es, finds ip e.ip = true := List.any_eq_true.mp hany
        exact ⟨fun hin _ => hin, fun himp => himp hfound⟩
      · next hnone =>
        refine iff_of_true (by simp [newEntry]) fun hany => absurd ?_ hnone
        exact List.any_eq_true.mpr hany
    rw [Call.Exact, ← hmem]
    constructor
    · intro hall
      exact (h.rulesFor_ne_nil ip .allowed).mp (hall .allowed)
    · intro hin k
      exact (h.rulesFor_ne_nil ip k).mpr hin
  | remove ip =>
    rw [← notMem_removeEntry_iff]
    constructor
    · intro hall hin
      exact (h.rulesFor_ne_nil ip .allowed).mpr hin (hall .allowed)
    · intro hnot k
      by_contra hne
      exact hnot ((h.rulesFor_ne_nil ip k).mp hne)

/-- A script that is killed has an effect unless all that it ran was refused. -/
theorem killed_iff (h : InStep es rs) (refuses : Command → Bool) (n : Nat) (call : Call) :
    AllOrNothing call rs (call.args.report refuses (some n) rs) ↔
      ∀ c ∈ (call.issued es).take n, refuses c = true := by
  have hreport : call.args.report refuses (some n) rs =
      (-1, (runCommands refuses ((call.issued es).take n) rs).2) := by
    rw [HostCall.report, call.issued_eq h]
  have hrow : (∀ k : HostChain, (runCommands refuses ((call.issued es).take n) rs).2.rules
        k.table k.name = rs.rules k.table k.name) ↔
      ∀ c ∈ (call.issued es).take n, refuses c = true := by
    rcases call.issued_cases es with ⟨hissued, -⟩ | ⟨cmd, f, hissued, ht⟩
    · rw [hissued, List.take_nil]
      exact iff_of_true (fun _ => rfl) fun c hc => absurd hc List.not_mem_nil
    · rw [hissued, ← List.map_take]
      exact ht.unchanged_iff h (List.Nodup.sublist (List.take_sublist ..) (by decide))
  rw [hreport, ← hrow]
  constructor
  · intro hall
    exact hall.unchanged (by simp)
  · intro hsame
    refine ⟨fun h0 => absurd h0 (by simp), fun _ => hsame, ?_⟩
    have hrefused := hrow.mp hsame
    by_cases hnil : (call.issued es).take n = []
    · rw [hnil]
      exact ⟨es, h⟩
    · rw [runCommands_refused hrefused hnil]
      exact ⟨es, h⟩

/-- A script that ends has run all of its commands. -/
theorem ends_iff (h : InStep es rs) (refuses : Command → Bool) (call : Call) :
    AllOrNothing call rs (call.args.report refuses none rs) ↔
      (call.issued es ≠ [] ∧ ∀ c ∈ call.issued es, refuses c = true) ∨
        (∀ c ∈ call.issued es, refuses c = false) ∧ call.Exact es := by
  rw [call.report_ends h]
  rcases call.issued_cases es with ⟨hissued, hentries⟩ | ⟨cmd, f, hissued, ht⟩
  · -- there is nothing to do
    have hdone : call.Done rs ↔ call.Exact es := Call.done_iff (hentries.symm ▸ h)
    rw [hissued, ← hdone]
    constructor
    · intro hall
      exact .inr ⟨fun c hc => absurd hc List.not_mem_nil, hall.done rfl⟩
    · rintro (⟨hne, -⟩ | ⟨-, hexact⟩)
      · exact absurd rfl hne
      · exact ⟨fun _ => hexact, fun hne => absurd rfl hne, es, h⟩
  · obtain ⟨rs', hrun, hrs'⟩ := ht.runs h
    have hall : runCommands refusesNone (HostChain.all.map cmd) rs = (0, rs') := hrun
    have hne : HostChain.all.map cmd ≠ [] := by simp [HostChain.all]
    rw [hissued]
    constructor
    · intro hwhole
      rcases (ht.inStep_iff h).mp hwhole.inStep with hrefused | hallowed
      · exact .inl ⟨hne, hrefused⟩
      · have hdone := hwhole.done
        rw [runCommands_allowed hallowed, hall] at hdone
        exact .inr ⟨hallowed, (Call.done_iff hrs').mp (hdone rfl)⟩
    · rintro (⟨-, hrefused⟩ | ⟨hallowed, hexact⟩)
      · rw [runCommands_refused hrefused hne]
        exact ⟨fun h0 => absurd h0 (by simp), fun _ _ => rfl, es, h⟩
      · rw [runCommands_allowed hallowed, hall]
        exact ⟨fun _ => (Call.done_iff hrs').mpr hexact, fun hne => absurd rfl hne, _, hrs'⟩

/-- A call is carried out in all three chains, or reported and without effect, if and only if the
commands that are run are all refused, or none is, the script is not killed and the address is
exact. -/
theorem all_or_nothing_iff (h : InStep es rs) (refuses : Command → Bool) (killed : Option Nat)
    (call : Call) :
    AllOrNothing call rs (call.args.report refuses killed rs) ↔ call.Whole es refuses killed := by
  cases killed with
  | none => exact ends_iff h refuses call
  | some n => exact killed_iff h refuses n call

/-- The second of two hosts is removed, and one of the commands is refused. -/
theorem all_or_nothing_twoHosts :
    let first := Call.add ⟨10, 0, 0, 7⟩ "100"
    let second := Call.add ⟨10, 0, 0, 8⟩ ""
    let rs := second.run (first.run freshRules)
    let es := second.entries (first.entries [])
    let refuses : Command → Bool := fun c => c == .deleteNum .filter hostsBandwidth 2
    AllOrNothing (.remove ⟨10, 0, 0, 8⟩) rs
        ((Call.remove ⟨10, 0, 0, 8⟩).args.report refuses none rs) ↔
      (Call.remove ⟨10, 0, 0, 8⟩).Whole es refuses none :=
  all_or_nothing_iff ((freshRules_noHosts.run _).run _) _ none _

/-- `--limit 0` is not accepted. -/
def refusesLimit0 : Command → Bool
  | .append _ _ rule => rule.tests.any fun
    | .limit rate _ => rate == "0"
    | _ => false
  | _ => false

/-- The bandwidth is 0: the exit status is 0, and one of the chains does not have the host. -/
theorem added_in_part :
    ¬ AllOrNothing (.add ⟨10, 0, 0, 7⟩ "0") freshRules
      ((Call.add ⟨10, 0, 0, 7⟩ "0").args.report refusesLimit0 none freshRules) := by
  intro hall
  have hreport :
      ((Call.add ⟨10, 0, 0, 7⟩ "0").args.report refusesLimit0 none freshRules).1 = 0 := by
    decide +kernel
  have hdone := hall.done hreport .bandwidth
  revert hdone
  decide +kernel

end WifiGateway.Script
