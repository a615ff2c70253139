import WifiGateway.Script.Arguments
import WifiGateway.Script.Atomicity
import WifiGateway.Script.CleanUp

/-!
# Scripts that the Controller runs

The Controller gives a command line to `RunCommand`, the shell runs a script, and the script issues
`iptables` commands. Any of these may be refused, and the script may be killed after some of them
(`Fate`); what `RunCommand` reports is the exit status, or -1 for a script that was killed
(`runScript`).

A script for a host is *whole* if all of its commands are carried out, or none is and it reports so
(`Fate.Whole`). `Call.ran` says what the three chains are in any case, and when it was whole.
-/

namespace WifiGateway.Script

open Iptables

/-- How a script fares: the `iptables` commands that are refused, and after how many of them it is
killed, if it is. -/
structure Fate where
  refuses : Iptables.Command → Bool
  killed : Option Nat

/-- Nothing goes wrong. -/
def Fate.clear : Fate := ⟨refusesNone, none⟩

/-- What `RunCommand` reports of `gw_clean_up`, and the rules after it. -/
def cleanUpReport (fate : Fate) (rs : Ruleset) : Int × Ruleset :=
  match fate.killed with
  | none => (status (gwCleanUp fate.refuses rs).1, (gwCleanUp fate.refuses rs).2)
  | some n => (-1, (runCommands fate.refuses (cleanUpCommands.take n) rs).2)

theorem cleanUpReport_clear (rs : Ruleset) :
    (cleanUpReport Fate.clear rs).2 = (gwCleanUp refusesNone rs).2 := by
  simp only [cleanUpReport, Fate.clear]

/-- What becomes of a command line that the shell does more with than splitting it. -/
abbrev Special := WifiGateway.Command → Fate → Ruleset → Int × Ruleset

/-- Run the script of a command: what is reported of it, and the rules after it. -/
def runScript (dir : ScriptDir) (special : Special) (c : WifiGateway.Command) (fate : Fate)
    (rs : Ruleset) : Int × Ruleset :=
  match arguments dir c with
  | none => special c fate rs
  | some args =>
    match c with
    | .addHost _ _ _ =>
      (HostCall.add (argument args 1) (argument args 2)).report fate.refuses fate.killed rs
    | .removeHost _ => (HostCall.remove (argument args 1)).report fate.refuses fate.killed rs
    | .cleanUp => cleanUpReport fate rs

/-- The `iptables` commands that the script of a command for a host issues. -/
def scriptCommands (dir : ScriptDir) (c : WifiGateway.Command) (rs : Ruleset) :
    List Iptables.Command := (arguments dir c).elim [] fun args => issued c args rs

/-- The commands that are run are all refused, or none is and the script is not killed. -/
def Fate.Whole (fate : Fate) (cs : List Iptables.Command) : Prop :=
  match fate.killed with
  | none => (∀ c ∈ cs, fate.refuses c = false) ∨ ∀ c ∈ cs, fate.refuses c = true
  | some n => ∀ c ∈ cs.take n, fate.refuses c = true

theorem Fate.whole_nil {fate : Fate} : fate.Whole [] := by
  unfold Fate.Whole
  cases fate.killed with
  | none => exact .inl fun c hc => absurd hc List.not_mem_nil
  | some n => simp

theorem Fate.clear_whole (cs : List Iptables.Command) : Fate.clear.Whole cs := .inl fun _ _ => rfl

variable {dir : ScriptDir} {special : Special} {es : List Entry} {rs : Ruleset} {call : Call}
  {fate : Fate} {ip : Ipv4}

/-! ## Scripts for a host -/

/-- The canonical text of an address is a single address. -/
theorem isDottedQuad_text (ip : Ipv4) : IsDottedQuad ip.text := by
  have hoctet : ∀ n : Fin 256, IsOctet (Ipv4.octet n) := by
    intro n
    refine ⟨Ipv4.octet_pos n, Ipv4.octet_length n, Ipv4.octet_digits n, ?_⟩
    unfold Ipv4.octet
    rw [Nat.ofDigitChars_ten_toDigits]
    omega
  exact ⟨_, _, _, _, hoctet ip.a, hoctet ip.b, hoctet ip.c, hoctet ip.d, Ipv4.toList_text ip⟩

/-- The script gets the host and the numbers. -/
theorem arguments_host {c : WifiGateway.Command} (hc : c.host = some ip.text) :
    arguments dir c = some (ip.text :: numbers c) := by
  have hquad := isDottedQuad_text ip
  rw [arguments_eq hc (isArgument_of_quad hquad).plain, uncomment_quad hquad]

theorem runScript_addHost (bandwidth : UInt32) (quotaRemaining : Int32) :
    runScript dir special (.addHost ip.text bandwidth quotaRemaining) fate rs =
      (Call.add ip (numberUnsigned bandwidth)).args.report fate.refuses fate.killed rs := by
  unfold runScript
  rw [arguments_host rfl]
  rfl

theorem runScript_removeHost :
    runScript dir special (.removeHost ip.text) fate rs =
      (Call.remove ip).args.report fate.refuses fate.killed rs := by
  unfold runScript
  rw [arguments_host rfl]
  rfl

theorem scriptCommands_addHost (h : InStep es rs) (bandwidth : UInt32) (quotaRemaining : Int32) :
    scriptCommands dir (.addHost ip.text bandwidth quotaRemaining) rs =
      (Call.add ip (numberUnsigned bandwidth)).issued es := by
  unfold scriptCommands
  rw [arguments_host rfl]
  exact (Call.add ip (numberUnsigned bandwidth)).issued_eq h

theorem scriptCommands_removeHost (h : InStep es rs) :
    scriptCommands dir (.removeHost ip.text) rs = (Call.remove ip).issued es := by
  unfold scriptCommands
  rw [arguments_host rfl]
  exact (Call.remove ip).issued_eq h

/-! ## Whole or not -/

/-- The commands of a call, none of them refused. -/
theorem Call.runCommands_clear (h : InStep es rs) (call : Call) :
    runCommands refusesNone (call.issued es) rs = (0, call.run rs) := by
  have hrun : call.run rs = (runCommands refusesNone (call.issued es) rs).2 := by
    rw [← congrArg Prod.snd (call.report_ends h refusesNone)]
    cases call with
    | add ip bw => rfl
    | remove ip => rfl
  rw [hrun]
  rcases call.issued_cases es with ⟨hnil, -⟩ | ⟨cmd, f, hissued, ht⟩
  · rw [hnil]
    rfl
  · obtain ⟨rs', hrow, -⟩ := ht.runs h
    have hall : runCommands refusesNone (HostChain.all.map cmd) rs = (0, rs') := hrow
    rw [hissued, hall]

/-- A script that is whole reports 0 and does what it is for, or reports anything else and does
nothing. -/
theorem Call.report_whole (h : InStep es rs) (call : Call)
    (hwhole : fate.Whole (call.issued es)) :
    let r := call.args.report fate.refuses fate.killed rs
    r.1 = 0 ∧ r.2 = call.run rs ∨ r.1 ≠ 0 ∧ r.2 = rs := by
  unfold Fate.Whole at hwhole
  cases hkilled : fate.killed with
  | none =>
    rw [hkilled] at hwhole
    have hclear := call.runCommands_clear h
    rw [call.report_ends h]
    rcases hwhole with hallowed | hrefused
    · rw [runCommands_allowed hallowed, hclear]
      exact .inl ⟨rfl, rfl⟩
    · by_cases hnil : call.issued es = []
      · rw [hnil] at hclear ⊢
        exact .inl ⟨rfl, congrArg Prod.snd hclear⟩
      · rw [runCommands_refused hrefused hnil]
        exact .inr ⟨by simp, rfl⟩
  | some n =>
    rw [hkilled] at hwhole
    dsimp only at hwhole
    rw [HostCall.report, call.issued_eq h]
    refine .inr ⟨by simp, ?_⟩
    by_cases hnil : (call.issued es).take n = []
    · rw [hnil]
      rfl
    · exact congrArg Prod.snd (runCommands_refused hwhole hnil)

/-- A script with which nothing goes wrong reports 0. -/
theorem Call.report_clear (h : InStep es rs) (call : Call) :
    (call.args.report refusesNone none rs).1 = 0 := by
  rw [call.report_ends h, call.runCommands_clear h]
  rfl

/-- What a script makes of each chain: in some it is carried out, and in the others it is not. It
was whole if it is carried out in all of them or in none, as it reports. -/
theorem Call.ran (h : InStep es rs) (call : Call) (fate : Fate) :
    let r := call.args.report fate.refuses fate.killed rs
    call.issued es = [] ∨ ∃ ran : HostChain → Prop,
      (∀ k : HostChain, ran k ∧ r.2.rules k.table k.name = some ((call.entries es).map k.rule) ∨
        ¬ ran k ∧ r.2.rules k.table k.name = some (es.map k.rule)) ∧
      ((∀ k, ran k ↔ r.1 = 0) → fate.Whole (call.issued es)) := by
  rcases call.issued_cases es with ⟨hnil, -⟩ | ⟨cmd, f, hissued, ht⟩
  · exact .inl hnil
  · have hrow := fun ks hks =>
      @Turns.rules_row es (call.entries es) rs fate.refuses cmd f ht ks hks fun k _ => h.rules k
    have hcases : ∀ (ks : List HostChain), ks.Nodup → ∀ k : HostChain,
        (k ∈ ks ∧ fate.refuses (cmd k) = false) ∧
            (runCommands fate.refuses (ks.map cmd) rs).2.rules k.table k.name =
              some ((call.entries es).map k.rule) ∨
          ¬ (k ∈ ks ∧ fate.refuses (cmd k) = false) ∧
            (runCommands fate.refuses (ks.map cmd) rs).2.rules k.table k.name =
              some (es.map k.rule) := by
      intro ks hks k
      rw [hrow ks hks k]
      split
      · next hran => exact .inl ⟨hran, rfl⟩
      · next hnot => exact .inr ⟨hnot, h.rules k⟩
    refine .inr ?_
    unfold Fate.Whole
    cases hkilled : fate.killed with
    | none =>
      rw [call.report_ends h, hissued]
      refine ⟨_, hcases HostChain.all (by decide), fun hsame => ?_⟩
      by_cases h0 : ((runCommands fate.refuses (HostChain.all.map cmd) rs).1 : Int) = 0
      · refine .inl fun c hc => ?_
        obtain ⟨k, -, rfl⟩ := List.mem_map.mp hc
        exact ((hsame k).mpr h0).2
      · refine .inr fun c hc => ?_
        obtain ⟨k, hk, rfl⟩ := List.mem_map.mp hc
        by_contra hr
        exact h0 ((hsame k).mp ⟨hk, Bool.eq_false_iff.mpr hr⟩)
    | some n =>
      rw [HostCall.report, call.issued_eq h, hissued, ← List.map_take]
      have hnodup : (HostChain.all.take n).Nodup :=
        List.Nodup.sublist (List.take_sublist ..) (by decide)
      refine ⟨_, hcases _ hnodup, fun hsame c hc => ?_⟩
      rw [← List.map_take] at hc
      obtain ⟨k, hk, rfl⟩ := List.mem_map.mp hc
      by_contra hr
      exact absurd ((hsame k).mp ⟨hk, Bool.eq_false_iff.mpr hr⟩) (by simp)

end WifiGateway.Script
