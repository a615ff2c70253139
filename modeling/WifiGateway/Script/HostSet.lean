import Mathlib.Data.Set.Insert
import WifiGateway.Script.HostChains

/-!
# Hosts as a set

What `gw_add_host` and `gw_remove_host` are for: a set of hosts, to which one is added
and from which one is removed (`Call.onSet`). A call is `Correct` when it does this
to the rules of its host and nothing to those of another.

It does if and only if the address is `Clear`: it has an entry, or it is found in no
entry (`correct_run_iff`). Otherwise the entry of another host is taken for its own;
an addition does not add it, and a removal removes the other host.
-/

namespace WifiGateway.Script

open Iptables

/-- The set of hosts after a call. -/
def Call.onSet : Call → Set Ipv4 → Set Ipv4
  | .add ip _, hosts => insert ip hosts
  | .remove ip, hosts => hosts \ {ip}

/-- The set of hosts after calls, from none. -/
def hostSet (cs : List Call) : Set Ipv4 := cs.foldl (fun hosts c => c.onSet hosts) ∅

/-- The hosts of the set, and no others, have rules in every chain. -/
def Represents (hosts : Set Ipv4) (rs : Ruleset) : Prop :=
  ∀ k ip, rulesFor ip rs k ≠ [] ↔ ip ∈ hosts

/-- A call did what it is for: its host has rules in every chain, or none in any, and
the rules of every other address are as they were. -/
def Correct (c : Call) (rs rs' : Ruleset) : Prop :=
  ∀ k, (match c with
      | .add ip _ => rulesFor ip rs' k ≠ []
      | .remove ip => rulesFor ip rs' k = []) ∧
    ∀ b, b ≠ c.host → rulesFor b rs' k = rulesFor b rs k

/-- An address has an entry, or it is not found in the entry of any other. -/
def Clear (ip : Ipv4) (rs : Ruleset) : Prop :=
  rulesFor ip rs .allowed ≠ [] ∨ ∀ b, rulesFor b rs .allowed ≠ [] → finds ip b = false

/-- Something holds at every call of a run. -/
def EveryCall (P : Call → Ruleset → Prop) : List Call → Ruleset → Prop
  | [], _ => True
  | c :: cs, rs => P c rs ∧ EveryCall P cs (c.run rs)

variable {es : List Entry} {rs : Ruleset} {hosts : Set Ipv4} {c : Call} {ip : Ipv4}

/-! ## The set -/

theorem Represents.run (h : Represents hosts rs) (hc : Correct c rs (c.run rs)) :
    Represents (c.onSet hosts) (c.run rs) := by
  intro k ip
  obtain ⟨hown, hother⟩ := hc k
  by_cases hip : ip = c.host
  · subst hip
    cases c with
    | add ip bw => exact iff_of_true hown (Set.mem_insert ip hosts)
    | remove ip => exact iff_of_false (fun hne => hne hown) (fun hmem => hmem.2 rfl)
  · rw [hother ip hip, h k ip]
    cases c with
    | add ip' bw => exact (Set.mem_insert_iff.trans (or_iff_right hip)).symm
    | remove ip' => exact (and_iff_left hip).symm

/-- A run whose calls are all correct implements the set. -/
theorem Represents.runCalls {cs : List Call} (h : Represents hosts rs)
    (hcs : EveryCall (fun c rs => Correct c rs (c.run rs)) cs rs) :
    Represents (cs.foldl (fun hosts c => c.onSet hosts) hosts) (runCalls cs rs) := by
  induction cs generalizing hosts rs with
  | nil => exact h
  | cons c cs ih => exact ih (h.run hcs.1) hcs.2

theorem NoHosts.represents (h : NoHosts rs) : Represents ∅ rs := by
  intro k ip
  rw [InStep.rulesFor_ne_nil h]
  simp

/-! ## One call -/

theorem InStep.clear_iff (h : InStep es rs) :
    Clear ip rs ↔ ip ∈ es.map Entry.ip ∨ ∀ e ∈ es, finds ip e.ip = false := by
  unfold Clear
  rw [h.rulesFor_ne_nil]
  refine or_congr Iff.rfl ⟨fun hb e he => hb e.ip ?_, fun he b hb => ?_⟩
  · exact (h.rulesFor_ne_nil e.ip .allowed).mpr (List.mem_map_of_mem he)
  · obtain ⟨e, hmem, rfl⟩ := List.mem_map.mp ((h.rulesFor_ne_nil b .allowed).mp hb)
    exact he e hmem

theorem rulesFor_congr {es' : List Entry} {rs' : Ruleset} (h : InStep es rs) (h' : InStep es' rs')
    (hes : (es'.filter fun e => e.ip = ip) = es.filter fun e => e.ip = ip) (k : HostChain) :
    rulesFor ip rs' k = rulesFor ip rs k := by
  rw [h'.rulesFor_eq, h.rulesFor_eq, hes]

theorem correct_of_clear (h : Invariant es rs) (hclear : Clear c.host rs) :
    Correct c rs (c.run rs) := by
  have h' := h.run c
  rw [h.toInStep.clear_iff] at hclear
  cases c with
  | add ip bw =>
    refine fun k => ⟨?_, fun b hb => rulesFor_congr h.toInStep h'.toInStep ?_ k⟩
    · have hmem : (newEntry ip bw).ip ∈ (placeEntry ip bw es).map Entry.ip :=
        FirstMatch.mem_place hclear
      exact (h'.toInStep.rulesFor_ne_nil ip k).mpr hmem
    · have hne : (newEntry ip bw).ip ≠ b := hb.symm
      exact FirstMatch.filter_place (decide_eq_false hne)
  | remove ip =>
    refine fun k => ⟨?_, fun b hb => rulesFor_congr h.toInStep h'.toInStep ?_ k⟩
    · by_contra hne
      exact FirstMatch.not_mem_remove finds_self h.ordered
        ((h'.toInStep.rulesFor_ne_nil ip k).mp hne)
    · refine FirstMatch.filter_remove finds_self h.ordered hclear (fun e he => ?_)
      exact decide_eq_false (by rw [he]; exact hb.symm)

theorem clear_of_correct (h : Invariant es rs) (hc : Correct c rs (c.run rs)) :
    Clear c.host rs := by
  have h' := h.run c
  rw [h.toInStep.clear_iff]
  by_contra hclear
  obtain ⟨habsent, hfound⟩ := not_or.mp hclear
  obtain ⟨e, he, hf⟩ : ∃ e ∈ es, finds c.host e.ip = true := by
    simpa using hfound
  obtain ⟨hown, hother⟩ := hc .allowed
  cases c with
  | add ip bw =>
    -- the entry of another is taken for its own
    have hsame : (Call.add ip bw).entries es = es :=
      FirstMatch.place_of_found ⟨e, he, hf⟩
    rw [hsame] at h'
    exact habsent ((h'.toInStep.rulesFor_ne_nil ip .allowed).mp hown)
  | remove ip =>
    -- the entry of another is removed
    obtain ⟨before, e, after, hes, _, hrem⟩ :=
      FirstMatch.remove_of_found ⟨e, he, hf⟩
    have hmem : e.ip ∈ es.map Entry.ip := by rw [hes]; simp
    have hne : e.ip ≠ ip := fun heq => habsent (by rw [← heq]; exact hmem)
    have hrules := (h.toInStep.rulesFor_ne_nil e.ip .allowed).mpr hmem
    rw [← hother e.ip hne, h'.toInStep.rulesFor_ne_nil] at hrules
    have hnodup := h.ordered.nodup finds_self
    rw [hes, List.map_append, List.map_cons] at hnodup
    have hgone := (List.nodup_middle.mp hnodup).notMem
    rw [← List.map_append, ← hrem] at hgone
    exact hgone hrules

/-! ## Runs -/

/-- A run does at every call what it is for if and only if at every call the address is
clear. -/
theorem correct_run_iff (h : Invariant es rs) (cs : List Call) :
    EveryCall (fun c rs => Correct c rs (c.run rs)) cs rs ↔
      EveryCall (fun c rs => Clear c.host rs) cs rs := by
  induction cs generalizing es rs with
  | nil => exact Iff.rfl
  | cons c cs ih =>
    exact and_congr ⟨clear_of_correct h, correct_of_clear h⟩ (ih (h.run c))

/-- The two functions implement a set of hosts in exactly the runs in which the address
of every call is clear. -/
theorem implements_set (h : NoHosts rs) (cs : List Call) :
    (EveryCall (fun c rs => Correct c rs (c.run rs)) cs rs ↔
        EveryCall (fun c rs => Clear c.host rs) cs rs) ∧
      (EveryCall (fun c rs => Clear c.host rs) cs rs →
        Represents (hostSet cs) (runCalls cs rs)) := by
  have hiff := correct_run_iff h.invariant cs
  exact ⟨hiff, fun hclear => h.represents.runCalls (hiff.mpr hclear)⟩

theorem implements_set_freshRules :
    let cs : List Call := [.add ⟨10, 0, 0, 10⟩ "", .remove ⟨10, 0, 0, 10⟩]
    (EveryCall (fun c rs => Correct c rs (c.run rs)) cs freshRules ↔
        EveryCall (fun c rs => Clear c.host rs) cs freshRules) ∧
      (EveryCall (fun c rs => Clear c.host rs) cs freshRules →
        Represents (hostSet cs) (runCalls cs freshRules)) :=
  implements_set freshRules_noHosts _

/-- `10.0.0.1` is found in the entry of `10.0.0.10`, and is not added. -/
theorem host_not_added :
    ¬ ∀ (rs : Ruleset) (cs : List Call), NoHosts rs →
      EveryCall (fun c rs => Correct c rs (c.run rs)) cs rs := by
  intro h
  have hrun := h freshRules [.add ⟨10, 0, 0, 10⟩ "", .add ⟨10, 0, 0, 1⟩ ""] freshRules_noHosts
  exact (hrun.2.1 .allowed).1 (by decide)

end WifiGateway.Script
