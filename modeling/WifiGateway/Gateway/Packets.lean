import WifiGateway.Gateway.Deployed

/-!
# What becomes of a client's packets

From the state of a session to the packets of its client, through the Controller, its
commands, the scripts and the rules (`packets`).
-/

namespace WifiGateway

open Script
open Waiting (Config Move)
open Waiting.Machine (Related)

variable {D : Deployment} {fw : Firewall} {rs : Iptables.Ruleset} {env : Iptables.Env}

/-! ## The system's own rules -/

/-- `gw_init` puts one rule in front of the system's own. -/
theorem Deployment.front (D : Deployment) :
    ∃ l, D.base.rules .mangle "PREROUTING" = some l ∧
      D.initRules.rules .mangle "PREROUTING" = some (Iptables.jumpTo hostsAllowed :: l) := by
  obtain ⟨l', hinit⟩ := D.enforces.prerouting
  have hnot : ∀ l, D.base.rules .mangle "PREROUTING" = some l →
      Iptables.jumpTo hostsAllowed ∉ l := fun l hl =>
    Iptables.Untouched.jumpTo_notMem D.clean (by decide) hl
  rcases D.covers.others .mangle "PREROUTING" (by decide) with hsame | ⟨m, l, -, hl, hends⟩
  · exact absurd List.mem_cons_self (hnot _ (hsame.symm.trans hinit))
  · refine ⟨l, hl, ?_⟩
    rcases hends with hhead | hlast
    · have hcons := Option.some.inj (hinit.symm.trans hhead)
      rw [hinit, (List.cons.inj hcons).2]
    · -- at the end is also in front, if there is no other rule
      have hcons := Option.some.inj (hinit.symm.trans hlast)
      cases l with
      | nil => rw [hinit, hcons, (List.cons.inj hcons).1]; rfl
      | cons r l =>
        rw [List.cons_append] at hcons
        exact absurd ((List.cons.inj hcons).1 ▸ List.mem_cons_self) (hnot _ hl)

/-! ## A client's packets -/

/-- A source has an entry if and only if its host is allowed. -/
theorem Refined.hasEntry_iff (h : Refined D fw rs)
    (hcovers : ∀ a src : Ipv4, env.covers a.text src = decide (a = src)) (src : Ipv4) :
    HasEntry env rs src ↔ (fw src.text).isSome = true := by
  obtain ⟨es, hes, hcarries⟩ := h.entries
  have hrules : rs.rules .mangle hostsAllowed = some (es.map HostChain.allowed.rule) :=
    hes.rules .allowed
  have hsource : ∀ e : Entry, (HostChain.allowed.rule e).source = some e.ip.text := fun e =>
    HostChain.allowed.source_rule e
  rw [Option.isSome_iff_ne_none, hcarries.allowed_iff]
  unfold HasEntry ruleOf
  rw [hrules]
  simp [hsource, hcovers]

end WifiGateway
