import WifiGateway.Script.HostSet

/-!
# Which addresses can be told apart

The two functions for hosts work for a pool of addresses, whatever the calls and their
order, if and only if no address of the pool is found in the rule of another
(`correct_iff_apart`).

The addresses that `dnsmasq` leases, `10.1.5.16` to `10.1.5.254`, are not such a pool:
`10.1.5.16` is found in the rule of `10.1.5.160`. An address is taken for another exactly if its
last number, of two digits, is that of the other without its last digit (`finds_leased_iff`).
-/

namespace WifiGateway.Script

/-- No address of the pool is found in the rule of another. -/
def Apart (pool : Ipv4 → Prop) : Prop := ∀ a b, pool a → pool b → finds a b = true → a = b

variable {es : List Entry} {rs : Iptables.Ruleset} {pool : Ipv4 → Prop}

/-- An address of the pool that has no entry is found in none. -/
theorem Apart.clear (h : Apart pool) (hes : ∀ e ∈ es, pool e.ip) {ip : Ipv4} (hip : pool ip) :
    ip ∈ es.map Entry.ip ∨ ∀ e ∈ es, finds ip e.ip = false := by
  by_cases hmem : ip ∈ es.map Entry.ip
  · exact .inl hmem
  · refine .inr fun e he => Bool.eq_false_iff.mpr fun hfinds => ?_
    obtain rfl := h ip e.ip hip (hes e he) hfinds
    exact hmem (List.mem_map_of_mem he)

/-- The entries after a call are of the pool. -/
theorem Call.entries_pool {c : Call} (hes : ∀ e ∈ es, pool e.ip) (hc : pool c.host) :
    ∀ e ∈ c.entries es, pool e.ip := by
  intro e he
  cases c with
  | add ip bw =>
    have hplace : e ∈ FirstMatch.place finds Entry.ip (newEntry ip bw) es := he
    unfold FirstMatch.place at hplace
    split at hplace
    · exact hes e hplace
    · rcases List.mem_append.mp hplace with he | he
      · exact hes e he
      · exact List.mem_singleton.mp he ▸ hc
  | remove ip => exact hes e (List.eraseP_sublist.subset he)

theorem clear_of_apart (h : Apart pool) (hinv : Invariant es rs) (hes : ∀ e ∈ es, pool e.ip)
    {cs : List Call} (hcs : ∀ c ∈ cs, pool c.host) :
    EveryCall (fun c rs => Clear c.host rs) cs rs := by
  induction cs generalizing es rs with
  | nil => trivial
  | cons c cs ih =>
    obtain ⟨hc, hrest⟩ := List.forall_mem_cons.mp hcs
    exact ⟨hinv.toInStep.clear_iff.mpr (h.clear hes hc),
      ih (hinv.run c) (Call.entries_pool hes hc) hrest⟩

/-- From chains without hosts, all calls about a pool do what they are for, in any run of them, if
and only if no address of the pool is found in the rule of another. -/
theorem correct_iff_apart (h : NoHosts rs) (pool : Ipv4 → Prop) :
    (∀ cs : List Call, (∀ c ∈ cs, pool c.host) →
      EveryCall (fun c rs => Correct c rs (c.run rs)) cs rs) ↔ Apart pool := by
  constructor
  · intro hcorrect a b ha hb hfinds
    -- the second is added next to the first
    have hrun := (correct_run_iff h.invariant _).mp (hcorrect [.add b "", .add a ""] (by
      intro c hc
      rcases List.mem_cons.mp hc with rfl | hc
      · exact hb
      · exact List.mem_singleton.mp hc ▸ ha))
    have hadded := (h.invariant.run (.add b "")).toInStep
    have hentries : (Call.add b "").entries [] = [newEntry b ""] := rfl
    rw [hentries] at hadded
    rcases hadded.clear_iff.mp hrun.2.1 with hmem | hnone
    · exact List.mem_singleton.mp hmem
    · exact absurd (hnone _ List.mem_cons_self) (by
        show ¬ finds a b = false
        simp [hfinds])
  · intro hapart cs hcs
    exact (correct_run_iff h.invariant cs).mpr
      (clear_of_apart hapart h.invariant (fun e he => absurd he List.not_mem_nil) hcs)

/-! ## The addresses that are leased -/

/-- `dhcp-range=10.1.5.16,10.1.5.254`. -/
def leased (ip : Ipv4) : Prop := ip.a = 10 ∧ ip.b = 1 ∧ ip.c = 5 ∧ 16 ≤ ip.d.val ∧ ip.d.val ≤ 254

/-- The text of a leased address. -/
theorem chars_leased (d : Fin 256) :
    Ipv4.chars ⟨10, 1, 5, d⟩ = "10.1.5.".toList ++ Ipv4.octet d := by
  have ha : Ipv4.octet 10 = ['1', '0'] := by decide
  have hb : Ipv4.octet 1 = ['1'] := by decide
  have hc : Ipv4.octet 5 = ['5'] := by decide
  unfold Ipv4.chars
  rw [ha, hb, hc]
  rfl

/-- A number of two digits is the start of another number if they are equal, or if it is the other
without its last digit; and one of three digits if they are equal. -/
theorem octet_prefix_iff {x y : Fin 256} (hx : 10 ≤ x.val) :
    Ipv4.octet x <+: Ipv4.octet y ↔ x = y ∨ y.val / 10 = x.val := by
  have hlong : ∀ {n : Nat}, n < 100 → (Nat.toDigits 10 n).length ≤ (Ipv4.octet x).length := by
    intro n hn
    have htwo : (Nat.toDigits 10 n).length ≤ 2 :=
      (Nat.length_toDigits_le_iff (by decide) (by decide)).mpr hn
    have hx2 : ¬ (Nat.toDigits 10 x.val).length ≤ 1 := by
      rw [Nat.length_toDigits_le_iff (by decide) (by decide)]
      omega
    unfold Ipv4.octet
    omega
  by_cases hy : y.val < 100
  · have hsecond : ¬ y.val / 10 = x.val := by omega
    rw [or_iff_left hsecond]
    refine ⟨fun h => Ipv4.octet_injective (h.eq_of_length_le (hlong hy)), ?_⟩
    rintro rfl
    exact List.prefix_refl _
  · have hlast : Ipv4.octet y = Nat.toDigits 10 (y.val / 10) ++ [Nat.digitChar (y.val % 10)] :=
      Nat.toDigits_of_base_le (by decide) (by omega)
    rw [hlast, List.prefix_concat_iff, ← hlast]
    refine or_congr ⟨Ipv4.octet_injective, fun h => congrArg Ipv4.octet h⟩
      ⟨fun h => ?_, fun h => ?_⟩
    · have heq := h.eq_of_length_le (hlong (by omega))
      have hvalue := congrArg (fun ds => Nat.ofDigitChars 10 ds 0) heq
      simpa [Ipv4.octet, Nat.ofDigitChars_ten_toDigits] using hvalue.symm
    · rw [h]
      exact List.prefix_refl _

/-- What is printed after the address in the rule of a host. -/
def afterAddress : List Char := "/32 -j MARK --set-xmark 0x1/0x1".toList

/-- The printed rule of a host. -/
theorem line_eq (b : Ipv4) :
    ("-A " ++ hostsAllowed ++ " " ++ (allowedRule b.text).text).toList =
      "-A gw_hosts_allowed -s ".toList ++ (b.chars ++ afterAddress) := by
  have hmark : (Iptables.Target.mark 1 1).text = "MARK --set-xmark 0x1/0x1" := by decide
  have hpre : "-A ".toList ++ hostsAllowed.toList ++ " ".toList ++ "-s ".toList =
      "-A gw_hosts_allowed -s ".toList := by decide
  rw [allowedRule_text, hmark, ← hpre]
  simp only [String.toList_append, Ipv4.toList_text, List.append_assoc]
  rfl

/-- `10.1` is not found in a number that is followed by the rest of a rule. -/
theorem not_in_number {ds : List Char} (h : ds.length ≤ 3) :
    Grep.search (Grep.basic "10.1".toList) (ds ++ afterAddress) = false := by
  have hafter : Grep.search (Grep.basic "10.1".toList) afterAddress = false := by decide
  have hthree : ∃ rest, afterAddress = '/' :: '3' :: '2' :: rest := ⟨_, rfl⟩
  obtain ⟨rest, hrest⟩ := hthree
  have hone : Grep.basic "10.1".toList =
      [.one (· == '1'), .one (· == '0'), .one fun _ => true, .one (· == '1')] := rfl
  rw [hone, hrest] at hafter ⊢
  match ds, h with
  | [], _ => exact hafter
  | [c], _ => simp [Grep.search, Grep.matchesAt] at hafter ⊢; exact hafter
  | [c, d], _ => simp [Grep.search, Grep.matchesAt] at hafter ⊢; exact hafter
  | [c, d, e], _ => simp [Grep.search, Grep.matchesAt] at hafter ⊢; exact hafter

/-- The search does not start later than the address in the rule does. -/
theorem not_later (x y : Fin 256) :
    Grep.search (Grep.basic ("10.1.5.".toList ++ Ipv4.octet x))
      ("0.1.5.".toList ++ (Ipv4.octet y ++ afterAddress)) = false := by
  have hpattern : Grep.basic ("10.1.5.".toList ++ Ipv4.octet x) =
      Grep.basic "10.1".toList ++ Grep.basic (".5.".toList ++ Ipv4.octet x) := by
    unfold Grep.basic
    rw [← List.map_append]
    rfl
  have hone : Grep.basic "10.1".toList = .one (· == '1') :: Grep.basic "0.1".toList := rfl
  have hnone : Grep.search (Grep.basic "10.1".toList)
      (['0', '.'] ++ '1' :: (['.', '5', '.'] ++ (Ipv4.octet y ++ afterAddress))) = false := by
    rw [hone, Grep.search_skip (by simp), Grep.search, Grep.search_skip (by simp), ← hone,
      not_in_number (Ipv4.octet_length y)]
    rfl
  rw [Bool.eq_false_iff, hpattern]
  intro hfound
  exact absurd (Grep.search_of_append hfound) (Bool.eq_false_iff.mp hnone)

/-- A number is the start of another and the rest of a rule if it is the start of the other. -/
theorem octet_prefix_append {x y : Fin 256} :
    Ipv4.octet x <+: Ipv4.octet y ++ afterAddress ↔ Ipv4.octet x <+: Ipv4.octet y := by
  refine ⟨fun h => ?_, fun h => h.trans (List.prefix_append _ _)⟩
  rcases List.prefix_or_prefix_of_prefix h (List.prefix_append _ afterAddress) with hxy | ⟨t, ht⟩
  · exact hxy
  · -- a longer one would go on with a slash
    rw [← ht, List.prefix_append_right_inj] at h
    cases t with
    | nil => exact ht ▸ (List.append_nil _).symm ▸ List.prefix_refl _
    | cons c t =>
      have hslash : c = '/' := (List.cons_prefix_cons.mp h).1
      have hmem : '/' ∈ Ipv4.octet x := by
        rw [← ht, ← hslash]
        simp
      exact absurd (Ipv4.octet_digits x _ hmem) (by decide)

/-- A leased address is found in the rule of another if its last number is the start of the
other's. -/
theorem finds_leased_octet {a b : Ipv4} (ha : leased a) (hb : leased b) :
    finds a b = true ↔ Ipv4.octet a.d <+: Ipv4.octet b.d := by
  obtain ⟨a₁, a₂, a₃, x⟩ := a
  obtain ⟨b₁, b₂, b₃, y⟩ := b
  obtain ⟨rfl, rfl, rfl, -, -⟩ := ha
  obtain ⟨rfl, rfl, rfl, -, -⟩ := hb
  have hpattern : Grep.basic ("10.1.5.".toList ++ Ipv4.octet x) =
      .one (· == '1') :: (Grep.basic ("0.1.5.".toList ++ Ipv4.octet x)) := rfl
  have hhead : "10.1.5.".toList ++ (Ipv4.octet y ++ afterAddress) =
      '1' :: ("0.1.5.".toList ++ (Ipv4.octet y ++ afterAddress)) := rfl
  unfold finds
  rw [line_eq, chars_leased, chars_leased, hpattern, Grep.search_skip (by simp), ← hpattern,
    List.append_assoc, hhead, Grep.search, not_later, Bool.or_false, ← hhead,
    Grep.matchesAt_basic_append, Grep.basic_eq_literal (Ipv4.octet_dot x),
    Grep.matchesAt_literal_iff, octet_prefix_append]

/-- A leased address is found in the rule of another if and only if they are the same, or its last
number is the other's without the last digit. -/
theorem finds_leased_iff {a b : Ipv4} (ha : leased a) (hb : leased b) :
    finds a b = true ↔ a = b ∨ b.d.val / 10 = a.d.val := by
  have hd : 10 ≤ a.d.val := Nat.le_trans (by decide) ha.2.2.2.1
  rw [finds_leased_octet ha hb, octet_prefix_iff hd]
  refine or_congr_left ⟨fun heq => ?_, fun heq => by rw [heq]⟩
  cases a
  cases b
  obtain ⟨rfl, rfl, rfl, -, -⟩ := ha
  obtain ⟨rfl, rfl, rfl, -, -⟩ := hb
  rw [Ipv4.mk.injEq]
  exact ⟨rfl, rfl, rfl, heq⟩

/-- For any set of leased addresses: every call about them, none of its commands being refused, does
what it is for, in every run of such calls from chains without hosts, if and only if no last number
of one is that of another without its last digit. -/
theorem leases_correct_iff (h : NoHosts rs) (hpool : ∀ ip, pool ip → leased ip) :
    (∀ cs : List Call, (∀ c ∈ cs, pool c.host) →
      EveryCall (fun c rs => Correct c rs (c.run rs)) cs rs) ↔
    ∀ a b, pool a → pool b → b.d.val / 10 ≠ a.d.val := by
  rw [correct_iff_apart h]
  refine forall₂_congr fun a b => forall₂_congr fun ha hb => ?_
  have hlow := (hpool b hb).2.2.2.1
  rw [finds_leased_iff (hpool a ha) (hpool b hb)]
  constructor
  · intro himp hten
    obtain rfl := himp (.inr hten)
    omega
  · exact fun hne hor => hor.resolve_right hne

/-- The addresses from `10.1.5.26` on can be told apart. -/
theorem leases_correct_iff_freshRules :
    (∀ cs : List Call, (∀ c ∈ cs, leased c.host ∧ 26 ≤ c.host.d.val) →
      EveryCall (fun c rs => Correct c rs (c.run rs)) cs freshRules) ↔
    ∀ a b : Ipv4, leased a ∧ 26 ≤ a.d.val → leased b ∧ 26 ≤ b.d.val → b.d.val / 10 ≠ a.d.val :=
  @leases_correct_iff freshRules (fun ip => leased ip ∧ 26 ≤ ip.d.val) freshRules_noHosts
    fun _ hip => hip.1

end WifiGateway.Script
