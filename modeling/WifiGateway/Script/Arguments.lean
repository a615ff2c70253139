import Mathlib.Data.List.TakeWhile
import WifiGateway.Controller.Session
import WifiGateway.Script.Setup
import WifiGateway.Text.Words

/-!
# From the Controller to the scripts

The Controller writes a command line for `bash`: the path of a script, the text it was
given as an address, and for `gw_add_host` two numbers. The shell splits it at blanks, the
script passes its arguments on unquoted, and the function looks at the first of them: it
must start like an address. What the Controller was given is an address in exactly the
cases in which the argument is; everything else that starts like one goes through
(`only_its_host_iff`).
-/

namespace WifiGateway.Script

/-- The directory of the scripts, which is told when the program is built. -/
structure ScriptDir where
  path : String
  plain : Shell.plain path = true
  noBlank : path.toList.any Shell.isBlank = false
  noComment : Shell.isComment path = false

/-- `QString::number`, of a `quint32`. -/
def numberUnsigned (n : UInt32) : String := n.toNat.repr

/-- `QString::number`, of a `qint32`. -/
def numberSigned (n : Int32) : String := n.toInt.repr

/-- The command line that the Controller writes for a command. -/
def commandLine (dir : ScriptDir) : WifiGateway.Command → String
  | .addHost IP bandwidth quotaRemaining =>
    dir.path ++ "/wifigateway-script/gw_add_host.sh" ++ " " ++ IP ++ " " ++
      numberUnsigned bandwidth ++ " " ++ numberSigned quotaRemaining
  | .removeHost IP => dir.path ++ "/wifigateway-script/gw_remove_host.sh" ++ " " ++ IP
  | .cleanUp => dir.path ++ "/wifigateway-script/gw_clean_up.sh"

/-- The arguments of the function that the script of a command calls. -/
def arguments (dir : ScriptDir) (c : WifiGateway.Command) : Option (List String) :=
  (Shell.split (commandLine dir c)).map fun ws => Shell.unquoted ws.tail

/-- An argument by its number, empty if it is not given. -/
def argument (args : List String) (n : Nat) : String := args.getD (n - 1) ""

/-- The `iptables` commands that `gw_add_host` or `gw_remove_host` issues for a command of the
Controller. -/
def issued (c : WifiGateway.Command) (args : List String) (rs : Iptables.Ruleset) :
    List Iptables.Command :=
  match c with
  | .addHost _ _ _ => (HostCall.add (argument args 1) (argument args 2)).commands rs
  | .removeHost _ => (HostCall.remove (argument args 1)).commands rs
  | .cleanUp => []

/-- A decimal number up to 255 of one to three digits. -/
structure IsOctet (ds : List Char) : Prop where
  pos : 1 ≤ ds.length
  length : ds.length ≤ 3
  digits : ∀ c ∈ ds, c.isDigit = true
  value : Nat.ofDigitChars 10 ds 0 ≤ 255

/-- Four such numbers with dots between them, and nothing else. -/
def IsDottedQuad (s : String) : Prop :=
  ∃ a b c d, IsOctet a ∧ IsOctet b ∧ IsOctet c ∧ IsOctet d ∧
    s.toList = a ++ '.' :: (b ++ '.' :: (c ++ '.' :: d))

/-- If a command about a host gets as far as `iptables`, then the host is a single address, the
function's first argument is the host, and the second and third are what the Controller
gave. -/
def OnlyItsHost (dir : ScriptDir) (c : WifiGateway.Command) (IP : String)
    (rs : Iptables.Ruleset) : Prop :=
  ∀ args, arguments dir c = some args → issued c args rs ≠ [] →
    IsDottedQuad IP ∧ argument args 1 = IP ∧
      ∀ bandwidth quotaRemaining, c = .addHost IP bandwidth quotaRemaining →
        argument args 2 = numberUnsigned bandwidth ∧ argument args 3 = numberSigned quotaRemaining

/-- The first word of what the Controller was given, unless it starts a comment. -/
def firstWord (IP : String) : Option String := (Shell.uncomment (Shell.words IP)).head?

/-- The first word starts like an address, and is found among the entries if it is to be
removed, or not found if it is to be added. -/
def Passes (c : WifiGateway.Command) (IP : String) (rs : Iptables.Ruleset) : Prop :=
  ∃ w ∈ firstWord IP, Ipv4.looksLikeAddress w = true ∧
    match c with
    | .addHost _ _ _ => gwGetHostEntry w rs = none
    | .removeHost _ => gwGetHostEntryNum w rs ≠ none
    | .cleanUp => False

variable {dir : ScriptDir} {c : WifiGateway.Command} {IP s : String} {rs : Iptables.Ruleset}

/-! ## Words that are safe -/

theorem plain_append_blank {s t : String} (hs : Shell.plain s = true)
    (ht : Shell.plain t = true) : Shell.plain (s ++ " " ++ t) = true := by
  rw [Shell.plain_append, Shell.plain_append, hs, ht]
  decide

/-- A word that the shell leaves as it is. -/
structure IsArgument (s : String) : Prop extends Shell.IsWord s where
  plain : Shell.plain s = true
  noComment : Shell.isComment s = false

/-- Text of digits, dots and minus signs. -/
theorem isArgument_of_digits (hne : s ≠ "")
    (h : ∀ c ∈ s.toList, c.isDigit = true ∨ c = '.' ∨ c = '-') : IsArgument s := by
  have hspecial : ∀ c : Char, (c.isDigit = true ∨ c = '.' ∨ c = '-') →
      Shell.isSpecial c = false := by
    intro c hc
    rw [Bool.eq_false_iff]
    intro hmem
    have hall : ("\x27\x22\\|&;()<>\n$\x60*?[\x7b~".toList.all
        fun c => !(c.isDigit || c == '.' || c == '-')) = true := by decide
    have hnot := List.all_eq_true.mp hall c (List.contains_iff_mem.mp hmem)
    rcases hc with hc | rfl | rfl
    · simp [hc] at hnot
    · exact absurd hnot (by decide)
    · exact absurd hnot (by decide)
  have hblank : ∀ c : Char, (c.isDigit = true ∨ c = '.' ∨ c = '-') → ¬ Shell.isBlank c = true := by
    intro c hc hblank
    have hc' : c = ' ' ∨ c = '\t' := by simpa [Shell.isBlank] using hblank
    rcases hc' with rfl | rfl
    · exact absurd hc (by decide)
    · exact absurd hc (by decide)
  refine ⟨⟨hne, ?_⟩, ?_, ?_⟩
  · rw [List.any_eq_false]
    exact fun c hc => hblank c (h c hc)
  · unfold Shell.plain
    rw [List.all_eq_true]
    intro c hc
    rw [hspecial c (h c hc)]
    rfl
  · rw [Bool.eq_false_iff]
    intro hcomment
    have hmem : '#' ∈ s.toList := List.mem_of_head? (beq_iff_eq.mp hcomment)
    exact absurd (h _ hmem) (by decide)

theorem repr_digits (n : Nat) : ∀ c ∈ n.repr.toList, c.isDigit = true := by
  intro c hc
  rw [Nat.toList_repr] at hc
  exact Nat.isDigit_of_mem_toDigits (by decide) (by decide) hc

theorem numberUnsigned_chars (n : UInt32) :
    ∀ c ∈ (numberUnsigned n).toList, c.isDigit = true ∨ c = '-' :=
  fun c hc => .inl (repr_digits n.toNat c hc)

theorem numberSigned_chars (n : Int32) :
    ∀ c ∈ (numberSigned n).toList, c.isDigit = true ∨ c = '-' := by
  intro c hc
  unfold numberSigned at hc
  cases hn : n.toInt with
  | ofNat m =>
    rw [hn] at hc
    exact .inl (repr_digits m c hc)
  | negSucc m =>
    rw [hn] at hc
    have hminus : (Int.negSucc m).repr = "-" ++ (m + 1).repr := rfl
    rw [hminus, String.toList_append] at hc
    rcases List.mem_append.mp hc with hc | hc
    · exact .inr (by simpa using hc)
    · exact .inl (repr_digits _ c hc)

/-- The text of a number. -/
theorem isArgument_number (hne : s ≠ "") (h : ∀ c ∈ s.toList, c.isDigit = true ∨ c = '-') :
    IsArgument s ∧ Ipv4.looksLikeAddress s = false := by
  constructor
  · exact isArgument_of_digits hne fun c hc => (h c hc).imp id .inr
  · rw [Bool.eq_false_iff]
    intro hlooks
    exact absurd (h _ (Ipv4.dot_of_looksLikeAddress hlooks)) (by decide)

/-- The numbers that follow the host on the command line. -/
def numbers : WifiGateway.Command → List String
  | .addHost _ bandwidth quotaRemaining =>
    [numberUnsigned bandwidth, numberSigned quotaRemaining]
  | .removeHost _ | .cleanUp => []

theorem numbers_plain (c : WifiGateway.Command) :
    ∀ n ∈ numbers c, IsArgument n ∧ Ipv4.looksLikeAddress n = false := by
  intro n hn
  cases c with
  | addHost IP bandwidth quotaRemaining =>
    simp only [numbers, List.mem_cons, List.not_mem_nil, or_false] at hn
    rcases hn with rfl | rfl
    · exact isArgument_number Nat.repr_ne_empty (numberUnsigned_chars bandwidth)
    · apply isArgument_number _ (numberSigned_chars quotaRemaining)
      unfold numberSigned
      cases quotaRemaining.toInt with
      | ofNat m => exact Nat.repr_ne_empty
      | negSucc m =>
        intro hempty
        have hminus : (Int.negSucc m).repr = "-" ++ (m + 1).repr := rfl
        rw [hminus] at hempty
        simpa using congrArg String.toList hempty
  | removeHost | cleanUp => exact absurd hn List.not_mem_nil

theorem quad_chars (h : IsDottedQuad s) : ∀ c ∈ s.toList, c.isDigit = true ∨ c = '.' := by
  obtain ⟨a, b, c, d, ha, hb, hc, hd, hs⟩ := h
  intro ch hch
  rw [hs] at hch
  simp only [List.mem_append, List.mem_cons] at hch
  rcases hch with hch | hch | hch | hch | hch | hch | hch
  · exact .inl (ha.digits ch hch)
  · exact .inr hch
  · exact .inl (hb.digits ch hch)
  · exact .inr hch
  · exact .inl (hc.digits ch hch)
  · exact .inr hch
  · exact .inl (hd.digits ch hch)

theorem isArgument_of_quad (h : IsDottedQuad s) : IsArgument s := by
  apply isArgument_of_digits
  · rintro rfl
    obtain ⟨_, _, _, _, _, _, _, _, hs⟩ := h
    simp at hs
  · exact fun c hc => (quad_chars h c hc).imp id .inl

/-! ## The arguments of the function -/

/-- A script's path and arguments that are words by themselves around the host. -/
theorem split_line {script : String} (hscript : IsArgument script) (hIP : Shell.plain IP = true)
    {ns : List String} (hns : ∀ n ∈ ns, IsArgument n) :
    Shell.split (ns.foldl (fun line n => line ++ " " ++ n) (script ++ " " ++ IP)) =
      some (script :: Shell.uncomment (Shell.words IP ++ ns)) := by
  have hwords : ∀ (ns : List String) (line : String), (∀ n ∈ ns, IsArgument n) →
      Shell.words (ns.foldl (fun line n => line ++ " " ++ n) line) = Shell.words line ++ ns := by
    intro ns
    induction ns with
    | nil => exact fun line _ => (List.append_nil _).symm
    | cons n ns ih =>
      intro line h
      obtain ⟨hn, hrest⟩ := List.forall_mem_cons.mp h
      rw [List.foldl_cons, ih _ hrest, Shell.words_append, Shell.words_of_isWord hn.toIsWord,
        List.append_assoc, List.singleton_append]
  have hplain : ∀ (ns : List String) (line : String), (∀ n ∈ ns, IsArgument n) →
      Shell.plain line = true →
      Shell.plain (ns.foldl (fun line n => line ++ " " ++ n) line) = true := by
    intro ns
    induction ns with
    | nil => exact fun line _ hline => hline
    | cons n ns ih =>
      intro line h hline
      obtain ⟨hn, hrest⟩ := List.forall_mem_cons.mp h
      exact ih _ hrest (plain_append_blank hline hn.plain)
  unfold Shell.split
  rw [if_pos (hplain ns _ hns (plain_append_blank hscript.plain hIP)), hwords ns _ hns,
    Shell.words_append, Shell.words_of_isWord hscript.toIsWord]
  unfold Shell.uncomment
  rw [List.append_assoc, List.singleton_append, List.takeWhile_cons_of_pos]
  rw [hscript.noComment]
  rfl

/-- The path of a script, given its name. -/
theorem isArgument_script (dir : ScriptDir) {name : String} (hplain : Shell.plain name = true)
    (hblank : name.toList.any Shell.isBlank = false) (hname : name.toList.head? = some '/') :
    IsArgument (dir.path ++ name) := by
  refine ⟨⟨?_, ?_⟩, ?_, ?_⟩
  · intro hempty
    have hnil : dir.path.toList ++ name.toList = [] := by
      rw [← String.toList_append, hempty]
      rfl
    rw [(List.append_eq_nil_iff.mp hnil).2] at hname
    exact absurd hname (by simp)
  · rw [String.toList_append, List.any_append, dir.noBlank, hblank]
    rfl
  · rw [Shell.plain_append, dir.plain, hplain]
    rfl
  · have hstart := dir.noComment
    unfold Shell.isComment at hstart ⊢
    rw [String.toList_append, List.head?_append]
    cases hhead : dir.path.toList.head? with
    | none =>
      rw [hname]
      rfl
    | some c => rwa [hhead] at hstart

/-- The command line about a host: a script, the host and the numbers. -/
theorem commandLine_eq (hhost : c.host = some IP) :
    ∃ script, IsArgument script ∧ commandLine dir c =
      (numbers c).foldl (fun line n => line ++ " " ++ n) (script ++ " " ++ IP) := by
  cases c with
  | addHost IP' bandwidth quotaRemaining =>
    obtain rfl : IP' = IP := Option.some.inj hhost
    refine ⟨dir.path ++ "/wifigateway-script/gw_add_host.sh",
      isArgument_script dir (by decide) (by decide) (by decide), ?_⟩
    simp only [commandLine, numbers, List.foldl_cons, List.foldl_nil]
  | removeHost IP' =>
    obtain rfl : IP' = IP := Option.some.inj hhost
    refine ⟨dir.path ++ "/wifigateway-script/gw_remove_host.sh",
      isArgument_script dir (by decide) (by decide) (by decide), ?_⟩
    simp only [commandLine, numbers, List.foldl_nil]
  | cleanUp => exact absurd hhost (by simp [WifiGateway.Command.host])

/-- The function gets the words of the host and the numbers, up to a comment. -/
theorem arguments_eq (hhost : c.host = some IP)
    (hIP : Shell.plain IP = true) :
    arguments dir c = some (Shell.uncomment (Shell.words IP ++ numbers c)) := by
  obtain ⟨script, hscript, hline⟩ := commandLine_eq hhost
  unfold arguments
  rw [hline, split_line hscript hIP fun n hn => (numbers_plain c n hn).1, Option.map_some,
    List.tail_cons, Shell.unquoted_of_isWord]
  -- what is left is words
  intro w hw
  rcases List.mem_append.mp (List.takeWhile_subset _ hw) with hw | hw
  · exact Shell.isWord_of_mem hw
  · exact (numbers_plain c w hw).1.toIsWord

/-- The function's first argument is the first word of the host, or nothing that starts like
an address. -/
theorem first_argument :
    (∀ w, firstWord IP = some w →
        argument (Shell.uncomment (Shell.words IP ++ numbers c)) 1 = w) ∧
      (firstWord IP = none →
        Ipv4.looksLikeAddress (argument (Shell.uncomment (Shell.words IP ++ numbers c)) 1) =
          false) := by
  have hempty : Ipv4.looksLikeAddress "" = false := by decide
  unfold firstWord argument Shell.uncomment
  cases hwords : Shell.words IP with
  | nil =>
    refine ⟨fun w hw => absurd hw (by simp), fun _ => ?_⟩
    rw [List.nil_append]
    cases hns : numbers c with
    | nil => exact hempty
    | cons n ns =>
      obtain ⟨harg, hlooks⟩ := numbers_plain c n (by rw [hns]; exact List.mem_cons_self)
      rw [List.takeWhile_cons_of_pos (by simp [harg.noComment])]
      exact hlooks
  | cons w ws =>
    rw [List.cons_append]
    by_cases hcomment : Shell.isComment w = true
    · rw [List.takeWhile_cons_of_neg (by simp [hcomment]),
        List.takeWhile_cons_of_neg (by simp [hcomment])]
      exact ⟨fun w hw => absurd hw (by simp), fun _ => hempty⟩
    · rw [List.takeWhile_cons_of_pos (by simp [hcomment]),
        List.takeWhile_cons_of_pos (by simp [hcomment])]
      exact ⟨fun w hw => Option.some.inj hw, fun hnone => absurd hnone (by simp)⟩

/-- A function gets as far as `iptables` with an argument that starts like an address and that
it has something to do for. -/
theorem issued_iff {args : List String} :
    issued c args rs ≠ [] ↔
      Ipv4.looksLikeAddress (argument args 1) = true ∧
        match c with
        | .addHost _ _ _ => gwGetHostEntry (argument args 1) rs = none
        | .removeHost _ => gwGetHostEntryNum (argument args 1) rs ≠ none
        | .cleanUp => False := by
  have hne : Ipv4.looksLikeAddress (argument args 1) = true → argument args 1 ≠ "" := by
    intro hlooks hempty
    rw [hempty] at hlooks
    exact absurd hlooks (by decide)
  cases c with
  | addHost IP bandwidth quotaRemaining =>
    rw [issued, HostCall.commands]
    by_cases hlooks : Ipv4.looksLikeAddress (argument args 1) = true
    · simp [hlooks, hne hlooks, addCommands]
    · simp [hlooks]
  | removeHost IP =>
    rw [issued, HostCall.commands]
    by_cases hlooks : Ipv4.looksLikeAddress (argument args 1) = true
    · cases hnum : gwGetHostEntryNum (argument args 1) rs with
      | none => simp [hlooks, hne hlooks]
      | some index => simp [hlooks, hne hlooks, removeCommands]
    · simp [hlooks]
  | cleanUp => simp [issued]

theorem issued_iff_passes :
    issued c (Shell.uncomment (Shell.words IP ++ numbers c)) rs ≠ [] ↔ Passes c IP rs := by
  obtain ⟨hsome, hnone⟩ := @first_argument c IP
  rw [issued_iff]
  unfold Passes
  cases hfirst : firstWord IP with
  | none =>
    rw [hnone hfirst]
    simp
  | some w =>
    rw [hsome w hfirst]
    simp

/-- A single address is the function's first argument, and the numbers follow. -/
theorem uncomment_quad (h : IsDottedQuad IP) :
    Shell.uncomment (Shell.words IP ++ numbers c) = IP :: numbers c := by
  have harg := isArgument_of_quad h
  rw [Shell.words_of_isWord harg.toIsWord]
  unfold Shell.uncomment
  rw [List.singleton_append, List.takeWhile_eq_self_iff]
  intro w hw
  rcases List.mem_cons.mp hw with rfl | hw
  · rw [harg.noComment]
    rfl
  · rw [(numbers_plain c w hw).1.noComment]
    rfl

/-- For a text that the shell does nothing to but splitting it: only its own host reaches the
firewall, as given, if and only if the text is a single address or its first word does not
pass. -/
theorem only_its_host_iff (dir : ScriptDir) (hhost : c.host = some IP)
    (hIP : Shell.plain IP = true) (rs : Iptables.Ruleset) :
    OnlyItsHost dir c IP rs ↔ IsDottedQuad IP ∨ ¬ Passes c IP rs := by
  unfold OnlyItsHost
  rw [arguments_eq hhost hIP]
  constructor
  · intro h
    by_cases hpasses : Passes c IP rs
    · exact .inl (h _ rfl (issued_iff_passes.mpr hpasses)).1
    · exact .inr hpasses
  · intro h args hargs hissued
    obtain rfl := Option.some.inj hargs
    have hquad : IsDottedQuad IP := h.resolve_right (fun hno => hno (issued_iff_passes.mp hissued))
    rw [uncomment_quad hquad]
    refine ⟨hquad, rfl, ?_⟩
    rintro bandwidth quotaRemaining rfl
    exact ⟨rfl, rfl⟩

/-- Scripts where they are installed. -/
def installed : ScriptDir := ⟨"/usr/bin/", by decide, by decide, by decide⟩

theorem only_its_host_iff_installed :
    OnlyItsHost installed (.addHost "10.0.0.7" 1000 (-1)) "10.0.0.7" freshRules ↔
      IsDottedQuad "10.0.0.7" ∨ ¬ Passes (.addHost "10.0.0.7" 1000 (-1)) "10.0.0.7" freshRules :=
  only_its_host_iff installed rfl (by decide) freshRules

/-- An address with a mask goes through: everybody in the network is allowed. -/
theorem network_added :
    ¬ ∀ (dir : ScriptDir) (c : WifiGateway.Command) (IP : String) (rs : Iptables.Ruleset),
      c.host = some IP → Shell.plain IP = true → OnlyItsHost dir c IP rs := by
  intro h
  have hhost : (WifiGateway.Command.addHost "10.0.0.0/8" 1000 (-1)).host = some "10.0.0.0/8" := rfl
  have hplain : Shell.plain "10.0.0.0/8" = true := by decide
  have honly := h installed _ _ freshRules hhost hplain _ (arguments_eq hhost hplain)
    (by decide +kernel)
  exact absurd (quad_chars honly.1 '/' (by decide)) (by decide)

end WifiGateway.Script
