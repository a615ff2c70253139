import WifiGateway.Text.Ipv4

/-!
# Tables, chains and rules

What `iptables` keeps, and the commands a script changes it with. A table is the
list of its chains; a chain has a name and a list of rules. A command that cannot
be carried out (the chain is not there, or is there already; no rule has the number or
is equal to the one to delete; a rule jumps to no chain; a chain to delete has rules or
is jumped to) changes nothing, and neither does one that is refused for any other reason
(an argument out of range, the tables being locked); a script goes on after it
(`runCommands`).

`save` prints a table the way `iptables-save` does, `-A chain rule` in the order of
the rules; `filter_save` says what is left of it when a script keeps the lines of
chains by the start of their names.
-/

namespace Iptables

/-- A table. -/
inductive Table
  | raw
  | mangle
  | nat
  | filter
  deriving DecidableEq, Repr

/-- A protocol. -/
inductive Protocol
  | tcp
  | udp
  | icmp
  /-- Any other, by its number. -/
  | other (number : UInt8)
  deriving DecidableEq, Repr

/-- How a packet stands to the connections that are tracked. -/
inductive CtState
  | new
  | related
  | established
  | invalid
  | untracked
  deriving DecidableEq, Repr

/-- A test of a rule. -/
inductive Match
  /-- `-s addr`. -/
  | source (addr : String)
  /-- `-m limit --limit rate --limit-burst burst`. -/
  | limit (rate : String) (burst : Nat)
  /-- `-m statistic --mode nth --every every --packet packet`. -/
  | nth (every packet : Nat)
  /-- `-p protocol`. -/
  | protocol (p : Protocol)
  /-- `-m protocol --dport port`. -/
  | dport (p : Protocol) (port : Nat)
  /-- `-m multiport --dports ports`. -/
  | dports (ports : List Nat)
  /-- `-m mark --mark value/mask`, and with `!`. -/
  | mark (negated : Bool) (value mask : UInt32)
  /-- `-i interface`. -/
  | inInterface (name : String)
  /-- `-o interface`. -/
  | outInterface (name : String)
  /-- `-m state --state states`, in the order in which states are printed. -/
  | state (states : List CtState)
  /-- `-m comment --comment text`. -/
  | comment (text : String)
  /-- Any other, as it is printed. -/
  | other (text : String)
  deriving DecidableEq, Repr

/-- What a rule does with a packet. -/
inductive Target
  /-- `-j MARK --set-mark value/mask`. -/
  | mark (value mask : Nat)
  /-- `-j LOG --log-prefix text --log-level level`. -/
  | log (text : String) (level : Nat)
  /-- `-j chain`. -/
  | jump (chain : String)
  | accept
  | drop
  | redirect
  | masquerade
  /-- No `-j`. -/
  | none
  /-- Any other, as it is printed. -/
  | other (text : String)
  deriving DecidableEq, Repr

/-- A rule: a packet that passes the tests goes to the target. -/
structure Rule where
  tests : List Match
  target : Target
  deriving DecidableEq, Repr

/-- A chain. -/
structure Chain where
  name : String
  rules : List Rule
  deriving DecidableEq, Repr

/-- `-j chain`. -/
def jumpTo (chain : String) : Rule := ⟨[], .jump chain⟩

/-- The chains of each table. -/
abbrev Ruleset := Table → List Chain

/-- The address that a rule tests the source of a packet for. -/
def Rule.source (r : Rule) : Option String :=
  r.tests.findSome? fun
    | .source addr => some addr
    | _ => none

/-- The rules of the chain of this name. -/
def find (name : String) : List Chain → Option (List Rule)
  | [] => none
  | ch :: rest => if ch.name = name then some ch.rules else find name rest

/-- The chains with the rules of one of them changed. -/
def edit (name : String) (f : List Rule → List Rule) : List Chain → List Chain
  | [] => []
  | ch :: rest =>
    if ch.name = name then { ch with rules := f ch.rules } :: rest else ch :: edit name f rest

/-- The rules of a chain of a table. -/
def Ruleset.rules (rs : Ruleset) (t : Table) (name : String) : Option (List Rule) :=
  find name (rs t)

/-- The ruleset with the rules of one chain changed. -/
def Ruleset.edit (rs : Ruleset) (t : Table) (name : String) (f : List Rule → List Rule) :
    Ruleset :=
  fun t' => if t' = t then Iptables.edit name f (rs t) else rs t'

/-! ## Commands -/

/-- A command. -/
inductive Command
  /-- `-t table -A chain rule`. -/
  | append (t : Table) (chain : String) (rule : Rule)
  /-- `-t table -D chain n`. -/
  | deleteNum (t : Table) (chain : String) (n : Nat)
  /-- `-t table -N chain`. -/
  | newChain (t : Table) (chain : String)
  /-- `-t table -I chain rule`. -/
  | insert (t : Table) (chain : String) (rule : Rule)
  /-- `-t table -D chain rule`. -/
  | delete (t : Table) (chain : String) (rule : Rule)
  /-- `-t table -F chain`. -/
  | flush (t : Table) (chain : String)
  /-- `-t table -X chain`. -/
  | deleteChain (t : Table) (chain : String)
  /-- `-t table -F`. -/
  | flushAll (t : Table)
  /-- `-t table -X`. -/
  | deleteChains (t : Table)
  /-- `-P chain target`, in the filter table. -/
  | policy (chain : String) (target : Target)
  /-- `-Z`. -/
  | zero
  deriving DecidableEq, Repr

/-- The chains that the system has in a table. -/
def builtin : Table → List String
  | .raw => ["PREROUTING", "OUTPUT"]
  | .mangle => ["PREROUTING", "INPUT", "FORWARD", "OUTPUT", "POSTROUTING"]
  | .nat => ["PREROUTING", "INPUT", "OUTPUT", "POSTROUTING"]
  | .filter => ["INPUT", "FORWARD", "OUTPUT"]

/-- The chain that a rule jumps to is there. -/
def Ruleset.hasTarget (rs : Ruleset) (t : Table) (rule : Rule) : Bool :=
  match rule.target with
  | .jump chain => (rs.rules t chain).isSome
  | _ => true

/-- Some rule of the table jumps to the chain. -/
def Ruleset.referenced (rs : Ruleset) (t : Table) (name : String) : Bool :=
  (rs t).any fun ch => ch.rules.any fun r => r.target == .jump name

/-- A chain that can be deleted: one that is not of the system, empty, and not referenced. -/
def Ruleset.deletable (rs : Ruleset) (t : Table) (name : String) : Bool :=
  !(builtin t).contains name && (rs.rules t name == some []) && !rs.referenced t name

/-- The ruleset with the chains of one table changed. -/
def Ruleset.withTable (rs : Ruleset) (t : Table) (chains : List Chain) : Ruleset :=
  fun t' => if t' = t then chains else rs t'

/-- What a command makes of the rules, if it can be carried out. Policies and counters are
not among them. -/
def Command.exec (rs : Ruleset) : Command → Option Ruleset
  | .append t chain rule =>
    match rs.rules t chain with
    | none => none
    | some _ =>
      if rs.hasTarget t rule = true then some (rs.edit t chain (· ++ [rule])) else none
  | .deleteNum t chain n =>
    match rs.rules t chain with
    | none => none
    | some l => if 1 ≤ n ∧ n ≤ l.length then some (rs.edit t chain (·.eraseIdx (n - 1))) else none
  | .newChain t chain =>
    match rs.rules t chain with
    | some _ => none
    | none => some (rs.withTable t (rs t ++ [⟨chain, []⟩]))
  | .insert t chain rule =>
    match rs.rules t chain with
    | none => none
    | some _ =>
      if rs.hasTarget t rule = true then some (rs.edit t chain (rule :: ·)) else none
  | .delete t chain rule =>
    match rs.rules t chain with
    | none => none
    | some l => if rule ∈ l then some (rs.edit t chain (·.erase rule)) else none
  | .flush t chain =>
    match rs.rules t chain with
    | none => none
    | some _ => some (rs.edit t chain fun _ => [])
  | .deleteChain t chain =>
    if rs.deletable t chain = true then
      some (rs.withTable t ((rs t).filter fun ch => ch.name ≠ chain))
    else none
  | .flushAll t => some (rs.withTable t ((rs t).map fun ch => { ch with rules := [] }))
  | .deleteChains t =>
    let user := (rs t).filter fun ch => !(builtin t).contains ch.name
    if user.all fun ch => rs.deletable t ch.name then
      some (rs.withTable t ((rs t).filter fun ch => (builtin t).contains ch.name))
    else none
  | .policy chain _ => if (rs.rules .filter chain).isSome then some rs else none
  | .zero => some rs

/-- Run a command: the exit status and the rules after it. -/
def run (refuses : Command → Bool) (rs : Ruleset) (c : Command) : Nat × Ruleset :=
  if refuses c then (1, rs)
  else
    match c.exec rs with
    | some rs' => (0, rs')
    | none => (1, rs)

/-- Run commands one after the other, whatever becomes of them: the exit status of the
last one and the rules at the end. -/
def runCommands (refuses : Command → Bool) (cs : List Command) (rs : Ruleset) : Nat × Ruleset :=
  cs.foldl (fun r c => run refuses r.2 c) (0, rs)

/-- No command is refused. -/
def refusesNone : Command → Bool := fun _ => false

/-! ## Printing -/

/-- A number in hexadecimal. -/
def hex (n : Nat) : String := "0x" ++ String.ofList (Nat.toDigits 16 n)

def Protocol.text : Protocol → String
  | .tcp => "tcp"
  | .udp => "udp"
  | .icmp => "icmp"
  | .other number => number.toNat.repr

def CtState.text : CtState → String
  | .new => "NEW"
  | .related => "RELATED"
  | .established => "ESTABLISHED"
  | .invalid => "INVALID"
  | .untracked => "UNTRACKED"

/-- The addresses of `-s addr` as they are printed: the first one of the network and its mask, and
nothing if the mask is empty. What is neither an address nor a network in canonical form is printed
as it is. -/
def sourceText (addr : String) : String :=
  match addr.toList.splitOn '/' with
  | [x] =>
    match Ipv4.read x with
    | some ip => ip.text ++ "/32"
    | none => addr
  | [x, m] =>
    match Ipv4.read x, Ipv4.readMask m with
    | some ip, some mask =>
      if mask = Ipv4.mask 0 then "" else (ip.masked mask).text ++ "/" ++ mask.maskText
    | _, _ => addr
  | _ => addr

/-- A test as it is printed: an address with its mask, a rate with its unit, a mark with its
mask unless that is full. -/
def Match.text : Match → String
  | .source addr => if sourceText addr = "" then "" else "-s " ++ sourceText addr
  | .limit rate burst => "-m limit --limit " ++ rate ++ "/sec --limit-burst " ++ burst.repr
  | .nth every packet =>
    "-m statistic --mode nth --every " ++ every.repr ++ " --packet " ++ packet.repr
  | .protocol p => "-p " ++ p.text
  | .dport p port => "-m " ++ p.text ++ " --dport " ++ port.repr
  | .dports ports => "-m multiport --dports " ++ ",".intercalate (ports.map Nat.repr)
  | .mark negated value mask =>
    "-m mark " ++ (if negated then "! " else "") ++ "--mark " ++ hex value.toNat ++
      if mask = 0xffffffff then "" else "/" ++ hex mask.toNat
  | .inInterface name => "-i " ++ name
  | .outInterface name => "-o " ++ name
  | .state states => "-m state --state " ++ ",".intercalate (states.map CtState.text)
  | .comment text => "-m comment --comment \"" ++ text ++ "\""
  | .other text => text

/-- A target as it is printed. -/
def Target.text : Target → String
  | .mark value mask => "MARK --set-xmark " ++ hex value ++ "/" ++ hex (value ||| mask)
  | .log text level =>
    "LOG" ++ (if text = "" then "" else " --log-prefix \"" ++ text ++ "\"") ++
      if level = 4 then "" else " --log-level " ++ level.repr
  | .jump chain => chain
  | .accept => "ACCEPT"
  | .drop => "DROP"
  | .redirect => "REDIRECT"
  | .masquerade => "MASQUERADE"
  | .none => ""
  | .other text => text

/-- The part of a printed rule that says where it goes. -/
def Target.option : Target → String
  | .none => ""
  | target => "-j " ++ target.text

/-- A rule as it is printed. -/
def Rule.text (r : Rule) : String :=
  r.tests.foldr (fun m rest => if m.text = "" then rest else m.text ++ " " ++ rest) r.target.option

/-- The lines of a chain. -/
def Chain.lines (ch : Chain) : List String :=
  ch.rules.map fun r => "-A " ++ ch.name ++ " " ++ r.text

/-- The rules of a table as `iptables-save` prints them. -/
def save (rs : Ruleset) (t : Table) : List String := (rs t).flatMap Chain.lines

/-! ## Reading and changing chains -/

variable {rs : Ruleset} {t t' : Table} {name name' : String} {f : List Rule → List Rule}
  {l : List Rule} {chains : List Chain}

theorem find_edit_same : find name (edit name f chains) = (find name chains).map f := by
  induction chains with
  | nil => rfl
  | cons ch rest ih =>
    by_cases hch : ch.name = name
    · simp [find, edit, hch]
    · simp [find, edit, hch, ih]

theorem find_edit_ne (h : name' ≠ name) : find name' (edit name f chains) = find name' chains := by
  induction chains with
  | nil => rfl
  | cons ch rest ih =>
    by_cases hch : ch.name = name
    · simp [find, edit, hch, h.symm]
    · simp [find, edit, hch, ih]

@[simp] theorem rules_edit_same :
    (rs.edit t name f).rules t name = (rs.rules t name).map f := by
  unfold Ruleset.rules Ruleset.edit
  rw [if_pos rfl]
  exact find_edit_same

theorem rules_edit_ne (h : name' ≠ name) :
    (rs.edit t name f).rules t' name' = rs.rules t' name' := by
  unfold Ruleset.rules Ruleset.edit
  split
  · next ht => subst ht; exact find_edit_ne h
  · rfl

theorem edit_other (h : t' ≠ t) : rs.edit t name f t' = rs t' := if_neg h

theorem edit_same : rs.edit t name f t = Iptables.edit name f (rs t) := if_pos rfl

theorem rules_edit_other (h : t' ≠ t) :
    (rs.edit t name f).rules t' name' = rs.rules t' name' := by
  unfold Ruleset.rules
  rw [edit_other h]

/-- Changing a chain leaves the names of chains as they are. -/
theorem filter_edit {p : String → Bool} (h : p name = true) :
    (edit name f chains).filter (fun ch => p ch.name) =
      edit name f (chains.filter fun ch => p ch.name) := by
  induction chains with
  | nil => rfl
  | cons ch rest ih =>
    by_cases hch : ch.name = name
    · simp [edit, hch, h]
    · by_cases hp : p ch.name = true
      · simp [edit, hch, hp, ih]
      · simp [edit, hch, hp, ih]

/-! ## Running commands -/

theorem run_append {rule : Rule} (h : rs.rules t name = some l) (hj : rs.hasTarget t rule = true) :
    run refusesNone rs (.append t name rule) = (0, rs.edit t name (· ++ [rule])) := by
  simp [run, refusesNone, Command.exec, h, hj]

theorem run_deleteNum {i : Nat} (h : rs.rules t name = some l) (hi : i < l.length) :
    run refusesNone rs (.deleteNum t name (i + 1)) = (0, rs.edit t name (·.eraseIdx i)) := by
  have hn : 1 ≤ i + 1 ∧ i + 1 ≤ l.length := ⟨Nat.le_add_left 1 i, hi⟩
  simp [run, refusesNone, Command.exec, h, hn]

/-! ## Lines of rules -/

/-- A single address is printed with a full mask. -/
theorem sourceText_text (ip : Ipv4) : sourceText ip.text = ip.text ++ "/32" := by
  have hslash : '/' ∉ ip.text.toList := by
    rw [Ipv4.toList_text]
    exact Ipv4.slash_notMem ip
  unfold sourceText
  rw [List.splitOn_eq_singleton hslash, Ipv4.toList_text]
  simp only [Ipv4.read_chars]

/-- A rule that starts with the test for a single address. -/
theorem text_source (ip : Ipv4) (tests : List Match) (target : Target) :
    Rule.text ⟨.source ip.text :: tests, target⟩ =
      "-s " ++ (ip.text ++ "/32") ++ " " ++ Rule.text ⟨tests, target⟩ := by
  have htext : (Match.source ip.text).text = "-s " ++ (ip.text ++ "/32") := by
    show (if sourceText ip.text = "" then "" else "-s " ++ sourceText ip.text) = _
    rw [sourceText_text, if_neg (by simp)]
  unfold Rule.text
  rw [List.foldr_cons, htext, if_neg (by simp)]

/-! ## Lines of chains by name -/

theorem prefix_blank {pre name text : List Char} (h : ' ' ∉ pre) :
    pre <+: name ++ ' ' :: text ↔ pre <+: name := by
  induction pre generalizing name with
  | nil => simp
  | cons c pre ih =>
    have hc : c ≠ ' ' := fun e => h (by simp [e])
    have hpre : ' ' ∉ pre := fun e => h (List.mem_cons_of_mem c e)
    cases name with
    | nil => simp [List.cons_prefix_cons, hc]
    | cons d name => simp [List.cons_prefix_cons, ih hpre]

/-- Whether a line of a chain starts with `-A pre` depends on its name only. -/
theorem matchesAt_line {pre : String} (h : ' ' ∉ pre.toList) (ch : Chain) (text : String) :
    Grep.matchesAt (Grep.literal ("-A " ++ pre).toList) ("-A " ++ ch.name ++ " " ++ text).toList =
      pre.toList.isPrefixOf ch.name.toList := by
  rw [Bool.eq_iff_iff, Grep.matchesAt_literal_iff, List.isPrefixOf_iff_prefix]
  simp only [String.toList_append, List.append_assoc, List.prefix_append_right_inj]
  exact prefix_blank h

/-- `grep "^-A pre"` of a saved table: the lines of the chains whose names start so. -/
theorem filter_save {pre : String} (h : ' ' ∉ pre.toList) :
    (save rs t).filter (fun l => Grep.matchesAt (Grep.literal ("-A " ++ pre).toList) l.toList) =
      ((rs t).filter fun ch => pre.toList.isPrefixOf ch.name.toList).flatMap Chain.lines := by
  unfold save
  generalize rs t = chains
  induction chains with
  | nil => rfl
  | cons ch rest ih =>
    rw [List.flatMap_cons, List.filter_append, ih, List.filter_cons (x := ch)]
    split
    · next hp =>
      rw [List.flatMap_cons, List.filter_eq_self.mpr]
      intro l hl
      obtain ⟨r, _, rfl⟩ := List.mem_map.mp hl
      rw [matchesAt_line h, hp]
    · next hp =>
      rw [List.filter_eq_nil_iff.mpr, List.nil_append]
      intro l hl
      obtain ⟨r, _, rfl⟩ := List.mem_map.mp hl
      rw [matchesAt_line h]
      exact hp

end Iptables
