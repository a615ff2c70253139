import WifiGateway.Iptables.Lookup
import WifiGateway.Text.Ipv4

/-!
# A packet on its way through chains

A packet is tried against the rules of a chain in order. What a rule does with one that
passes its tests is to change the mark and go on, to send it through another chain and
go on if that comes to no end, or to end the traversal with a verdict (`Rule.step`).

What the rules do not tell comes from outside (`Env`): which addresses the text after
`-s` stands for, whether a limit or a test that is not interpreted here lets a packet
through, and what the other targets do.
-/

namespace Iptables

/-- What rules look at in a packet, apart from its mark. -/
structure Packet where
  source : Ipv4
  protocol : Protocol
  dport : Nat
  inInterface : String
  outInterface : String
  state : CtState
  deriving DecidableEq, Repr

/-- How a traversal ends. -/
inductive Verdict
  | accept
  | drop
  | redirect
  | masquerade
  | other (text : String)
  deriving DecidableEq, Repr

/-- What comes after a rule, with the mark of the packet: the next rule, the end of the
chain, or the end of the traversal. -/
inductive Flow
  | next (mark : UInt32)
  | leave (mark : UInt32)
  | stop (verdict : Verdict) (mark : UInt32)
  deriving DecidableEq, Repr

/-- What is not told by the rules, for one packet. -/
structure Env where
  /-- The addresses that a text stands for. -/
  covers : String → Ipv4 → Bool
  /-- Limits, counts and the tests that are not interpreted. -/
  admits : Rule → Match → Bool
  /-- The targets that are not interpreted. -/
  effect : String → UInt32 → Flow

/-- `--set-mark value/mask`. -/
def setMark (value mask : Nat) (mark : UInt32) : UInt32 :=
  (mark &&& ~~~(UInt32.ofNat mask)) ^^^ UInt32.ofNat value

/-- An interface is named by an option; a name that ends with a plus sign stands for all that
start so. -/
def interfaceMatches (name interface : String) : Bool :=
  if name.toList.getLast? = some '+' then name.toList.dropLast.isPrefixOf interface.toList
  else name == interface

/-- A test of a rule on a packet. -/
def Match.passes (env : Env) (r : Rule) (p : Packet) (mark : UInt32) : Match → Bool
  | .source addr => env.covers addr p.source
  | .limit rate burst => env.admits r (.limit rate burst)
  | .nth every packet => env.admits r (.nth every packet)
  | .protocol proto => p.protocol == proto
  | .dport proto port => p.protocol == proto && p.dport == port
  | .dports ports => ports.contains p.dport
  | .mark negated value mask => (mark &&& mask == value) != negated
  | .inInterface name => interfaceMatches name p.inInterface
  | .outInterface name => interfaceMatches name p.outInterface
  | .state states => states.contains p.state
  | .comment _ => true
  | .other text => env.admits r (.other text)

/-- A packet passes the tests of a rule. -/
def Rule.passes (env : Env) (p : Packet) (mark : UInt32) (r : Rule) : Bool :=
  r.tests.all (Match.passes env r p mark)

/-- What a rule does with a packet, given what the other chains do with it. -/
def Rule.step (env : Env) (p : Packet) (enter : String → UInt32 → Option Verdict × UInt32)
    (mark : UInt32) (r : Rule) : Flow :=
  if r.passes env p mark then
    match r.target with
    | .mark value mask => .next (setMark value mask mark)
    | .log _ _ | .none => .next mark
    | .jump chain =>
      match enter chain mark with
      | (some verdict, mark') => .stop verdict mark'
      | (none, mark') => .next mark'
    | .accept => .stop .accept mark
    | .drop => .stop .drop mark
    | .redirect => .stop .redirect mark
    | .masquerade => .stop .masquerade mark
    | .other text => env.effect text mark
  else .next mark

/-- A packet goes through rules: the verdict, if it comes to one, and its mark. -/
def walk (env : Env) (p : Packet) (enter : String → UInt32 → Option Verdict × UInt32) :
    List Rule → UInt32 → Option Verdict × UInt32
  | [], mark => (none, mark)
  | r :: rest, mark =>
    match r.step env p enter mark with
    | .next mark' => walk env p enter rest mark'
    | .leave mark' => (none, mark')
    | .stop verdict mark' => (some verdict, mark')

/-- A packet goes through a chain of a table, and from there through no more than so many
chains one inside the other. -/
def enter (env : Env) (rs : Ruleset) (t : Table) (p : Packet) :
    Nat → String → UInt32 → Option Verdict × UInt32
  | 0, _, mark => (none, mark)
  | depth + 1, name, mark =>
    match rs.rules t name with
    | none => (none, mark)
    | some l => walk env p (enter env rs t p depth) l mark

/-- A packet goes through a chain. Rules do not jump in a circle, so there are never more
chains one inside the other than there are in the table. -/
def traverseChain (env : Env) (rs : Ruleset) (t : Table) (p : Packet) (name : String)
    (mark : UInt32) : Option Verdict × UInt32 :=
  enter env rs t p (rs t).length name mark

/-- The mark after a rule. -/
def Flow.mark : Flow → UInt32
  | .next mark | .leave mark | .stop _ mark => mark

/-- A rule does not touch the mark of any packet. -/
def Rule.KeepsMark (env : Env) (rs : Ruleset) (t : Table) (r : Rule) : Prop :=
  ∀ p depth mark, (r.step env p (enter env rs t p depth) mark).mark = mark

variable {env : Env} {rs : Ruleset} {t : Table} {p : Packet} {l : List Rule} {mark : UInt32}
  {name name' : String} {through : String → UInt32 → Option Verdict × UInt32}

/-! ## Rules in a row -/

theorem step_jumpTo :
    (jumpTo name).step env p through mark =
      match through name mark with
      | (some verdict, mark') => .stop verdict mark'
      | (none, mark') => .next mark' := rfl

/-- A jump to a chain that comes to no verdict. -/
theorem walk_jumpTo {mark' : UInt32} (h : through name mark = (none, mark')) :
    walk env p through (jumpTo name :: l) mark = walk env p through l mark' := by
  rw [walk, step_jumpTo, h]

/-- A rule whose tests the packet does not pass. -/
theorem walk_skip {r : Rule} (h : r.passes env p mark = false) :
    walk env p through (r :: l) mark = walk env p through l mark := by
  have hstep : r.step env p through mark = .next mark := by
    unfold Rule.step
    rw [h]
    rfl
  rw [walk, hstep]

/-- The verdict of a target that ends the traversal. -/
def Target.verdict : Target → Option Verdict
  | .accept => some .accept
  | .drop => some .drop
  | .redirect => some .redirect
  | .masquerade => some .masquerade
  | _ => Option.none

theorem walk_verdict {r : Rule} {v : Verdict} (h : r.target.verdict = some v) :
    walk env p through (r :: l) mark =
      if r.passes env p mark then (some v, mark) else walk env p through l mark := by
  split
  · next hpasses =>
    have hstep : r.step env p through mark = .stop v mark := by
      unfold Rule.step
      rw [if_pos hpasses]
      cases htarget : r.target with
      | accept | drop | redirect | masquerade =>
        rw [htarget] at h
        exact congrArg (Flow.stop · mark) (Option.some.inj h)
      | mark | log | jump | none | other =>
        rw [htarget] at h
        exact absurd h (by simp [Target.verdict])
    rw [walk, hstep]
  · next hpasses => exact walk_skip (by simpa using hpasses)

/-- A rule that logs. -/
theorem walk_log {text : String} {level : Nat} {r : Rule} (h : r.target = .log text level) :
    walk env p through (r :: l) mark = walk env p through l mark := by
  have hstep : r.step env p through mark = .next mark := by
    unfold Rule.step
    rw [h, ite_self]
  rw [walk, hstep]

/-- Rules that only log. -/
theorem walk_logs (h : ∀ r ∈ l, ∃ text level, r.target = .log text level) :
    walk env p through l mark = (none, mark) := by
  induction l with
  | nil => rfl
  | cons r l ih =>
    obtain ⟨⟨text, level, htarget⟩, hrest⟩ := List.forall_mem_cons.mp h
    rw [walk_log htarget, ih hrest]

/-- Rules that set the same bits: they are set if the packet passes the tests of one of the
rules. -/
theorem walk_setMark {α : Type} {f : α → Rule} {passes : α → Bool} {value mask : Nat}
    {mark' : UInt32} (htarget : ∀ x, (f x).target = .mark value mask)
    (hpasses : ∀ x mark, (f x).passes env p mark = passes x)
    (hset : setMark value mask mark = mark') (hstay : setMark value mask mark' = mark')
    (xs : List α) :
    walk env p through (xs.map f) mark = (none, if xs.any passes then mark' else mark) := by
  have hstep : ∀ x mark, (f x).step env p through mark =
      .next (if passes x then setMark value mask mark else mark) := by
    intro x mark
    unfold Rule.step
    rw [hpasses, htarget]
    cases passes x with
    | true => rfl
    | false => rfl
  -- once they are set they stay so
  have hdone : ∀ xs : List α, walk env p through (xs.map f) mark' = (none, mark') := by
    intro xs
    induction xs with
    | nil => rfl
    | cons x xs ih =>
      rw [List.map_cons, walk, hstep, hstay, ite_self]
      exact ih
  induction xs with
  | nil => rfl
  | cons x xs ih =>
    rw [List.map_cons, walk, hstep, List.any_cons]
    cases passes x with
    | true =>
      rw [if_pos rfl, hset]
      exact hdone xs
    | false => exact ih

/-- Rules that do not touch the mark. -/
theorem walk_keepsMark {depth : Nat} (h : ∀ r ∈ l, r.KeepsMark env rs t) :
    (walk env p (enter env rs t p depth) l mark).2 = mark := by
  induction l with
  | nil => rfl
  | cons r l ih =>
    obtain ⟨hkeeps, hrest⟩ := List.forall_mem_cons.mp h
    have hmark := hkeeps p depth mark
    rw [walk]
    cases hstep : r.step env p (enter env rs t p depth) mark with
    | next mark' =>
      rw [hstep] at hmark
      obtain rfl : mark' = mark := hmark
      exact ih hrest
    | leave mark' =>
      rw [hstep] at hmark
      exact hmark
    | stop verdict mark' =>
      rw [hstep] at hmark
      exact hmark

/-! ## Chains -/

theorem enter_succ {depth : Nat} (h : rs.rules t name = some l) :
    enter env rs t p (depth + 1) name mark = walk env p (enter env rs t p depth) l mark := by
  rw [enter, h]

theorem one_le_length (h : rs.rules t name = some l) : 1 ≤ (rs t).length :=
  List.length_pos_of_mem (mem_of_find h)

/-- Two chains of a table are two chains deep. -/
theorem two_le_length {l' : List Rule} (h : rs.rules t name = some l)
    (h' : rs.rules t name' = some l') (hne : name ≠ name') : 2 ≤ (rs t).length := by
  have hmem : ⟨name, l⟩ ∈ rs t := mem_of_find h
  have hmem' : ⟨name', l'⟩ ∈ rs t := mem_of_find h'
  match hchains : rs t with
  | [] =>
    rw [hchains] at hmem
    exact absurd hmem List.not_mem_nil
  | [ch] =>
    rw [hchains, List.mem_singleton] at hmem hmem'
    exact absurd (congrArg Chain.name (hmem.trans hmem'.symm)) hne
  | _ :: _ :: rest => exact Nat.le_add_left 2 rest.length

end Iptables
