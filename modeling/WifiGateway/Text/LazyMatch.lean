import Mathlib.Data.List.Infix

/-!
# Minimal matching

Expressions as `QRegExp` searches for them once `setMinimal(true)` is said: every
quantifier takes as few characters as the rest of the expression lets it, and of the
matches the leftmost is the one found. An expression is a row of pieces; one of them may
be captured.

`search_eq` and the lemmas on the pieces say what is found: the rest of an expression
after `.*` is looked for at the first place where it matches (`FirstSuffix`), and a run
that a character of another kind must follow is a whole run of its kind.
-/

namespace LazyMatch

variable {α β : Type}

/-- A piece of an expression. -/
inductive Piece (α : Type)
  /-- A character of a set. -/
  | one (p : α → Bool)
  /-- `p*`, as few as possible. -/
  | star (p : α → Bool)
  /-- `(p+)`, as few as possible: what is captured. -/
  | group (p : α → Bool)

/-- An expression. -/
abbrev Pattern (α : Type) := List (Piece α)

/-- The ways of taking characters of a set from the start of a text, the shortest first,
each with the text that is left. -/
def runs (p : α → Bool) : List α → List (List α × List α)
  | [] => [([], [])]
  | c :: cs => ([], c :: cs) :: if p c then (runs p cs).map fun r => (c :: r.1, r.2) else []

/-- A run is captured if it is not empty and the rest of the expression goes on from it. -/
def capture (next : List α → Option (List α)) (run left : List α) : Option (List α) :=
  if run = [] then none else (next left).map fun _ => run

/-- The match of an expression at the start of a text: what it captures. -/
def matchAt : Pattern α → List α → Option (List α)
  | [], _ => some []
  | .one _ :: _, [] => none
  | .one p :: rest, c :: cs => if p c then matchAt rest cs else none
  | .star p :: rest, text => (runs p text).findSome? fun r => matchAt rest r.2
  | .group p :: rest, text =>
    (runs p text).findSome? fun r => capture (matchAt rest) r.1 r.2

/-- The leftmost match in a text: what it captures. -/
def search (e : Pattern α) (text : List α) : Option (List α) := text.tails.findSome? (matchAt e)

/-- `rest` is what is left of the text from the first place on where `good` holds. -/
def FirstSuffix (good : List α → Prop) (text rest : List α) : Prop :=
  ∃ before, text = before ++ rest ∧ good rest ∧
    ∀ before' rest', text = before' ++ rest' → good rest' → before.length ≤ before'.length

/-! ## The first suffix -/

section FirstSuffix

variable {good : List α → Prop} {text rest : List α} {c : α} {cs : List α}

theorem FirstSuffix.here (h : good text) : FirstSuffix good text text :=
  ⟨[], rfl, h, fun _ _ _ _ => Nat.zero_le _⟩

theorem firstSuffix_of_good (h : good text) : FirstSuffix good text rest ↔ rest = text := by
  constructor
  · intro hf
    obtain ⟨before, htext, -, hmin⟩ := hf
    have hlen := hmin [] text rfl h
    have hnil : before = [] := List.eq_nil_of_length_eq_zero (Nat.le_zero.mp hlen)
    rw [htext, hnil, List.nil_append]
  · intro hrest
    rw [hrest]
    exact .here h

theorem firstSuffix_nil : FirstSuffix good [] rest ↔ rest = [] ∧ good [] := by
  constructor
  · intro hf
    obtain ⟨before, htext, hgood, -⟩ := hf
    obtain ⟨-, rfl⟩ := List.append_eq_nil_iff.mp htext.symm
    exact ⟨rfl, hgood⟩
  · intro h
    rw [h.1]
    exact .here h.2

theorem firstSuffix_cons (h : ¬ good (c :: cs)) :
    FirstSuffix good (c :: cs) rest ↔ FirstSuffix good cs rest := by
  constructor
  · intro hf
    obtain ⟨before, htext, hgood, hmin⟩ := hf
    cases before with
    | nil =>
      rw [List.nil_append] at htext
      exact absurd (htext ▸ hgood) h
    | cons b before =>
      obtain ⟨rfl, hcs⟩ := List.cons_eq_cons.mp htext
      refine ⟨before, hcs, hgood, ?_⟩
      intro before' rest' hcs' hgood'
      have hlen := hmin (c :: before') rest' (by rw [hcs', List.cons_append]) hgood'
      simpa using hlen
  · intro hf
    obtain ⟨before, hcs, hgood, hmin⟩ := hf
    refine ⟨c :: before, by rw [hcs, List.cons_append], hgood, ?_⟩
    intro before' rest' htext hgood'
    cases before' with
    | nil =>
      rw [List.nil_append] at htext
      exact absurd (htext ▸ hgood') h
    | cons b before' =>
      obtain ⟨-, hcs'⟩ := List.cons_eq_cons.mp htext
      have hlen := hmin before' rest' hcs' hgood'
      simpa using hlen

/-- A first result over the suffixes of a text is the one of the first suffix that has one. -/
theorem findSome?_tails {f : List α → Option β} {b : β} :
    text.tails.findSome? f = some b ↔
      ∃ rest, FirstSuffix (fun r => (f r).isSome = true) text rest ∧ f rest = some b := by
  induction text with
  | nil =>
    show [[]].findSome? f = some b ↔ _
    rw [List.findSome?_singleton]
    constructor
    · intro hb
      exact ⟨[], .here (by rw [hb]; rfl), hb⟩
    · intro h
      obtain ⟨rest, hf, hb⟩ := h
      rw [← (firstSuffix_nil.mp hf).1]
      exact hb
  | cons c cs ih =>
    rw [List.tails_cons, List.findSome?_cons]
    cases hc : f (c :: cs) with
    | none =>
      have hbad : ¬ (f (c :: cs)).isSome = true := by
        simp [hc]
      show cs.tails.findSome? f = some b ↔ _
      rw [ih]
      have hcons : ∀ rest, FirstSuffix (fun r => (f r).isSome = true) (c :: cs) rest ↔
          FirstSuffix (fun r => (f r).isSome = true) cs rest := fun _ => firstSuffix_cons hbad
      simp only [hcons]
    | some b' =>
      have hgood : (f (c :: cs)).isSome = true := by
        rw [hc]
        rfl
      show some b' = some b ↔ _
      have hfirst : ∀ rest, FirstSuffix (fun r => (f r).isSome = true) (c :: cs) rest ↔
          rest = c :: cs := fun _ => firstSuffix_of_good hgood
      simp only [hfirst]
      constructor
      · intro hb
        exact ⟨_, rfl, hc.trans hb⟩
      · intro h
        obtain ⟨rest, rfl, hb⟩ := h
        exact hc.symm.trans hb

/-- A suffix where `good` holds is in the first one. -/
theorem exists_firstSuffix (h : good rest) (hs : rest <:+ text) :
    ∃ first, FirstSuffix good text first ∧ rest <:+ first := by
  induction text with
  | nil =>
    rw [List.suffix_nil.mp hs] at h ⊢
    exact ⟨[], .here h, List.suffix_rfl⟩
  | cons c cs ih =>
    by_cases hgood : good (c :: cs)
    · exact ⟨_, .here hgood, hs⟩
    · rcases List.suffix_cons_iff.mp hs with rfl | hcs
      · exact absurd h hgood
      · obtain ⟨first, hfirst, hsuffix⟩ := ih hcs
        exact ⟨first, (firstSuffix_cons hgood).mpr hfirst, hsuffix⟩

/-- The first place is the same for what holds there and is not met before. -/
theorem FirstSuffix.mono {good' : List α → Prop} (h : FirstSuffix good text rest)
    (hrest : good' rest) (hsub : ∀ s, good' s → good s) : FirstSuffix good' text rest := by
  obtain ⟨before, htext, -, hmin⟩ := h
  exact ⟨before, htext, hrest, fun before' rest' h' hgood' => hmin before' rest' h' (hsub _ hgood')⟩

theorem FirstSuffix.suffix (h : FirstSuffix good text rest) : rest <:+ text := by
  obtain ⟨before, htext, -, -⟩ := h
  exact ⟨before, htext.symm⟩

theorem FirstSuffix.holds (h : FirstSuffix good text rest) : good rest := by
  obtain ⟨-, -, hgood, -⟩ := h
  exact hgood

end FirstSuffix

/-! ## The pieces -/

variable {p q : α → Bool} {e : Pattern α} {text : List α}

theorem search_eq {captured : List α} :
    search e text = some captured ↔
      ∃ rest, FirstSuffix (fun r => (matchAt e r).isSome = true) text rest ∧
        matchAt e rest = some captured :=
  findSome?_tails

/-- What matches in a part of a text that goes on to its end matches in the text. -/
theorem search_suffix {s : List α} (hs : s <:+ text) (h : (search e s).isSome = true) :
    (search e text).isSome = true := by
  unfold search at *
  rw [List.findSome?_isSome_iff] at *
  obtain ⟨rest, hrest, hmatch⟩ := h
  exact ⟨rest, (List.mem_tails _ _).mpr (((List.mem_tails _ _).mp hrest).trans hs), hmatch⟩

/-- An expression of literal characters. -/
def literal [BEq α] (s : List α) : Pattern α := s.map fun c => .one (· == c)

theorem matchAt_literal [BEq α] [LawfulBEq α] (s : List α) :
    matchAt (literal s ++ e) (s ++ text) = matchAt e text := by
  induction s with
  | nil => rfl
  | cons c s ih => simpa [literal, matchAt] using ih

theorem matchAt_literal_none [BEq α] [LawfulBEq α] {s : List α} (h : ¬ s <+: text) :
    matchAt (literal s ++ e) text = none := by
  induction s generalizing text with
  | nil => exact absurd List.nil_prefix h
  | cons c s ih =>
    cases text with
    | nil => rfl
    | cons d text =>
      by_cases hd : d = c
      · subst hd
        have hs : ¬ s <+: text := fun hs => h (List.cons_prefix_cons.mpr ⟨rfl, hs⟩)
        simpa [literal, matchAt] using ih hs
      · simp [literal, matchAt, hd]

/-- `.*` leaves any suffix, the longest first. -/
theorem runs_any (text : List α) : (runs (fun _ => true) text).map Prod.snd = text.tails := by
  induction text with
  | nil => rfl
  | cons c cs ih =>
    rw [runs, if_pos rfl, List.map_cons, List.map_map, List.tails_cons, ← ih]
    rfl

/-- The expression after `.*` is looked for at every place. -/
theorem matchAt_any : matchAt (.star (fun _ => true) :: e) text = search e text := by
  rw [matchAt, search, ← runs_any text, List.findSome?_map]
  rfl

theorem matchAt_any_nil : matchAt [.star (fun _ => true)] text = some [] := by
  cases text with
  | nil => rfl
  | cons c cs => rfl

theorem mem_runs {r : List α × List α} (h : r ∈ runs p text) :
    text = r.1 ++ r.2 ∧ ∀ c ∈ r.1, p c = true := by
  induction text generalizing r with
  | nil =>
    rw [runs, List.mem_singleton] at h
    rw [h]
    exact ⟨rfl, fun c hc => absurd hc List.not_mem_nil⟩
  | cons c cs ih =>
    rw [runs, List.mem_cons] at h
    rcases h with rfl | h
    · exact ⟨rfl, fun c hc => absurd hc List.not_mem_nil⟩
    · by_cases hc : p c = true
      · rw [if_pos hc, List.mem_map] at h
        obtain ⟨r', hr', rfl⟩ := h
        obtain ⟨htext, hall⟩ := ih hr'
        exact ⟨by rw [htext, List.cons_append], List.forall_mem_cons.mpr ⟨hc, hall⟩⟩
      · rw [if_neg hc] at h
        exact absurd h List.not_mem_nil

/-- A run that is followed by a character of another kind is taken whole; `pre` is what was
taken before. -/
theorem findSome?_runs {f : List α → List α → Option β} (hpq : ∀ c, p c = !q c)
    (hf : ∀ run c cs, q c = false → f run (c :: cs) = none) (pre : List α) {run : List α}
    {c : α} (hrun : ∀ d ∈ run, p d = true) (hc : q c = true) (rest : List α) :
    ((runs p (run ++ c :: rest)).findSome? fun r => f (pre ++ r.1) r.2) =
      f (pre ++ run) (c :: rest) := by
  induction run generalizing pre with
  | nil =>
    have hpc : ¬ p c = true := by
      rw [hpq, hc]
      decide
    simp only [List.nil_append, runs, if_neg hpc, List.findSome?_singleton]
  | cons d run ih =>
    have hd : p d = true := hrun d List.mem_cons_self
    have hqd : q d = false := by simpa [hpq] using hd
    have ih' := ih (pre ++ [d]) fun d' hd' => hrun d' (List.mem_cons_of_mem d hd')
    simp only [List.append_assoc, List.cons_append, List.nil_append] at ih'
    simp only [List.cons_append, runs, if_pos hd, List.findSome?_cons, List.append_nil,
      hf pre d _ hqd, List.findSome?_map, Function.comp_def]
    exact ih'

/-- What is captured before a character of another kind is the whole run. -/
theorem matchAt_group {captured : List α} (hpq : ∀ c, p c = !q c) :
    matchAt (.group p :: .one q :: e) text = some captured ↔
      captured ≠ [] ∧ (∀ c ∈ captured, p c = true) ∧
        ∃ c rest, text = captured ++ c :: rest ∧ q c = true ∧ (matchAt e rest).isSome = true := by
  constructor
  · intro h
    rw [matchAt] at h
    obtain ⟨⟨run, left⟩, hr, hmatch⟩ := List.exists_of_findSome?_eq_some h
    obtain ⟨htext, hrun⟩ := mem_runs hr
    unfold capture at hmatch
    by_cases hnil : run = []
    · rw [if_pos hnil] at hmatch
      exact absurd hmatch (by simp)
    · rw [if_neg hnil, Option.map_eq_some_iff] at hmatch
      obtain ⟨m, hm, hcaptured⟩ := hmatch
      have hrc : run = captured := hcaptured
      subst hrc
      cases left with
      | nil => exact absurd hm (by simp [matchAt])
      | cons c rest =>
        rw [matchAt] at hm
        by_cases hc : q c = true
        · rw [if_pos hc] at hm
          exact ⟨hnil, hrun, c, rest, htext, hc, by rw [hm]; rfl⟩
        · rw [if_neg hc] at hm
          exact absurd hm (by simp)
  · intro h
    obtain ⟨hnil, hall, c, rest, rfl, hc, hrest⟩ := h
    have hskip : ∀ (run : List α) (c : α) (cs : List α), q c = false →
        capture (matchAt (.one q :: e)) run (c :: cs) = none := by
      intro run c cs hqc
      simp [capture, matchAt, hqc]
    have htaken := findSome?_runs hpq hskip [] hall hc rest
    obtain ⟨m, hm⟩ := Option.isSome_iff_exists.mp hrest
    simp only [List.nil_append] at htaken
    rw [matchAt, htaken, capture, if_neg hnil, matchAt, if_pos hc, hm]
    rfl

end LazyMatch
