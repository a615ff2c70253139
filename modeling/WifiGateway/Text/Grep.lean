/-!
# Line matching

What scripts use `grep` for: keep the lines that match an expression, or print
the number of the first one that does. An expression is a row of pieces, each a
character of some set that may be optional; this covers literal text, the dot,
bracket expressions and bounded repetitions such as `[0-9]{1,3}`.

An expression that is not anchored is found anywhere in a line. In particular a
text is found, as an expression, in every line that contains it
(`search_basic`), but also in others: a dot stands for any character.
-/

namespace Grep

/-- A piece of an expression: a character of a set, which may be optional. -/
inductive Piece
  | one (p : Char → Bool)
  | opt (p : Char → Bool)

/-- An expression. -/
abbrev Pattern := List Piece

/-- The expression matches at the start of the text: `^` and the expression. -/
def matchesAt : Pattern → List Char → Bool
  | [], _ => true
  | .one _ :: _, [] => false
  | .one p :: rest, c :: cs => p c && matchesAt rest cs
  | .opt _ :: rest, [] => matchesAt rest []
  | .opt p :: rest, c :: cs => (p c && matchesAt rest cs) || matchesAt rest (c :: cs)

/-- The expression matches somewhere in the text. -/
def search (p : Pattern) : List Char → Bool
  | [] => matchesAt p []
  | c :: cs => matchesAt p (c :: cs) || search p cs

/-- An expression of literal characters. -/
def literal (s : List Char) : Pattern := s.map fun c => .one (· == c)

/-- A text as a basic regular expression: a dot is any character, and any other
character stands for itself. Of the special characters the dot is the only one that
the text is taken to have. -/
def basic (s : List Char) : Pattern :=
  s.map fun c => if c = '.' then .one fun _ => true else .one (· == c)

/-- `[0-9]{1,3}`. -/
def digits13 : Pattern := [.one Char.isDigit, .opt Char.isDigit, .opt Char.isDigit]

/-- `grep -n -m 1 | cut -f1 -d:`: the number of the first line that matches, counted
from one. -/
def firstLine (p : Pattern) (lines : List String) : Option Nat :=
  (lines.findIdx? fun l => search p l.toList).map (· + 1)

variable {p : Pattern} {s pre post : List Char}

theorem matchesAt_literal_iff : matchesAt (literal s) post = true ↔ s <+: post := by
  induction s generalizing post with
  | nil => simp [literal, matchesAt]
  | cons c s ih =>
    cases post with
    | nil => simp [literal, matchesAt]
    | cons d post =>
      have ih' := @ih post
      unfold literal at ih' ⊢
      rw [List.map_cons, matchesAt, Bool.and_eq_true, ih', beq_iff_eq, List.cons_prefix_cons,
        eq_comm]

theorem matchesAt_basic : matchesAt (basic s) (s ++ post) = true := by
  induction s with
  | nil => rfl
  | cons c s ih =>
    unfold basic at ih ⊢
    rw [List.map_cons, List.cons_append]
    split
    · exact ih
    · rw [matchesAt, ih, beq_self_eq_true, Bool.and_self]

/-- A text that an expression matches has a character for every piece that is not optional. -/
theorem exists_of_matchesAt {q : Char → Bool} {cs : List Char} (h : matchesAt p cs = true)
    (hq : .one q ∈ p) : ∃ c ∈ cs, q c = true := by
  induction p generalizing cs with
  | nil => exact absurd hq List.not_mem_nil
  | cons piece p ih =>
    have hrest : ∀ {cs' : List Char}, matchesAt p cs' = true → Piece.one q ∈ p → cs' ⊆ cs →
        ∃ c ∈ cs, q c = true := by
      intro cs' h' hq' hsub
      obtain ⟨c, hc, hqc⟩ := ih h' hq'
      exact ⟨c, hsub hc, hqc⟩
    cases piece with
    | one r =>
      cases cs with
      | nil => exact absurd h (by simp [matchesAt])
      | cons c cs =>
        rw [matchesAt, Bool.and_eq_true] at h
        rcases List.mem_cons.mp hq with hq' | hq'
        · obtain rfl := Piece.one.inj hq'
          exact ⟨c, List.mem_cons_self, h.1⟩
        · exact hrest h.2 hq' (List.subset_cons_self c cs)
    | opt r =>
      have hq' : Piece.one q ∈ p := (List.mem_cons.mp hq).resolve_left (by simp)
      cases cs with
      | nil =>
        rw [matchesAt] at h
        exact hrest h hq' (List.Subset.refl _)
      | cons c cs =>
        rw [matchesAt, Bool.or_eq_true, Bool.and_eq_true] at h
        rcases h with ⟨_, h⟩ | h
        · exact hrest h hq' (List.subset_cons_self c cs)
        · exact hrest h hq' (List.Subset.refl _)

/-- A match at the start of a part is a match in the text. -/
theorem search_append (h : matchesAt p post = true) : search p (pre ++ post) = true := by
  induction pre with
  | nil =>
    cases post with
    | nil => exact h
    | cons c post => rw [List.nil_append, search, h, Bool.true_or]
  | cons c pre ih => rw [List.cons_append, search, ih, Bool.or_true]

/-- A text is found in every line that contains it. -/
theorem search_basic : search (basic s) (pre ++ (s ++ post)) = true :=
  search_append matchesAt_basic

theorem matchesAt_one {q : Char → Bool} {c : Char} (hc : q c = true)
    (h : matchesAt p post = true) : matchesAt (.one q :: p) (c :: post) = true := by
  rw [matchesAt, hc, h, Bool.and_self]

theorem matchesAt_opt {q : Char → Bool} {c : Char} (hc : q c = true)
    (h : matchesAt p post = true) : matchesAt (.opt q :: p) (c :: post) = true := by
  rw [matchesAt, hc, h, Bool.and_self, Bool.true_or]

theorem matchesAt_opt_skip {q : Char → Bool} (h : matchesAt p post = true) :
    matchesAt (.opt q :: p) post = true := by
  cases post with
  | nil => exact h
  | cons c post => rw [matchesAt, h, Bool.or_true]

/-- One to three digits and what follows. -/
theorem matchesAt_digits13 {ds : List Char} (hpos : 0 < ds.length) (hlen : ds.length ≤ 3)
    (hds : ∀ c ∈ ds, c.isDigit = true) (h : matchesAt p post = true) :
    matchesAt (digits13 ++ p) (ds ++ post) = true := by
  match ds, hpos, hlen with
  | [a], _, _ =>
    exact matchesAt_one (hds a (by simp)) (matchesAt_opt_skip (matchesAt_opt_skip h))
  | [a, b], _, _ =>
    exact matchesAt_one (hds a (by simp)) (matchesAt_opt (hds b (by simp)) (matchesAt_opt_skip h))
  | [a, b, c], _, _ =>
    exact matchesAt_one (hds a (by simp))
      (matchesAt_opt (hds b (by simp)) (matchesAt_opt (hds c (by simp)) h))

/-- A match of a longer expression is a match of its start. -/
theorem matchesAt_of_append {q : Pattern} (h : matchesAt (p ++ q) post = true) :
    matchesAt p post = true := by
  induction p generalizing post with
  | nil => rfl
  | cons piece p ih =>
    cases piece with
    | one r =>
      cases post with
      | nil => exact absurd h (by simp [matchesAt])
      | cons c post =>
        rw [List.cons_append, matchesAt, Bool.and_eq_true] at h
        exact matchesAt_one h.1 (ih h.2)
    | opt r =>
      cases post with
      | nil => exact matchesAt_opt_skip (ih (by simpa [matchesAt] using h))
      | cons c post =>
        rw [List.cons_append, matchesAt, Bool.or_eq_true, Bool.and_eq_true] at h
        rcases h with ⟨hc, h⟩ | h
        · exact matchesAt_opt hc (ih h)
        · exact matchesAt_opt_skip (ih h)

theorem search_of_append {q : Pattern} (h : search (p ++ q) post = true) :
    search p post = true := by
  induction post with
  | nil => exact matchesAt_of_append h
  | cons c post ih =>
    rw [search, Bool.or_eq_true] at h ⊢
    exact h.imp matchesAt_of_append ih

/-- Nothing is found where the first character is not. -/
theorem search_skip {q : Char → Bool} (h : ∀ c ∈ pre, q c = false) :
    search (.one q :: p) (pre ++ post) = search (.one q :: p) post := by
  induction pre with
  | nil => rfl
  | cons c pre ih =>
    obtain ⟨hc, hrest⟩ := List.forall_mem_cons.mp h
    rw [List.cons_append, search, matchesAt, hc, Bool.false_and, Bool.false_or, ih hrest]

/-- A text at its own place, and then more. -/
theorem matchesAt_basic_append {s' : List Char} :
    matchesAt (basic (s ++ s')) (s ++ post) = matchesAt (basic s') post := by
  induction s with
  | nil => rfl
  | cons c s ih =>
    unfold basic at ih ⊢
    rw [List.cons_append, List.map_cons, List.cons_append]
    split
    · rw [matchesAt, ih, Bool.true_and]
    · rw [matchesAt, ih, beq_self_eq_true, Bool.true_and]

/-- A text without dots stands for itself. -/
theorem basic_eq_literal (h : '.' ∉ s) : basic s = literal s := by
  unfold basic literal
  apply List.map_congr_left
  intro c hc
  exact if_neg fun hdot : c = '.' => h (hdot ▸ hc)

end Grep
