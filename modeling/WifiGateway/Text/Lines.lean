import Mathlib.Data.List.Basic

/-!
# Reading a text line by line

A text is a list of symbols, and one of them, `nl`, ends a line. `takeLine` reads up to and
including the next end of a line, or up to the end of the text; `readLine` reads at most
so many symbols of that.

Readers cut a text into pieces that have the end of a line at most as their last symbol
(`Piece`). Whatever the cuts, a piece that is ended accounts for exactly one end of a line
in the text, so the pieces are as many as the complete lines only if all are ended
(`length_eq_complete`), and then they are the lines (`complete_flatten`).
-/

namespace Lines

variable {α : Type} [DecidableEq α]

/-- The next line, and what comes after it. -/
def takeLine (nl : α) : List α → List α × List α
  | [] => ([], [])
  | c :: s => if c = nl then ([c], s) else (c :: (takeLine nl s).1, (takeLine nl s).2)

/-- At most `max` symbols of the next line, and what comes after them. -/
def readLine (nl : α) (max : Nat) (s : List α) : List α × List α :=
  ((takeLine nl s).1.take max, (takeLine nl s).1.drop max ++ (takeLine nl s).2)

/-- The lines of a text, the last one perhaps not ended. -/
def lines (nl : α) : List α → List (List α)
  | [] => []
  | c :: s =>
    if c = nl then [c] :: lines nl s
    else match lines nl s with
      | [] => [[c]]
      | l :: ls => (c :: l) :: ls

/-- The last symbol ends a line. -/
def Ended (nl : α) (s : List α) : Prop := s.getLast? = some nl

instance (nl : α) (s : List α) : Decidable (Ended nl s) := inferInstanceAs (Decidable (_ = _))

/-- The lines that are ended. -/
def complete (nl : α) (s : List α) : List (List α) := (lines nl s).filter fun l => Ended nl l

/-- No line ends before the last symbol. -/
def Piece (nl : α) (l : List α) : Prop := ∃ t x, l = t ++ [x] ∧ nl ∉ t

variable {nl : α} {s t l : List α} {ps : List (List α)}

/-! ## Lines -/

variable {c : α}

theorem takeLine_nl (s : List α) : takeLine nl (nl :: s) = ([nl], s) := by
  rw [takeLine, if_pos rfl]

theorem takeLine_cons (h : c ≠ nl) :
    takeLine nl (c :: s) = (c :: (takeLine nl s).1, (takeLine nl s).2) := by
  rw [takeLine, if_neg h]

theorem takeLine_append (nl : α) (s : List α) : (takeLine nl s).1 ++ (takeLine nl s).2 = s := by
  induction s with
  | nil => rfl
  | cons c s ih =>
    by_cases hc : c = nl
    · rw [hc, takeLine_nl]
      rfl
    · rw [takeLine_cons hc, List.cons_append, ih]

theorem takeLine_ended (h : nl ∉ t) (s : List α) :
    takeLine nl (t ++ nl :: s) = (t ++ [nl], s) := by
  induction t with
  | nil => exact takeLine_nl s
  | cons c t ih =>
    have hc : c ≠ nl := fun e => h (e ▸ List.mem_cons_self)
    rw [List.cons_append, takeLine_cons hc, ih fun hmem => h (List.mem_cons_of_mem c hmem)]
    rfl

/-- The first line is what is read first, the others are the lines of the rest. -/
theorem lines_eq (h : s ≠ []) :
    lines nl s = (takeLine nl s).1 :: lines nl (takeLine nl s).2 := by
  induction s with
  | nil => exact absurd rfl h
  | cons c s ih =>
    by_cases hc : c = nl
    · rw [hc, takeLine_nl, lines, if_pos rfl]
    · rw [takeLine_cons hc, lines, if_neg hc]
      cases s with
      | nil => rfl
      | cons d s => rw [ih (by simp)]

theorem takeLine_piece (h : s ≠ []) : Piece nl (takeLine nl s).1 := by
  induction s with
  | nil => exact absurd rfl h
  | cons c s ih =>
    by_cases hc : c = nl
    · rw [hc, takeLine_nl]
      exact ⟨[], nl, rfl, List.not_mem_nil⟩
    · rw [takeLine_cons hc]
      cases s with
      | nil => exact ⟨[], c, rfl, List.not_mem_nil⟩
      | cons d s =>
        obtain ⟨t, x, hl, ht⟩ := ih (by simp)
        refine ⟨c :: t, x, ?_, ?_⟩
        · rw [hl, List.cons_append]
        · simp [ht, Ne.symm hc]

theorem takeLine_ne_nil (h : s ≠ []) : (takeLine nl s).1 ≠ [] := by
  obtain ⟨t, x, hl, -⟩ := @takeLine_piece _ _ nl _ h
  rw [hl]
  simp

theorem lines_flatten (nl : α) (s : List α) : (lines nl s).flatten = s := by
  induction s with
  | nil => rfl
  | cons c s ih =>
    rw [lines]
    split
    · rw [List.flatten_cons, ih]
      rfl
    · split
      · next hnil =>
        rw [hnil] at ih
        rw [← ih]
        rfl
      · next l ls hcons =>
        rw [hcons] at ih
        rw [← ih]
        rfl

theorem lines_piece (nl : α) (s : List α) : ∀ l ∈ lines nl s, Piece nl l := by
  induction s with
  | nil => exact fun l hl => absurd hl List.not_mem_nil
  | cons c s ih =>
    rw [lines]
    split
    · exact List.forall_mem_cons.mpr ⟨⟨[], c, rfl, List.not_mem_nil⟩, ih⟩
    · next hc =>
      split
      · intro l hl
        rw [List.mem_singleton.mp hl]
        exact ⟨[], c, rfl, List.not_mem_nil⟩
      · next l ls hcons =>
        rw [hcons] at ih
        obtain ⟨⟨t, x, hl, ht⟩, hrest⟩ := List.forall_mem_cons.mp ih
        rw [List.forall_mem_cons]
        refine ⟨⟨c :: t, x, ?_, ?_⟩, hrest⟩
        · rw [hl, List.cons_append]
        · simp [ht, Ne.symm hc]

/-! ## Pieces -/

theorem lines_cons_of_ended (hl : Piece nl l) (he : Ended nl l) (s : List α) :
    lines nl (l ++ s) = l :: lines nl s := by
  obtain ⟨t, x, rfl, ht⟩ := hl
  have hx : x = nl := by simpa [Ended] using he
  subst hx
  rw [lines_eq (by simp), List.append_assoc, List.singleton_append, takeLine_ended ht]

/-- The number of ends of lines in a piece. -/
theorem Piece.count (h : Piece nl l) : l.count nl = if Ended nl l then 1 else 0 := by
  obtain ⟨t, x, rfl, ht⟩ := h
  rw [List.count_append, List.count_eq_zero_of_not_mem ht, List.count_singleton]
  unfold Ended
  simp

theorem count_flatten (hps : ∀ p ∈ ps, Piece nl p) :
    ps.flatten.count nl = ps.countP fun p => Ended nl p := by
  induction ps with
  | nil => rfl
  | cons p ps ih =>
    obtain ⟨hp, hrest⟩ := List.forall_mem_cons.mp hps
    rw [List.flatten_cons, List.count_append, hp.count, ih hrest, List.countP_cons, Nat.add_comm]
    simp

theorem complete_length (nl : α) (s : List α) : (complete nl s).length = s.count nl := by
  have hcount := count_flatten (lines_piece nl s)
  rw [lines_flatten] at hcount
  rw [complete, hcount, List.countP_eq_length_filter]

/-- Pieces are as many as the complete lines only if all of them are ended. -/
theorem length_eq_complete (hps : ∀ p ∈ ps, Piece nl p) :
    ps.length = (complete nl ps.flatten).length ↔ ∀ p ∈ ps, Ended nl p := by
  rw [complete_length, count_flatten hps, eq_comm, List.countP_eq_length]
  simp

/-- Pieces that are all ended are the lines of the text that they begin. -/
theorem lines_of_ended (hps : ∀ p ∈ ps, Piece nl p ∧ Ended nl p) (s : List α) :
    lines nl (ps.flatten ++ s) = ps ++ lines nl s := by
  induction ps with
  | nil => rfl
  | cons p ps ih =>
    obtain ⟨⟨hp, he⟩, hrest⟩ := List.forall_mem_cons.mp hps
    rw [List.flatten_cons, List.append_assoc, lines_cons_of_ended hp he, ih hrest]
    rfl

/-- So they are the complete lines. -/
theorem complete_of_ended (hps : ∀ p ∈ ps, Piece nl p ∧ Ended nl p) :
    complete nl ps.flatten = ps := by
  have hlines := lines_of_ended hps []
  rw [List.append_nil] at hlines
  rw [complete, hlines, lines, List.append_nil]
  exact List.filter_eq_self.mpr fun p hp => by simpa using (hps p hp).2

omit [DecidableEq α] in
theorem ended_cons (hs : s ≠ []) : Ended nl (c :: s) ↔ Ended nl s := by
  cases s with
  | nil => exact absurd rfl hs
  | cons d s => simp [Ended]

/-- The lines of a text that is empty or ended are all ended. -/
theorem lines_ended (h : s = [] ∨ Ended nl s) : ∀ l ∈ lines nl s, Ended nl l := by
  induction s with
  | nil => exact fun l hl => absurd hl List.not_mem_nil
  | cons c s ih =>
    have hend : Ended nl (c :: s) := h.resolve_left (by simp)
    have hrest : s = [] ∨ Ended nl s := by
      by_cases hs : s = []
      · exact .inl hs
      · exact .inr ((ended_cons hs).mp hend)
    rw [lines]
    split
    · next hc =>
      rw [List.forall_mem_cons, hc]
      exact ⟨rfl, ih hrest⟩
    · next hc =>
      split
      · next hnil =>
        have hs : s = [] := by rw [← lines_flatten nl s, hnil]; rfl
        rw [hs] at hend
        exact absurd (Option.some.inj hend) hc
      · next l ls hcons =>
        have ih' := ih hrest
        rw [hcons, List.forall_mem_cons] at ih'
        rw [List.forall_mem_cons]
        refine ⟨(ended_cons ?_).mpr ih'.1, ih'.2⟩
        intro hl
        rw [hl] at ih'
        exact absurd ih'.1 (by simp [Ended])

omit [DecidableEq α] in
theorem ended_flatten (hne : ps ≠ []) (hps : ∀ p ∈ ps, Ended nl p) : Ended nl ps.flatten := by
  induction ps with
  | nil => exact absurd rfl hne
  | cons p ps ih =>
    obtain ⟨hp, hrest⟩ := List.forall_mem_cons.mp hps
    rw [List.flatten_cons, Ended, List.getLast?_append]
    cases ps with
    | nil => exact hp
    | cons q ps =>
      have hq : (q :: ps).flatten.getLast? = some nl := ih (by simp) hrest
      rw [hq]
      rfl

/-- The lines of a text that goes on after whole lines. -/
theorem lines_append (h : t = [] ∨ Ended nl t) (s : List α) :
    lines nl (t ++ s) = lines nl t ++ lines nl s := by
  have hlines := lines_of_ended
    (fun l hl => ⟨lines_piece nl t l hl, lines_ended h l hl⟩) s
  rwa [lines_flatten] at hlines

/-! ## A limit on the first line -/

/-- What is read when the first line is read with a limit, and the others without one. -/
def scanned (nl : α) (max : Nat) (s : List α) : List (List α) :=
  if s = [] then [] else (readLine nl max s).1 :: lines nl (readLine nl max s).2

variable {max : Nat}

theorem readLine_append (nl : α) (max : Nat) (s : List α) :
    (readLine nl max s).1 ++ (readLine nl max s).2 = s := by
  show (takeLine nl s).1.take max ++ ((takeLine nl s).1.drop max ++ (takeLine nl s).2) = s
  rw [← List.append_assoc, List.take_append_drop, takeLine_append]

/-- A line within the limit is read whole. -/
theorem readLine_eq (h : (takeLine nl s).1.length ≤ max) : readLine nl max s = takeLine nl s := by
  rw [readLine, List.take_of_length_le h, List.drop_of_length_le h]
  rfl

omit [DecidableEq α] in
theorem Piece.take (h : Piece nl l) (hmax : 0 < max) : Piece nl (l.take max) := by
  obtain ⟨t, x, rfl, ht⟩ := h
  by_cases hlen : max ≤ t.length
  · -- the last symbol is cut off
    have hne : t.take max ≠ [] := List.ne_nil_of_length_pos (by simp; omega)
    rw [List.take_append_of_le_length hlen]
    refine ⟨(t.take max).dropLast, (t.take max).getLast hne, ?_, ?_⟩
    · exact (List.dropLast_append_getLast hne).symm
    · exact fun hmem => ht (List.take_subset _ _ (List.dropLast_subset _ hmem))
  · rw [List.take_of_length_le (by simp; omega)]
    exact ⟨t, x, rfl, ht⟩

theorem scanned_flatten (nl : α) (max : Nat) (s : List α) : (scanned nl max s).flatten = s := by
  unfold scanned
  split
  · next hs =>
    rw [hs]
    rfl
  · rw [List.flatten_cons, lines_flatten, readLine_append]

theorem scanned_piece (hmax : 0 < max) : ∀ p ∈ scanned nl max s, Piece nl p := by
  unfold scanned
  split
  · exact fun p hp => absurd hp List.not_mem_nil
  · next hs =>
    rw [List.forall_mem_cons]
    exact ⟨(takeLine_piece hs).take hmax, lines_piece nl _⟩

/-- Within the limit the lines are read. -/
theorem scanned_eq_lines (h : (takeLine nl s).1.length ≤ max) : scanned nl max s = lines nl s := by
  unfold scanned
  split
  · next hs =>
    rw [hs]
    rfl
  · next hs => rw [readLine_eq h, lines_eq hs]

omit [DecidableEq α] in
/-- A piece that is cut off is not ended. -/
theorem Piece.not_ended_take (h : Piece nl l) (hlen : max < l.length) :
    ¬ Ended nl (l.take max) := by
  obtain ⟨t, x, rfl, ht⟩ := h
  rw [List.length_append, List.length_singleton] at hlen
  rw [List.take_append_of_le_length (by omega)]
  exact fun hend => ht (List.take_subset _ _ (List.mem_of_getLast? hend))

/-- Every piece is ended just if the text is, and the limit does not cut the first line. -/
theorem scanned_ended :
    (∀ p ∈ scanned nl max s, Ended nl p) ↔
      s = [] ∨ Ended nl s ∧ (takeLine nl s).1.length ≤ max := by
  by_cases hs : s = []
  · rw [hs]
    exact iff_of_true (fun p hp => absurd hp List.not_mem_nil) (.inl rfl)
  constructor
  · intro hall
    have hne : scanned nl max s ≠ [] := by simp [scanned, hs]
    have hend := ended_flatten hne hall
    rw [scanned_flatten] at hend
    refine .inr ⟨hend, ?_⟩
    by_contra hlen
    unfold scanned at hall
    rw [if_neg hs, List.forall_mem_cons] at hall
    exact (takeLine_piece hs).not_ended_take (by omega) hall.1
  · intro h
    obtain ⟨hend, hlen⟩ := h.resolve_left hs
    rw [scanned_eq_lines hlen]
    exact lines_ended (.inr hend)

end Lines
