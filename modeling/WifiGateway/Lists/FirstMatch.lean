import Mathlib.Data.List.Nodup

/-!
# Lists that are looked up by the first match

Entries with a key, kept in a list and found by a test that every key passes against
itself but that may also succeed on other keys. An entry is added at the end when the
test finds nothing, and the first entry that the test finds is the one removed.

What holds of such a list is `Ordered`: no entry is found by the key of a later one.
It is kept by both operations, and it is enough for the removal of a key that is
there: whatever else its test finds comes after it (`remove_of_mem`).
-/

namespace FirstMatch

variable {α β : Type} {finds : α → α → Bool} {key : β → α} {es : List β} {e : β} {a : α}

/-- No entry is found by the key of a later one. -/
def Ordered (finds : α → α → Bool) (key : β → α) (es : List β) : Prop :=
  es.Pairwise fun e e' => finds (key e') (key e) = false

/-- Add an entry unless its key finds one. -/
def place (finds : α → α → Bool) (key : β → α) (e : β) (es : List β) : List β :=
  if es.any fun e' => finds (key e) (key e') then es else es ++ [e]

/-- Remove the first entry that a key finds. -/
def remove (finds : α → α → Bool) (key : β → α) (a : α) (es : List β) : List β :=
  es.eraseP fun e => finds a (key e)

theorem Ordered.place (h : Ordered finds key es) (e : β) :
    Ordered finds key (place finds key e es) := by
  unfold FirstMatch.place
  split
  · exact h
  · next hnone =>
    refine List.pairwise_append.mpr ⟨h, List.pairwise_singleton _ _, ?_⟩
    intro e' he' e'' he''
    rw [List.mem_singleton.mp he'']
    rw [List.any_eq_true] at hnone
    exact Bool.eq_false_iff.mpr (fun hf => hnone ⟨e', he', hf⟩)

theorem Ordered.remove (h : Ordered finds key es) (a : α) :
    Ordered finds key (remove finds key a es) :=
  h.sublist List.eraseP_sublist

theorem place_of_found (h : ∃ e' ∈ es, finds (key e) (key e') = true) :
    place finds key e es = es :=
  if_pos (List.any_eq_true.mpr h)

theorem place_of_not_found (h : ∀ e' ∈ es, finds (key e) (key e') = false) :
    place finds key e es = es ++ [e] := by
  refine if_neg (fun hany => ?_)
  obtain ⟨e', he', hf⟩ := List.any_eq_true.mp hany
  rw [h e' he'] at hf
  exact absurd hf (by decide)

/-- A key is there once it is placed, if it was or finds nothing. -/
theorem mem_place (h : key e ∈ es.map key ∨ ∀ e' ∈ es, finds (key e) (key e') = false) :
    key e ∈ (place finds key e es).map key := by
  unfold place
  split
  · next hany =>
    obtain ⟨e', he', hf⟩ := List.any_eq_true.mp hany
    rcases h with hmem | hnone
    · exact hmem
    · rw [hnone e' he'] at hf
      exact absurd hf (by decide)
  · simp

/-- Other entries are as they were. -/
theorem filter_place {q : β → Bool} (h : q e = false) :
    (place finds key e es).filter q = es.filter q := by
  unfold place
  split
  · rfl
  · rw [List.filter_append]
    simp [h]

theorem remove_of_not_found (h : ∀ e ∈ es, finds a (key e) = false) :
    remove finds key a es = es :=
  List.eraseP_of_forall_not (fun e he => by rw [h e he]; decide)

/-- What is removed is the first entry found. -/
theorem remove_of_found (h : ∃ e ∈ es, finds a (key e) = true) :
    ∃ before e after, es = before ++ e :: after ∧ finds a (key e) = true ∧
      remove finds key a es = before ++ after := by
  obtain ⟨e, he, hf⟩ := h
  obtain ⟨e', before, after, _, hf', hes, hrem⟩ :=
    List.exists_of_eraseP (p := fun e => finds a (key e)) he hf
  exact ⟨before, e', after, hes, hf', hrem⟩

section Reflexive

variable (hself : ∀ a, finds a a = true)
include hself

/-- No key is there twice. -/
theorem Ordered.nodup (h : Ordered finds key es) : (es.map key).Nodup := by
  refine List.pairwise_map.mpr (h.imp ?_)
  intro e e' hf hkey
  rw [hkey, hself] at hf
  exact absurd hf (by decide)

/-- A key that is there is the one whose entry is removed: what else it finds comes
later. -/
theorem remove_of_mem (h : Ordered finds key es) (ha : a ∈ es.map key) :
    ∃ before e after, es = before ++ e :: after ∧ key e = a ∧
      remove finds key a es = before ++ after := by
  obtain ⟨own, hown, rfl⟩ := List.mem_map.mp ha
  obtain ⟨e, before, after, hbefore, hf, hes, hrem⟩ :=
    List.exists_of_eraseP (p := fun e => finds (key own) (key e)) hown (hself (key own))
  refine ⟨before, e, after, hes, ?_, hrem⟩
  rw [hes, List.mem_append, List.mem_cons] at hown
  rcases hown with hmem | heq | hmem
  · exact absurd (hself (key own)) (hbefore own hmem)
  · rw [heq]
  · -- an entry before its own would not be found
    rw [hes] at h
    have hlater := List.rel_of_pairwise_cons (List.pairwise_append.mp h).2.1 hmem
    rw [hlater] at hf
    exact absurd hf (by decide)

/-- After the removal of a key it is not there. -/
theorem not_mem_remove (h : Ordered finds key es) : a ∉ (remove finds key a es).map key := by
  by_cases ha : a ∈ es.map key
  · obtain ⟨before, e, after, hes, rfl, hrem⟩ := remove_of_mem hself h ha
    have hnodup := h.nodup hself
    rw [hes, List.map_append, List.map_cons] at hnodup
    rw [hrem, List.map_append]
    exact (List.nodup_middle.mp hnodup).notMem
  · exact fun hmem => ha (List.map_subset key List.eraseP_subset hmem)

/-- Other entries are as they were when a key is removed, if it was there or finds
nothing. -/
theorem filter_remove {q : β → Bool} (h : Ordered finds key es)
    (ha : a ∈ es.map key ∨ ∀ e ∈ es, finds a (key e) = false)
    (hq : ∀ e, key e = a → q e = false) : (remove finds key a es).filter q = es.filter q := by
  rcases ha with hmem | hnone
  · obtain ⟨before, e, after, hes, he, hrem⟩ := remove_of_mem hself h hmem
    rw [hrem, hes, List.filter_append, List.filter_append,
      List.filter_cons_of_neg (by rw [hq e he]; decide)]
  · rw [remove_of_not_found hnone]

end Reflexive

end FirstMatch
