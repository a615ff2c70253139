import WifiGateway.Controller.Host

/-!
# The Controller's memory, host by host

`GwWorld.host w a` reads host `a` out of the Controller's map, its heap and the
firewall: the abstraction function of the simulation. `Controller.WF` is the
memory invariant: the map and the heap are inverse to each other (every pointer
in the map is valid and its record carries the key it is stored under; every
record on the heap is in the map), and no pointer is handed out twice.

`Effect a h w w'` says that getting from `w` to `w'` keeps the invariant, turns
host `a` into `h`, and changes no other host. The primitive memory operations
are shown to have such effects; everything the slots do is put together from
them by `Effect.trans`.
-/

namespace WifiGateway

open Waiting (Code World Oracle)

/-! ## `QMap` -/

theorem QMap.getElem?_insert {α : Type} (m : QMap α) (k a : String) (v : α) :
    (m.insert k v)[a]? = if k = a then some v else m[a]? := by
  rw [Std.TreeMap.getElem?_insert]
  simp only [Std.LawfulEqCmp.compare_eq_iff_eq]

theorem QMap.getElem?_erase {α : Type} (m : QMap α) (k a : String) :
    (m.erase k)[a]? = if k = a then none else m[a]? := by
  rw [Std.TreeMap.getElem?_erase]
  simp only [Std.LawfulEqCmp.compare_eq_iff_eq]

theorem QMap.contains_eq {α : Type} (m : QMap α) (a : String) : m.contains a = m[a]?.isSome :=
  Std.TreeMap.contains_eq_isSome_getElem?

theorem QMap.mem_toList {α : Type} {m : QMap α} {a : String} {v : α} :
    (a, v) ∈ m.toList ↔ m[a]? = some v :=
  Std.TreeMap.mem_toList_iff_getElem?_eq_some

theorem QMap.mem_values {α : Type} {m : QMap α} {v : α} :
    v ∈ m.values ↔ ∃ a : String, m[a]? = some v := by
  unfold QMap.values
  rw [List.mem_map]
  constructor
  · intro hv
    obtain ⟨⟨a, v'⟩, hm, rfl⟩ := hv
    exact ⟨a, QMap.mem_toList.mp hm⟩
  · intro hv
    obtain ⟨a, ha⟩ := hv
    exact ⟨(a, v), QMap.mem_toList.mpr ha, rfl⟩

/-- The key found for a value that is stored under exactly one key. -/
theorem QMap.key_eq {m : QMap Ptr} {a : String} {p : Ptr} (h : m[a]? = some p)
    (huniq : ∀ b : String, m[b]? = some p → b = a) : m.key p = a := by
  unfold QMap.key
  cases hf : m.toList.find? fun e => e.2 == p with
  | none =>
    rw [List.find?_eq_none] at hf
    exact absurd (beq_self_eq_true p) (hf (a, p) (QMap.mem_toList.mpr h))
  | some e =>
    have he : e.2 = p := by simpa using List.find?_some hf
    have hmem : (e.1, e.2) ∈ m.toList := List.mem_of_find?_eq_some hf
    rw [he] at hmem
    exact huniq e.1 (QMap.mem_toList.mp hmem)

/-! ## The memory invariant -/

namespace Controller

/-- The map and the heap are inverse to each other, and pointers from `fresh`
on are unused. -/
structure WF (c : Controller) : Prop where
  stored : ∀ (a : String) p, c.sessions[a]? = some p → ∃ s, c.heap p = some s ∧ s.IP = a
  owned : ∀ p s, c.heap p = some s → c.sessions[s.IP]? = some p
  unused : ∀ p, c.fresh ≤ p → c.heap p = none

theorem wf_init : init.WF := by
  refine ⟨fun a p h => ?_, fun p s h => ?_, fun p _ => rfl⟩
  · exact absurd h (by simp [init])
  · exact absurd h (by simp [init])

variable {c : Controller}

/-- A pointer is stored under one key only. -/
theorem WF.key_unique (h : c.WF) {a b : String} {p : Ptr} (ha : c.sessions[a]? = some p)
    (hb : c.sessions[b]? = some p) : b = a := by
  obtain ⟨s, hs, hsa⟩ := h.stored a p ha
  obtain ⟨s', hs', hsb⟩ := h.stored b p hb
  rw [hs] at hs'
  rw [← hsa, ← hsb, Option.some.inj hs']

/-- The record stored for an IP. -/
def record (c : Controller) (a : String) : Option Session := c.sessions[a]? >>= c.heap

theorem record_none (h : c.sessions[a]? = none) : c.record a = none := by
  simp [record, h]

theorem record_some {a : String} {p : Ptr} (h : c.sessions[a]? = some p) :
    c.record a = c.heap p := by
  simp [record, h]

/-- The record behind a pointer carries the key of the pointer. -/
theorem WF.heap_IP (h : c.WF) {a : String} {p : Ptr} {s : Session}
    (hp : c.sessions[a]? = some p) (hs : c.heap p = some s) : s.IP = a := by
  obtain ⟨s', hs', hIP⟩ := h.stored a p hp
  rw [hs] at hs'
  rw [Option.some.inj hs']
  exact hIP

/-- Without a record there is no pointer. -/
theorem WF.record_eq_none (h : c.WF) {a : String} :
    c.record a = none ↔ c.sessions[a]? = none := by
  constructor
  · intro hr
    cases hs : c.sessions[a]? with
    | none => rfl
    | some p =>
      obtain ⟨s, hp, -⟩ := h.stored a p hs
      rw [record_some hs, hp] at hr
      exact absurd hr (by simp)
  · exact record_none

/-! ### What the primitive operations do to the invariant and the records -/

theorem heap_store (c : Controller) (p q : Ptr) (s : Session) :
    (c.store p s).heap q = if q = p then some s else c.heap q := Function.update_apply ..

theorem heap_insertNew (c : Controller) (a : String) (q : Ptr) :
    (c.insertNew a).heap q = if q = c.fresh then some (c.initSession a) else c.heap q :=
  Function.update_apply ..

theorem heap_free (c : Controller) (p q : Ptr) :
    (c.free p).heap q = if q = p then none else c.heap q := Function.update_apply ..

theorem sessions_insertNew (c : Controller) (a b : String) :
    (c.insertNew a).sessions[b]? = if a = b then some c.fresh else c.sessions[b]? :=
  QMap.getElem?_insert ..

theorem sessions_remove (c : Controller) (a b : String) :
    (c.remove a).sessions[b]? = if a = b then none else c.sessions[b]? := QMap.getElem?_erase ..

/-- A pointer in the map was handed out. -/
theorem WF.ne_fresh (h : c.WF) {a : String} {p : Ptr} (hp : c.sessions[a]? = some p) :
    p ≠ c.fresh := by
  intro e
  obtain ⟨s, hs, -⟩ := h.stored a p hp
  rw [e, h.unused c.fresh (Nat.le_refl _)] at hs
  exact absurd hs (by simp)

theorem record_store {a : String} {p : Ptr} (h : c.WF) (hp : c.sessions[a]? = some p)
    (s : Session) (b : String) :
    (c.store p s).record b = if b = a then some s else c.record b := by
  by_cases hb : b = a
  · subst hb
    rw [if_pos rfl, record_some (c := c.store p s) hp, heap_store, if_pos rfl]
  · rw [if_neg hb]
    cases hq : c.sessions[b]? with
    | none => rw [record_none hq, record_none (c := c.store p s) hq]
    | some q =>
      have hne : q ≠ p := fun e => hb (h.key_unique hp (e ▸ hq))
      rw [record_some hq, record_some (c := c.store p s) hq, heap_store, if_neg hne]

theorem WF.store (h : c.WF) {a : String} {p : Ptr} {s : Session} (hp : c.sessions[a]? = some p)
    (hs : s.IP = a) : (c.store p s).WF := by
  refine ⟨fun b q hq => ?_, fun q s' hq => ?_, fun q hq => ?_⟩
  · rw [heap_store]
    by_cases he : q = p
    · rw [if_pos he]
      exact ⟨s, rfl, hs.trans (h.key_unique (he ▸ hq) hp)⟩
    · rw [if_neg he]
      exact h.stored b q hq
  · rw [heap_store] at hq
    split at hq
    next he =>
      rw [← Option.some.inj hq, hs, he]
      exact hp
    next => exact h.owned q s' hq
  · have hne : q ≠ p := by
      intro e
      obtain ⟨s₀, hs₀, -⟩ := h.stored a p hp
      rw [h.unused p (e ▸ hq)] at hs₀
      exact absurd hs₀ (by simp)
    rw [heap_store, if_neg hne]
    exact h.unused q hq

theorem record_insertNew (h : c.WF) (a b : String) :
    (c.insertNew a).record b = if b = a then some (c.initSession a) else c.record b := by
  by_cases hb : b = a
  · subst hb
    have hp : (c.insertNew b).sessions[b]? = some c.fresh := by rw [sessions_insertNew, if_pos rfl]
    rw [if_pos rfl, record_some hp, heap_insertNew, if_pos rfl]
  · have hsame : (c.insertNew a).sessions[b]? = c.sessions[b]? := by
      rw [sessions_insertNew, if_neg (Ne.symm hb)]
    rw [if_neg hb]
    cases hq : c.sessions[b]? with
    | none => rw [record_none hq, record_none (hsame.trans hq)]
    | some q =>
      rw [record_some hq, record_some (hsame.trans hq), heap_insertNew, if_neg (h.ne_fresh hq)]

theorem WF.insertNew (h : c.WF) {a : String} (ha : c.sessions[a]? = none) :
    (c.insertNew a).WF := by
  refine ⟨fun b q hq => ?_, fun q s hq => ?_, fun q hq => ?_⟩
  · rw [sessions_insertNew] at hq
    rw [heap_insertNew]
    split at hq
    next hab =>
      rw [if_pos (Option.some.inj hq).symm]
      exact ⟨c.initSession a, rfl, hab⟩
    next =>
      rw [if_neg (h.ne_fresh hq)]
      exact h.stored b q hq
  · rw [heap_insertNew] at hq
    rw [sessions_insertNew]
    split at hq
    next he =>
      have hIP : a = s.IP := by rw [← Option.some.inj hq]; rfl
      rw [if_pos hIP, he]
    next =>
      have hold := h.owned q s hq
      have hne : a ≠ s.IP := by
        intro e
        rw [← e, ha] at hold
        exact absurd hold (by simp)
      rw [if_neg hne]
      exact hold
  · have hlt : c.fresh < q := hq
    rw [heap_insertNew, if_neg (Nat.ne_of_gt hlt)]
    exact h.unused q (Nat.le_of_lt hlt)

theorem record_remove (h : c.WF) {a : String} {p : Ptr} (hp : c.sessions[a]? = some p)
    (b : String) :
    ((c.remove a).free p).record b = if b = a then none else c.record b := by
  have hsessions : ((c.remove a).free p).sessions[b]? = if a = b then none else c.sessions[b]? :=
    sessions_remove c a b
  by_cases hb : b = a
  · rw [if_pos hb.symm] at hsessions
    rw [if_pos hb, record_none hsessions]
  · rw [if_neg (Ne.symm hb)] at hsessions
    rw [if_neg hb]
    cases hq : c.sessions[b]? with
    | none => rw [record_none hq, record_none (hsessions.trans hq)]
    | some q =>
      have hne : q ≠ p := fun e => hb (h.key_unique hp (e ▸ hq))
      rw [record_some hq, record_some (hsessions.trans hq), heap_free, if_neg hne]
      rfl

theorem WF.remove (h : c.WF) {a : String} {p : Ptr} (hp : c.sessions[a]? = some p) :
    ((c.remove a).free p).WF := by
  refine ⟨fun b q hq => ?_, fun q s hq => ?_, fun q hq => ?_⟩
  · replace hq : (c.remove a).sessions[b]? = some q := hq
    rw [sessions_remove] at hq
    split at hq
    next => exact absurd hq (by simp)
    next hab =>
      have hne : q ≠ p := fun e => hab (h.key_unique hq (e ▸ hp))
      rw [heap_free, if_neg hne]
      exact h.stored b q hq
  · rw [heap_free] at hq
    split at hq
    next => exact absurd hq (by simp)
    next hne =>
      have hold : c.sessions[s.IP]? = some q := h.owned q s hq
      have hab : a ≠ s.IP := by
        intro e
        rw [← e, hp] at hold
        exact hne (Option.some.inj hold).symm
      show (c.remove a).sessions[s.IP]? = some q
      rw [sessions_remove, if_neg hab]
      exact hold
  · rw [heap_free]
    split
    · rfl
    · exact h.unused q hq

end Controller

/-! ## Hosts of a world, and effects on them -/

/-- Host `a` as the Controller and the firewall have it. -/
def GwWorld.host (w : GwWorld) (a : String) : Host := ⟨w.mem.record a, w.env a⟩

/-- From `w` to `w'` host `a` becomes `h` and no other host changes; `a` keeps
its record's pointer as long as it keeps a record, and gets a new one for a new
record. -/
structure Effect (a : String) (h : Host) (w w' : GwWorld) : Prop where
  wf : w'.mem.WF
  host : w'.host a = h
  others : ∀ b, b ≠ a → w'.host b = w.host b
  otherPtr : ∀ b, b ≠ a → w'.mem.sessions[b]? = w.mem.sessions[b]?
  ptr : ∀ p q, w.mem.sessions[a]? = some p → w'.mem.sessions[a]? = some q → q = p
  newPtr : ∀ q, w.mem.sessions[a]? = none → w'.mem.sessions[a]? = some q → w.mem.fresh ≤ q
  fresh : w.mem.fresh ≤ w'.mem.fresh

namespace Effect

variable {a : String} {h h' : Host} {w w' w'' : GwWorld}

theorem refl (hw : w.mem.WF) : Effect a (w.host a) w w :=
  ⟨hw, rfl, fun _ _ => rfl, fun _ _ => rfl, fun _ _ hp hq => Option.some.inj (hq.symm.trans hp),
    fun _ hn hq => absurd (hn.symm.trans hq) (by simp), Nat.le_refl _⟩

/-- A host that keeps a record keeps its pointer. -/
theorem keeps_ptr (he : Effect a h w w') (hr : h.record ≠ none) {p : Ptr}
    (hp : w.mem.sessions[a]? = some p) : w'.mem.sessions[a]? = some p := by
  have hrec : w'.mem.record a = h.record := congrArg Host.record he.host
  cases hq : w'.mem.sessions[a]? with
  | none =>
    rw [Controller.record_none hq] at hrec
    exact absurd hrec.symm hr
  | some q => rw [he.ptr p q hp hq]

/-- What the pointer of a host that keeps a record points to. -/
theorem heap_eq (he : Effect a h w w') {s : Session} (hr : h.record = some s) {p : Ptr}
    (hp : w.mem.sessions[a]? = some p) : w'.mem.heap p = some s := by
  have hrec : w'.mem.record a = h.record := congrArg Host.record he.host
  rw [Controller.record_some (he.keeps_ptr (by simp [hr]) hp), hr] at hrec
  exact hrec

/-- A host with a stored pointer has a record. -/
theorem record_ne_none (he : Effect a h w w') {p : Ptr} (hp : w'.mem.sessions[a]? = some p) :
    h.record ≠ none := by
  obtain ⟨s, hs, -⟩ := he.wf.stored a p hp
  have hrec : w'.mem.record a = h.record := congrArg Host.record he.host
  rw [← hrec, Controller.record_some hp, hs]
  simp

/-- Effects on one host compose, as long as the record is not gone in between. -/
theorem trans (h₁ : Effect a h w w') (h₂ : Effect a h' w' w'')
    (hr : h.record ≠ none ∨ w.mem.sessions[a]? = none) : Effect a h' w w'' := by
  refine ⟨h₂.wf, h₂.host, fun b hb => (h₂.others b hb).trans (h₁.others b hb),
    fun b hb => (h₂.otherPtr b hb).trans (h₁.otherPtr b hb), fun p q hp hq => ?_,
    fun q hn hq => ?_, Nat.le_trans h₁.fresh h₂.fresh⟩
  · rcases hr with hr | hr
    · exact h₂.ptr p q (h₁.keeps_ptr hr hp) hq
    · rw [hr] at hp
      exact absurd hp (by simp)
  · cases hp : w'.mem.sessions[a]? with
    | none => exact Nat.le_trans h₁.fresh (h₂.newPtr q hp hq)
    | some p =>
      rw [h₂.ptr p q hp hq]
      exact h₁.newPtr p hn hp

/-- The record is overwritten. -/
theorem store (hw : w.mem.WF) {p : Ptr} (hp : w.mem.sessions[a]? = some p) {s : Session}
    (hs : s.IP = a) :
    Effect a ⟨some s, w.env a⟩ w { w with mem := w.mem.store p s } := by
  refine ⟨hw.store hp hs, ?_, fun b hb => ?_, fun _ _ => rfl,
    fun p q hp hq => Option.some.inj (hq.symm.trans hp),
    fun _ hn hq => absurd (hn.symm.trans hq) (by simp), Nat.le_refl _⟩
  · simp only [GwWorld.host, Controller.record_store hw hp, if_true]
  · simp only [GwWorld.host, Controller.record_store hw hp, if_neg hb]

/-- A record is created. -/
theorem insertNew (hw : w.mem.WF) (ha : w.mem.sessions[a]? = none) :
    Effect a ⟨some (w.mem.initSession a), w.env a⟩ w { w with mem := w.mem.insertNew a } := by
  refine ⟨hw.insertNew ha, ?_, fun b hb => ?_, fun b hb => ?_, fun p q hp hq => ?_,
    fun q _ hq => ?_, Nat.le_succ _⟩
  · simp only [GwWorld.host, Controller.record_insertNew hw, if_true]
  · simp only [GwWorld.host, Controller.record_insertNew hw, if_neg hb]
  · show (w.mem.sessions.insert a w.mem.fresh)[b]? = w.mem.sessions[b]?
    rw [QMap.getElem?_insert, if_neg (Ne.symm hb)]
  · rw [ha] at hp
    exact absurd hp (by simp)
  · replace hq : (w.mem.insertNew a).sessions[a]? = some q := hq
    rw [Controller.sessions_insertNew, if_pos rfl] at hq
    exact Nat.le_of_eq (Option.some.inj hq)

/-- The record is removed from the map and deleted. -/
theorem remove (hw : w.mem.WF) {p : Ptr} (hp : w.mem.sessions[a]? = some p) :
    Effect a ⟨none, w.env a⟩ w { w with mem := (w.mem.remove a).free p } := by
  refine ⟨hw.remove hp, ?_, fun b hb => ?_, fun b hb => ?_, fun p' q hp' hq => ?_,
    fun _ hn _ => absurd (hn.symm.trans hp) (by simp), Nat.le_refl _⟩
  · simp only [GwWorld.host, Controller.record_remove hw hp, if_true]
  · simp only [GwWorld.host, Controller.record_remove hw hp, if_neg hb]
  · show (w.mem.sessions.erase a)[b]? = w.mem.sessions[b]?
    rw [QMap.getElem?_erase, if_neg (Ne.symm hb)]
  · have hnone : (w.mem.sessions.erase a)[a]? = none := by rw [QMap.getElem?_erase, if_pos rfl]
    exact absurd (hnone.symm.trans hq) (by simp)

/-- The firewall entry of the host changes. -/
theorem firewall (hw : w.mem.WF) (r : Option HostRule) :
    Effect a ⟨w.mem.record a, r⟩ w { w with env := Function.update w.env a r } := by
  refine ⟨hw, ?_, fun b hb => ?_, fun _ _ => rfl,
    fun p q hp hq => Option.some.inj (hq.symm.trans hp),
    fun _ hn hq => absurd (hn.symm.trans hq) (by simp), Nat.le_refl _⟩
  · simp only [GwWorld.host, Function.update_self]
  · simp only [GwWorld.host, Function.update_of_ne hb]

/-- The record is overwritten and the firewall entry changes. -/
theorem both (hw : w.mem.WF) {p : Ptr} (hp : w.mem.sessions[a]? = some p) {s : Session}
    (hs : s.IP = a) (r : Option HostRule) :
    Effect a ⟨some s, r⟩ w ⟨w.mem.store p s, Function.update w.env a r⟩ := by
  have hfw := Effect.firewall hw (a := a) r
  have hst := Effect.store hfw.wf hp hs
  simp only [Function.update_self] at hst
  obtain ⟨s₀, hs₀, -⟩ := hw.stored a p hp
  exact hfw.trans hst (.inl (by simp [Controller.record_some hp, hs₀]))

/-- A signal is emitted. -/
theorem emitted (h₁ : Effect a h w w') (l : List Signal) :
    Effect a h w { w' with mem := { w'.mem with emitted := l } } :=
  ⟨⟨h₁.wf.stored, h₁.wf.owned, h₁.wf.unused⟩, h₁.host, h₁.others, h₁.otherPtr, h₁.ptr,
    h₁.newPtr, h₁.fresh⟩

end Effect

end WifiGateway
