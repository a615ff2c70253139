import WifiGateway.Controller.Budget
import WifiGateway.Controller.Edits

/-!
# The session time

`sessionTime` is to be the overall time in the STARTED state. `tick` adds one to it when
it finds the record STARTED, and when it finds it EXHAUSTED as well (`step_sessionTime`),
whatever its commands return. Over the life of a record it is therefore the number of
those ticks, modulo 2³² (`Linked.sessionTime`), and the number of STARTED ticks only as
long as no tick finds the record EXHAUSTED (`session_time_iff`).

The same holds of the sum of the session time and the time that remains, for a record
with a time limit that no call sets: a STARTED tick moves one unit from one to the other,
an EXHAUSTED tick only adds one.
-/

namespace WifiGateway

open Waiting (Code Oracle)

namespace Host

variable {a : String} {s s' s₀ : Session} {h : Host} {o : Outcomes} {c : Call}

/-- What a call does to the session time. -/
theorem step_sessionTime (hr : h.record = some s)
    (hr' : (step a s₀ o h c).host.record = some s') :
    s'.sessionTime = if c = .tick ∧ (s.state = .started ∨ s.state = .exhausted)
      then s.sessionTime + 1 else s.sessionTime := by
  rw [(step_turned hr hr').sessionTime]
  by_cases hc : c = .tick
  · subst hc
    show (editOf s .tick).sessionTime = _
    unfold editOf
    cases hst : s.state with
    | started | exhausted => rfl
    | paused =>
      dsimp only
      split
      · rfl
      · rfl
    | ended | uninitialized => rfl
  · rw [(editAt_times hc).1, if_neg fun hx => hc hx.1]

/-- What a call other than `setTime` does to the time that remains. -/
theorem step_timeRemaining (hr : h.record = some s)
    (hr' : (step a s₀ o h c).host.record = some s') (hset : ∀ time, c ≠ .setTime a time) :
    s'.timeRemaining = if c = .tick ∧ s.state = .started ∧ s.timeRemaining > 0
      then s.timeRemaining - 1 else s.timeRemaining := by
  rw [(step_turned hr hr').timeRemaining]
  by_cases hc : c = .tick
  · subst hc
    show (editOf s .tick).timeRemaining = _
    unfold editOf
    cases hst : s.state with
    | started =>
      simp only [true_and]
      rfl
    | paused =>
      dsimp only
      split
      · rfl
      · rfl
    | exhausted | ended | uninitialized => rfl
  · rw [(editAt_times hc).2 hset, if_neg fun hx => hc hx.1]

/-- A tick removes only ENDED records. -/
theorem tick_keeps (hr : h.record = some s) (hst : s.state ≠ .ended) :
    ∃ s', (tick a o h).host.record = some s' := by
  unfold tick
  rw [hr]
  dsimp only
  unfold tickRecord
  dsimp only
  cases hcase : s.state with
  | started =>
    obtain ⟨s₁, hr₁⟩ := (@exhaustIf_turn a (countStarted s)
      { h with record := some (countStarted s) } o.remove).record rfl
    obtain ⟨s₂, hr₂⟩ := (@finishAt_turn a _ o.removeUpdate
      (countStarted s).updateTimeRemaining).record hr₁
    exact finishAt_turn.record hr₂
  | exhausted =>
    obtain ⟨s₂, hr₂⟩ := (@finishAt_turn a { h with record := some (countExhausted s) }
      o.removeUpdate (countExhausted s).updateTimeRemaining).record rfl
    exact finishAt_turn.record hr₂
  | paused =>
    dsimp only
    split
    · exact play_turn.record rfl
    · exact ⟨_, rfl⟩
  | ended => exact absurd hcase hst
  | uninitialized => exact ⟨s, hr⟩

/-- A record that is STARTED after a call has time left if it had when it was STARTED before,
no removal refused. -/
theorem step_started_time (hr : h.record = some s)
    (hr' : (step a s₀ o h c).host.record = some s')
    (hok : RemovalsSucceed (step a s₀ o h c).issued) (hset : ∀ time, c ≠ .setTime a time)
    (htime : s.state = .started → s.timeRemaining ≠ 0) (hst : s'.state = .started) :
    s'.timeRemaining ≠ 0 := by
  by_cases hc : c.setsLimits a = false
  · have hsp := step_spends hr hr' hok hc
    rcases hsp.started hst with hx | ⟨hne, hst⟩
    · exact (isExhausted_eq_false.mp hx).1
    · rw [step_timeRemaining hr hr' hset, if_neg fun hx => hne hx.1]
      exact htime hst
  · -- `setQuota`, which pauses and plays
    cases c with
    | setQuota IP quota =>
      obtain rfl : IP = a := by simpa [Call.setsLimits] using hc
      have hrec : (relimit IP (fun s => { s with quotaRemaining := quota }) o h).host.record =
          some s' := by
        simpa [step, Call.names, serve] using hr'
      have hu := relimit_unspent hr hrec
      rcases hu.started hst with hst | hx
      · rw [hu.time]
        exact htime hst
      · exact (isExhausted_eq_false.mp hx).1
    | setTime IP time =>
      obtain rfl : IP = a := by simpa [Call.setsLimits] using hc
      exact absurd rfl (hset time)
    | _ => exact absurd rfl hc

end Host

/-! ## Ticks of a record -/

namespace Moment

variable {a : String} {m : Moment} {s s' : Session}

/-- The record of `a` is EXHAUSTED when the call is made, and the call is a tick. -/
def isExhaustedTick (a : String) (m : Moment) : Bool :=
  m.call == .tick && (m.before.mem.record a).any fun s => s.state == .exhausted

theorem isStartedTick_iff (hr : m.before.mem.record a = some s) :
    m.isStartedTick a = true ↔ m.call = .tick ∧ s.state = .started := by
  simp [isStartedTick, hr]

theorem isExhaustedTick_iff (hr : m.before.mem.record a = some s) :
    m.isExhaustedTick a = true ↔ m.call = .tick ∧ s.state = .exhausted := by
  simp [isExhaustedTick, hr]

/-- A tick cannot find the record in both states. -/
theorem not_isStartedTick (hx : m.isExhaustedTick a = true) : m.isStartedTick a = false := by
  cases hr : m.before.mem.record a with
  | none => simp [isStartedTick, hr]
  | some s =>
    apply Bool.eq_false_iff.mpr
    intro hs
    have hst := ((isStartedTick_iff hr).mp hs).2
    exact absurd (hst.symm.trans ((isExhaustedTick_iff hr).mp hx).2) (by decide)

/-- Both kinds of ticks leave the record where it is. -/
theorem Acts.ticked_stays (hm : m.Acts) (hr : m.before.mem.record a = some s)
    (ht : m.isStartedTick a = true ∨ m.isExhaustedTick a = true) :
    ∃ s', m.after.mem.record a = some s' := by
  rw [isStartedTick_iff hr, isExhaustedTick_iff hr] at ht
  have hc : m.call = .tick := by
    rcases ht with ht | ht
    · exact ht.1
    · exact ht.1
  have hst : s.state ≠ .ended := by
    rcases ht with ht | ht
    · simp [ht.2]
    · simp [ht.2]
  obtain ⟨x, hhost, -⟩ := hm.host a
  rw [hc] at hhost
  obtain ⟨s', hs'⟩ := Host.tick_keeps (a := a) (o := x) (h := m.before.host a) hr hst
  exact ⟨s', (congrArg Host.record hhost).trans hs'⟩

/-- The session time counts both. -/
theorem Acts.sessionTime (hm : m.Acts) (hr : m.before.mem.record a = some s)
    (hr' : m.after.mem.record a = some s') :
    s'.sessionTime = if m.isStartedTick a = true ∨ m.isExhaustedTick a = true
      then s.sessionTime + 1 else s.sessionTime := by
  obtain ⟨x, hhost, -⟩ := hm.host a
  have hstep := Host.step_sessionTime (h := m.before.host a) hr
    ((congrArg Host.record hhost).symm.trans hr')
  rw [hstep]
  simp only [isStartedTick_iff hr, isExhaustedTick_iff hr, and_or_left]

end Moment

/-! ## The life of a record -/

section Life

variable {w : GwWorld} {life : List Moment} {a : String} {s s₀ : Session}

/-- At the end of a part of its life the record is there, or the last moment removed it. -/
theorem Linked.life_end (h : Linked w life) (hs : w.mem.record a = some s₀)
    (hpresent : ∀ m ∈ life, m.before.mem.record a ≠ none) :
    (∃ s, (lastWorld w life).mem.record a = some s) ∨
      ∃ xs m, life = xs ++ [m] ∧ m.after.mem.record a = none := by
  induction life generalizing w s₀ with
  | nil => exact .inl ⟨s₀, hs⟩
  | cons m rest ih =>
    obtain ⟨rfl, -, hrest⟩ := h
    have hpresent' := fun m' hm' => hpresent m' (List.mem_cons_of_mem m hm')
    cases hr' : m.after.mem.record a with
    | none =>
      obtain rfl : rest = [] := hrest.nil_of_absent hr' hpresent'
      exact .inr ⟨[], m, rfl, hr'⟩
    | some s' =>
      rcases ih hrest hr' hpresent' with hin | ⟨xs, m', rfl, hnone⟩
      · exact .inl hin
      · exact .inr ⟨m :: xs, m', rfl, hnone⟩

/-- One tick more. -/
theorem add_one_add_ofNat (t : UInt32) (n : Nat) :
    t + 1 + UInt32.ofNat n = t + UInt32.ofNat (n + 1) := by
  rw [UInt32.ofNat_add, UInt32.add_assoc, UInt32.add_comm 1]
  rfl

/-- The session time after part of the life of a record, modulo 2³². -/
theorem Linked.sessionTime (h : Linked w life) (hs : w.mem.record a = some s₀)
    (hpresent : ∀ m ∈ life, m.before.mem.record a ≠ none)
    (hr : (lastWorld w life).mem.record a = some s) :
    s.sessionTime = s₀.sessionTime + UInt32.ofNat (life.countP (Moment.isStartedTick a) +
      life.countP (Moment.isExhaustedTick a)) := by
  induction life generalizing w s₀ with
  | nil =>
    obtain rfl := Option.some.inj (hs.symm.trans hr)
    exact (UInt32.add_zero _).symm
  | cons m rest ih =>
    obtain ⟨rfl, hacts, hrest⟩ := h
    have hpresent' := fun m' hm' => hpresent m' (List.mem_cons_of_mem m hm')
    cases hr' : m.after.mem.record a with
    | none =>
      obtain rfl : rest = [] := hrest.nil_of_absent hr' hpresent'
      exact absurd (hr'.symm.trans hr) (by simp)
    | some s' =>
      rw [ih hrest hr' hpresent' hr, hacts.sessionTime hs hr', List.countP_cons, List.countP_cons]
      by_cases hx : m.isExhaustedTick a = true
      · rw [if_pos (.inr hx), if_pos hx, Moment.not_isStartedTick hx, if_neg (by simp),
          add_one_add_ofNat, Nat.add_assoc]
        rfl
      · by_cases hst : m.isStartedTick a = true
        · rw [if_pos (.inl hst), if_pos hst, if_neg hx, add_one_add_ofNat, Nat.add_right_comm]
          rfl
        · rw [if_neg (by simp [hx, hst]), if_neg hx, if_neg hst, Nat.add_zero, Nat.add_zero]

/-- The record after each part of a life. -/
def After (w : GwWorld) (life : List Moment) (a : String) (P : List Moment → Session → Prop) :
    Prop :=
  ∀ xs ys, life = xs ++ ys → ∀ s, (lastWorld w xs).mem.record a = some s → P xs s

/-- An EXHAUSTED tick takes the session time one further, and nothing else. -/
theorem Linked.exhausted_tick (h : Linked w life)
    (hpresent : ∀ m ∈ life, m.before.mem.record a ≠ none) {m : Moment} (hm : m ∈ life)
    (hx : m.isExhaustedTick a = true) :
    ∃ xs ys s s', life = xs ++ [m] ++ ys ∧
      (lastWorld w xs).mem.record a = some s ∧ (lastWorld w (xs ++ [m])).mem.record a = some s' ∧
      s'.sessionTime = s.sessionTime + 1 ∧ s'.timeRemaining = s.timeRemaining := by
  obtain ⟨xs, ys, rfl⟩ := List.append_of_mem hm
  obtain ⟨hbefore, hacts, -⟩ := h.append.2
  obtain ⟨s, hr⟩ := Option.ne_none_iff_exists'.mp (hpresent m hm)
  obtain ⟨s', hr'⟩ := hacts.ticked_stays hr (.inr hx)
  have hlast : lastWorld w (xs ++ [m]) = m.after := lastWorld_append w xs [m]
  refine ⟨xs, ys, s, s', by simp, hbefore ▸ hr, hlast ▸ hr', ?_, ?_⟩
  · rw [hacts.sessionTime hr hr', if_pos (.inr hx)]
  · obtain ⟨hc, hst⟩ := (Moment.isExhaustedTick_iff hr).mp hx
    obtain ⟨x, hhost, -⟩ := hacts.host a
    rw [Host.step_timeRemaining (h := m.before.host a) hr
      ((congrArg Host.record hhost).symm.trans hr') (by simp [hc]), if_neg (by simp [hst])]

theorem add_one_toNat_ne (t : UInt32) : (t + 1).toNat ≠ t.toNat := by
  intro he
  have hne : t + 1 = t := UInt32.toNat_inj.mp he
  have hone : (1 : UInt32) = 0 := by
    have hsub : t + 1 - t = t - t := congrArg (· - t) hne
    rw [UInt32.sub_self, UInt32.add_comm, UInt32.add_sub_cancel] at hsub
    exact hsub
  exact absurd hone (by decide)

/-- From a record with session time 0 on: it counts the STARTED ticks as long as no tick
finds the record EXHAUSTED, and they are no more than 32 bits can count. -/
theorem Linked.counts_iff (h : Linked w life) (hs : w.mem.record a = some s₀)
    (hpresent : ∀ m ∈ life, m.before.mem.record a ≠ none) (h0 : s₀.sessionTime = 0) :
    After w life a (fun xs s => s.sessionTime.toNat = xs.countP (Moment.isStartedTick a)) ↔
      (∀ m ∈ life, m.isExhaustedTick a = false) ∧
        life.countP (Moment.isStartedTick a) < UInt32.size := by
  constructor
  · intro hafter
    constructor
    · intro m hm
      apply Bool.eq_false_iff.mpr
      intro hx
      obtain ⟨xs, ys, s, s', hlife, hr, hr', htime, -⟩ := h.exhausted_tick hpresent hm hx
      have h₁ := hafter xs ([m] ++ ys) (by rw [hlife, List.append_assoc]) s hr
      have h₂ := hafter (xs ++ [m]) ys hlife s' hr'
      dsimp only at h₂
      rw [List.countP_append, List.countP_singleton, Moment.not_isStartedTick hx, htime] at h₂
      exact add_one_toNat_ne s.sessionTime (h₂.trans h₁.symm)
    · rcases h.life_end hs hpresent with ⟨s, hr⟩ | ⟨xs, m, rfl, hnone⟩
      · rw [← hafter life [] (by simp) s hr]
        exact s.sessionTime.toNat_lt
      · -- the moment that removed the record was not a STARTED tick
        obtain ⟨s, hr⟩ := Option.ne_none_iff_exists'.mp (hpresent m (by simp))
        obtain ⟨hbefore, hacts, -⟩ := h.append.2
        have hno : ¬ m.isStartedTick a = true := by
          intro hst
          obtain ⟨s', hr'⟩ := hacts.ticked_stays hr (.inl hst)
          exact absurd (hnone.symm.trans hr') (by simp)
        rw [List.countP_append, List.countP_singleton, if_neg hno, Nat.add_zero,
          ← hafter xs [m] rfl s (hbefore ▸ hr)]
        exact s.sessionTime.toNat_lt
  · rintro ⟨hx, hsize⟩ xs ys rfl s hr
    have hzero : xs.countP (Moment.isExhaustedTick a) = 0 := by
      apply List.countP_eq_zero.mpr
      intro m hm
      simp [hx m (List.mem_append_left ys hm)]
    rw [h.append.1.sessionTime hs (fun m hm => hpresent m (List.mem_append_left ys hm)) hr, h0,
      hzero, Nat.add_zero, UInt32.zero_add]
    apply UInt32.toNat_ofNat_of_lt'
    rw [List.countP_append] at hsize
    exact Nat.lt_of_le_of_lt (Nat.le_add_right _ _) hsize

/-- The time that is used and the time that is left add up to `n`, and there is some left
while the session is STARTED. -/
structure Shares (n : Int) (s : Session) : Prop where
  sum : s.sessionTime.toNat + s.timeRemaining.toInt = n
  nonneg : 0 ≤ s.timeRemaining
  started : s.state = .started → s.timeRemaining ≠ 0

/-- A call that does not set the time, no removal refused. -/
theorem Moment.Acts.shares {m : Moment} {s' : Session} {n : Int} (hn : n < 2147483648)
    (hm : m.Acts) (hset : ∀ time, m.call ≠ .setTime a time) (hok : Host.RemovalsSucceed m.issued)
    (hx : m.isExhaustedTick a = false) (hr : m.before.mem.record a = some s)
    (hr' : m.after.mem.record a = some s') (hi : Shares n s) : Shares n s' := by
  obtain ⟨x, hhost, hissued⟩ := hm.host a
  have hrec := (congrArg Host.record hhost).symm.trans hr'
  have htime := Host.step_timeRemaining (h := m.before.host a) hr hrec hset
  have hstarted := Host.step_started_time (h := m.before.host a) hr hrec (hok.subset hissued) hset
    hi.started
  have hsession := hm.sessionTime hr hr'
  rw [hx] at hsession
  by_cases ht : m.call = .tick ∧ s.state = .started
  · -- one unit moves from the time left to the session time
    have hpos : s.timeRemaining > 0 := Int32.lt_of_le_of_ne hi.nonneg (Ne.symm (hi.started ht.2))
    rw [if_pos ⟨ht.1, ht.2, hpos⟩] at htime
    rw [if_pos (.inl ((Moment.isStartedTick_iff hr).mpr ht))] at hsession
    refine ⟨?_, htime ▸ pred_nonneg hpos, hstarted⟩
    have hpos' : (0 : Int) < s.timeRemaining.toInt := Int32.lt_iff_toInt_lt.mp hpos
    have hsum := hi.sum
    have hnat : s'.sessionTime.toNat = s.sessionTime.toNat + 1 := by
      rw [hsession, UInt32.toNat_add]
      exact Nat.mod_eq_of_lt (show s.sessionTime.toNat + 1 < 2 ^ 32 by omega)
    rw [hnat, htime, pred_toInt hpos]
    omega
  · rw [if_neg fun hand => ht ⟨hand.1, hand.2.1⟩] at htime
    rw [if_neg (by simpa [Moment.isStartedTick_iff hr] using ht)] at hsession
    refine ⟨?_, htime ▸ hi.nonneg, hstarted⟩
    rw [hsession, htime]
    exact hi.sum

/-- From a record with session time 0 and a time limit on, that no call sets, and no removal
refused: the two add up to the limit as long as no tick finds the record EXHAUSTED. -/
theorem Linked.shares_iff (h : Linked w life) (hs : w.mem.record a = some s₀)
    (hpresent : ∀ m ∈ life, m.before.mem.record a ≠ none) (h0 : s₀.sessionTime = 0)
    (hpos : 0 < s₀.timeRemaining)
    (hset : ∀ m ∈ life, ∀ time, m.call ≠ .setTime a time)
    (hok : ∀ m ∈ life, Host.RemovalsSucceed m.issued) :
    After w life a (fun _ s => (s.sessionTime.toNat : Int) + s.timeRemaining.toInt =
        s₀.timeRemaining.toInt) ↔
      ∀ m ∈ life, m.isExhaustedTick a = false := by
  constructor
  · intro hafter m hm
    apply Bool.eq_false_iff.mpr
    intro hx
    obtain ⟨xs, ys, s, s', hlife, hr, hr', hsession, htime⟩ := h.exhausted_tick hpresent hm hx
    have h₁ := hafter xs ([m] ++ ys) (by rw [hlife, List.append_assoc]) s hr
    have h₂ := hafter (xs ++ [m]) ys hlife s' hr'
    dsimp only at h₁ h₂
    rw [hsession, htime] at h₂
    have hne := add_one_toNat_ne s.sessionTime
    omega
  · rintro hx xs ys rfl s hr
    have hinit : ∀ s, w.mem.record a = some s → Shares s₀.timeRemaining.toInt s := by
      intro s hs'
      obtain rfl := Option.some.inj (hs.symm.trans hs')
      refine ⟨by simp [h0], Int32.le_of_lt hpos, fun _ hz => ?_⟩
      rw [hz] at hpos
      exact absurd hpos Int32.lt_irrefl
    have hlimit : s₀.timeRemaining.toInt < 2147483648 := Int32.toInt_lt s₀.timeRemaining
    have hinv := (h.append.1.invariant
      (I := fun w => ∀ s, w.mem.record a = some s → Shares s₀.timeRemaining.toInt s) hinit
      fun m hm hacts hbefore s' hr' => by
        have hmem := List.mem_append_left ys hm
        obtain ⟨s, hr⟩ := Option.ne_none_iff_exists'.mp (hpresent m hmem)
        exact hacts.shares hlimit (hset m hmem) (hok m hmem) (hx m hmem) hr hr'
          (hbefore s hr)).2
    exact (hinv s hr).sum

end Life

/-- A new record has no session time. -/
theorem Lifetime.sessionTime {a : String} {s₀ : Session} {creation : Moment}
    {life : List Moment} (hl : Lifetime a s₀ creation life) (hacts : creation.Acts) :
    s₀.sessionTime = 0 := by
  obtain ⟨x, hhost, -⟩ := hacts.host a
  have hturned := Host.step_created_turned (h := creation.before.host a) hl.absent
    ((congrArg Host.record hhost).symm.trans hl.created)
  exact hturned.sessionTime

/-- The life of a record in any history, from its creation as `s₀` on, whatever the commands
return. The session time is the number of STARTED ticks after every call, if and only if no
tick finds the record EXHAUSTED (and they are fewer than 2³²). With a time limit that no
call sets, no removal refused, what is used and what is left add up to it after every call,
if and only if no tick finds the record EXHAUSTED. -/
theorem session_time_iff {sched : Schedule} {pre life post : List Moment} {creation : Moment}
    (hms : execute GwWorld.init sched = some (pre ++ creation :: life ++ post)) {a : String}
    {s₀ : Session} (hlife : Lifetime a s₀ creation life) :
    (After creation.after life a
        (fun xs s => s.sessionTime.toNat = xs.countP (Moment.isStartedTick a)) ↔
      (∀ m ∈ life, m.isExhaustedTick a = false) ∧
        life.countP (Moment.isStartedTick a) < UInt32.size) ∧
    (0 < s₀.timeRemaining → (∀ m ∈ life, ∀ time, m.call ≠ .setTime a time) →
      (∀ m ∈ life, Host.RemovalsSucceed m.issued) →
      (After creation.after life a (fun _ s => (s.sessionTime.toNat : Int) +
          s.timeRemaining.toInt = s₀.timeRemaining.toInt) ↔
        ∀ m ∈ life, m.isExhaustedTick a = false)) := by
  have hlinked := linked_of_execute (w := GwWorld.init) Controller.wf_init hms
  rw [List.append_assoc] at hlinked
  obtain ⟨-, hcreation, hpost⟩ := hlinked.append.2
  have hl : Linked creation.after life := hpost.append.1
  have h0 := hlife.sessionTime hcreation
  exact ⟨hl.counts_iff hlife.created hlife.present h0,
    fun hpos hset hok => hl.shares_iff hlife.created hlife.present h0 hpos hset hok⟩

/-- The record of `budgetSchedule`, with 2 units of time, up to the tick that exhausts it. -/
theorem session_time_two_units :
    After ((budgetMoments.drop 1).head (by decide)).after ((budgetMoments.drop 2).take 5)
        "10.0.0.7" (fun xs s => s.sessionTime.toNat =
          xs.countP (Moment.isStartedTick "10.0.0.7")) ∧
      After ((budgetMoments.drop 1).head (by decide)).after ((budgetMoments.drop 2).take 5)
        "10.0.0.7" (fun _ s => (s.sessionTime.toNat : Int) + s.timeRemaining.toInt = 2) := by
  have hlife : Lifetime "10.0.0.7"
      ⟨"10.0.0.7", "", .uninitialized, 1000, 2, -1, 60, 60, 60, 3600, 0⟩
      ((budgetMoments.drop 1).head (by decide)) ((budgetMoments.drop 2).take 5) :=
    ⟨by decide, by decide, by decide⟩
  have hx : ∀ m ∈ (budgetMoments.drop 2).take 5, m.isExhaustedTick "10.0.0.7" = false := by decide
  have hkeeps : ∀ m ∈ (budgetMoments.drop 2).take 5, m.Keeps "10.0.0.7" := by decide
  obtain ⟨hcounts, hshares⟩ := @session_time_iff budgetSchedule (budgetMoments.take 1) _
    (budgetMoments.drop 7) _ rfl _ _ hlife
  refine ⟨hcounts.mpr ⟨hx, by decide⟩, (hshares (by decide) (fun m hm time hc => ?_)
    fun m hm => (hkeeps m hm).removals).mpr hx⟩
  have hlimits := (hkeeps m hm).limits
  rw [hc] at hlimits
  exact absurd hlimits (by simp [Call.setsLimits])

/-- The tick after it finds the record EXHAUSTED: 2 STARTED ticks, and a session time of 3
with no time left of the 2 units. -/
theorem session_time_exhausted :
    execute GwWorld.init budgetSchedule = some budgetMoments ∧
    ((lastWorld GwWorld.init (budgetMoments.take 2)).mem.record "10.0.0.7").map
        Session.timeRemaining = some 2 ∧
    (∀ m ∈ budgetMoments.drop 2, m.Keeps "10.0.0.7") ∧
    (budgetMoments.drop 2).countP (Moment.isStartedTick "10.0.0.7") = 2 ∧
    ((lastWorld GwWorld.init budgetMoments).mem.record "10.0.0.7").map
      (fun s => (s.sessionTime, s.timeRemaining)) = some (3, 0) :=
  ⟨rfl, by decide, by decide, by decide, by decide⟩

end WifiGateway
