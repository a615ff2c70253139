import Mathlib.Data.Nat.Notation

/-!
# Registration on the bus

The constructor of `ControllerDBusAdaptor` registers a service name and then an object,
each with a loop that tries again after a failure. `bus i` is what attempt `i` of the
one that the loop makes gives; the sequence is infinite, since it is the loop that decides
how many are made.

The condition of the loop, `!bus.register… && retries++ < DBUS_RETRIES`, counts a retry
only after a failure, and it counts the one that is not made as well. `retries` is an
`int`, and a natural number here: the loop ends before it is more than one above the limit.
-/

namespace WifiGateway.Api

/-- `dbus.h`. -/
def DBUS_RETRIES : ℕ := 5

/-- The end of the loop: the counter, and how many attempts were made. -/
structure Attempts where
  retries : ℕ
  made : ℕ
  deriving DecidableEq, Repr

/-- `while(!bus.register… && retries++ < limit)`, after `made` attempts. -/
def tryRegister (limit : ℕ) (bus : ℕ → Bool) (retries made : ℕ) : Attempts :=
  -- a success ends the loop before the counter is looked at
  if bus made then ⟨retries, made + 1⟩
  else if retries < limit then tryRegister limit bus (retries + 1) (made + 1)
  else ⟨retries + 1, made + 1⟩
  termination_by limit - retries

/-- What a registration does: how many attempts, and what it returns. -/
structure Registration where
  made : ℕ
  returned : Bool
  deriving DecidableEq, Repr

/-- Common to `registerService` and `registerObject`: the loop from 0 retries on, and
`return (retries<limit)`. -/
def register (limit : ℕ) (bus : ℕ → Bool) : Registration :=
  let ended := tryRegister limit bus 0 0
  ⟨ended.made, decide (ended.retries < limit)⟩

/-- `ControllerDBusAdaptor::registerService`; `bus` is `bus.registerService(DBUS_SERVICE)`. -/
def registerService (limit : ℕ) (bus : ℕ → Bool) : Registration := register limit bus

/-- `ControllerDBusAdaptor::registerObject`; `bus` is
`bus.registerObject(DBUS_OBJECT_PATH, controller)`. -/
def registerObject (limit : ℕ) (bus : ℕ → Bool) : Registration := register limit bus

/-- The constructor: what it throws, if it does. -/
def construct (isConnected : Bool) (service object : ℕ → Bool) : Except String Unit :=
  if isConnected = false then .error "No DBUS"
  else if (registerService DBUS_RETRIES service).returned = false then
    .error "DBUS service registration failed"
  else if (registerObject DBUS_RETRIES object).returned = false then
    .error "DBUS object registration failed"
  else .ok ()

/-! ## How the loop ends -/

section Loop

variable {limit k : ℕ} {bus : ℕ → Bool}

/-- The first success is attempt `n`, counted from 0. -/
structure FirstSuccess (bus : ℕ → Bool) (n : ℕ) : Prop where
  success : bus n = true
  before : ∀ i < n, bus i = false

/-- Two ways out of the loop: the first success within `limit + 1` attempts, or that many
failures. -/
def Ends (limit : ℕ) (bus : ℕ → Bool) (ended : Attempts) : Prop :=
  (∃ n ≤ limit, FirstSuccess bus n ∧ ended = ⟨n, n + 1⟩) ∨
    ((∀ i ≤ limit, bus i = false) ∧ ended = ⟨limit + 1, limit + 1⟩)

/-- Until it ends, the loop has made one attempt for each retry it counted, and all of
them failed. -/
theorem tryRegister_ends (hk : k ≤ limit) (hfailed : ∀ i < k, bus i = false) :
    Ends limit bus (tryRegister limit bus k k) := by
  induction hrest : limit - k generalizing k with
  | zero =>
    obtain rfl : k = limit := by omega
    rw [tryRegister, if_neg (Nat.lt_irrefl k)]
    split
    · next hs => exact .inl ⟨k, hk, ⟨hs, hfailed⟩, rfl⟩
    · next hs =>
      refine .inr ⟨fun i hi => ?_, rfl⟩
      rcases Nat.lt_or_eq_of_le hi with hlt | rfl
      · exact hfailed i hlt
      · exact Bool.eq_false_iff.mpr hs
  | succ rest ih =>
    have hlt : k < limit := by omega
    rw [tryRegister, if_pos hlt]
    split
    · next hs => exact .inl ⟨k, hk, ⟨hs, hfailed⟩, rfl⟩
    · next hs =>
      refine ih hlt (fun i hi => ?_) (by omega)
      rcases Nat.lt_succ_iff_lt_or_eq.mp hi with hlt | rfl
      · exact hfailed i hlt
      · exact Bool.eq_false_iff.mpr hs

theorem tryRegister_cases (limit : ℕ) (bus : ℕ → Bool) :
    Ends limit bus (tryRegister limit bus 0 0) :=
  tryRegister_ends (Nat.zero_le limit) fun i hi => absurd hi (Nat.not_lt_zero i)

/-- A sequence of attempts has one first success. -/
theorem FirstSuccess.unique {n m : ℕ} (hn : FirstSuccess bus n) (hm : FirstSuccess bus m) :
    n = m := by
  rcases Nat.lt_trichotomy n m with hlt | heq | hgt
  · exact absurd ((hm.before n hlt).symm.trans hn.success) (by simp)
  · exact heq
  · exact absurd ((hn.before m hgt).symm.trans hm.success) (by simp)

end Loop

/-! ## What a registration returns -/

/-- What a registration promises: it returns true if and only if one of its attempts
succeeded, it makes at most `limit + 1` of them, and none after a success. -/
structure Registers (limit : ℕ) (bus : ℕ → Bool) (r : Registration) : Prop where
  returned : r.returned = true ↔ ∃ i < r.made, bus i = true
  bounded : r.made ≤ limit + 1
  stops : ∀ i j, i < j → j < r.made → bus i = false

/-- The attempts are as promised in any case. The value is wrong when the first success is
the last attempt there is: the counter is then at the limit, as it would be had it failed
one attempt earlier. -/
theorem register_iff (limit : ℕ) (bus : ℕ → Bool) :
    Registers limit bus (register limit bus) ↔ ¬ FirstSuccess bus limit := by
  rcases tryRegister_cases limit bus with ⟨n, hn, h, hended⟩ | ⟨h, hended⟩
  · have hreg : register limit bus = ⟨n + 1, decide (n < limit)⟩ := by simp only [register, hended]
    rw [hreg]
    constructor
    · intro hr hlimit
      obtain rfl := h.unique hlimit
      have htrue := hr.returned.mpr ⟨n, Nat.lt_succ_self n, h.success⟩
      exact absurd (of_decide_eq_true htrue) (Nat.lt_irrefl n)
    · intro hne
      have hlt : n < limit := by
        rcases Nat.lt_or_eq_of_le hn with hlt | rfl
        · exact hlt
        · exact absurd h hne
      refine ⟨?_, Nat.succ_le_succ hn, fun i j hij hj => h.before i ?_⟩
      · exact iff_of_true (decide_eq_true hlt) ⟨n, Nat.lt_succ_self n, h.success⟩
      · exact Nat.lt_of_lt_of_le hij (Nat.lt_succ_iff.mp hj)
  · have hreg : register limit bus = ⟨limit + 1, decide (limit + 1 < limit)⟩ := by
      simp only [register, hended]
    have hno : ¬ ∃ i < limit + 1, bus i = true := by
      rintro ⟨i, hi, hs⟩
      exact absurd ((h i (Nat.lt_succ_iff.mp hi)).symm.trans hs) (by simp)
    rw [hreg]
    constructor
    · exact fun _ hlimit => hno ⟨limit, Nat.lt_succ_self limit, hlimit.success⟩
    · intro _
      refine ⟨iff_of_false (by simp) hno, Nat.le_refl _, fun i j hij hj => h i ?_⟩
      exact Nat.le_of_lt_succ (Nat.lt_trans hij hj)

/-- Both registrations keep their promise exactly on the sequences of attempts whose first
success is not attempt `limit + 1`. -/
theorem registrations_iff (limit : ℕ) (bus : ℕ → Bool) :
    (Registers limit bus (registerService limit bus) ↔ ¬ FirstSuccess bus limit) ∧
      (Registers limit bus (registerObject limit bus) ↔ ¬ FirstSuccess bus limit) :=
  ⟨register_iff limit bus, register_iff limit bus⟩

/-- Five failures, then a success: the name is registered, and the registration fails. -/
theorem registered_on_last_attempt :
    (registerService DBUS_RETRIES fun i => i == 5) = ⟨6, false⟩ ∧
      ¬ Registers DBUS_RETRIES (fun i => i == 5)
        (registerService DBUS_RETRIES fun i => i == 5) ∧
      ¬ Registers DBUS_RETRIES (fun i => i == 5)
        (registerObject DBUS_RETRIES fun i => i == 5) := by
  have hfirst : FirstSuccess (fun i => i == 5) DBUS_RETRIES :=
    ⟨rfl, fun i hi => beq_eq_false_iff_ne.mpr (Nat.ne_of_lt hi)⟩
  refine ⟨?_, fun h => (register_iff _ _).mp h hfirst, fun h => (register_iff _ _).mp h hfirst⟩
  unfold registerService register
  simp [tryRegister, DBUS_RETRIES]

/-- A registration returns true when it succeeds within `limit` attempts; one more is
made, and is of no use. -/
theorem register_returned (limit : ℕ) (bus : ℕ → Bool) :
    (register limit bus).returned = true ↔ ∃ i < limit, bus i = true := by
  unfold register
  rcases tryRegister_cases limit bus with ⟨n, hn, h, hended⟩ | ⟨h, hended⟩
  · rw [hended]
    constructor
    · intro hr
      exact ⟨n, of_decide_eq_true hr, h.success⟩
    · rintro ⟨i, hi, hs⟩
      have hni : ¬ i < n := fun hlt => absurd ((h.before i hlt).symm.trans hs) (by simp)
      show decide (n < limit) = true
      exact decide_eq_true (by omega)
  · rw [hended]
    constructor
    · intro hr
      have hlt : limit + 1 < limit := of_decide_eq_true hr
      omega
    · rintro ⟨i, hi, hs⟩
      exact absurd ((h i (Nat.le_of_lt hi)).symm.trans hs) (by simp)

/-- The adaptor is constructed when each registration succeeds within `DBUS_RETRIES`
attempts. -/
theorem construct_ok (isConnected : Bool) (service object : ℕ → Bool) :
    construct isConnected service object = .ok () ↔
      isConnected = true ∧ (∃ i < DBUS_RETRIES, service i = true) ∧
        ∃ i < DBUS_RETRIES, object i = true := by
  rw [← register_returned, ← register_returned]
  unfold construct registerService registerObject
  split
  · next hc => simp [hc]
  · next hc =>
    split
    · next hs => simp [hs]
    · next hs =>
      split
      · next ho => simp [ho]
      · next ho =>
        rw [Bool.not_eq_false] at hc hs ho
        exact iff_of_true rfl ⟨hc, hs, ho⟩

end WifiGateway.Api
