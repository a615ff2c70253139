import WifiGateway.Controller.TickSimulation

/-!
# A call acts on every host

`ActsOnAll o w w' issued F`: from `w` to `w'` every host `a` changed like the
host function `F a`, for statuses that the oracle gave. `tickOver_acts` is the
induction over the loop of `tick`: the pointers of the copied map are stored
under different IPs, so one pass leaves the hosts that come later as they were.

The main result is `slot_acts`: every call, executed alone from a well-formed
world, runs to its end without a memory error and acts on all hosts like
`Host.step`. Everything said below about runs of the Controller, whatever the
number of hosts, is proved on `Host.step` and carried over by it.
-/

namespace WifiGateway

open Waiting (Code World Oracle)

variable {o : Oracle Command} {w w' : GwWorld} {t issued : List (Command × Int)} {a : String}

/-- Every host changes like `F`; what is issued for a host is in `issued`. Records
keep their pointers, and new records get pointers that were never used. -/
structure ActsOnAll (o : Oracle Command) (w w' : GwWorld) (issued : List (Command × Int))
    (F : String → Outcomes → Host → Result) : Prop where
  wf : w'.mem.WF
  fresh : w.mem.fresh ≤ w'.mem.fresh
  ptr : ∀ (a : String) p q, w.mem.sessions[a]? = some p → w'.mem.sessions[a]? = some q → q = p
  newPtr : ∀ (a : String) q, w.mem.sessions[a]? = none → w'.mem.sessions[a]? = some q →
    w.mem.fresh ≤ q
  hosts : ∀ a, ∃ x : Outcomes, x.AllDrawn o ∧ w'.host a = (F a x (w.host a)).host ∧
    (F a x (w.host a)).issued ⊆ issued

/-- Some outcomes exist for the host functions that use none. -/
theorem exists_allDrawn (o : Oracle Command) : ∃ x : Outcomes, x.AllDrawn o := by
  obtain ⟨status, hd⟩ := exists_drawn o
  exact ⟨⟨status, status, status, status⟩, hd, hd, hd, hd⟩

namespace ActsOnAll

variable {F : String → Outcomes → Host → Result}

/-- An effect on one host, of a function that leaves every other host alone. -/
theorem ofEffect {x : Outcomes} (hx : x.AllDrawn o) (he : Effect a (F a x (w.host a)).host w w')
    (hi : (F a x (w.host a)).issued ⊆ issued)
    (hF : ∀ b, b ≠ a → ∃ status, ∀ h, F b x h = Host.stay status h) :
    ActsOnAll o w w' issued F where
  wf := he.wf
  fresh := he.fresh
  ptr b p q hp hq := by
    by_cases hb : b = a
    · exact he.ptr p q (hb ▸ hp) (hb ▸ hq)
    · rw [he.otherPtr b hb, hp] at hq
      exact (Option.some.inj hq).symm
  newPtr b q hn hq := by
    by_cases hb : b = a
    · exact he.newPtr q (hb ▸ hn) (hb ▸ hq)
    · rw [he.otherPtr b hb, hn] at hq
      exact absurd hq (by simp)
  hosts b := by
    refine ⟨x, hx, ?_⟩
    by_cases hb : b = a
    · subst hb
      exact ⟨he.host, hi⟩
    · obtain ⟨status, hs⟩ := hF b hb
      rw [hs]
      exact ⟨he.others b hb, List.nil_subset _⟩

/-- Nothing that concerns a host has changed. -/
theorem ofSame (hw : w'.mem.WF) (hsessions : w'.mem.sessions = w.mem.sessions)
    (hheap : w'.mem.heap = w.mem.heap) (hfresh : w'.mem.fresh = w.mem.fresh)
    (henv : w'.env = w.env) (hF : ∀ b x, ∃ status, ∀ h, F b x h = Host.stay status h) :
    ActsOnAll o w w' issued F where
  wf := hw
  fresh := Nat.le_of_eq hfresh.symm
  ptr b p q hp hq := by
    rw [hsessions, hp] at hq
    exact (Option.some.inj hq).symm
  newPtr b q hn hq := by
    rw [hsessions, hn] at hq
    exact absurd hq (by simp)
  hosts b := by
    obtain ⟨x, hx⟩ := exists_allDrawn o
    obtain ⟨status, hs⟩ := hF b x
    refine ⟨x, hx, ?_, ?_⟩
    · rw [hs]
      simp only [GwWorld.host, Controller.record, hsessions, hheap, henv, Host.stay]
    · rw [hs]
      exact List.nil_subset _

/-- A host without a pointer has no record, and one that has neither gains neither. -/
theorem ptr_eq_none (h : ActsOnAll o w w' issued F) (hr : (w'.host a).record = none) :
    w'.mem.sessions[a]? = none := h.wf.record_eq_none.mp hr

end ActsOnAll

/-! ## The loop of the tick -/

/-- What the loop does to a host: a tick if its pointer is to be visited. -/
def visit (l : List Ptr) (w : GwWorld) (a : String) (x : Outcomes) (h : Host) : Result :=
  if w.mem.sessions[a]?.any (fun p => p ∈ l) then Host.tick a x h else Host.stay 0 h

/-- The pass over the first pointer is nothing to the hosts of the others. -/
theorem visit_other {p : Ptr} {rest : List Ptr} {b c : String} {h' : Host} (hw : w.mem.WF)
    (hb : w.mem.sessions[b]? = some p) (he : Effect b h' w w') (hc : c ≠ b) (x : Outcomes)
    (h : Host) : visit rest w' c x h = visit (p :: rest) w c x h := by
  have hne : w.mem.sessions[c]? ≠ some p := fun e => hc (hw.key_unique hb e)
  unfold visit
  rw [he.otherPtr c hc]
  cases hq : w.mem.sessions[c]? with
  | none => rfl
  | some q =>
    have hqp : q ≠ p := fun e => hne (hq.trans (congrArg some e))
    simp [hqp]

/-- The host of the first pointer is not visited again. -/
theorem visit_done {p : Ptr} {rest : List Ptr} {b : String} {h' : Host}
    (hb : w.mem.sessions[b]? = some p) (hp : p ∉ rest) (he : Effect b h' w w') (x : Outcomes)
    (h : Host) : visit rest w' b x h = Host.stay 0 h := by
  unfold visit
  cases hq : w'.mem.sessions[b]? with
  | none => rfl
  | some q => simp [he.ptr p q hb hq, hp]

/-- A pass over the first pointer, then the loop over the others. -/
theorem ActsOnAll.cons {p : Ptr} {rest : List Ptr} {b : String} {x₁ : Outcomes}
    {w₁ w₂ : GwWorld} (hw : w.mem.WF) (hb : w.mem.sessions[b]? = some p) (hp : p ∉ rest)
    (hx₁ : x₁.AllDrawn o) (he : Effect b (Host.tick b x₁ (w.host b)).host w w₁)
    (h : ActsOnAll o w₁ w₂ issued (visit rest w₁)) :
    ActsOnAll o w w₂ (issued ++ (Host.tick b x₁ (w.host b)).issued) (visit (p :: rest) w) := by
  have hb₂ : w₂.host b = (Host.tick b x₁ (w.host b)).host := by
    obtain ⟨x, -, hhost, -⟩ := h.hosts b
    rw [hhost, visit_done hb hp he, ← he.host]
    rfl
  refine ⟨h.wf, Nat.le_trans he.fresh h.fresh, fun c r q hr hq => ?_, fun c q hn hq => ?_,
    fun c => ?_⟩
  · by_cases hc : c = b
    · subst hc
      cases hr₁ : w₁.mem.sessions[c]? with
      | none =>
        have hnone : w₂.host c = w₁.host c := hb₂.trans he.host.symm
        have hrec : (w₂.host c).record = none := by
          rw [hnone]
          exact Controller.record_none hr₁
        rw [h.ptr_eq_none hrec] at hq
        exact absurd hq (by simp)
      | some r₁ => rw [h.ptr c r₁ q hr₁ hq, he.ptr r r₁ hr hr₁]
    · exact h.ptr c r q ((he.otherPtr c hc).trans hr) hq
  · have hc : c ≠ b := by
      intro heq
      subst heq
      exact absurd (hn.symm.trans hb) (by simp)
    exact Nat.le_trans he.fresh (h.newPtr c q ((he.otherPtr c hc).trans hn) hq)
  · by_cases hc : c = b
    · subst hc
      have hv : ∀ h, visit (p :: rest) w c x₁ h = Host.tick c x₁ h := by
        intro h
        simp [visit, hb]
      refine ⟨x₁, hx₁, ?_, ?_⟩
      · rw [hv]
        exact hb₂
      · rw [hv]
        exact List.subset_append_right _ _
    · obtain ⟨x, hx, hhost, hi⟩ := h.hosts c
      rw [he.others c hc, visit_other hw hb he hc] at hhost hi
      exact ⟨x, hx, hhost, List.subset_append_of_subset_left _ hi⟩

theorem tickOver_acts (l : List Ptr) (hw : w.mem.WF) (hnd : l.Nodup)
    (hl : ∀ p ∈ l, ∃ b : String, w.mem.sessions[b]? = some p) :
    ∃ (w' : GwWorld) (issued : List (Command × Int)),
      (tickOver l).run Command.effect o w t = some ((), w', issued ++ t) ∧
        ActsOnAll o w w' issued (visit l w) := by
  induction l generalizing w t with
  | nil =>
    refine ⟨w, [], rfl, .ofSame hw rfl rfl rfl rfl fun b x => ⟨0, fun h => ?_⟩⟩
    simp [visit]
  | cons p rest ih =>
    obtain ⟨b, hb⟩ := hl p List.mem_cons_self
    obtain ⟨hp, hrest⟩ := List.nodup_cons.mp hnd
    obtain ⟨x₁, hx₁, w₁, hrun₁, he₁⟩ := tickSession_acts (o := o) (t := t) hw hb
    -- the pointers that come later are stored under other IPs, where nothing has changed
    have hl₁ : ∀ q ∈ rest, ∃ c : String, w₁.mem.sessions[c]? = some q := by
      intro q hq
      obtain ⟨c, hc⟩ := hl q (List.mem_cons_of_mem p hq)
      have hcb : c ≠ b := by
        intro heq
        subst heq
        exact hp (Option.some.inj (hb.symm.trans hc) ▸ hq)
      exact ⟨c, (he₁.otherPtr c hcb).trans hc⟩
    obtain ⟨w₂, issued₂, hrun₂, h₂⟩ := ih he₁.wf hrest hl₁
      (t := (Host.tick b x₁ (w.host b)).issued ++ t)
    refine ⟨w₂, issued₂ ++ (Host.tick b x₁ (w.host b)).issued, ?_, .cons hw hb hp hx₁ he₁ h₂⟩
    simp [tickOver, hrun₁, hrun₂]

/-- The pointers of the map, in any order that `foreach` may visit them. -/
theorem values_nodup (hw : w.mem.WF) : w.mem.sessions.values.Nodup := by
  unfold QMap.values List.Nodup
  rw [List.pairwise_map]
  refine List.Pairwise.imp_of_mem ?_ (Std.TreeMap.distinct_keys_toList (t := w.mem.sessions))
  intro e e' hb hc hne heq
  obtain ⟨b, p⟩ := e
  obtain ⟨c, q⟩ := e'
  subst heq
  refine hne (Std.LawfulEqCmp.compare_eq_iff_eq.mpr ?_)
  exact (hw.key_unique (QMap.mem_toList.mp hb) (QMap.mem_toList.mp hc)).symm

/-- The loop over all sessions, in any order. -/
theorem tickOver_perm_acts (hw : w.mem.WF) {order : List Ptr}
    (horder : order.Perm w.mem.sessions.values) :
    ∃ (w' : GwWorld) (issued : List (Command × Int)),
      (tickOver order).run Command.effect o w t = some ((), w', issued ++ t) ∧
        ActsOnAll o w w' issued fun a x h => Host.tick a x h := by
  obtain ⟨w', issued, hrun, h⟩ := tickOver_acts (o := o) (t := t) order hw
    (horder.nodup_iff.mpr (values_nodup hw)) fun p hp => QMap.mem_values.mp (horder.subset hp)
  refine ⟨w', issued, hrun, h.wf, h.fresh, h.ptr, h.newPtr, fun a => ?_⟩
  obtain ⟨x, hx, hhost, hi⟩ := h.hosts a
  have hv : visit order w a x (w.host a) = Host.tick a x (w.host a) := by
    unfold visit
    cases hp : w.mem.sessions[a]? with
    | none =>
      have hrec : (w.host a).record = none := Controller.record_none hp
      simp [Host.tick, hrec]
    | some p =>
      have hmem : p ∈ order := horder.symm.subset (QMap.mem_values.mpr ⟨a, hp⟩)
      simp [hmem]
  rw [hv] at hhost hi
  exact ⟨x, hx, hhost, hi⟩

theorem tick_acts (hw : w.mem.WF) :
    ∃ (w' : GwWorld) (issued : List (Command × Int)),
      tick.run Command.effect o w t = some ((), w', issued ++ t) ∧
        ActsOnAll o w w' issued fun a x h => Host.tick a x h := by
  obtain ⟨w', issued, hrun, h⟩ := tickOver_perm_acts (o := o) (t := t) hw (List.Perm.refl _)
  exact ⟨w', issued, by simpa [tick] using hrun, h⟩

/-! ## All calls -/

/-- The execution of `p` from `w` returns, and changes every host `a` like `F a`. -/
def RunsAs (o : Oracle Command) (w : GwWorld) (t : List (Command × Int)) (p : Slot Reply)
    (F : String → Outcomes → Host → Result) : Prop :=
  ∃ (reply : Reply) (w' : GwWorld) (issued : List (Command × Int)),
    p.run Command.effect o w t = some (reply, w', issued ++ t) ∧ ActsOnAll o w w' issued F

/-- A call about host `a`, executed from `w`, answers, issues and does what the host
functions say. -/
def Serves (o : Oracle Command) (w : GwWorld) (t : List (Command × Int)) (a : String)
    (i : Call) : Prop :=
  ∃ x : Outcomes, x.AllDrawn o ∧ ∃ w' : GwWorld,
    i.slot.run Command.effect o w t =
        some (Host.reply a (w.mem.initSession a) x (w.host a) i, w',
          (Host.serve a (w.mem.initSession a) x (w.host a) i).issued ++ t) ∧
      Effect a (Host.serve a (w.mem.initSession a) x (w.host a) i).host w w'

/-- A call whose slot acts as its host function does. -/
theorem serves_of {p : Slot Int} {i : Call} {F : Outcomes → Result}
    (hslot : i.slot = do return .status (← p))
    (hF : ∀ x, Host.serve a (w.mem.initSession a) x (w.host a) i = F x)
    (hreply : ∀ x, Host.reply a (w.mem.initSession a) x (w.host a) i = .status (F x).status)
    (h : ∃ x : Outcomes, x.AllDrawn o ∧ ActsAs o w t a p (F x)) : Serves o w t a i := by
  obtain ⟨x, hx, w', hrun, he⟩ := h
  refine ⟨x, hx, w', ?_, ?_⟩
  · rw [hslot, hF, hreply]
    simp [hrun]
  · rw [hF]
    exact he

/-- One status serves for all the commands of a call. -/
theorem allDrawn_of {F : Int → Result} {p : Slot Int}
    (h : ∃ status, Drawn o status ∧ ActsAs o w t a p (F status)) (f : Outcomes → Int)
    (hf : ∀ status, f ⟨status, status, status, status⟩ = status) :
    ∃ x : Outcomes, x.AllDrawn o ∧ ActsAs o w t a p (F (f x)) := by
  obtain ⟨status, hd, hacts⟩ := h
  exact ⟨⟨status, status, status, status⟩, ⟨hd, hd, hd, hd⟩, (hf status).symm ▸ hacts⟩

/-- Every call that names a host serves it. -/
theorem slot_serves (hw : w.mem.WF) (i : Call) (hi : i.names = some a) : Serves o w t a i := by
  cases i with
  | newSession IP =>
    obtain rfl := Option.some.inj hi
    exact serves_of rfl (fun _ => rfl) (fun _ => rfl)
      ((exists_allDrawn o).imp fun x hx => ⟨hx, newSession_acts hw⟩)
  | startSession IP =>
    obtain rfl := Option.some.inj hi
    exact serves_of rfl (fun _ => rfl) (fun _ => rfl)
      (allDrawn_of (startSession_acts hw) Outcomes.add fun _ => rfl)
  | pauseSession IP =>
    obtain rfl := Option.some.inj hi
    exact serves_of rfl (fun _ => rfl) (fun _ => rfl)
      (allDrawn_of (pauseSession_acts hw) Outcomes.remove fun _ => rfl)
  | playSession IP =>
    obtain rfl := Option.some.inj hi
    exact serves_of rfl (fun _ => rfl) (fun _ => rfl)
      (allDrawn_of (playSession_acts hw) Outcomes.add fun _ => rfl)
  | updateSession IP =>
    obtain rfl := Option.some.inj hi
    exact serves_of rfl (fun _ => rfl) (fun _ => rfl)
      ((exists_allDrawn o).imp fun x hx => ⟨hx, amendSession_acts hw fun _ => rfl⟩)
  | endSession IP =>
    obtain rfl := Option.some.inj hi
    exact serves_of rfl (fun _ => rfl) (fun _ => rfl)
      (allDrawn_of (endSession_acts hw) Outcomes.remove fun _ => rfl)
  | deleteSession IP =>
    obtain rfl := Option.some.inj hi
    exact serves_of rfl (fun _ => rfl) (fun _ => rfl)
      (allDrawn_of (deleteSession_acts hw) Outcomes.remove fun _ => rfl)
  | setBandwidth IP bw =>
    obtain rfl := Option.some.inj hi
    exact serves_of rfl (fun _ => rfl) (fun _ => rfl) (setLimit_acts hw fun _ => rfl)
  | setQuota IP quota =>
    obtain rfl := Option.some.inj hi
    exact serves_of rfl (fun _ => rfl) (fun _ => rfl) (setLimit_acts hw fun _ => rfl)
  | setTime IP time =>
    obtain rfl := Option.some.inj hi
    exact serves_of rfl (fun _ => rfl) (fun _ => rfl)
      ((exists_allDrawn o).imp fun x hx => ⟨hx, amendSession_acts hw fun _ => rfl⟩)
  | updateQuotaRemaining IP =>
    obtain rfl := Option.some.inj hi
    exact serves_of rfl (fun _ => rfl) (fun _ => rfl)
      ((exists_allDrawn o).imp fun x hx => ⟨hx, amendSession_acts hw fun _ => rfl⟩)
  | getSession IP =>
    obtain rfl := Option.some.inj hi
    obtain ⟨x, hx⟩ := exists_allDrawn o
    refine ⟨x, hx, w, ?_, Effect.refl hw⟩
    cases hp : w.mem.sessions[IP]? with
    | none =>
      have hrec : (w.host IP).record = none := Controller.record_none hp
      simp [Call.slot, getSession, hp, Host.reply, Host.serve, Host.stay, hrec]
    | some p =>
      obtain ⟨s, hs, -⟩ := hw.stored IP p hp
      have hrec : (w.host IP).record = some s := (Controller.record_some hp).trans hs
      simp [Call.slot, getSession, hp, run_deref hs, Host.reply, Host.serve, Host.stay, hrec]
  | setDefaultBandWidth | setDefaultQuota | setDefaultTime | setDefaultSession
  | getDefaultSession | getAllSessions | getIPs | tick => exact absurd hi (by simp [Call.names])

/-- A call that changes nothing a host is about. -/
theorem quiet_acts (hw : w.mem.WF) {p : Slot Reply} {reply : Reply} {c : Controller}
    {F : String → Outcomes → Host → Result}
    (hrun : p.run Command.effect o w t = some (reply, { w with mem := c }, t))
    (hsessions : c.sessions = w.mem.sessions) (hheap : c.heap = w.mem.heap)
    (hfresh : c.fresh = w.mem.fresh) (hF : ∀ b x, ∃ status, ∀ h, F b x h = Host.stay status h) :
    RunsAs o w t p F := by
  have hc : c.WF := by
    refine ⟨?_, ?_, ?_⟩
    · rw [hsessions, hheap]
      exact hw.stored
    · rw [hsessions, hheap]
      exact hw.owned
    · rw [hfresh, hheap]
      exact hw.unused
  exact ⟨reply, _, [], hrun, .ofSame hc hsessions hheap hfresh rfl hF⟩

theorem derefAll_run (l : List Ptr) (hl : ∀ p ∈ l, ∃ s, w.mem.heap p = some s) :
    ∃ ss, (derefAll l).run Command.effect o w t = some (ss, w, t) := by
  induction l with
  | nil => exact ⟨[], rfl⟩
  | cons p rest ih =>
    obtain ⟨s, hs⟩ := hl p List.mem_cons_self
    obtain ⟨ss, hss⟩ := ih fun q hq => hl q (List.mem_cons_of_mem p hq)
    exact ⟨s :: ss, by simp [derefAll, run_deref hs, hss]⟩

/-- A call executed alone runs to its end and acts on all hosts like `Host.step`. -/
theorem slot_acts (hw : w.mem.WF) (i : Call) :
    RunsAs o w t i.slot fun a x h => Host.step a (w.mem.initSession a) x h i := by
  cases hn : i.names with
  | some IP =>
    obtain ⟨x, hx, w', hrun, he⟩ := slot_serves (o := o) (t := t) hw i hn
    have hown : ∀ h, Host.step IP (w.mem.initSession IP) x h i =
        Host.serve IP (w.mem.initSession IP) x h i := by
      intro h
      simp [Host.step, hn]
    refine ⟨_, w', _, hrun, ActsOnAll.ofEffect hx (a := IP) ?_ ?_ fun b hb => ⟨0, fun h => ?_⟩⟩
    · rw [hown]
      exact he
    · rw [hown]
      exact List.Subset.refl _
    · simp [Host.step, hn, Ne.symm hb]
  | none =>
    have hstay : ∀ (b : String) (x : Outcomes), ∃ status, ∀ h : Host,
        Host.stay 0 h = Host.stay status h := fun _ _ => ⟨0, fun _ => rfl⟩
    cases i with
    | setDefaultBandWidth bw => exact quiet_acts hw rfl rfl rfl rfl hstay
    | setDefaultQuota quota => exact quiet_acts hw rfl rfl rfl rfl hstay
    | setDefaultTime time => exact quiet_acts hw rfl rfl rfl rfl hstay
    | setDefaultSession s => exact quiet_acts hw rfl rfl rfl rfl hstay
    | getDefaultSession => exact quiet_acts hw rfl rfl rfl rfl hstay
    | getIPs => exact quiet_acts hw rfl rfl rfl rfl hstay
    | getAllSessions =>
      obtain ⟨ss, hss⟩ := derefAll_run (o := o) (t := t) w.mem.sessions.values fun p hp => by
        obtain ⟨b, hb⟩ := QMap.mem_values.mp hp
        obtain ⟨s, hs, -⟩ := hw.stored b p hb
        exact ⟨s, hs⟩
      exact quiet_acts hw (c := w.mem) (by simp [Call.slot, getAllSessions, hss]; rfl) rfl rfl rfl
        hstay
    | tick =>
      obtain ⟨w', issued, hrun, h⟩ := tick_acts (o := o) (t := t) hw
      exact ⟨.nothing, w', issued, by simp [Call.slot, hrun], h⟩
    | newSession | startSession | pauseSession | playSession | updateSession | endSession
    | deleteSession | setBandwidth | setQuota | setTime | getSession | updateQuotaRemaining =>
      exact absurd hn (by simp [Call.names])

end WifiGateway
