import WifiGateway.Controller.Register
import WifiGateway.FileWatcher.Truncation

/-!
# From the kernel log to the quota

The whole way of a quota event: a line is appended to the kernel log, a notification is handled
and `FileWatcher` emits the line, `QuotaBeacon` finds an address in it, and the Controller charges
the record of the address. The signals are delivered at once, in the middle of whatever call waits
for its command in a nested event loop.

A `Site` is the gateway with its log. The log is appended to and cut off where it is; it is not
renamed or replaced by another file (`Rotation.lean` is about that, where a line may be emitted
twice). Over any run a record is charged one unit for each line that names its address, that was
appended to the log and that was still in it when a notification was handled; each line counts once
(`quota_pipeline`).
-/

namespace WifiGateway

open FileWatcher (Bytes Change Disk Appendable Telling delivered signals noticed)
open QuotaBeacon (cap1 newLine Names named names_iff quotaAfter charge)
open Waiting (Code Machine Config Step)

/-- The gateway and the log that its quota beacon watches. -/
structure Site where
  log : FileWatcher.State
  gateway : Config Event Controller Firewall Command Ptr

/-- What happens next: something to the log, or a step of the gateway. -/
inductive Happening
  | log (e : Change)
  | step (s : Step Event)

variable (isSpace : Char → Bool)

/-- `emit newLine(line)`: `QuotaBeacon::newLine` is called, whatever else waits. -/
def deliver (c : Config Event Controller Firewall Command Ptr) (line : String) :
    Config Event Controller Firewall Command Ptr :=
  if c.crashed then c
  else
    fullGateway.enter (.call (.updateQuotaRemaining (cap1 isSpace line))) (newLine isSpace line) c

/-- The lines that a change makes `FileWatcher` emit. -/
def emittedBy (log : FileWatcher.State) (e : Change) : List String :=
  ((log.change isSpace e).emitted.drop log.emitted.length).map Prod.snd

namespace Site

/-- What happens, one thing after the other. -/
def step (site : Site) : Happening → Site
  | .log e =>
    { log := site.log.change isSpace e
      gateway := (emittedBy isSpace site.log e).foldl (deliver isSpace) site.gateway }
  | .step s => { site with gateway := fullGateway.step site.gateway s }

def run (site : Site) (hs : List Happening) : Site := hs.foldl (step isSpace) site

/-- The gateway as it is started, with the log there is. -/
def start (d : Disk) : Site := ⟨.start d, Config.idle GwWorld.init⟩

end Site

/-- What happens to the log. -/
def changesOf : List Happening → List Change
  | [] => []
  | .log e :: hs => e :: changesOf hs
  | .step _ :: hs => changesOf hs

/-- Nothing but the log uses up the quota of `a`, and nothing sets it. -/
def Happening.Leaves (a : String) : Happening → Prop
  | .log _ | .step (.complete _) => True
  | .step (.call e) => ∀ quota, quotaStep a quota e = quota

variable {isSpace} {a : String} {c : Config Event Controller Firewall Command Ptr}
  {log : FileWatcher.State} {hs : List Happening}

/-! ## Units -/

theorem quotaAfter_zero (q : Int32) : quotaAfter 0 q = q :=
  congrArg Session.quotaRemaining (QuotaBeacon.charge_zero { noSession with quotaRemaining := q })

theorem quotaAfter_add (j k : Nat) (q : Int32) :
    quotaAfter k (quotaAfter j q) = quotaAfter (j + k) q :=
  congrArg Session.quotaRemaining
    (QuotaBeacon.charge_charge j k { noSession with quotaRemaining := q })

theorem quotaAfter_one (q : Int32) : quotaAfter 1 q = if q > 0 then q - 1 else q :=
  congrArg Session.quotaRemaining (QuotaBeacon.charge_one { noSession with quotaRemaining := q })

theorem named_append (xs ys : List String) :
    named isSpace (xs ++ ys) a = named isSpace xs a + named isSpace ys a := List.countP_append

/-- The quota events of a line: one, if it names an address. -/
def quotaEvents (isSpace : Char → Bool) (line : String) : List (Step Event) :=
  if cap1 isSpace line = "" then []
  else [.call (.call (.updateQuotaRemaining (cap1 isSpace line)))]

/-- They use up one unit of the quota of the address. -/
theorem foldl_quotaEvents (line : String) (q : Int32) :
    (Step.calls (quotaEvents isSpace line)).foldl (quotaStep a) q =
      quotaAfter (named isSpace [line] a) q := by
  unfold quotaEvents
  by_cases hcap : cap1 isSpace line = ""
  · have hnone : named isSpace [line] a = 0 := by simp [named, names_iff, hcap]
    rw [if_pos hcap, hnone, quotaAfter_zero]
    rfl
  · rw [if_neg hcap]
    show (if cap1 isSpace line = a then _ else _) = _
    by_cases ha : cap1 isSpace line = a
    · subst ha
      have hone : named isSpace [line] (cap1 isSpace line) = 1 := by simp [named, names_iff, hcap]
      rw [if_pos rfl, hone, quotaAfter_one]
    · have hzero : named isSpace [line] a = 0 := by simp [named, names_iff, Ne.symm ha]
      rw [if_neg ha, hzero, quotaAfter_zero]

theorem calls_append (xs ys : List (Step Event)) :
    Step.calls (xs ++ ys) = Step.calls xs ++ Step.calls ys := by
  induction xs with
  | nil => rfl
  | cons x xs ih =>
    cases x with
    | call e => exact congrArg (e :: ·) ih
    | complete status => exact ih

theorem foldl_lines (lines : List String) (q : Int32) :
    (Step.calls (lines.flatMap (quotaEvents isSpace))).foldl (quotaStep a) q =
      quotaAfter (named isSpace lines a) q := by
  induction lines generalizing q with
  | nil => exact (quotaAfter_zero q).symm
  | cons line lines ih =>
    rw [List.flatMap_cons, calls_append, List.foldl_append, foldl_quotaEvents, ih, quotaAfter_add,
      ← named_append]
    rfl

/-! ## A site is a gateway to which quota events are delivered -/

/-- A line is delivered as its quota events. -/
theorem deliver_eq (line : String) :
    deliver isSpace c line = fullGateway.run c (quotaEvents isSpace line) := by
  unfold deliver quotaEvents
  by_cases hcap : cap1 isSpace line = ""
  · have hnothing : newLine isSpace line = .ret () := by simp [newLine, hcap, Code.when]
    rw [if_pos hcap, hnothing]
    split
    · rfl
    · rfl
  · have hlen : (cap1 isSpace line).length > 0 :=
      Nat.pos_of_ne_zero fun h0 => hcap (String.length_eq_zero_iff.mp h0)
    have hslot : newLine isSpace line =
        fullGateway.slot (.call (.updateQuotaRemaining (cap1 isSpace line))) := by
      unfold newLine
      rw [Code.when, if_pos hlen]
      exact (Code.bind_assoc (updateQuotaRemaining (cap1 isSpace line))
        (fun x => .ret (Reply.status x)) fun _ => .ret ()).symm
    rw [if_neg hcap]
    cases hcrash : c.crashed with
    | true => exact (Machine.run_crashed hcrash _).symm
    | false =>
      have haccepts : fullGateway.accepts c
          (.call (.updateQuotaRemaining (cap1 isSpace line))) = true := by
        cases ha : fullGateway.accepts c (.call (.updateQuotaRemaining (cap1 isSpace line))) with
        | true => rfl
        | false => exact absurd (eq_tick_of_refused hcrash ha) (by simp)
      show (if false = true then c else _) = fullGateway.step c (.call _)
      rw [if_neg Bool.false_ne_true, hslot, Machine.step, if_pos haccepts]

theorem deliver_lines (lines : List String) :
    lines.foldl (deliver isSpace) c =
      fullGateway.run c (lines.flatMap (quotaEvents isSpace)) := by
  induction lines generalizing c with
  | nil => rfl
  | cons line lines ih =>
    rw [List.foldl_cons, List.flatMap_cons, deliver_eq, ih]
    exact (List.foldl_append ..).symm

/-- The steps that the gateway of a site takes. -/
def Site.steps (isSpace : Char → Bool) : FileWatcher.State → List Happening → List (Step Event)
  | _, [] => []
  | log, .log e :: hs =>
    (emittedBy isSpace log e).flatMap (quotaEvents isSpace) ++
      Site.steps isSpace (log.change isSpace e) hs
  | log, .step s :: hs => s :: Site.steps isSpace log hs

theorem Site.run_eq (site : Site) : site.run isSpace hs =
    ⟨site.log.changes isSpace (changesOf hs),
      fullGateway.run site.gateway (Site.steps isSpace site.log hs)⟩ := by
  induction hs generalizing site with
  | nil => rfl
  | cons h hs ih =>
    have hcons : site.run isSpace (h :: hs) = (site.step isSpace h).run isSpace hs := rfl
    rw [hcons, ih]
    cases h with
    | log e =>
      have hgateway : (site.step isSpace (.log e)).gateway = fullGateway.run site.gateway
          ((emittedBy isSpace site.log e).flatMap (quotaEvents isSpace)) := deliver_lines _
      rw [hgateway]
      exact congrArg _ (List.foldl_append ..).symm
    | step s => rfl

/-! ## What is emitted -/

/-- Signals are only ever added. -/
theorem change_emits (e : Change) :
    log.EmitsNext (log.change isSpace e) (emittedBy isSpace log e) := by
  have hmore : ∃ new, (log.change isSpace e).emitted = log.emitted ++ new := by
    cases e with
    | append bytes =>
      refine ⟨[], ?_⟩
      rw [List.append_nil]
      simp only [FileWatcher.State.change, FileWatcher.State.step]
      split
      · rfl
      · rfl
    | truncate =>
      refine ⟨[], ?_⟩
      rw [List.append_nil]
      simp only [FileWatcher.State.change]
      split
      · rfl
      · rfl
    | fileChanged => exact ⟨_, rfl⟩
    | dirChanged => exact ⟨_, rfl⟩
  obtain ⟨new, hnew⟩ := hmore
  unfold FileWatcher.State.EmitsNext emittedBy
  rw [hnew, List.drop_left, List.map_append]

/-- All that is emitted while something happens. -/
def emittedIn (isSpace : Char → Bool) : FileWatcher.State → List Happening → List String
  | _, [] => []
  | log, .log e :: hs =>
    emittedBy isSpace log e ++ emittedIn isSpace (log.change isSpace e) hs
  | log, .step _ :: hs => emittedIn isSpace log hs

theorem changes_emittedIn :
    log.EmitsNext (log.changes isSpace (changesOf hs)) (emittedIn isSpace log hs) := by
  induction hs generalizing log with
  | nil => exact (List.append_nil _).symm
  | cons h hs ih =>
    cases h with
    | log e =>
      show (FileWatcher.State.changes isSpace (log.change isSpace e) _).emitted.map Prod.snd = _
      rw [ih, change_emits e, List.append_assoc]
      rfl
    | step s => exact ih

/-- The steps of the gateway make of the quota what the lines do. -/
theorem foldl_steps (hleaves : ∀ h ∈ hs, h.Leaves a) (q : Int32) :
    (Step.calls (Site.steps isSpace log hs)).foldl (quotaStep a) q =
      quotaAfter (named isSpace (emittedIn isSpace log hs) a) q := by
  induction hs generalizing log q with
  | nil => exact (quotaAfter_zero q).symm
  | cons h hs ih =>
    obtain ⟨hh, hrest⟩ := List.forall_mem_cons.mp hleaves
    cases h with
    | log e =>
      rw [Site.steps, calls_append, List.foldl_append, foldl_lines, ih hrest, quotaAfter_add,
        emittedIn, named_append]
    | step s =>
      cases s with
      | complete status => exact ih hrest q
      | call e =>
        show (Step.calls (Site.steps isSpace log hs)).foldl (quotaStep a) (quotaStep a q e) = _
        rw [hh q]
        exact ih hrest q

/-! ## From the log to the quota -/

theorem Telling.left {cut : Bool} {xs ys : List Change} (h : Telling isSpace cut log (xs ++ ys)) :
    Telling isSpace cut log xs := by
  induction xs generalizing log cut with
  | nil => exact h.size
  | cons e xs ih => exact ⟨h.1, h.2.1, ih h.2.2⟩

theorem changesOf_append (xs ys : List Happening) :
    changesOf (xs ++ ys) = changesOf xs ++ changesOf ys := by
  induction xs with
  | nil => rfl
  | cons x xs ih =>
    cases x with
    | log e => exact congrArg (e :: ·) ih
    | step s => exact ih

theorem mem_changesOf {e : Change} (h : e ∈ changesOf hs) : .log e ∈ hs := by
  induction hs with
  | nil => exact absurd h List.not_mem_nil
  | cons x hs ih =>
    cases x with
    | log e' =>
      rcases List.mem_cons.mp h with rfl | h
      · exact List.mem_cons_self
      · exact List.mem_cons_of_mem _ (ih h)
    | step s => exact List.mem_cons_of_mem _ (ih h)

/-- What is emitted from the start on is the lines that were delivered. -/
theorem start_emittedIn {d : Disk} {i : Nat} (hpath : d.path = some i)
    (happend : ∀ bytes, .log (.append bytes) ∈ hs → Appendable bytes)
    (htell : Telling isSpace false (.start d) (changesOf hs)) :
    emittedIn isSpace (.start d) hs = (delivered (changesOf hs)).flatMap (signals isSpace) := by
  have hemits := FileWatcher.changes_emit (FileWatcher.start_tracks hpath htell.size)
    (fun bytes hmem => happend bytes (mem_changesOf hmem)) htell
  have hread : (FileWatcher.State.start d).EmitsNext
      ((FileWatcher.State.start d).changes isSpace (changesOf hs))
      (emittedIn isSpace (.start d) hs) := changes_emittedIn
  have hsame := hread.symm.trans hemits
  rw [List.append_right_inj] at hsame
  rw [hsame]
  cases noticed (changesOf hs) with
  | false => rfl
  | true => rfl

theorem emittedIn_append (xs ys : List Happening) :
    emittedIn isSpace log (xs ++ ys) =
      emittedIn isSpace log xs ++ emittedIn isSpace (log.changes isSpace (changesOf xs)) ys := by
  induction xs generalizing log with
  | nil => rfl
  | cons x xs ih =>
    cases x with
    | log e =>
      rw [List.cons_append, emittedIn, ih, emittedIn, List.append_assoc]
      rfl
    | step s => exact ih

/-- In every run of the gateway and a log that is appended to and truncated, from any point of it
on, with calls nested in one another in any way: a record that is still there at the end has been
charged one unit for each line naming its address that was delivered from that point on, unless its
quota was set. A line is delivered if it is appended to the log and still in it when a notification
is handled. The lines are written whole, and none has a NUL or is longer than `readLine` takes
(`Appendable`); the log is below 4 GiB, and one that was cut off is found shorter than what was read
of it, or nothing was (`Telling`). -/
theorem quota_pipeline {d : Disk} {i : Nat} (hpath : d.path = some i) {pre post : List Happening}
    (happend : ∀ bytes, .log (.append bytes) ∈ pre ++ post → Appendable bytes)
    (htell : Telling isSpace false (.start d) (changesOf (pre ++ post))) {p : Ptr} {s s' : Session}
    (hs : ((Site.start d).run isSpace pre).gateway.world.mem.heap p = some s)
    (hs' : ((Site.start d).run isSpace (pre ++ post)).gateway.world.mem.heap p = some s')
    (hpost : ∀ h ∈ post, h.Leaves s.IP)
    (hcrash : ((Site.start d).run isSpace (pre ++ post)).gateway.crashed = false) :
    let lines := fun hs => (delivered (changesOf hs)).flatMap (signals isSpace)
    named isSpace (lines pre) s.IP ≤ named isSpace (lines (pre ++ post)) s.IP ∧
      s'.quotaRemaining =
        quotaAfter (named isSpace (lines (pre ++ post)) s.IP - named isSpace (lines pre) s.IP)
          s.quotaRemaining := by
  intro lines
  have hsplit : (Site.start d).run isSpace (pre ++ post) =
      ((Site.start d).run isSpace pre).run isSpace post := List.foldl_append ..
  have happend' : ∀ bytes, .log (.append bytes) ∈ pre → Appendable bytes :=
    fun bytes hmem => happend bytes (List.mem_append_left post hmem)
  have htell' : Telling isSpace false (.start d) (changesOf pre) := by
    rw [changesOf_append] at htell
    exact Telling.left htell
  -- the lines of the second part are those of the whole after those of the first part
  have hnamed : named isSpace (lines (pre ++ post)) s.IP = named isSpace (lines pre) s.IP +
      named isSpace (emittedIn isSpace
        ((FileWatcher.State.start d).changes isSpace (changesOf pre)) post) s.IP := by
    show named isSpace ((delivered (changesOf (pre ++ post))).flatMap (signals isSpace)) s.IP = _
    rw [← start_emittedIn hpath happend htell, emittedIn_append, named_append,
      start_emittedIn hpath happend' htell']
  rw [hsplit, Site.run_eq, Site.run_eq] at hs' hcrash
  rw [Site.run_eq] at hs
  obtain ⟨hsound, hwaits⟩ := sound_run (Machine.not_crashed hcrash)
  have hquota := (hsound.quota hwaits hs hs' hcrash).2
  rw [foldl_steps hpost] at hquota
  rw [hnamed, Nat.add_sub_cancel_left]
  exact ⟨Nat.le_add_right _ _, hquota⟩

/-- `GW_SESSION_1MB_HACK SRC=10.0.0.7 DST` and the end of the line. -/
def kernelLine : Bytes :=
  "GW_SESSION_1MB_HACK SRC=10.0.0.7 DST\n".toList.map fun c => UInt8.ofNat c.toNat

/-- A session with a quota waits for its first command. -/
def waitingSite : List Happening :=
  [.step (.call (.call (.setDefaultQuota 5))), .step (.call (.call (.startSession "10.0.0.7")))]

/-- A line about it is logged and found, and its command completes. -/
def loggedSite : List Happening :=
  [.log (.append kernelLine), .log .fileChanged, .log .fileChanged, .step (.complete 0)]

theorem quota_pipeline_loggedSite :
    let lines := fun hs => (delivered (changesOf hs)).flatMap (signals Char.isWhitespace)
    let mem := fun hs =>
      ((Site.start FileWatcher.emptyFile).run Char.isWhitespace hs).gateway.world.mem
    let s := ((mem waitingSite).heap 0).getD noSession
    let s' := ((mem (waitingSite ++ loggedSite)).heap 0).getD noSession
    named Char.isWhitespace (lines waitingSite) s.IP ≤
        named Char.isWhitespace (lines (waitingSite ++ loggedSite)) s.IP ∧
      s'.quotaRemaining = quotaAfter
        (named Char.isWhitespace (lines (waitingSite ++ loggedSite)) s.IP -
          named Char.isWhitespace (lines waitingSite) s.IP) s.quotaRemaining := by
  refine @quota_pipeline Char.isWhitespace FileWatcher.emptyFile 1 rfl waitingSite loggedSite
    ?_ ?_ 0 _ _ ?_ ?_ ?_ ?_
  · intro bytes hmem
    have hbytes : bytes = kernelLine := by simpa [waitingSite, loggedSite] using hmem
    rw [hbytes]
    exact ⟨.inr (by decide), by decide, by decide⟩
  · decide +kernel
  · decide +kernel
  · decide +kernel
  · intro h hh
    simp only [loggedSite, List.mem_cons, List.not_mem_nil, or_false] at hh
    rcases hh with rfl | rfl | rfl | rfl
    all_goals trivial
  · decide +kernel

end WifiGateway
