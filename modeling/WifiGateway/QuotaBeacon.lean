import Mathlib.Data.List.Count
import WifiGateway.Text.LazyMatch
import WifiGateway.Controller.Budget

/-!
# The quota beacon

`quotabeacon.cpp`: every line of the kernel log that `FileWatcher` finds is searched for
the prefix of the quota rules and a source address, and the session of that address is
charged one unit by `Controller::updateQuotaRemaining`, to which `quotaEvent` is connected.

`Names` says, without the expression, which address a line names; `cap1_iff` is the
connection. One line charges the records of its address and nothing else (`newLine_run`);
`quota_accounting` is the induction over the lines.
-/

namespace WifiGateway.QuotaBeacon

open LazyMatch (Pattern FirstSuffix literal matchAt search)
open Waiting (Code Oracle)

def GW_QUOTA_PREFIX : String := "GW_SESSION_1MB_HACK"

-- `QChar::isSpace`, which goes by the version of Unicode
variable (isSpace : Char → Bool)

/-- The expression from `SRC=` on: `SRC=([^\s]+)\s.*`. -/
def source : Pattern Char :=
  literal "SRC=".toList ++
    [.group fun c => !isSpace c, .one isSpace, .star fun _ => true]

/-- `QRegExp(QString(GW_QUOTA_PREFIX) + ".*SRC=([^\\s]+)\\s.*")`, minimal. -/
def r : Pattern Char :=
  literal GW_QUOTA_PREFIX.toList ++ .star (fun _ => true) :: source isSpace

/-- `r->indexIn(line)` and `r->cap(1)`. -/
def cap1 (line : String) : String := String.ofList ((search (r isSpace) line.toList).getD [])

/-- `QuotaBeacon::newLine`. -/
def newLine (line : String) : Slot Unit := do
  let ipMatch := cap1 isSpace line
  -- `emit quotaEvent(ipMatch)`
  Code.when (ipMatch.length > 0) do let _ ← updateQuotaRemaining ipMatch

/-- Lines as they are delivered, one after the other. -/
def newLines : List String → Slot Unit
  | [] => pure ()
  | line :: lines => do
    newLine isSpace line
    newLines lines

/-! ## The address of a line -/

/-- The text starts with `SRC=`, the address, and a blank. -/
def Field (IP text : List Char) : Prop :=
  IP ≠ [] ∧ (∀ c ∈ IP, isSpace c = false) ∧
    ∃ c rest, text = "SRC=".toList ++ (IP ++ c :: rest) ∧ isSpace c = true

/-- The line contains the prefix, and after it the first `SRC=` with an address and a blank
has this address. -/
def Names (line IP : String) : Prop :=
  ∃ after src,
    FirstSuffix (GW_QUOTA_PREFIX.toList <+: ·) line.toList (GW_QUOTA_PREFIX.toList ++ after) ∧
    FirstSuffix (fun text => ∃ IP, Field isSpace IP text) after src ∧
    Field isSpace IP.toList src

variable {isSpace}

theorem matchAt_source {text IP : List Char} :
    matchAt (source isSpace) text = some IP ↔ Field isSpace IP text := by
  unfold source Field
  by_cases hsrc : "SRC=".toList <+: text
  · obtain ⟨text, rfl⟩ := hsrc
    rw [LazyMatch.matchAt_literal, LazyMatch.matchAt_group (fun c => rfl)]
    simp [LazyMatch.matchAt_any_nil]
  · rw [LazyMatch.matchAt_literal_none hsrc]
    constructor
    · intro h
      exact absurd h (by simp)
    · intro h
      obtain ⟨-, -, c, rest, htext, -⟩ := h
      exact absurd ⟨_, htext.symm⟩ hsrc

theorem search_source {after IP : List Char} :
    search (source isSpace) after = some IP ↔
      ∃ src, FirstSuffix (fun text => ∃ IP, Field isSpace IP text) after src ∧
        Field isSpace IP src := by
  rw [LazyMatch.search_eq]
  simp only [Option.isSome_iff_exists, matchAt_source]

theorem matchAt_r {after : List Char} :
    matchAt (r isSpace) (GW_QUOTA_PREFIX.toList ++ after) = search (source isSpace) after := by
  unfold r
  rw [LazyMatch.matchAt_literal, LazyMatch.matchAt_any]

/-- What matches begins with the prefix. -/
theorem prefix_of_matchAt {text : List Char} (h : (matchAt (r isSpace) text).isSome = true) :
    GW_QUOTA_PREFIX.toList <+: text := by
  by_contra hp
  unfold r at h
  rw [LazyMatch.matchAt_literal_none hp] at h
  exact absurd h (by simp)

/-- What is found is what comes after the first prefix. -/
theorem search_r {text after IP : List Char}
    (hfirst : FirstSuffix (GW_QUOTA_PREFIX.toList <+: ·) text (GW_QUOTA_PREFIX.toList ++ after))
    (hIP : search (source isSpace) after = some IP) : search (r isSpace) text = some IP := by
  rw [LazyMatch.search_eq]
  have hmatch : matchAt (r isSpace) (GW_QUOTA_PREFIX.toList ++ after) = some IP :=
    matchAt_r.trans hIP
  exact ⟨_, hfirst.mono (by rw [hmatch]; rfl) fun _ => prefix_of_matchAt, hmatch⟩

/-- If there is a match at all, there is one at the first prefix. -/
theorem exists_of_search_r {text : List Char} (h : (search (r isSpace) text).isSome = true) :
    ∃ after, FirstSuffix (GW_QUOTA_PREFIX.toList <+: ·) text (GW_QUOTA_PREFIX.toList ++ after) ∧
      (search (source isSpace) after).isSome = true := by
  obtain ⟨captured, hcaptured⟩ := Option.isSome_iff_exists.mp h
  obtain ⟨found, hfound, hmatch⟩ := LazyMatch.search_eq.mp hcaptured
  have hprefix : GW_QUOTA_PREFIX.toList <+: found := prefix_of_matchAt hfound.holds
  obtain ⟨first, hfirst, hsuffix⟩ :
      ∃ first, FirstSuffix (GW_QUOTA_PREFIX.toList <+: ·) text first ∧ found <:+ first :=
    LazyMatch.exists_firstSuffix hprefix hfound.suffix
  obtain ⟨after, rfl⟩ := hfirst.holds
  obtain ⟨after', rfl⟩ := hprefix
  refine ⟨after, hfirst, ?_⟩
  have hafter : after' <:+ after := by
    have hlen := hsuffix.length_le
    rw [List.length_append, List.length_append] at hlen
    exact List.suffix_of_suffix_length_le ((List.suffix_append _ _).trans hsuffix)
      (List.suffix_append _ _) (by omega)
  rw [matchAt_r] at hmatch
  exact LazyMatch.search_suffix hafter (by rw [hmatch]; rfl)

/-- An address is captured exactly when the line names it. -/
theorem cap1_iff {line IP : String} (hIP : IP ≠ "") :
    cap1 isSpace line = IP ↔ Names isSpace line IP := by
  have hcap : ∀ captured : List Char, String.ofList captured = IP ↔ captured = IP.toList := by
    intro captured
    rw [← String.toList_inj, String.toList_ofList]
  have hnil : IP.toList ≠ [] := fun h => hIP (String.toList_eq_nil_iff.mp h)
  constructor
  · intro h
    cases hs : search (r isSpace) line.toList with
    | none =>
      rw [cap1, hs, hcap] at h
      exact absurd h.symm hnil
    | some captured =>
      obtain ⟨after, hfirst, hsome⟩ := exists_of_search_r (by rw [hs]; rfl)
      obtain ⟨found, hfound⟩ := Option.isSome_iff_exists.mp hsome
      have hsame : some found = some captured := (search_r hfirst hfound).symm.trans hs
      have hfoundIP : found = IP.toList := by
        rw [Option.some.inj hsame, ← hcap]
        rwa [cap1, hs] at h
      obtain ⟨src, hsrc, hfield⟩ := search_source.mp hfound
      exact ⟨after, src, hfirst, hsrc, hfoundIP ▸ hfield⟩
  · intro h
    obtain ⟨after, src, hfirst, hsrc, hfield⟩ := h
    have hsearch : search (r isSpace) line.toList = some IP.toList :=
      search_r hfirst (search_source.mpr ⟨src, hsrc, hfield⟩)
    rw [cap1, hsearch, hcap]
    rfl

-- an empty field is passed over
example : cap1 Char.isWhitespace "GW_SESSION_1MB_HACK SRC= SRC=10.0.0.7 DST" = "10.0.0.7" := by
  decide +kernel

/-! ## One line -/

/-- Every record changed by `f`. -/
def mapRecords (c : Controller) (f : Session → Session) : Controller :=
  { c with heap := fun p => (c.heap p).map f }

/-- `k` units less, down to zero; a negative quota is unlimited. -/
def quotaAfter (k : Nat) (q : Int32) : Int32 :=
  if 0 ≤ q then Int32.ofInt (max 0 (q.toInt - k)) else q

/-- The record after `k` units. -/
def charge (k : Nat) (s : Session) : Session :=
  { s with quotaRemaining := quotaAfter k s.quotaRemaining }

open Classical in
/-- The number of lines that name an IP. -/
noncomputable def named (isSpace : Char → Bool) (lines : List String) (IP : String) : Nat :=
  lines.countP fun line => Names isSpace line IP

variable {w : GwWorld} {o : Oracle Command} {t : List (Command × Int)} {c : Controller}

theorem mapRecords_id : mapRecords c (fun s => s) = c := by
  unfold mapRecords
  simp

theorem mapRecords_mapRecords {f g : Session → Session} :
    mapRecords (mapRecords c f) g = mapRecords c fun s => g (f s) := by
  unfold mapRecords
  simp [Option.map_map, Function.comp_def]

theorem wf_mapRecords {f : Session → Session} (hc : c.WF) (hf : ∀ s, (f s).IP = s.IP) :
    (mapRecords c f).WF := by
  refine ⟨fun a p hp => ?_, fun p s hs => ?_, fun p hp => ?_⟩
  · obtain ⟨s, hs, hIP⟩ := hc.stored a p hp
    refine ⟨f s, ?_, (hf s).trans hIP⟩
    simp [mapRecords, hs]
  · obtain ⟨s', hs', rfl⟩ := Option.map_eq_some_iff.mp hs
    rw [hf]
    exact hc.owned p s' hs'
  · simp [mapRecords, hc.unused p hp]

theorem quotaAfter_toInt (k : Nat) (q : Int32) :
    (quotaAfter k q).toInt = if 0 ≤ q.toInt then max 0 (q.toInt - k) else q.toInt := by
  have hle : 0 ≤ q ↔ 0 ≤ q.toInt := Int32.le_iff_toInt_le
  unfold quotaAfter
  by_cases hq : 0 ≤ q
  · have hlt := q.toInt_lt
    rw [if_pos hq, if_pos (hle.mp hq)]
    apply Int32.toInt_ofInt_of_le
    · omega
    · omega
  · rw [if_neg hq, if_neg fun h => hq (hle.mpr h)]

theorem charge_zero (s : Session) : charge 0 s = s := by
  have hq : quotaAfter 0 s.quotaRemaining = s.quotaRemaining := by
    apply Int32.toInt.inj
    rw [quotaAfter_toInt]
    split <;> omega
  rw [charge, hq]

theorem charge_charge (j k : Nat) (s : Session) : charge k (charge j s) = charge (j + k) s := by
  have hq : quotaAfter k (quotaAfter j s.quotaRemaining) = quotaAfter (j + k) s.quotaRemaining := by
    apply Int32.toInt.inj
    rw [quotaAfter_toInt, quotaAfter_toInt, quotaAfter_toInt]
    by_cases h : 0 ≤ s.quotaRemaining.toInt
    · rw [if_pos h, if_pos (by omega), if_pos h]
      omega
    · rw [if_neg h, if_neg h, if_neg h]
  simp only [charge, hq]

/-- What `updateQuotaRemaining` does to a record is to charge it a unit. -/
theorem charge_one (s : Session) :
    charge 1 s = { s with quotaRemaining := if s.quotaRemaining > 0 then s.quotaRemaining - 1
                                            else s.quotaRemaining } := by
  have hq : quotaAfter 1 s.quotaRemaining =
      if s.quotaRemaining > 0 then s.quotaRemaining - 1 else s.quotaRemaining := by
    have hlt : s.quotaRemaining > 0 ↔ 0 < s.quotaRemaining.toInt := Int32.lt_iff_toInt_lt
    apply Int32.toInt.inj
    rw [quotaAfter_toInt]
    by_cases h : s.quotaRemaining > 0
    · have hpos := hlt.mp h
      rw [if_pos h, pred_toInt h]
      split <;> omega
    · have hnot := mt hlt.mpr h
      rw [if_neg h]
      split <;> omega
  rw [charge, hq]

/-- To change the records of an IP that has none is to change nothing. -/
theorem mapRecords_absent {m : Controller} (hm : m.WF) {IP : String}
    (hp : m.sessions[IP]? = none) (f : Session → Session) :
    (mapRecords m fun s => if s.IP = IP then f s else s) = m := by
  unfold mapRecords
  congr 1
  funext p
  cases hs : m.heap p with
  | none => rfl
  | some s =>
    have hne : s.IP ≠ IP := by
      intro hIP
      have hstored := hm.owned p s hs
      rw [hIP, hp] at hstored
      exact absurd hstored (by simp)
    simp [hne]

/-- To change the records of an IP that has one is to change that one. -/
theorem mapRecords_stored {m : Controller} (hm : m.WF) {IP : String} {p : Ptr} {s : Session}
    (hp : m.sessions[IP]? = some p) (hs : m.heap p = some s) (hIP : s.IP = IP)
    (f : Session → Session) :
    (mapRecords m fun s => if s.IP = IP then f s else s) = m.store p (f s) := by
  unfold Controller.store mapRecords
  congr 1
  funext q
  rw [Function.update_apply]
  by_cases hq : q = p
  · simp [hq, hs, hIP]
  · rw [if_neg hq]
    cases hs' : m.heap q with
    | none => rfl
    | some s' =>
      have hne : s'.IP ≠ IP := by
        intro hIP'
        have hstored := hm.owned q s' hs'
        rw [hIP', hp] at hstored
        exact hq (Option.some.inj hstored).symm
      simp [hne]

/-- The only record that changes is the one of the IP. -/
theorem updateQuotaRemaining_run (hw : w.mem.WF) (IP : String) :
    ∃ status, (updateQuotaRemaining IP).run Command.effect o w t =
      some (status,
        { w with mem := mapRecords w.mem fun s => if s.IP = IP then charge 1 s else s }, t) := by
  unfold updateQuotaRemaining amendSession withSession
  cases hp : w.mem.sessions[IP]? with
  | none =>
    refine ⟨-1, ?_⟩
    rw [mapRecords_absent hw hp]
    simp [hp]
  | some p =>
    obtain ⟨s, hs, hIP⟩ := hw.stored IP p hp
    refine ⟨0, ?_⟩
    rw [mapRecords_stored hw hp hs hIP, charge_one]
    simp [hp, run_assign hs]

theorem names_iff {line IP : String} :
    Names isSpace line IP ↔ cap1 isSpace line ≠ "" ∧ IP = cap1 isSpace line := by
  constructor
  · intro h
    have hIP : IP ≠ "" := by
      obtain ⟨-, -, -, -, hne, -⟩ := h
      intro he
      rw [he] at hne
      exact hne rfl
    have hcap := (cap1_iff hIP).mpr h
    exact ⟨fun he => hIP (hcap.symm.trans he), hcap.symm⟩
  · intro h
    obtain ⟨hne, rfl⟩ := h
    exact (cap1_iff hne).mp rfl

/-- A line charges the records of the IP that it names. -/
theorem newLine_run (hw : w.mem.WF) (line : String) :
    (newLine isSpace line).run Command.effect o w t =
      some ((), { w with mem := mapRecords w.mem fun s => charge (named isSpace [line] s.IP) s },
        t) := by
  unfold newLine
  by_cases hcap : cap1 isSpace line = ""
  · have hnone : ∀ IP, named isSpace [line] IP = 0 := by
      intro IP
      simp [named, names_iff, hcap]
    simp [Code.run_when, hcap, hnone, charge_zero, mapRecords_id]
  · obtain ⟨status, hrun⟩ := updateQuotaRemaining_run (o := o) (t := t) hw (cap1 isSpace line)
    have hsame : ∀ s : Session, charge (named isSpace [line] s.IP) s =
        if s.IP = cap1 isSpace line then charge 1 s else s := by
      intro s
      by_cases hs : s.IP = cap1 isSpace line
      · have hone : named isSpace [line] s.IP = 1 := by simp [named, names_iff, hcap, hs]
        rw [hone, if_pos hs]
      · have hzero : named isSpace [line] s.IP = 0 := by simp [named, names_iff, hs]
        rw [hzero, if_neg hs, charge_zero]
    have hlen : 0 < (cap1 isSpace line).length := by
      rw [Nat.pos_iff_ne_zero]
      exact fun h => hcap (String.length_eq_zero_iff.mp h)
    simp [Code.run_when, hlen, hrun, hsame]

/-! ## All lines -/

theorem newLines_run (hw : w.mem.WF) (lines : List String) :
    (newLines isSpace lines).run Command.effect o w t =
      some ((), { w with mem := mapRecords w.mem fun s => charge (named isSpace lines s.IP) s },
        t) := by
  induction lines generalizing w with
  | nil => simp [newLines, named, charge_zero, mapRecords_id]
  | cons line lines ih =>
    have hadd : ∀ IP, named isSpace (line :: lines) IP =
        named isSpace [line] IP + named isSpace lines IP := by
      intro IP
      show named isSpace ([line] ++ lines) IP = _
      exact List.countP_append
    have hwf := wf_mapRecords (f := fun s => charge (named isSpace [line] s.IP) s) hw fun _ => rfl
    have hcharge : ∀ s : Session,
        charge (named isSpace lines (charge (named isSpace [line] s.IP) s).IP)
            (charge (named isSpace [line] s.IP) s) =
          charge (named isSpace (line :: lines) s.IP) s := by
      intro s
      rw [hadd]
      exact charge_charge ..
    simp only [newLines, Code.bind_eq, Code.run_bind, newLine_run hw, Option.bind_some]
    rw [ih hwf, mapRecords_mapRecords]
    simp only [hcharge]

/-- From any state of the Controller, whatever lines are delivered: every record is charged
one unit for each line that names its IP, nothing else changes, and in any other order the
lines do the same. -/
theorem quota_accounting (isSpace : Char → Bool) (hw : w.mem.WF) (lines : List String)
    (o : Oracle Command) (t : List (Command × Int)) :
    (newLines isSpace lines).run Command.effect o w t =
        some ((), { w with mem := mapRecords w.mem fun s => charge (named isSpace lines s.IP) s },
          t) ∧
      (∀ k s, (charge k s).quotaRemaining.toInt =
        if 0 ≤ s.quotaRemaining.toInt then max 0 (s.quotaRemaining.toInt - k)
        else s.quotaRemaining.toInt) ∧
      ∀ lines', lines'.Perm lines →
        (newLines isSpace lines').run Command.effect o w t =
          (newLines isSpace lines).run Command.effect o w t := by
  refine ⟨newLines_run hw lines, fun k s => quotaAfter_toInt k s.quotaRemaining, ?_⟩
  intro lines' hperm
  have hsame : named isSpace lines' = named isSpace lines := by
    funext IP
    exact hperm.countP_eq _
  rw [newLines_run hw, newLines_run hw, hsame]

/-- The line of the kernel log that the source shows, for a Controller with a session of its
address. -/
theorem quota_accounting_kernel_line :
    let lines := ["Jan  6 10:15:40 localhost kernel: [ 8847.438047] GW_SESSION_1MB_HACK IN=eth0 " ++
      "OUT=wlan0 SRC=192.168.2.150 DST=200.17.202.197 LEN=52 TOS=0x00 PREC=0x00 TTL=63"]
    let mem := GwWorld.init.mem.insertNew "192.168.2.150"
    (newLines Char.isWhitespace lines).run Command.effect (fun _ _ => 0) ⟨mem, fun _ => none⟩ [] =
        some ((), ⟨mapRecords mem fun s => charge (named Char.isWhitespace lines s.IP) s,
          fun _ => none⟩, []) ∧
      (∀ k s, (charge k s).quotaRemaining.toInt =
        if 0 ≤ s.quotaRemaining.toInt then max 0 (s.quotaRemaining.toInt - k)
        else s.quotaRemaining.toInt) ∧
      ∀ lines', lines'.Perm lines →
        (newLines Char.isWhitespace lines').run Command.effect (fun _ _ => 0)
            ⟨mem, fun _ => none⟩ [] =
          (newLines Char.isWhitespace lines).run Command.effect (fun _ _ => 0)
            ⟨mem, fun _ => none⟩ [] :=
  quota_accounting _ (Controller.wf_init.insertNew (by simp [Controller.init])) _ _ _

end WifiGateway.QuotaBeacon
