import WifiGateway.Api.Registration
import WifiGateway.FileWatcher.Watcher
import WifiGateway.Gateway.Life
import WifiGateway.Script.Start
import WifiGateway.Text.Arg

/-!
# The process from its start to its end

`main` constructs the Controller, which watches the log and runs `gw_init`, and the adaptor for the
bus, and serves events until it is told to quit. When it quits the Controller cleans up, and once
more when it is destroyed; it is also destroyed when the constructor of the adaptor throws. When its
own constructor throws there is no Controller yet, and nobody cleans up. And if a command is still
running when it quits, then both clean-ups are refused, since the runner is busy.

`starts_iff` says when the process gets as far as to serve events, and `main_undone_iff` when it
leaves the rules as they were.
-/

namespace WifiGateway

open Script
open Waiting (Config Move)

/-! ## The program -/

/-- `QSettings`: the texts of the keys that are set. -/
abbrev QSettings := String → Option String

/-- `settings.value(key, default).toString()`. -/
def QSettings.value (settings : QSettings) (key default : String) : String :=
  (settings key).getD default

/-- What the constructor of the Controller gives to `runCommandExec`. -/
def initLine (dir : ScriptDir) (extIf intIf fW : String) : String :=
  QString.arg (QString.arg (QString.arg
    (dir.path ++ "/wifigateway-script/gw_init.sh EXTIF=%1 INTIF=%2 SET_DEFAULT_FIREWALL=%3")
    extIf) intIf) fW

/-- `GW_QUOTA_LOG_FILE`. -/
def quotaLogFile : String := "/var/log/kern.log"

/-- `FileWatcher::FileWatcher` for this path: what it throws, if it does. -/
def FileWatcher.construct (path : String) (readUser : Bool) (d : FileWatcher.Disk) :
    Except String FileWatcher.Watcher :=
  if d.path = none then .error (QString.arg "Could not watch file %1. Does not exist?" path)
  else if readUser = false then
    .error (QString.arg "Could not watch file %1. No permission." path)
  else .ok (FileWatcher.Watcher.construct d)

/-- `Controller::Controller`: what it throws, if it does, and the rules after it. The member that
watches the log is constructed first. `runCommandExec` gives a value, what the command has printed,
and the rules after it. -/
def Controller.construct (dir : ScriptDir) (settings : QSettings) (readUser : Bool)
    (disk : FileWatcher.Disk)
    (runCommandExec : String → Iptables.Ruleset → (Int × String) × Iptables.Ruleset)
    (rs : Iptables.Ruleset) : Except String Controller × Iptables.Ruleset :=
  match FileWatcher.construct quotaLogFile readUser disk with
  | .error e => (.error e, rs)
  | .ok _ =>
    let extIf := settings.value "EXTIF" ""
    let intIf := settings.value "INTIF" ""
    let fW := settings.value "SET_DEFAULT_FIREWALL" ""
    if extIf = "" ∨ intIf = "" then (.error "Config error. No interface def provided", rs)
    else
      let r := runCommandExec (initLine dir extIf intIf fW) rs
      if r.1.1 ≠ 0 then
        (.error (QString.arg (QString.arg "Failed initializing IPTables rules: %1; %2" r.1.1.repr)
          r.1.2), r.2)
      else (.ok Controller.init, r.2)

/-- How `main` ends. -/
inductive Outcome
  /-- `app.exec` has returned, and no command was running. -/
  | quit
  /-- `app.exec` has returned while a command was running. -/
  | interrupted
  /-- `qFatal`, with what was thrown. -/
  | fatal (message : String)
  | crashed
  deriving DecidableEq, Repr

/-! ## Around the program -/

/-- A text that the shell takes for a word, and `QString::arg` for no marker. -/
structure IsValue (s : String) : Prop where
  plain : Shell.plain s = true
  noBlank : s.toList.any Shell.isBlank = false
  noPercent : '%' ∉ s.toList

/-- Where the process runs: the scripts, the settings, the log, the environment, the shell, and the
bus. -/
structure Installation where
  dir : ScriptDir
  settings : QSettings
  disk : FileWatcher.Disk
  /-- The process may read the log. -/
  readUser : Bool
  environment : String → String
  /-- What becomes of a line for `gw_init.sh` that the shell does more with than splitting it, or
  that assigns to other variables. -/
  specialInit : String → Iptables.Ruleset → Exit × Iptables.Ruleset
  special : Special
  isConnected : Bool
  service : ℕ → Bool
  object : ℕ → Bool
  noPercent : '%' ∉ dir.path.toList
  value : ∀ key, IsValue (settings.value key "")
  kept : environment "RESET_IPTABLES" ≠ "yes"

/-- What becomes of the scripts that a process runs next to those of its events. -/
structure ProcessFate where
  /-- The commands of `gw_init` that are refused, or that it does not get to before it is killed. -/
  refusesInit : Iptables.Command → Bool
  /-- `gw_init` ends before the timer runs out. -/
  inTime : Bool
  /-- The clean-up when `app.exec` has returned. -/
  atQuit : Fate
  /-- The clean-up when the Controller is destroyed. -/
  last : Fate
  /-- What is running when the process is told to quit, which kills it in the end. -/
  inFlight : Fate

/-- What `error` prints. -/
def printed : Exit → String
  | .error message => "ERROR: " ++ message ++ "\n"
  | .ok _ => ""

namespace Installation

variable (I : Installation)

/-- `gw_init.sh`, run by a command line. -/
def gwInitSh (refuses : Iptables.Command → Bool) (line : String) (rs : Iptables.Ruleset) :
    Exit × Iptables.Ruleset :=
  match (Shell.split line).bind fun ws => told I.environment (Shell.unquoted ws.tail) with
  | none => I.specialInit line rs
  | some env => gwInit refuses env rs

/-- What `runCommandExec` gives for it: the exit status, or -1 if the script is killed. -/
def initExec (F : ProcessFate) (line : String) (rs : Iptables.Ruleset) :
    (Int × String) × Iptables.Ruleset :=
  let r := I.gwInitSh F.refusesInit line rs
  (if F.inTime then (status r.1, printed r.1) else (-1, ""), r.2)

/-- The Controller is constructed on the rules that there are. -/
def construct (F : ProcessFate) (rs : Iptables.Ruleset) :
    Except String Controller × Iptables.Ruleset :=
  Controller.construct I.dir I.settings I.readUser I.disk (I.initExec F) rs

/-- `Controller::cleanup`, its command not refused by the runner. -/
def cleanup (fate : Fate) (rs : Iptables.Ruleset) : Iptables.Ruleset :=
  (runScript I.dir I.special .cleanUp fate rs).2

/-- `main` once the Controller is there: the adaptor is constructed, and events are served until it
is told to quit. -/
def serve (F : ProcessFate) (moves : List (Move Event Fate)) (c : Controller)
    (rs : Iptables.Ruleset) : Outcome × Iptables.Ruleset :=
  match Api.construct I.isConnected I.service I.object with
  -- what is constructed is destroyed before the message is given
  | .error e => (.fatal e, I.cleanup F.last rs)
  | .ok _ =>
    let d := fullGateway.runMoves (runScript I.dir I.special) (Config.idle ⟨c, rs⟩) moves
    if d.crashed then (.crashed, d.world.env)
    else
      match d.stack with
      | [] => (.quit, I.cleanup F.last (I.cleanup F.atQuit d.world.env))
      -- the loop that waits for the command returns, and the runner is still busy with it:
      -- what the call does next, and both clean-ups, are refused
      | f :: _ => (.interrupted, (runScript I.dir I.special f.cmd F.inFlight d.world.env).2)

/-- `main`, which serves these events: how it ends, and the rules after it. -/
def main (F : ProcessFate) (moves : List (Move Event Fate)) (rs : Iptables.Ruleset) :
    Outcome × Iptables.Ruleset :=
  let constructed := I.construct F rs
  match constructed.1 with
  | .error e => (.fatal e, constructed.2)
  | .ok c => I.serve F moves c constructed.2

/-- The log is there and may be read. -/
def Readable : Prop := I.disk.path ≠ none ∧ I.readUser = true

/-- What the settings and the environment tell `gw_init`. -/
def told : Settings where
  extif := I.settings.value "EXTIF" ""
  intif := I.settings.value "INTIF" ""
  setDefaultFirewall := I.settings.value "SET_DEFAULT_FIREWALL" ""
  resetIptables := I.environment "RESET_IPTABLES"

/-- The arguments of `gw_init.sh`. -/
def initArguments : List String :=
  ["EXTIF=" ++ I.told.extif, "INTIF=" ++ I.told.intif,
    "SET_DEFAULT_FIREWALL=" ++ I.told.setDefaultFirewall]

end Installation

/-! ## The command line of `gw_init.sh` -/

variable {I : Installation} {F : ProcessFate} {rs base : Iptables.Ruleset} {s : String}

/-- A marker in a value is taken for one of the line. -/
example : initLine installed "%2" "wlan0" "" =
    "/usr/bin//wifigateway-script/gw_init.sh EXTIF=wlan0 INTIF=wlan0 SET_DEFAULT_FIREWALL=" := by
  decide +kernel

theorem IsValue.isArgument {name : String} (h : IsValue s) (hplain : Shell.plain name = true)
    (hblank : name.toList.any Shell.isBlank = false) (hcomment : Shell.isComment name = false)
    (hne : name ≠ "") : IsArgument (name ++ s) := by
  have hlist : (name ++ s).toList = name.toList ++ s.toList := String.toList_append
  have hchars : name.toList ≠ [] := fun hnil => hne (String.toList_eq_nil_iff.mp hnil)
  refine ⟨⟨?_, ?_⟩, ?_, ?_⟩
  · intro hempty
    rw [hempty] at hlist
    exact hchars (List.append_eq_nil_iff.mp hlist.symm).1
  · rw [hlist, List.any_append, hblank, h.noBlank]
    rfl
  · rw [Shell.plain_append, hplain, h.plain]
    rfl
  · unfold Shell.isComment at hcomment ⊢
    rw [hlist, List.head?_append_of_ne_nil _ hchars]
    exact hcomment

/-- Values without percent signs come out as they are, each in its place. -/
theorem initLine_eq {dir : ScriptDir} {extIf intIf fW : String} (hdir : '%' ∉ dir.path.toList)
    (hext : '%' ∉ extIf.toList) (hint : '%' ∉ intIf.toList) (hfw : '%' ∉ fW.toList) :
    initLine dir extIf intIf fW =
      dir.path ++ "/wifigateway-script/gw_init.sh" ++ " " ++ ("EXTIF=" ++ extIf) ++ " " ++
        ("INTIF=" ++ intIf) ++ " " ++ ("SET_DEFAULT_FIREWALL=" ++ fW) := by
  have hvalues : ∀ v ∈ [extIf, intIf, fW], '%' ∉ v.toList := by
    simp [hext, hint, hfw]
  have hlead : '%' ∉ dir.path.toList ++ "/wifigateway-script/gw_init.sh EXTIF=".toList := by
    rw [List.mem_append, not_or]
    exact ⟨hdir, by simp⟩
  have htext : QString.text (QString.format 1 "/wifigateway-script/gw_init.sh EXTIF=".toList
      [" INTIF=".toList, " SET_DEFAULT_FIREWALL=".toList, []]) =
      "/wifigateway-script/gw_init.sh EXTIF=%1 INTIF=%2 SET_DEFAULT_FIREWALL=%3".toList := by
    rfl
  have hformat : dir.path ++
      "/wifigateway-script/gw_init.sh EXTIF=%1 INTIF=%2 SET_DEFAULT_FIREWALL=%3" =
      String.ofList (QString.text (QString.format 1
        (dir.path.toList ++ "/wifigateway-script/gw_init.sh EXTIF=".toList)
        [" INTIF=".toList, " SET_DEFAULT_FIREWALL=".toList, []])) := by
    rw [QString.format_append, QString.text_chars, htext, ← String.toList_append,
      String.ofList_toList]
  have hapart : QString.Apart [" INTIF=".toList, " SET_DEFAULT_FIREWALL=".toList, []] := by
    simp [QString.Apart]
  have hrest : ∀ r ∈ [" INTIF=".toList, " SET_DEFAULT_FIREWALL=".toList, []], '%' ∉ r := by
    simp
  have hfold := QString.foldl_arg (k := 1) (by decide) hlead hrest hapart hvalues rfl
  rw [← hformat] at hfold
  have hmerge : QString.merge (dir.path.toList ++ "/wifigateway-script/gw_init.sh EXTIF=".toList)
      ([extIf, intIf, fW].map String.toList)
      [" INTIF=".toList, " SET_DEFAULT_FIREWALL=".toList, []] =
      (dir.path ++ "/wifigateway-script/gw_init.sh" ++ " " ++ ("EXTIF=" ++ extIf) ++ " " ++
        ("INTIF=" ++ intIf) ++ " " ++ ("SET_DEFAULT_FIREWALL=" ++ fW)).toList := by
    simp [QString.merge]
  rw [hmerge, String.ofList_toList, List.foldl_cons, List.foldl_cons, List.foldl_cons,
    List.foldl_nil] at hfold
  unfold initLine
  exact hfold

theorem Installation.isArgument {w : String} (hw : w ∈ I.initArguments) : IsArgument w := by
  simp only [initArguments, List.mem_cons, List.not_mem_nil, or_false] at hw
  rcases hw with rfl | rfl | rfl
  · exact (I.value "EXTIF").isArgument (by decide) (by decide) (by decide) (by decide)
  · exact (I.value "INTIF").isArgument (by decide) (by decide) (by decide) (by decide)
  · exact (I.value "SET_DEFAULT_FIREWALL").isArgument (by decide) (by decide) (by decide)
      (by decide)

/-- The line is taken apart into these arguments. -/
theorem Installation.split_initLine (I : Installation) :
    Shell.split (initLine I.dir I.told.extif I.told.intif I.told.setDefaultFirewall) =
      some ((I.dir.path ++ "/wifigateway-script/gw_init.sh") :: I.initArguments) := by
  have hscript : IsArgument (I.dir.path ++ "/wifigateway-script/gw_init.sh") :=
    isArgument_script I.dir (by decide) (by decide) (by decide)
  have hext : IsArgument ("EXTIF=" ++ I.told.extif) := isArgument List.mem_cons_self
  have hrest : ∀ w ∈ ["INTIF=" ++ I.told.intif,
      "SET_DEFAULT_FIREWALL=" ++ I.told.setDefaultFirewall], IsArgument w :=
    fun w hw => isArgument (List.mem_cons_of_mem _ hw)
  have hcomment : Shell.uncomment I.initArguments = I.initArguments :=
    List.takeWhile_eq_self_iff.mpr fun w hw => by simp [(isArgument hw).noComment]
  have hline : initLine I.dir I.told.extif I.told.intif I.told.setDefaultFirewall = _ :=
    initLine_eq I.noPercent (I.value "EXTIF").noPercent (I.value "INTIF").noPercent
      (I.value "SET_DEFAULT_FIREWALL").noPercent
  have hsplit := split_line hscript hext.plain hrest
  rw [Shell.words_of_isWord hext.toIsWord, List.foldl_cons, List.foldl_cons, List.foldl_nil,
    ← hline] at hsplit
  exact hsplit.trans (congrArg (fun ws => some (_ :: ws)) hcomment)

/-- `gw_init` is told what is set. -/
theorem Installation.gwInitSh_eq (I : Installation) (refuses : Iptables.Command → Bool)
    (rs : Iptables.Ruleset) :
    I.gwInitSh refuses (initLine I.dir I.told.extif I.told.intif I.told.setDefaultFirewall) rs =
      gwInit refuses I.told rs := by
  have hwords : Shell.unquoted I.initArguments = I.initArguments :=
    Shell.unquoted_of_isWord fun w hw => (isArgument hw).toIsWord
  have htold : Script.told I.environment I.initArguments = some I.told := by
    unfold Script.told
    rw [hwords, initArguments, List.foldlM_cons, exportArg_extif]
    show List.foldlM exportArg _ _ = _
    rw [List.foldlM_cons, exportArg_intif]
    show List.foldlM exportArg _ _ = _
    rw [List.foldlM_cons, exportArg_setDefaultFirewall]
    rfl
  unfold gwInitSh
  rw [I.split_initLine, Option.bind_some, List.tail_cons, hwords, htold]

/-! ## The constructor of the Controller -/

/-- `gw_init` ends in time and adds the rule for masquerading: it is not refused, and its chain is
made or there from before. -/
structure ProcessFate.Initializes (F : ProcessFate) (env : Settings) (rs : Iptables.Ruleset) :
    Prop where
  inTime : F.inTime = true
  masquerades : F.refusesInit (.append .nat natPostrouting (masqueradeRule env)) = false
  chain : rs.rules .nat natPostrouting ≠ none ∨
    F.refusesInit (.newChain .nat natPostrouting) = false

/-- Without a log that it may read the watcher throws. -/
theorem watcher_throws (path : String) (h : ¬ I.Readable) :
    ∃ message, FileWatcher.construct path I.readUser I.disk = .error message := by
  unfold FileWatcher.construct
  by_cases hpath : I.disk.path = none
  · exact ⟨_, if_pos hpath⟩
  · have hread : I.readUser = false := Bool.eq_false_iff.mpr fun hread => h ⟨hpath, hread⟩
    rw [if_neg hpath, if_pos hread]
    exact ⟨_, rfl⟩

theorem watcher_constructed (path : String) (h : I.Readable) :
    FileWatcher.construct path I.readUser I.disk = .ok (FileWatcher.Watcher.construct I.disk) := by
  unfold FileWatcher.construct
  rw [if_neg h.1, if_neg (by simp [h.2])]

/-- Without a log or an interface nothing is run. -/
theorem construct_early (F : ProcessFate) (rs : Iptables.Ruleset)
    (h : ¬ I.Readable ∨ I.told.extif = "" ∨ I.told.intif = "") :
    ∃ message, I.construct F rs = (.error message, rs) := by
  unfold Installation.construct Controller.construct
  by_cases hread : I.Readable
  · rw [watcher_constructed _ hread]
    exact ⟨_, if_pos (h.resolve_left (not_not.mpr hread))⟩
  · obtain ⟨message, hthrown⟩ := watcher_throws quotaLogFile hread
    rw [hthrown]
    exact ⟨message, rfl⟩

/-- The rules after the constructor has run `gw_init`, and when it throws. -/
theorem construct_told (F : ProcessFate) (rs : Iptables.Ruleset) (hread : I.Readable)
    (hext : I.told.extif ≠ "") (hint : I.told.intif ≠ "") :
    (I.construct F rs).2 = (gwInit F.refusesInit I.told rs).2 ∧
      (F.Initializes I.told rs ∧ (I.construct F rs).1 = .ok Controller.init ∨
        ¬ F.Initializes I.told rs ∧ ∃ message, (I.construct F rs).1 = .error message) := by
  generalize hr : I.initExec F (initLine I.dir I.told.extif I.told.intif
    I.told.setDefaultFirewall) rs = r
  have hexec : r = (if F.inTime then ((status (gwInit F.refusesInit I.told rs).1 : Int),
      printed (gwInit F.refusesInit I.told rs).1) else (-1, ""),
      (gwInit F.refusesInit I.told rs).2) := by
    rw [← hr, Installation.initExec, I.gwInitSh_eq]
  have hiff : r.1.1 = 0 ↔ F.Initializes I.told rs := by
    have hstatus : status (gwInit F.refusesInit I.told rs).1 = 0 ↔ _ :=
      gwInit_status_iff hext hint I.kept
    rw [hexec]
    cases htime : F.inTime with
    | true =>
      refine Int.natCast_eq_zero.trans (hstatus.trans ?_)
      exact ⟨fun h => ⟨htime, h.1, h.2⟩, fun h => ⟨h.masquerades, h.chain⟩⟩
    | false => exact iff_of_false (by simp) fun h => absurd h.inTime (by simp [htime])
  have hmissing : ¬ (I.told.extif = "" ∨ I.told.intif = "") := not_or.mpr ⟨hext, hint⟩
  have hconstruct : I.construct F rs = if r.1.1 ≠ 0 then
      (.error (QString.arg (QString.arg "Failed initializing IPTables rules: %1; %2" r.1.1.repr)
        r.1.2), r.2)
      else (.ok Controller.init, r.2) := by
    rw [← hr]
    unfold Installation.construct Controller.construct
    rw [watcher_constructed _ hread]
    exact if_neg hmissing
  have hrules : r.2 = (gwInit F.refusesInit I.told rs).2 := by rw [hexec]
  rw [hconstruct]
  by_cases hinit : F.Initializes I.told rs
  · rw [if_neg (not_not.mpr (hiff.mpr hinit))]
    exact ⟨hrules, .inl ⟨hinit, rfl⟩⟩
  · rw [if_pos fun h => hinit (hiff.mp h)]
    exact ⟨hrules, .inr ⟨hinit, _, rfl⟩⟩

/-- The Controller is constructed if and only if the log may be read, both interfaces are set and
`gw_init` ends in time having added its rule for masquerading: what else of it was refused goes
unnoticed. -/
theorem constructed_iff (I : Installation) (F : ProcessFate) (rs : Iptables.Ruleset) :
    (∃ c, (I.construct F rs).1 = .ok c) ↔
      I.Readable ∧ I.settings.value "EXTIF" "" ≠ "" ∧ I.settings.value "INTIF" "" ≠ "" ∧
        F.Initializes I.told rs := by
  constructor
  · rintro ⟨c, hc⟩
    by_cases hearly : ¬ I.Readable ∨ I.told.extif = "" ∨ I.told.intif = ""
    · obtain ⟨message, hthrown⟩ := construct_early F rs hearly
      rw [hthrown] at hc
      exact absurd hc (by simp)
    · obtain ⟨hread, hset⟩ := not_or.mp hearly
      obtain ⟨hext, hint⟩ := not_or.mp hset
      rcases (construct_told F rs (not_not.mp hread) hext hint).2 with
        ⟨hinit, -⟩ | ⟨-, message, hthrown⟩
      · exact ⟨not_not.mp hread, hext, hint, hinit⟩
      · exact absurd (hthrown.symm.trans hc) (by simp)
  · rintro ⟨hread, hext, hint, hinit⟩
    rcases (construct_told F rs hread hext hint).2 with ⟨-, hok⟩ | ⟨hnot, -⟩
    · exact ⟨_, hok⟩
    · exact absurd hinit hnot

/-! ## The whole of it -/

theorem main_of_error {moves : List (Move Event Fate)} {e : String}
    (h : (I.construct F rs).1 = .error e) :
    I.main F moves rs = (.fatal e, (I.construct F rs).2) := by
  simp only [Installation.main, h]

theorem main_of_ok {moves : List (Move Event Fate)} {c : Controller}
    (h : (I.construct F rs).1 = .ok c) :
    I.main F moves rs = I.serve F moves c (I.construct F rs).2 := by
  simp only [Installation.main, h]

/-- Once the Controller is there, only the constructor of the adaptor throws. -/
theorem serve_fatal_iff (I : Installation) (F : ProcessFate) (moves : List (Move Event Fate))
    (c : Controller) (rs : Iptables.Ruleset) :
    (∃ message, (I.serve F moves c rs).1 = .fatal message) ↔
      Api.construct I.isConnected I.service I.object ≠ .ok () := by
  unfold Installation.serve
  cases Api.construct I.isConnected I.service I.object with
  | error e => exact iff_of_true ⟨e, rfl⟩ (by simp)
  | ok =>
    refine iff_of_false ?_ (by simp)
    rintro ⟨message, hfatal⟩
    dsimp only at hfatal
    split at hfatal
    · exact absurd hfatal (by simp)
    · split at hfatal
      · exact absurd hfatal (by simp)
      · exact absurd hfatal (by simp)

/-- The process gets as far as to serve events, and does not end with a message, if and only if: the
log is there and may be read; both interfaces are set; `gw_init` ends in time, and adds its rule for
masquerading; the bus is there; and each of the two registrations succeeds at one of its first
`DBUS_RETRIES` attempts. -/
theorem starts_iff (I : Installation) (F : ProcessFate) (moves : List (Move Event Fate))
    (rs : Iptables.Ruleset) :
    (¬ ∃ message, (I.main F moves rs).1 = .fatal message) ↔
      I.Readable ∧ I.settings.value "EXTIF" "" ≠ "" ∧ I.settings.value "INTIF" "" ≠ "" ∧
        F.Initializes I.told rs ∧ I.isConnected = true ∧
        (∃ i < Api.DBUS_RETRIES, I.service i = true) ∧
        ∃ i < Api.DBUS_RETRIES, I.object i = true := by
  rw [← Api.construct_ok]
  cases hc : (I.construct F rs).1 with
  | error e =>
    rw [main_of_error hc]
    refine iff_of_false (not_not.mpr ⟨e, rfl⟩) ?_
    rintro ⟨hread, hext, hint, hinit, -⟩
    obtain ⟨c, hok⟩ := (constructed_iff I F rs).mpr ⟨hread, hext, hint, hinit⟩
    exact absurd (hc.symm.trans hok) (by simp)
  | ok c =>
    obtain ⟨hread, hext, hint, hinit⟩ := (constructed_iff I F rs).mp ⟨c, hc⟩
    rw [main_of_ok hc, serve_fatal_iff, not_not]
    exact ⟨fun hbus => ⟨hread, hext, hint, hinit, hbus⟩, fun h => h.2.2.2.2⟩

/-- Whatever the process does once the Controller is there, it takes away what `gw_init` has left,
if it does not crash, is not interrupted, and the last clean-up is carried out. -/
theorem serve_undone (hbase : Clean base) (hlast : F.last = Fate.clear)
    {moves : List (Move Event Fate)} (hmoves : ∀ m ∈ moves, m.Only Event.Splits)
    (h : (initFootprint I.told).Covers isGateway base rs)
    (hcrash : (I.serve F moves Controller.init rs).1 ≠ .crashed)
    (hquiet : (I.serve F moves Controller.init rs).1 ≠ .interrupted) :
    (I.serve F moves Controller.init rs).2 = base := by
  have hsplits : Command.cleanUp.Splits := fun a ha => absurd ha (by simp [Command.host])
  have hdestroy : ∀ {rs}, (initFootprint I.told).Covers isGateway base rs →
      I.cleanup F.last rs = base := by
    intro rs h
    obtain ⟨args, hargs⟩ : ∃ args, arguments I.dir .cleanUp = some args := hsplits.arguments
    have hrun : I.cleanup F.last rs = (cleanUpReport F.last rs).2 := by
      unfold Installation.cleanup runScript
      rw [hargs]
    rw [hrun, hlast, cleanUpReport_clear]
    exact Covers.undone hbase h
  have hserved := Covers.gatewayRun hbase h I.dir I.special hmoves
  unfold Installation.serve at hcrash hquiet ⊢
  generalize fullGateway.runMoves (runScript I.dir I.special) _ moves = d
    at hcrash hquiet hserved ⊢
  cases hbus : Api.construct I.isConnected I.service I.object with
  | error e => exact hdestroy h
  | ok =>
    rw [hbus] at hcrash hquiet
    dsimp only at hcrash hquiet ⊢
    split at hcrash
    · exact absurd rfl hcrash
    · next halive =>
      rw [if_neg halive] at hquiet ⊢
      cases hstack : d.stack with
      | nil => exact hdestroy (Covers.script hbase hserved hsplits)
      | cons f rest =>
        rw [hstack] at hquiet
        exact absurd rfl hquiet

/-- The process leaves the rules as they were, on which there is nothing of a gateway, if and only
if the log may not be read, or an interface is not set, or the Controller is constructed, or
`gw_init` may make none of its chains. So whatever comes after the constructor of the Controller, a
bus that is not there or any run of calls, nested or not, with whatever refused of the scripts, is
undone in the end; what is not is a start that `gw_init` fails in, having made a chain. -/
theorem main_undone_iff (hbase : Clean base) (hlast : F.last = Fate.clear)
    {moves : List (Move Event Fate)} (hmoves : ∀ m ∈ moves, m.Only Event.Splits)
    (hcrash : (I.main F moves base).1 ≠ .crashed)
    (hquiet : (I.main F moves base).1 ≠ .interrupted) :
    (I.main F moves base).2 = base ↔
      ¬ I.Readable ∨ I.settings.value "EXTIF" "" = "" ∨ I.settings.value "INTIF" "" = "" ∨
        F.Initializes I.told base ∨
        ∀ n ∈ ownChains I.told, F.refusesInit (.newChain n.1 n.2) = true := by
  by_cases hearly : ¬ I.Readable ∨ I.told.extif = "" ∨ I.told.intif = ""
  · obtain ⟨message, hthrown⟩ := construct_early F base hearly
    have hmain : (I.main F moves base).2 = base := by
      rw [main_of_error (congrArg Prod.fst hthrown), hthrown]
    refine iff_of_true hmain ?_
    rcases hearly with hread | hext | hint
    · exact .inl hread
    · exact .inr (.inl hext)
    · exact .inr (.inr (.inl hint))
  · obtain ⟨hread, hset⟩ := not_or.mp hearly
    obtain ⟨hext, hint⟩ := not_or.mp hset
    have hsettings : ¬ I.settings.value "EXTIF" "" = "" ∧ ¬ I.settings.value "INTIF" "" = "" :=
      ⟨hext, hint⟩
    rw [or_iff_right hread, or_iff_right hsettings.1, or_iff_right hsettings.2]
    obtain ⟨hrules, ⟨hinit, hok⟩ | ⟨hnot, message, hthrown⟩⟩ :=
      construct_told F base (not_not.mp hread) hext hint
    · rw [main_of_ok hok, hrules] at hcrash hquiet ⊢
      have hcovers : (initFootprint I.told).Covers isGateway base
          (gwInit F.refusesInit I.told base).2 := hbase.gwInit I.kept
      exact iff_of_true (serve_undone hbase hlast hmoves hcovers hcrash hquiet) (.inl hinit)
    · rw [main_of_error hthrown, hrules, gwInit_undone_iff hbase I.kept, or_iff_right hext,
        or_iff_right hint, or_iff_right hnot]

/-- `server.ini`, a log, and a bus that takes the object at the second attempt. -/
def server : Installation where
  dir := installed
  settings := fun key =>
    if key = "EXTIF" then some "eth0" else if key = "INTIF" then some "wlan0" else none
  disk := ⟨some 1, fun _ => [], 2⟩
  readUser := true
  environment := fun _ => ""
  specialInit := fun _ rs => (.error "", rs)
  special := fun _ _ rs => (-1, rs)
  isConnected := true
  service := fun _ => true
  object := fun i => i != 0
  noPercent := by decide
  value := by
    intro key
    unfold QSettings.value
    dsimp only
    split
    · exact ⟨by decide, by decide, by decide⟩
    · split
      · exact ⟨by decide, by decide, by decide⟩
      · exact ⟨by decide, by decide, by decide⟩
  kept := by decide

/-- The clean-up at the end is killed, and the one after it is carried out; a script that is in
flight then is killed at once. -/
def processFate : ProcessFate where
  refusesInit := Iptables.refusesNone
  inTime := true
  atQuit := ⟨Iptables.refusesNone, some 3⟩
  last := Fate.clear
  inFlight := ⟨Iptables.refusesNone, some 0⟩

/-- A session is started, a clean-up fails, and another session is started. -/
def quitMoves : List (Move Event Fate) :=
  [.call (.call (.startSession "10.0.0.7")), .ends Fate.clear, .call .cleanup,
    .ends ⟨refusesLimit0, some 1⟩, .call (.call (.startSession "10.0.0.9")),
    .ends ⟨refusesLimit0, none⟩]

theorem main_undone_iff_server :
    (server.main processFate quitMoves systemRules).2 = systemRules ↔
      ¬ server.Readable ∨ server.settings.value "EXTIF" "" = "" ∨
        server.settings.value "INTIF" "" = "" ∨ processFate.Initializes server.told systemRules ∨
        ∀ n ∈ ownChains server.told, processFate.refusesInit (.newChain n.1 n.2) = true := by
  have hmoves : ∀ m ∈ quitMoves, m.Only Event.Splits := by
    have hplain : ∀ a ∈ ["10.0.0.7", "10.0.0.9"], Shell.plain a = true := by decide
    intro m hm
    simp only [quitMoves, List.mem_cons, List.not_mem_nil, or_false] at hm
    rcases hm with rfl | rfl | rfl | rfl | rfl | rfl
    · exact fun a ha => hplain a (Option.some.inj ha ▸ by decide)
    · trivial
    · trivial
    · trivial
    · exact fun a ha => hplain a (Option.some.inj ha ▸ by decide)
    · trivial
  have hquit : (server.main processFate quitMoves systemRules).1 = .quit := by decide +kernel
  exact main_undone_iff systemRules_clean rfl hmoves (by simp [hquit]) (by simp [hquit])

/-- Told to quit while a session is being started, the process leaves its rules behind. -/
example :
    let r := server.main processFate [.call (.call (.startSession "10.0.0.7"))] systemRules
    r.1 = .interrupted ∧ r.2 .mangle ≠ systemRules .mangle := by
  decide +kernel

end WifiGateway
