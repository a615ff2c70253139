import WifiGateway.Api.Fidelity
import WifiGateway.Web.Endpoint

/-!
# The session panel

`gateway.js` and `sessionpanel.js`: the script of the page that a visitor keeps open for as long as
the session is to go on. It starts the session, and from the answer to that on asks for an update
every 15 s; each answer makes it ask for the stats of the session, and show what they say. What
`ajax_strobe` is to do is left out: jQuery triggers ajax events on the document only.

A handler is a function of the page that returns the page and the calls that it makes. The page
reads a session by the names of `Gateway::$stats` and the state by its number in C++
(`getSessionStatsCb_stats`).
-/

namespace WifiGateway.Web

open Api (BusValue)
open Php (Entries)

/-! ## Calls and their answers -/

/-- The calls that the page makes. -/
inductive PanelCall
  | startSession
  | updateSession
  | playSession
  | pauseSession
  | endSession
  | getSessionStats
  deriving DecidableEq, Repr

/-- The method of a call. -/
def PanelCall.method : PanelCall → Method
  | .startSession => .startSession
  | .updateSession => .updateSession
  | .playSession => .playSession
  | .pauseSession => .pauseSession
  | .endSession => .endSession
  | .getSessionStats => .getSessionStats

/-- What `gw_call(method)` sends: parameters that are empty are not sent. -/
def PanelCall.post (c : PanelCall) : Entries := [(.str "method", .str c.method.name)]

/-- How a call of the page ends. -/
inductive PanelAnswer
  | result (o : Api.Outcome)
  /-- `ajax_call.error`. -/
  | unreachable
  deriving DecidableEq

/-- `result.error`. -/
def PanelAnswer.error : PanelAnswer → Bool
  | .result (.exception _ _) | .unreachable => true
  | .result (.stats _) | .result (.ips _) | .result .ok | .result .fail => false

/-! ## What is shown -/

/-- The names that the script has for states. -/
inductive StateName
  | unknown
  | starting
  | uninitialized
  | started
  | paused
  | exhausted
  | ended
  deriving DecidableEq, Repr

/-- `state_code_to_string`. -/
def stateCodeToString : Option Int → StateName
  | some 0 => .uninitialized
  | some 1 => .started
  | some 2 => .paused
  | some 3 => .exhausted
  | some 4 => .ended
  | _ => .unknown

/-- `parseInt` of a field; `none` is NaN. No field that it is used for is a string. -/
def parseInt : Option BusValue → Option Int
  | some (.int i) => some i.toInt
  | some (.uint i) => some i.toNat
  | some (.str _) | none => none

/-- The figures that the page shows. -/
structure Figures where
  timeUsed : Option Int
  quotaUsed : Option Int
  bandwidth : Option Int
  pauseTimeLeft : Option Int
  deriving DecidableEq, Repr

/-- The page: the variables of the script, what is shown and hidden, and what a click on a button
calls. -/
structure Page where
  /-- `state`. -/
  state : Option StateName
  /-- Whether there is an interval `updateTimerId`. -/
  updateTimer : Bool
  commErrorCount : Nat
  statusText : String
  figures : Option Figures
  pauseTimeStat : Bool
  pauseButton : Bool
  pauseText : String
  pauseClick : List PanelCall
  endButton : Bool
  endClick : List PanelCall
  /-- The timeouts that are to lead to `index.html`. -/
  leaving : Nat
  deriving DecidableEq, Repr

/-- The page as it is loaded. -/
def Page.loaded : Page where
  state := none
  updateTimer := false
  commErrorCount := 0
  statusText := "Uninitialized"
  figures := none
  pauseTimeStat := true
  pauseButton := true
  pauseText := "Pause Session"
  pauseClick := []
  endButton := true
  endClick := []
  leaving := 0

/-- `set_state`. -/
def setState (newState : StateName) (page : Page) : Page :=
  match newState with
  | .starting =>
    { page with
      state := some .starting
      statusText := "Starting"
      pauseTimeStat := false
      pauseButton := false
      endButton := false }
  | .uninitialized =>
    if page.state ≠ some .uninitialized then
      { page with
        state := some .uninitialized
        statusText := "Uninitialized"
        pauseTimeStat := false
        pauseButton := false
        endButton := false
        leaving := page.leaving + 1 }
    else page
  | .started =>
    if page.state ≠ some .started then
      { page with
        state := some .started
        statusText := "Started"
        pauseTimeStat := false
        pauseText := "pause"
        pauseClick := [.pauseSession]
        pauseButton := true
        endButton := true }
    else page
  | .paused =>
    if page.state ≠ some .paused then
      { page with
        state := some .paused
        statusText := "Paused"
        pauseTimeStat := true
        pauseText := "play"
        pauseClick := [.playSession]
        endButton := true }
    else page
  | .exhausted | .ended =>
    if page.state ≠ some .ended then
      { page with
        state := some .ended
        statusText := "Ended"
        pauseTimeStat := false
        pauseButton := false
        endButton := false
        -- `clearInterval(updateTimerId)`
        updateTimer := false
        leaving := page.leaving + 1 }
    else page
  | .unknown => page

/-! ## Handlers -/

/-- `jQuery(document).ready`. -/
def ready (page : Page) : Page × List PanelCall :=
  (setState .starting { page with
      pauseClick := page.pauseClick ++ [.pauseSession]
      endClick := page.endClick ++ [.endSession] },
    [.startSession])

/-- `start_session_cb`. -/
def startSessionCb (answer : PanelAnswer) (page : Page) : Page × List PanelCall :=
  (if answer.error then { page with leaving := page.leaving + 1 }
    else { page with updateTimer := true }, [.getSessionStats])

/-- `update_session_cb`. -/
def updateSessionCb (answer : PanelAnswer) (page : Page) : Page × List PanelCall :=
  (if answer.error then { page with leaving := page.leaving + 1 } else page, [.getSessionStats])

/-- `pause_session_cb`, which only has a message to show. -/
def pauseSessionCb (page : Page) : Page × List PanelCall := (page, [.getSessionStats])

/-- `play_session_cb`. -/
def playSessionCb (page : Page) : Page × List PanelCall := (page, [.getSessionStats])

/-- `end_session_cb`. -/
def endSessionCb (page : Page) : Page × List PanelCall := (page, [.getSessionStats])

/-- `get_session_stats_cb`. -/
def getSessionStatsCb (answer : PanelAnswer) (page : Page) : Page :=
  match answer with
  | .result (.stats stats) =>
    setState (stateCodeToString (parseInt (stats.lookup "state")))
      { page with
        figures := some
          { timeUsed := parseInt (stats.lookup "sessionTime")
            quotaUsed := parseInt (stats.lookup "quotaRemaining")
            bandwidth := parseInt (stats.lookup "bandwidth")
            pauseTimeLeft := parseInt (stats.lookup "pauseTimeRemaining") } }
  -- an error, or there is no `result.stats` to read from
  | .result (.exception _ _) | .unreachable | .result (.ips _) | .result .ok | .result .fail => page

/-- `comm_error`; without an error it fails before it counts. -/
def commError (error : Option String) (page : Page) : Page :=
  match error with
  | none => page
  | some _ =>
    let page := { page with commErrorCount := page.commErrorCount + 1 }
    if page.commErrorCount > 100 then { page with leaving := page.leaving + 1 } else page

/-- `comm_error_event_cb`: the event has no `error`, which comes after it. -/
def commErrorEventCb (page : Page) : Page := commError none page

/-- The handler that is bound to the end of a call. -/
def callback (answer : PanelAnswer) (page : Page) : PanelCall → Page × List PanelCall
  | .startSession => startSessionCb answer page
  | .updateSession => updateSessionCb answer page
  | .playSession => playSessionCb page
  | .pauseSession => pauseSessionCb page
  | .endSession => endSessionCb page
  | .getSessionStats => (getSessionStatsCb answer page, [])

/-- The end of a call, `ajax_call.success` or `ajax_call.error`. -/
def ajaxEnd (c : PanelCall) (answer : PanelAnswer) (page : Page) : Page × List PanelCall :=
  match answer with
  | .result _ => callback answer page c
  | .unreachable =>
    let (page, calls) := callback answer page c
    (commErrorEventCb page, calls)

/-- The interval of the update timer is over. -/
def interval (page : Page) : List PanelCall := if page.updateTimer then [.updateSession] else []

/-- A click on the pause button; it cannot be clicked while it is hidden. -/
def clickPause (page : Page) : List PanelCall := if page.pauseButton then page.pauseClick else []

/-- A click on the end button. -/
def clickEnd (page : Page) : List PanelCall := if page.endButton then page.endClick else []

/-! ## What the stats of a session make of the page -/

variable {page : Page} {name : StateName} {answer : PanelAnswer} {c : PanelCall}

/-- The name of the state of a session. -/
def nameOf : SessionState → StateName
  | .uninitialized => .uninitialized
  | .started => .started
  | .paused => .paused
  | .exhausted => .exhausted
  | .ended => .ended

/-- The name under which the page shows a state: an exhausted session is shown as ended. -/
def shownAs : SessionState → StateName
  | .uninitialized => .uninitialized
  | .started => .started
  | .paused => .paused
  | .exhausted | .ended => .ended

/-- The figures of a session. -/
def figuresOf (s : Session) : Figures where
  timeUsed := some s.sessionTime.toNat
  quotaUsed := some s.quotaRemaining.toInt
  bandwidth := some s.bandwidth.toNat
  pauseTimeLeft := some s.pauseTimeRemaining.toNat

/-- The numbers of the states mean the same in C++ and in the script. -/
theorem stateCodeToString_number (st : SessionState) :
    stateCodeToString (some (Api.stateNumber st).toInt) = nameOf st := by
  cases st with
  | uninitialized | started | paused | exhausted | ended => rfl

/-- The page reads a session as the Controller has it. -/
theorem getSessionStatsCb_stats (s : Session) (page : Page) :
    getSessionStatsCb (.result (.stats (Api.fieldsOf s))) page =
      setState (nameOf s.state) { page with figures := some (figuresOf s) } := by
  rw [← stateCodeToString_number]
  rfl

theorem setState_figures (name : StateName) (page : Page) :
    (setState name page).figures = page.figures := by
  unfold setState
  cases name with
  | starting | unknown => rfl
  | uninitialized | started | paused | exhausted | ended =>
    dsimp only
    split
    · rfl
    · rfl

/-- Afterwards the page shows the state. -/
theorem setState_nameOf (st : SessionState) (page : Page) :
    (setState (nameOf st) page).state = some (shownAs st) := by
  unfold setState
  cases st with
  | uninitialized | started | paused | exhausted | ended =>
    dsimp only [nameOf]
    split
    · rfl
    · next hshown => exact Decidable.not_not.mp hshown

/-- A session that goes on changes nothing but what is shown. -/
theorem setState_started (page : Page) :
    (setState .started page).updateTimer = page.updateTimer ∧
      (setState .started page).leaving = page.leaving := by
  unfold setState
  dsimp only
  split
  · exact ⟨rfl, rfl⟩
  · exact ⟨rfl, rfl⟩

/-- No state sets the update timer. -/
theorem updateTimer_of_setState (h : (setState name page).updateTimer = true) :
    page.updateTimer = true := by
  unfold setState at h
  cases name with
  | starting | unknown => exact h
  | uninitialized | started | paused =>
    dsimp only at h
    split at h
    · exact h
    · exact h
  | exhausted | ended =>
    dsimp only at h
    split at h
    · exact absurd h (by simp)
    · exact h

/-- Where the page shows an ended session there is no update timer. -/
theorem setState_ended (h : page.state = some .ended → page.updateTimer = false)
    (hended : (setState name page).state = some .ended) :
    (setState name page).updateTimer = false := by
  unfold setState at hended ⊢
  cases name with
  | starting => exact absurd hended (by simp)
  | unknown => exact h hended
  | uninitialized | started | paused =>
    dsimp only at hended ⊢
    split at hended
    · exact absurd hended (by simp)
    · next hshown =>
      exact absurd ((Decidable.not_not.mp hshown).symm.trans hended) (by simp)
  | exhausted | ended =>
    dsimp only at hended ⊢
    split at hended
    · next hne => rw [if_pos hne]
    · next hne =>
      rw [if_neg hne]
      exact h hended

/-- What the end of a call makes of the page. -/
inductive Ends (c : PanelCall) (answer : PanelAnswer) (page : Page) : Page → Prop
  | started (hc : c = .startSession) (hok : answer.error = false) :
      Ends c answer page { page with updateTimer := true }
  | leaving (n : Nat) : Ends c answer page { page with leaving := n }
  | stats (l : List (String × BusValue)) (hc : c = .getSessionStats)
      (hl : answer = .result (.stats l)) : Ends c answer page (getSessionStatsCb answer page)

theorem ajaxEnd_ends (c : PanelCall) (answer : PanelAnswer) (page : Page) :
    Ends c answer page (ajaxEnd c answer page).1 := by
  cases answer with
  | unreachable =>
    cases c with
    | startSession | updateSession => exact .leaving (page.leaving + 1)
    | playSession | pauseSession | endSession | getSessionStats => exact .leaving page.leaving
  | result o =>
    cases c with
    | startSession =>
      cases o with
      | exception => exact .leaving (page.leaving + 1)
      | ok | fail | stats | ips => exact .started rfl rfl
    | updateSession =>
      cases o with
      | exception => exact .leaving (page.leaving + 1)
      | ok | fail | stats | ips => exact .leaving page.leaving
    | playSession | pauseSession | endSession => exact .leaving page.leaving
    | getSessionStats =>
      cases o with
      | stats l => exact .stats l rfl rfl
      | ok | fail | ips | exception => exact .leaving page.leaving

theorem ajaxEnd_calls (c : PanelCall) (answer : PanelAnswer) (page : Page) :
    (ajaxEnd c answer page).2 = if c = .getSessionStats then [] else [.getSessionStats] := by
  cases answer with
  | unreachable | result =>
    cases c with
    | startSession | updateSession | playSession | pauseSession | endSession
    | getSessionStats => rfl

/-- Buttons are bound to pausing, playing and ending the session. -/
theorem setState_clicks {p : PanelCall} (h : p ∈ (setState name page).pauseClick) :
    p ∈ page.pauseClick ∨ p = .pauseSession ∨ p = .playSession := by
  unfold setState at h
  cases name with
  | starting | unknown => exact .inl h
  | uninitialized | exhausted | ended =>
    dsimp only at h
    split at h
    · exact .inl h
    · exact .inl h
  | started =>
    dsimp only at h
    split at h
    · exact .inr (.inl (List.mem_singleton.mp h))
    · exact .inl h
  | paused =>
    dsimp only at h
    split at h
    · exact .inr (.inr (List.mem_singleton.mp h))
    · exact .inl h

theorem setState_endClick (name : StateName) (page : Page) :
    (setState name page).endClick = page.endClick := by
  unfold setState
  cases name with
  | starting | unknown => rfl
  | uninitialized | started | paused | exhausted | ended =>
    dsimp only
    split
    · rfl
    · rfl

end WifiGateway.Web
