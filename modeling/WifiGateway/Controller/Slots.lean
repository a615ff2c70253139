import WifiGateway.Controller.Session

/-!
# The slots of the Controller

`controller.cpp`, slot by slot. `session` is the pointer the slot keeps in its
local variable; every use of `session->...` goes through `deref` or `assign`,
which crash when the record has been deleted. `runCommandExec` is a wait: its
second argument says which pointers the slot still uses once the command has
returned.

`tick` runs `foreach(Session * session, sessions)`, and `foreach` iterates over
a copy of the map: `tickOver` gets the pointers of that copy.
-/

namespace WifiGateway

open Waiting (Code)

/-! ## Records behind pointers -/

/-- `*session`. -/
def deref (session : Ptr) : Slot Session := do
  match (← Code.get).heap session with
  | some s => pure s
  | none => .crash

/-- Assign fields of `*session`. -/
def assign (session : Ptr) (f : Session → Session) : Slot Unit := do
  let s ← deref session
  Code.modify fun c => c.store session (f s)

/-- `delete session`. -/
def delete (session : Ptr) : Slot Unit := do
  let _ ← deref session
  Code.modify fun c => c.free session

/-- `RunCommand::runCommandExec`: issue a command and wait for its status. -/
def runCommandExec (c : Command) (held : Int → List Ptr) : Slot Int := Code.command c held

/-- The slot still uses `session` if the command returns 0. -/
def ifSuccess (session : Ptr) (status : Int) : List Ptr := if status = 0 then [session] else []

/-- `emit`. -/
def emitSignal (s : Signal) : Slot Unit := Code.modify fun c => { c with emitted := s :: c.emitted }

/-- `Session * session = sessions.value(IP)`, and -1 if there is none. -/
def withSession (IP : String) (f : Ptr → Slot Int) : Slot Int := do
  match (← Code.get).sessions[IP]? with
  | none => pure (-1)
  | some session => f session

/-! ## The session slots -/

/-- `Controller::isExhausted`. -/
def isExhausted (s : Session) : Bool :=
  s.timeRemaining == 0 || s.quotaRemaining == 0

/-- `Controller::newSession`. -/
def newSession (IP : String) : Slot Int := do
  let c ← Code.get
  Code.when (c.sessions.contains IP = false) (Code.modify fun c => c.insertNew IP)
  pure 0

/-- The command of `startSession`: `gw_add_host.sh` with the limits of the record
`s`, and the STARTED state when it succeeds. -/
def grantAccess (IP : String) (session : Ptr) (s : Session) : Slot Int := do
  let success ← runCommandExec (.addHost IP s.bandwidth s.quotaRemaining) (ifSuccess session)
  Code.when (success = 0) (assign session fun s =>
    { s with
      state := .started
      activityTimeRemaining := ACTIVITY_TIME
      updateTimeRemaining := UPDATE_TIME })
  pure success

/-- `Controller::startSession`. -/
def startSession (IP : String) : Slot Int := do
  let _ ← newSession IP
  withSession IP fun session => do
    let s ← deref session
    if s.state = .started then pure 0
    -- from any other state, ENDED and EXHAUSTED included, if the limits allow it
    else if isExhausted s = false then grantAccess IP session s
    else pure (-1)

/-- Common to `pauseSession`, `endSession` and `exhaustSession`: `gw_remove_host.sh`,
and the new state when it succeeds. -/
def revokeAccess (IP : String) (session : Ptr) (state : SessionState) : Slot Int := do
  let success ← runCommandExec (.removeHost IP) (ifSuccess session)
  Code.when (success = 0) (assign session fun s => { s with state := state })
  pure success

/-- `Controller::pauseSession`. -/
def pauseSession (IP : String) : Slot Int := withSession IP fun session => do
  let s ← deref session
  if s.state = .paused then pure 0
  else if s.state = .started then revokeAccess IP session .paused
  else pure (-1)

/-- `Controller::playSession`. -/
def playSession (IP : String) : Slot Int := withSession IP fun session => do
  let s ← deref session
  if s.state = .started then pure 0
  else if s.state = .paused then startSession IP
  else pure (-1)

/-- `Controller::endSession`. -/
def endSession (IP : String) : Slot Int := withSession IP fun session => do
  let s ← deref session
  if s.state = .ended then pure 0 else revokeAccess IP session .ended

/-- `Controller::removeSession(QString IP)`. -/
def removeSessionByIP (IP : String) : Slot Unit := do
  match (← Code.get).sessions[IP]? with
  | none => pure ()
  | some session =>
    Code.modify fun c => c.remove IP
    delete session

/-- `Controller::removeSession(Session * session)`. The key of a session that is
not in the map is the empty string, which no removal is made for. -/
def removeSession (session : Ptr) : Slot Unit := do
  let key := (← Code.get).sessions.key session
  Code.when (key ≠ "") do
    Code.modify fun c => c.remove key
    delete session

/-- `Controller::deleteSession`. -/
def deleteSession (IP : String) : Slot Int := withSession IP fun session => do
  let success ← endSession IP
  Code.when (success = 0) (removeSession session)
  pure success

/-- `Controller::exhaustSession`; `none` is the null pointer. -/
def exhaustSession : Option Ptr → Slot Int
  | none => pure (-1)
  | some session => do
    let s ← deref session
    if s.state = .exhausted then pure 0 else revokeAccess s.IP session .exhausted

/-- Common to the slots that only set fields of the record of an IP. -/
def amendSession (IP : String) (f : Session → Session) : Slot Int :=
  withSession IP fun session => do
    assign session f
    pure 0

/-- `Controller::updateSession`. -/
def updateSession (IP : String) : Slot Int :=
  amendSession IP fun s => { s with updateTimeRemaining := UPDATE_TIME }

/-- `Controller::updateQuotaRemaining`: one unit less, unless there is no
limit or nothing is left. -/
def updateQuotaRemaining (IP : String) : Slot Int :=
  amendSession IP fun s =>
    { s with quotaRemaining := if s.quotaRemaining > 0 then s.quotaRemaining - 1
                               else s.quotaRemaining }

/-! ## The tick -/

/-- The countdown of an unsigned timer, which stops at 0. -/
def countdown (t : UInt32) : UInt32 := if t > 0 then t - 1 else 0

/-- The countdown of a STARTED session. -/
def countStarted (s : Session) : Session :=
  { s with
    timeRemaining := if s.timeRemaining > 0 then s.timeRemaining - 1 else s.timeRemaining
    updateTimeRemaining := countdown s.updateTimeRemaining
    sessionTime := s.sessionTime + 1 }

/-- The countdown of an EXHAUSTED session. -/
def countExhausted (s : Session) : Session :=
  { s with
    updateTimeRemaining := countdown s.updateTimeRemaining
    sessionTime := s.sessionTime + 1 }

/-- The countdown of a PAUSED session. -/
def countPaused (s : Session) : Session :=
  { s with pauseTimeRemaining := countdown s.pauseTimeRemaining }

/-- The pause timer is set again when it has run out. -/
def rearmPause (s : Session) : Session := { s with pauseTimeRemaining := PAUSE_TIME }

/-- The countdown of an ENDED session. -/
def countEnded (s : Session) : Session :=
  { s with endTimeRemaining := countdown s.endTimeRemaining }

/-- The body of the loop in `Controller::tick`. -/
def tickSession (session : Ptr) : Slot Unit := do
  let s ← deref session
  match s.state with
  | .started =>
    assign session countStarted
    -- each of the three attempts may wait, so the record is read again after it
    let s ← deref session
    Code.when (isExhausted s = true) do let _ ← exhaustSession (some session)
    let s ← deref session
    Code.when (s.updateTimeRemaining = 0) do let _ ← endSession s.IP
    let s ← deref session
    Code.when (s.activityTimeRemaining = 0) do let _ ← endSession s.IP
    let s ← deref session
    Code.when (s.timeRemaining.toUInt32 = TIME_WARNING_TIME) (emitSignal .timeWarning)
    Code.when (s.updateTimeRemaining = UPDATE_WARNING_TIME) (emitSignal .updateTimeWarning)
    Code.when (s.activityTimeRemaining = ACTIVITY_WARNING_TIME) (emitSignal .activityTimeWarning)
  | .exhausted =>
    assign session countExhausted
    let s ← deref session
    Code.when (s.updateTimeRemaining = 0) do let _ ← endSession s.IP
    let s ← deref session
    Code.when (s.activityTimeRemaining = 0) do let _ ← endSession s.IP
  | .paused =>
    assign session countPaused
    let s ← deref session
    Code.when (s.pauseTimeRemaining = 0) do
      -- set again whether or not the session can be played
      assign session rearmPause
      let _ ← playSession s.IP
    let s ← deref session
    Code.when (s.pauseTimeRemaining = PAUSE_WARNING_TIME) (emitSignal .pauseTimeWarning)
  | .ended =>
    assign session countEnded
    let s ← deref session
    Code.when (s.endTimeRemaining = 0) (removeSessionByIP s.IP)
  -- `default:`
  | .uninitialized => pure ()

/-- The loop in `Controller::tick` over the pointers of its copy of the map:
the current one and those to come are used whatever the calls made in between. -/
def tickOver : List Ptr → Slot Unit
  | [] => pure ()
  | session :: rest => do
    (tickSession session).holding (session :: rest)
    tickOver rest

/-- `Controller::tick`. -/
def tick : Slot Unit := do
  let c ← Code.get
  tickOver c.sessions.values

/-! ## Limits and defaults -/

/-- Common to `setBandwidth` and `setQuota`: set the limit, then pause and play
to get it into the firewall. -/
def setLimit (IP : String) (f : Session → Session) : Slot Int := withSession IP fun session => do
  assign session f
  let _ ← pauseSession IP
  let _ ← playSession IP
  pure 0

/-- `Controller::setBandwidth`. -/
def setBandwidth (IP : String) (bw : UInt32) : Slot Int :=
  setLimit IP fun s => { s with bandwidth := bw }

/-- `Controller::setQuota`. -/
def setQuota (IP : String) (quota : Int32) : Slot Int :=
  setLimit IP fun s => { s with quotaRemaining := quota }

/-- `Controller::setTime`. -/
def setTime (IP : String) (time : Int32) : Slot Int :=
  amendSession IP fun s => { s with timeRemaining := time }

/-- `Controller::setDefaultBandWidth`. -/
def setDefaultBandWidth (bw : UInt32) : Slot Int := do
  Code.modify fun c => { c with defaultBandwidth := bw }
  pure 0

/-- `Controller::setDefaultQuota`. -/
def setDefaultQuota (quota : Int32) : Slot Int := do
  Code.modify fun c => { c with defaultQuota := quota.toUInt32 }
  pure 0

/-- `Controller::setDefaultTime`. -/
def setDefaultTime (time : Int32) : Slot Int := do
  Code.modify fun c => { c with defaultTime := time.toUInt32 }
  pure 0

/-- `Controller::setDefaultSession`. -/
def setDefaultSession (s : Session) : Slot Int := do
  Code.modify fun c =>
    { c with
      defaultBandwidth := s.bandwidth
      defaultQuota := s.quotaRemaining.toUInt32
      defaultTime := s.timeRemaining.toUInt32 }
  pure 0

/-! ## Readers -/

/-- `Controller::getDefaultSession`. -/
def getDefaultSession : Slot Session := do
  let c ← Code.get
  pure (c.initSession "")

/-- What `getSession` returns for an unknown IP. -/
def noSession : Session := ⟨"", "", .uninitialized, 0, 0, 0, 0, 0, 0, 0, 0⟩

/-- `Controller::getSession`. -/
def getSession (IP : String) : Slot Session := do
  match (← Code.get).sessions[IP]? with
  | none => pure noSession
  | some session =>
    let s ← deref session
    pure { s with IP := IP }

/-- The records behind a list of pointers. -/
def derefAll : List Ptr → Slot (List Session)
  | [] => pure []
  | session :: rest => do
    let s ← deref session
    let ss ← derefAll rest
    pure (s :: ss)

/-- `Controller::getAllSessions`. -/
def getAllSessions : Slot (List Session) := do
  let c ← Code.get
  derefAll c.sessions.values

/-- `Controller::getIPs`. -/
def getIPs : Slot (List String) := do
  let c ← Code.get
  pure c.sessions.keys

/-! ## Clean-up -/

/-- `foreach(Session * s, sessions) delete s`. -/
def deleteAll : List Ptr → Slot Unit
  | [] => pure ()
  | session :: rest => do
    delete session
    deleteAll rest

/-- `Controller::clearSessions`. -/
def clearSessions : Slot Unit := do
  let c ← Code.get
  deleteAll c.sessions.values
  Code.modify fun c => { c with sessions := ∅ }

/-- `Controller::cleanup`. -/
def cleanup : Slot Unit := do
  -- whatever the command returned
  let _ ← runCommandExec .cleanUp fun _ => []
  clearSessions

/-! ## Calls -/

/-- The calls that the bus, the quota beacon and the tick timer make. -/
inductive Call
  | newSession (IP : String)
  | startSession (IP : String)
  | pauseSession (IP : String)
  | playSession (IP : String)
  | updateSession (IP : String)
  | endSession (IP : String)
  | deleteSession (IP : String)
  | setBandwidth (IP : String) (bw : UInt32)
  | setQuota (IP : String) (quota : Int32)
  | setTime (IP : String) (time : Int32)
  | setDefaultBandWidth (bw : UInt32)
  | setDefaultQuota (quota : Int32)
  | setDefaultTime (time : Int32)
  | setDefaultSession (s : Session)
  | getDefaultSession
  | getSession (IP : String)
  | getAllSessions
  | getIPs
  | updateQuotaRemaining (IP : String)
  | tick
  deriving DecidableEq

/-- What a call returns. -/
inductive Reply
  | status (i : Int)
  | session (s : Session)
  | sessions (ss : List Session)
  | IPs (l : List String)
  | nothing
  deriving DecidableEq

/-- The slot behind a call. -/
def Call.slot : Call → Slot Reply
  | .newSession IP => return .status (← WifiGateway.newSession IP)
  | .startSession IP => return .status (← WifiGateway.startSession IP)
  | .pauseSession IP => return .status (← WifiGateway.pauseSession IP)
  | .playSession IP => return .status (← WifiGateway.playSession IP)
  | .updateSession IP => return .status (← WifiGateway.updateSession IP)
  | .endSession IP => return .status (← WifiGateway.endSession IP)
  | .deleteSession IP => return .status (← WifiGateway.deleteSession IP)
  | .setBandwidth IP bw => return .status (← WifiGateway.setBandwidth IP bw)
  | .setQuota IP quota => return .status (← WifiGateway.setQuota IP quota)
  | .setTime IP time => return .status (← WifiGateway.setTime IP time)
  | .setDefaultBandWidth bw => return .status (← WifiGateway.setDefaultBandWidth bw)
  | .setDefaultQuota quota => return .status (← WifiGateway.setDefaultQuota quota)
  | .setDefaultTime time => return .status (← WifiGateway.setDefaultTime time)
  | .setDefaultSession s => return .status (← WifiGateway.setDefaultSession s)
  | .getDefaultSession => return .session (← WifiGateway.getDefaultSession)
  | .getSession IP => return .session (← WifiGateway.getSession IP)
  | .getAllSessions => return .sessions (← WifiGateway.getAllSessions)
  | .getIPs => return .IPs (← WifiGateway.getIPs)
  | .updateQuotaRemaining IP => return .status (← WifiGateway.updateQuotaRemaining IP)
  | .tick => do
    WifiGateway.tick
    return .nothing

/-- The call sets the time or the quota of `a`. -/
def Call.setsLimits (a : String) : Call → Bool
  | .setQuota IP _ | .setTime IP _ => IP == a
  | _ => false

/-- The IP a call names. -/
def Call.names : Call → Option String
  | .newSession IP => some IP
  | .startSession IP => some IP
  | .pauseSession IP => some IP
  | .playSession IP => some IP
  | .updateSession IP => some IP
  | .endSession IP => some IP
  | .deleteSession IP => some IP
  | .setBandwidth IP _ => some IP
  | .setQuota IP _ => some IP
  | .setTime IP _ => some IP
  | .getSession IP => some IP
  | .updateQuotaRemaining IP => some IP
  | .setDefaultBandWidth _ | .setDefaultQuota _ | .setDefaultTime _ | .setDefaultSession _
  | .getDefaultSession | .getAllSessions | .getIPs | .tick => none

end WifiGateway
