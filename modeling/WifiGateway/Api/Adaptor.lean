import WifiGateway.Controller.Slots

/-!
# The two layers over the Controller

`controllerdbusadaptor.cpp` passes the calls of the bus on to the Controller, and
`Gateway.php` is a proxy of the bus for the web side. Each method is written here as it
stands; `Request.meant` and `GatewayCall.meant` say which slot of the Controller the name
of the method translates to.

A session crosses the bus as a `SessionExport`, the list of its fields in the order of
`operator<<`; `get_session_stats` puts its own list of names next to them. What C++ leaves
uninitialised in a local variable is an argument (`Locals`).
-/

namespace WifiGateway.Api

/-- `SessionExport`. -/
structure SessionExport where
  IP : String
  MAC : String
  state : Int32
  bandwidth : UInt32
  timeRemaining : Int32
  quotaRemaining : Int32
  activityTimeRemaining : UInt32
  updateTimeRemaining : UInt32
  pauseTimeRemaining : UInt32
  endTimeRemaining : UInt32
  sessionTime : UInt32
  deriving DecidableEq, Repr

/-- The number of a `SessionState`. -/
def stateNumber : SessionState → Int32
  | .uninitialized => 0
  | .started => 1
  | .paused => 2
  | .exhausted => 3
  | .ended => 4

/-- A session as it is passed to the bus, field by field. -/
def exportSession (s : Session) : SessionExport where
  IP := s.IP
  MAC := s.MAC
  state := stateNumber s.state
  bandwidth := s.bandwidth
  timeRemaining := s.timeRemaining
  quotaRemaining := s.quotaRemaining
  activityTimeRemaining := s.activityTimeRemaining
  updateTimeRemaining := s.updateTimeRemaining
  pauseTimeRemaining := s.pauseTimeRemaining
  endTimeRemaining := s.endTimeRemaining
  sessionTime := s.sessionTime

/-- A session with the limits of a `SessionExport`. -/
def limitsOf (s : SessionExport) (new : Session) : Session :=
  { new with
    bandwidth := s.bandwidth
    quotaRemaining := s.quotaRemaining
    timeRemaining := s.timeRemaining }

/-- What local variables hold before they are assigned to. Strings are constructed empty. -/
structure Locals where
  /-- `SessionExport retval` of `getDefaultSession`. -/
  retval : SessionExport
  /-- `Controller::Session new_s` of `setDefaultSession`. -/
  new : Session
  retval_IP : retval.IP = ""
  retval_MAC : retval.MAC = ""

/-- What a method of the adaptor returns. -/
inductive Answer
  | status (i : Int)
  | session (s : SessionExport)
  | IPs (l : List String)
  | nothing
  deriving DecidableEq

/-- The calls of the bus. -/
inductive Request
  | newSession (IP : String)
  | startSession (IP : String)
  | pauseSession (IP : String)
  | playSession (IP : String)
  | endSession (IP : String)
  | deleteSession (IP : String)
  | updateSession (IP : String)
  | setBandwidth (IP : String) (bw : Int32)
  | setQuota (IP : String) (quota : Int32)
  | setTime (IP : String) (time : Int32)
  | setDefaultBandWidth (bw : UInt32)
  | setDefaultQuota (quota : Int32)
  | setDefaultTime (time : Int32)
  | getDefaultSession
  | setDefaultSession (s : SessionExport)
  | getSession (IP : String)
  | getIPs
  deriving DecidableEq

/-- The methods of `ControllerDBusAdaptor`. -/
def Request.serve (locals : Locals) : Request → Slot Answer
  | .newSession IP => return .status (← WifiGateway.newSession IP)
  | .startSession IP => return .status (← WifiGateway.startSession IP)
  | .pauseSession IP => return .status (← WifiGateway.pauseSession IP)
  | .playSession IP => return .status (← WifiGateway.playSession IP)
  | .endSession IP => return .status (← WifiGateway.endSession IP)
  | .deleteSession IP => return .status (← WifiGateway.deleteSession IP)
  | .updateSession IP => return .status (← WifiGateway.updateSession IP)
  | .setBandwidth IP bw => return .status (← WifiGateway.setBandwidth IP bw.toUInt32)
  | .setQuota IP quota => return .status (← WifiGateway.setQuota IP quota)
  -- `controller->setQuota(IP, time)`
  | .setTime IP time => return .status (← WifiGateway.setQuota IP time)
  | .setDefaultBandWidth bw => return .status (← WifiGateway.setDefaultBandWidth bw)
  | .setDefaultQuota quota => return .status (← WifiGateway.setDefaultQuota quota)
  | .setDefaultTime time => return .status (← WifiGateway.setDefaultTime time)
  | .getDefaultSession => do
    let s ← WifiGateway.getDefaultSession
    -- three fields are assigned to
    return .session { locals.retval with
      bandwidth := s.bandwidth
      quotaRemaining := s.quotaRemaining
      timeRemaining := s.timeRemaining }
  | .setDefaultSession s =>
    return .status (← WifiGateway.setDefaultSession (limitsOf s locals.new))
  | .getSession IP => return .session (exportSession (← WifiGateway.getSession IP))
  | .getIPs => return .IPs (← WifiGateway.getIPs)

/-- The slot of the same name, with the integers converted modulo 2^32. -/
def Request.meant : Request → Call
  | .newSession IP => .newSession IP
  | .startSession IP => .startSession IP
  | .pauseSession IP => .pauseSession IP
  | .playSession IP => .playSession IP
  | .endSession IP => .endSession IP
  | .deleteSession IP => .deleteSession IP
  | .updateSession IP => .updateSession IP
  | .setBandwidth IP bw => .setBandwidth IP bw.toUInt32
  | .setQuota IP quota => .setQuota IP quota
  | .setTime IP time => .setTime IP time
  | .setDefaultBandWidth bw => .setDefaultBandWidth bw
  | .setDefaultQuota quota => .setDefaultQuota quota
  | .setDefaultTime time => .setDefaultTime time
  | .getDefaultSession => .getDefaultSession
  | .setDefaultSession s => .setDefaultSession (limitsOf s noSession)
  | .getSession IP => .getSession IP
  | .getIPs => .getIPs

/-- The result of a slot, as the bus has it. -/
def exportReply : Reply → Answer
  | .status i => .status i
  | .session s => .session (exportSession s)
  | .IPs l => .IPs l
  | .sessions _ | .nothing => .nothing

/-! ## `Gateway.php` -/

/-- A value on the bus. -/
inductive BusValue
  | str (s : String)
  | int (i : Int32)
  | uint (i : UInt32)
  deriving DecidableEq, Repr

/-- `operator<<`: the fields of a session in the order in which they are sent. -/
def SessionExport.marshal (s : SessionExport) : List BusValue :=
  [.str s.IP, .str s.MAC, .int s.state, .uint s.bandwidth, .int s.timeRemaining,
    .int s.quotaRemaining, .uint s.activityTimeRemaining, .uint s.updateTimeRemaining,
    .uint s.pauseTimeRemaining, .uint s.endTimeRemaining, .uint s.sessionTime]

/-- `Gateway::$stats`. -/
def statNames : List String :=
  ["IP", "MAC", "state", "bandwidth", "timeRemaining", "quotaRemaining",
    "activityTimeRemaining", "updateTimeRemaining", "pauseTimeRemaining", "endTimeRemaining",
    "sessionTime"]

/-- `if($host_ip)`. -/
def truthy (s : String) : Bool := s != "" && s != "0"

/-- What a method of `Gateway` ends with. -/
inductive Outcome
  /-- `'status' => "ok"`. -/
  | ok
  /-- `'status' => 'fail'`. -/
  | fail
  | stats (l : List (String × BusValue))
  | ips (l : List String)
  /-- A `GatewayException`. -/
  | exception (message : String) (code : Int)
  deriving DecidableEq

/-- The calls of the web side. -/
inductive GatewayCall
  | startSession (host_ip : String)
  | pauseSession (host_ip : String)
  | playSession (host_ip : String)
  | endSession (host_ip : String)
  | updateSession (host_ip : String)
  | getSessionStats (host_ip : String)
  | getIps
  | setBandwidth (ip : String) (bw : Int32)
  | setQuota (ip : String) (qa : Int32)
  | setTime (ip : String) (qa : Int32)
  deriving DecidableEq

/-- A call of the bus whose status must be 0. -/
def orThrow (locals : Locals) (r : Request) (message : String) : Slot Outcome := do
  match ← r.serve locals with
  | .status ret => return if ret ≠ 0 then .exception message ret else .ok
  | .session _ | .IPs _ | .nothing => return .ok

/-- A call of the bus whose status says whether it failed. -/
def orFail (locals : Locals) (r : Request) : Slot Outcome := do
  match ← r.serve locals with
  | .status ret => return if ret ≠ 0 then .fail else .ok
  | .session _ | .IPs _ | .nothing => return .ok

/-- The methods of `Gateway`. -/
def GatewayCall.serve (locals : Locals) : GatewayCall → Slot Outcome
  | .startSession host_ip =>
    if truthy host_ip then
      orThrow locals (.startSession host_ip) ("could not create session with IP " ++ host_ip)
    else return .ok
  | .pauseSession host_ip =>
    if truthy host_ip then
      orThrow locals (.pauseSession host_ip) ("could not pause session with IP " ++ host_ip)
    else return .ok
  | .playSession host_ip =>
    if truthy host_ip then
      orThrow locals (.playSession host_ip) ("could not play session with IP " ++ host_ip)
    else return .ok
  | .endSession host_ip =>
    orThrow locals (.endSession host_ip) ("could not end session with IP " ++ host_ip)
  | .updateSession host_ip =>
    orThrow locals (.updateSession host_ip) ("could not update session with IP " ++ host_ip)
  | .getSessionStats host_ip => do
    match ← (Request.getSession host_ip).serve locals with
    -- `array_combine`
    | .session s => return .stats (statNames.zip s.marshal)
    | .status _ | .IPs _ | .nothing => return .ok
  | .getIps => do
    match ← Request.getIPs.serve locals with
    | .IPs l => return .ips l
    | .status _ | .session _ | .nothing => return .ok
  | .setBandwidth ip bw => orFail locals (.setBandwidth ip bw)
  | .setQuota ip qa => orFail locals (.setQuota ip qa)
  -- `$this->gw->setQuota($ip, $qa)`
  | .setTime ip qa => orFail locals (.setQuota ip qa)

/-- The slot that the name of the method translates to. -/
def GatewayCall.meant : GatewayCall → Call
  | .startSession host_ip => .startSession host_ip
  | .pauseSession host_ip => .pauseSession host_ip
  | .playSession host_ip => .playSession host_ip
  | .endSession host_ip => .endSession host_ip
  | .updateSession host_ip => .updateSession host_ip
  | .getSessionStats host_ip => .getSession host_ip
  | .getIps => .getIPs
  | .setBandwidth ip bw => .setBandwidth ip bw.toUInt32
  | .setQuota ip qa => .setQuota ip qa
  | .setTime ip qa => .setTime ip qa

end WifiGateway.Api
