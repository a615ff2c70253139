import Std.Data.TreeMap
import Mathlib.Logic.Function.Basic
import WifiGateway.Waiting.Code

/-!
# The Controller's data

`controller.h`: the session record, the timer constants, and the state of the
`Controller` object. The map `sessions` holds *pointers* to records, and the
slots of `Slots.lean` keep such pointers in local variables across a wait, so
the model keeps both levels: `sessions` takes an IP to a pointer, `heap` takes
a pointer to the record it points to, `none` once the record is deleted (or
before it is allocated). Pointers are never reused.

`quint32` and `qint32` are `UInt32` and `Int32`; `quint32 defaultQuota` holding
a `qint32` is kept as in the source, with the conversion both ways.

The firewall is what the scripts `gw_add_host.sh` and `gw_remove_host.sh`
maintain, as the Controller sees it: which hosts are allowed, each with the
rate and the quota its rules were added with.
-/

namespace WifiGateway

open Waiting (Code World)

/-- `QMap<QString, T>`, ordered by its keys. -/
abbrev QMap (α : Type) := Std.TreeMap String α

/-- The values in the order of their keys (`foreach` runs over these). -/
def QMap.values {α : Type} (m : QMap α) : List α := m.toList.map Prod.snd

/-- `QMap::key(value)`: the first key with that value, the empty string if there is none. -/
def QMap.key {α : Type} [BEq α] (m : QMap α) (v : α) : String :=
  ((m.toList.find? fun e => e.2 == v).map Prod.fst).getD ""

/-- `Controller::SessionState`. -/
inductive SessionState
  | uninitialized
  | started
  | paused
  | exhausted
  | ended
  deriving DecidableEq, Repr

def DEFAULT_BANDWIDTH : UInt32 := 1000
def DEFAULT_QUOTA : Int32 := -1
def DEFAULT_TIME : Int32 := -1
def ACTIVITY_TIME : UInt32 := 60
def UPDATE_TIME : UInt32 := 60
def PAUSE_TIME : UInt32 := 60
def END_TIME : UInt32 := 3600
def TIME_WARNING_TIME : UInt32 := 30
def UPDATE_WARNING_TIME : UInt32 := 15
def ACTIVITY_WARNING_TIME : UInt32 := 15
def PAUSE_WARNING_TIME : UInt32 := 15

/-- `Controller::Session`. Times are in ticks; `-1` in `timeRemaining` or
`quotaRemaining` means that there is no limit. -/
structure Session where
  IP : String
  MAC : String
  state : SessionState
  bandwidth : UInt32
  timeRemaining : Int32
  quotaRemaining : Int32
  activityTimeRemaining : UInt32
  /-- The watchdog timer. -/
  updateTimeRemaining : UInt32
  pauseTimeRemaining : UInt32
  endTimeRemaining : UInt32
  sessionTime : UInt32
  deriving DecidableEq, Repr

/-- A `Session *`. -/
abbrev Ptr := Nat

/-- The signals that `tick` emits. -/
inductive Signal
  | timeWarning
  | updateTimeWarning
  | activityTimeWarning
  | pauseTimeWarning
  deriving DecidableEq, Repr

/-- The state of the `Controller` object, with the records it has allocated. -/
structure Controller where
  heap : Ptr → Option Session
  /-- No pointer from here on has been allocated. -/
  fresh : Ptr
  sessions : QMap Ptr
  defaultBandwidth : UInt32
  defaultQuota : UInt32
  defaultTime : UInt32
  /-- The signals emitted so far, the latest first. -/
  emitted : List Signal

namespace Controller

/-- A Controller as constructed: no sessions. -/
def init : Controller where
  heap := fun _ => none
  fresh := 0
  sessions := ∅
  defaultBandwidth := DEFAULT_BANDWIDTH
  defaultQuota := DEFAULT_QUOTA.toUInt32
  defaultTime := DEFAULT_TIME.toUInt32
  emitted := []

/-- `initSession` sets every field of the record. -/
def initSession (c : Controller) (IP : String) : Session where
  state := .uninitialized
  IP := IP
  MAC := ""
  bandwidth := c.defaultBandwidth
  quotaRemaining := c.defaultQuota.toInt32
  timeRemaining := c.defaultTime.toInt32
  activityTimeRemaining := ACTIVITY_TIME
  updateTimeRemaining := UPDATE_TIME
  pauseTimeRemaining := PAUSE_TIME
  endTimeRemaining := END_TIME
  sessionTime := 0

/-- `*p = s`. -/
def store (c : Controller) (p : Ptr) (s : Session) : Controller :=
  { c with heap := Function.update c.heap p (some s) }

/-- `delete p`. -/
def free (c : Controller) (p : Ptr) : Controller :=
  { c with heap := Function.update c.heap p none }

/-- `new Session`, initialised for `IP` and inserted into `sessions`. -/
def insertNew (c : Controller) (IP : String) : Controller :=
  { c with
    heap := Function.update c.heap c.fresh (some (c.initSession IP))
    fresh := c.fresh + 1
    sessions := c.sessions.insert IP c.fresh }

/-- `sessions.remove(IP)`. -/
def remove (c : Controller) (IP : String) : Controller :=
  { c with sessions := c.sessions.erase IP }

end Controller

/-- What the rules of an allowed host were added with. -/
structure HostRule where
  bandwidth : UInt32
  quotaRemaining : Int32
  deriving DecidableEq, Repr

/-- The allowed hosts. -/
abbrev Firewall := String → Option HostRule

/-- The commands the Controller issues. -/
inductive Command
  | addHost (IP : String) (bandwidth : UInt32) (quotaRemaining : Int32)
  | removeHost (IP : String)
  | cleanUp
  deriving DecidableEq, Repr

/-- A command that returns 0 has done its work on exactly its host, one that
does not has changed nothing. Adding a host that is there keeps its rules, and
removing one that is not there succeeds. -/
def Command.effect : Command → Int → Firewall → Firewall
  | .addHost IP bandwidth quotaRemaining, status, fw =>
    if status = 0 then Function.update fw IP (some ((fw IP).getD ⟨bandwidth, quotaRemaining⟩))
    else fw
  | .removeHost IP, status, fw => if status = 0 then Function.update fw IP none else fw
  | .cleanUp, status, fw => if status = 0 then fun _ => none else fw

/-- The host a command is about; `cleanUp` is about all of them. -/
def Command.host : Command → Option String
  | .addHost IP _ _ => some IP
  | .removeHost IP => some IP
  | .cleanUp => none

/-- `gw_remove_host`. -/
def Command.isRemoval : Command → Bool
  | .removeHost _ => true
  | .addHost _ _ _ | .cleanUp => false

/-- A slot of the Controller, as code that may wait for a command. -/
abbrev Slot := Code Controller Command Ptr

/-- The Controller and the firewall. -/
abbrev GwWorld := World Controller Firewall

/-- The Controller as started: no sessions, no host allowed. -/
def GwWorld.init : GwWorld := ⟨Controller.init, fun _ => none⟩

end WifiGateway
