import WifiGateway.Php.Value

/-!
# The web endpoint

`gw_endpoint.php` and `JsonRpcWrapper::call`, up to the point where a method of
`Gateway` is invoked. The endpoint checks the entry of `params` whose *key* is
`ip`, which it fills in when it is empty; the wrapper passes the *values* of
`params` in order. `host_iff_callerFirst` says when the two meet in the first
argument, and `other_session_ended` is a request for which they do not.
-/

namespace WifiGateway.Web

open Php (Key Value Entries)

/-- `$_SERVER['REMOTE_ADDR']`: an address of the caller, which is longer than one
character and, as a string, not numeric. -/
structure RemoteAddr where
  text : String
  long : 1 < text.length

/-- The public methods of `Gateway`. -/
inductive Method
  | construct
  | startSession
  | pauseSession
  | playSession
  | endSession
  | updateSession
  | getSessionStats
  | getIps
  | setBandwidth
  | setQuota
  | setTime
  deriving DecidableEq, Repr

/-- The name of a method, in lower case. -/
def Method.name : Method → String
  | .construct => "__construct"
  | .startSession => "start_session"
  | .pauseSession => "pause_session"
  | .playSession => "play_session"
  | .endSession => "end_session"
  | .updateSession => "update_session"
  | .getSessionStats => "get_session_stats"
  | .getIps => "get_ips"
  | .setBandwidth => "set_bandwidth"
  | .setQuota => "set_quota"
  | .setTime => "set_time"

/-- The first parameter is the host, `$host_ip` or `$ip`. -/
def Method.firstIsHost : Method → Bool
  | .construct | .getIps => false
  | .startSession | .pauseSession | .playSession | .endSession | .updateSession
  | .getSessionStats | .setBandwidth | .setQuota | .setTime => true

/-- The host that a method with these arguments is about. -/
def Method.host (m : Method) (args : List Value) : Option Value :=
  if m.firstIsHost then args.head? else none

/-- All methods. -/
def methods : List Method :=
  [.construct, .startSession, .pauseSession, .playSession, .endSession, .updateSession,
    .getSessionStats, .getIps, .setBandwidth, .setQuota, .setTime]

/-- `is_callable(array($obj, $name))`: names are compared without regard to case,
and may be qualified by the class. -/
def callable : Value → Option Method
  | .str s =>
    methods.find? fun m => m.name == Php.toLower s || "gateway::" ++ m.name == Php.toLower s
  | .null | .arr _ => none

/-- What a request leads to. -/
inductive Outcome
  /-- Error -32602. -/
  | invalidParams
  /-- Error -32601. -/
  | methodNotFound
  /-- The parameters are no array: `call_user_func_array` warns, and the result is null. -/
  | notInvoked
  /-- The method is invoked with these arguments. -/
  | invoke (m : Method) (args : List Value)

/-- `JsonRpcWrapper::call` on an array. -/
def call (body : Entries) : Outcome :=
  let method := Php.get body (.str "method")
  let method := if Php.isset method then method else some (.str "")
  let params := Php.get body (.str "params")
  let params := if Php.isset params then params else some (.arr [])
  match method.bind callable with
  | none => .methodNotFound
  | some m =>
    match params with
    | some (.arr entries) => .invoke m (Php.values entries)
    | _ => .notInvoked

/-- `$body['params']['ip'] = ...`: the entry `ip` of the parameters, the caller's
address if it is empty. Parameters that are not there, or an empty string, become
an array; another string has its first character written to. -/
def fillIp (remote : RemoteAddr) : Option Value → Value
  | none | some .null => .arr [(.str "ip", .str remote.text)]
  | some (.str s) =>
    if s = "" then .arr [(.str "ip", .str remote.text)]
    else .str (Php.setFirstChar remote.text s)
  | some (.arr params) =>
    let ip := Php.get params (.str "ip")
    .arr (Php.set params (.str "ip") (if Php.empty ip then .str remote.text else ip.getD .null))

/-- `$body['params']['ip']`. -/
def readIp : Value → Value
  | .arr params => (Php.get params (.str "ip")).getD .null
  | .str s => .str (Php.firstChar s)
  | .null => .null

/-- `gw_endpoint.php` for a request with the given `$_POST`. -/
def endpoint (remote : RemoteAddr) (post : Entries) : Outcome :=
  let params := fillIp remote (Php.get post (.str "params"))
  let body := Php.set post (.str "params") params
  if Php.equalsText remote.text (readIp params) then call body else .invalidParams

/-- The parameters put the caller first: there are none, or the first entry has
the key `ip`, or its value is the caller's address. -/
def CallerFirst (remote : RemoteAddr) (post : Entries) : Prop :=
  match Php.get post (.str "params") with
  | some (.arr ((k, v) :: _)) => k = .str "ip" ∨ v = .str remote.text
  | _ => True

variable {remote : RemoteAddr} {post : Entries} {m : Method} {args : List Value}

theorem equalsText_iff {s : String} {v : Value} : Php.equalsText s v = true ↔ v = .str s := by
  cases v with
  | null => simp [Php.equalsText]
  | str s' => simp [Php.equalsText]
  | arr entries => simp [Php.equalsText]

/-- A request that gets through has parameters in an array, with the caller's
address under `ip`; these are what the method is invoked with. -/
theorem endpoint_invoke (h : endpoint remote post = .invoke m args) :
    ∃ params : Entries, fillIp remote (Php.get post (.str "params")) = .arr params ∧
      Php.get params (.str "ip") = some (.str remote.text) ∧ args = Php.values params := by
  unfold endpoint at h
  dsimp only at h
  split at h
  · next hip =>
    have hip' := equalsText_iff.mp hip
    cases hp : fillIp remote (Php.get post (.str "params")) with
    | null =>
      rw [hp] at hip'
      exact absurd hip' (by simp [readIp])
    | str s =>
      -- the entry `ip` of a string is a single character
      rw [hp] at hip'
      have hlen := Php.firstChar_length s
      rw [Value.str.inj hip'] at hlen
      exact absurd remote.long (Nat.not_lt_of_le hlen)
    | arr params =>
      rw [hp] at h hip'
      have hget : Php.get params (.str "ip") = some (.str remote.text) := by
        cases hg : Php.get params (.str "ip") with
        | none => simp [readIp, hg] at hip'
        | some v => simpa [readIp, hg] using hip'
      refine ⟨params, rfl, hget, ?_⟩
      unfold call at h
      simp only [Php.get_set, Php.isset, if_true] at h
      split at h
      · exact absurd h (by simp)
      · exact (Outcome.invoke.inj h).2.symm
  · exact absurd h (by simp)

/-- A method about a host that a request gets through to is about the caller if
and only if the request puts the caller first. -/
theorem host_iff_callerFirst (h : endpoint remote post = .invoke m args)
    (hm : m.firstIsHost = true) :
    m.host args = some (.str remote.text) ↔ CallerFirst remote post := by
  obtain ⟨params, hfill, hip, rfl⟩ := endpoint_invoke h
  unfold Method.host CallerFirst
  rw [if_pos hm]
  cases hp : Php.get post (.str "params") with
  | none =>
    rw [hp] at hfill
    obtain rfl := Value.arr.inj hfill
    simp [Php.values]
  | some v =>
    rw [hp] at hfill
    cases v with
    | null =>
      obtain rfl := Value.arr.inj hfill
      simp [Php.values]
    | str s =>
      unfold fillIp at hfill
      dsimp only at hfill
      split at hfill
      · obtain rfl := Value.arr.inj hfill
        simp [Php.values]
      · exact absurd hfill (by simp)
    | arr entries =>
      obtain rfl := Value.arr.inj hfill
      cases entries with
      | nil => simp [Php.values, Php.set, Php.get, Php.empty]
      | cons e rest =>
        obtain ⟨k, v⟩ := e
        dsimp only
        rw [Php.values_set_head]
        by_cases hk : k = .str "ip"
        · -- the entry written to is the first one
          rw [Php.get_set] at hip
          rw [if_pos hk]
          exact iff_of_true hip (.inl hk)
        · rw [if_neg hk]
          simp [hk]

/-- The caller of the examples. -/
def caller : RemoteAddr := ⟨"10.0.0.7", by decide⟩

/-- The quota comes before the address. -/
theorem host_iff_callerFirst_setQuota :
    Method.setQuota.host [.str "100", .str "10.0.0.7"] = some (.str caller.text) ↔
      CallerFirst caller [(.str "method", .str "set_quota"),
        (.str "params", .arr [(.str "quota", .str "100"), (.str "ip", .str "10.0.0.7")])] :=
  @host_iff_callerFirst caller _ _ _ rfl rfl

/-- A parameter before `ip` takes its place: `10.0.0.7` ends the session of
`10.0.0.8`. -/
theorem other_session_ended :
    ¬ ∀ (remote : RemoteAddr) (post : Entries) (m : Method) (args : List Value),
      endpoint remote post = .invoke m args → m.firstIsHost = true →
        m.host args = some (.str remote.text) := by
  intro h
  have := h caller
    [(.str "method", .str "end_session"), (.str "params", .arr [(.int 0, .str "10.0.0.8")])]
    .endSession [.str "10.0.0.8", .str "10.0.0.7"] rfl rfl
  exact absurd this (by simp [Method.host, Method.firstIsHost, caller])

end WifiGateway.Web
