import WifiGateway.Php.Json

/-!
# The JSON-RPC wrapper

`JsonRpcWrapper.php`: `call` takes a request, as an array or as JSON text, calls the method of the
wrapped object that it names and answers with the JSON text of a response. There are four exits,
and each makes its response on its own.

The response has `result`, `error` and `id` at top level where the method can be called
(`responds_iff`). A request without such a method is answered with the `id` inside the error, and
JSON text with an invalid-request error without `id`, since `json_decode` without its second
argument makes an object of it and not an array (`sameForText_iff`).
-/

namespace WifiGateway.Web.JsonRpc

open Php (Key Data Json Fits encode jsonEncode jsonDecode assoc)

/-- How a method ends. -/
inductive Ending
  | returned (result : Data)
  /-- An exception, with its code and its message. -/
  | thrown (code message : Data)
  /-- The script ends. -/
  | exits

/-- The wrapped object. -/
structure Wrapped where
  /-- `is_callable(array($obj, $name))`. -/
  callable : String → Bool
  /-- What a call of the method with these arguments leads to. -/
  invoke : String → List Data → Ending

/-- What `call` is given. -/
inductive Body
  /-- A string: the text of this JSON value, or of none. -/
  | text (json : Option Json)
  | array (entries : List (Key × Data))
  /-- Neither a string nor an array. -/
  | other

/-- What becomes of a call. -/
inductive Reply
  /-- The text of this JSON value is returned. -/
  | json (j : Json)
  /-- `json_encode` has failed, and false is returned. -/
  | failed
  /-- The script ends. -/
  | exits

/-- `return json_encode(array(...))`. -/
def reply (fields : List (String × Data)) : Reply :=
  match jsonEncode (.arr (assoc fields)) with
  | some j => .json j
  | none => .failed

/-- `isset($body[$name]) ? $body[$name] : $default`. -/
def field (entries : List (Key × Data)) (name : String) (default : Data) : Data :=
  match entries.lookup (.str name) with
  | none | some .null => default
  | some d => d

def methodOf (entries : List (Key × Data)) : Data := field entries "method" (.str "")

def paramsOf (entries : List (Key × Data)) : Data := field entries "params" (.arr [])

def idOf (entries : List (Key × Data)) : Data := field entries "id" .null

/-- `is_callable(array($this->obj, $method))`. -/
def isCallable (obj : Wrapped) : Data → Bool
  | .str name => obj.callable name
  | _ => false

/-- `call_user_func_array(array($this->obj, $method), $params)`. Parameters that are not an array
are refused with a warning, and the result is null. -/
def callUserFuncArray (obj : Wrapped) : Data → Data → Ending
  | .str name, .arr args => obj.invoke name (args.map Prod.snd)
  | _, _ => .returned .null

/-- Error -32600. -/
def invalidRequest : Reply :=
  reply [("result", .null),
    ("error", .arr (assoc [("code", .int (-32600)), ("message", .str "Invalid Request")]))]

/-- `call` of an array. -/
def callArray (obj : Wrapped) (entries : List (Key × Data)) : Reply :=
  if isCallable obj (methodOf entries) then
    match callUserFuncArray obj (methodOf entries) (paramsOf entries) with
    | .returned result => reply [("result", result), ("error", .null), ("id", idOf entries)]
    | .thrown code message =>
      reply [("result", .null),
        ("error", .arr (assoc [("code", code), ("message", message)])), ("id", idOf entries)]
    | .exits => .exits
  else
    reply [("result", .null),
      ("error", .arr (assoc [("code", .int (-32601)), ("message", .str "Method not found"),
        ("id", idOf entries)]))]

/-- `JsonRpcWrapper::call`. -/
def call (obj : Wrapped) : Body → Reply
  | .text json =>
    -- a text that is not JSON is decoded to null
    match json.map jsonDecode with
    | some (.arr entries) => callArray obj entries
    | _ => invalidRequest
  | .array entries => callArray obj entries
  | .other => invalidRequest

/-! ## What a response is to be -/

/-- A member of a response. -/
def member (j : Json) (name : String) : Option Json :=
  match j with
  | .object members => members.lookup name
  | _ => none

/-- The method can be called, is called with the parameters, and returns. -/
def Returns (obj : Wrapped) (entries : List (Key × Data)) : Prop :=
  ∃ name args result, methodOf entries = .str name ∧ obj.callable name = true ∧
    paramsOf entries = .arr args ∧ obj.invoke name (args.map Prod.snd) = .returned result

/-- The response is an object with `result`, `error` and `id`, that of the request, and there is
no error just if the method returned. -/
def Responds (obj : Wrapped) (entries : List (Key × Data)) (r : Reply) : Prop :=
  ∃ j, r = .json j ∧ (member j "result").isSome = true ∧
    (∃ i, encode (idOf entries) = some i ∧ member j "id" = some i) ∧
    ∃ e, member j "error" = some e ∧ (e = .null ↔ Returns obj entries)

/-- What is expected for a request with these entries, in both forms. -/
structure Dispatches (obj : Wrapped) (request : List (String × Data)) : Prop where
  responds : Responds obj (assoc request) (call obj (.array (assoc request)))
  sameForText : ∀ j, encode (.arr (assoc request)) = some j →
    call obj (.text (some j)) = call obj (.array (assoc request))

/-! ## What it depends on -/

/-- The method can be called, the parameters are an array, and the method returns or throws what
can be encoded where it stands in the response, as the `id` can. -/
def Answerable (obj : Wrapped) (entries : List (Key × Data)) : Prop :=
  Fits 1 (idOf entries) ∧
    ∃ name args, methodOf entries = .str name ∧ obj.callable name = true ∧
      paramsOf entries = .arr args ∧
      match obj.invoke name (args.map Prod.snd) with
      | .returned result => Fits 1 result
      | .thrown code message => Fits 2 code ∧ Fits 2 message
      | .exits => False

/-- The request is empty, or has no JSON text. -/
def Textless (request : List (String × Data)) : Prop :=
  request = [] ∨ encode (.arr (assoc request)) = none

variable {obj : Wrapped} {entries : List (Key × Data)} {request : List (String × Data)}
  {fields : List (String × Data)} {j : Json}

/-! ## Replies -/

/-- There is text if all fields can be encoded. -/
theorem reply_json (h : fields ≠ []) :
    (∃ j, reply fields = .json j) ↔ ∀ field ∈ fields, Fits 1 field.2 := by
  rw [← Php.fits_assoc h 0, ← Php.jsonEncode_isSome]
  unfold reply
  cases jsonEncode (.arr (assoc fields)) with
  | none => simp
  | some j => simp

theorem lookup_encodeProperties {members : List (String × Json)} (name : String)
    (h : Php.encodeProperties fields = some members) :
    members.lookup name = (fields.lookup name).bind encode := by
  induction fields generalizing members with
  | nil =>
    rw [Php.encodeProperties] at h
    obtain rfl := Option.some.inj h
    rfl
  | cons field rest ih =>
    obtain ⟨name', d⟩ := field
    rw [Php.encodeProperties] at h
    split at h
    · next j members' hj hmembers =>
      obtain rfl := Option.some.inj h
      rw [List.lookup_cons, List.lookup_cons]
      split
      · exact hj.symm
      · exact ih hmembers
    · exact absurd h (by simp)

/-- A member of a reply is the field of that name, encoded. -/
theorem member_reply (h : fields ≠ []) (hreply : reply fields = .json j) (name : String) :
    member j name = (fields.lookup name).bind encode := by
  unfold reply at hreply
  split at hreply
  · next j' hencode =>
    obtain rfl := Reply.json.inj hreply
    have hsome : encode (.arr (assoc fields)) = some j' := by
      unfold jsonEncode at hencode
      split at hencode
      · exact hencode
      · exact absurd hencode (by simp)
    rw [Php.encode_assoc h, Option.map_eq_some_iff] at hsome
    obtain ⟨members, hmembers, rfl⟩ := hsome
    exact lookup_encodeProperties name hmembers
  · exact absurd hreply (by simp)

/-! ## The two forms of a request -/

theorem isCallable_iff {d : Data} :
    isCallable obj d = true ↔ ∃ name, d = .str name ∧ obj.callable name = true := by
  cases d with
  | str name =>
    constructor
    · intro h
      exact ⟨name, rfl, h⟩
    · rintro ⟨name', hname, h⟩
      rw [Data.str.inj hname]
      exact h
  | _ => exact iff_of_false (by simp [isCallable]) (by simp)

/-- The two exits that have the `id` where it belongs. -/
theorem responds_reply {result error : Data} :
    Responds obj entries
        (reply [("result", result), ("error", error), ("id", idOf entries)]) ↔
      Fits 1 result ∧ Fits 1 error ∧ Fits 1 (idOf entries) ∧
        (encode error = some .null ↔ Returns obj entries) := by
  have hne : [("result", result), ("error", error), ("id", idOf entries)] ≠ [] := by simp
  constructor
  · rintro ⟨j, hj, -, -, e, he, hreturns⟩
    have hall := (reply_json hne).mp ⟨j, hj⟩
    have herror : encode error = some e := (member_reply hne hj "error").symm.trans he
    refine ⟨hall ("result", result) (by simp), hall ("error", error) (by simp),
      hall ("id", idOf entries) (by simp), ?_⟩
    rw [herror, Option.some.injEq]
    exact hreturns
  · rintro ⟨hresult, herror, hid, hreturns⟩
    obtain ⟨i, hi⟩ := Option.isSome_iff_exists.mp hid.1
    obtain ⟨e, he⟩ := Option.isSome_iff_exists.mp herror.1
    obtain ⟨j, hj⟩ := (reply_json hne).mpr (by simp [hresult, herror, hid])
    rw [he, Option.some.injEq] at hreturns
    refine ⟨j, hj, ?_, ⟨i, hi, (member_reply hne hj "id").trans hi⟩, e,
      (member_reply hne hj "error").trans he, hreturns⟩
    rw [member_reply hne hj "result"]
    exact hresult.1

theorem fits_error {code message : Data} :
    Fits 1 (.arr (assoc [("code", code), ("message", message)])) ↔
      Fits 2 code ∧ Fits 2 message := by
  rw [Php.fits_assoc (by simp)]
  simp

theorem encode_error_ne_null (code message : Data) :
    encode (.arr (assoc [("code", code), ("message", message)])) ≠ some .null := by
  rw [Php.encode_assoc (by simp)]
  simp

/-- The response to an array is as it should be just if the request can be answered. -/
theorem responds_iff (obj : Wrapped) (entries : List (Key × Data)) :
    Responds obj entries (callArray obj entries) ↔ Answerable obj entries := by
  by_cases hcallable : isCallable obj (methodOf entries) = true
  · obtain ⟨name, hname, hobj⟩ := isCallable_iff.mp hcallable
    rw [callArray, if_pos hcallable]
    by_cases hparams : ∃ args, paramsOf entries = .arr args
    · obtain ⟨args, hargs⟩ := hparams
      have hanswerable : Answerable obj entries ↔ Fits 1 (idOf entries) ∧
          match obj.invoke name (args.map Prod.snd) with
          | .returned result => Fits 1 result
          | .thrown code message => Fits 2 code ∧ Fits 2 message
          | .exits => False := by
        refine and_congr_right fun _ => ⟨?_, fun h => ⟨name, args, hname, hobj, hargs, h⟩⟩
        rintro ⟨name', args', hname', -, hargs', h⟩
        obtain rfl := Data.str.inj (hname.symm.trans hname')
        obtain rfl := Data.arr.inj (hargs.symm.trans hargs')
        exact h
      have hreturns : Returns obj entries ↔
          ∃ result, obj.invoke name (args.map Prod.snd) = .returned result := by
        refine ⟨?_, fun ⟨result, h⟩ => ⟨name, args, result, hname, hobj, hargs, h⟩⟩
        rintro ⟨name', args', result, hname', -, hargs', h⟩
        obtain rfl := Data.str.inj (hname.symm.trans hname')
        obtain rfl := Data.arr.inj (hargs.symm.trans hargs')
        exact ⟨result, h⟩
      rw [hanswerable, hname, hargs, callUserFuncArray]
      cases hinvoke : obj.invoke name (args.map Prod.snd) with
      | returned result =>
        have hret : Returns obj entries := hreturns.mpr ⟨result, hinvoke⟩
        have hnull : Fits 1 .null := ⟨rfl, by decide⟩
        rw [responds_reply]
        simp [hnull, hret, and_comm]
      | thrown code message =>
        have hret : ¬ Returns obj entries := by
          rw [hreturns, hinvoke]
          simp
        have hnull : Fits 1 .null := ⟨rfl, by decide⟩
        rw [responds_reply, fits_error]
        simp [hnull, hret, encode_error_ne_null, and_comm]
      | exits =>
        refine iff_of_false ?_ (by simp)
        rintro ⟨j, hj, -⟩
        exact absurd hj (by simp)
    · -- the method is not called, and null is taken for its result
      have hcall : callUserFuncArray obj (methodOf entries) (paramsOf entries) =
          .returned .null := by
        rw [hname, callUserFuncArray]
        exact fun _ args _ hargs => hparams ⟨args, hargs⟩
      rw [hcall, responds_reply]
      refine iff_of_false ?_ ?_
      · rintro ⟨-, -, -, hreturns⟩
        obtain ⟨-, args, -, -, -, hargs, -⟩ := hreturns.mp rfl
        exact hparams ⟨args, hargs⟩
      · rintro ⟨-, -, args, -, -, hargs, -⟩
        exact hparams ⟨args, hargs⟩
  · rw [callArray, if_neg hcallable]
    refine iff_of_false ?_ ?_
    · rintro ⟨j, hj, -, ⟨i, -, hi⟩, -⟩
      rw [member_reply (by simp) hj] at hi
      exact absurd hi (by simp [List.lookup_cons])
    · rintro ⟨-, name, args, hname, hobj, -⟩
      exact hcallable (isCallable_iff.mpr ⟨name, hname, hobj⟩)

/-- No exit for arrays makes the response to an invalid request. -/
theorem callArray_ne_invalidRequest (obj : Wrapped) (entries : List (Key × Data)) :
    callArray obj entries ≠ invalidRequest := by
  obtain ⟨j, hj⟩ : ∃ j, invalidRequest = .json j := ⟨_, rfl⟩
  have hmember := member_reply (by simp) hj
  have hid : member j "id" = none := by
    rw [hmember]
    rfl
  have hwithId : ∀ result error,
      reply [("result", result), ("error", error), ("id", idOf entries)] ≠ .json j := by
    intro result error h
    have hfits : Fits 1 (idOf entries) :=
      (reply_json (by simp)).mp ⟨j, h⟩ ("id", idOf entries) (by simp)
    have hnone : encode (idOf entries) = none := (member_reply (by simp) h "id").symm.trans hid
    rw [Fits, hnone] at hfits
    exact absurd hfits.1 (by simp)
  intro h
  rw [hj, callArray] at h
  split at h
  · split at h
    · exact hwithId _ _ h
    · exact hwithId _ _ h
    · exact absurd h (by simp)
  · -- the codes differ
    have herror := hmember "error"
    rw [member_reply (by simp) h] at herror
    simp [List.lookup_cons, Php.encode_assoc, Php.encodeProperties] at herror
    cases hi : encode (idOf entries) with
    | none => simp [hi] at herror
    | some i => simp [hi] at herror

/-- The text of a request is answered as the request is just if that is empty, or there is no
text. -/
theorem sameForText_iff (obj : Wrapped) (request : List (String × Data)) :
    (∀ j, encode (.arr (assoc request)) = some j →
        call obj (.text (some j)) = call obj (.array (assoc request))) ↔ Textless request := by
  constructor
  · intro hsame
    by_cases hne : request = []
    · exact .inl hne
    refine .inr ?_
    cases hj : encode (.arr (assoc request)) with
    | none => rfl
    | some j =>
      -- the text is decoded to an object
      have hobject : call obj (.text (some j)) = invalidRequest := by
        rw [call, Option.map_some]
        split
        · next entries hentries =>
          exact absurd ((Php.jsonDecode_assoc hj).mp ⟨entries, Option.some.inj hentries⟩) hne
        · rfl
      exact absurd ((hsame j hj).symm.trans hobject) (callArray_ne_invalidRequest obj _)
  · rintro (rfl | hnone) j hj
    · obtain rfl : Json.array [] = j := Option.some.inj hj
      rfl
    · rw [hnone] at hj
      exact absurd hj (by simp)

/-- A request is dispatched as it should be, in both forms, if and only if it can be answered and
is empty or has no text. -/
theorem dispatches_iff (obj : Wrapped) (request : List (String × Data)) :
    Dispatches obj request ↔ Answerable obj (assoc request) ∧ Textless request := by
  rw [← responds_iff, ← sameForText_iff]
  exact ⟨fun h => ⟨h.responds, h.sameForText⟩, fun h => ⟨h.1, h.2⟩⟩

/-- An object with one method, which returns true. -/
def pinger : Wrapped where
  callable name := name == "ping"
  invoke _ _ := .returned (.bool true)

/-- The text of a request for `ping` with `id` 1 is answered with an invalid-request error. -/
theorem text_not_dispatched :
    ¬ Dispatches pinger [("method", .str "ping"), ("id", .int 1)] := by
  intro h
  have hsame := h.sameForText (.object [("method", .str "ping"), ("id", .int 1)]) rfl
  exact callArray_ne_invalidRequest _ _ hsame.symm

/-- The response to a request for another method has its `id` inside the error. -/
example : callArray pinger (assoc [("method", .str "pong"), ("id", .int 1)]) =
    .json (.object [("result", .null), ("error", .object [("code", .int (-32601)),
      ("message", .str "Method not found"), ("id", .int 1)])]) := rfl

end WifiGateway.Web.JsonRpc
