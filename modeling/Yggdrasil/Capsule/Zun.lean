import Mathlib.Data.Rat.Floor
import Yggdrasil.Library.Effect
import Yggdrasil.Python.Value

/-! The Zun requests of the capsule profile: creation, the wait for a state, and deletion. The
world answers each request, and the clock, as a function of the run so far; an answer is a
response or an exception. The waiting loops run on fuel. -/

namespace Yggdrasil.Capsule

open Effect Effect.Program Python

/-! ### Answers -/

/-- An exception: its `http_status`, the `status_code` of its `response` if it has one, and
its text. -/
structure Failure where
  httpStatus : Value
  response : Option Value
  text : String

/-- An exception that is no answer to a request. -/
def Failure.ofText (text : String) : Failure := ⟨.none, none, text⟩

def Failure.isNotFound (e : Failure) : Bool :=
  let status := if e.httpStatus.isNone then e.response.getD .none else e.httpStatus
  status.toStr == "404"

structure Response where
  statusCode : ℤ
  hasContent : Bool
  json : Except Failure Value
  /-- The text of the exception of `raise_for_status`. -/
  reason : String

abbrev Answer := Except Failure Response

inductive Exc where
  | failure (e : Failure)
  | resourceCreation (message : String) (resourceId : Value)
  | resourceDeletion (id : Value) (message : String)

def Exc.text : Exc → String
  | .failure e => e.text
  | .resourceCreation message _ => message
  | .resourceDeletion _ message => message

def Exc.isNotFound : Exc → Bool
  | .failure e => e.isNotFound
  | _ => false

inductive Event where
  | post (url : String) (template : Value) (answer : Answer)
  | get (url : String) (answer : Answer)
  | delete (url : String) (answer : Answer)
  | monotonic (now : ℚ)
  | sleep
  | log (text : String)

structure World where
  urljoin : String → String → String
  post : List Event → String → Value → Answer
  get : List Event → String → Answer
  delete : List Event → String → Answer
  monotonic : List Event → ℚ

abbrev Prog := Program Event Exc

variable (w : World)

def ask {α : Type} (answer : List Event → α) (event : α → Event) : Prog α := do
  let t ← history
  emit (event (answer t))
  return answer t

theorem run_ask {α : Type} (answer : List Event → α) (event : α → Event) (t : List Event) :
    (ask answer event).run t = (.value (answer t), [event (answer t)]) := rfl

def fail {α : Type} (text : String) : Prog α := throw (.failure (.ofText text))

def liftExcept {α : Type} : Except Failure α → Prog α
  | .ok a => pure a
  | .error e => throw (.failure e)

def now : Prog ℚ := ask w.monotonic .monotonic

def pause : Prog Unit := emit .sleep

/-! ### Responses -/

def Response.raiseForStatus (r : Response) : Except Failure Unit :=
  if 400 ≤ r.statusCode ∧ r.statusCode < 600 then
    .error ⟨.none, some (.int r.statusCode), r.reason⟩
  else .ok ()

/-- `payload.get("capsule", payload)` of a mapping. -/
def capsulePart : Value → Value
  | .dict items => (Dict.get? items (.str "capsule")).getD (.dict items)
  | _ => .dict []

def Response.responseJson (r : Response) : Except Failure Value :=
  if r.hasContent then r.json.map capsulePart else .ok (.dict [])

def typeName : Value → String
  | .none => "NoneType"
  | .bool _ => "bool"
  | .int _ => "int"
  | .float _ => "float"
  | .str _ => "str"
  | .seq .list _ => "list"
  | .seq .tuple _ => "tuple"
  | .seq .set _ => "set"
  | .dict _ => "dict"
  | .object .. => "object"

/-- `value.get(key, default)`. -/
def getItem (value : Value) (key : String) (default : Value) : Except Failure Value :=
  match value with
  | .dict items => .ok ((Dict.get? items (.str key)).getD default)
  | v => .error (.ofText ("'" ++ typeName v ++ "' object has no attribute 'get'"))

def readyStates : List String := ["Running", "Succeeded"]

def failedStates : List String := ["Failed", "Error", "Unknown"]

/-- Membership in a set of texts, for which the value is hashed. -/
def memStates (states : List String) : Value → Except Failure Bool
  | .str s => .ok (states.contains s)
  | .seq .list items => .error (.ofText ("unhashable type: '" ++ typeName (.seq .list items) ++ "'"))
  | .seq .set items => .error (.ofText ("unhashable type: '" ++ typeName (.seq .set items) ++ "'"))
  | .dict items => .error (.ofText ("unhashable type: '" ++ typeName (.dict items) ++ "'"))
  | _ => .ok false

/-! ### Requests -/

def capsuleUrl (base : String) (id : Value) : String := w.urljoin base ("capsules/" ++ id.toStr)

/-- The response of a lookup; none stands for an absent capsule. -/
def found : Answer → Except Failure (Option Response)
  | .error e => if e.isNotFound then .ok none else .error e
  | .ok r => if r.statusCode = 404 then .ok none else r.raiseForStatus.map fun _ => some r

def getCapsule (url : String) : Prog (Option Response) := do
  let answer ← ask (fun t => w.get t url) (.get url)
  liftExcept (found answer)

/-- What a poll of the wait for a state finds. -/
inductive Poll where
  | reached (capsule : Value)
  | pending (state : Value)

/-- The state in a response: one to wait for, or one to go on from; a failed one raises. -/
def readState (id : Value) (states : List String) (r : Response) : Except Failure Poll := do
  let capsule ← r.responseJson
  let state ← getItem capsule "status" (.str "unknown")
  if ← memStates states state then return .reached capsule
  else if ← memStates failedStates state then
    let reason ← getItem capsule "status_reason" (.str "no status reason")
    .error (.ofText ("Zun capsule " ++ id.toStr ++ " entered " ++ state.toStr ++ ": " ++ reason.toStr))
  else return .pending state

def waitLoop (base : String) (id : Value) (states : List String) (deadline : ℚ) :
    Value → ℕ → Prog (Option Value)
  | _, 0 => diverge
  | last, fuel + 1 => do
    let current ← now w
    if current < deadline then
      match ← getCapsule w (capsuleUrl w base id) with
      | none => return none
      | some response =>
        match ← liftExcept (readState id states response) with
        | .reached capsule => return some capsule
        | .pending state =>
          pause
          waitLoop base id states deadline state fuel
    else fail ("Timed out waiting for Zun capsule " ++ id.toStr ++ "; last state: " ++ last.toStr)

def waitForState (fuel : ℕ) (base : String) (id : Value) (states : List String) (timeout : ℚ) :
    Prog (Option Value) := do
  let start ← now w
  waitLoop w base id states (start + timeout) (.str "unknown") fuel

/-! ### Deletion -/

def deleteTimeout : ℚ := 300

def createTimeout : ℚ := 600

def goneLoop (url : String) (id : Value) (deadline : ℚ) : ℕ → Prog Bool
  | 0 => diverge
  | fuel + 1 => do
    let current ← now w
    if current < deadline then
      match ← getCapsule w url with
      | none => return true
      | some _ =>
        pause
        goneLoop url id deadline fuel
    else fail ("Timed out deleting Zun capsule " ++ id.toStr)

/-- Whether a delete request found nothing. -/
def deletedAlready : Answer → Except Failure Bool
  | .error e => .error e
  | .ok r => if r.statusCode = 404 then .ok true else r.raiseForStatus.map fun _ => false

def requestDelete (url : String) : Prog Bool := do
  let answer ← ask (fun t => w.delete t url) (.delete url)
  liftExcept (deletedAlready answer)

/-- After a failed delete request the capsule is looked up once. -/
def confirmAbsent (url : String) (x : Exc) : Prog Bool :=
  if x.isNotFound then return true
  else do
    match ← getCapsule w url with
    | none => return true
    | some _ => throw x

def deleteCapsule (fuel : ℕ) (base : String) (id : Value) : Prog Bool := do
  let url := capsuleUrl w base id
  let gone ← handle (requestDelete w url) (confirmAbsent w url)
  if gone then return true
  else do
    let start ← now w
    goneLoop w url id (start + deleteTimeout) fuel

/-! ### The operations of the profile -/

/-- The `uuid` or `id` of the created capsule. -/
def createdId (r : Response) : Except Failure Value := do
  r.raiseForStatus
  let capsule ← r.responseJson
  let uuid ← getItem capsule "uuid" .none
  if uuid.truthy then return uuid else getItem capsule "id" .none

def requestCreate (base : String) (template : Value) : Prog Value := do
  let url := w.urljoin base "capsules/"
  let body := Value.record [("template", template)]
  let answer ← ask (fun t => w.post t url body) (.post url body)
  liftExcept (answer.bind createdId)

def awaitReady (fuel : ℕ) (base : String) (id : Value) : Prog Value := do
  if !id.truthy then fail "Zun did not return the created capsule UUID"
  else do
    match ← waitForState w fuel base id readyStates createTimeout with
    | none => fail ("Zun capsule " ++ id.toStr ++ " disappeared before becoming ready")
    | some _ => return id

/-- The capsule is deleted again if its id is known, and the failure is raised. -/
def rollBack (fuel : ℕ) (base : String) (id : Value) (x : Exc) : Prog Value := do
  if id.truthy then
    handle (do let _ ← deleteCapsule w fuel base id) fun _ =>
      emit (.log ("Failed to roll back capsule " ++ id.toStr))
  throw (.resourceCreation x.text id)

/-- `do_create` with the session's base URL and the template of the node. -/
def doCreate (fuel : ℕ) (base : String) (template : Value) : Prog Value := do
  let id ← handle (requestCreate w base template) fun x => throw (.resourceCreation x.text .none)
  handle (awaitReady w fuel base id) (rollBack w fuel base id)

/-- `do_delete` of a node with a physical id, with the session's base URL. -/
def doDelete (fuel : ℕ) (base : String) (id : Value) : Prog Bool :=
  handle (deleteCapsule w fuel base id) fun x => throw (.resourceDeletion id x.text)

end Yggdrasil.Capsule
