import Yggdrasil.Inventory.Objects
import Yggdrasil.Inventory.Tables
import Yggdrasil.Library.Combination
import Yggdrasil.Library.Effect

/-! The session of an inventory run: its requests to the cloud with their answers, the
errors it records, and the errors it tells apart by their text. The cloud is a function
from the run so far and a request to an answer. -/

namespace Yggdrasil.Inventory

open Combination Effect Effect.Program Python

/-- The classes of `InventoryError`. -/
inductive Kind where
  | base | serviceApi | unsupportedClient | endpointDiscovery
  deriving DecidableEq

inductive Exc where
  | inventory (kind : Kind) (message : String)
  | other (message : String)
  deriving DecidableEq

def Exc.text : Exc → String
  | .inventory _ message => message
  | .other message => message

structure Connection where
  session : String
  /-- The text of `current_project_id`. -/
  currentProject : String
  deriving DecidableEq

structure Endpoint where
  endpointId : String
  region : String
  serviceName : String
  rawServiceType : String
  serviceType : String
  interface : String
  url : String
  enabled : Bool
  deriving DecidableEq

structure Project where
  projectId : String
  name : String
  raw : Value

/-- A resource class of the SDK: its key or name, its path, the mapped query parameters and
its attributes. -/
structure ResourceClass where
  key : String
  basePath : String
  allowList : Bool
  query : List String
  attributes : List String
  deriving DecidableEq

/-- A list request for a resource type, or for a manager of a legacy client: the parameters
that name its parents, and the filters and flags. -/
structure Request where
  connection : Connection
  service : String
  resource : String
  resourceClass : Option ResourceClass
  path : List (String × Value)
  query : List (String × Value)

/-- The objects of a request, `None`, or an exception, after the objects yielded before it. -/
inductive Answer where
  | objects (items : List Value)
  | nothing
  | failed (yielded : List Value) (error : String)

/-- A recorded error of a provider. -/
structure Issue where
  resource : String
  category : String
  error : String
  deriving DecidableEq

/-- A request with its answer, a recorded error, or an output of the command: a report as
JSON, by what reading it back gives, a report as a table, or an error message. -/
inductive Event where
  | listing (request : Request) (answer : Answer)
  | issue (issue : Issue)
  | json (report : Value)
  | table (report : Value)
  | error (message : String)

abbrev Prog := Program Event Exc

abbrev Cloud := List Event → Request → Answer

def Answer.items : Answer → List Value
  | .objects items => items
  | .nothing => []
  | .failed yielded _ => yielded

def Event.isIssue : Event → Bool
  | .issue _ => true
  | _ => false

def Event.issue? : Event → Option Issue
  | .issue i => some i
  | _ => none

/-- `_provider_error`. -/
def providerError (resource : String) : Exc → Issue
  | .inventory .serviceApi message => ⟨resource, "service_api", message⟩
  | x => ⟨resource, "inventory", x.text⟩

/-- The API has no such resource. -/
def isMissingResourceError (error : String) : Bool :=
  let text := casefold error
  containsWord text "404" || contains text "not found" || contains text "could not be found" ||
    contains text "resource could not be found"

/-- The service rejects the project filter itself. -/
def isInvalidProjectFilterError (error : String) : Bool :=
  let text := casefold error
  contains text "invalid filters" && (containsWord text "project_id" || containsWord text "tenant_id")

def send (cloud : Cloud) (request : Request) : Prog Answer := do
  let t ← history
  let answer := cloud t request
  emit (.listing request answer)
  return answer

theorem run_send (cloud : Cloud) (request : Request) (t : List Event) :
    (send cloud request).run t = (.value (cloud t request), [.listing request (cloud t request)]) :=
  rfl

def record (resource : String) (x : Exc) : Prog Unit := emit (.issue (providerError resource x))

/-- A listing whose failure is recorded. A missing resource counts as empty; in strict mode
every other failure is raised again. -/
def tolerate (strict : Bool) (resource : String) (listing : Prog (List Value)) :
    Prog (List Value) :=
  handle listing fun
    | .other message => throw (.other message)
    | .inventory kind message =>
      if isMissingResourceError message then return []
      else do
        record resource (.inventory kind message)
        if strict then throw (.inventory kind message) else return []

/-- `RecursionError`, for an object without a JSON form. -/
def recursionError : Exc := .other "maximum recursion depth exceeded"

def ofOption {α : Type} : Option α → Prog α
  | some a => pure a
  | none => throw recursionError

def serialize (objects : List Value) : Prog (List Mapping) := ofOption (objects.mapM resourceToDict)

/-- The entry of a stored object, which names its container. -/
def containedEntry (container : Value) (o : Value) : Option Mapping :=
  (resourceToDict o).map fun entry => Dict.setdefault entry (.str "container") container

def nonDeletableResource (service resource : String) : Bool :=
  nonDeletableResourceNames.contains resource ||
    ((Dict.get? nonDeletableResourceNamesByService service).getD []).contains resource

def exceptions (service : String) : List String :=
  (Dict.get? projectScopedExceptions service).getD []

def normalizedName (name : String) : String :=
  String.ofList ((casefold name).toList.filter
    fun c => ('a' ≤ c && c ≤ 'z') || ('0' ≤ c && c ≤ '9'))

/-- The name of the parent a parameter stands for. -/
def parentName (parameter : String) : String :=
  if endsWith parameter "_id" then normalizedName (dropSuffix parameter "_id")
  else if endsWith parameter "_name" then normalizedName (dropSuffix parameter "_name")
  else normalizedName parameter

/-- The objects listed so far and their report entries, by resource type. -/
structure Collected where
  objects : List (String × List Value)
  result : List (String × List Mapping)

/-- Workflow executions are kept only next to their workflow. -/
def filterRelatedResources (service resource : String) (objects : List Value)
    (parents : List (String × List Value)) : List Value :=
  if service = "workflow" ∧ ["execution", "workflow_execution"].contains resource then
    let workflows := (Dict.get? parents "workflow").getD []
    let workflowIds := (workflows.filter fun w => !(value w "id").isNone).map fun w => text (value w "id")
    objects.filter fun o => workflowIds.contains (text (value o "workflow_id"))
  else objects

/-- One pass of the loop that filters the listed types. -/
def filterType (service : String) (c : Collected) (entry : String × List Value) :
    Prog Collected := do
  let filtered := filterRelatedResources service entry.1 entry.2 c.objects
  let objects := Dict.set c.objects entry.1 filtered
  if (Dict.get? c.result entry.1).isSome then do
    let entries ← serialize filtered
    return ⟨objects, Dict.set c.result entry.1 entries⟩
  else return ⟨objects, c.result⟩

def filterRelated (service : String) (c : Collected) : Prog Collected :=
  c.objects.foldlM (filterType service) c

end Yggdrasil.Inventory
