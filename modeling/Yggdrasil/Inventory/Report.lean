import Yggdrasil.Inventory.Builtin
import Yggdrasil.Inventory.Legacy

/-! The inventory command: a provider for every endpoint, the report of what they collect,
and its output. What the SDK, the installed clients and the service catalog decide is a
parameter: the provider of an endpoint, the re-scoped connection, the selected endpoints,
the resolved project. -/

namespace Yggdrasil.Inventory

open Effect Effect.Program Python

inductive Provider where
  | builtin (p : BuiltinProvider)
  | legacy (p : LegacyProvider)

def Provider.name : Provider → String
  | .builtin _ => "openstacksdk"
  | .legacy p => p.name

def Provider.collect (cloud : Cloud) (strict : Bool) (project : Project) :
    Provider → Prog (List (String × List Mapping))
  | .builtin p => p.collect cloud strict project
  | .legacy p => p.collect cloud strict project

structure Args where
  project : String
  json : Bool
  interface : String
  region : Option String
  openstackBin : String
  strict : Bool
  hideErrors : Bool
  debug : Bool
  deriving DecidableEq

structure Sdk where
  answer : Cloud
  resolveProvider : Endpoint → Connection → Except Exc Provider
  connectAsProject : Connection → String → Except String Connection
  connect : Args → Except Exc Connection
  endpoints : Connection → Args → Except Exc (List Endpoint)
  resolveProject : Connection → String → Except Exc Project

/-! ### The inventory -/

/-- A recorded error of the report, with its service. -/
structure ReportIssue where
  service : String
  issue : Issue
  deriving DecidableEq

structure Metadata where
  provider : String
  endpoint : Endpoint

structure Report where
  project : Project
  endpoints : List Endpoint
  providers : List (String × Metadata)
  resources : List (String × List (String × List Mapping))
  errors : List ReportIssue

def isIgnoredEndpoint (e : Endpoint) : Bool :=
  [e.serviceType, e.rawServiceType, e.serviceName].any fun name =>
    ignoredServiceTypes.contains (casefold (strip name))

variable (sdk : Sdk)

/-- A connection that has a project is kept, also where it is another one: the filters and
the ownership checks of the providers are left to scope it. -/
def asProjectConnection (connection : Connection) (project : Project) : Connection :=
  if connection.currentProject ≠ "" ∧ connection.currentProject = project.projectId then connection
  else if connection.currentProject ≠ "" then connection
  else match sdk.connectAsProject connection project.projectId with
    | .ok projectConnection => projectConnection
    | .error _ => connection

/-- Some services allow no project-scoped connection. -/
def providerConnection (connection target : Connection) (e : Endpoint) : Connection :=
  if ["application-container", "identity", "key-manager"].contains e.serviceType then connection
  else target

def clientIssue (e : Endpoint) (message : String) : ReportIssue :=
  ⟨e.serviceType, ⟨"(client)", "inventory",
    e.serviceType ++ " (" ++ e.rawServiceType ++ ", " ++ e.url ++ "): " ++ message⟩⟩

/-- The providers of the endpoints, and an error for each endpoint without a client. -/
def resolveEndpoint (connection target : Connection)
    (acc : List (Endpoint × Provider) × List ReportIssue) (e : Endpoint) :
    Prog (List (Endpoint × Provider) × List ReportIssue) :=
  match sdk.resolveProvider e (providerConnection connection target e) with
  | .ok provider => return (acc.1 ++ [(e, provider)], acc.2)
  | .error (.inventory _ message) => return (acc.1, acc.2 ++ [clientIssue e message])
  | .error (.other message) => throw (.other message)

def preflightFailed (errors : List ReportIssue) : Exc := .inventory .base
  ("service client preflight failed; no resources were listed:\n- " ++
    "\n- ".intercalate (errors.map (·.issue.error)))

/-- What one provider adds to a report: its resources, and the errors it recorded. -/
def collectEndpoint (strict : Bool) (project : Project) (r : Report)
    (entry : Endpoint × Provider) : Prog Report := do
  let (e, provider) := entry
  let (outcome, events) ← attempt (provider.collect sdk.answer strict project)
  let issues := (events.filterMap Event.issue?).map (ReportIssue.mk e.serviceType)
  let providers := Dict.set r.providers e.serviceType ⟨provider.name, e⟩
  match outcome with
  | .ok collected =>
    return { r with
      resources := Dict.set r.resources e.serviceType collected
      providers := providers
      errors := r.errors ++ issues }
  | .error x =>
    if strict then throw x
    else return { r with
      resources := Dict.set r.resources e.serviceType []
      providers := providers
      errors := r.errors ++ ⟨e.serviceType, ⟨"(provider)", "inventory", x.text⟩⟩ :: issues }

def inventory (endpoints : List Endpoint) (connection : Connection) (project : Project)
    (strict : Bool) : Prog Report := do
  let selected := endpoints.filter fun e => !isIgnoredEndpoint e
  let target := asProjectConnection sdk connection project
  let (providers, errors) ← selected.foldlM (resolveEndpoint sdk connection target) ([], [])
  if errors ≠ [] ∧ strict = true then throw (preflightFailed errors)
  else providers.foldlM (collectEndpoint sdk strict project) ⟨project, selected, [], [], errors⟩

/-! ### The report as JSON -/

def Endpoint.toValue (e : Endpoint) : Value := .record
  [("endpoint_id", .str e.endpointId), ("region", .str e.region),
   ("service_name", .str e.serviceName), ("raw_service_type", .str e.rawServiceType),
   ("service_type", .str e.serviceType), ("interface", .str e.interface), ("url", .str e.url),
   ("enabled", .bool e.enabled)]

def Metadata.toValue (m : Metadata) : Value := .record
  [("provider", .str m.provider), ("service_name", .str m.endpoint.serviceName),
   ("raw_service_type", .str m.endpoint.rawServiceType), ("interface", .str m.endpoint.interface),
   ("region", .str m.endpoint.region), ("url", .str m.endpoint.url)]

def ReportIssue.toValue (i : ReportIssue) : Value := .record
  [("service", .str i.service), ("resource", .str i.issue.resource),
   ("category", .str i.issue.category), ("error", .str i.issue.error)]

def resourcesValue (resources : List (String × List (String × List Mapping))) : Value :=
  .record (resources.map fun s => (s.1, .record (s.2.map fun t => (t.1, .list (t.2.map Value.dict)))))

/-- The fields of a report; `hideErrors` leaves out the errors. -/
def Report.fields (r : Report) (hideErrors : Bool) : List (String × Value) :=
  [("project", .record [("id", .str r.project.projectId), ("name", .str r.project.name)]),
   ("endpoints", .list (r.endpoints.map Endpoint.toValue)),
   ("providers", .record (r.providers.map fun p => (p.1, p.2.toValue))),
   ("resources", resourcesValue r.resources)] ++
    if hideErrors then [] else [("errors", .list (r.errors.map ReportIssue.toValue))]

def keyLe (a b : Key × Value) : Prop := a.1.text ≤ b.1.text

instance : DecidableRel keyLe := fun a b => by unfold keyLe; infer_instance

mutual

/-- What `json.loads` gives for the text that `json.dumps` writes with sorted keys; sets and
objects have no such text. -/
def dumps : Value → Option Value
  | .seq .set _ => none
  | .seq _ items => (dumpsItems items).map Value.list
  | .dict items => (dumpsEntries items).map fun es => .dict (es.insertionSort keyLe)
  | .object .. => none
  | v => some v

def dumpsItems : List Value → Option (List Value)
  | [] => some []
  | v :: vs => do
    let j ← dumps v
    let js ← dumpsItems vs
    return j :: js

def dumpsEntries : List (Key × Value) → Option (List (Key × Value))
  | [] => some []
  | (k, v) :: es => do
    let j ← dumps v
    let js ← dumpsEntries es
    return (.str k.text, j) :: js

end

/-! ### The command -/

/-- The report on the standard output. A value without a JSON text raises a `TypeError`. -/
def printReport (args : Args) (r : Report) : Prog Unit :=
  let report := Value.record (r.fields args.hideErrors)
  if args.json then
    match dumps report with
    | some v => emit (.json v)
    | none => throw (.other "object is not JSON serializable")
  else emit (.table report)

def body (args : Args) : Prog ℕ := do
  let connection ← ofExcept (sdk.connect args)
  let endpoints ← ofExcept (sdk.endpoints connection args)
  let project ← ofExcept (sdk.resolveProject connection args.project)
  let report ← inventory sdk endpoints connection project args.strict
  printReport args report
  return if args.strict = true ∧ report.errors ≠ [] then 2 else 0

/-- The inventory command after argument parsing, to its exit status. -/
def main (args : Args) : Prog ℕ :=
  handle (body sdk args) fun x =>
    if args.debug then throw x
    else do
      emit (.error (match x with
        | .inventory _ message => "error: " ++ message
        | .other message => "error: unexpected inventory failure: " ++ message))
      return 2

end Yggdrasil.Inventory
