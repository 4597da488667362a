import Mathlib.Data.List.Dedup
import Mathlib.Data.List.Sort
import Mathlib.Data.Prod.Lex
import Mathlib.Data.String.Basic
import Yggdrasil.Deletion.Tables
import Yggdrasil.Python.Value

/-! The deletion planner: from an inventory report to an ordered list of delete
commands and the list of validation issues that stop the deletion. -/

namespace Yggdrasil.Deletion

open Python

structure Resource where
  service : String
  resource : String
  identifier : String
  raw : Mapping

def Resource.key (r : Resource) : String × String × String :=
  (r.service, r.resource, r.identifier)

structure Operation where
  phase : ℕ
  resource : Resource
  argv : List String

/-- What can be wrong with an inventory, with the data its message shows. -/
inductive Issue where
  | serviceNotObject (rawService : String)
  | notList (service resource : String)
  | unsupported (service resource : String)
  | notObject (service resource : String)
  | noIdentifier (service resource : String) (item : Mapping)
  | objectAddress (raw : Mapping)
  | recordsetZone (raw : Mapping)
  | zoneShareZone (raw : Mapping)

def Issue.text : Issue → String
  | .serviceNotObject rawService => rawService ++ ": resource collection is not an object"
  | .notList service resource => service ++ "/" ++ resource ++ ": resource collection is not a list"
  | .unsupported service resource => "unsupported project resource: " ++ service ++ "/" ++ resource
  | .notObject service resource => service ++ "/" ++ resource ++ ": resource is not an object"
  | .noIdentifier service resource item =>
    service ++ "/" ++ resource ++ ": resource has no id or name: " ++ (Value.dict item).repr
  | .objectAddress raw =>
    "object-store object is missing its container or object name: " ++ (Value.dict raw).repr
  | .recordsetZone raw => "dns recordset is missing its zone ID: " ++ (Value.dict raw).repr
  | .zoneShareZone raw => "dns zone share is missing its zone ID: " ++ (Value.dict raw).repr

/-! ### Names -/

/-- Runs of other characters become one underscore; `gap` is an open run. -/
def squash (gap : Bool) : List Char → List Char
  | [] => if gap then ['_'] else []
  | c :: cs =>
    if ('a' ≤ c ∧ c ≤ 'z') ∨ ('0' ≤ c ∧ c ≤ '9') then
      (if gap then ['_', c] else [c]) ++ squash false cs
    else squash true cs

def normalizeName (value : String) : String :=
  String.ofList (stripList (· == '_') (squash false (lower (strip value)).toList))

/-- `str(value or "")` of a mapping key. -/
def keyText : Key → String
  | .str s => s
  | .other text truthy => if truthy then text else ""

def canonicalService (value : Key) : String :=
  let normalized := normalizeName (keyText value)
  (Dict.get? serviceAliases normalized).getD
    (String.ofList (normalized.toList.map fun c => if c = '_' then '-' else c))

def canonicalResource (value : Key) : String :=
  let normalized := normalizeName (keyText value)
  (Dict.get? resourceAliases normalized).getD normalized

/-! ### Identifiers and commands -/

/-- The text of a scalar as the report stores it; no text for null and collections. -/
def rawText : Value → String
  | .none => ""
  | .seq .. => ""
  | .dict _ => ""
  | v => v.toStr

def scalarText (value : Value) : String := strip (rawText value)

def identifierKeys (service resource : String) : List String :=
  if service = "workflow" ∧ resource = "cron_trigger" then ["name", "id", "uuid"]
  else if service = "alarm" ∧ resource = "alarm" then
    ["alarm_id", "id", "uuid", "name", "display_name", "stack_name"]
  else ["id", "uuid", "name", "display_name", "stack_name"]

/-- The first value under the identifier keys whose text is not blank. -/
def identifierValue (raw : Mapping) (service resource : String) : Option Value :=
  ((identifierKeys service resource).map raw.get).find? fun v => scalarText v != ""

def identifier (raw : Mapping) (service resource : String) : String :=
  ((identifierValue raw service resource).map scalarText).getD ""

def containerValue (raw : Mapping) : Value :=
  (raw.get "container").orElse (raw.get "container_name")

def objectNameValue (raw : Mapping) : Value :=
  ((raw.get "name").orElse (raw.get "id")).orElse (raw.get "object")

def zoneValue (raw : Mapping) : Value := (raw.get "zone_id").orElse (raw.get "zone")

def objectOperation (r : Resource) : Except Issue (List String) :=
  let container := scalarText (containerValue r.raw)
  let objectName := scalarText (objectNameValue r.raw)
  if container = "" ∨ objectName = "" then .error (.objectAddress r.raw)
  else .ok ["object", "delete", container, objectName]

def recordsetOperation (r : Resource) : Except Issue (List String) :=
  let zone := scalarText (zoneValue r.raw)
  if zone = "" then .error (.recordsetZone r.raw)
  else .ok ["recordset", "delete", zone, r.identifier]

def zoneShareOperation (r : Resource) : Except Issue (List String) :=
  let zone := scalarText (zoneValue r.raw)
  if zone = "" then .error (.zoneShareZone r.raw)
  else .ok ["zone", "share", "delete", zone, r.identifier]

def commandFor (r : Resource) : Except Issue (List String) :=
  if r.service = "dns" ∧ r.resource = "recordset" then recordsetOperation r
  else if r.service = "dns" ∧ r.resource = "zone_share" then zoneShareOperation r
  else if r.service = "object-store" ∧ r.resource = "object" then objectOperation r
  else match Dict.get? commands (r.service, r.resource) with
    | some words => .ok (words ++ [r.identifier])
    | none => .error (.unsupported r.service r.resource)

/-! ### The plan -/

def itemEntry (service resource : String) : Value → Except Issue Resource
  | .dict raw =>
    if identifier raw service resource = "" then .error (.noIdentifier service resource raw)
    else .ok ⟨service, resource, identifier raw service resource, raw⟩
  | _ => .error (.notObject service resource)

/-- The types the planner deletes no object of, on purpose. -/
def exempt (service resource : String) : Bool :=
  (service == "identity" && resource == "project") ||
    coveredChildResources.contains (service, resource)

def supported (service resource : String) : Bool :=
  (Dict.get? resourcePhases (service, resource)).isSome

/-- The entries and issues one resource collection adds, in order. -/
def collectionEntries (service resource : String) (objects : Value) :
    List (Except Issue Resource) :=
  if !objects.truthy then []
  else match objects with
    | .seq .list items =>
      if exempt service resource then []
      else if !supported service resource then [.error (.unsupported service resource)]
      else items.map (itemEntry service resource)
    | _ => [.error (.notList service resource)]

def serviceEntries (rawService : Key) : Value → List (Except Issue Resource)
  | .dict resources => resources.flatMap fun p =>
      collectionEntries (canonicalService rawService) (canonicalResource p.1) p.2
  | _ => [.error (.serviceNotObject rawService.text)]

def reportEntries (resources : Mapping) : List (Except Issue Resource) :=
  resources.flatMap fun p => serviceEntries p.1 p.2

def entryOf : Except Issue Resource → Option Resource
  | .ok r => some r
  | .error _ => none

def issueOf {α : Type} : Except Issue α → Option Issue
  | .ok _ => none
  | .error i => some i

/-- The deletable entries of a report, the first of each key, and the issues found. -/
def resourceEntries (report : Mapping) : Except String (List Resource × List Issue) :=
  match report.get "resources" with
  | .dict resources =>
    let entries := reportEntries resources
    .ok (Dict.firsts Resource.key (entries.filterMap entryOf), entries.filterMap issueOf)
  | _ => .error "inventory report has no resources object"

def operationOf (r : Resource) : Option Operation :=
  match commandFor r with
  | .ok argv => some ⟨(Dict.get? resourcePhases (r.service, r.resource)).getD 0, r, argv⟩
  | .error _ => none

/-- The order of the plan: by phase, then by key. -/
def Operation.le (a b : Operation) : Prop :=
  toLex (a.phase, toLex (a.resource.service, toLex (a.resource.resource, a.resource.identifier))) ≤
    toLex (b.phase, toLex (b.resource.service, toLex (b.resource.resource, b.resource.identifier)))

instance : DecidableRel Operation.le := fun a b => by unfold Operation.le; infer_instance

/-- The issues of a report before their texts are merged. -/
def planIssues (resources : List Resource) (issues : List Issue) : List Issue :=
  issues ++ resources.filterMap (fun r => issueOf (commandFor r))

def planDeletions (report : Mapping) : Except String (List Operation × List String) :=
  match resourceEntries report with
  | .error message => .error message
  | .ok (resources, issues) =>
    .ok ((resources.filterMap operationOf).insertionSort Operation.le,
      (((planIssues resources issues).map Issue.text).dedup).insertionSort (· ≤ ·))

end Yggdrasil.Deletion
