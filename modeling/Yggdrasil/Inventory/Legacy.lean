import Mathlib.Data.List.Sort
import Mathlib.Data.String.Basic
import Yggdrasil.Inventory.Session

/-! The provider on top of a legacy Python client. Its managers whose list method needs no
argument are listed first; the others are listed for the objects of the managers that
their arguments name, in one pass, and a manager without such parents is reported. -/

namespace Yggdrasil.Inventory

open Combination Effect Effect.Program Python

inductive ParameterKind where
  | positionalOnly | positionalOrKeyword | varPositional | keywordOnly | varKeyword
  deriving DecidableEq

/-- A parameter of a list method; `hasDefault` says whether it may be left out. -/
structure Parameter where
  name : String
  kind : ParameterKind
  hasDefault : Bool
  deriving DecidableEq

/-- An attribute of a client; `listable` says whether it has a list method. -/
structure Manager where
  name : String
  listable : Bool
  signature : List Parameter
  deriving DecidableEq

/-- The attributes of a client, which have different names. -/
structure Client where
  managers : List Manager
  nodup : (managers.map Manager.name).Nodup

structure LegacyProvider where
  connection : Connection
  service : String
  name : String
  moduleName : String
  client : Client

/-! ### Managers -/

def requiredParameters (signature : List Parameter) : List Parameter :=
  signature.filter fun q => !q.hasDefault && q.kind ≠ .varPositional && q.kind ≠ .varKeyword

/-- The attribute is traversed as a manager of the service. -/
def isManager (service : String) (m : Manager) : Bool :=
  m.name.toList.head? != some '_' && !endsWith m.name "_client" &&
    !globalResourceNames.contains m.name && !globalLegacyManagerNames.contains m.name &&
    !nonDeletableResource service m.name && m.listable

def LegacyProvider.listable (p : LegacyProvider) : List Manager :=
  (p.client.managers.insertionSort fun a b => a.name ≤ b.name).filter (isManager p.service)

def LegacyProvider.managers (p : LegacyProvider) : List Manager :=
  p.listable.filter fun m => (requiredParameters m.signature).isEmpty

def LegacyProvider.nestedManagers (p : LegacyProvider) : List Manager :=
  p.listable.filter fun m => !(requiredParameters m.signature).isEmpty

/-- `name.rstrip("s")`. -/
def stripPlural (name : String) : String :=
  String.ofList (name.toList.reverse.dropWhile (· == 's')).reverse

def isParent (parameter manager : String) : Bool :=
  normalizedName manager == parentName parameter ||
    stripPlural (normalizedName manager) == parentName parameter

/-- The objects of the first listed manager that a parameter names. -/
def parentValues (parameter : String) (objects : List (String × List Value)) :
    Option (List Value) :=
  (objects.find? fun e => isParent parameter e.1).map (·.2)

def parentArgument (resource : Value) (parameter : String) : Value :=
  if endsWith parameter "_name" ||
      ["container", "queue_name", "stack_name", "namespace_name"].contains parameter then
    (value resource "name").orElse (value resource "id")
  else (value resource "id").orElse (value resource "uuid")

/-- The project filter that a list method has a parameter for. -/
def signatureKwargs (signature : List Parameter) (projectId : String) : List (String × Value) :=
  let names := signature.map Parameter.name
  let project := match ["project_id", "tenant_id", "project"].find? names.contains with
    | some key => [(key, .str projectId)]
    | none => if names.contains "filters" then
        [("filters", .record [("project_id", .str projectId)])] else []
  project ++ (["all_projects", "all_tenants", "all_projects_mode"].filter names.contains).map
    fun key => (key, .bool false)

/-- The arguments of a manager; Zun takes its filter through `**kwargs`. -/
def managerKwargs (service : String) (signature : List Parameter) (projectId : String) :
    List (String × Value) :=
  if service = "application-container" ∧ signature.any (·.kind == .varKeyword) then
    Dict.set (signatureKwargs signature projectId) "project_id" (.str projectId)
  else signatureKwargs signature projectId

/-! ### Collecting -/

variable (cloud : Cloud) (p : LegacyProvider)

def listFailure (what name : String) (error : String) : String :=
  "listing " ++ what ++ " " ++ Python.reprStr name ++ " for service " ++ Python.reprStr p.service ++
    " failed: " ++ error

def listManager (name : String) (kwargs : List (String × Value)) : Prog (List Value) := do
  match ← send cloud ⟨p.connection, p.service, name, none, [], kwargs⟩ with
  | .objects items => return items
  | .nothing => return []
  | .failed _ error =>
    throw (.inventory .serviceApi (listFailure p "legacy SDK resource" name error))

/-- Keep the objects of a manager, and their entries if there are any. -/
def keep (c : Collected) (name : String) (objects : List Value) : Prog Collected :=
  if objects = [] then return ⟨Dict.set c.objects name [], c.result⟩
  else do
    let entries ← serialize objects
    return ⟨Dict.set c.objects name objects, Dict.set c.result name entries⟩

def collectManager (strict : Bool) (projectId : String) (c : Collected) (m : Manager) :
    Prog Collected := do
  let kwargs := managerKwargs p.service m.signature projectId
  let values ← tolerate strict m.name (listManager cloud p m.name kwargs)
  keep c m.name (values.filter (belongsToProject · projectId))

/-- The entries of stored objects, up to the first without a JSON form. -/
def containedValues (container : Value) : List Value → List Value × Option String
  | [] => ([], none)
  | o :: os => match containedEntry container o with
    | none => ([], some recursionError.text)
    | some entry =>
      let (entries, error) := containedValues container os
      (.dict entry :: entries, error)

def isObjectStoreObject (name : String) : Bool :=
  p.service == "object-store" && ["object", "objects"].contains (normalizedName name)

/-- What an answer adds for its parents, and the error it ends with. -/
def nestedValues (name : String) (container : Value) (answer : Answer) :
    List Value × Option String :=
  let failure := match answer with
    | .failed _ error => some error
    | _ => none
  if isObjectStoreObject p name then
    let (entries, error) := containedValues container answer.items
    (entries, error.orElse fun _ => failure)
  else (answer.items, failure)

/-- The objects of a nested manager and the names of the managers that could not be listed. -/
structure Nested where
  values : List Value
  unlisted : List String

/-- The request for one combination of parents, with an argument for each required parameter. -/
def nestedRequest (m : Manager) (arguments : List Value) : Request :=
  ⟨p.connection, p.service, m.name, none,
    (requiredParameters m.signature).zipWith (fun q v => (q.name, v)) arguments, []⟩

def collectCombination (strict : Bool) (m : Manager) (acc : Nested) (combination : List Value) :
    Prog Nested := do
  let required := requiredParameters m.signature
  let arguments := required.zipWith (fun q resource => parentArgument resource q.name) combination
  if arguments.any Value.isNone then return { acc with unlisted := acc.unlisted ++ [m.name] }
  else do
    let answer ← send cloud (nestedRequest p m arguments)
    let (values, error) := nestedValues p m.name (arguments.headD .none) answer
    let acc := { acc with values := acc.values ++ values }
    match error with
    | none => return acc
    | some error =>
      let x := Exc.inventory .base (listFailure p "nested legacy SDK resource" m.name error)
      if isMissingResourceError x.text then return acc
      else do
        record m.name x
        if strict then throw x else return acc

def collectNested (strict : Bool) (s : Collected × List String) (m : Manager) :
    Prog (Collected × List String) := do
  let (c, unlisted) := s
  match (requiredParameters m.signature).mapM fun q => parentValues q.name c.objects with
  | none => return (c, unlisted ++ [m.name])
  | some options =>
    if options.any List.isEmpty then return (⟨Dict.set c.objects m.name [], c.result⟩, unlisted)
    else do
      let nested ← (product options).foldlM (collectCombination cloud p strict m) ⟨[], unlisted⟩
      let c ← keep c m.name nested.values
      return (c, nested.unlisted)

def noManagers : Exc := .inventory .unsupportedClient
  ("legacy SDK " ++ Python.reprStr p.moduleName ++ " exposes no listable project resources")

def unlistedManagers (names : List String) : Exc := .inventory .unsupportedClient
  ("legacy SDK " ++ Python.reprStr p.moduleName ++ " exposes nested list resources " ++
    "that could not be enumerated: " ++ ", ".intercalate names)

/-- Record an error, and raise it in strict mode. -/
def complain (strict : Bool) (resources : List String) (x : Exc) : Prog Unit := do
  resources.foldlM (fun _ resource => record resource x) ()
  if strict then throw x else return ()

/-- A client without managers is an error. -/
def checkListable (strict : Bool) : Prog Unit :=
  if p.listable.isEmpty then complain strict ["(provider)"] (noManagers p) else return ()

/-- A nested manager that could not be listed is an error. -/
def checkUnlisted (strict : Bool) (unlisted : List String) : Prog Unit :=
  let names := unlisted.dedup.insertionSort (· ≤ ·)
  if names.isEmpty then return () else complain strict names (unlistedManagers p names)

/-- The managers without required arguments, filtered by what they relate to. -/
def collectManagers (strict : Bool) (projectId : String) : Prog Collected := do
  let c ← p.managers.foldlM (collectManager cloud p strict projectId) ⟨[], []⟩
  filterRelated p.service c

def LegacyProvider.collectAll (strict : Bool) (project : Project) : Prog Collected := do
  checkListable p strict
  let c ← collectManagers cloud p strict project.projectId
  let (c, unlisted) ← p.nestedManagers.foldlM (collectNested cloud p strict) (c, [])
  checkUnlisted p strict unlisted
  return c

def LegacyProvider.collect (strict : Bool) (project : Project) :
    Prog (List (String × List Mapping)) := do
  let c ← p.collectAll cloud strict project
  return c.result

end Yggdrasil.Inventory
