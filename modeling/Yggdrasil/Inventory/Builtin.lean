import Mathlib.Data.List.Sort
import Mathlib.Data.Prod.Lex
import Mathlib.Data.String.Basic
import Yggdrasil.Inventory.Session

/-! The provider on top of an openstacksdk service proxy. It lists the types without
parents first, then object-store contents, then the nested types in passes: a type is
listed once every placeholder of its path names a type with objects. -/

namespace Yggdrasil.Inventory

open Combination Effect Effect.Program Python

/-- The resource registry of a proxy, which has one class for a name. -/
structure Registry where
  entries : List (String × ResourceClass)
  nodup : (entries.map Prod.fst).Nodup

/-- A provider on the proxy of a service; `hasList` says whether the proxy has a generic list
method. -/
structure BuiltinProvider where
  connection : Connection
  service : String
  proxyName : String
  hasList : Bool
  registry : Registry

structure Spec where
  name : String
  resourceClass : ResourceClass
  placeholders : List String
  deriving DecidableEq

/-! ### Resource types -/

/-- The state of a scan for `%(name)s`. -/
inductive Scan where
  | outside | percent
  | inside (name : List Char)
  | closed (name : List Char)

def Scan.restart (c : Char) : Scan := if c = '%' then .percent else .outside

/-- The names of the path parameters, in order and with repetitions. -/
def scanPlaceholders : Scan → List Char → List String
  | _, [] => []
  | .outside, c :: cs => scanPlaceholders (.restart c) cs
  | .percent, c :: cs => scanPlaceholders (if c = '(' then .inside [] else .restart c) cs
  | .inside name, c :: cs =>
    scanPlaceholders (if c ≠ ')' then .inside (name ++ [c])
      else if name = [] then .outside else .closed name) cs
  | .closed name, c :: cs =>
    if c = 's' then String.ofList name :: scanPlaceholders .outside cs
    else scanPlaceholders (.restart c) cs

def resourcePlaceholders (c : ResourceClass) : List String :=
  Dict.firsts id (scanPlaceholders .outside c.basePath.toList)

def projectKeys : List String := ["project_id", "tenant_id", "owner", "project"]

def hasProjectField (c : ResourceClass) : Bool :=
  projectKeys.any c.query.contains || projectKeys.any c.attributes.contains

/-- The project filter that the class has a query parameter for. -/
def projectKwargs (c : ResourceClass) (projectId : String) : List (String × Value) :=
  match projectKeys.find? c.query.contains with
  | some key => [(key, .str projectId)]
  | none => []

/-- The listable classes of a proxy. -/
def BuiltinProvider.resources (p : BuiltinProvider) : List (String × ResourceClass) :=
  p.registry.entries.filter fun e => e.2.allowList

/-- The inventory leaves the type out. -/
def excluded (service name : String) : Bool :=
  (globalResourceNames.contains name && !(exceptions service).contains name) ||
    nonDeletableResource service name

def specOf (e : String × ResourceClass) : Spec := ⟨e.1, e.2, resourcePlaceholders e.2⟩

def BuiltinProvider.isDirect (p : BuiltinProvider) (s : Spec) : Bool :=
  !excluded p.service s.name && s.placeholders.isEmpty &&
    (hasProjectField s.resourceClass || (exceptions p.service).contains s.name)

/-- Objects of the object store are listed for their containers, not as a nested type. -/
def BuiltinProvider.isNested (p : BuiltinProvider) (s : Spec) : Bool :=
  !excluded p.service s.name && !(p.service == "object-store" && s.name == "object") &&
    !s.placeholders.isEmpty

def BuiltinProvider.directSpecs (p : BuiltinProvider) : List Spec :=
  ((p.resources.map specOf).filter p.isDirect).insertionSort fun a b => a.name ≤ b.name

def BuiltinProvider.nestedSpecs (p : BuiltinProvider) : List Spec :=
  ((p.resources.map specOf).filter p.isNested).insertionSort fun a b =>
    toLex (a.placeholders.length, a.name) ≤ toLex (b.placeholders.length, b.name)

/-! ### Listing -/

variable (cloud : Cloud) (p : BuiltinProvider)

def listAll (name : String) (c : ResourceClass) (path query : List (String × Value)) :
    Prog (List Value) :=
  if p.hasList = false then
    throw (.inventory .unsupportedClient ("SDK proxy " ++ p.proxyName ++ " has no generic list method"))
  else do
    match ← send cloud ⟨p.connection, p.service, name, some c, path, query⟩ with
    | .objects items => return items
    | .nothing => return []
    | .failed _ error => throw (.inventory .serviceApi
        ("listing SDK resource " ++ Python.reprStr c.key ++ " failed: " ++ error))

/-- A listing that is repeated without the project filter if the service rejects it. -/
def listWithProjectFilterFallback (name : String) (c : ResourceClass)
    (path filter : List (String × Value)) : Prog (List Value) :=
  handle (listAll cloud p name c path filter) fun
    | .other message => throw (.other message)
    | .inventory kind message =>
      if filter = [] ∨ isInvalidProjectFilterError message = false then
        throw (.inventory kind message)
      else listAll cloud p name c path []

def ownedBy (projectId : String) (objects : List Value) : List Value :=
  objects.filter (belongsToProject · projectId)

/-- The objects of the first listed type under a placeholder's name. -/
def parentOption (parents : List (String × List Value)) (placeholder : String) :
    Option (List Value) :=
  (parents.find? fun e => normalizedName e.1 == parentName placeholder).map (·.2)

/-- The arguments of a nested listing, unless a parent lacks its identifier. -/
def parentKwargs (placeholders : List String) (combination : List Value) :
    Option (List (String × Value)) :=
  let kwargs := placeholders.zipWith (fun name parent => (name, resourceAttr parent name)) combination
  if kwargs.any (·.2.isNone) then none else some (Dict.update [] kwargs)

/-- The texts of a request's arguments, sorted by name. -/
def requestKey (kwargs : List (String × Value)) : List (String × String) :=
  (kwargs.map fun kv => (kv.1, text kv.2)).insertionSort fun a b => toLex a ≤ toLex b

/-- The parents' arguments that the filter does not replace. -/
def withoutKeys (parents filter : List (String × Value)) : List (String × Value) :=
  parents.filter fun kv => !(filter.map Prod.fst).contains kv.1

/-- The nested listing for one combination of parents; equal requests are sent once. -/
def listCombination (spec : Spec) (projectId : String)
    (acc : List (List (String × String)) × List Value) (combination : List Value) :
    Prog (List (List (String × String)) × List Value) :=
  match parentKwargs spec.placeholders combination with
  | none => return acc
  | some parents => do
    let filter := projectKwargs spec.resourceClass projectId
    let path := withoutKeys parents filter
    let key := requestKey (path ++ filter)
    if acc.1.contains key then return acc
    else do
      let objects ← listWithProjectFilterFallback cloud p spec.name spec.resourceClass path filter
      return (acc.1 ++ [key], acc.2 ++ objects)

def listSpec (spec : Spec) (projectId : String) (parents : List (String × List Value)) :
    Prog (List Value) :=
  if spec.placeholders = [] then do
    let filter := projectKwargs spec.resourceClass projectId
    let objects ← listWithProjectFilterFallback cloud p spec.name spec.resourceClass [] filter
    return ownedBy projectId objects
  else match spec.placeholders.mapM (parentOption parents) with
    | none => return []
    | some options =>
      if options.any List.isEmpty then return []
      else do
        let (_, objects) ← (product options).foldlM (listCombination cloud p spec projectId) ([], [])
        return ownedBy projectId objects

/-! ### Collecting -/

/-- List a type and keep its objects with their report entries. -/
def collectSpec (strict : Bool) (projectId : String) (c : Collected) (spec : Spec) :
    Prog Collected := do
  let objects ← tolerate strict spec.name (listSpec cloud p spec projectId c.objects)
  let entries ← serialize objects
  return ⟨Dict.set c.objects spec.name objects, Dict.set c.result spec.name entries⟩

/-- The project itself, for the identity service. -/
def projectRecord (project : Project) : Prog Collected :=
  if p.service = "identity" then do
    let entry ← ofOption (resourceToDict project.raw)
    return ⟨[("project", [project.raw])], [("project", [entry])]⟩
  else return ⟨[], []⟩

def isDefaultGroup (group : Value) : Bool := casefold (text (value group "name")) == "default"

def defaultGroupIds (c : Collected) : List String :=
  (((Dict.get? c.objects "security_group").getD []).filter isDefaultGroup).map
    fun group => text (value group "id")

/-- Keep the objects of a type whose key is not among the ids of the default groups. -/
def dropByIds (ids : List String) (name key : String) (c : Collected) : Prog Collected := do
  let kept := ((Dict.get? c.objects name).getD []).filter fun o => !ids.contains (text (value o key))
  let entries ← serialize kept
  return ⟨Dict.set c.objects name kept, Dict.set c.result name entries⟩

/-- Leave the automatic default group of a network service to the deletion of the project. -/
def excludeDefaultSecurityGroup (c : Collected) : Prog Collected :=
  let ids := defaultGroupIds c
  if p.service ≠ "network" ∨ ids = [] then return c
  else do
    let c ← dropByIds ids "security_group" "id" c
    if (Dict.get? c.objects "security_group_rule").isSome then
      dropByIds ids "security_group_rule" "security_group_id" c
    else return c

/-- The objects of one container, added to the entries so far. -/
def collectContainer (strict : Bool) (c : ResourceClass) (entries : List Mapping)
    (container : Value) : Prog (List Mapping) :=
  let name := resourceAttr container "container"
  if name.isNone then return entries
  else do
    let objects ← tolerate strict "object" (listAll cloud p "object" c [("container", name)] [])
    let added ← ofOption (objects.mapM (containedEntry name))
    return entries ++ added

/-- The containers of the object store, listed here unless they are a listed type already. -/
def collectContainers (strict : Bool) (c : ResourceClass) (s : Collected) : Prog Collected :=
  if (Dict.get? s.objects "container").isSome then return s
  else do
    let containers ← tolerate strict "container" (listAll cloud p "container" c [] [])
    let entries ← serialize containers
    return ⟨Dict.set s.objects "container" containers, Dict.set s.result "container" entries⟩

def missingObjectStoreClasses : Exc := .inventory .unsupportedClient
  "openstacksdk object-store proxy does not expose both container and object resources"

def collectObjectStore (strict : Bool) (s : Collected) : Prog Collected :=
  if p.service ≠ "object-store" then return s
  else match Dict.get? p.resources "container", Dict.get? p.resources "object" with
  | some container, some object => do
    let s ← collectContainers cloud p strict container s
    let entries ← ((Dict.get? s.objects "container").getD []).foldlM
      (collectContainer cloud p strict object) []
    return ⟨s.objects, Dict.set s.result "object" entries⟩
  | _, _ => do
    record "object-store" missingObjectStoreClasses
    if strict then throw missingObjectStoreClasses else return s

/-- Every placeholder names a listed type with objects. -/
def ready (objects : List (String × List Value)) (spec : Spec) : Bool :=
  spec.placeholders.all fun placeholder =>
    objects.any fun e => normalizedName e.1 == parentName placeholder && !e.2.isEmpty

/-- The state of a pass over the pending nested types. -/
structure Pass where
  collected : Collected
  remaining : List Spec
  progressed : Bool

def nestedStep (strict : Bool) (projectId : String) (s : Pass) (spec : Spec) : Prog Pass :=
  if ready s.collected.objects spec then do
    let c ← collectSpec cloud p strict projectId s.collected spec
    return ⟨c, s.remaining, true⟩
  else return { s with remaining := s.remaining ++ [spec] }

/-- Passes over the pending types until one makes no progress. Each pass that goes on leaves
fewer types, so the number of types bounds the passes. -/
def nestedLoop (strict : Bool) (projectId : String) :
    ℕ → Collected → List Spec → Prog Collected
  | 0, c, _ => return c
  | fuel + 1, c, pending =>
    if pending = [] then return c
    else do
      let s ← pending.foldlM (nestedStep cloud p strict projectId) ⟨c, [], false⟩
      if s.progressed then nestedLoop strict projectId fuel s.collected s.remaining
      else return s.collected

/-- The types listed without parents, filtered by what they relate to. -/
def collectDirect (strict : Bool) (project : Project) : Prog Collected := do
  let c ← projectRecord p project
  let c ← p.directSpecs.foldlM (collectSpec cloud p strict project.projectId) c
  let c ← excludeDefaultSecurityGroup p c
  filterRelated p.service c

def BuiltinProvider.collectAll (strict : Bool) (project : Project) : Prog Collected := do
  let c ← collectDirect cloud p strict project
  let c ← collectObjectStore cloud p strict c
  nestedLoop cloud p strict project.projectId p.nestedSpecs.length c p.nestedSpecs

def BuiltinProvider.collect (strict : Bool) (project : Project) :
    Prog (List (String × List Mapping)) := do
  let c ← p.collectAll cloud strict project
  return c.result

end Yggdrasil.Inventory
