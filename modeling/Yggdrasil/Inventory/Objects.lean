import Yggdrasil.Python.Value

/-! How the inventory reads the objects of a service response: their fields, the project
that owns them, the identifiers their children are listed by, and their JSON form. -/

namespace Yggdrasil.Inventory

open Python

def text : Value → String
  | .none => ""
  | v => v.toStr

/-- `resource.get(key)` of a mapping, `getattr(resource, key, None)` of an object. -/
def value : Value → String → Value
  | .dict items, key => Mapping.get items key
  | .object attrs _ _ _ _ _, key => (Dict.get? attrs key).getD .none
  | _, _ => .none

/-- The first value that is not `None`. -/
def firstValue (vs : List Value) : Value := (vs.find? (!·.isNone)).getD .none

/-- The identifier of a parent under the name of a path placeholder. -/
def resourceAttr (resource : Value) (name : String) : Value :=
  if (value resource name).isNone = false then value resource name
  else if endsWith name "_id" then value resource "id"
  else if endsWith name "_name" || ["container", "queue_name", "stack_name",
      "namespace_name"].contains name then
    (value resource "name").orElse (value resource "id")
  else .none

/-! ### Owners -/

def isHex (c : Char) : Bool := c.isDigit || ('a' ≤ c && c ≤ 'f') || ('A' ≤ c && c ≤ 'F')

/-- The characters satisfying `p` at the front, if there are any, and the rest. -/
def span1 (p : Char → Bool) (cs : List Char) : Option (List Char × List Char) :=
  match cs.takeWhile p with
  | [] => none
  | run => some (run, cs.dropWhile p)

/-- The pattern `\d+(?:\.\d+)?` and a slash. -/
def versionPath (cs : List Char) : Option (List Char) := do
  let (_, rest) ← span1 Char.isDigit cs
  let minor : List Char := match rest with
    | '.' :: more => ((span1 Char.isDigit more).map (·.2)).getD rest
    | _ => rest
  match minor with
  | '/' :: more => some more
  | _ => none

/-- The pattern `[0-9a-f]{16,}(?:-[0-9a-f-]+)?` before a slash or the end. -/
def projectPath (cs : List Char) : Option String := do
  let (run, rest) ← span1 isHex cs
  let (tail, after) := match rest with
    | '-' :: more => ((span1 (fun c => isHex c || c == '-') more).map
        fun p => ('-' :: p.1, p.2)).getD ([], rest)
    | _ => ([], rest)
  if 16 ≤ run.length ∧ (after = [] ∨ after = ['\n'] ∨ after.head? = some '/') then
    some (String.ofList (run ++ tail))
  else none

def searchProject : List Char → Option String
  | '/' :: v :: cs =>
    match (if v = 'v' ∨ v = 'V' then (versionPath cs).bind projectPath else none) with
    | some project => some project
    | none => searchProject (v :: cs)
  | _ :: cs => searchProject cs
  | [] => none

/-- The project in a versioned link of a resource. -/
def linkProject (link : Value) : Option String :=
  let href := value link "href"
  if href.truthy then searchProject (text href).toList else none

def linkProjectValue (resource : Value) : Value :=
  let links := match value resource "links" with
    | .dict items => [Value.dict items]
    | .seq _ items => items
    | _ => []
  ((links.findSome? linkProject).map Value.str).getD .none

/-- The identifier in a project record, or in the project of a location. -/
def recordProject (project : Value) : Value :=
  firstValue (["id", "project_id", "tenant_id"].map (value project))

/-- The project that owns a resource. -/
def projectValue (resource : Value) : Value :=
  firstValue ((["project_id", "tenant_id", "tenant", "owner"].map (value resource)) ++
    [linkProjectValue resource, recordProject (value resource "project"),
     recordProject (value (value resource "location") "project"),
     value resource "user_project_id"])

def belongsToProject (resource : Value) (projectId : String) : Bool :=
  (projectValue resource).isNone || text (projectValue resource) == projectId

/-! ### JSON forms -/

/-- The items of a mapping with string keys, a later item replacing an earlier one. -/
def stringKeys (items : List (Key × Value)) : Mapping :=
  items.foldl (fun d p => Dict.set d (.str p.1.text) p.2) []

def isPublic (k : Key) : Bool := k.text.toList.head? != some '_'

mutual

/-- The JSON form of a value. An object that shows none of its fields has none: the
conversion then recurses without end. -/
def jsonable : Value → Option Value
  | .seq _ items => (jsonableItems items).map Value.list
  | .dict items => (jsonableEntries items).map fun es => .dict (stringKeys es)
  | .object _ _ _ _ (some iso) _ => some (.str iso)
  | .object _ (some m) _ _ none _ => (jsonableEntries m).map fun es => .dict (stringKeys es)
  | .object _ none (some m) _ none _ => (jsonableEntries m).map fun es => .dict (stringKeys es)
  | .object _ none none (some m) none _ => (jsonablePublic m).map fun es => .dict (stringKeys es)
  | .object _ none none none none _ => none
  | v => some v

def jsonableItems : List Value → Option (List Value)
  | [] => some []
  | v :: vs => do
    let j ← jsonable v
    let js ← jsonableItems vs
    return j :: js

def jsonableEntries : List (Key × Value) → Option (List (Key × Value))
  | [] => some []
  | (k, v) :: es => do
    let j ← jsonable v
    let js ← jsonableEntries es
    return (k, j) :: js

/-- The public items of an object's `__dict__`. -/
def jsonablePublic : List (Key × Value) → Option (List (Key × Value))
  | [] => some []
  | (k, v) :: es =>
    if isPublic k then do
      let j ← jsonable v
      let js ← jsonablePublic es
      return (k, j) :: js
    else jsonablePublic es

end

/-- The report entry of a resource. -/
def resourceToDict : Value → Option Mapping
  | .dict items => (jsonableEntries items).map stringKeys
  | .object _ (some m) _ _ _ _ => (jsonableEntries m).map stringKeys
  | .object _ none (some m) _ _ _ => (jsonableEntries m).map stringKeys
  | .object _ none none (some m) _ _ => (jsonablePublic m).map stringKeys
  | v => (jsonable v).map fun j => [(.str "value", j)]

end Yggdrasil.Inventory
