import Yggdrasil.Python.Json
import Yggdrasil.Python.Text

/-! The three scripts that write custom metrics: `docker.sh`, `interfaces.sh` and `routes.sh`,
from what each finds on the host to the pieces of text that it writes one after the other. -/

namespace Yggdrasil.Exporter

open Python

inductive MetricScript where
  | docker | interfaces | routes
  deriving DecidableEq

/-- A line of `docker ps -a`, by its first two fields; Docker restricts the names. -/
structure Container where
  name : String
  status : String
  name_ok : ∀ c ∈ name.toList, c.isAlphanum ∨ c = '_' ∨ c = '.' ∨ c = '-'

/-- What the scripts look at on the host. -/
structure Host where
  containers : List Container
  /-- The operational state of an interface that exists. -/
  operstate : String → Option String
  /-- The lines of the service file of the main table, if it is there. -/
  mainService : Option (List String)
  /-- The other tables, by the names of their service files. -/
  tableServices : List (String × Option (List String))
  /-- `ip route show table TABLE | grep -Fq ROUTE`. -/
  hasRoute : String → String → Bool

/-- The name of a metric and its value as it is written. -/
abbrev Metric := String × String

/-! ### Metric names -/

def isNameChar (c : Char) : Bool := ('a' ≤ c ∧ c ≤ 'z') ∨ c.isDigit

/-- `sed 's/X+/_/g'` for the characters of a class; `inRun` tells that one has just passed. -/
def squeezeFrom (p : Char → Bool) (inRun : Bool) : List Char → List Char
  | [] => []
  | c :: cs =>
    if p c then
      if inRun then squeezeFrom p true cs else '_' :: squeezeFrom p true cs
    else c :: squeezeFrom p false cs

def squeeze (p : Char → Bool) (cs : List Char) : List Char := squeezeFrom p false cs

def sanitizeMetricName (value : String) : String :=
  let cs := squeeze (fun c => !isNameChar c) (value.toList.map Char.toLower)
  String.ofList (squeeze (· == '_') (stripList (· == '_') cs))

/-! ### `interfaces.sh` -/

def interfaceNames : List String := ["vpn0", "ceph_public", "openstack_mgmt", "ceph_cluster"]

def interfaceMetrics (h : Host) (interface : String) : List Metric :=
  let metricName := sanitizeMetricName interface
  let up := match h.operstate interface with
    | some state => if state = "up" then "1" else "0"
    | none => "0"
  [("network_interface_" ++ metricName ++ "_present",
      if (h.operstate interface).isSome then "1" else "0"),
    ("network_interface_" ++ metricName ++ "_up", up)]

/-! ### `routes.sh` -/

/-- The text after the first occurrence of `pat`. -/
def after (pat : List Char) : List Char → Option (List Char)
  | [] => if pat.isEmpty then some [] else none
  | c :: cs => if pat.isPrefixOf (c :: cs) then some ((c :: cs).drop pat.length) else after pat cs

/-- The text before the first occurrence of `pat`. -/
def before (pat : List Char) : List Char → Option (List Char)
  | [] => if pat.isEmpty then some [] else none
  | c :: cs =>
    if pat.isPrefixOf (c :: cs) then some [] else (before pat cs).map fun pre => c :: pre

def extractExpectedRoutes (file : List String) (table : String) : List String :=
  file.filterMap fun line =>
    ((after "ip route add ".toList line.toList).bind (before (" table " ++ table).toList)).map
      String.ofList

/-- The variables of the script. -/
structure Tally where
  metrics : List Metric
  expected : ℕ
  present : ℕ

def Tally.addMetric (t : Tally) (name value : String) : Tally :=
  { t with metrics := t.metrics ++ [(name, value)] }

/-- The value of a `healthy` metric. -/
def health (expected present : ℕ) : String :=
  if expected = 0 then "-1" else if expected = present then "1" else "0"

def checkRoutesForTable (h : Host) (t : Tally) (table : String) (service : Option (List String)) :
    Tally :=
  let name := "network_routes_" ++ sanitizeMetricName table
  match service with
  | none =>
    (((t.addMetric (name ++ "_configured") "0").addMetric (name ++ "_healthy") "-1").addMetric
      (name ++ "_expected_routes") "0").addMetric (name ++ "_present_routes") "0"
  | some file =>
    let expectedRoutes := (extractExpectedRoutes file table).filter (· ≠ "")
    let expected := expectedRoutes.length
    let present := expectedRoutes.countP (h.hasRoute table)
    let routes := expectedRoutes.map fun route =>
      ("network_route_" ++ sanitizeMetricName table ++ "_" ++ sanitizeMetricName route ++ "_present",
        if h.hasRoute table route then "1" else "0")
    let t : Tally := ⟨t.metrics ++ routes ++ [(name ++ "_configured", "1"),
      (name ++ "_expected_routes", toString (expected : ℤ)),
      (name ++ "_present_routes", toString (present : ℤ))], t.expected + expected,
      t.present + present⟩
    t.addMetric (name ++ "_healthy") (health expected present)

def routeTally (h : Host) : Tally :=
  let t := checkRoutesForTable h ⟨[], 0, 0⟩ "main" h.mainService
  h.tableServices.foldl (fun t s => checkRoutesForTable h t s.1 s.2) t

def routeMetrics (h : Host) : List Metric :=
  ((routeTally h).addMetric "network_routes_all_healthy"
    (health (routeTally h).expected (routeTally h).present)).metrics

/-! ### `docker.sh` -/

/-- The patterns are tried without regard to case. An unhealthy container matches the first. -/
def containerStatusCode (status : String) : String :=
  let s := status.toList.map Char.toLower
  if inOneLine "up".toList "healthy".toList s then "1"
  else if inOneLine "up".toList "unhealthy".toList s then "0"
  else if inOneLine "up".toList "starting".toList s then "0.5"
  else if isInfix "up".toList s then "1"
  else if isInfix "exit".toList s then "0"
  else "-1"

def containerName (name : String) : String :=
  String.ofList (name.toList.map fun c => if c = '-' then '_' else c)

def containerMetric (name status : String) : Metric :=
  ("docker_container_" ++ containerName name ++ "_healthy", containerStatusCode status)

/-- Without containers the loop still reads one empty line. -/
def dockerMetrics (h : Host) : List Metric :=
  if h.containers.isEmpty then [containerMetric "" ""]
  else h.containers.map fun c => containerMetric c.name c.status

/-! ### What is written -/

def MetricScript.metrics : MetricScript → Host → List Metric
  | docker, h => dockerMetrics h
  | interfaces, h => interfaceNames.flatMap (interfaceMetrics h)
  | routes, h => routeMetrics h

def metricLine (m : Metric) : String := "\"" ++ m.1 ++ "\" : " ++ m.2

/-- The lines of `interfaces.sh` and `routes.sh`, of which the last has no comma. -/
def metricPieces : List Metric → List String
  | [] => []
  | [m] => [metricLine m ++ "\n"]
  | m :: ms => (metricLine m ++ ",\n") :: metricPieces ms

/-- The variable `metrics` of `docker.sh` after its loop. -/
def dockerLoop (ms : List Metric) : List Char :=
  ms.foldl (fun metrics m => metrics ++ '\n' :: (metricLine m ++ ", ").toList) ['{']

/-- `${metrics::-2}}` and the line end of `echo`. -/
def dockerText (ms : List Metric) : List Char := (dockerLoop ms).dropLast.dropLast ++ ['}', '\n']

/-- The texts that a script writes to its file after it has truncated it. -/
def MetricScript.pieces (script : MetricScript) (h : Host) : List (List Char) :=
  match script with
  | docker => [dockerText (dockerMetrics h)]
  | _ => ['{', '\n'] :: (metricPieces (script.metrics h)).map String.toList ++ [['}', '\n']]

end Yggdrasil.Exporter
