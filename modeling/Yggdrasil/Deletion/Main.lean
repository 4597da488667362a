import Yggdrasil.Deletion.Execution

/-! The delete command: it reads a report from a file or from the inventory command,
refuses an incomplete or unplannable one, prints or executes the plan, and may verify
the result with a second inventory. -/

namespace Yggdrasil.Deletion

open Effect Effect.Program Python

/-- The two report sources, of which the command line gives exactly one. -/
inductive Source where
  | report (path : String)
  | project (name : String)
  deriving DecidableEq

structure Options where
  inventoryScript : String
  openstackBin : String
  interface : Option String
  region : Option String
  allowInventoryErrors : Bool
  allowServiceApiErrors : Bool
  yes : Bool
  verify : Bool
  waitSeconds : Seconds
  pollSeconds : Seconds
  deriving DecidableEq

def Options.settings (o : Options) : Settings := ⟨o.openstackBin, o.waitSeconds, o.pollSeconds⟩

/-- Whether the inventory is run in strict mode. -/
def Options.strict (o : Options) : Bool := !(o.allowInventoryErrors || o.allowServiceApiErrors)

/-! ### Reports -/

/-- The report in a file's answer. -/
def Read.report : Read → Except Exc Mapping
  | .json (.dict report) => .ok report
  | .json _ => .error (.deletePlan "inventory JSON must contain an object at the top level")
  | .notJson => .error (.deletePlan
      "inventory input is not JSON; run list-project-resources.py with --format json")
  | .osError message => .error (.os message)
  | .failed name => .error (.other name)

/-- The report in an answer of the inventory command. -/
def Inventory.report : Inventory → Except Exc Mapping
  | .completed c parsed =>
    if c.returncode ≠ 0 then
      .error (.deletePlan ("project inventory failed: " ++ orText (strip c.stderr) (strip c.stdout)))
    else match parsed with
      | none => .error (.deletePlan "project inventory returned invalid JSON")
      | some (.dict report) => .ok report
      | some _ => .error (.deletePlan "project inventory did not return a JSON object")
  | .osError message => .error (.os message)
  | .failed name => .error (.other name)

variable (w : World)

def loadReport (path : String) : Prog Mapping := do
  let answer ← ask (fun t => w.read t path) (.read path)
  ofExcept answer.report

/-- An option with its value, left out when the value is empty. -/
def optionWords (word : String) : Option String → List String
  | none => []
  | some value => if value = "" then [] else [word, value]

def inventoryArgv (o : Options) (project : String) : List String :=
  [w.executable, o.inventoryScript, "--project", project, "--format", "json"] ++
    (if o.strict then ["--strict"] else []) ++ ["--openstack-bin", o.openstackBin] ++
    optionWords "--interface" o.interface ++ optionWords "--region" o.region

def runInventory (o : Options) (project : String) : Prog Mapping := do
  let argv := inventoryArgv w o project
  let answer ← ask (fun t => w.inventory t argv) (.inventory argv)
  ofExcept answer.report

/-- The report of a source. An empty project name counts as no project, and leaves no path. -/
def sourceReport (o : Options) : Source → Prog Mapping
  | .report path => loadReport w path
  | .project name => if name = "" then throw (.other "TypeError") else runInventory w o name

/-- The category and the message of one entry of the errors field. -/
def errorDetail (issue : Value) : String × String :=
  match issue with
  | .dict fields =>
    let field key default := ((Mapping.get fields key).orElse default).toStr
    (field "category" (.str "inventory"),
      field "service" (.str "unknown") ++ "/" ++ field "resource" (.str "unknown") ++ ": " ++
        field "error" issue)
  | _ => ("inventory", issue.toStr)

def reportErrorDetails (report : Mapping) : List (String × String) :=
  match (Dict.get? report (.str "errors")).getD (.list []) with
  | .seq .list errors => (errors.filter Value.truthy).map errorDetail
  | _ => [("inventory", "inventory report errors field is not a list")]

def allowedInventoryErrors (details : List (String × String)) (o : Options) :
    List (String × String) :=
  if o.allowInventoryErrors then details
  else if o.allowServiceApiErrors then details.filter (·.1 == "service_api")
  else []

def blockingErrors (report : Mapping) (o : Options) : List (String × String) :=
  let details := reportErrorDetails report
  details.filter (!(allowedInventoryErrors details o).contains ·)

def warnAllowed (what : String) (report : Mapping) (o : Options) : Prog Unit :=
  (allowedInventoryErrors (reportErrorDetails report) o).foldlM
    (fun _ d => print ("WARNING: non-blocking " ++ d.1 ++ " error" ++ what ++ ": " ++ d.2)) ()

/-! ### The command -/

def planOrRaise (report : Mapping) : Prog (List Operation × List String) :=
  ofExcept ((planDeletions report).mapError .deletePlan)

/-- The ordered plan of a report that may be deleted from. -/
def checkedPlan (o : Options) (report : Mapping) : Prog (List Operation) := do
  warnAllowed "" report o
  if blockingErrors report o ≠ [] then
    throw (.deletePlan ("refusing to delete from an incomplete inventory; rerun the inventory " ++
      "with --strict and resolve these errors: " ++
      "; ".intercalate ((blockingErrors report o).map (·.2))))
  else
    let (operations, issues) ← planOrRaise report
    if issues ≠ [] then throw (.deletePlan ("refusing to delete: " ++ "; ".intercalate issues))
    else return operations

def remaining (operations : List Operation) : List String :=
  if operations = [] then []
  else ["remaining resources: " ++ ", ".intercalate (operations.map (·.resource.path))]

def verifyProject (o : Options) (project : String) : Prog Unit := do
  let verified ← runInventory w o project
  warnAllowed " during verification" verified o
  let (operations, issues) ← planOrRaise verified
  if blockingErrors verified o ≠ [] ∨ issues ≠ [] ∨ operations ≠ [] then
    throw (.deletePlan ("post-delete verification failed: " ++
      "; ".intercalate ((blockingErrors verified o).map (·.2) ++ issues ++ remaining operations)))
  else print "Verified that no project resources remain."

def verifySource (o : Options) : Source → Prog Unit
  | .report _ =>
    throw (.deletePlan "--verify requires --project so the inventory can be refreshed")
  | .project name => verifyProject w o name

def dryRun (operations : List Operation) : Prog Unit := do
  print "Dry run; pass --yes to execute the ordered deletion plan."
  operations.foldlM (fun _ operation =>
    print ("  " ++ operation.resource.service ++ "/" ++ operation.resource.resource ++ " " ++
      operation.resource.identifier ++ ": " ++ " ".intercalate operation.argv)) ()

/-- Execution of a plan and what follows it, to the exit status. -/
def execute (fuel : ℕ) (o : Options) (source : Source) (operations : List Operation) : Prog ℕ := do
  let errors ← executePlan w fuel o.settings operations
  if errors ≠ [] then
    errors.foldlM (fun _ error => print ("ERROR: " ++ error)) ()
    return 3
  else if o.verify = true then
    verifySource w o source
    return 0
  else return 0

/-- The part of `main` after the report has been read. -/
def deleteReport (fuel : ℕ) (o : Options) (source : Source) (report : Mapping) : Prog ℕ := do
  let operations ← checkedPlan o report
  if operations = [] then
    print "No deletable project resources found."
    return 0
  else if o.yes = false then
    dryRun operations
    return 0
  else execute w fuel o source operations

/-- The body of `main` inside its exception handler. -/
def body (fuel : ℕ) (o : Options) (source : Source) : Prog ℕ := do
  let report ← sourceReport w o source
  deleteReport w fuel o source report

def exitUsage : Exc → Prog ℕ
  | .deletePlan message => do
    print ("error: " ++ message)
    return 2
  | .os message => do
    print ("error: " ++ message)
    return 2
  | .other name => throw (.other name)

/-- The delete command after argument parsing, to its exit status. An exception left over
ends the process with a traceback and status 1. -/
def main (fuel : ℕ) (o : Options) (source : Source) : Prog ℕ :=
  handle (body w fuel o source) exitUsage

end Yggdrasil.Deletion
