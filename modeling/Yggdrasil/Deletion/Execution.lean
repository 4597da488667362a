import Yggdrasil.Deletion.Plan
import Yggdrasil.Library.Effect

/-! Execution of a deletion plan: the `openstack` commands, the Senlin SDK calls and
the waits for their asynchronous end. The world is the set of answer functions for
processes, SDK calls and the clock; each answer may depend on the whole run so far
and is recorded with its request. Times are exact; the waiting loops run on fuel. -/

namespace Yggdrasil.Deletion

open Effect Effect.Program Python

/-- The exceptions a run can raise, by the way `main` treats them. -/
inductive Exc where
  | deletePlan (message : String)
  | os (message : String)
  | other (name : String)
  deriving DecidableEq

structure Completed where
  returncode : ℤ
  stdout : String
  stderr : String
  deriving DecidableEq

/-- What `subprocess.run` gives: a finished process, an `OSError` of a program that
could not be started, or another exception. -/
inductive Started where
  | completed (c : Completed)
  | osError (message : String)
  | failed (name : String)
  deriving DecidableEq

/-- What reading a report gives, by what `json.loads` makes of its text. -/
inductive Read where
  | json (v : Value)
  | notJson
  | osError (message : String)
  | failed (name : String)

/-- What the inventory command gives. -/
inductive Inventory where
  | completed (c : Completed) (parsed : Option Value)
  | osError (message : String)
  | failed (name : String)

/-- A command line number of seconds. -/
inductive Seconds where
  | finite (q : ℚ)
  | infinite
  | negInfinite
  | nan
  deriving DecidableEq

/-- A request with its answer. `query` is a reading command, `command` a changing one. -/
inductive Event where
  | print (text : String)
  | read (path : String) (answer : Read)
  | inventory (argv : List String) (answer : Inventory)
  | query (argv : List String) (answer : Started)
  | command (argv : List String) (answer : Started)
  | connect (answer : Except String Unit)
  | senlinGet (kind identifier : String) (answer : Except String Unit)
  | senlinDelete (kind identifier : String) (force : Bool) (answer : Except String (Option String))
  | senlinAction (action : String) (answer : Except String String)
  | monotonic (now : ℚ)
  | sleep (seconds : Seconds)

/-- The answers of the outside world. An SDK call fails with the name of an exception
class; a delete call gives the action's id and an action lookup its status. -/
structure World where
  executable : String
  read : List Event → String → Read
  inventory : List Event → List String → Inventory
  start : List Event → List String → Started
  connect : List Event → Except String Unit
  senlinGet : List Event → String → String → Except String Unit
  senlinDelete : List Event → String → String → Except String (Option String)
  senlinAction : List Event → String → Except String String
  monotonic : List Event → ℚ
  /-- The clock does not run backwards. -/
  monotonic_le : ∀ t s, monotonic t ≤ monotonic (t ++ s)

abbrev Prog := Program Event Exc

def Started.issued : Started → Bool
  | .osError _ => false
  | _ => true

/-- A changing command that was started, or an SDK delete call. -/
def Event.isDeletion : Event → Bool
  | .command _ answer => answer.issued
  | .senlinDelete .. => true
  | _ => false

def Event.isInventory : Event → Bool
  | .inventory .. => true
  | _ => false

variable (w : World)

def ask {α : Type} (answer : List Event → α) (event : α → Event) : Prog α := do
  let t ← history
  emit (event (answer t))
  return answer t

theorem run_ask {α : Type} (answer : List Event → α) (event : α → Event) (t : List Event) :
    (ask answer event).run t = (.value (answer t), [event (answer t)]) := rfl

def print (text : String) : Prog Unit := emit (.print text)

/-! ### Commands -/

def missingOutput (output : String) : Bool :=
  let text := casefold output
  contains text "not found" || inOneLine "no ".toList " found".toList text.toList ||
    contains text "404 not found" || contains text "does not exist" ||
    contains text "could not be found" || contains text "does not have an interface"

def subprocess (event : List String → Started → Event) (argv : List String) : Prog Completed := do
  match ← ask (fun t => w.start t argv) (event argv) with
  | .completed c => return c
  | .osError message => throw (.os message)
  | .failed name => throw (.other name)

/-- The texts of both streams, joined and stripped. -/
def Completed.output (c : Completed) : String :=
  strip ("\n".intercalate ([c.stdout, c.stderr].filter (· != "")))

/-- `text or default`. -/
def orText (text default : String) : String := if text = "" then default else text

def Completed.detail (c : Completed) : String :=
  orText c.output ("exit code " ++ toString c.returncode)

def runOpenstack (openstackBin : String) (argv : List String) : Prog (Bool × String) := do
  let c ← subprocess w .command (openstackBin :: argv)
  if c.returncode = 0 then return (true, c.output)
  else if missingOutput c.output then return (true, c.output)
  else return (false, c.detail)

def isLineBreak (c : Char) : Bool :=
  let n := c.toNat
  (0x0a ≤ n && n ≤ 0x0d) || (0x1c ≤ n && n ≤ 0x1e) || n == 0x85 || n == 0x2028 || n == 0x2029

/-- The stripped lines of a text that are not blank. -/
def textLines (text : String) : List String :=
  ((text.toList.splitOnP isLineBreak).map fun l => strip (String.ofList l)).filter (· != "")

def routerPorts (openstackBin router : String) : Prog (List String × Option String) := do
  let c ← subprocess w .query
    [openstackBin, "port", "list", "--router", router, "-f", "value", "-c", "ID"]
  if c.returncode ≠ 0 ∧ missingOutput c.output = false then return ([], some c.detail)
  else return (textLines c.stdout, none)

def removePort (openstackBin router : String) (errors : List String) (port : String) :
    Prog (List String) := do
  let (ok, detail) ← runOpenstack w openstackBin ["router", "remove", "port", router, port]
  if ok then return errors
  else return errors ++ ["router " ++ router ++ ": remove port " ++ port ++ ": " ++ detail]

def routerCommand (openstackBin router : String) (errors : List String) (argv : List String) :
    Prog (List String) := do
  let (ok, detail) ← runOpenstack w openstackBin argv
  if ok then return errors
  else return errors ++ ["router " ++ router ++ ": " ++ " ".intercalate argv ++ ": " ++ detail]

def Resource.path (r : Resource) : String :=
  r.service ++ "/" ++ r.resource ++ "/" ++ r.identifier

def deleteRouter (openstackBin : String) (resource : Resource) : Prog (List String) := do
  let (ports, error) ← routerPorts w openstackBin resource.identifier
  match error with
  | some error => return [resource.path ++ ": " ++ error]
  | none =>
    let errors ← ports.foldlM (removePort w openstackBin resource.identifier) []
    [["router", "unset", "--external-gateway", resource.identifier],
      ["router", "delete", resource.identifier]].foldlM
        (routerCommand w openstackBin resource.identifier) errors

/-! ### Waiting -/

/-- `now < start + timeout`. -/
def Seconds.before (start : ℚ) (timeout : Seconds) (now : ℚ) : Bool :=
  match timeout with
  | .finite q => decide (now < start + q)
  | .infinite => true
  | _ => false

def Seconds.format0f : Seconds → String
  | .finite q => Python.format0f q
  | .infinite => "inf"
  | .negInfinite => "-inf"
  | .nan => "nan"

/-- The exception of `time.sleep`, if it raises one. -/
def Seconds.sleepError : Seconds → Option String
  | .finite q =>
    if q < 0 then some "ValueError" else if 2 ^ 63 ≤ q * 10 ^ 9 then some "OverflowError" else none
  | .nan => some "ValueError"
  | _ => some "OverflowError"

def sleep (seconds : Seconds) : Prog Unit :=
  match seconds.sleepError with
  | some name => throw (.other name)
  | none => emit (.sleep seconds)

def now : Prog ℚ := ask w.monotonic .monotonic

def stackLoop (openstackBin stack : String) (timeout poll : Seconds) (start : ℚ) :
    ℕ → Prog (Option String)
  | 0 => diverge
  | fuel + 1 => do
    let current ← now w
    if timeout.before start current then
      let c ← subprocess w .query
        [openstackBin, "stack", "show", stack, "-f", "value", "-c", "stack_status"]
      if c.returncode ≠ 0 ∧ missingOutput c.output = true then return none
      else if c.returncode ≠ 0 then return some c.detail
      else if casefold (strip c.stdout) = "delete_complete" then return none
      else if casefold (strip c.stdout) = "delete_failed" then
        return some (orText c.output "stack deletion failed")
      else
        sleep poll
        stackLoop openstackBin stack timeout poll start fuel
    else return some ("stack remained visible after " ++ timeout.format0f ++ " seconds")

def waitForStackDelete (fuel : ℕ) (openstackBin stack : String) (timeout poll : Seconds) :
    Prog (Option String) := do
  let start ← now w
  stackLoop w openstackBin stack timeout poll start fuel

/-! ### Senlin -/

/-- The kinds with a getter and a deleter, and whether the deleter forces. -/
def senlinKinds : List (String × Bool) :=
  [("cluster", true), ("node", true), ("policy", false), ("profile", false), ("receiver", false)]

def senlinGet (kind identifier : String) : Prog (Except String Unit) :=
  ask (fun t => w.senlinGet t kind identifier) (.senlinGet kind identifier)

def senlinDelete (kind identifier : String) (force : Bool) : Prog (Except String (Option String)) :=
  ask (fun t => w.senlinDelete t kind identifier) (.senlinDelete kind identifier force)

def senlinAction (action : String) : Prog (Except String String) :=
  ask (fun t => w.senlinAction t action) (.senlinAction action)

/-- The errors after a failed SDK call: none if the object is missing. -/
def senlinFailure (kind identifier what name : String) : List String :=
  if name = "NotFoundException" then []
  else ["clustering/" ++ kind ++ "/" ++ identifier ++ ": " ++ what ++ " (" ++ name ++ ")"]

/-- The upper-cased status of the action, empty when there is none to look up. -/
def actionStatus (action : Option String) : Prog (Except String String) :=
  match action with
  | some action =>
    if action = "" then return .ok ""
    else do
      match ← senlinAction w action with
      | .ok status => return .ok (upper status)
      | .error name => if name = "NotFoundException" then return .ok "" else return .error name
  | none => return .ok ""

def senlinLoop (kind identifier : String) (action : Option String) (timeout poll : Seconds)
    (start : ℚ) : ℕ → Prog (List String)
  | 0 => diverge
  | fuel + 1 => do
    let current ← now w
    if timeout.before start current then
      match ← senlinGet w kind identifier with
      | .error name => return senlinFailure kind identifier "resource lookup failed" name
      | .ok _ =>
        match ← actionStatus w action with
        | .error name => return senlinFailure kind identifier "action lookup failed" name
        | .ok status =>
          if status = "FAILED" ∨ status = "CANCELLED" then
            return ["clustering/" ++ kind ++ "/" ++ identifier ++ ": Senlin deletion action entered " ++
              status]
          else
            sleep poll
            senlinLoop kind identifier action timeout poll start fuel
    else
      return ["clustering/" ++ kind ++ "/" ++ identifier ++ ": Senlin resource remained after " ++
        timeout.format0f ++ " seconds"]

def deleteSenlinResource (fuel : ℕ) (resource : Resource) (timeout poll : Seconds) :
    Prog (List String) :=
  let kind := resource.resource
  let identifier := resource.identifier
  match Dict.get? senlinKinds kind with
  | none => return ["clustering/" ++ kind ++ "/" ++ identifier ++ ": unsupported Senlin resource"]
  | some force => do
    match ← senlinGet w kind identifier with
    | .error name => return senlinFailure kind identifier "unable to load Senlin resource" name
    | .ok _ =>
      match ← senlinDelete w kind identifier force with
      | .error name => return senlinFailure kind identifier "delete request failed" name
      | .ok action =>
        let start ← now w
        senlinLoop w kind identifier action timeout poll start fuel

/-! ### The plan -/

/-- What a run of the plan carries from one operation to the next. -/
structure Progress where
  connected : Bool
  errors : List String
  deriving DecidableEq

def connect : Prog (Except String Unit) := ask w.connect .connect

/-- The settings of a run that the execution reads. -/
structure Settings where
  openstackBin : String
  waitSeconds : Seconds
  pollSeconds : Seconds

def executeClustering (fuel : ℕ) (settings : Settings) (p : Progress) (resource : Resource) :
    Prog Progress := do
  match ← (if p.connected then return .ok () else connect w) with
  | .error name =>
    return { p with errors := p.errors ++
      ["clustering: unable to initialize OpenStack SDK (" ++ name ++ ")"] }
  | .ok _ =>
    let errors ← deleteSenlinResource w fuel resource settings.waitSeconds settings.pollSeconds
    return ⟨true, p.errors ++ errors⟩

def isStack (resource : Resource) : Bool :=
  resource.service == "orchestration" && resource.resource == "stack"

/-- The errors of an operation that is one command, followed by a wait for a stack. -/
def executeCommand (fuel : ℕ) (settings : Settings) (operation : Operation) :
    Prog (List String) := do
  let resource := operation.resource
  let (ok, detail) ← runOpenstack w settings.openstackBin operation.argv
  if !ok then return [resource.path ++ ": " ++ detail]
  else if isStack resource then
    match ← waitForStackDelete w fuel settings.openstackBin resource.identifier
        settings.waitSeconds settings.pollSeconds with
    | some error => return ["stack " ++ resource.identifier ++ ": " ++ error]
    | none => return []
  else return []

def executeOperation (fuel : ℕ) (settings : Settings) (p : Progress) (operation : Operation) :
    Prog Progress := do
  let resource := operation.resource
  print ("Deleting " ++ resource.service ++ "/" ++ resource.resource ++ " " ++
    resource.identifier ++ ": " ++ " ".intercalate operation.argv)
  if resource.service = "clustering" then executeClustering w fuel settings p resource
  else if resource.resource = "router" then
    let errors ← deleteRouter w settings.openstackBin resource
    return { p with errors := p.errors ++ errors }
  else
    let errors ← executeCommand w fuel settings operation
    return { p with errors := p.errors ++ errors }

def executePlan (fuel : ℕ) (settings : Settings) (operations : List Operation) :
    Prog (List String) := do
  let p ← operations.foldlM (executeOperation w fuel settings) ⟨false, []⟩
  return p.errors

end Yggdrasil.Deletion
