import Yggdrasil.Library.Playbook
import Yggdrasil.Python.Number

/-! What the tasks of the disk cleanup are made of: the variables they read, their conditions,
their loops, and what one does on a host. What a module finds or does there is for the world to
say, from all that has happened before. The runs are outside check mode. -/

namespace Yggdrasil.DiskCleanup

open Effect Python

/-- The variables of `vars/free_disk_space.yml` that conditions read. -/
inductive Setting where
  | apply | confirm | journalVacuum | clearKernelRing | kollaLogrotate | kollaRotatedLogCleanup
  | kollaActiveLogCleanup | hostLogCleanup | truncateHostLogs | dockerRotatedLogCleanup
  | dockerActiveLogCleanup | dockerImagePrune | dockerVolumePrune | dockerBuilderPrune
  | packageCacheCleanup | removeFreebsdArtifacts | mariadbBinlogCleanup
  | mariadbReplicationConfirmed | mariadbBinlogRetentionDays | mariadbExpectedClusterSize
  | opensearchCleanup | opensearchSoftRetentionDays | opensearchHardRetentionDays
  | discardFluentdRetry | aggressive
  deriving DecidableEq

/-- The variables that `set_fact` sets. -/
inductive Fact where
  | kollaPasswords | mariadbPassword | mariadbSafe | opensearchIndices | opensearchOpenIndices
  | opensearchSoftCutoff | opensearchHardCutoff
  deriving DecidableEq

/-- The variables that tasks register and others read. -/
inductive Register where
  | controllerPasswordFile | controllerPasswordFileContents | before | nodeBefore | nodeAfter
  | journalRotate | kernelRing | dockerNames | logrotate | rotatedHostLogs | currentHostLogs
  | rotatedDockerLogs | kollaLogsMountpoint | rotatedKollaLogs | currentKollaLogs
  | activeDockerLogs | npm | pip | cypressCache | kataArchives | freebsdArtifacts | cephImages
  | cephLoopDevices | mariadbPurgeBefore | fluentdMountpoint | fluentdRetryFiles | fluentdBuffer
  | fluentdStop | dockerAfter | mariadbContainers | localMariadbPasswordFile
  | localMariadbPassword | mariadbWsrep | mariadbReplica | opensearchHealth | opensearchIndexList
  | opensearchOpenIndexList | opensearchCutoffs | opensearchIndexEpochs
  deriving DecidableEq

/-- What a loop runs over: the path of a file, the name of a date or of an index, or a result
for one of these. -/
structure Item where
  label : String
  rc : Option ℤ
  stdout : String
  deriving DecidableEq

/-- What a module returns, as far as it is read. -/
structure Result where
  unreachable : Bool
  failed : Bool
  rc : Option ℤ
  stdout : String
  /-- The paths that `find` found. -/
  files : List String
  /-- The fields `exists` and `isdir` of `stat`. -/
  isPresent : Bool
  isDir : Bool
  /-- The content of a slurped password file, by its `database_password`. -/
  databasePassword : Option String
  /-- The status and the content of a response. -/
  status : ℕ
  content : String

/-- A module that was run on a host. -/
structure Event where
  host : String
  task : String
  register : Option Register
  mutates : Bool
  item : Option Item
  result : Result
  facts : List (Fact × Value)

/-- `vars/free_disk_space.yml`, for the group `deployment_nodes`. -/
def defaults (deploymentNodes : List String) : Setting → Value
  | .apply => .bool false
  | .confirm => .bool false
  | .journalVacuum => .bool true
  | .clearKernelRing => .bool true
  | .kollaLogrotate => .bool true
  | .kollaRotatedLogCleanup => .bool true
  | .kollaActiveLogCleanup => .bool true
  | .hostLogCleanup => .bool true
  | .truncateHostLogs => .bool true
  | .dockerRotatedLogCleanup => .bool true
  | .dockerActiveLogCleanup => .bool true
  | .dockerImagePrune => .bool true
  | .dockerVolumePrune => .bool false
  | .dockerBuilderPrune => .bool true
  | .packageCacheCleanup => .bool true
  | .removeFreebsdArtifacts => .bool false
  | .mariadbBinlogCleanup => .bool false
  | .mariadbReplicationConfirmed => .bool false
  | .mariadbBinlogRetentionDays => .int 7
  | .mariadbExpectedClusterSize => .str (toString deploymentNodes.length)
  | .opensearchCleanup => .bool true
  | .opensearchSoftRetentionDays => .int 1
  | .opensearchHardRetentionDays => .int 1
  | .discardFluentdRetry => .bool false
  | .aggressive => .bool false

/-- The inventory and what is given for the run: extra variables, which go before those of the
file, and `free_disk_space_mariadb_root_password` on each host. -/
structure Env where
  deploymentController : List String
  deploymentNodes : List String
  extra : Setting → Option Value
  rootPassword : String → String

def Env.setting (env : Env) (s : Setting) : Value :=
  (env.extra s).getD (defaults env.deploymentNodes s)

structure Context where
  env : Env
  log : List Event
  host : String
  item : Option Item

/-! ### Filters -/

/-- The filter `bool`. -/
def toBool : Value → Bool
  | .bool b => b
  | .int i => i = 1
  | .float r => r = "1.0"
  | .str s => ["yes", "on", "1", "true"].contains (lower s)
  | _ => false

/-- The filter `int`, which makes 0 of what is no number. -/
def toInt (v : Value) : ℤ :=
  match intOf v with
  | .ok i => i
  | .error _ =>
    match v with
    | .str s => (signed truncDecimal (strip s).toList).getD 0
    | _ => 0

def isTrue (c : Context) (s : Setting) : Bool := toBool (c.env.setting s)

/-! ### Variables -/

/-- The runs of the task that registered a variable on the host, of which a loop has several. -/
def Context.runs (c : Context) (r : Register) : List Event :=
  c.log.filter fun e => e.host = c.host ∧ e.register = some r

/-- A variable that was registered; it has no fields when its task was skipped. -/
def Context.result (c : Context) (r : Register) : Option Result :=
  (c.runs r).getLast?.map Event.result

/-- The results of a loop. -/
def Context.results (c : Context) (r : Register) : List Item :=
  (c.runs r).filterMap fun e => e.item.map fun i => ⟨i.label, e.result.rc, e.result.stdout⟩

/-- A fact that was set on a host. -/
def factOf (log : List Event) (host : String) (f : Fact) : Option Value :=
  ((log.filter fun e => e.host = host).flatMap Event.facts).reverse.findSome? fun p =>
    if p.1 = f then some p.2 else none

def Context.fact (c : Context) (f : Fact) : Option Value := factOf c.log c.host f

def textOf (v : Option Value) : String :=
  match v with
  | some (.str s) => s
  | _ => ""

def textsOf (v : Option Value) : List String :=
  match v with
  | some (.seq _ items) => items.map Value.toStr
  | _ => []

def Context.stdout (c : Context) (r : Register) : String :=
  ((c.result r).map Result.stdout).getD ""

/-- `TEXT in VAR.stdout_lines | default([])`. -/
def Context.hasLine (c : Context) (text : String) (r : Register) : Bool :=
  (splitlines (c.stdout r)).contains text

/-- `NAME\s+VALUE` from a position on; `whole` demands a space or the end after it. -/
def spacedFrom (value : List Char) (whole : Bool) (cs : List Char) : Bool :=
  !(cs.takeWhile isSpace).isEmpty && value.isPrefixOf (cs.dropWhile isSpace) &&
    (!whole || (((cs.dropWhile isSpace).drop value.length).head?.all isSpace))

/-- The test `search('NAME\s+VALUE')`. -/
def searchSpaced (name value : List Char) (whole : Bool) : List Char → Bool
  | [] => false
  | c :: cs => (name.isPrefixOf (c :: cs) && spacedFrom value whole ((c :: cs).drop name.length)) ||
      searchSpaced name value whole cs

/-! ### Conditions -/

inductive Cond where
  /-- `SETTING | bool`. -/
  | holds (s : Setting)
  /-- `not (SETTING | bool)`. -/
  | fails (s : Setting)
  /-- `(A | bool) or (B | bool)`. -/
  | either (a b : Setting)
  /-- `not (A | bool) or (B | bool)`. -/
  | implies (a b : Setting)
  /-- `groups['deployment_nodes'] | length > 0`. -/
  | nodesExist
  /-- `SETTING | int >= n`. -/
  | atLeast (s : Setting) (n : ℤ)
  /-- `A | int >= B | int`. -/
  | notBelow (a b : Setting)
  /-- `TEXT in VAR.stdout_lines | default([])`. -/
  | hasLine (text : String) (r : Register)
  | lacksLine (text : String) (r : Register)
  /-- `VAR.rc | default(1) == 0`. -/
  | rcZero (r : Register)
  /-- `VAR.stdout | default('') | trim | length > 0`. -/
  | hasOutput (r : Register)
  /-- `VAR.stdout | default('') | length > 0`. -/
  | printed (r : Register)
  /-- `VAR.stdout | trim == ''`. -/
  | noOutput (r : Register)
  /-- `(VAR.files | default([]) | length) > 0`. -/
  | hasFiles (r : Register)
  /-- `VAR.status | default(0) == 200`. -/
  | statusOk (r : Register)
  | statusNotOk (r : Register)
  /-- `VAR.stat.exists | default(false)`, and `isdir`. -/
  | present (r : Register)
  | directory (r : Register)
  /-- `VAR.content is defined`. -/
  | hasContent (r : Register)
  /-- `VAR is defined`. -/
  | defined (r : Register)
  /-- `VAR.stdout is search('NAME\s+VALUE')`. -/
  | shows (r : Register) (name value : String)
  /-- The same with the expected cluster size, which must be followed by a space or the end. -/
  | showsClusterSize (r : Register)
  /-- `free_disk_space_mariadb_password | default('') | length > 0`. -/
  | passwordKnown
  /-- The container or the password is missing. -/
  | prerequisitesMissing
  /-- `free_disk_space_mariadb_safe | default(false)`. -/
  | mariadbSafe
  /-- `not ansible_check_mode`. -/
  | notCheckMode
  /-- `item.rc | default(1) == 0`. -/
  | itemOk
  /-- `(item.stdout | int) < (CUTOFF | int)`. -/
  | itemBefore (cutoff : Fact)
  | itemNotBefore (cutoff : Fact)
  /-- `item.item in (free_disk_space_opensearch_open_indices | default([]))`. -/
  | itemOpen
  deriving DecidableEq

def Context.itemBefore (c : Context) (cutoff : Fact) : Bool :=
  toInt (.str ((c.item.map Item.stdout).getD "")) < toInt ((c.fact cutoff).getD .none)

def Cond.eval (c : Context) : Cond → Bool
  | holds s => isTrue c s
  | fails s => !isTrue c s
  | either a b => isTrue c a || isTrue c b
  | implies a b => !isTrue c a || isTrue c b
  | nodesExist => !c.env.deploymentNodes.isEmpty
  | atLeast s n => n ≤ toInt (c.env.setting s)
  | notBelow a b => toInt (c.env.setting b) ≤ toInt (c.env.setting a)
  | hasLine text r => c.hasLine text r
  | lacksLine text r => !c.hasLine text r
  | rcZero r => (c.result r).bind Result.rc = some 0
  | hasOutput r => strip (c.stdout r) ≠ ""
  | printed r => c.stdout r ≠ ""
  | noOutput r => strip (c.stdout r) = ""
  | hasFiles r => (c.result r).any fun x => !x.files.isEmpty
  | statusOk r => (c.result r).any fun x => x.status = 200
  | statusNotOk r => !(c.result r).any fun x => x.status = 200
  | present r => (c.result r).any Result.isPresent
  | directory r => (c.result r).any Result.isDir
  | hasContent r => (c.result r).isSome
  | defined r => (c.result r).isSome
  | shows r name value => searchSpaced name.toList value.toList false (c.stdout r).toList
  | showsClusterSize r => searchSpaced "wsrep_cluster_size".toList
      (c.env.setting .mariadbExpectedClusterSize).toStr.toList true (c.stdout r).toList
  | passwordKnown => textOf (c.fact .mariadbPassword) ≠ ""
  | prerequisitesMissing =>
    !c.hasLine "mariadb" .mariadbContainers || textOf (c.fact .mariadbPassword) = ""
  | mariadbSafe => ((c.fact .mariadbSafe).getD (.bool false)).truthy
  | notCheckMode => true
  | itemOk => (c.item.bind Item.rc) = some 0
  | itemBefore cutoff => c.itemBefore cutoff
  | itemNotBefore cutoff => !c.itemBefore cutoff
  | itemOpen => (textsOf (c.fact .opensearchOpenIndices)).contains ((c.item.map Item.label).getD "")

/-! ### Loops and modules -/

inductive Loop where
  /-- `VAR.files | default([])`. -/
  | files (r : Register)
  /-- `VAR.results | default([])`. -/
  | results (r : Register)
  /-- The two retention times. -/
  | retention
  /-- `free_disk_space_opensearch_indices | default([])`. -/
  | indices
  deriving DecidableEq

def Loop.items (c : Context) : Loop → List Item
  | files r => (((c.result r).map Result.files).getD []).map fun path => ⟨path, none, ""⟩
  | results r => c.results r
  | retention => [⟨"soft", none, ""⟩, ⟨"hard", none, ""⟩]
  | indices => (textsOf (c.fact .opensearchIndices)).map fun name => ⟨name, none, ""⟩

/-- `^flog-[0-9]{4}\.[0-9]{2}\.[0-9]{2}$`, where the end may be before a line end. -/
def isDatedIndex (name : String) : Bool :=
  match name.toList with
  | 'f' :: 'l' :: 'o' :: 'g' :: '-' :: a :: b :: c :: d :: '.' :: e :: f :: '.' :: g :: h :: rest =>
    [a, b, c, d, e, f, g, h].all Char.isDigit && (rest.isEmpty || rest = ['\n'])
  | _ => false

def datedNames (content : String) : Value :=
  .list ((((splitlines content).map strip).filter isDatedIndex).map .str)

/-- The cutoff of one of the two retention times. -/
def Context.cutoff (c : Context) (name : String) : Value :=
  .int (toInt (.str ((((c.results .opensearchCutoffs).find? fun i => i.label = name).map
    Item.stdout).getD "")))

/-- The password that is given, else the one of the controller, else the one of the node. -/
def Context.password (c : Context) : String :=
  let given := c.env.rootPassword c.host
  let shared := textOf ((c.env.deploymentController.head?).bind fun host =>
    factOf c.log host .kollaPasswords)
  if given ≠ "" then given
  else if shared ≠ "" then shared
  else c.stdout .localMariadbPassword

/-- What `set_fact` gives a variable. -/
inductive Expr where
  /-- The password in `VAR.content | b64decode | from_yaml`. -/
  | sharedPassword (r : Register)
  | password
  | literal (b : Bool)
  /-- The names in `VAR.content.splitlines()`, trimmed, that are dated. -/
  | datedIndices (r : Register)
  | cutoff (name : String)
  deriving DecidableEq

def Expr.eval (c : Context) : Expr → Value
  | sharedPassword r => .str (((c.result r).bind Result.databasePassword).getD "")
  | password => .str c.password
  | literal b => .bool b
  | datedIndices r => datedNames (((c.result r).map Result.content).getD "")
  | cutoff name => c.cutoff name

inductive Module where
  /-- `command`; `changes` tells whether it changes anything, or only looks. -/
  | command (changes : Bool)
  | uri (method : String)
  /-- `file` with `state: absent`. -/
  | file
  | find
  | stat
  | slurp
  | debug
  | assert (that : List Cond)
  | setFact (facts : List (Fact × Expr))
  deriving DecidableEq

def Module.mutates : Module → Bool
  | command changes => changes
  | uri method => method ≠ "GET"
  | file => true
  | _ => false

/-- The result of the module, by what the world answers; three modules ask nothing of the host. -/
def Module.result (c : Context) (answer : Result) : Module → Result
  | assert that => { answer with unreachable := false, failed := !that.all (Cond.eval c) }
  | setFact _ => { answer with unreachable := false, failed := false }
  | debug => { answer with unreachable := false, failed := false }
  | _ => answer

/-- The variables that the module sets. -/
def Module.sets : Module → List (Fact × Expr)
  | setFact facts => facts
  | _ => []

def Module.facts (c : Context) (m : Module) : List (Fact × Value) :=
  m.sets.map fun p => (p.1, p.2.eval c)

structure Action where
  name : String
  tags : List String
  module : Module
  register : Option Register := none
  /-- `failed_when: false`. -/
  neverFails : Bool := false
  loop : Option Loop := none
  when : List Cond := []
  runOnce : Bool := false
  deriving DecidableEq

/-- What a module returns on a host, after all that has happened. -/
abbrev World := List Event → String → String → Option Item → Result

section Runs

variable (env : Env) (world : World)

def Action.event (a : Action) (c : Context) : Event :=
  ⟨c.host, a.name, a.register, a.module.mutates, c.item,
    a.module.result c (world c.log c.host a.name c.item), a.module.facts c⟩

/-- A host that cannot be reached fails whatever the task says of failures. -/
def Action.succeeds (a : Action) (r : Result) : Bool :=
  !r.unreachable && (a.neverFails || !r.failed)

/-- A task for one item of its loop, or for none; whether it succeeds. -/
def Action.runItem (a : Action) (host : String) (item : Option Item) : Program Event Unit Bool := do
  let log ← Program.history
  let c : Context := ⟨env, log, host, item⟩
  if a.when.all (Cond.eval c) then
    Program.emit (a.event world c)
    return a.succeeds (a.event world c).result
  else return true

def Action.items (a : Action) (c : Context) : List (Option Item) :=
  match a.loop with
  | none => [none]
  | some loop => (loop.items c).map some

def Action.perform (a : Action) (host : String) : Program Event Unit Bool := do
  let log ← Program.history
  (a.items ⟨env, log, host, none⟩).foldlM (fun ok item => do
    return (← a.runItem env world host item) && ok) true

def Action.task (a : Action) : Playbook.Task String Event :=
  ⟨a.tags, a.runOnce, a.perform env world⟩

/-- A task or a block, whose tasks have its tags and conditions besides their own. -/
inductive Entry where
  | task (a : Action)
  | block (tags : List String) (when : List Cond) (body always : List Action)

def Action.within (a : Action) (tags : List String) (conds : List Cond) : Action :=
  { a with tags := Playbook.applyTags tags a.tags, when := conds ++ a.when }

/-- The tasks of an entry, with what they have from a block and from the include. -/
def Entry.actions (applied : List String) : Entry → List Action
  | task a => [a.within applied []]
  | block tags conds body always =>
    (body ++ always).map fun a => (a.within tags conds).within applied []

def Entry.entry (applied : List String) : Entry → Playbook.Entry String Event
  | task a => .task ((a.within applied []).task env world)
  | block tags conds body always =>
    .block (body.map fun a => ((a.within tags conds).within applied []).task env world)
      (always.map fun a => ((a.within tags conds).within applied []).task env world)

/-- The condition of an include on a host. -/
def includeHolds (conds : List Cond) (log : List Event) (host : String) : Bool :=
  conds.all (Cond.eval ⟨env, log, host, none⟩)

end Runs

end Yggdrasil.DiskCleanup
