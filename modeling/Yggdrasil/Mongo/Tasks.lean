import Yggdrasil.Mongo.Shrink

/-! The task manager's side: it waits for the instances, assembles the topology through
their guests, and clears the task of the cluster or records a failure. -/

namespace Yggdrasil.Mongo

open Effect Python

/-- Clear the task after the operation, unless it returns `False`, raises an exception or
runs out of time. -/
def runWithTimeout (cluster failureStatus : String) (operation : Action (Option Bool)) :
    Action Unit :=
  Process.handle (do
      let completed ← operation
      if completed = some false then ask (.updateStatusesOnFailure cluster failureStatus)
      else ask (.resetTask cluster))
    fun
    | .timeout false => .raise (.timeout false)
    | _ => ask (.updateStatusesOnFailure cluster failureStatus)

/-! ### Replica sets -/

/-- Equal to 2 for Python. -/
def isTwo : Value → Bool
  | .int i => i == 2
  | .float r => r == "2.0"
  | _ => false

def hashable : Value → Bool
  | .seq .tuple items => (items.attach.map fun ⟨v, _⟩ => hashable v).all id
  | .seq .. => false
  | .dict _ => false
  | _ => true

/-- The name of a member that is primary or secondary; no answer where Python raises. -/
def readyName : Value → Option (Option Value)
  | .dict member =>
    if isOne (Mapping.get member "state") || isTwo (Mapping.get member "state") then
      if hashable (Mapping.get member "name") then some (some (Mapping.get member "name")) else none
    else some none
  | _ => none

/-- The elements of the `members` of a status; no answer where Python raises. -/
def statusMembers : Value → Option (List Value)
  | .dict status =>
    match (Dict.get? status (.str "members")).getD (.list []) with
    | .seq _ items => some items
    | .dict [] => some []
    | .str "" => some []
    | _ => none
  | _ => none

/-- Every address is the name of a ready member. -/
def allReady (status : Value) (addresses : List String) : Bool :=
  match (statusMembers status).bind fun members => members.mapM readyName with
  | some names => addresses.all fun address => names.any fun
      | some (.str name) => name == address
      | _ => false
  | none => false

def waitLoop (guest : String) (addresses : List String) (deadline : ℤ) : ℕ → Action Unit
  | 0 => .hang
  | fuel + 1 => do
    let now : ℤ ← ask .clock
    if now < deadline then do
      let ready ← exceptException (do
        let status : Value ← ask (.replicaSetStatus guest)
        pure (allReady status addresses)) fun _ => pure false
      if ready then pure ()
      else do
        ask (.sleep 2)
        waitLoop guest addresses deadline fuel
    else fail "MongoDB replica-set members did not become ready in time"

section Tasks

variable (conf : MongoConf) (fuel : ℕ)

def waitForReplicaMembers (guest : String) (addresses : List String) : Action Unit := do
  let now : ℤ ← ask .clock
  waitLoop guest addresses (now + conf.addMembersTimeout) fuel

def address (i : Instance) : Action String := do
  let addresses : List String ← ask (.visibleAddresses i.id)
  match addresses with
  | [] => fail ("MongoDB member " ++ i.id ++ " has no visible address")
  | address :: _ => pure (address ++ ":" ++ toString conf.mongodbPort)

def initializeReplicaSet (members : List Instance) : Action (List String) :=
  match members with
  | [] => fail "MongoDB replica set has no members"
  | first :: _ => do
    let addresses ← collect (address conf) members
    ask (.initializeReplicaSet first.id addresses)
    waitForReplicaMembers conf fuel first.id addresses
    pure addresses

def byType (instances : List Instance) (type : InstanceType) : List Instance :=
  instances.filter fun i => i.type = type

def configureQueryRouters (routers configServers : List Instance) : Action Unit :=
  if routers = [] then fail "A sharded MongoDB cluster needs a query router"
  else do
    let addresses ← collect (address conf) configServers
    if addresses = [] then fail "A sharded MongoDB cluster needs config servers"
    else forEach routers fun router => ask (.addConfigServers router.id addresses)

def createShard (queryRouter : Instance) (members : List Instance) : Action Unit := do
  let addresses ← initializeReplicaSet conf fuel members
  match members, addresses with
  | primary :: _, first :: _ => do
    let name : Option String ← ask (.getReplicaSetName primary.id)
    match orNone name with
    | none => fail "MongoDB shard has no replica-set name"
    | some name => do
      let result : Value ← ask (.addShard queryRouter.id name first)
      if refused result then
        fail ("MongoDB query router rejected shard " ++ name ++ ": " ++ result.toStr)
      else pure ()
  | _, _ => fail "list index out of range"

/-- The members by shard, in the order in which the shards appear. -/
def shardGroups (members : List Instance) : List (List Instance) :=
  (Dict.firsts id (members.map Instance.shardId)).map fun shard =>
    members.filter fun m => m.shardId = shard

def createShardsOf (queryRouters members : List Instance) : Action Unit :=
  forEach (shardGroups members) fun group =>
    match queryRouters with
    | [] => fail "list index out of range"
    | router :: _ => createShard conf fuel router group

/-! ### Tasks of a cluster -/

def complete (members : List Instance) : Action Unit :=
  forEach members fun m => ask (.clusterComplete m.id)

def createTopology (members : List Instance) : Action Unit :=
  if isSharded members then do
    let _ ← initializeReplicaSet conf fuel (byType members .configServer)
    configureQueryRouters conf (byType members .queryRouter) (byType members .configServer)
    createShardsOf conf fuel (byType members .queryRouter) (byType members .member)
  else do
    let _ ← initializeReplicaSet conf fuel members
    pure ()

def createOperation (cluster : String) : Action (Option Bool) := do
  let rows : List Instance ← ask (.findInstances cluster)
  let ready : Bool ← ask (.allInstancesReady (rows.map Instance.id) cluster)
  if ready then do
    let members ← collect loadInstance rows
    createTopology conf fuel members
    complete members
    pure none
  else pure (some false)

def createCluster (cluster : String) : Action Unit :=
  runWithTimeout cluster "BUILDING_ERROR_SERVER" (createOperation conf fuel cluster)

/-- The new members of a replica set are added through its first listed instance. -/
def growMembers (first : Instance) (news : List Instance) : Action Unit := do
  let addresses ← collect (address conf) news
  let _ ← ask (.loadInstance first.id)
  rpc first.id (addReplicaMembers first.id addresses)
  waitForReplicaMembers conf fuel first.id addresses

def configureNewRouters (existing newRouters : List Instance) : Action Unit :=
  if newRouters = [] then pure ()
  else configureQueryRouters conf newRouters (byType existing .configServer)

def growShards (existing news : List Instance) : Action Unit := do
  let newRouters := byType news .queryRouter
  let newMembers := byType news .member
  configureNewRouters conf existing newRouters
  let queryRouters := byType existing .queryRouter ++ newRouters
  if newMembers = [] then pure ()
  else if queryRouters = [] then fail "A sharded MongoDB cluster needs a query router"
  else createShardsOf conf fuel queryRouters newMembers

def growTopology (existing news : List Instance) : Action Unit :=
  match existing with
  | [] => fail "MongoDB cluster has no existing member"
  | first :: _ =>
    if isSharded (existing ++ news) then growShards conf fuel existing news
    else growMembers conf fuel first news

def growOperation (cluster : String) (newIds : List String) : Action (Option Bool) := do
  let ready : Bool ← ask (.allInstancesReady newIds cluster)
  if ready then do
    let rows : List Instance ← ask (.findInstances cluster)
    let existing ← collect loadInstance (rows.filter fun i => i.id ∉ newIds)
    let news ← collect (fun id => ask (.loadInstance id)) newIds
    growTopology conf fuel existing news
    complete news
    pure none
  else pure (some false)

def growCluster (cluster : String) (newIds : List String) : Action Unit :=
  runWithTimeout cluster "GROWING_ERROR" (growOperation conf fuel cluster newIds)

/-- Returns nothing whether or not a removed instance is still listed. -/
def shrinkOperation (cluster : String) (ids : List String) : Action (Option Bool) := do
  let rows : List Instance ← ask (.findInstances cluster)
  if ids.any fun id => id ∈ rows.map Instance.id then pure none
  else pure none

def shrinkCluster (cluster : String) (ids : List String) : Action Unit :=
  runWithTimeout cluster "SHRINKING_ERROR" (shrinkOperation cluster ids)

end Tasks

end Yggdrasil.Mongo
