import Mathlib.Data.List.Sort
import Mathlib.Data.String.Basic
import Yggdrasil.Mongo.Create

/-! Growing a cluster. A replica set gets further members; a sharded cluster gets new shards,
each a group of the requested members, and new query routers. -/

namespace Yggdrasil.Mongo

open Effect Python

/-- The cluster object an operation works on: the row as it was loaded and its settings. -/
structure MongoDbCluster where
  row : Cluster
  projectId : String
  version : DatastoreVersion
  conf : MongoConf

def MongoDbCluster.id (self : MongoDbCluster) : String := self.row.id

def isSharded (instances : List Instance) : Bool :=
  instances.any fun i => i.type = .configServer ∨ i.type = .queryRouter

def validateClusterAvailable (self : MongoDbCluster) : Action Unit :=
  rejectIf (self.row.taskStatus ≠ .none) (.unavailable self.row.taskStatus)

/-- The new members of a replica set must be like its first instance. -/
def validateGrowth (instances : List Node) (existing : List Instance) : Except Error Unit :=
  if instances = [] then .error (.rejected (.trove "No instances specified for grow"))
  else match existing with
    | [] => .error (.rejected (.trove "MongoDB cluster has no members"))
    | reference :: _ => instances.foldlM (fun _ node =>
        if node.flavorId ≠ reference.flavorId then .error (.rejected .flavorsNotEqual)
        else if node.volumeSize ≠ reference.volumeSize then .error (.rejected .volumeSizesNotEqual)
        else .ok ()) ()

/-! ### Shards -/

/-- The groups so far, the group of every name that was met, and the nodes without one. -/
structure Grouping where
  groups : List (List Node)
  names : List (String × ℕ)
  unnamed : List Node

def groupItem (g : Grouping) (item : Node) : Except Error Grouping :=
  match (orNone item.relatedTo).or (orNone item.name) with
  | none => .ok { g with unnamed := g.unnamed ++ [item] }
  | some key =>
    let g := match Dict.get? g.names key with
      | some _ => g
      | none => { g with groups := g.groups ++ [[]], names := Dict.set g.names key g.groups.length }
    let group := (Dict.get? g.names key).getD 0
    let g := { g with groups := g.groups.modify group (· ++ [item]) }
    match orNone item.name with
    | none => .ok g
    | some name =>
      if (Dict.get? g.names name).any (· != group) then
        .error (.rejected (.trove "Replica member names cannot belong to multiple MongoDB shards"))
      else .ok { g with names := Dict.set g.names name group }

def groupShardInstances (instances : List Node) : Except Error (List (List Node)) :=
  if instances.isEmpty then .ok []
  else if instances.all fun item => (orNone item.name).isNone && (orNone item.relatedTo).isNone then
    .ok [instances]
  else match instances.foldlM groupItem ⟨[], [], []⟩ with
    | .error x => .error x
    | .ok g =>
      if g.unnamed.isEmpty then .ok g.groups
      else .error (.rejected (.trove
        "Named MongoDB replica members are required when related_to is used"))

def instanceType (node : Node) : Except Error (Option String) :=
  match node.instanceType with
  | none => .ok none
  | some (.inr type) => .ok (some type)
  | some (.inl [type]) => .ok (some type)
  | some (.inl _) =>
    .error (.rejected (.trove "Each MongoDB grow node must have exactly one type"))

/-- The replicas and the routers of a grow request; any other type is refused. -/
def sortNodes (instances : List Node) : Except Error (List Node × List Node) :=
  match instances.mapM fun node => (instanceType node).map fun type => (node, type) with
  | .error x => .error x
  | .ok typed =>
    let replica := fun type => type = some "replica" ∨ type = some "member" ∨ type = none
    let unsupported := (typed.filter fun p => ¬replica p.2 ∧ p.2 ≠ some "query_router").filterMap
      Prod.snd
    if unsupported.isEmpty then
      .ok ((typed.filter fun p => replica p.2).map Prod.fst,
        (typed.filter fun p => p.2 = some "query_router").map Prod.fst)
    else .error (.rejected (.trove ("MongoDB sharded grow does not support node type(s): " ++
      (Value.list ((unsupported.dedup.insertionSort (· ≤ ·)).map .str)).repr)))

/-- The shards that members belong to. -/
def shardIds (instances : List Instance) : List String :=
  Dict.firsts id ((instances.filter fun i => i.type = .member).filterMap fun i =>
    orNone i.shardId)

/-- The name of the shard with the given number. -/
def shardName (number : ℕ) : String := "rs" ++ toString number

section Sharded

variable (self : MongoDbCluster) (locality imageId : Option String)

/-- A new instance of a sharded grow. -/
def grownInstance (config : ClusterConfig) (defaultName : String) (node : Node) : NewInstance where
  name := node.name.getD defaultName
  flavorId := node.flavorId
  imageId := (orNone imageId).or self.version.imageId
  volumeSize := node.volumeSize
  availabilityZone := node.availabilityZone
  nics := node.nics
  configurationId := self.row.configurationId
  clusterConfig := config
  volumeType := node.volumeType
  modules := node.modules
  locality := locality
  regionName := node.regionName

def grownMembers (shardId : String) (number : ℕ) (group : List Node) : List NewInstance :=
  (group.zipIdx 1).map fun (node, index) =>
    grownInstance self locality imageId (shardMemberConfig self.id shardId (shardName number))
      (self.row.name ++ "-" ++ shardName number ++ "-" ++ toString index) node

def grownRouters (routers : List Node) : List NewInstance :=
  (routers.zipIdx 1).map fun (node, index) =>
    grownInstance self locality imageId (queryRouterConfig self.id)
      (self.row.name ++ "-mongos-" ++ toString index) node

/-- The groups and routers of a grow request that passes the strategy's checks. -/
def validateShardedGrowth (instances : List Node) : Action (List (List Node) × List Node) := do
  let (replicas, routers) ← ofExcept (sortNodes instances)
  let groups ← ofExcept (groupShardInstances replicas)
  forEach groups fun group => validateShardMembers group self.conf
  forEach routers fun router => do
    check (.instanceFlavors [router] self.conf.volumeSupport self.conf.devicePath)
    check (.instanceNics [router])
  rejectIf (groups = [] ∧ routers = []) (.trove "No MongoDB nodes specified for grow")
  let news := replicas ++ routers
  let volumes ← requiredVolumeSize (news.map Node.volumeSize) self.conf.volumeSupport
  check (.quotas self.projectId news.length volumes)
  pure (groups, routers)

/-- Create a shard for every group, numbered from `number`. -/
def createShards (number : ℕ) (groups : List (List Node)) : Action (List String) :=
  (groups.zipIdx number).foldlM (fun ids (group, number) => do
    let shardId : String ← ask .generateUuid
    let created ← createAll (grownMembers self locality imageId shardId number group)
    pure (ids ++ created)) []

def createShardedInstances (existing : List Instance) (instances : List Node) :
    Action (List String) := do
  let (groups, routers) ← validateShardedGrowth self instances
  let members ← createShards self locality imageId ((shardIds existing).length + 1) groups
  let created ← createAll (grownRouters self locality imageId routers)
  pure (members ++ created)

end Sharded

def growSharded (self : MongoDbCluster) (existing : List Instance) (instances : List Node)
    (imageId : Option String) : Action Unit := do
  validateClusterAvailable self
  let locality : Option String ← ask (.convertToHint self.id)
  let newIds ← exceptException (createShardedInstances self locality imageId existing instances)
    fun x => do
      ask (.updateDb self.id .none)
      Process.raise x
  ask (.updateDb self.id .growingCluster)
  ask (.castGrowCluster self.id newIds)

def growReplicaSet (self : MongoDbCluster) (existing : List Instance) (instances : List Node)
    (imageId : Option String) : Action Unit := do
  validateClusterAvailable self
  ofExcept (validateGrowth instances existing)
  ask (.updateDb self.id .growingCluster)
  let locality : Option String ← ask (.convertToHint self.id)
  let newIds ← createInstances ⟨self.projectId, self.id, self.row.name, self.version, self.conf,
    instances, locality, self.row.configurationId, false, imageId⟩
  ask (.castGrowCluster self.id newIds)

def grow (self : MongoDbCluster) (instances : List Node) (imageId : Option String) :
    Action Unit := do
  let existing : List Instance ← ask (.findInstances self.id)
  if isSharded existing then growSharded self existing instances imageId
  else growReplicaSet self existing instances imageId

end Yggdrasil.Mongo
