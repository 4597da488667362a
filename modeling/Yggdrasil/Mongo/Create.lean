import Yggdrasil.Mongo.Cluster

/-! Creating a cluster. The sharded topology validates the whole request before it writes;
the replica set writes its row first and leaves the validation of the members to the
helper that creates them, which growing a replica set shares. -/

namespace Yggdrasil.Mongo

open Effect Python

def minReplicaSetMembers : ℕ := 2

def replicaSetName : String := "rs0"

def configServerReplicaSetName : String := "configRS"

def minConfigServerMembers : ℤ := 2

def minQueryRouters : ℕ := 1

def shardedTopology : String := "sharded"

/-- The MongoDB section of the configuration; an option may be missing. -/
structure MongoConf where
  clusterSecure : Bool
  volumeSupport : Bool
  devicePath : Option String
  numConfigServersPerCluster : Option ℤ
  numQueryRoutersPerCluster : Option ℤ
  configServersVolumeSize : Option ℤ
  queryRoutersVolumeSize : Option ℤ
  addMembersTimeout : ℤ
  mongodbPort : ℕ

structure DatastoreVersion where
  id : String
  imageId : Option String

structure CreateRequest where
  projectId : String
  name : String
  version : DatastoreVersion
  conf : MongoConf
  instances : List Node
  extendedProperties : Option Mapping
  locality : Option String
  configuration : Option String
  imageId : Option String

/-! ### Properties -/

/-- `(properties or {}).get(name, default)`. -/
def property (properties : Option Mapping) (name : String) (default : Value) : Value :=
  (Dict.get? (properties.getD []) (.str name)).getD default

/-- The topology an extended property names. -/
def topology (extendedProperties : Option Mapping) : Except Error String :=
  let name := lower (property extendedProperties "topology" (.str "replica_set")).toStr
  let topology := String.ofList (name.toList.map fun c => if c = '-' then '_' else c)
  if topology = "replica_set" ∨ topology = shardedTopology then .ok topology
  else .error (.rejected (.trove "MongoDB topology must be replica_set or sharded"))

def integerProperty (properties : Option Mapping) (name : String) (default minimum : ℤ) :
    Except Error ℤ :=
  match intOf (property properties name (.int default)) with
  | .ok value =>
    if value < minimum then
      .error (.rejected (.trove
        ("MongoDB extended property " ++ name ++ " must be at least " ++ toString minimum)))
    else .ok value
  | .error .overflow => .error (.failed "cannot convert float infinity to integer")
  | .error _ =>
    .error (.rejected (.trove ("MongoDB extended property " ++ name ++ " must be an integer")))

/-- `value or None`. -/
def orNone (value : Option String) : Option String := value.filter (· != "")

def findConfiguration (configurationId : Option String) (versionId : String) : Action Unit :=
  match configurationId with
  | some id => check (.configuration id versionId)
  | none => pure ()

/-! ### Members -/

def validateShardMembers (members : List Node) (conf : MongoConf) : Action Unit := do
  rejectIf (members.length < minReplicaSetMembers) (.numInstancesNotSupported minReplicaSetMembers)
  check (.instanceFlavors members conf.volumeSupport conf.devicePath)
  check (.homogeneous members)
  check (.instanceNics members)

def shardMemberConfig (clusterId shardId replicaSetName : String) : ClusterConfig :=
  ⟨clusterId, shardedTopology, .member, some shardId, some replicaSetName,
    some configServerReplicaSetName⟩

def configServerConfig (clusterId : String) : ClusterConfig :=
  ⟨clusterId, shardedTopology, .configServer, none, some configServerReplicaSetName,
    some configServerReplicaSetName⟩

def queryRouterConfig (clusterId : String) : ClusterConfig :=
  ⟨clusterId, shardedTopology, .queryRouter, none, none, some configServerReplicaSetName⟩

def replicaSetConfig (clusterId : String) : ClusterConfig :=
  ⟨clusterId, "replica_set", .member, none, some replicaSetName, none⟩

/-- Create the given instances one after the other. -/
def createAll (news : List NewInstance) : Action (List String) :=
  collect (fun new => ask (.createInstance new)) news

/-! ### Sharded cluster -/

/-- The new members of a shard that `create` asks for. -/
def shardMembers (r : CreateRequest) (first : Node) (configurationId : Option String)
    (config : ClusterConfig) : List NewInstance :=
  (r.instances.zipIdx 1).map fun (node, index) =>
    { name := node.name.getD (r.name ++ "-rs1-" ++ toString index)
      flavorId := node.flavorId
      imageId := (orNone r.imageId).or r.version.imageId
      volumeSize := first.volumeSize
      availabilityZone := node.availabilityZone
      nics := node.nics.or first.nics
      configurationId := configurationId
      clusterConfig := config
      volumeType := first.volumeType
      modules := node.modules
      locality := r.locality
      regionName := node.regionName }

/-- The config servers or the query routers that `create` asks for. -/
def roleInstances (r : CreateRequest) (first : Node) (configurationId : Option String)
    (config : ClusterConfig) (label : String) (count : ℕ) (volumeSize : ℤ) (volumeType : Value) :
    List NewInstance :=
  (List.range' 1 count).map fun index =>
    { name := r.name ++ "-" ++ label ++ "-" ++ toString index
      flavorId := first.flavorId
      imageId := (orNone r.imageId).or r.version.imageId
      volumeSize := some volumeSize
      availabilityZone := none
      nics := first.nics
      configurationId := configurationId
      clusterConfig := config
      volumeType := volumeType
      modules := none
      locality := r.locality
      regionName :=
        ((r.instances.map Node.regionName)[(index - 1) % r.instances.length]?).getD none }

/-- What a sharded request asks for, once it is validated. -/
structure ShardedPlan where
  first : Node
  numConfigServers : ℕ
  numQueryRouters : ℕ
  configVolumeSize : ℤ
  routerVolumeSize : ℤ
  configurationId : Option String

/-- `instances[0]`. -/
def firstNode : List Node → Action Node
  | [] => fail "list index out of range"
  | first :: _ => pure first

def validateSharded (r : CreateRequest) : Action ShardedPlan := do
  rejectIf (r.conf.clusterSecure = true) (.trove
    "The MongoDB sharded controller currently requires cluster_secure=false")
  validateShardMembers r.instances r.conf
  let numConfigServers ← ofExcept (integerProperty r.extendedProperties "num_configsvr"
    (r.conf.numConfigServersPerCluster.getD 3) minConfigServerMembers)
  let numQueryRouters ← ofExcept (integerProperty r.extendedProperties "num_mongos"
    (r.conf.numQueryRoutersPerCluster.getD 1) minQueryRouters)
  let first ← firstNode r.instances
  let configVolumeSize ← ofExcept (integerProperty r.extendedProperties "configsvr_volume_size"
    (r.conf.configServersVolumeSize.getD 10) 1)
  let routerVolumeSize ← ofExcept (integerProperty r.extendedProperties "mongos_volume_size"
    (r.conf.queryRoutersVolumeSize.getD 10) 1)
  let totalVolumeSize ← requiredVolumeSize (r.instances.map Node.volumeSize ++
    List.replicate numConfigServers.toNat (some configVolumeSize) ++
    List.replicate numQueryRouters.toNat (some routerVolumeSize)) r.conf.volumeSupport
  check (.quotas r.projectId
    (r.instances.length + numConfigServers.toNat + numQueryRouters.toNat) totalVolumeSize)
  let configurationId := orNone r.configuration
  findConfiguration configurationId r.version.id
  pure ⟨first, numConfigServers.toNat, numQueryRouters.toNat, configVolumeSize, routerVolumeSize,
    configurationId⟩

/-- The instances of a validated sharded request, in the order of their creation. -/
def ShardedPlan.instances (plan : ShardedPlan) (r : CreateRequest) (clusterId shardId : String) :
    List NewInstance :=
  shardMembers r plan.first plan.configurationId (shardMemberConfig clusterId shardId "rs1") ++
    roleInstances r plan.first plan.configurationId (configServerConfig clusterId) "configsvr"
      plan.numConfigServers plan.configVolumeSize
      (property r.extendedProperties "configsvr_volume_type" plan.first.volumeType) ++
    roleInstances r plan.first plan.configurationId (queryRouterConfig clusterId) "mongos"
      plan.numQueryRouters plan.routerVolumeSize
      (property r.extendedProperties "mongos_volume_type" plan.first.volumeType)

def newCluster (r : CreateRequest) (configurationId : Option String) : NewCluster :=
  ⟨r.name, r.projectId, r.version.id, configurationId, .buildingInitial⟩

def createSharded (r : CreateRequest) : Action String := do
  let plan ← validateSharded r
  let clusterId : String ← ask (.createCluster (newCluster r plan.configurationId))
  let shardId : String ← ask .generateUuid
  let _ ← createAll (plan.instances r clusterId shardId)
  ask (.castCreateCluster clusterId)
  pure clusterId

/-! ### Replica set -/

/-- What creating and growing a replica set have in common. -/
structure MembersRequest where
  projectId : String
  clusterId : String
  clusterName : String
  version : DatastoreVersion
  conf : MongoConf
  instances : List Node
  locality : Option String
  configurationId : Option String
  enforceMinimum : Bool
  imageId : Option String

def MembersRequest.news (r : MembersRequest) : List NewInstance :=
  (r.instances.zipIdx 1).map fun (node, index) =>
    { name := (orNone node.name).getD (r.clusterName ++ "-member-" ++ toString index)
      flavorId := node.flavorId
      imageId := (orNone r.imageId).or r.version.imageId
      volumeSize := node.volumeSize
      availabilityZone := node.availabilityZone
      nics := node.nics
      configurationId := r.configurationId
      clusterConfig := replicaSetConfig r.clusterId
      volumeType := node.volumeType
      modules := node.modules
      locality := r.locality
      regionName := node.regionName }

def validateMembers (r : MembersRequest) : Action Unit := do
  rejectIf (r.conf.clusterSecure = true) (.trove
    "The MongoDB replica-set controller currently requires cluster_secure=false")
  rejectIf (r.enforceMinimum = true ∧ r.instances.length < minReplicaSetMembers)
    (.numInstancesNotSupported minReplicaSetMembers)
  check (.instanceFlavors r.instances r.conf.volumeSupport r.conf.devicePath)
  check (.homogeneous r.instances)
  check (.instanceNics r.instances)
  let totalVolumeSize ← requiredVolumeSize (r.instances.map Node.volumeSize) r.conf.volumeSupport
  check (.quotas r.projectId r.instances.length totalVolumeSize)

def createInstances (r : MembersRequest) : Action (List String) := do
  validateMembers r
  createAll r.news

def CreateRequest.members (r : CreateRequest) (clusterId : String)
    (configurationId : Option String) : MembersRequest :=
  ⟨r.projectId, clusterId, r.name, r.version, r.conf, r.instances, r.locality, configurationId, true,
    r.imageId⟩

def createReplicaSet (r : CreateRequest) : Action String := do
  let configurationId := orNone r.configuration
  findConfiguration configurationId r.version.id
  let clusterId : String ← ask (.createCluster (newCluster r configurationId))
  let _ ← createInstances (r.members clusterId configurationId)
  ask (.castCreateCluster clusterId)
  pure clusterId

def create (r : CreateRequest) : Action String := do
  let name ← ofExcept (topology r.extendedProperties)
  if name = shardedTopology then createSharded r else createReplicaSet r

end Yggdrasil.Mongo
