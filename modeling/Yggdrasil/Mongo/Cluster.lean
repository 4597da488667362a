import Yggdrasil.Library.Process
import Yggdrasil.Python.Number

/-! The state the MongoDB controller works on: cluster rows and instances in Trove's
database, the calls the controller makes, and which answers and effects are possible. What
stock Trove decides for itself (flavours, networks, quotas, guests, the clock) may answer
anything; a call that fails changes nothing. -/

namespace Yggdrasil.Mongo

open Effect Python

/-! ### Rows -/

inductive TaskStatus
  | none
  | buildingInitial
  | growingCluster
  | shrinkingCluster
  | other (name : String)
  deriving DecidableEq

inductive InstanceType
  | member
  | configServer
  | queryRouter
  deriving DecidableEq

/-- The cluster configuration that the guest of an instance gets. -/
structure ClusterConfig where
  id : String
  topology : String
  instanceType : InstanceType
  shardId : Option String
  replicaSetName : Option String
  configServerReplicaSetName : Option String
  deriving DecidableEq

/-- A requested node. -/
structure Node where
  flavorId : String
  volumeSize : Option ℤ
  volumeType : Value
  name : Option String
  relatedTo : Option String
  /-- The types, when they are given as a list; one type, when it is given alone. -/
  instanceType : Option (List String ⊕ String)
  availabilityZone : Option String
  nics : Option Value
  modules : Option Value
  regionName : Option String

/-- The arguments of `Instance.create` that differ from call to call. -/
structure NewInstance where
  name : String
  flavorId : String
  imageId : Option String
  volumeSize : Option ℤ
  availabilityZone : Option String
  nics : Option Value
  configurationId : Option String
  clusterConfig : ClusterConfig
  volumeType : Value
  modules : Option Value
  locality : Option String
  regionName : Option String

structure Instance where
  id : String
  clusterId : Option String
  flavorId : String
  volumeSize : Option ℤ
  config : ClusterConfig
  deleted : Bool
  deriving DecidableEq

def Instance.type (i : Instance) : InstanceType := i.config.instanceType

def Instance.shardId (i : Instance) : Option String := i.config.shardId

/-- The arguments of `DBCluster.create`. -/
structure NewCluster where
  name : String
  tenantId : String
  datastoreVersionId : String
  configurationId : Option String
  taskStatus : TaskStatus

structure Cluster where
  id : String
  name : String
  configurationId : Option String
  taskStatus : TaskStatus
  deriving DecidableEq

structure Database where
  clusters : List Cluster
  instances : List Instance

namespace Database

variable (db : Database)

/-- The instances of a cluster that are not deleted. -/
def live (cluster : String) : List Instance :=
  db.instances.filter fun i => i.clusterId = some cluster ∧ i.deleted = false

/-- The task status of a cluster, if it exists. -/
def status (cluster : String) : Option TaskStatus :=
  (db.clusters.find? fun c => c.id = cluster).map Cluster.taskStatus

def addCluster (id : String) (new : NewCluster) : Database :=
  { db with clusters := db.clusters ++ [⟨id, new.name, new.configurationId, new.taskStatus⟩] }

def addInstance (id : String) (new : NewInstance) : Database :=
  { db with instances := db.instances ++
      [⟨id, some new.clusterConfig.id, new.flavorId, new.volumeSize, new.clusterConfig, false⟩] }

def setStatus (cluster : String) (status : TaskStatus) : Database :=
  { db with clusters := db.clusters.map fun c =>
      if c.id = cluster then { c with taskStatus := status } else c }

def detach (id : String) : Database :=
  { db with instances := db.instances.map fun i =>
      if i.id = id then { i with clusterId := none } else i }

def delete (id : String) : Database :=
  { db with instances := db.instances.map fun i =>
      if i.id = id then { i with deleted := true } else i }

end Database

/-! ### Calls -/

/-- The checks of stock Trove that can reject a request. -/
inductive Check
  | instanceFlavors (nodes : List Node) (volumeSupport : Bool) (devicePath : Option String)
  | homogeneous (nodes : List Node)
  | instanceNics (nodes : List Node)
  | quotas (projectId : String) (instances : ℕ) (volumes : Option ℤ)
  | configuration (id versionId : String)

/-- The scripts the guest gives to `mongosh`. -/
inductive Script
  | hello
  | add (hosts : List String)
  | remove (hosts : List String)
  | stepDown

/-- What `mongosh` prints, as `json.loads` reads it. -/
inductive Output
  | json (v : Value)
  | text (s : String)

inductive Call
  | check (c : Check)
  | requiredVolumeSize (sizes : List (Option ℤ)) (volumeSupport : Bool)
  | generateUuid
  | convertToHint (cluster : String)
  | loadCluster (cluster : String)
  | findInstances (cluster : String)
  | createCluster (new : NewCluster)
  | createInstance (new : NewInstance)
  | updateDb (cluster : String) (status : TaskStatus)
  | castCreateCluster (cluster : String)
  | castGrowCluster (cluster : String) (instances : List String)
  | loadInstance (id : String)
  | visibleAddresses (id : String)
  | detach (id : String)
  | delete (id : String)
  | clock
  | sleep (seconds : ℕ)
  | getReplicaSetName (guest : String)
  | removeShard (router replicaSetName : String)
  | rpc (guest : String)
  | mongosh (guest host : String) (script : Script)
  | reply (guest : String)
  | initializeReplicaSet (guest : String) (addresses : List String)
  | replicaSetStatus (guest : String)
  | addConfigServers (guest : String) (addresses : List String)
  | addShard (router replicaSetName address : String)
  | clusterComplete (guest : String)
  | allInstancesReady (instances : List String) (cluster : String)
  | resetTask (cluster : String)
  | updateStatusesOnFailure (cluster status : String)

/-- A check answers with the reason for which it rejects. -/
def Call.Answer : Call → Type
  | .check _ => Option String
  | .requiredVolumeSize .. => String ⊕ Option ℤ
  | .generateUuid => String
  | .convertToHint _ => Option String
  | .loadCluster _ => Cluster
  | .findInstances _ => List Instance
  | .createCluster _ => String
  | .createInstance _ => String
  | .loadInstance _ => Instance
  | .visibleAddresses _ => List String
  | .clock => ℤ
  | .getReplicaSetName _ => Option String
  | .removeShard .. => Value
  | .mongosh .. => Output
  | .replicaSetStatus _ => Value
  | .addShard .. => Value
  | .allInstancesReady .. => Bool
  | _ => Unit

/-- Why the strategy rejects a request. -/
inductive Rejection
  | trove (message : String)
  | numInstancesNotSupported (count : ℕ)
  | flavorsNotEqual
  | volumeSizesNotEqual
  | unavailable (status : TaskStatus)
  | notFound (uuid : String)
  | shrinkInstanceInUse (ids : List String) (reason : String)
  | stock (reason : String)

/-- An exception: a rejection by the strategy's own validation, anything else that fails,
or the task manager's timeout. -/
inductive Error
  | rejected (r : Rejection)
  | failed (message : String)
  | timeout (own : Bool)

abbrev Action (α : Type) := Process Call Call.Answer Error α

abbrev Event := (c : Call) × Except Error c.Answer

def ask (c : Call) : Action c.Answer := Process.perform c

def reject (r : Rejection) : Action α := .raise (.rejected r)

def rejectIf (c : Prop) [Decidable c] (r : Rejection) : Action Unit :=
  if c then reject r else pure ()

def fail (message : String) : Action α := .raise (.failed message)

def ofExcept : Except Error α → Action α
  | .ok a => pure a
  | .error x => .raise x

/-- One action for each element, and their results in order. -/
def collect {α β : Type} (f : α → Action β) (l : List α) : Action (List β) :=
  l.foldlM (fun done a => do
    let b ← f a
    pure (done ++ [b])) []

/-- One action for each element. -/
def forEach {α : Type} (l : List α) (f : α → Action Unit) : Action Unit :=
  l.foldlM (fun _ a => f a) ()

/-- `except Exception`, which lets a timeout pass. -/
def exceptException {α : Type} (p : Action α) (h : Error → Action α) : Action α :=
  p.handle fun
    | .timeout own => .raise (.timeout own)
    | x => h x

/-- A stock check, whose exception rejects the request. -/
def check (c : Check) : Action Unit := do
  let verdict : Option String ← ask (.check c)
  match verdict with
  | none => pure ()
  | some reason => reject (.stock reason)

/-- `models.get_required_volume_size`. -/
def requiredVolumeSize (sizes : List (Option ℤ)) (volumeSupport : Bool) : Action (Option ℤ) := do
  let answer : String ⊕ Option ℤ ← ask (.requiredVolumeSize sizes volumeSupport)
  match answer with
  | .inl reason => reject (.stock reason)
  | .inr size => pure size

/-! ### The world -/

/-- The effect of an answered call on the database, and what its answer says about it. -/
def Database.Step (db : Database) : (c : Call) → c.Answer → Database → Prop
  | .generateUuid, id, db' => (∀ i ∈ db.instances, i.shardId ≠ some id) ∧ db' = db
  | .loadCluster id, row, db' => row ∈ db.clusters ∧ row.id = id ∧ db' = db
  | .findInstances id, rows, db' => rows = db.live id ∧ db' = db
  | .createCluster new, id, db' => (∀ c ∈ db.clusters, c.id ≠ id) ∧ db' = db.addCluster id new
  | .createInstance new, id, db' => (∀ i ∈ db.instances, i.id ≠ id) ∧ db' = db.addInstance id new
  | .updateDb id status, _, db' => db' = db.setStatus id status
  | .resetTask id, _, db' => db' = db.setStatus id .none
  | .loadInstance id, row, db' => row ∈ db.instances ∧ row.id = id ∧ db' = db
  | .getReplicaSetName id, name, db' =>
    (∃ i ∈ db.instances, i.id = id ∧ name = i.config.replicaSetName) ∧ db' = db
  | .detach id, _, db' => db' = db.detach id
  | .delete id, _, db' => db' = db.delete id
  | _, _, db' => db' = db

/-- A run of calls: the database and the calls answered so far. -/
structure Run where
  db : Database
  log : List Event

/-- Every answered call is logged; one that fails leaves the database alone, and only the
strategy rejects. -/
def world : World Run Call Call.Answer Error
  | s, c, .ok a, s' => s.db.Step c a s'.db ∧ s'.log = s.log ++ [⟨c, .ok a⟩]
  | s, c, .error x, s' => (∀ r, x ≠ .rejected r) ∧ s'.db = s.db ∧ s'.log = s.log ++ [⟨c, .error x⟩]

end Yggdrasil.Mongo
